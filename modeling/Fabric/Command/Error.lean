import Fabric.Request.Error

namespace Fabric

inductive FileFault
  | notFound
  | notText
  | other (text : String)
deriving DecidableEq, Repr

def FileFault.message : FileFault → String
  | .notFound => "No such file or directory (os error 2)"
  | .notText => "stream did not contain valid UTF-8"
  | .other text => text

inductive CommandError
  | policy (e : PolicyError)
  | request (e : RequestError)
  | base64
  | transientEntry (entry : String)
  | noIdentity
  | file (fault : FileFault)
  | collections
  | configuration
  | context (task : String) (cause : CommandError)

namespace CommandError

/-- A request's error, and the one that it stands for. -/
def causesOfRequest (e : RequestError) : List String :=
  match e with
  | .policy cause => [e.message, cause.message]
  | .crypto cause => [e.message, cause.message]
  | e => [e.message]

def causes : CommandError → List String
  | .policy e => [e.message]
  | .request e => causesOfRequest e
  | .base64 => ["not base64"]
  | .transientEntry entry => [s!"transient entry '{entry}' is not key=value"]
  | .noIdentity => ["identity.msp_id, identity.cert_path and identity.key_path must be configured"]
  | .file fault => [fault.message]
  | .collections => ["not a list of collections"]
  | .configuration => ["not a configuration"]
  | .context task cause => task :: causes cause

def message (e : CommandError) : String := String.intercalate ": " e.causes

end CommandError

end Fabric
