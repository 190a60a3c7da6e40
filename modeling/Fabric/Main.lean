import Fabric.Command.Line
import Std.Time.DateTime.Timestamp

namespace Fabric

def readFile (path : String) : IO (Except FileFault Bytes) := do
  try return .ok (← IO.FS.readBinFile path).toList
  catch
    | .noFileOrDirectory .. => return .error .notFound
    | e => return .error (.other e.toString)

/-- The files under some paths; there are no others. -/
def readFiles (paths : List String) : IO Files := do
  let contents ← paths.mapM fun path => return (path, ← readFile path)
  return fun path => (contents.lookup path).getD (.error .notFound)

/-- A file that does not exist changes nothing. -/
def readConfiguration (path : Option String) : IO (Except CommandError Configuration) := do
  let load (text : Option String) : Except CommandError Configuration :=
    match Configuration.load? text with
    | some c => .ok c
    | none => .error (.context "loading configuration" .configuration)
  match path with
  | none => return load none
  | some path =>
    match (← readFiles [path]).text path with
    | .ok text => return load (some text)
    | .error .notFound => return load none
    | .error fault => return .error (.context "loading configuration" (.file fault))

def now : IO Message.Timestamp := do
  let d := (← Std.Time.Timestamp.now).toDurationSinceUnixEpoch
  return ⟨Int64.ofInt d.second.val, Int32.ofInt d.nano.val⟩

def surroundings (s : Settings) : IO Surroundings := do
  let nonce ← IO.getRandomBytes s.nonceLength.toUSize
  return ⟨← now, fun n => nonce.toList.take n⟩

def runLine (line : CommandLine) : IO (Except CommandError Output) := do
  match ← readConfiguration line.config with
  | .error e => return .error e
  | .ok config =>
    let files ← readFiles (line.command.paths config)
    let w ← surroundings config.protocol
    return (line.command.run files config .software w).outcome

end Fabric

open Fabric in
def main (args : List String) : IO UInt32 := do
  match CommandLine.ofWords args with
  | .error e =>
    IO.eprintln s!"error: {e.message}"
    return 2
  | .ok line =>
    match ← runLine line with
    | .ok output =>
      IO.println output.render
      return 0
    | .error e =>
      IO.eprintln s!"error: {e.message}"
      return 1
