import Fabric.Proofs.Request.Proposal

namespace Fabric

open Message (ActionPayload EndorsedAction Envelope Header Payload Proposal ProposalPayload ProposalResponse)
open Wire (Passes)

namespace Message

def transientEntry (entry : String × Bytes) : Bytes :=
  Wire.Record.encodeBlock 2 (Wire.Value.encodeFields (Wire.Fields.putText 1 entry.1 ++ Wire.Fields.putBytes 2 entry.2))

end Message

end Fabric
