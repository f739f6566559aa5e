import LedgerClient.Identity.Signer
/-!
# Transactions

`assembleTransaction` merges the responses of endorsers that agree into a signed envelope.  The
call goes into the transaction without its transient data.
-/

namespace LedgerClient

/-- Whether a status stands for a successful simulation. -/
def isSuccess (status : Int32) : Bool := 200 ≤ status && status < 400

/-- Refuses the first response that is no success. -/
def requireSuccess (responses : List ProposalResponse) : Except ClientError Unit :=
  match responses.find? fun r => !isSuccess r.response.status with
  | some r => .error (.endorsementFailed r.response.status r.response.message)
  | none => .ok ()

/-- The transaction of one action. -/
def transactionOf (signatureHeader : Bytes) (payload : ChaincodeProposalPayload) (result : Bytes)
    (endorsements : List Endorsement) : Transaction :=
  let stripped : ChaincodeProposalPayload := { payload with transientMap := .empty }
  let action : ChaincodeActionPayload := {
    chaincodeProposalPayload := toWire stripped
    action := { proposalResponsePayload := result, endorsements := endorsements } }
  { actions := [{ header := signatureHeader, payload := toWire action }] }

def assembleTransaction (proposal : Proposal) (signer : Signer)
    (responses : List ProposalResponse) : Except ClientError Envelope := do
  let first ← match responses with
    | [] => throw .noResponses
    | first :: _ => pure first
  let header ← decodeMessage Header proposal.header
  let signatureHeader ← decodeMessage SignatureHeader header.signatureHeader
  if signer.identity ≠ signatureHeader.creator then throw .creatorMismatch
  requireSuccess responses
  if responses.any fun r => r.payload ≠ first.payload then throw .endorsementMismatch
  let payload ← decodeMessage ChaincodeProposalPayload proposal.payload
  let transaction := transactionOf header.signatureHeader payload first.payload
    (responses.filterMap (·.endorsement))
  let signed : Payload := { header := some header, data := toWire transaction }
  let bytes := toWire signed
  return { payload := bytes, signature := ← signer.sign bytes }

end LedgerClient
