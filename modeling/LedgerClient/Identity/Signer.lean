import LedgerClient.Error
import LedgerClient.Hash.Blake3
import LedgerClient.Message.Envelope
import LedgerClient.Signature.Ed25519
import LedgerClient.Text.Blank
import LedgerClient.Text.Hex
/-!
# Signers

A signer stands for one identity of an organization.  Headers take the time and the number of
their nonce from a `HeaderSource`; a header that was made keeps its number used up, whatever
becomes of it.
-/

namespace LedgerClient

/-- What signature headers and channel headers are made from. -/
structure HeaderSource where
  time : Timestamp
  /-- Signature headers made so far. -/
  drawn : Nat

/-- A computation that may make headers. -/
abbrev Issuing := EStateM ClientError HeaderSource

/-- A computation that makes no headers. -/
def Issuing.ofExcept {α : Type} : Except ClientError α → Issuing α
  | .ok a => pure a
  | .error e => throw e

instance : MonadLift (Except ClientError) Issuing := ⟨Issuing.ofExcept⟩

structure Signer where
  orgId : String
  /-- The identity as it stands in headers. -/
  identity : Bytes
  sign : Bytes → Except ClientError Bytes
  /-- The nonce of header number `n`. -/
  nonce : (n : Nat) → Except ClientError Bytes

/-- Makes a header; where the signer has no nonce, no number is used up. -/
def Signer.newHeader (s : Signer) : Issuing SignatureHeader := do
  let source ← get
  let nonce ← s.nonce source.drawn
  set { source with drawn := source.drawn + 1 }
  return { creator := s.identity, nonce := nonce }

/-- The length of a nonce. -/
def nonceSize : Nat := 24

/-- A nonce whose bytes are all the number of the header. -/
def numberedNonce (n : Nat) : Bytes := List.replicate nonceSize (UInt8.ofNat n)

/-! ## Keys -/

def identityOf (orgId : String) (publicKey : Bytes) : Bytes :=
  toWire ({ orgId := orgId, idBytes := publicKey } : SerializedIdentity)

/-- The signer of a key, with the nonces given. -/
def Signer.ofKey (orgId : String) (key : Ed25519.SecretKey) (nonces : Nat → Bytes) : Signer where
  orgId := orgId
  identity := identityOf orgId key.publicKey
  sign := fun message => .ok (key.sign message)
  nonce := fun n => .ok (nonces n)

/-- The key written as hexadecimal digits, with white space around them passed over. -/
def keyOfHex (secret : String) : Except ClientError Ed25519.SecretKey :=
  match Hex.decode (Utf8.encodeChars (trimBlank secret.toList)) with
  | .error fault => .error (.invalidArgument s!"bad secret key hex: {fault.message}")
  | .ok seed =>
    if seed.length = 32 then .ok (.ofSeed seed)
    else .error (.invalidArgument s!"secret key must be 32 bytes, got {seed.length}")

/-- The text of a file. -/
def textOfFile (content : Except FileFault Bytes) : Except FileFault String := do
  match Utf8.decode (← content) with
  | .ok text => return text
  | .error _ => throw .notText

def keyOfFile (content : Except FileFault Bytes) : Except ClientError Ed25519.SecretKey := do
  keyOfHex (← (textOfFile content).mapError .file)

/-! ## Hashes and checks -/

def hashOf (bs : Bytes) : Bytes := Blake3.hash bs

/-- The id of the transaction that a header starts. -/
def txIdOf (header : SignatureHeader) : String :=
  Hex.encode (hashOf (header.nonce ++ header.creator))

def signProposal (proposal : Proposal) (signer : Signer) : Except ClientError SignedProposal := do
  let bytes := toWire proposal
  return { proposalBytes := bytes, signature := ← signer.sign bytes }

/-- Checks a signature made by the holder of an identity. -/
def verifySignature (identity message signature : Bytes) : Except ClientError Unit := do
  let identity ← decodeMessage SerializedIdentity identity
  (Ed25519.verify identity.idBytes message signature).mapError fun r => .signing r.message

end LedgerClient
