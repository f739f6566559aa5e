import LedgerClient.Signature.Curve
import LedgerClient.Hash.Sha512
/-!
# Ed25519

Signatures are made from a secret seed of 32 bytes and depend on seed and message only.  `verify`
checks the key, then the form of the signature, then the equation; points of small order are
accepted as keys, and a second number that is not reduced is refused.
-/

namespace LedgerClient.Ed25519

open Curve

/-- Why a signature is not accepted. -/
inductive Refusal where
  | keyLength
  | keyNotOnCurve
  | signatureLength
  | notReduced
  | equation
  deriving DecidableEq, Repr

def Refusal.message : Refusal → String
  | .keyLength => "identity is not an ed25519 public key"
  | .keyNotOnCurve => "signature error: Cannot decompress Edwards point"
  | .signatureLength => "signature error"
  | .notReduced => "signature error: Cannot use scalar with high-bit set"
  | .equation => "signature error: Verification equation was not satisfied"

/-- A hash as a number modulo the order of the base point. -/
def challenge (bs : Bytes) : Nat := ofLittleEndian (Sha512.hash bs) % order

/-- Clears the three lowest bits and the highest, and sets the one below it. -/
def clamp (n : Nat) : Nat := n % Nat.pow 2 254 / 8 * 8 + Nat.pow 2 254

/-- A secret key: the number it stands for, and the bytes that make its nonces. -/
structure SecretKey where
  scalar : Nat
  nonceKey : Bytes
  publicKey : Bytes

def SecretKey.ofSeed (seed : Bytes) : SecretKey :=
  let h := Sha512.hash seed
  let a := clamp (ofLittleEndian (h.take 32))
  { scalar := a, nonceKey := h.drop 32, publicKey := (Point.base.times a).toBytes }

def SecretKey.sign (key : SecretKey) (message : Bytes) : Bytes :=
  let r := challenge (key.nonceKey ++ message)
  let commitment := (Point.base.times r).toBytes
  let k := challenge (commitment ++ key.publicKey ++ message)
  commitment ++ littleEndian 32 ((r + k * key.scalar) % order)

def verify (publicKey message signature : Bytes) : Except Refusal Unit :=
  if publicKey.length ≠ 32 then .error .keyLength
  else
    match Point.ofBytes? publicKey with
    | none => .error .keyNotOnCurve
    | some key =>
      let commitment := signature.take 32
      let s := ofLittleEndian (signature.drop 32)
      if signature.length ≠ 64 then .error .signatureLength
      else if order ≤ s then .error .notReduced
      else
        let k := challenge (commitment ++ publicKey ++ message)
        if ((Point.base.times s).add (key.neg.times k)).toBytes = commitment then .ok ()
        else .error .equation

end LedgerClient.Ed25519
