import LedgerClient.Text.Utf8
/-!
# Hexadecimal

`Hex.encode` writes two lower-case digits a byte; `Hex.decode` reads digits of either case.
-/

namespace LedgerClient.Hex

inductive Fault where
  | oddLength
  /-- The byte at `index` is no digit. -/
  | invalidDigit (byte : UInt8) (index : Nat)
  deriving DecidableEq, Repr

def digit (n : UInt8) : Char :=
  if n < 10 then Char.ofNat (48 + n.toNat) else Char.ofNat (87 + n.toNat)

def encode (bs : Bytes) : String :=
  String.ofList (bs.flatMap fun b => [digit (b / 16), digit (b % 16)])

def value? (b : UInt8) : Option UInt8 :=
  if 48 ≤ b && b ≤ 57 then some (b - 48)
  else if 97 ≤ b && b ≤ 102 then some (b - 87)
  else if 65 ≤ b && b ≤ 70 then some (b - 55)
  else none

def value (index : Nat) (b : UInt8) : Except Fault UInt8 :=
  match value? b with
  | some v => .ok v
  | none => .error (.invalidDigit b index)

def decodeFrom (index : Nat) : Bytes → Except Fault Bytes
  | [] => .ok []
  | [_] => .error .oddLength
  | high :: low :: rest => do
    let h ← value index high
    let l ← value (index + 1) low
    let bytes ← decodeFrom (index + 2) rest
    return (h * 16 + l) :: bytes

/-- An odd number of digits is reported before any digit is looked at. -/
def decode (digits : Bytes) : Except Fault Bytes :=
  if digits.length % 2 = 1 then .error .oddLength else decodeFrom 0 digits

/-- Whether a code point below 256 is shown as it is in a quoted character. -/
def isShown (b : UInt8) : Bool := 0x20 ≤ b && b < 0x7F || 0xA1 ≤ b && b != 0xAD

/-- The byte as a quoted character; what cannot be shown is written by its code. -/
def quote (b : UInt8) : String :=
  if b = 0 then "'\\0'"
  else if b = 9 then "'\\t'"
  else if b = 10 then "'\\n'"
  else if b = 13 then "'\\r'"
  else if b = 39 then "'\\''"
  else if b = 92 then "'\\\\'"
  else if isShown b then s!"'{Char.ofNat b.toNat}'"
  else "'\\u\x7b" ++ String.ofList (Nat.toDigits 16 b.toNat) ++ "\x7d'"

def Fault.message : Fault → String
  | .oddLength => "Odd number of digits"
  | .invalidDigit byte index => s!"Invalid character {quote byte} at position {index}"

end LedgerClient.Hex
