import LedgerClient.Bytes
/-!
# UTF-8

`Utf8.encode` writes a text as bytes and `Utf8.decode` reads it back.  A byte string that is no
text is refused at the first sequence that no further byte can mend: either the sequence breaks a
rule after so many bytes, or the input ends inside it.
-/

namespace LedgerClient.Utf8

inductive Fault where
  /-- The sequence that starts at `index` breaks a rule after `length` bytes. -/
  | invalid (length index : Nat)
  /-- The input ends inside the sequence that starts at `index`. -/
  | incomplete (index : Nat)
  deriving DecidableEq, Repr

def Fault.message : Fault → String
  | .invalid length index => s!"invalid utf-8 sequence of {length} bytes from index {index}"
  | .incomplete index => s!"incomplete utf-8 byte sequence from index {index}"

/-- A continuation byte that carries the six bits of `n`. -/
def trail (n : Nat) : UInt8 := UInt8.ofNat (0x80 + n % 64)

def encodeChar (c : Char) : Bytes :=
  let n := c.toNat
  if n < 0x80 then [UInt8.ofNat n]
  else if n < 0x800 then [UInt8.ofNat (0xC0 + n / 64), trail n]
  else if n < 0x10000 then [UInt8.ofNat (0xE0 + n / 4096), trail (n / 64), trail n]
  else [UInt8.ofNat (0xF0 + n / 262144), trail (n / 4096), trail (n / 64), trail n]

def encodeChars (cs : List Char) : Bytes := cs.flatMap encodeChar

def encode (s : String) : Bytes := encodeChars s.toList

/-- Number of bytes that `encode` writes for a character. -/
def width (c : Char) : Nat := (encodeChar c).length

/-- Number of bytes that `encodeChars` writes. -/
def size (cs : List Char) : Nat := cs.foldr (fun c n => width c + n) 0

/-- The parts of a text before and after an offset in bytes, if it lies between characters. -/
def splitBytes? : (n : Nat) → List Char → Option (List Char × List Char)
  | 0, cs => some ([], cs)
  | _ + 1, [] => none
  | n + 1, c :: cs =>
    if width c ≤ n + 1 then
      (splitBytes? (n + 1 - width c) cs).map fun parts => (c :: parts.1, parts.2)
    else none

def isTrail (b : UInt8) : Bool := 0x80 ≤ b && b ≤ 0xBF

/-- Whether `b` may follow the first byte `lead` of a sequence of three: overlong forms and
surrogates are refused. -/
def followsThree (lead b : UInt8) : Bool :=
  isTrail b && (lead != 0xE0 || 0xA0 ≤ b) && (lead != 0xED || b ≤ 0x9F)

/-- Whether `b` may follow the first byte `lead` of a sequence of four: overlong forms and code
points from 0x110000 on are refused. -/
def followsFour (lead b : UInt8) : Bool :=
  isTrail b && (lead != 0xF0 || 0x90 ≤ b) && (lead != 0xF4 || b ≤ 0x8F)

def bits (b : UInt8) : Nat := b.toNat % 64

/-- Reads the rest of a text of which `index` bytes have been read. -/
def decodeFrom (index : Nat) : Bytes → Except Fault (List Char)
  | [] => .ok []
  | a :: rest =>
    if a < 0x80 then (Char.ofNat a.toNat :: ·) <$> decodeFrom (index + 1) rest
    else if a < 0xC2 then .error (.invalid 1 index)
    else if a < 0xE0 then
      match rest with
      | [] => .error (.incomplete index)
      | b :: rest =>
        if isTrail b then
          (Char.ofNat ((a.toNat - 0xC0) * 64 + bits b) :: ·) <$> decodeFrom (index + 2) rest
        else .error (.invalid 1 index)
    else if a < 0xF0 then
      match rest with
      | [] => .error (.incomplete index)
      | [b] => .error (if followsThree a b then .incomplete index else .invalid 1 index)
      | b :: c :: rest =>
        if !followsThree a b then .error (.invalid 1 index)
        else if !isTrail c then .error (.invalid 2 index)
        else (Char.ofNat ((a.toNat - 0xE0) * 4096 + bits b * 64 + bits c) :: ·) <$>
          decodeFrom (index + 3) rest
    else if a < 0xF5 then
      match rest with
      | [] => .error (.incomplete index)
      | [b] => .error (if followsFour a b then .incomplete index else .invalid 1 index)
      | [b, c] =>
        .error (if !followsFour a b then .invalid 1 index
          else if !isTrail c then .invalid 2 index else .incomplete index)
      | b :: c :: d :: rest =>
        if !followsFour a b then .error (.invalid 1 index)
        else if !isTrail c then .error (.invalid 2 index)
        else if !isTrail d then .error (.invalid 3 index)
        else
          (Char.ofNat ((a.toNat - 0xF0) * 262144 + bits b * 4096 + bits c * 64 + bits d) :: ·) <$>
            decodeFrom (index + 4) rest
    else .error (.invalid 1 index)

def decode (bs : Bytes) : Except Fault String := String.ofList <$> decodeFrom 0 bs

end LedgerClient.Utf8
