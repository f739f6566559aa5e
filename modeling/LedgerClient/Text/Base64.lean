import LedgerClient.Bytes
/-!
# Base64

The standard alphabet with padding.  `Base64.encode` writes the canonical form, and
`Base64.decode` accepts nothing else: padding is required and the unused bits of the last symbol
are zero.  Faults name the byte and its offset.
-/

namespace LedgerClient.Base64

inductive Fault where
  | invalidSymbol (byte : UInt8) (offset : Nat)
  | invalidLength (length : Nat)
  | invalidLastSymbol (byte : UInt8) (offset : Nat)
  | invalidPadding
  deriving DecidableEq, Repr

def Fault.message : Fault → String
  | .invalidSymbol byte offset => s!"Invalid symbol {byte.toNat}, offset {offset}."
  | .invalidLength length => s!"Invalid input length: {length}"
  | .invalidLastSymbol byte offset => s!"Invalid last symbol {byte.toNat}, offset {offset}."
  | .invalidPadding => "Invalid padding"

def pad : UInt8 := 61

/-- The symbol for six bits. -/
def symbol (n : Nat) : UInt8 :=
  if n < 26 then UInt8.ofNat (65 + n)
  else if n < 52 then UInt8.ofNat (71 + n)
  else if n < 62 then UInt8.ofNat (n - 4)
  else if n = 62 then 43 else 47

def value? (b : UInt8) : Option Nat :=
  if 65 ≤ b && b ≤ 90 then some (b.toNat - 65)
  else if 97 ≤ b && b ≤ 122 then some (b.toNat - 71)
  else if 48 ≤ b && b ≤ 57 then some (b.toNat + 4)
  else if b = 43 then some 62
  else if b = 47 then some 63
  else none

def encode : Bytes → Bytes
  | [] => []
  | [a] => [symbol (a.toNat / 4), symbol (a.toNat % 4 * 16), pad, pad]
  | [a, b] =>
    [symbol (a.toNat / 4), symbol (a.toNat % 4 * 16 + b.toNat / 16), symbol (b.toNat % 16 * 4), pad]
  | a :: b :: c :: rest =>
    symbol (a.toNat / 4) :: symbol (a.toNat % 4 * 16 + b.toNat / 16) ::
      symbol (b.toNat % 16 * 4 + c.toNat / 64) :: symbol (c.toNat % 64) :: encode rest

def value (offset : Nat) (b : UInt8) : Except Fault Nat :=
  match value? b with
  | some v => .ok v
  | none => .error (.invalidSymbol b offset)

/-- The last symbols of an input, at most four, of which `offset` symbols came before. -/
structure Tail where
  offset : Nat
  values : List Nat := []
  last : UInt8 := 0
  padding : Nat := 0

/-- Takes one more symbol at place `place`; padding has its place after two symbols at least, and
nothing follows it. -/
def Tail.push (t : Tail) (place : Nat) (b : UInt8) : Except Fault Tail :=
  if b = pad then
    if place < 2 then .error (.invalidSymbol b (t.offset + place))
    else .ok { t with padding := t.padding + 1 }
  else if 0 < t.padding then .error (.invalidSymbol pad (t.offset + t.values.length))
  else do
    let v ← value (t.offset + place) b
    return { t with values := t.values ++ [v], last := b }

def Tail.pushAll (t : Tail) (place : Nat) : Bytes → Except Fault Tail
  | [] => .ok t
  | b :: bs => do (← t.push place b).pushAll (place + 1) bs

/-- The bytes that the values hold, and the bits left over. -/
def bytesOf : List Nat → Bytes × Nat
  | [a, b] => ([UInt8.ofNat (a * 4 + b / 16)], b % 16)
  | [a, b, c] => ([UInt8.ofNat (a * 4 + b / 16), UInt8.ofNat (b % 16 * 16 + c / 4)], c % 4)
  | [a, b, c, d] =>
    ([UInt8.ofNat (a * 4 + b / 16), UInt8.ofNat (b % 16 * 16 + c / 4),
      UInt8.ofNat (c % 4 * 64 + d)], 0)
  | _ => ([], 0)

def Tail.finish (t : Tail) : Except Fault Bytes :=
  let count := t.values.length
  if count < 2 then .error (.invalidLength (t.offset + count))
  else if (count + t.padding) % 4 ≠ 0 then .error .invalidPadding
  else
    let (bytes, spare) := bytesOf t.values
    if spare = 0 then .ok bytes else .error (.invalidLastSymbol t.last (t.offset + count - 1))

/-- Reads groups of four symbols; the last group, whole or not, may hold padding. -/
def decodeFrom (offset : Nat) : Bytes → Except Fault Bytes
  | a :: b :: c :: d :: e :: rest => do
    let va ← value offset a
    let vb ← value (offset + 1) b
    let vc ← value (offset + 2) c
    let vd ← value (offset + 3) d
    let bytes ← decodeFrom (offset + 4) (e :: rest)
    return (bytesOf [va, vb, vc, vd]).1 ++ bytes
  | rest => do (← Tail.pushAll { offset := offset } 0 rest).finish

/-- A lone last byte that is no symbol is reported before anything else. -/
def decode (input : Bytes) : Except Fault Bytes :=
  match input.getLast? with
  | none => .ok []
  | some last =>
    if input.length % 4 = 1 && last != pad && (value? last).isNone then
      .error (.invalidSymbol last (input.length - 1))
    else decodeFrom 0 input

end LedgerClient.Base64
