import LedgerClient.Bytes
import LedgerClient.Text.Ascii
/-!
# Numerals

A numeral is read as an integer where one of 64 bits holds it, signed or not; anything else that
has the form of a number is a fraction, whose value is dropped.  A numeral beyond the range of
binary numbers of double precision is malformed.
-/

namespace LedgerClient.Json

/-- The first fault of a text, in reading order. -/
inductive Fault where
  /-- No JSON. -/
  | malformed
  /-- JSON of the wrong shape. -/
  | unfit
  /-- The text ends early. -/
  | truncated
  deriving DecidableEq, Repr

/-- Reads something off the front of a text, given in bytes, and returns the bytes that follow. -/
abbrev Scan (α : Type) := Bytes → Except Fault (α × Bytes)

inductive Number where
  | integer (n : Int)
  | fraction
  deriving DecidableEq, Repr

def isDigit (c : UInt8) : Bool := Ascii.zero ≤ c && c ≤ 57

def digitValue (c : UInt8) : Nat := c.toNat - 48

def largestUnsigned : Nat := Nat.pow 2 64 - 1

/-- Appends digits to `n` while 64 bits hold the result; returns the digits left over. -/
def appendDigits (n : Nat) : Bytes → Nat × Bytes
  | [] => (n, [])
  | c :: cs =>
    let m := n * 10 + digitValue c
    if m ≤ largestUnsigned then appendDigits m cs else (n, c :: cs)

/-- The nearest number of 53 binary digits, of two the even one. -/
def roundBinary (n : Nat) : Nat :=
  if n < Nat.pow 2 53 then n
  else
    let unit := Nat.pow 2 (Nat.log2 n - 52)
    let q := n / unit
    let r := n % unit
    if unit < 2 * r || (2 * r = unit && q % 2 = 1) then (q + 1) * unit else q * unit

/-- Whether `n` times ten to the power `e` is too large for double precision. -/
def overflows (n : Nat) (e : Int) : Bool :=
  n ≠ 0 && 0 ≤ e &&
    (308 < e || Nat.pow 2 1024 - Nat.pow 2 970 ≤ roundBinary n * roundBinary (Nat.pow 10 e.toNat))

def fractionOf (n : Nat) (e : Int) : Scan Number := fun cs =>
  if overflows n e then .error .malformed else .ok (.fraction, cs)

/-- Exponents from here on are all alike. -/
def exponentLimit : Nat := Nat.pow 2 31

/-- The exponent that digits write, or the limit. -/
def exponentOf (ds : Bytes) : Nat :=
  ds.foldl (fun x c => min (x * 10 + digitValue c) exponentLimit) 0

/-- Reads the exponent of `n` times ten to the power `e`, after its letter. -/
def scanExponent (n : Nat) (e : Int) : Scan Number := fun cs =>
  let (negative, cs) := match cs with
    | Ascii.plus :: r => (false, r)
    | Ascii.minus :: r => (true, r)
    | r => (false, r)
  let ds := cs.takeWhile isDigit
  let rest := cs.dropWhile isDigit
  if ds.isEmpty then .error (if rest.isEmpty then .truncated else .malformed)
  else
    let x := exponentOf ds
    if exponentLimit ≤ x then
      if n ≠ 0 && !negative then .error .malformed else .ok (.fraction, rest)
    else fractionOf n (if negative then e - x else e + x) rest

/-- Reads what may follow the digits of a fraction. -/
def scanPower (n : Nat) (e : Int) : Scan Number := fun cs =>
  match cs with
  | Ascii.e :: r | Ascii.capitalE :: r => scanExponent n e r
  | r => fractionOf n e r

/-- Reads the digits after the point. -/
def scanDecimals (n : Nat) (e : Int) : Scan Number := fun cs =>
  let ds := cs.takeWhile isDigit
  let rest := cs.dropWhile isDigit
  if ds.isEmpty then .error (if rest.isEmpty then .truncated else .malformed)
  else
    let (m, left) := appendDigits n ds
    scanPower m (e - (ds.length - left.length : Nat)) rest

/-- Reads a numeral without its sign. -/
def scanMagnitude (negative : Bool) : Scan Number := fun cs =>
  let ds := cs.takeWhile isDigit
  let rest := cs.dropWhile isDigit
  match ds with
  | [] => .error (if rest.isEmpty then .truncated else .malformed)
  | Ascii.zero :: _ :: _ => .error .malformed
  | ds =>
    let (n, left) := appendDigits 0 ds
    match rest with
    | Ascii.point :: r => scanDecimals n left.length r
    | Ascii.e :: r | Ascii.capitalE :: r => scanExponent n left.length r
    | r =>
      if left.isEmpty then
        if !negative then .ok (.integer n, r)
        else if n = 0 || Nat.pow 2 63 < n then .ok (.fraction, r)
        else .ok (.integer (-n), r)
      else fractionOf n left.length r

/-- Reads a numeral; the text starts with a sign or a digit. -/
def scanNumber : Scan Number
  | Ascii.minus :: cs => scanMagnitude true cs
  | cs => scanMagnitude false cs

/-- Passes over the exponent of a numeral whose value is not wanted, after its letter. -/
def skipExponent (cs : Bytes) : Except Fault (Bytes) :=
  let cs := match cs with
    | Ascii.plus :: r | Ascii.minus :: r => r
    | r => r
  if (cs.takeWhile isDigit).isEmpty then .error .malformed else .ok (cs.dropWhile isDigit)

/-- Passes over a numeral whose value is not wanted; only its form is looked at. -/
def skipNumber (cs : Bytes) : Except Fault (Bytes) :=
  let cs := match cs with
    | Ascii.minus :: r => r
    | r => r
  match cs.takeWhile isDigit, cs.dropWhile isDigit with
  | [], _ => .error .malformed
  | Ascii.zero :: _ :: _, _ => .error .malformed
  | _, Ascii.point :: r =>
    if (r.takeWhile isDigit).isEmpty then .error .malformed
    else
      match r.dropWhile isDigit with
      | Ascii.e :: r | Ascii.capitalE :: r => skipExponent r
      | r => .ok r
  | _, Ascii.e :: r | _, Ascii.capitalE :: r => skipExponent r
  | _, r => .ok r

end LedgerClient.Json
