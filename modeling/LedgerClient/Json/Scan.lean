import LedgerClient.Json.Number
import LedgerClient.Text.Hex
/-!
# Reading JSON texts

The pieces of a reader that stops at the first fault: words, strings, the punctuation of arrays
and objects, and `skipValue`, which passes over a value that nobody asked for.  A text is read in
bytes.  Only the strings that are asked for have to be UTF-8.
-/

namespace LedgerClient.Json

def isSpace (c : UInt8) : Bool := c = 32 || c = 10 || c = 9 || c = 13

def skipSpace (cs : Bytes) : Bytes := cs.dropWhile isSpace

/-- Reads exactly the bytes of `word`. -/
def scanWord : (word : Bytes) → Bytes → Except Fault Bytes
  | [], cs => .ok cs
  | _ :: _, [] => .error .truncated
  | w :: ws, c :: cs => if w = c then scanWord ws cs else .error .malformed

/-- Reads `null` after its first letter. -/
def scanNullRest : Bytes → Except Fault Bytes := scanWord [Ascii.u, Ascii.l, Ascii.l]

/-- Reads `true` after its first letter. -/
def scanTrueRest : Bytes → Except Fault Bytes := scanWord [Ascii.r, Ascii.u, Ascii.e]

/-- Reads `false` after its first letter. -/
def scanFalseRest : Bytes → Except Fault Bytes := scanWord [Ascii.a, Ascii.l, Ascii.s, Ascii.e]

/-! ## Strings -/

/-- The number that four hexadecimal digits write. -/
def hexUnit? (a b c d : UInt8) : Option Nat := do
  let a ← Hex.value? a
  let b ← Hex.value? b
  let c ← Hex.value? c
  let d ← Hex.value? d
  return ((a.toNat * 16 + b.toNat) * 16 + c.toNat) * 16 + d.toNat

def isHighSurrogate (n : Nat) : Bool := 0xD800 ≤ n && n ≤ 0xDBFF

def isLowSurrogate (n : Nat) : Bool := 0xDC00 ≤ n && n ≤ 0xDFFF

/-- The byte for the letter of a short escape. -/
def escaped? (c : UInt8) : Option UInt8 :=
  if c = Ascii.quote || c = Ascii.backslash || c = Ascii.slash then some c
  else if c = Ascii.b then some 8
  else if c = Ascii.f then some 12
  else if c = Ascii.n then some 10
  else if c = Ascii.r then some 13
  else if c = Ascii.t then some 9
  else none

/-- Puts bytes before those that are still to be read. -/
def pushBytes (front : Bytes) (r : Except Fault (Bytes × Bytes)) : Except Fault (Bytes × Bytes) :=
  match r with
  | .ok (s, rest) => .ok (front ++ s, rest)
  | .error e => .error e

/-- Reads the bytes of a string after its opening quote, with characters for the escapes.
Surrogates have to come in pairs. -/
def scanContent : Scan Bytes
  | [] => .error .truncated
  | Ascii.quote :: rest => .ok ([], rest)
  | Ascii.backslash :: rest =>
    match rest with
    | [] => .error .truncated
    | Ascii.u :: rest =>
      match rest with
      | a :: b :: c :: d :: rest =>
        match hexUnit? a b c d with
        | none => .error .malformed
        | some n =>
          if isLowSurrogate n then .error .malformed
          else if isHighSurrogate n then
            match rest with
            | [] => .error .truncated
            | [Ascii.backslash] => .error .truncated
            | Ascii.backslash :: Ascii.u :: rest =>
              match rest with
              | a :: b :: c :: d :: rest =>
                match hexUnit? a b c d with
                | none => .error .malformed
                | some m =>
                  if isLowSurrogate m then
                    let c := Char.ofNat (0x10000 + (n - 0xD800) * 0x400 + (m - 0xDC00))
                    pushBytes (Utf8.encodeChar c) (scanContent rest)
                  else .error .malformed
              | _ => .error .truncated
            | _ => .error .malformed
          else pushBytes (Utf8.encodeChar (Char.ofNat n)) (scanContent rest)
      | _ => .error .truncated
    | c :: rest =>
      match escaped? c with
      | some e => pushBytes [e] (scanContent rest)
      | none => .error .malformed
  | c :: rest => if c < 32 then .error .malformed else pushBytes [c] (scanContent rest)

/-- Reads a string after its opening quote. -/
def scanString : Scan String := fun cs => do
  let (content, rest) ← scanContent cs
  match Utf8.decode content with
  | .ok s => return (s, rest)
  | .error _ => throw .malformed

/-- Passes over a string after its opening quote; neither surrogates nor UTF-8 are looked at. -/
def skipString : Bytes → Except Fault Bytes
  | [] => .error .truncated
  | Ascii.quote :: rest => .ok rest
  | Ascii.backslash :: rest =>
    match rest with
    | [] => .error .truncated
    | Ascii.u :: rest =>
      match rest with
      | a :: b :: c :: d :: rest =>
        if (hexUnit? a b c d).isSome then skipString rest else .error .malformed
      | _ => .error .truncated
    | c :: rest => if (escaped? c).isSome then skipString rest else .error .malformed
  | c :: rest => if c < 32 then .error .malformed else skipString rest

/-! ## Values that are not wanted -/

/-- Passes over a value that is no array or object. -/
def skipScalar : Bytes → Except Fault (Bytes)
  | [] => .error .truncated
  | Ascii.n :: cs => scanNullRest cs
  | Ascii.t :: cs => scanTrueRest cs
  | Ascii.f :: cs => scanFalseRest cs
  | Ascii.quote :: cs => skipString cs
  | c :: cs => if c = Ascii.minus || isDigit c then skipNumber (c :: cs) else .error .malformed

def scanColon (cs : Bytes) : Except Fault (Bytes) :=
  match skipSpace cs with
  | [] => .error .truncated
  | Ascii.colon :: rest => .ok rest
  | _ => .error .malformed

inductive Bracket where
  | square
  | curly
  deriving DecidableEq

def Bracket.closing : Bracket → UInt8
  | .square => Ascii.closeSquare
  | .curly => Ascii.closeCurly

/-- Passes over the key of a member and its colon. -/
def skipKey (cs : Bytes) : Except Fault (Bytes) :=
  match skipSpace cs with
  | [] => .error .truncated
  | Ascii.quote :: rest => do scanColon (← skipString rest)
  | _ => .error .malformed

inductive Place where
  | value
  | afterBracket
  | afterValue

/-- Passes over the rest of a value inside the brackets `opened`, innermost first. -/
def skipFrom : (fuel : Nat) → (opened : List Bracket) → Place → Bytes →
    Except Fault (Bytes)
  | 0, _, _, _ => .error .malformed
  | _ + 1, [], .afterValue, cs => .ok cs
  | fuel + 1, opened, .value, cs =>
    match skipSpace cs with
    | Ascii.openSquare :: rest => skipFrom fuel (.square :: opened) .afterBracket rest
    | Ascii.openCurly :: rest => skipFrom fuel (.curly :: opened) .afterBracket rest
    | rest => do skipFrom fuel opened .afterValue (← skipScalar rest)
  | _ + 1, [], .afterBracket, _ => .error .malformed
  | fuel + 1, b :: opened, .afterBracket, cs =>
    match skipSpace cs with
    | [] => .error .truncated
    | c :: rest =>
      if c = b.closing then skipFrom fuel opened .afterValue rest
      else if b = .curly then do skipFrom fuel (b :: opened) .value (← skipKey (c :: rest))
      else skipFrom fuel (b :: opened) .value (c :: rest)
  | fuel + 1, b :: opened, .afterValue, cs =>
    match skipSpace cs with
    | [] => .error .truncated
    | c :: rest =>
      if c = b.closing then skipFrom fuel opened .afterValue rest
      else if c = Ascii.comma then
        if b = .curly then do skipFrom fuel (b :: opened) .value (← skipKey rest)
        else skipFrom fuel (b :: opened) .value rest
      else .error .malformed

/-- Passes over one value of any depth. -/
def skipValue (cs : Bytes) : Except Fault (Bytes) :=
  skipFrom (2 * cs.length + 2) [] .value cs

/-- The fault of a value of another kind than the one asked for: a scalar is read first, since it
may be malformed itself. -/
def wrongKind (cs : Bytes) : Fault :=
  let after {α : Type} (r : Except Fault α) : Fault :=
    match r with
    | .ok _ => .unfit
    | .error e => e
  match cs with
  | [] => .truncated
  | Ascii.n :: rest => after (scanNullRest rest)
  | Ascii.t :: rest => after (scanTrueRest rest)
  | Ascii.f :: rest => after (scanFalseRest rest)
  | Ascii.quote :: rest => after (scanString rest)
  | Ascii.openSquare :: _ => .unfit
  | Ascii.openCurly :: _ => .unfit
  | c :: rest => if c = Ascii.minus || isDigit c then after (scanNumber (c :: rest)) else .malformed

/-! ## Arrays and objects -/

/-- Looks for the next item of an array: `false` stops before the closing bracket. -/
def nextItem (first : Bool) (cs : Bytes) : Except Fault (Bool × Bytes) :=
  match skipSpace cs with
  | [] => .error .truncated
  | Ascii.closeSquare :: rest => .ok (false, Ascii.closeSquare :: rest)
  | c :: rest =>
    if first then .ok (true, c :: rest)
    else if c = Ascii.comma then
      match skipSpace rest with
      | [] => .error .truncated
      | Ascii.closeSquare :: _ => .error .malformed
      | rest => .ok (true, rest)
    else .error .malformed

/-- Reads the bracket that closes an array. -/
def closeArray (cs : Bytes) : Except Fault (Bytes) :=
  match skipSpace cs with
  | [] => .error .truncated
  | Ascii.closeSquare :: rest => .ok rest
  | _ => .error .malformed

/-- Reads the key of the next member of an object, if there is one, or the closing bracket. -/
def nextKey (first : Bool) (cs : Bytes) : Except Fault (Option String × Bytes) :=
  let key (rest : Bytes) : Except Fault (Option String × Bytes) :=
    match rest with
    | [] => .error .truncated
    | Ascii.quote :: rest => do
      let (k, rest) ← scanString rest
      return (some k, rest)
    | _ => .error .malformed
  match skipSpace cs with
  | [] => .error .truncated
  | Ascii.closeCurly :: rest => .ok (none, rest)
  | c :: rest =>
    if first then key (c :: rest)
    else if c = Ascii.comma then key (skipSpace rest)
    else .error .malformed

/-- Reads items up to the closing bracket; `fuel` bounds their number. -/
def scanItems {α : Type} (item : Scan α) : (fuel : Nat) → (first : Bool) → Scan (List α)
  | 0, _, _ => .error .malformed
  | fuel + 1, first, cs => do
    let (more, cs) ← nextItem first cs
    if more then
      let (a, cs) ← item cs
      let (as, cs) ← scanItems item fuel false cs
      return (a :: as, cs)
    else return ([], ← closeArray cs)

/-- Reads members up to the closing bracket into a state. -/
def scanMembers {σ : Type} (member : (key : String) → σ → Scan σ) : (fuel : Nat) →
    (first : Bool) → σ → Scan σ
  | 0, _, _, _ => .error .malformed
  | fuel + 1, first, s, cs => do
    let (key, cs) ← nextKey first cs
    match key with
    | none => return (s, cs)
    | some k =>
      let (s, cs) ← member k s cs
      scanMembers member fuel false s cs

end LedgerClient.Json
