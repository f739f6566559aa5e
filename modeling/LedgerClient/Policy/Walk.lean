import LedgerClient.Policy.Expression
/-!
# Signature policies by position

A `Cursor` carries the rest of its text along, so it cannot stand inside a character.  A `Walk` is
the parser of policies with nothing but a position: it adds numbers of bytes to it, cuts the text
there each time it looks at it, and breaks off if a cut would go through a character or beyond the
end.  What it did stays when it fails: the position, those before it and the principals that it has
read.
-/

namespace LedgerClient.Policy

/-- Why a parser breaks off. -/
inductive Stop where
  | refused (fault : Fault)
  /-- A cut would go through a character or beyond the end of the text. -/
  | cut
  /-- The fuel is used up. -/
  | starved
  deriving DecidableEq

/-- The position of a parser in bytes, the positions before it, latest first, and what stands
between the quotes of the principals that it has read. -/
structure Track where
  pos : Nat
  past : List Nat
  principals : List (List Char)
  deriving DecidableEq

def Track.start : Track := ⟨0, [], []⟩

abbrev Walk := EStateM Stop Track

namespace Walk

def refuse {α : Type} (fault : Fault) : Walk α := throw (.refused fault)

def position : Walk Nat := return (← get).pos

def moveTo (pos : Nat) : Walk Unit :=
  modify fun t => { t with pos := pos, past := t.pos :: t.past }

def advance (n : Nat) : Walk Unit := do moveTo ((← position) + n)

def note (body : List Char) : Walk Unit :=
  modify fun t => { t with principals := t.principals ++ [body] }

/-- Cuts a text at an offset in bytes. -/
def cut (n : Nat) (cs : List Char) : Walk (List Char × List Char) :=
  match Utf8.splitBytes? n cs with
  | some parts => return parts
  | none => throw .cut

/-- Number of bytes before the first character that passes a test. -/
def offset? (p : Char → Bool) : List Char → Option Nat
  | [] => none
  | c :: cs => if p c then some 0 else (offset? p cs).map (Utf8.width c + ·)

/-- Number of bytes of the characters at the front that pass a test. -/
def span (p : Char → Bool) (cs : List Char) : Nat :=
  (offset? (fun c => !p c) cs).getD (Utf8.size cs)

variable (text : List Char)

/-- What follows the position. -/
def rest : Walk (List Char) := return (← cut (← position) text).2

/-- The bytes that follow the position, as many as are asked for. -/
def front (n : Nat) : Walk (List Char) := return (← cut n (← rest text)).1

def skipBlank : Walk Unit := do
  moveTo (Utf8.size text - Utf8.size (dropBlank (← rest text)))

def expect (c : Char) : Walk Unit := do
  skipBlank text
  if (← rest text).head? = some c then advance (Utf8.width c)
  else refuse (.expected c (← position))

/-- Reads a principal with its quotes; the first one is taken to be there. -/
def principal : Walk Unit := do
  let quote := (← rest text).head?.getD '\''
  advance 1
  match offset? (· == quote) (← rest text) with
  | none => refuse (.unterminated (← position))
  | some n =>
    let body ← front text n
    advance (n + 1)
    note body
    match checkPrincipal body with
    | .ok () => return ()
    | .error fault => refuse fault

def count : Walk Nat := do
  skipBlank text
  let n := span isDigit (← rest text)
  let digits ← front text n
  if digits.isEmpty || Nat.pow 2 64 ≤ countOf digits then refuse (.noCount (← position))
  else do
    advance n
    expect text ','
    return countOf digits

def opening (name : String) : Walk (Option Nat) :=
  if name = "and" ∨ name = "or" then return none
  else if name = "outof" then return some (← count text)
  else refuse (.unknownGate name)

/-- Reads a gate with a reader for its operands, which counts them. -/
def gate (operands : Walk Nat) : Walk Unit := do
  let n := span isLetter (← rest text)
  let letters ← front text n
  advance n
  expect text '('
  let required ← opening text (lowerCase letters)
  let operands ← operands
  expect text ')'
  match required with
  | none => return ()
  | some k => if k = 0 ∨ operands < k then refuse (.badCount k operands) else return ()

mutual

def expression : (fuel : Nat) → Walk Unit
  | 0 => throw .starved
  | fuel + 1 => do
    skipBlank text
    match (← rest text).head? with
    | none => refuse .endOfPolicy
    | some c => if c = '\'' || c = '"' then principal text else gate text (operands fuel)

def operands : (fuel : Nat) → Walk Nat
  | 0 => throw .starved
  | fuel + 1 => do
    expression fuel
    skipBlank text
    if (← rest text).head? = some ',' then
      advance 1
      return (← operands fuel) + 1
    else return 1

end

/-- Fuel for a text: two for each character, and two more. -/
def enough : Nat := 2 * text.length + 2

/-- Reads one expression and nothing else. -/
def check : Walk Unit := do
  expression text (enough text)
  skipBlank text
  if (← position) = Utf8.size text then return () else refuse (.trailing (← position))

end Walk

/-- The readers that move the position. -/
inductive Reader where
  | blanks
  | token (c : Char)
  | principal
  | gate
  | expression
  deriving DecidableEq

def Reader.walk (text : List Char) (fuel : Nat) : Reader → Walk Unit
  | .blanks => Walk.skipBlank text
  | .token c => Walk.expect text c
  | .principal => Walk.principal text
  | .gate => Walk.gate text (Walk.operands text fuel)
  | .expression => Walk.expression text fuel

/-- What is left of a run, whether it succeeds or not. -/
def trackOf {α : Type} : EStateM.Result Stop Track α → Track
  | .ok _ t => t
  | .error _ t => t

end LedgerClient.Policy
