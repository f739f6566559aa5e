import LedgerClient.Error
import LedgerClient.Text.Blank
/-!
# Signature policy expressions

An expression is a principal `'<msp>.<role>'` in quotes of either kind, or a gate `AND(..)`,
`OR(..)` or `OutOf(n, ..)` over expressions, with white space wherever a token may stand.  A
`Cursor` is what is left of the text and how many bytes came before; `checkPolicy` accepts a text
that is one expression and nothing else.
-/

namespace LedgerClient.Policy

inductive Fault where
  | expected (c : Char) (pos : Nat)
  | endOfPolicy
  | unknownGate (name : String)
  | noCount (pos : Nat)
  | badCount (count operands : Nat)
  | unterminated (pos : Nat)
  | noRole (principal : String)
  | noMsp (principal : String)
  | unknownRole (role principal : String)
  | trailing (pos : Nat)
  deriving DecidableEq, Repr

def Fault.message : Fault → String
  | .expected c pos => s!"expected '{c}' at {pos}"
  | .endOfPolicy => "unexpected end of policy"
  | .unknownGate name => s!"unknown gate '{name}'"
  | .noCount pos => s!"OutOf needs a count at {pos}"
  | .badCount count operands => s!"OutOf({count}) over {operands} operands"
  | .unterminated pos => s!"unterminated principal at {pos}"
  | .noRole principal => s!"principal '{principal}' is not <msp>.<role>"
  | .noMsp principal => s!"principal '{principal}' has no msp id"
  | .unknownRole role principal => s!"unknown role '{role}' in principal '{principal}'"
  | .trailing pos => s!"trailing input at {pos}"

structure Cursor where
  pos : Nat
  rest : List Char
  deriving DecidableEq, Repr

namespace Cursor

/-- Takes characters off the front as long as they pass a test. -/
def takeWhile (p : Char → Bool) (s : Cursor) : List Char × Cursor :=
  let front := s.rest.takeWhile p
  (front, ⟨s.pos + Utf8.size front, s.rest.dropWhile p⟩)

def skipBlank (s : Cursor) : Cursor := (s.takeWhile isBlank).2

/-- Reads one character, with white space before it. -/
def expect (c : Char) (s : Cursor) : Except Fault Cursor :=
  let s := s.skipBlank
  match s.rest with
  | [] => .error (.expected c s.pos)
  | a :: rest =>
    if a = c then .ok ⟨s.pos + Utf8.width c, rest⟩ else .error (.expected c s.pos)

end Cursor

def lowerCase (cs : List Char) : String := String.ofList (cs.map Char.toLower)

def roles : List String := ["member", "admin", "client", "peer", "orderer"]

/-- The parts of a text before and after its last dot. -/
def splitAtLastDot? : List Char → Option (List Char × List Char)
  | [] => none
  | c :: cs =>
    match splitAtLastDot? cs with
    | some (before, after) => some (c :: before, after)
    | none => if c = '.' then some ([], cs) else none

/-- What stands between the quotes of a principal. -/
def checkPrincipal (body : List Char) : Except Fault Unit :=
  let text := String.ofList body
  match splitAtLastDot? body with
  | none => .error (.noRole text)
  | some (msp, role) =>
    if msp.isEmpty then .error (.noMsp text)
    else if roles.contains (lowerCase role) then .ok ()
    else .error (.unknownRole (String.ofList role) text)

/-- Reads a principal after its opening quote. -/
def principal (quote : Char) (s : Cursor) : Except Fault Cursor :=
  let (body, after) := s.takeWhile (· != quote)
  match after.rest with
  | [] => .error (.unterminated s.pos)
  | _ :: rest => do
    checkPrincipal body
    return ⟨after.pos + 1, rest⟩

def isLetter (c : Char) : Bool := 'a' ≤ c && c ≤ 'z' || 'A' ≤ c && c ≤ 'Z'

def isDigit (c : Char) : Bool := '0' ≤ c && c ≤ '9'

def countOf (digits : List Char) : Nat := digits.foldl (fun n c => n * 10 + (c.toNat - 48)) 0

/-- Reads the count of `OutOf` and the comma after it; a count has to fit into 64 bits. -/
def count (s : Cursor) : Except Fault (Nat × Cursor) := do
  let s := s.skipBlank
  let (digits, after) := s.takeWhile isDigit
  let n := countOf digits
  if digits.isEmpty || Nat.pow 2 64 ≤ n then throw (.noCount s.pos)
  return (n, ← after.expect ',')

/-- Reads what opens a gate: the number of operands that it requires, where it names one. -/
def opening (name : String) (s : Cursor) : Except Fault (Option Nat × Cursor) :=
  if name = "and" ∨ name = "or" then .ok (none, s)
  else if name = "outof" then do
    let (n, s) ← count s
    return (some n, s)
  else .error (.unknownGate name)

/-- Reads a gate with a reader for its operands, which counts them. -/
def gate (operands : Cursor → Except Fault (Nat × Cursor)) (s : Cursor) :
    Except Fault Cursor := do
  let (letters, s) := s.takeWhile isLetter
  let s ← s.expect '('
  let (required, s) ← opening (lowerCase letters) s
  let (n, s) ← operands s
  let s ← s.expect ')'
  match required with
  | none => return s
  | some k => if k = 0 ∨ n < k then throw (.badCount k n) else return s

mutual

/-- Reads one expression; `fuel` bounds the depth of gates and the number of operands. -/
def expression : (fuel : Nat) → Cursor → Except Fault Cursor
  | 0, _ => .error .endOfPolicy
  | fuel + 1, s =>
    let s := s.skipBlank
    match s.rest with
    | [] => .error .endOfPolicy
    | c :: rest =>
      if c = '\'' || c = '"' then principal c ⟨s.pos + 1, rest⟩
      else gate (fun s => operands fuel s) s

/-- Reads expressions with commas between them and counts them. -/
def operands : (fuel : Nat) → Cursor → Except Fault (Nat × Cursor)
  | 0, _ => .error .endOfPolicy
  | fuel + 1, s => do
    let s ← expression fuel s
    let s := s.skipBlank
    match s.rest with
    | ',' :: rest =>
      let (n, s) ← operands fuel ⟨s.pos + 1, rest⟩
      return (n + 1, s)
    | _ => return (1, s)

end

def check (text : List Char) : Except Fault Unit := do
  let s ← expression (2 * text.length + 2) ⟨0, text⟩
  let s := s.skipBlank
  if s.rest.isEmpty then return () else throw (.trailing s.pos)

end Policy

/-- Accepts a signature policy that is one expression. -/
def checkPolicy (policy : String) : Except ClientError Unit :=
  (Policy.check policy.toList).mapError fun fault =>
    .invalidArgument s!"invalid signature policy {policy}: {fault.message}"

end LedgerClient
