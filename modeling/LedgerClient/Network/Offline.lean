import LedgerClient.Network.Address
import LedgerClient.Network.Socket
/-!
# A host without a network

On a host that is connected to nothing every dial fails, and the host part of the address decides
how: numbers have no route, and names cannot be looked up.
-/

namespace LedgerClient

/-- Why a host is not reached. -/
inductive Unreachable where
  | noRoute
  /-- There is no local address to call from. -/
  | noSource
  /-- The address is only good on one link, and does not say on which. -/
  | noLink
  /-- Nobody answers questions about names. -/
  | noResolver
  /-- It is no name that could be asked for. -/
  | noName
  deriving DecidableEq, Repr

def Unreachable.message : Unreachable → String
  | .noRoute => "Network is unreachable (os error 101)"
  | .noSource => "Cannot assign requested address (os error 99)"
  | .noLink => "Invalid argument (os error 22)"
  | .noResolver => "failed to lookup address information: Temporary failure in name resolution"
  | .noName => "failed to lookup address information: Name or service not known"

namespace Host

/-- The pieces between separators. -/
def pieces (separator : Char) : List Char → List (List Char)
  | [] => [[]]
  | c :: cs =>
    match pieces separator cs with
    | [] => []
    | piece :: rest => if c = separator then [] :: piece :: rest else (c :: piece) :: rest

/-- The value of a digit of a base up to sixteen. -/
def digit? (base : Nat) (c : Char) : Option Nat :=
  let v := if c.isDigit then c.toNat - 48 else if c.isLower then c.toNat - 87 else c.toNat - 55
  if c.isAlphanum && v < base then some v else none

/-- The number that digits write. -/
def number? (base : Nat) (cs : List Char) : Option Nat :=
  if cs.isEmpty then none
  else cs.foldlM (fun n c => (digit? base c).map (n * base + ·)) 0

/-! ## Addresses of the fourth version -/

/-- A number in hexadecimal digits after `0x`, in octal digits after `0`, or in decimal digits. -/
def scaledNumber? : List Char → Option Nat
  | '0' :: 'x' :: cs | '0' :: 'X' :: cs => number? 16 cs
  | '0' :: cs => number? 8 ('0' :: cs)
  | cs => number? 10 cs

/-- Whether a host is written in one to four numbers.  The last one takes all the bytes that are
left. -/
def isNumeric (cs : List Char) : Bool :=
  match (pieces '.' cs).mapM scaledNumber? with
  | none => false
  | some numbers =>
    numbers.length ≤ 4 && numbers.dropLast.all (· < 256) &&
      numbers.getLast?.all fun n => n < Nat.pow 256 (5 - numbers.length)

/-! ## Addresses of the sixth version -/

/-- One byte in decimal digits without a zero in front. -/
def octet? (cs : List Char) : Option Nat :=
  if cs.length ≤ 3 && (cs.length = 1 || cs.head? ≠ some '0') then
    (number? 10 cs).filter (· < 256)
  else none

/-- A group of sixteen bits in up to four hexadecimal digits. -/
def group? (cs : List Char) : Option Nat := if cs.length ≤ 4 then number? 16 cs else none

/-- Two groups that are written as four bytes. -/
def quad? (cs : List Char) : Option (List Nat) :=
  match (pieces '.' cs).mapM octet? with
  | some [a, b, c, d] => some [a * 256 + b, c * 256 + d]
  | _ => none

/-- What may stand after the last colon. -/
def lastGroups? (cs : List Char) : Option (List Nat) := quad? cs <|> (group? cs).map ([·])

def groups? : List (List Char) → Option (List Nat)
  | [] => some []
  | [last] => lastGroups? last
  | piece :: rest => do return (← group? piece) :: (← groups? rest)

/-- Splits at the first two colons in a row. -/
def splitGap : List Char → List Char × Option (List Char)
  | [] => ([], none)
  | ':' :: ':' :: rest => ([], some rest)
  | c :: cs =>
    let (front, back) := splitGap cs
    (c :: front, back)

/-- The eight groups of an address; two colons in a row stand for as many zeros as are missing. -/
def longGroups? (cs : List Char) : Option (List Nat) :=
  match splitGap cs with
  | (_, none) => (groups? (pieces ':' cs)).filter (·.length = 8)
  | (front, some back) => do
    let front ← if front.isEmpty then some [] else (pieces ':' front).mapM group?
    let back ← if back.isEmpty then some [] else groups? (pieces ':' back)
    if front.length + back.length < 8 then
      return front ++ List.replicate (8 - front.length - back.length) 0 ++ back
    else none

/-- How an address of the sixth version is not reached. -/
def unreachableLong (groups : List Nat) : Unreachable :=
  let first := groups.headD 0
  if groups.take 6 = [0, 0, 0, 0, 0, 0xFFFF] || 0xFF00 ≤ first then .noRoute
  else if first / 64 = 0xFE80 / 64 then .noLink
  else .noSource

/-! ## Names -/

/-- Whether a host is a name that can be asked for. -/
def isName (cs : List Char) : Bool :=
  let body := if cs.getLast? = some '.' then cs.dropLast else cs
  cs.all (fun c => c.isAlphanum || c = '-' || c = '_' || c = '.') && cs.head? ≠ some '-' &&
    (cs = ['.'] || body.length ≤ 253 &&
      (pieces '.' body).all fun label => !label.isEmpty && label.length ≤ 63)

/-- Names of the host itself. -/
def isLocal (cs : List Char) : Bool := cs.map Char.toLower = "localhost".toList || cs = ['*']

/-- How a host is not reached. -/
def unreachable (host : List Char) : Unreachable :=
  match host with
  | '[' :: rest =>
    match longGroups? rest.dropLast with
    | some groups => unreachableLong groups
    | none => .noName
  | host =>
    if isNumeric host || isLocal host then .noRoute
    else if isName host then .noResolver
    else .noName

/-- Milliseconds until a host that has to be looked up is given up.  One that is a plain number
fails at once. -/
def lookupTime (host : List Char) : Nat :=
  match host with
  | '[' :: rest => if (longGroups? rest.dropLast).isSome then 0 else 1
  | host => if (quad? host).isSome then 0 else 1

end Host

/-- How `target` is not reached, reported under `address`. -/
def offlineHandshake (address target : String) : Reply Unit :=
  let (delay, reason) := match Address.parse target with
    | .error fault => (0, "HTTP format error: " ++ fault.message)
    | .ok a => (Host.lookupTime a.host, "IO error: " ++ (Host.unreachable a.host).message)
  { delay := delay, outcome := .failed (.transport address reason) }

/-- The network of a host that is connected to nothing. -/
def Network.offline : Network where
  dial address _ _ := { handshake := offlineHandshake address address }

end LedgerClient
