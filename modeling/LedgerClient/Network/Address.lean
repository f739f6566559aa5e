import LedgerClient.Text.Utf8
/-!
# Addresses

A node is dialed at what follows `ws://`: an authority, which is a host with perhaps a user before
and a port after it, and then perhaps a path, a query and a fragment.  `Address.parse` refuses what
makes no such URI, reporting the first fault in reading order.
-/

namespace LedgerClient

inductive AddressFault where
  | tooLong
  | empty
  | invalidCharacter
  | invalidAuthority
  /-- There is no authority before the path. -/
  | noAuthority
  deriving DecidableEq, Repr

def AddressFault.message : AddressFault → String
  | .tooLong => "uri too long"
  | .empty => "empty string"
  | .invalidCharacter => "invalid uri character"
  | .invalidAuthority => "invalid authority"
  | .noAuthority => "invalid format"

structure Address where
  /-- The host as it is written; one in square brackets keeps them. -/
  host : List Char
  deriving DecidableEq, Repr

namespace Address

/-! ## Authorities -/

/-- Whether a character stands for itself in an authority. -/
def isPlain (c : Char) : Bool := c.isAlphanum || "-._~!$&'()*+,;=".toList.contains c

/-- Whether a character ends an authority. -/
def endsAuthority (c : Char) : Bool := c = '/' || c = '?' || c = '#'

/-- What has been read of an authority. -/
structure Reading where
  /-- How many colons have come since the last at sign and the last bracket. -/
  colons : Nat := 0
  opened : Bool := false
  closed : Bool := false
  percent : Bool := false
  afterAt : Bool := false

/-- An address of the sixth version has up to seven colons, and one may stand before a port. -/
def maxColons : Nat := 8

/-- Reads one more character.  A percent sign may only stand in front of an at sign or inside
brackets, and brackets only once. -/
def Reading.step (s : Reading) (c : Char) : Except AddressFault Reading :=
  let s := { s with afterAt := false }
  if c = ':' then
    if s.colons < maxColons then .ok { s with colons := s.colons + 1 }
    else .error .invalidAuthority
  else if c = '[' then
    if s.percent || s.opened then .error .invalidAuthority else .ok { s with opened := true }
  else if c = ']' then
    if !s.opened || s.closed then .error .invalidAuthority
    else .ok { s with closed := true, colons := 0, percent := false }
  else if c = '@' then .ok { s with colons := 0, percent := false, afterAt := true }
  else if c = '%' then .ok { s with percent := true }
  else if isPlain c then .ok s
  else .error .invalidCharacter

/-- Whether an authority may end here. -/
def Reading.isComplete (s : Reading) : Bool :=
  s.opened == s.closed && s.colons ≤ 1 && !s.afterAt && !s.percent

def checkAuthority (authority : List Char) : Except AddressFault Unit := do
  if (← authority.foldlM Reading.step {}).isComplete then return () else throw .invalidAuthority

/-- The host in an authority: what follows the last at sign, without the port. -/
def hostIn (authority : List Char) : List Char :=
  let afterUser := (authority.reverse.takeWhile (· ≠ '@')).reverse
  match afterUser with
  | '[' :: rest => '[' :: (rest.takeWhile (· ≠ ']') ++ [']'])
  | rest => rest.takeWhile (· ≠ ':')

/-! ## Paths and queries -/

def isControl (c : Char) : Bool := c.toNat < 32 || c.toNat = 127

def isPathChar (c : Char) : Bool :=
  !isControl c && c ≠ ' ' && c ≠ '<' && c ≠ '>' && c.toNat ≠ 96

def isQueryChar (c : Char) : Bool :=
  !isControl c && c ≠ ' ' && c ≠ '"' && c ≠ '<' && c ≠ '>'

/-- Checks what follows an authority; a fragment may hold anything. -/
def checkTarget (target : List Char) : Except AddressFault Unit :=
  let target := target.takeWhile (· ≠ '#')
  if (target.takeWhile (· ≠ '?')).all isPathChar && (target.dropWhile (· ≠ '?')).all isQueryChar
  then .ok () else .error .invalidCharacter

/-! ## Whole addresses -/

/-- The most bytes that a URI may have. -/
def maxSize : Nat := 65534

def parse (text : String) : Except AddressFault Address := do
  let cs := text.toList
  if maxSize < "ws://".length + Utf8.size cs then throw .tooLong
  if cs.isEmpty then throw .empty
  let authority := cs.takeWhile fun c => !endsAuthority c
  checkAuthority authority
  if authority.isEmpty then throw .noAuthority
  checkTarget (cs.dropWhile fun c => !endsAuthority c)
  return ⟨hostIn authority⟩

end Address

end LedgerClient
