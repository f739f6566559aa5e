import LedgerClient.Message.Chaincode
/-!
# Options

The words of a command line, read one after the other: options with their values, then a command,
then options again.  The options of the client itself may stand before and after the command; what
stands after goes over what stands before.
-/

namespace LedgerClient

/-- What the value of an option has to be. -/
inductive ValueKind where
  | text
  /-- Not empty. -/
  | path
  | natural
  | integer
  | lang
  deriving DecidableEq

inductive Arity where
  /-- No value. -/
  | flag
  | once (kind : ValueKind)
  | repeated (kind : ValueKind)
  deriving DecidableEq

structure OptionForm where
  name : String
  short : Option Char := none
  arity : Arity

structure CommandForm where
  name : String
  options : List OptionForm

inductive UsageFault where
  | unknownOption (word : String)
  | unexpectedWord (word : String)
  | missingValue (option : String)
  | unexpectedValue (option : String)
  | invalidValue (option value : String)
  | repeatedOption (option : String)
  | missingOption (option : String)
  /-- Two options that exclude each other. -/
  | conflict (option other : String)
  | missingCommand
  | unknownCommand (word : String)
  deriving DecidableEq

def UsageFault.message : UsageFault → String
  | .unknownOption word => s!"unexpected argument '{word}' found"
  | .unexpectedWord word => s!"unexpected argument '{word}' found"
  | .missingValue option => s!"a value is required for '--{option}' but none was supplied"
  | .unexpectedValue option => s!"unexpected value for '--{option}' found"
  | .invalidValue option value => s!"invalid value '{value}' for '--{option}'"
  | .repeatedOption option => s!"the argument '--{option}' cannot be used multiple times"
  | .missingOption option => s!"the argument '--{option}' is required"
  | .conflict option other => s!"the argument '--{option}' cannot be used with '--{other}'"
  | .missingCommand => "a command is required"
  | .unknownCommand word => s!"unrecognized command '{word}'"

/-- Why no command line comes out of the words. -/
inductive Stop where
  | help
  | fault (fault : UsageFault)
  deriving DecidableEq

/-! ## Values -/

/-- The number that decimal digits stand for. -/
def digitsValue? (cs : List Char) : Option Nat :=
  if cs.isEmpty || !cs.all Char.isDigit then none
  else some (cs.foldl (fun n c => 10 * n + (c.toNat - 48)) 0)

/-- A plus sign is allowed. -/
def naturalOf? (s : String) : Option UInt64 :=
  let digits := match s.toList with
    | '+' :: cs => cs
    | cs => cs
  match digitsValue? digits with
  | some n => if n < Nat.pow 2 64 then some (UInt64.ofNat n) else none
  | none => none

def integerOf? (s : String) : Option Int64 :=
  let value : Option Int := match s.toList with
    | '+' :: cs => (digitsValue? cs).map Int.ofNat
    | '-' :: cs => (digitsValue? cs).map fun n => -Int.ofNat n
    | cs => (digitsValue? cs).map Int.ofNat
  match value with
  | some n => if -Int.pow 2 63 ≤ n ∧ n < Int.pow 2 63 then some (Int64.ofInt n) else none
  | none => none

def ValueKind.accepts (value : String) : ValueKind → Bool
  | .text => true
  | .path => !value.isEmpty
  | .natural => (naturalOf? value).isSome
  | .integer => (integerOf? value).isSome
  | .lang => (ChaincodeLang.ofText value).isOk

/-! ## Words -/

/-- The options that were given, with their values, in the order of the words. -/
abbrev Given := List (String × String)

def Given.has (g : Given) (name : String) : Bool := g.any fun e => e.1 = name

def Given.all (g : Given) (name : String) : List String :=
  (g.filter fun e => e.1 = name).map (·.2)

def Given.get? (g : Given) (name : String) : Option String := (g.all name).head?

/-- Takes an option with its value, if it may have that value here. -/
def Given.add (g : Given) (form : OptionForm) (value : String) : Except Stop Given :=
  let checked (kind : ValueKind) : Except Stop Given :=
    if kind.accepts value then .ok (g ++ [(form.name, value)])
    else .error (.fault (.invalidValue form.name value))
  let fresh (result : Except Stop Given) : Except Stop Given :=
    if g.has form.name then .error (.fault (.repeatedOption form.name)) else result
  match form.arity with
  | .flag => fresh (.ok (g ++ [(form.name, "")]))
  | .once kind => fresh (checked kind)
  | .repeated kind => checked kind

inductive Word where
  | separator
  /-- An option by its name, with a value behind an equals sign. -/
  | long (name : String) (value : Option String)
  | short (letter : Char) (rest : List Char)
  | plain (text : String)
  deriving DecidableEq

def longWord (cs : List Char) : Word :=
  match cs.dropWhile (· ≠ '=') with
  | [] => .long (String.ofList cs) none
  | _ :: value => .long (String.ofList (cs.takeWhile (· ≠ '='))) (some (String.ofList value))

/-- A single dash is a plain word. -/
def Word.of (s : String) : Word :=
  match s.toList with
  | ['-', '-'] => .separator
  | '-' :: '-' :: cs => longWord cs
  | '-' :: c :: cs => .short c cs
  | _ => .plain s

/-- The value that stands behind the letter of an option; an equals sign between may be left out. -/
def attachedValue : List Char → Option String
  | [] => none
  | '=' :: cs => some (String.ofList cs)
  | c :: cs => some (String.ofList (c :: cs))

/-- The option that is named, with the value in the word itself. -/
def findLong (forms : List OptionForm) (name : String) (value : Option String) :
    Except Stop (OptionForm × Option String) :=
  match forms.find? fun f => f.name = name with
  | some form => .ok (form, value)
  | none =>
    if name ≠ "help" then .error (.fault (.unknownOption ("--" ++ name)))
    else if value.isSome then .error (.fault (.unexpectedValue name))
    else .error .help

def findShort (forms : List OptionForm) (letter : Char) (rest : List Char) :
    Except Stop (OptionForm × Option String) :=
  match forms.find? fun f => f.short = some letter with
  | some form => .ok (form, attachedValue rest)
  | none =>
    if letter ≠ 'h' then .error (.fault (.unknownOption ("-" ++ letter.toString)))
    else .error .help

/-- Takes an option; where the word has no value, the next word has to be one. -/
def Given.take (g : Given) (form : OptionForm) (value : Option String) :
    Except Stop (Given × Option OptionForm) :=
  match form.arity, value with
  | .flag, some _ => .error (.fault (.unexpectedValue form.name))
  | .flag, none => do return (← g.add form "", none)
  | _, some value => do return (← g.add form value, none)
  | _, none => .ok (g, some form)

/-- Reads options up to the first plain word, which is left with what follows.  `waiting` is the
option whose value comes next. -/
def readOptions (forms : List OptionForm) (waiting : Option OptionForm) (g : Given) :
    List String → Except Stop (Given × List String)
  | [] =>
    match waiting with
    | some form => .error (.fault (.missingValue form.name))
    | none => .ok (g, [])
  | word :: rest =>
    match waiting, Word.of word with
    | some form, .plain value => do
      let g ← g.add form value
      readOptions forms none g rest
    | some form, _ => .error (.fault (.missingValue form.name))
    | none, .plain _ => .ok (g, word :: rest)
    | none, .separator =>
      match rest with
      | [] => .ok (g, [])
      | next :: _ => .error (.fault (.unexpectedWord next))
    | none, .long name value => do
      let (form, value) ← findLong forms name value
      let (g, waiting) ← g.take form value
      readOptions forms waiting g rest
    | none, .short letter letters => do
      let (form, value) ← findShort forms letter letters
      let (g, waiting) ← g.take form value
      readOptions forms waiting g rest

/-- The options of a command line by where they stand. -/
structure Words where
  /-- Before the command. -/
  before : Given
  command : String
  after : Given

/-- Asking for help, about one command that there is or in general. -/
def helpAbout (commands : List CommandForm) : List String → Stop
  | [] => .help
  | name :: rest =>
    if name = "help" || commands.any fun c => c.name = name then
      match rest with
      | [] => .help
      | word :: _ => .fault (.unknownCommand word)
    else .fault (.unknownCommand name)

def readWords (globals : List OptionForm) (commands : List CommandForm) (words : List String) :
    Except Stop Words := do
  match ← readOptions globals none [] words with
  | (_, []) => throw (.fault .missingCommand)
  | (_, "help" :: rest) => throw (helpAbout commands rest)
  | (before, name :: rest) =>
    match commands.find? fun c => c.name = name with
    | none => throw (.fault (.unknownCommand name))
    | some form =>
      match ← readOptions (globals ++ form.options) none [] rest with
      | (after, []) => return ⟨before, name, after⟩
      | (_, word :: _) => throw (.fault (.unexpectedWord word))

end LedgerClient
