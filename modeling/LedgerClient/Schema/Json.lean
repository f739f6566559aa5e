import LedgerClient.Schema.Basic
import LedgerClient.Json.Value
import LedgerClient.Json.Scan
/-!
# JSON form of messages

Records are objects under their field names, byte strings arrays of numbers, absent options
`null`, and an alternative is its name or an object with its name as the only key.
`Schema.toJson` writes; `Schema.scan` reads, stopping at the first fault.  A reader passes over
members it does not know, and takes an array for a record.
-/

namespace LedgerClient

open Json (Fault Scan Value)

/-! ## Writing -/

mutual

def Schema.toJson : (s : Schema) → s.Carrier → Value
  | .uint16, n => .number n.toNat
  | .uint32, n => .number n.toNat
  | .uint64, n => .number n.toNat
  | .int32, n => .number n.toInt
  | .int64, n => .number n.toInt
  | .bool, b => .bool b
  | .text, s => .text s
  | .bytes, bs => .array (bs.map fun b => .number b.toNat)
  | .enumeration names, i => .text (names.get i)
  | .list item, l => .array (l.map fun a => item.toJson a)
  | .option _, none => .null
  | .option item, some a => item.toJson a
  | .dict value, d => .object (d.entries.map fun e => (e.1, value.toJson e.2))
  | .record fields, r => .object (fields.toMembers r)
  | .choice arms, a => arms.toJson a

def Fields.toMembers : (fs : Fields) → fs.Carrier → List (String × Value)
  | .nil, _ => []
  | .cons name _ schema rest, (a, r) => (name, schema.toJson a) :: rest.toMembers r

def Arms.toJson : (as : Arms) → as.Carrier → Value
  | .bare name _, .inl _ => .text name
  | .bare _ rest, .inr a => rest.toJson a
  | .holding name schema _, .inl a => .object [(name, schema.toJson a)]
  | .holding _ _ rest, .inr a => rest.toJson a

end

def Schema.isOption : Schema → Bool
  | .option _ => true
  | _ => false

theorem Arms.toJson_ne_null : ∀ {as : Arms} (a : as.Carrier), as.toJson a ≠ .null
  | .bare _ _, .inl _ => by
    rw [Arms.toJson]
    exact Value.noConfusion
  | .bare _ rest, .inr a => by
    rw [Arms.toJson]
    exact rest.toJson_ne_null a
  | .holding _ _ _, .inl _ => by
    rw [Arms.toJson]
    exact Value.noConfusion
  | .holding _ _ rest, .inr a => by
    rw [Arms.toJson]
    exact rest.toJson_ne_null a

/-- Only an option is written as `null`. -/
theorem Schema.toJson_ne_null {s : Schema} (h : s.isOption = false) (c : s.Carrier) :
    s.toJson c ≠ .null := by
  cases s with
  | option item => cases h
  | choice arms =>
    rw [Schema.toJson]
    exact arms.toJson_ne_null c
  | _ =>
    rw [Schema.toJson]
    exact Value.noConfusion

/-! ## Absent fields -/

mutual

def Schema.fallback : Absence → (s : Schema) → Option s.Carrier
  | .refused, _ => none
  | .number n, .uint64 => some n
  | .number _, _ => none
  | .zero, .uint16 => some 0
  | .zero, .uint32 => some 0
  | .zero, .uint64 => some 0
  | .zero, .int32 => some 0
  | .zero, .int64 => some 0
  | .zero, .bool => some false
  | .zero, .text => some ""
  | .zero, .bytes => some []
  | .zero, .enumeration _ => none
  | .zero, .list _ => some []
  | .zero, .option _ => some none
  | .zero, .dict _ => some .empty
  | .zero, .record fields => fields.fallback
  | .zero, .choice _ => none

/-- The record whose fields were all left out. -/
def Fields.fallback : (fs : Fields) → Option fs.Carrier
  | .nil => some ()
  | .cons _ absence schema rest => do return (← schema.fallback absence, ← rest.fallback)

end

/-- What a member that is left out stands for: an option is nothing, whatever its field says. -/
def Schema.whenMissing (absence : Absence) : (s : Schema) → Option s.Carrier
  | .option _ => some none
  | s => s.fallback absence

/-! ## Reading -/

/-- The members of a record that have been read. -/
@[reducible] def Fields.Slots : Fields → Type
  | .nil => Unit
  | .cons _ _ schema rest => Option schema.Carrier × rest.Slots

def Fields.noSlots : (fs : Fields) → fs.Slots
  | .nil => ()
  | .cons _ _ _ rest => (none, rest.noSlots)

def Fields.complete : (fs : Fields) → fs.Slots → Except Fault fs.Carrier
  | .nil, _ => .ok ()
  | .cons _ absence schema rest, (slot, slots) =>
    match slot <|> schema.whenMissing absence with
    | none => .error .unfit
    | some a => do return (a, ← rest.complete slots)

/-- Reads an integer from `low` to `high`. -/
def scanInteger (low high : Int) : Scan Int := fun cs =>
  match Json.skipSpace cs with
  | [] => .error .truncated
  | c :: rest =>
    if c = Ascii.minus || Json.isDigit c then
      match Json.scanNumber (c :: rest) with
      | .error e => .error e
      | .ok (.fraction, _) => .error .unfit
      | .ok (.integer n, rest) => if low ≤ n ∧ n ≤ high then .ok (n, rest) else .error .unfit
    else .error (Json.wrongKind (c :: rest))

def scanUnsigned (width : Nat) : Scan Nat := fun cs => do
  let (n, rest) ← scanInteger 0 (Int.pow 2 width - 1) cs
  return (n.toNat, rest)

def scanSigned (width : Nat) : Scan Int :=
  scanInteger (-Int.pow 2 (width - 1)) (Int.pow 2 (width - 1) - 1)

def scanBool : Scan Bool := fun cs =>
  match Json.skipSpace cs with
  | Ascii.t :: rest => do return (true, ← Json.scanTrueRest rest)
  | Ascii.f :: rest => do return (false, ← Json.scanFalseRest rest)
  | rest => .error (Json.wrongKind rest)

def scanText : Scan String := fun cs =>
  match Json.skipSpace cs with
  | Ascii.quote :: rest => Json.scanString rest
  | rest => .error (Json.wrongKind rest)

def scanNull : Scan Unit := fun cs =>
  match Json.skipSpace cs with
  | Ascii.n :: rest => do return ((), ← Json.scanNullRest rest)
  | rest => .error (Json.wrongKind rest)

def scanList {α : Type} (item : Scan α) : Scan (List α) := fun cs =>
  match Json.skipSpace cs with
  | Ascii.openSquare :: rest => Json.scanItems item (rest.length + 1) true rest
  | rest => .error (Json.wrongKind rest)

def scanByte : Scan UInt8 := fun cs => do
  let (n, rest) ← scanUnsigned 8 cs
  return (UInt8.ofNat n, rest)

def scanEntry {α : Type} (value : Scan α) (key : String) (d : Dict α) : Scan (Dict α) :=
  fun cs => do
    let (v, rest) ← value (← Json.scanColon cs)
    return (d.insert key v, rest)

def scanDict {α : Type} (value : Scan α) : Scan (Dict α) := fun cs =>
  match Json.skipSpace cs with
  | Ascii.openCurly :: rest => Json.scanMembers (scanEntry value) (rest.length + 1) true .empty rest
  | rest => .error (Json.wrongKind rest)

/-- Reads the name of an alternative and the colon after it, where the name is `known`. -/
def scanArmName (known : String → Bool) : Scan String := fun cs => do
  let (name, rest) ← scanText cs
  if known name then return (name, ← Json.scanColon rest) else throw .unfit

/-- Reads the bracket that closes an alternative. -/
def closeArm (cs : Bytes) : Except Fault (Bytes) :=
  match Json.skipSpace cs with
  | [] => .error .truncated
  | Ascii.closeCurly :: rest => .ok rest
  | _ => .error .malformed

/-- Reads an alternative, alone by its name or as an object with what it holds. -/
def scanArm {α : Type} (known : String → Bool) (bare : String → Except Fault α)
    (holding : String → Scan α) : Scan α := fun cs =>
  match Json.skipSpace cs with
  | [] => .error .truncated
  | Ascii.quote :: rest => do
    let (name, rest) ← Json.scanString rest
    return (← bare name, rest)
  | Ascii.openCurly :: rest => do
    let (name, rest) ← scanArmName known rest
    let (a, rest) ← holding name rest
    return (a, ← closeArm rest)
  | _ => .error .malformed

/-- The position of a name. -/
def indexOf? (name : String) : (names : List String) → Option (Fin names.length)
  | [] => none
  | n :: ns =>
    if name = n then some ⟨0, Nat.zero_lt_succ _⟩ else (indexOf? name ns).map Fin.succ

def scanName (names : List String) : Scan (Fin names.length) :=
  let find (name : String) : Except Fault (Fin names.length) :=
    match indexOf? name names with
    | some i => .ok i
    | none => .error .unfit
  scanArm (fun name => (indexOf? name names).isSome) find fun name cs => do
    let i ← find name
    let (_, rest) ← scanNull cs
    return (i, rest)

def Arms.names : Arms → List String
  | .nil => []
  | .bare name rest => name :: rest.names
  | .holding name _ rest => name :: rest.names

/-- An alternative known by its name alone. -/
def Arms.ofName (name : String) : (as : Arms) → Except Fault as.Carrier
  | .nil => .error .unfit
  | .bare n rest => if name = n then .ok (.inl ()) else .inr <$> rest.ofName name
  | .holding n _ rest => if name = n then .error .unfit else .inr <$> rest.ofName name

mutual

def Schema.scan : (s : Schema) → Scan s.Carrier
  | .uint16, cs => do
    let (n, rest) ← scanUnsigned 16 cs
    return (UInt16.ofNat n, rest)
  | .uint32, cs => do
    let (n, rest) ← scanUnsigned 32 cs
    return (UInt32.ofNat n, rest)
  | .uint64, cs => do
    let (n, rest) ← scanUnsigned 64 cs
    return (UInt64.ofNat n, rest)
  | .int32, cs => do
    let (n, rest) ← scanSigned 32 cs
    return (Int32.ofInt n, rest)
  | .int64, cs => do
    let (n, rest) ← scanSigned 64 cs
    return (Int64.ofInt n, rest)
  | .bool, cs => scanBool cs
  | .text, cs => scanText cs
  | .bytes, cs => scanList scanByte cs
  | .enumeration names, cs => scanName names cs
  | .list item, cs => scanList (fun cs => item.scan cs) cs
  | .option item, cs =>
    match Json.skipSpace cs with
    | Ascii.n :: rest => do return (none, ← Json.scanNullRest rest)
    | rest => do
      let (a, rest) ← item.scan rest
      return (some a, rest)
  | .dict value, cs => scanDict (fun cs => value.scan cs) cs
  | .record fields, cs =>
    match Json.skipSpace cs with
    | Ascii.openCurly :: rest => do
      let (slots, rest) ←
        Json.scanMembers (fun key slots cs => fields.scanMember key slots cs) (rest.length + 1) true
          fields.noSlots rest
      return (← fields.complete slots, rest)
    | Ascii.openSquare :: rest => do
      let (r, rest) ← fields.scanInOrder true rest
      return (r, ← Json.closeArray rest)
    | rest => .error (Json.wrongKind rest)
  | .choice arms, cs =>
    scanArm (fun name => arms.names.contains name) (fun name => arms.ofName name)
      (fun name cs => arms.scanHeld name cs) cs

/-- Reads what belongs to the member `key`, after the key itself. -/
def Fields.scanMember : (fs : Fields) → (key : String) → fs.Slots → Scan fs.Slots
  | .nil, _, _, cs => do return ((), ← Json.skipValue (← Json.scanColon cs))
  | .cons name _ schema rest, key, (slot, slots), cs =>
    if key = name then
      if slot.isSome then .error .unfit
      else do
        let (a, cs) ← schema.scan (← Json.scanColon cs)
        return ((some a, slots), cs)
    else do
      let (slots, cs) ← rest.scanMember key slots cs
      return ((slot, slots), cs)

/-- Reads the fields as items of an array, up to the closing bracket. -/
def Fields.scanInOrder : (fs : Fields) → (first : Bool) → Scan fs.Carrier
  | .nil, _, cs => .ok ((), cs)
  | .cons _ absence schema rest, first, cs => do
    let (more, cs) ← Json.nextItem first cs
    if more then
      let (a, cs) ← schema.scan cs
      let (r, cs) ← rest.scanInOrder false cs
      return ((a, r), cs)
    else
      match schema.fallback absence with
      | none => throw .unfit
      | some a =>
        let (r, cs) ← rest.scanInOrder first cs
        return ((a, r), cs)

/-- Reads what the arm `name` holds. -/
def Arms.scanHeld (name : String) : (as : Arms) → Scan as.Carrier
  | .nil, _ => .error .unfit
  | .bare n rest, cs =>
    if name = n then do
      let (_, cs) ← scanNull cs
      return (.inl (), cs)
    else do
      let (a, cs) ← rest.scanHeld name cs
      return (.inr a, cs)
  | .holding n schema rest, cs =>
    if name = n then do
      let (a, cs) ← schema.scan cs
      return (.inl a, cs)
    else do
      let (a, cs) ← rest.scanHeld name cs
      return (.inr a, cs)

end

/-- Reads a whole text, given in bytes; only blanks may follow the value. -/
def scanAll {α : Type} (value : Scan α) (text : Bytes) : Except Fault α := do
  let (a, rest) ← value text
  if (Json.skipSpace rest).isEmpty then return a else throw .malformed

def toJson {α : Type} [Layout α] (a : α) : Value := (schema α).toJson (pack a)

def toJsonText {α : Type} [Layout α] (a : α) : String := (toJson a).toText

/-- Reads a value from a text in bytes. -/
def fromJson (α : Type) [Layout α] (text : Bytes) : Except Fault α :=
  unpack <$> scanAll (schema α).scan text

def fromJsonText (α : Type) [Layout α] (text : String) : Except Fault α :=
  fromJson α (Utf8.encode text)

end LedgerClient
