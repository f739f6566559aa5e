import LedgerClient.Schema.Basic
import LedgerClient.Text.Utf8
/-!
# Wire format

Messages travel as bytes: numbers little-endian, lengths and counts in four bytes, fields in
order, alternatives by their position in one byte, dictionaries as their entries.  `Schema.encode`
writes, `Schema.decode` reads a value off the front, and `fromWire` wants all bytes used.
-/

namespace LedgerClient

/-- Why bytes are no value of a schema. -/
inductive Misread where
  | endOfInput
  | trailingBytes
  | variantTag (tag : UInt8)
  | boolByte (byte : UInt8)
  | optionByte (byte : UInt8)
  | notText (fault : Utf8.Fault)
  deriving DecidableEq, Repr

def Misread.message : Misread → String
  | .endOfInput => "Unexpected length of input"
  | .trailingBytes => "Not all bytes read"
  | .variantTag tag => s!"Unexpected variant tag: {tag.toNat}"
  | .boolByte byte => s!"Invalid bool representation: {byte.toNat}"
  | .optionByte byte =>
    s!"Invalid Option representation: {byte.toNat}. The first byte must be 0 or 1"
  | .notText fault => fault.message

/-! ## Writing -/

/-- A length or count. -/
def encodeCount (n : Nat) : Bytes := littleEndian 4 n

def encodeBytes (bs : Bytes) : Bytes := encodeCount bs.length ++ bs

def encodeText (s : String) : Bytes := encodeBytes (Utf8.encode s)

mutual

def Schema.encode : (s : Schema) → s.Carrier → Bytes
  | .uint16, n => littleEndian 2 n.toNat
  | .uint32, n => littleEndian 4 n.toNat
  | .uint64, n => littleEndian 8 n.toNat
  | .int32, n => littleEndian 4 n.toUInt32.toNat
  | .int64, n => littleEndian 8 n.toUInt64.toNat
  | .bool, b => [if b then 1 else 0]
  | .text, s => encodeText s
  | .bytes, bs => encodeBytes bs
  | .enumeration _, i => [UInt8.ofNat i.val]
  | .list item, l => encodeCount l.length ++ l.flatMap fun a => item.encode a
  | .option _, none => [0]
  | .option item, some a => 1 :: item.encode a
  | .dict value, d =>
    encodeCount d.size ++ d.entries.flatMap fun e => encodeText e.1 ++ value.encode e.2
  | .record fields, r => fields.encode r
  | .choice arms, a => arms.encode 0 a

def Fields.encode : (fs : Fields) → fs.Carrier → Bytes
  | .nil, _ => []
  | .cons _ _ schema rest, (a, r) => schema.encode a ++ rest.encode r

/-- `tag` is the position of the first of the arms. -/
def Arms.encode (tag : Nat) : (as : Arms) → as.Carrier → Bytes
  | .bare _ _, .inl _ => [UInt8.ofNat tag]
  | .bare _ rest, .inr a => rest.encode (tag + 1) a
  | .holding _ schema _, .inl a => UInt8.ofNat tag :: schema.encode a
  | .holding _ _ rest, .inr a => rest.encode (tag + 1) a

end

/-! ## Reading -/

/-- Reads a value off the front and returns the bytes that follow. -/
abbrev Reading (α : Type) := Bytes → Except Misread (α × Bytes)

def takeBytes (n : Nat) : Reading Bytes := fun bs =>
  match bs.split? n with
  | some r => .ok r
  | none => .error .endOfInput

def decodeNumber (width : Nat) : Reading Nat := fun bs => do
  let (digits, rest) ← takeBytes width bs
  return (ofLittleEndian digits, rest)

def decodeByte : Reading UInt8
  | [] => .error .endOfInput
  | b :: rest => .ok (b, rest)

def decodeBytes : Reading Bytes := fun bs => do
  let (n, rest) ← decodeNumber 4 bs
  takeBytes n rest

def decodeText : Reading String := fun bs => do
  let (raw, rest) ← decodeBytes bs
  match Utf8.decode raw with
  | .ok s => return (s, rest)
  | .error fault => throw (.notText fault)

/-- Reads `n` items one after the other. -/
def decodeItems {α : Type} (item : Reading α) : (n : Nat) → Reading (List α)
  | 0, bs => .ok ([], bs)
  | n + 1, bs => do
    let (a, rest) ← item bs
    let (as, rest) ← decodeItems item n rest
    return (a :: as, rest)

def decodeEntry {α : Type} (value : Reading α) : Reading (String × α) := fun bs => do
  let (k, rest) ← decodeText bs
  let (v, rest) ← value rest
  return ((k, v), rest)

mutual

def Schema.decode : (s : Schema) → Reading s.Carrier
  | .uint16, bs => do
    let (n, rest) ← decodeNumber 2 bs
    return (UInt16.ofNat n, rest)
  | .uint32, bs => do
    let (n, rest) ← decodeNumber 4 bs
    return (UInt32.ofNat n, rest)
  | .uint64, bs => do
    let (n, rest) ← decodeNumber 8 bs
    return (UInt64.ofNat n, rest)
  | .int32, bs => do
    let (n, rest) ← decodeNumber 4 bs
    return ((UInt32.ofNat n).toInt32, rest)
  | .int64, bs => do
    let (n, rest) ← decodeNumber 8 bs
    return ((UInt64.ofNat n).toInt64, rest)
  | .bool, bs => do
    let (b, rest) ← decodeByte bs
    if b = 0 then return (false, rest)
    else if b = 1 then return (true, rest)
    else throw (.boolByte b)
  | .text, bs => decodeText bs
  | .bytes, bs => decodeBytes bs
  | .enumeration names, bs => do
    let (b, rest) ← decodeByte bs
    if h : b.toNat < names.length then return (⟨b.toNat, h⟩, rest)
    else throw (.variantTag b)
  | .list item, bs => do
    let (n, rest) ← decodeNumber 4 bs
    decodeItems (fun bs => item.decode bs) n rest
  | .option item, bs => do
    let (b, rest) ← decodeByte bs
    if b = 0 then return (none, rest)
    else if b = 1 then
      let (a, rest) ← item.decode rest
      return (some a, rest)
    else throw (.optionByte b)
  | .dict value, bs => do
    let (n, rest) ← decodeNumber 4 bs
    let (entries, rest) ← decodeItems (decodeEntry fun bs => value.decode bs) n rest
    return (Dict.ofList entries, rest)
  | .record fields, bs => fields.decode bs
  | .choice arms, bs => do
    let (b, rest) ← decodeByte bs
    arms.decode b b.toNat rest

def Fields.decode : (fs : Fields) → Reading fs.Carrier
  | .nil, bs => .ok ((), bs)
  | .cons _ _ schema rest, bs => do
    let (a, bs) ← schema.decode bs
    let (r, bs) ← rest.decode bs
    return ((a, r), bs)

/-- Reads what belongs to the arm at position `place`; `tag` is the byte that chose it. -/
def Arms.decode (tag : UInt8) : (as : Arms) → (place : Nat) → Reading as.Carrier
  | .nil, _, _ => .error (.variantTag tag)
  | .bare _ _, 0, bs => .ok (.inl (), bs)
  | .bare _ rest, place + 1, bs => do
    let (a, bs) ← rest.decode tag place bs
    return (.inr a, bs)
  | .holding _ schema _, 0, bs => do
    let (a, bs) ← schema.decode bs
    return (.inl a, bs)
  | .holding _ _ rest, place + 1, bs => do
    let (a, bs) ← rest.decode tag place bs
    return (.inr a, bs)

end

/-- A value that takes all the bytes. -/
def Schema.decodeAll (s : Schema) (bs : Bytes) : Except Misread s.Carrier := do
  let (a, rest) ← s.decode bs
  if rest.isEmpty then return a else throw .trailingBytes

/-! ## Messages -/

/-- Bytes that are no message of the type they were read as. -/
structure DecodeFault where
  typeName : String
  reason : Misread
  deriving DecidableEq, Repr

def DecodeFault.message (f : DecodeFault) : String :=
  s!"failed to decode {f.typeName}: {f.reason.message}"

def toWire {α : Type} [Layout α] (a : α) : Bytes := (schema α).encode (pack a)

def fromWire (α : Type) [Message α] (bs : Bytes) : Except DecodeFault α :=
  match (schema α).decodeAll bs with
  | .ok c => .ok (unpack c)
  | .error reason => .error { typeName := Message.typeName α, reason := reason }

end LedgerClient
