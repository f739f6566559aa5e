import LedgerClient.Bytes
import LedgerClient.Dict
/-!
# Schemas

A schema says what a message is made of.  `Schema.Carrier` is the type of the values of a schema,
`Layout` ties a type of this library to a schema by two inverse functions, and `Message` adds the
name under which the type is known on the network.  Formats are defined once, on schemas.
-/

namespace LedgerClient

/-- What stands for a field that a text leaves out. -/
inductive Absence where
  | refused
  /-- Zero, `false`, an empty list, nothing, or a record whose fields are all left out. -/
  | zero
  | number (n : UInt64)
  deriving DecidableEq

mutual

inductive Schema where
  | uint16 | uint32 | uint64 | int32 | int64 | bool | text | bytes
  /-- One of several names. -/
  | enumeration (names : List String)
  | list (item : Schema)
  | option (item : Schema)
  /-- Values under text keys. -/
  | dict (value : Schema)
  | record (fields : Fields)
  | choice (arms : Arms)

inductive Fields where
  | nil
  | cons (name : String) (absence : Absence) (schema : Schema) (rest : Fields)

/-- The alternatives of a choice. -/
inductive Arms where
  | nil
  | bare (name : String) (rest : Arms)
  | holding (name : String) (schema : Schema) (rest : Arms)

end

mutual

@[reducible] def Schema.Carrier : Schema → Type
  | .uint16 => UInt16
  | .uint32 => UInt32
  | .uint64 => UInt64
  | .int32 => Int32
  | .int64 => Int64
  | .bool => Bool
  | .text => String
  | .bytes => Bytes
  | .enumeration names => Fin names.length
  | .list item => List item.Carrier
  | .option item => Option item.Carrier
  | .dict value => Dict value.Carrier
  | .record fields => fields.Carrier
  | .choice arms => arms.Carrier

@[reducible] def Fields.Carrier : Fields → Type
  | .nil => Unit
  | .cons _ _ schema rest => schema.Carrier × rest.Carrier

@[reducible] def Arms.Carrier : Arms → Type
  | .nil => Empty
  | .bare _ rest => Unit ⊕ rest.Carrier
  | .holding _ schema rest => schema.Carrier ⊕ rest.Carrier

end

/-- A type whose values are those of a schema. -/
class Layout (α : Type) where
  schema : Schema
  pack : α → schema.Carrier
  unpack : schema.Carrier → α
  unpack_pack : ∀ a, unpack (pack a) = a := by intro a; rfl
  pack_unpack : ∀ c, pack (unpack c) = c := by intro c; rfl

export Layout (schema pack unpack)

attribute [simp] Layout.unpack_pack Layout.pack_unpack

class Message (α : Type) extends Layout α where
  typeName : String

/-- A finite type whose values are known by name. -/
class Enumeration (α : Type) where
  names : List String
  toFin : α → Fin names.length
  ofFin : Fin names.length → α
  ofFin_toFin : ∀ a, ofFin (toFin a) = a := by intro a; cases a <;> rfl
  toFin_ofFin : ∀ i, toFin (ofFin i) = i := by decide

def Enumeration.name {α : Type} [Enumeration α] (a : α) : String :=
  (names α)[(toFin a : Fin _)]

namespace Fields

/-- A field that has to be there. -/
@[reducible] def field (name : String) (α : Type) [Layout α] (rest : Fields) : Fields :=
  .cons name .refused (schema α) rest

/-- A field that may be left out. -/
@[reducible] def fieldOr (name : String) (absence : Absence) (α : Type) [Layout α]
    (rest : Fields) : Fields :=
  .cons name absence (schema α) rest

end Fields

/-! ## Layouts of plain types -/

instance : Layout UInt16 where
  schema := .uint16
  pack a := a
  unpack a := a

instance : Layout UInt32 where
  schema := .uint32
  pack a := a
  unpack a := a

instance : Layout UInt64 where
  schema := .uint64
  pack a := a
  unpack a := a

instance : Layout Int32 where
  schema := .int32
  pack a := a
  unpack a := a

instance : Layout Int64 where
  schema := .int64
  pack a := a
  unpack a := a

instance : Layout Bool where
  schema := .bool
  pack a := a
  unpack a := a

instance : Layout String where
  schema := .text
  pack a := a
  unpack a := a

instance : Layout Bytes where
  schema := .bytes
  pack a := a
  unpack a := a

instance {α : Type} [Enumeration α] : Layout α where
  schema := .enumeration (Enumeration.names α)
  pack a := Enumeration.toFin a
  unpack i := Enumeration.ofFin i
  unpack_pack := Enumeration.ofFin_toFin
  pack_unpack := Enumeration.toFin_ofFin

instance {α : Type} [Layout α] : Layout (List α) where
  schema := .list (schema α)
  pack l := l.map pack
  unpack l := l.map unpack
  unpack_pack l := by simp [Function.comp_def]
  pack_unpack l := by simp [Function.comp_def]

instance {α : Type} [Layout α] : Layout (Option α) where
  schema := .option (schema α)
  pack o := o.map pack
  unpack o := o.map unpack
  unpack_pack o := by cases o <;> simp
  pack_unpack o := by cases o <;> simp

instance {α : Type} [Layout α] : Layout (Dict α) where
  schema := .dict (schema α)
  pack d := d.map pack
  unpack d := d.map unpack
  unpack_pack d := by simp [Dict.map_id_of]
  pack_unpack d := by simp [Dict.map_id_of]

end LedgerClient
