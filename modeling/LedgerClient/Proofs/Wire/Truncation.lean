import LedgerClient.Message.Catalog
import LedgerClient.Proofs.Wire.Inversion
import Mathlib.Tactic.ByContra
/-!
# Messages that are cut short or go on

A reading takes its bytes from the front and looks at nothing behind them.

* `Steady`: bytes that are added at the end change neither what is read nor a fault, the end of the
  input apart.
* `Schema.steady`: the readings of all schemas are steady.
* `front_of_decodeMessage`: bytes begin with one message of a type at most.
* `fromWire_self_delimiting`: a message of the catalog is read from its bytes, and neither from a
  part of them nor from more.
-/

namespace LedgerClient

variable {α β : Type} {read read' : Reading α}

/-- Bytes that are added at the end are left over, unless the input had ended too early. -/
def Steady (read : Reading α) : Prop :=
  ∀ bs, read bs ≠ .error .endOfInput → ∀ more,
    read (bs ++ more) = (read bs).map fun x => (x.1, x.2 ++ more)

namespace Steady

theorem pure (a : α) : Steady fun bs => .ok (a, bs) := by
  intro bs _ more
  rfl

theorem error (e : Misread) : Steady (fun _ => .error e : Reading α) := by
  intro bs _ more
  rfl

theorem bind (h : Steady read) {f : α → Reading β} (hf : ∀ a, Steady (f a)) :
    Steady fun bs => read bs >>= fun x => f x.1 x.2 := by
  intro bs hbs more
  dsimp only at hbs ⊢
  cases hread : read bs with
  | error e =>
    rw [hread] at hbs
    have hne : read bs ≠ .error .endOfInput := by
      rw [hread]
      exact fun heq => hbs (congrArg Except.error (Except.error.inj heq))
    rw [h bs hne more, hread]
    rfl
  | ok x =>
    rw [hread] at hbs
    have hne : read bs ≠ .error .endOfInput := by
      rw [hread]
      exact fun heq => (nomatch heq)
    rw [h bs hne more, hread]
    exact hf x.1 x.2 hbs more

theorem map (h : Steady read) (f : α → β) :
    Steady fun bs => read bs >>= fun x => .ok (f x.1, x.2) :=
  h.bind fun a => pure (f a)

theorem ite (p : Prop) [Decidable p] (h : Steady read) (h' : Steady read') :
    Steady fun bs => if p then read bs else read' bs := by
  by_cases hp : p
  · simp only [hp, if_true]
    exact h
  · simp only [hp, if_false]
    exact h'

/-- What is read from all bytes is not there yet in a part of them. -/
theorem of_append (h : Steady read) {a : α} {front back : Bytes} (hback : back ≠ [])
    (hread : read (front ++ back) = .ok (a, [])) : read front = .error .endOfInput := by
  by_contra hne
  rw [h front hne back] at hread
  cases hfront : read front with
  | error e =>
    rw [hfront] at hread
    cases hread
  | ok x =>
    rw [hfront] at hread
    have hrest : x.2 ++ back = [] := congrArg Prod.snd (Except.ok.inj hread)
    exact hback (List.append_eq_nil_iff.1 hrest).2

/-- Bytes are split in one way into what is read to the end and what follows it. -/
theorem front_unique (h : Steady read) {a a' : α} {front front' back back' : Bytes}
    (hread : read front = .ok (a, [])) (hread' : read front' = .ok (a', []))
    (heq : front ++ back = front' ++ back') : front = front' ∧ back = back' := by
  rcases List.append_eq_append_iff.1 heq with ⟨between, rfl, rfl⟩ | ⟨between, rfl, rfl⟩
  · have hnil : between = [] := by
      by_contra hne
      cases hread.symm.trans (h.of_append hne hread')
    rw [hnil, List.append_nil, List.nil_append]
    exact ⟨rfl, rfl⟩
  · have hnil : between = [] := by
      by_contra hne
      cases hread'.symm.trans (h.of_append hne hread)
    rw [hnil, List.append_nil, List.nil_append]
    exact ⟨rfl, rfl⟩

end Steady

/-! ## Numbers, byte strings and texts -/

theorem takeBytes_steady (n : Nat) : Steady (takeBytes n) := by
  intro bs h more
  cases hsplit : bs.split? n with
  | none =>
    rw [takeBytes, hsplit] at h
    exact absurd rfl h
  | some x =>
    obtain ⟨hbs, hlength⟩ := eq_append_of_split? hsplit
    have hmore : (bs ++ more).split? n = some (x.1, x.2 ++ more) := by
      rw [hbs, List.append_assoc, ← hlength]
      exact split?_append _ _
    rw [takeBytes, takeBytes, hsplit, hmore]
    rfl

theorem decodeNumber_steady (width : Nat) : Steady (decodeNumber width) :=
  (takeBytes_steady width).map ofLittleEndian

theorem decodeByte_steady : Steady decodeByte := by
  intro bs h more
  cases bs with
  | nil => exact absurd rfl h
  | cons b bs => rfl

theorem decodeBytes_steady : Steady decodeBytes :=
  (decodeNumber_steady 4).bind takeBytes_steady

theorem decodeText_steady : Steady decodeText := by
  rw [decodeText_eq]
  refine decodeBytes_steady.bind (f := fun raw rest =>
    (Utf8.decode raw).mapError Misread.notText >>= fun s => .ok (s, rest)) fun raw => ?_
  cases Utf8.decode raw with
  | ok s => exact .pure s
  | error fault => exact .error _

theorem decodeItems_steady (h : Steady read) (n : Nat) : Steady (decodeItems read n) := by
  induction n with
  | zero => exact .pure []
  | succ n ih => exact h.bind fun a => ih.map (a :: ·)

theorem decodeEntry_steady (h : Steady read) : Steady (decodeEntry read) :=
  decodeText_steady.bind fun k => h.map (k, ·)

/-! ## Schemas -/

mutual

/-- No reading looks behind the value that it reads. -/
theorem Schema.steady : ∀ s : Schema, Steady s.decode
  | .uint16 => (decodeNumber_steady 2).map UInt16.ofNat
  | .uint32 => (decodeNumber_steady 4).map UInt32.ofNat
  | .uint64 => (decodeNumber_steady 8).map UInt64.ofNat
  | .int32 => (decodeNumber_steady 4).map fun n => (UInt32.ofNat n).toInt32
  | .int64 => (decodeNumber_steady 8).map fun n => (UInt64.ofNat n).toInt64
  | .bool => decodeByte_steady.bind fun b =>
    .ite (b = 0) (.pure false) (.ite (b = 1) (.pure true) (.error _))
  | .text => decodeText_steady
  | .bytes => decodeBytes_steady
  | .enumeration names => by
    refine decodeByte_steady.bind (f := fun b rest =>
      if h : b.toNat < names.length then .ok ((⟨b.toNat, h⟩ : Fin names.length), rest)
      else .error (.variantTag b)) fun b => ?_
    by_cases h : b.toNat < names.length
    · simp only [h, dif_pos]
      exact .pure _
    · simp only [h, dif_neg, not_false_eq_true]
      exact .error _
  | .list item => (decodeNumber_steady 4).bind fun n => decodeItems_steady item.steady n
  | .option item => decodeByte_steady.bind fun b =>
    .ite (b = 0) (.pure none) (.ite (b = 1) (item.steady.map some) (.error _))
  | .dict value => (decodeNumber_steady 4).bind fun n =>
    (decodeItems_steady (decodeEntry_steady value.steady) n).map Dict.ofList
  | .record fields => fields.steady
  | .choice arms => decodeByte_steady.bind fun b => arms.steady b b.toNat

theorem Fields.steady : ∀ fs : Fields, Steady fs.decode
  | .nil => .pure ()
  | .cons _ _ schema fields => schema.steady.bind fun a => fields.steady.map (a, ·)

theorem Arms.steady (tag : UInt8) : ∀ (as : Arms) (place : Nat), Steady (as.decode tag place)
  | .nil, _ => .error _
  | .bare _ rest, 0 => Steady.pure (Sum.inl () : Unit ⊕ rest.Carrier)
  | .bare _ arms, place + 1 => (arms.steady tag place).map (β := Unit ⊕ arms.Carrier) Sum.inr
  | .holding _ schema rest, 0 => schema.steady.map (β := schema.Carrier ⊕ rest.Carrier) Sum.inl
  | .holding _ schema arms, place + 1 =>
    (arms.steady tag place).map (β := schema.Carrier ⊕ arms.Carrier) Sum.inr

end

/-! ## Messages -/

theorem narrow_of_mem_catalog : ∀ e ∈ catalog, e.schema.narrow = true := by
  decide

section Messages

variable {name : String} [Message α] {a : α}

theorem fromWire_of_append (hs : (schema α).narrow = true) (ha : (schema α).Fits (pack a))
    {front back : Bytes} (hback : back ≠ []) (h : toWire a = front ++ back) :
    fromWire α front = .error ⟨Message.typeName α, .endOfInput⟩ := by
  have hread : (schema α).decode (toWire a ++ []) = .ok (pack a, []) :=
    Schema.decode_encode hs ha []
  rw [List.append_nil, h] at hread
  have hfront := (schema α).steady.of_append hback hread
  simp only [fromWire, Schema.decodeAll, hfront, bind, Except.bind]

theorem fromWire_append (hs : (schema α).narrow = true) (ha : (schema α).Fits (pack a))
    {more : Bytes} (hmore : more ≠ []) :
    fromWire α (toWire a ++ more) = .error ⟨Message.typeName α, .trailingBytes⟩ := by
  have hread : (schema α).decode (toWire a ++ more) = .ok (pack a, more) :=
    Schema.decode_encode hs ha more
  have hempty : more.isEmpty = false := by
    simpa using hmore
  simp only [fromWire, Schema.decodeAll, hread, hempty, bind, Except.bind]
  rfl

/-- Bytes begin with one message of a type at most. -/
theorem front_of_decodeMessage {a' : α} {front front' back back' : Bytes}
    (h : decodeMessage α front = .ok a) (h' : decodeMessage α front' = .ok a')
    (heq : front ++ back = front' ++ back') : front = front' ∧ back = back' :=
  (schema α).steady.front_unique (decode_of_fromWire (fromWire_of_decodeMessage h))
    (decode_of_fromWire (fromWire_of_decodeMessage h')) heq

/-- A message is read from its bytes.  Of a part of them the end is missing, and bytes that follow
them are too many. -/
theorem fromWire_self_delimiting (hα : CatalogEntry.of name α ∈ catalog)
    (ha : (schema α).Fits (pack a)) :
    fromWire α (toWire a) = .ok a ∧
    (∀ bs, bs <+: toWire a → bs ≠ toWire a →
      fromWire α bs = .error ⟨Message.typeName α, .endOfInput⟩) ∧
    (∀ more, more ≠ [] →
      fromWire α (toWire a ++ more) = .error ⟨Message.typeName α, .trailingBytes⟩) := by
  have hs : (schema α).narrow = true := narrow_of_mem_catalog _ hα
  refine ⟨fromWire_toWire hs ha, ?_, fun more hmore => fromWire_append hs ha hmore⟩
  rintro bs ⟨back, hback⟩ hne
  refine fromWire_of_append hs ha ?_ hback.symm
  rintro rfl
  exact hne (by simpa using hback)

end Messages

/-- A call with two transient values, one of them under a key that is no ASCII. -/
def transientPayload : ChaincodeProposalPayload where
  input := [1, 2, 3]
  transientMap := Dict.ofList [("ключ", [7]), ("asset", [0, 255])]

theorem fromWire_self_delimiting_transientPayload :
    CatalogEntry.of "ChaincodeProposalPayload" ChaincodeProposalPayload ∈ catalog ∧
    (schema ChaincodeProposalPayload).Fits (pack transientPayload) ∧
    fromWire ChaincodeProposalPayload (toWire transientPayload) = .ok transientPayload ∧
    fromWire ChaincodeProposalPayload ((toWire transientPayload).take 20) =
      .error ⟨"fabric_protos::peer::ChaincodeProposalPayload", .endOfInput⟩ ∧
    fromWire ChaincodeProposalPayload (toWire transientPayload ++ [0]) =
      .error ⟨"fabric_protos::peer::ChaincodeProposalPayload", .trailingBytes⟩ := by
  have hmem : CatalogEntry.of "ChaincodeProposalPayload" ChaincodeProposalPayload ∈ catalog :=
    List.mem_of_getElem? (i := 39) rfl
  have hfits : (schema ChaincodeProposalPayload).Fits (pack transientPayload) :=
    Schema.fits_of_length rfl (by decide)
  obtain ⟨hread, hpart, hmore⟩ := fromWire_self_delimiting hmem hfits
  exact ⟨hmem, hfits, hread, hpart _ (List.take_prefix _ _) (by decide), hmore [0] (by decide)⟩

end LedgerClient
