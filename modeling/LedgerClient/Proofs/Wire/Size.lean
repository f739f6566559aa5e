import LedgerClient.Proofs.Wire.RoundTrip
/-!
# Sizes of messages

A value fits as soon as its bytes are fewer than 2 ^ 32, since no part of it takes more bytes
than the whole (`Schema.fits_of_length`).  So a message that was written within another one is
read back (`decodeMessage_of_length`).  For a list this needs items that take a byte at least
(`Schema.solid`); `Schema.counted` says that all lists have such items.
-/

namespace LedgerClient

theorem length_encodeBytes (bs : Bytes) : (encodeBytes bs).length = 4 + bs.length := by
  rw [encodeBytes, List.length_append, encodeCount, length_littleEndian]

theorem length_encodeText (s : String) : (encodeText s).length = 4 + (Utf8.encode s).length :=
  length_encodeBytes _

section FlatMap

variable {α β : Type} {l : List α} {f : α → List β}

theorem length_le_length_flatMap {a : α} (h : a ∈ l) :
    (f a).length ≤ (l.flatMap f).length :=
  (List.sublist_flatten_of_mem (List.mem_map_of_mem h)).length_le

theorem count_le_length_flatMap (h : ∀ a ∈ l, 1 ≤ (f a).length) :
    l.length ≤ (l.flatMap f).length := by
  induction l with
  | nil => exact Nat.zero_le _
  | cons a l ih =>
    have ha := h a List.mem_cons_self
    have hl := ih fun b hb => h b (List.mem_cons_of_mem _ hb)
    rw [List.flatMap_cons, List.length_append, List.length_cons]
    omega

end FlatMap

mutual

/-- Every value takes one byte at least. -/
def Schema.solid : Schema → Bool
  | .record fields => fields.solid
  | _ => true

/-- The values of one of the fields take one byte at least. -/
def Fields.solid : Fields → Bool
  | .nil => false
  | .cons _ _ schema rest => schema.solid || rest.solid

end

mutual

/-- The items of lists take one byte at least. -/
def Schema.counted : Schema → Bool
  | .list item => item.solid && item.counted
  | .option item => item.counted
  | .dict value => value.counted
  | .record fields => fields.counted
  | .choice arms => arms.counted
  | _ => true

def Fields.counted : Fields → Bool
  | .nil => true
  | .cons _ _ schema rest => schema.counted && rest.counted

def Arms.counted : Arms → Bool
  | .nil => true
  | .bare _ rest => rest.counted
  | .holding _ schema rest => schema.counted && rest.counted

end

theorem Arms.length_encode_pos : ∀ {as : Arms} {tag : Nat} {c : as.Carrier},
    1 ≤ (as.encode tag c).length
  | .bare _ _, tag, .inl _ => by
    rw [Arms.encode]
    exact Nat.le_refl 1
  | .bare _ arms, tag, .inr a => by
    rw [Arms.encode]
    exact arms.length_encode_pos
  | .holding _ schema _, tag, .inl a => by
    rw [Arms.encode, List.length_cons]
    exact Nat.le_add_left _ _
  | .holding _ _ arms, tag, .inr a => by
    rw [Arms.encode]
    exact arms.length_encode_pos

mutual

theorem Schema.length_encode_pos : ∀ {s : Schema}, s.solid = true → ∀ {c : s.Carrier},
    1 ≤ (s.encode c).length
  | .uint16, _, n => by rw [Schema.encode, length_littleEndian]; omega
  | .uint32, _, n => by rw [Schema.encode, length_littleEndian]; omega
  | .uint64, _, n => by rw [Schema.encode, length_littleEndian]; omega
  | .int32, _, n => by rw [Schema.encode, length_littleEndian]; omega
  | .int64, _, n => by rw [Schema.encode, length_littleEndian]; omega
  | .bool, _, b => Nat.le_refl 1
  | .enumeration _, _, i => Nat.le_refl 1
  | .text, _, s => by rw [Schema.encode, length_encodeText]; omega
  | .bytes, _, bs => by rw [Schema.encode, length_encodeBytes]; omega
  | .list item, _, l => by
    rw [Schema.encode, List.length_append, encodeCount, length_littleEndian]
    omega
  | .option _, _, none => Nat.le_refl 1
  | .option item, _, some a => by
    rw [Schema.encode, List.length_cons]
    omega
  | .dict value, _, d => by
    rw [Schema.encode, List.length_append, encodeCount, length_littleEndian]
    omega
  | .record fields, hs, r => by
    rw [Schema.solid] at hs
    rw [Schema.encode]
    exact fields.length_encode_pos hs
  | .choice arms, _, a => by
    rw [Schema.encode]
    exact arms.length_encode_pos

theorem Fields.length_encode_pos : ∀ {fs : Fields}, fs.solid = true → ∀ {c : fs.Carrier},
    1 ≤ (fs.encode c).length
  | .cons _ _ schema fields, hs, (a, r) => by
    rw [Fields.solid, Bool.or_eq_true] at hs
    rw [Fields.encode, List.length_append]
    rcases hs with hs | hs
    · exact Nat.le_add_right_of_le (schema.length_encode_pos hs)
    · exact Nat.le_add_left_of_le (fields.length_encode_pos hs)

end

mutual

theorem Schema.fits_of_length : ∀ {s : Schema}, s.counted = true → ∀ {c : s.Carrier},
    (s.encode c).length < 2 ^ 32 → s.Fits c
  | .uint16, _, _, _ => trivial
  | .uint32, _, _, _ => trivial
  | .uint64, _, _, _ => trivial
  | .int32, _, _, _ => trivial
  | .int64, _, _, _ => trivial
  | .bool, _, _, _ => trivial
  | .enumeration _, _, _, _ => trivial
  | .text, _, s, h => by
    rw [Schema.encode, length_encodeText] at h
    rw [Schema.Fits]
    omega
  | .bytes, _, bs, h => by
    rw [Schema.encode, length_encodeBytes] at h
    rw [Schema.Fits]
    omega
  | .list item, hs, l, h => by
    rw [Schema.counted, Bool.and_eq_true] at hs
    rw [Schema.encode, List.length_append, encodeCount, length_littleEndian] at h
    rw [Schema.Fits]
    refine ⟨?_, fun a ha => ?_⟩
    · have hcount := count_le_length_flatMap (l := l) (f := fun a => item.encode a)
        fun a _ => item.length_encode_pos hs.1
      omega
    · have hitem := length_le_length_flatMap (f := fun a => item.encode a) ha
      exact item.fits_of_length hs.2 (by omega)
  | .option _, _, none, _ => trivial
  | .option item, hs, some a, h => by
    rw [Schema.counted] at hs
    rw [Schema.encode, List.length_cons] at h
    exact item.fits_of_length hs (Nat.lt_of_succ_lt h)
  | .dict value, hs, d, h => by
    rw [Schema.counted] at hs
    rw [Schema.encode, List.length_append, encodeCount, length_littleEndian] at h
    rw [Schema.Fits]
    refine ⟨?_, fun e he => ?_⟩
    · have hcount := count_le_length_flatMap (l := d.entries)
        (f := fun e => encodeText e.1 ++ value.encode e.2) fun e _ => by
          rw [List.length_append, length_encodeText]
          omega
      rw [Dict.size]
      omega
    · have hentry := length_le_length_flatMap
        (f := fun e => encodeText e.1 ++ value.encode e.2) he
      rw [List.length_append, length_encodeText] at hentry
      exact ⟨by omega, value.fits_of_length hs (by omega)⟩
  | .record fields, hs, r, h => by
    rw [Schema.counted] at hs
    rw [Schema.encode] at h
    exact fields.fits_of_length hs h
  | .choice arms, hs, a, h => by
    rw [Schema.counted] at hs
    rw [Schema.encode] at h
    exact arms.fits_of_length hs h

theorem Fields.fits_of_length : ∀ {fs : Fields}, fs.counted = true → ∀ {c : fs.Carrier},
    (fs.encode c).length < 2 ^ 32 → fs.Fits c
  | .nil, _, _, _ => trivial
  | .cons _ _ schema fields, hs, (a, r), h => by
    rw [Fields.counted, Bool.and_eq_true] at hs
    rw [Fields.encode, List.length_append] at h
    exact ⟨schema.fits_of_length hs.1 (by omega), fields.fits_of_length hs.2 (by omega)⟩

theorem Arms.fits_of_length : ∀ {as : Arms} {tag : Nat}, as.counted = true → ∀ {c : as.Carrier},
    (as.encode tag c).length < 2 ^ 32 → as.Fits c
  | .bare _ _, _, _, .inl _, _ => trivial
  | .bare _ arms, tag, hs, .inr a, h => by
    rw [Arms.counted] at hs
    rw [Arms.encode] at h
    exact arms.fits_of_length hs h
  | .holding _ schema arms, tag, hs, .inl a, h => by
    rw [Arms.counted, Bool.and_eq_true] at hs
    rw [Arms.encode, List.length_cons] at h
    exact schema.fits_of_length hs.1 (Nat.lt_of_succ_lt h)
  | .holding _ schema arms, tag, hs, .inr a, h => by
    rw [Arms.counted, Bool.and_eq_true] at hs
    rw [Arms.encode] at h
    exact arms.fits_of_length hs.2 h

end

/-- A message is read back from fewer than 2 ^ 32 bytes. -/
theorem decodeMessage_of_length {α : Type} [Message α] (hnarrow : (schema α).narrow = true)
    (hcounted : (schema α).counted = true) {a : α} (h : (toWire a).length < 2 ^ 32) :
    decodeMessage α (toWire a) = .ok a :=
  decodeMessage_toWire hnarrow (Schema.fits_of_length hcounted h)

end LedgerClient
