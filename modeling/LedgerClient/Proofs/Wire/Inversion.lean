import LedgerClient.Proofs.Wire.TextOrder
import LedgerClient.Proofs.Wire.Size
/-!
# What a reading says about the bytes

The bytes that a number, a byte string or a text was read from are those that it is written as.

* `eq_append_of_decodeNumber`, `eq_append_of_decodeBytes`, `eq_append_of_decodeText`: the bytes
  begin with those of the value.
* `decode_of_fromWire`: a message is read from all bytes.
* `Fields.decode_cons_encode`: the first field of a record is read back whatever follows it.
  `decodeMessage_payload_ok`: the header of a payload is, however long the data.
-/

namespace LedgerClient

variable {bs rest : Bytes}

/-! ## Numbers, byte strings and texts -/

theorem eq_append_of_takeBytes {n : Nat} {front : Bytes}
    (h : takeBytes n bs = .ok (front, rest)) : bs = front ++ rest ∧ front.length = n := by
  rw [takeBytes] at h
  cases hsplit : bs.split? n with
  | none =>
    rw [hsplit] at h
    cases h
  | some r =>
    rw [hsplit] at h
    cases h
    exact eq_append_of_split? hsplit

theorem littleEndian_ofLittleEndian (bs : Bytes) :
    littleEndian bs.length (ofLittleEndian bs) = bs := by
  induction bs with
  | nil => rfl
  | cons b bs ih =>
    have hb := b.toNat_lt
    have hlow : UInt8.ofNat (b.toNat + 256 * ofLittleEndian bs) = b := by
      rw [← UInt8.toNat_inj, UInt8.toNat_ofNat']
      omega
    have hhigh : (b.toNat + 256 * ofLittleEndian bs) / 256 = ofLittleEndian bs := by
      omega
    rw [List.length_cons, ofLittleEndian, littleEndian, hlow, hhigh, ih]

theorem ofLittleEndian_lt (bs : Bytes) : ofLittleEndian bs < 256 ^ bs.length := by
  induction bs with
  | nil => exact Nat.one_pos
  | cons b bs ih =>
    have hb := b.toNat_lt
    rw [ofLittleEndian, List.length_cons, Nat.pow_succ']
    omega

theorem eq_append_of_decodeNumber {width n : Nat} (h : decodeNumber width bs = .ok (n, rest)) :
    n < 256 ^ width ∧ bs = littleEndian width n ++ rest := by
  obtain ⟨⟨digits, rest'⟩, hdigits, h⟩ := except_bind_ok.1 h
  cases h
  obtain ⟨hbs, rfl⟩ := eq_append_of_takeBytes hdigits
  exact ⟨ofLittleEndian_lt digits, by rw [littleEndian_ofLittleEndian, hbs]⟩

/-- The bytes of a number of some type begin with those that it is written as. -/
theorem eq_append_of_number {α : Type} {width : Nat} {ofNat : Nat → α} (toNat : α → Nat) {a : α}
    (hback : ∀ n, n < 256 ^ width → toNat (ofNat n) = n)
    (h : (decodeNumber width bs >>= fun x => .ok (ofNat x.1, x.2)) = .ok (a, rest)) :
    bs = littleEndian width (toNat a) ++ rest := by
  obtain ⟨⟨n, _⟩, hn, heq⟩ := except_bind_ok.1 h
  cases heq
  obtain ⟨hlt, hbs⟩ := eq_append_of_decodeNumber hn
  rw [hback n hlt, hbs]

theorem eq_append_of_decodeBytes {raw : Bytes} (h : decodeBytes bs = .ok (raw, rest)) :
    raw.length < 2 ^ 32 ∧ bs = encodeBytes raw ++ rest := by
  obtain ⟨⟨n, rest'⟩, hn, htake⟩ := except_bind_ok.1 h
  obtain ⟨hlt, rfl⟩ := eq_append_of_decodeNumber hn
  obtain ⟨rfl, rfl⟩ := eq_append_of_takeBytes htake
  refine ⟨hlt, ?_⟩
  rw [encodeBytes, encodeCount, List.append_assoc]

theorem decodeBytes_of_decodeText {s : String} (h : decodeText bs = .ok (s, rest)) :
    decodeBytes bs = .ok (Utf8.encode s, rest) := by
  rw [decodeText_eq] at h
  obtain ⟨⟨raw, rest'⟩, hraw, h⟩ := except_bind_ok.1 h
  obtain ⟨t, htext, heq⟩ := except_bind_ok.1 h
  cases heq
  rw [hraw, Utf8.encode_of_decode (mapError_ok_iff.1 htext)]

theorem eq_append_of_decodeText {s : String} (h : decodeText bs = .ok (s, rest)) :
    (Utf8.encode s).length < 2 ^ 32 ∧ bs = encodeText s ++ rest :=
  eq_append_of_decodeBytes (decodeBytes_of_decodeText h)

theorem eq_cons_of_decodeByte {b : UInt8} (h : decodeByte bs = .ok (b, rest)) : bs = b :: rest := by
  cases bs with
  | nil => cases h
  | cons _ _ =>
    cases h
    rfl

/-! ## Messages -/

theorem decode_of_fromWire {α : Type} [Message α] {a : α} (h : fromWire α bs = .ok a) :
    (schema α).decode bs = .ok (pack a, []) := by
  rw [fromWire] at h
  cases hall : (schema α).decodeAll bs with
  | error reason =>
    rw [hall] at h
    cases h
  | ok c =>
    rw [hall] at h
    cases h
    obtain ⟨⟨c', rest⟩, hread, hrest⟩ := except_bind_ok.1 hall
    dsimp only at hrest
    split at hrest
    · rename_i hempty
      cases hrest
      rw [hread, List.isEmpty_iff.1 hempty, Layout.pack_unpack]
    · cases hrest

theorem fromWire_of_decodeMessage {α : Type} [Message α] {a : α} (h : decodeMessage α bs = .ok a) :
    fromWire α bs = .ok a :=
  mapError_ok_iff.1 h

/-! ## The front of a message -/

theorem Fields.decode_cons_encode {name : String} {absence : Absence} {s : Schema} {fields : Fields}
    (hs : s.narrow = true) {c : s.Carrier} (hc : s.Fits c) {more : Bytes}
    {read : (Fields.cons name absence s fields).Carrier}
    (h : (Fields.cons name absence s fields).decode (s.encode c ++ more) = .ok (read, rest)) :
    read.1 = c ∧ fields.decode more = .ok (read.2, rest) := by
  rw [Fields.decode] at h
  obtain ⟨⟨first, after⟩, hfirst, hothers⟩ := except_bind_ok.1 h
  obtain ⟨⟨others, after'⟩, hrest, hread⟩ := except_bind_ok.1 hothers
  rw [Schema.decode_encode hs hc] at hfirst
  cases hfirst
  cases hread
  exact ⟨rfl, hrest⟩

/-- The header of a payload is read back, and with it the data that is written after it. -/
theorem decodeMessage_payload_ok {header : Header} {data : Bytes} {payload : Payload}
    (hheader : (schema Header).Fits (pack header))
    (h : decodeMessage Payload (toWire ({ header := some header, data } : Payload)) =
      .ok payload) : payload.header = some header ∧ data.length < 2 ^ 32 := by
  have hread := decode_of_fromWire (fromWire_of_decodeMessage h)
  obtain ⟨hfirst, hrest⟩ := Fields.decode_cons_encode (c := pack (some header)) rfl hheader hread
  refine ⟨?_, ?_⟩
  · rw [← Layout.unpack_pack payload.header]
    exact (congrArg unpack hfirst).trans (Layout.unpack_pack _)
  · rw [Fields.decode] at hrest
    obtain ⟨⟨raw, after⟩, hraw, hnil⟩ := except_bind_ok.1 hrest
    obtain ⟨hshort, happend⟩ := eq_append_of_decodeBytes hraw
    cases hnil
    have hlength : (encodeBytes data).length = (encodeBytes payload.data).length :=
      congrArg List.length (List.append_cancel_right happend)
    rw [length_encodeBytes, length_encodeBytes] at hlength
    change payload.data.length < 2 ^ 32 at hshort
    omega

end LedgerClient
