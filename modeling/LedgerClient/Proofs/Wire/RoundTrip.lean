import Mathlib.Algebra.Group.Nat.Defs
import LedgerClient.Error
import LedgerClient.Proofs.Wire.Text
/-!
# Reading messages back

A value is read off the front of its own bytes, whatever follows them.

* `Schema.narrow`: the alternatives of a schema can be told apart by one byte.
  `Schema.Fits`: the lengths and counts in a value fit into four bytes.
* `Schema.decode_encode`: a fitting value of a narrow schema is read back.
* `fromWire_toWire`: a fitting message is read back.
-/

namespace LedgerClient

/-! ## Computations that may fail -/

section Except

variable {ε α β : Type} {x : Except ε α} {f : α → Except ε β} {b : β} {e : ε}

theorem except_bind_ok : (x >>= f) = .ok b ↔ ∃ a, x = .ok a ∧ f a = .ok b := by
  cases x with
  | ok a =>
    constructor
    · intro h
      exact ⟨a, rfl, h⟩
    · rintro ⟨_, h, hf⟩
      cases h
      exact hf
  | error e => exact ⟨fun h => (nomatch h), fun ⟨_, h, _⟩ => (nomatch h)⟩

theorem exists_ok_of_isOk (h : x.isOk = true) : ∃ a, x = .ok a := by
  cases x with
  | ok a => exact ⟨a, rfl⟩
  | error e => cases h

theorem except_bind_error :
    (x >>= f) = .error e ↔ x = .error e ∨ ∃ a, x = .ok a ∧ f a = .error e := by
  cases x with
  | ok a =>
    constructor
    · intro h
      exact .inr ⟨a, rfl, h⟩
    · rintro (h | ⟨_, h, hf⟩)
      · cases h
      · cases h
        exact hf
  | error e' =>
    constructor
    · intro h
      cases h
      exact .inl rfl
    · rintro (h | ⟨_, h, -⟩)
      · cases h
        rfl
      · cases h

theorem mapError_ok_iff {ε' : Type} {g : ε → ε'} {a : α} : x.mapError g = .ok a ↔ x = .ok a := by
  cases x with
  | ok b =>
    constructor
    · intro h
      cases h
      rfl
    · intro h
      cases h
      rfl
  | error e => exact ⟨fun h => (nomatch h), fun h => (nomatch h)⟩

end Except

/-! ## Numbers, byte strings and texts -/

variable {rest : Bytes}

theorem takeBytes_append (front rest : Bytes) :
    takeBytes front.length (front ++ rest) = .ok (front, rest) := by
  rw [takeBytes, split?_append]

theorem ofLittleEndian_littleEndian {width n : Nat} (h : n < 256 ^ width) :
    ofLittleEndian (littleEndian width n) = n := by
  induction width generalizing n with
  | zero =>
    have hzero : n = 0 := Nat.lt_one_iff.1 h
    rw [hzero]
    rfl
  | succ width ih =>
    rw [Nat.pow_succ'] at h
    have hq : n / 256 < 256 ^ width := Nat.div_lt_of_lt_mul h
    simp only [littleEndian, ofLittleEndian, ih hq, UInt8.toNat_ofNat']
    omega

theorem decodeNumber_littleEndian {width n : Nat} (h : n < 256 ^ width) (rest : Bytes) :
    decodeNumber width (littleEndian width n ++ rest) = .ok (n, rest) := by
  have htake := takeBytes_append (littleEndian width n) rest
  rw [length_littleEndian] at htake
  rw [decodeNumber, htake]
  exact congrArg (fun n => Except.ok (n, rest)) (ofLittleEndian_littleEndian h)

theorem decodeNumber_encodeCount {n : Nat} (h : n < 2 ^ 32) (rest : Bytes) :
    decodeNumber 4 (encodeCount n ++ rest) = .ok (n, rest) :=
  decodeNumber_littleEndian h rest

theorem decodeBytes_encodeBytes {bs : Bytes} (h : bs.length < 2 ^ 32) (rest : Bytes) :
    decodeBytes (encodeBytes bs ++ rest) = .ok (bs, rest) := by
  rw [decodeBytes, encodeBytes, List.append_assoc, decodeNumber_encodeCount h]
  exact takeBytes_append bs rest

theorem decodeText_eq : decodeText = fun bs => decodeBytes bs >>= fun x =>
    (Utf8.decode x.1).mapError Misread.notText >>= fun s => .ok (s, x.2) := by
  funext bs
  cases hraw : decodeBytes bs with
  | error e => simp only [decodeText, hraw, bind, Except.bind]
  | ok x =>
    simp only [decodeText, hraw, bind, Except.bind]
    cases Utf8.decode x.1 with
    | ok s => rfl
    | error fault => rfl

theorem decodeText_encodeText {s : String} (h : (Utf8.encode s).length < 2 ^ 32) (rest : Bytes) :
    decodeText (encodeText s ++ rest) = .ok (s, rest) := by
  have hraw := decodeBytes_encodeBytes h rest
  simp only [decodeText, encodeText, hraw, bind, Except.bind, Utf8.decode_encode]
  rfl

/-! ## Lists and dictionaries -/

theorem decodeItems_flatMap {α : Type} {item : Reading α} {encode : α → Bytes} {l : List α}
    (h : ∀ a ∈ l, ∀ rest, item (encode a ++ rest) = .ok (a, rest)) (rest : Bytes) :
    decodeItems item l.length (l.flatMap encode ++ rest) = .ok (l, rest) := by
  induction l with
  | nil => rfl
  | cons a l ih =>
    rw [List.length_cons, List.flatMap_cons, List.append_assoc, decodeItems,
      h a List.mem_cons_self]
    have ih' := ih fun b hb => h b (List.mem_cons_of_mem _ hb)
    change (decodeItems item l.length (l.flatMap encode ++ rest) >>= fun x =>
      Except.ok (a :: x.1, x.2)) = _
    rw [ih']
    rfl

theorem decodeEntry_encode {α : Type} {value : Reading α} {encode : α → Bytes} {e : String × α}
    (hkey : (Utf8.encode e.1).length < 2 ^ 32)
    (hvalue : ∀ rest, value (encode e.2 ++ rest) = .ok (e.2, rest)) (rest : Bytes) :
    decodeEntry value ((encodeText e.1 ++ encode e.2) ++ rest) = .ok (e, rest) := by
  rw [decodeEntry, List.append_assoc, decodeText_encodeText hkey]
  change (value (encode e.2 ++ rest) >>= fun x => Except.ok ((e.1, x.1), x.2)) = _
  rw [hvalue]
  rfl

namespace Dict

variable {α : Type}

/-- A key above all others goes to the end. -/
theorem insertEntry_of_lt {k : String} {l : List (String × α)} (h : ∀ e ∈ l, e.1 < k) (v : α) :
    insertEntry k v l = l ++ [(k, v)] := by
  induction l with
  | nil => rfl
  | cons a l ih =>
    have hlt := h a List.mem_cons_self
    have hne : k ≠ a.1 := fun he => String.lt_irrefl k (he ▸ hlt)
    rw [insertEntry, if_neg (String.lt_asymm hlt), if_neg hne,
      ih fun e he => h e (List.mem_cons_of_mem _ he), List.cons_append]

theorem entries_foldl_insert (l : List (String × α)) (d : Dict α)
    (h : (d.entries ++ l).Pairwise fun a b => a.1 < b.1) :
    (l.foldl (fun d e => d.insert e.1 e.2) d).entries = d.entries ++ l := by
  induction l generalizing d with
  | nil => exact (List.append_nil _).symm
  | cons e l ih =>
    have hlt : ∀ x ∈ d.entries, x.1 < e.1 := fun x hx =>
      (List.pairwise_append.1 h).2.2 x hx e List.mem_cons_self
    have hentries : (d.insert e.1 e.2).entries = d.entries ++ [e] := insertEntry_of_lt hlt e.2
    rw [List.foldl_cons, ih, hentries, List.append_assoc, List.singleton_append]
    rw [hentries, List.append_assoc, List.singleton_append]
    exact h

theorem ext_entries {d d' : Dict α} (h : d.entries = d'.entries) : d = d' := by
  obtain ⟨l, hl⟩ := d
  obtain ⟨l', hl'⟩ := d'
  obtain rfl : l = l' := h
  rfl

/-- The entries of a dictionary give the dictionary back. -/
theorem ofList_entries (d : Dict α) : ofList d.entries = d :=
  ext_entries (entries_foldl_insert d.entries empty d.ascending)

end Dict

/-! ## Schemas -/

mutual

/-- Names and alternatives are few enough for one byte. -/
def Schema.narrow : Schema → Bool
  | .enumeration names => names.length ≤ 256
  | .list item => item.narrow
  | .option item => item.narrow
  | .dict value => value.narrow
  | .record fields => fields.narrow
  | .choice arms => arms.narrow 0
  | _ => true

def Fields.narrow : Fields → Bool
  | .nil => true
  | .cons _ _ schema rest => schema.narrow && rest.narrow

/-- `tag` is the position of the first of the arms. -/
def Arms.narrow (tag : Nat) : Arms → Bool
  | .nil => true
  | .bare _ rest => tag < 256 && rest.narrow (tag + 1)
  | .holding _ schema rest => tag < 256 && schema.narrow && rest.narrow (tag + 1)

end

mutual

/-- Texts, byte strings, lists and dictionaries have fewer than 2 ^ 32 elements. -/
def Schema.Fits : (s : Schema) → s.Carrier → Prop
  | .uint16, _ | .uint32, _ | .uint64, _ | .int32, _ | .int64, _ | .bool, _ => True
  | .text, s => (Utf8.encode s).length < 2 ^ 32
  | .bytes, bs => bs.length < 2 ^ 32
  | .enumeration _, _ => True
  | .list item, l => l.length < 2 ^ 32 ∧ ∀ a ∈ l, item.Fits a
  | .option _, none => True
  | .option item, some a => item.Fits a
  | .dict value, d => d.size < 2 ^ 32 ∧
    ∀ e ∈ d.entries, (Utf8.encode e.1).length < 2 ^ 32 ∧ value.Fits e.2
  | .record fields, r => fields.Fits r
  | .choice arms, a => arms.Fits a

def Fields.Fits : (fs : Fields) → fs.Carrier → Prop
  | .nil, _ => True
  | .cons _ _ schema rest, (a, r) => schema.Fits a ∧ rest.Fits r

def Arms.Fits : (as : Arms) → as.Carrier → Prop
  | .bare _ _, .inl _ => True
  | .bare _ rest, .inr a => rest.Fits a
  | .holding _ schema _, .inl a => schema.Fits a
  | .holding _ _ rest, .inr a => rest.Fits a

end

mutual

/-- A fitting value of a narrow schema is read off the front of its bytes. -/
theorem Schema.decode_encode : ∀ {s : Schema}, s.narrow = true → ∀ {c : s.Carrier}, s.Fits c →
    ∀ rest, s.decode (s.encode c ++ rest) = .ok (c, rest)
  | .uint16, _, n, _, rest => by
    rw [Schema.decode, Schema.encode, decodeNumber_littleEndian n.toNat_lt]
    exact congrArg (fun n => Except.ok (n, rest)) UInt16.ofNat_toNat
  | .uint32, _, n, _, rest => by
    rw [Schema.decode, Schema.encode, decodeNumber_littleEndian n.toNat_lt]
    exact congrArg (fun n => Except.ok (n, rest)) UInt32.ofNat_toNat
  | .uint64, _, n, _, rest => by
    rw [Schema.decode, Schema.encode, decodeNumber_littleEndian n.toNat_lt]
    exact congrArg (fun n => Except.ok (n, rest)) UInt64.ofNat_toNat
  | .int32, _, n, _, rest => by
    rw [Schema.decode, Schema.encode, decodeNumber_littleEndian n.toUInt32.toNat_lt]
    refine congrArg (fun n => Except.ok (n, rest)) ?_
    rw [UInt32.ofNat_toNat, Int32.toInt32_toUInt32]
  | .int64, _, n, _, rest => by
    rw [Schema.decode, Schema.encode, decodeNumber_littleEndian n.toUInt64.toNat_lt]
    refine congrArg (fun n => Except.ok (n, rest)) ?_
    rw [UInt64.ofNat_toNat, Int64.toInt64_toUInt64]
  | .bool, _, b, _, rest => by
    cases b <;> rfl
  | .text, _, s, h, rest => by
    rw [Schema.decode, Schema.encode]
    exact decodeText_encodeText h rest
  | .bytes, _, bs, h, rest => by
    rw [Schema.decode, Schema.encode]
    exact decodeBytes_encodeBytes h rest
  | .enumeration names, hs, i, _, rest => by
    have hnarrow : names.length ≤ 256 := of_decide_eq_true hs
    have hi : (UInt8.ofNat i.val).toNat = i.val :=
      UInt8.toNat_ofNat_of_lt' (Nat.lt_of_lt_of_le i.isLt hnarrow)
    have hlt : (UInt8.ofNat i.val).toNat < names.length := by
      rw [hi]
      exact i.isLt
    rw [Schema.decode, Schema.encode]
    refine (dif_pos hlt).trans ?_
    exact congrArg (fun i => Except.ok (i, rest)) (Fin.ext hi)
  | .list item, hs, l, h, rest => by
    rw [Schema.narrow] at hs
    rw [Schema.Fits] at h
    rw [Schema.decode, Schema.encode, List.append_assoc, decodeNumber_encodeCount h.1]
    exact decodeItems_flatMap (fun a ha rest => item.decode_encode hs (h.2 a ha) rest) rest
  | .option item, _, none, _, rest => by
    rw [Schema.decode, Schema.encode]
    rfl
  | .option item, hs, some a, h, rest => by
    rw [Schema.narrow] at hs
    rw [Schema.Fits] at h
    rw [Schema.decode, Schema.encode]
    change (item.decode (item.encode a ++ rest) >>= fun x => Except.ok (some x.1, x.2)) = _
    rw [item.decode_encode hs h rest]
    rfl
  | .dict value, hs, d, h, rest => by
    rw [Schema.narrow] at hs
    rw [Schema.Fits] at h
    have hitems : decodeItems (decodeEntry fun bs => value.decode bs) d.entries.length
        (d.entries.flatMap (fun e => encodeText e.1 ++ value.encode e.2) ++ rest) =
        .ok (d.entries, rest) :=
      decodeItems_flatMap (fun e he => decodeEntry_encode (h.2 e he).1
        fun rest => value.decode_encode hs (h.2 e he).2 rest) rest
    rw [Schema.decode, Schema.encode, List.append_assoc, decodeNumber_encodeCount h.1]
    change (decodeItems (decodeEntry fun bs => value.decode bs) d.entries.length
      (d.entries.flatMap (fun e => encodeText e.1 ++ value.encode e.2) ++ rest) >>= fun x =>
        Except.ok (Dict.ofList x.1, x.2)) = _
    rw [hitems]
    exact congrArg (fun d => Except.ok (d, rest)) (Dict.ofList_entries d)
  | .record fields, hs, r, h, rest => by
    rw [Schema.narrow] at hs
    rw [Schema.Fits] at h
    rw [Schema.decode, Schema.encode]
    exact fields.decode_encode hs h rest
  | .choice arms, hs, a, h, rest => by
    rw [Schema.narrow] at hs
    rw [Schema.Fits] at h
    obtain ⟨place, body, hplace, hencode, hdecode⟩ := arms.decode_encode hs h
    rw [Nat.zero_add] at hplace hencode
    rw [Schema.decode, Schema.encode, hencode]
    change arms.decode (UInt8.ofNat place) (UInt8.ofNat place).toNat (body ++ rest) = _
    rw [UInt8.toNat_ofNat_of_lt' hplace]
    exact hdecode _ rest

theorem Fields.decode_encode : ∀ {fs : Fields}, fs.narrow = true → ∀ {c : fs.Carrier},
    fs.Fits c → ∀ rest, fs.decode (fs.encode c ++ rest) = .ok (c, rest)
  | .nil, _, _, _, rest => rfl
  | .cons _ _ schema fields, hs, (a, r), h, rest => by
    rw [Fields.narrow, Bool.and_eq_true] at hs
    rw [Fields.Fits] at h
    rw [Fields.decode, Fields.encode, List.append_assoc, schema.decode_encode hs.1 h.1]
    change (fields.decode (fields.encode r ++ rest) >>= fun x => Except.ok ((a, x.1), x.2)) = _
    rw [fields.decode_encode hs.2 h.2]
    rfl

/-- The byte of an alternative tells its place. -/
theorem Arms.decode_encode : ∀ {as : Arms} {tag : Nat}, as.narrow tag = true →
    ∀ {c : as.Carrier}, as.Fits c → ∃ place body, tag + place < 256 ∧
      as.encode tag c = UInt8.ofNat (tag + place) :: body ∧
      ∀ b rest, as.decode b place (body ++ rest) = .ok (c, rest)
  | .bare _ arms, tag, hs, .inl _, _ => by
    simp only [Arms.narrow, Bool.and_eq_true, decide_eq_true_eq] at hs
    exact ⟨0, [], hs.1, rfl, fun _ _ => rfl⟩
  | .bare _ arms, tag, hs, .inr a, h => by
    simp only [Arms.narrow, Bool.and_eq_true, decide_eq_true_eq] at hs
    rw [Arms.Fits] at h
    obtain ⟨place, body, hplace, hencode, hdecode⟩ := arms.decode_encode hs.2 h
    refine ⟨place + 1, body, by omega, ?_, fun b rest => ?_⟩
    · rw [Arms.encode, hencode, Nat.add_right_comm, Nat.add_assoc]
    · rw [Arms.decode, hdecode]
      rfl
  | .holding _ schema arms, tag, hs, .inl a, h => by
    simp only [Arms.narrow, Bool.and_eq_true, decide_eq_true_eq] at hs
    rw [Arms.Fits] at h
    refine ⟨0, schema.encode a, hs.1.1, rfl, fun b rest => ?_⟩
    rw [Arms.decode, schema.decode_encode hs.1.2 h]
    rfl
  | .holding _ schema arms, tag, hs, .inr a, h => by
    simp only [Arms.narrow, Bool.and_eq_true, decide_eq_true_eq] at hs
    rw [Arms.Fits] at h
    obtain ⟨place, body, hplace, hencode, hdecode⟩ := arms.decode_encode hs.2 h
    refine ⟨place + 1, body, by omega, ?_, fun b rest => ?_⟩
    · rw [Arms.encode, hencode, Nat.add_right_comm, Nat.add_assoc]
    · rw [Arms.decode, hdecode]
      rfl

end

/-! ## Messages -/

/-- A fitting message is read back. -/
theorem fromWire_toWire {α : Type} [Message α] (hs : (schema α).narrow = true) {a : α}
    (h : (schema α).Fits (pack a)) : fromWire α (toWire a) = .ok a := by
  have hdecode := Schema.decode_encode hs h []
  rw [List.append_nil] at hdecode
  have hall : (schema α).decodeAll (toWire a) = .ok (pack a) := by
    rw [Schema.decodeAll, toWire, hdecode]
    rfl
  rw [fromWire, hall]
  exact congrArg Except.ok (Layout.unpack_pack a)

theorem decodeMessage_toWire {α : Type} [Message α] (hs : (schema α).narrow = true) {a : α}
    (h : (schema α).Fits (pack a)) : decodeMessage α (toWire a) = .ok a := by
  rw [decodeMessage, fromWire_toWire hs h]
  rfl

end LedgerClient
