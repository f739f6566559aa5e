import LedgerClient.Proofs.Wire.Inversion
import LedgerClient.Proofs.Wire.Truncation
import Mathlib.Data.List.Forall2
/-!
# Bytes that are the only ones of a message

What is read from bytes is written as the same bytes, as long as dictionaries list their keys in
ascending order.

* `Schema.keyLists`: the keys of all dictionaries in the bytes of a value.
* `Schema.decode_canonical`: the bytes are those of the value that is read from them exactly if all
  these lists ascend.
* `Schema.dictFree`: no dictionary is in a value, so that the bytes are always those of the value.
* `toWire_eq_iff_ascending`: both for the messages of the catalog.
-/

namespace LedgerClient

/-! ## The keys in the bytes -/

/-- Passes over a value in which no dictionary is. -/
def noKeys {α : Type} (read : Reading α) : Reading (List (List Bytes)) := fun bs => do
  let (_, rest) ← read bs
  return ([], rest)

/-- The key of an entry, in bytes, and the lists in its value. -/
def entryKeys (value : Reading (List (List Bytes))) : Reading (Bytes × List (List Bytes)) :=
  fun bs => do
    let (k, rest) ← decodeBytes bs
    let (lists, rest) ← value rest
    return ((k, lists), rest)

mutual

/-- Reads a value off the front of bytes for the keys of the dictionaries in it, at any depth: a
list for each dictionary, with the keys as they stand. -/
def Schema.keyLists : Schema → Reading (List (List Bytes))
  | .uint16, bs => noKeys (Schema.decode .uint16) bs
  | .uint32, bs => noKeys (Schema.decode .uint32) bs
  | .uint64, bs => noKeys (Schema.decode .uint64) bs
  | .int32, bs => noKeys (Schema.decode .int32) bs
  | .int64, bs => noKeys (Schema.decode .int64) bs
  | .bool, bs => noKeys (Schema.decode .bool) bs
  | .text, bs => noKeys decodeText bs
  | .bytes, bs => noKeys decodeBytes bs
  | .enumeration names, bs => noKeys (Schema.decode (.enumeration names)) bs
  | .list item, bs => do
    let (n, rest) ← decodeNumber 4 bs
    let (lists, rest) ← decodeItems (fun bs => item.keyLists bs) n rest
    return (lists.flatten, rest)
  | .option item, bs => do
    let (b, rest) ← decodeByte bs
    if b = 0 then return ([], rest) else item.keyLists rest
  | .dict value, bs => do
    let (n, rest) ← decodeNumber 4 bs
    let (entries, rest) ← decodeItems (entryKeys fun bs => value.keyLists bs) n rest
    return (entries.map (·.1) :: entries.flatMap (·.2), rest)
  | .record fields, bs => fields.keyLists bs
  | .choice arms, bs => do
    let (b, rest) ← decodeByte bs
    arms.keyLists b b.toNat rest

def Fields.keyLists : Fields → Reading (List (List Bytes))
  | .nil, bs => .ok ([], bs)
  | .cons _ _ schema rest, bs => do
    let (lists, bs) ← schema.keyLists bs
    let (more, bs) ← rest.keyLists bs
    return (lists ++ more, bs)

def Arms.keyLists (tag : UInt8) : Arms → (place : Nat) → Reading (List (List Bytes))
  | .nil, _, _ => .error (.variantTag tag)
  | .bare _ _, 0, bs => .ok ([], bs)
  | .bare _ rest, place + 1, bs => rest.keyLists tag place bs
  | .holding _ schema _, 0, bs => schema.keyLists bs
  | .holding _ _ rest, place + 1, bs => rest.keyLists tag place bs

end

/-- Each list goes up, in the order of bytes. -/
def Ascending (lists : List (List Bytes)) : Prop := ∀ keys ∈ lists, keys.Pairwise (· < ·)

@[simp] theorem ascending_nil : Ascending [] := by
  simp [Ascending]

@[simp] theorem ascending_append {lists lists' : List (List Bytes)} :
    Ascending (lists ++ lists') ↔ Ascending lists ∧ Ascending lists' :=
  List.forall_mem_append

@[simp] theorem ascending_cons {keys : List Bytes} {lists : List (List Bytes)} :
    Ascending (keys :: lists) ↔ keys.Pairwise (· < ·) ∧ Ascending lists :=
  List.forall_mem_cons

section Reading

variable {α β : Type} {bs rest : Bytes}

/-! ## Sequences -/

/-- If a value is read back from its own bytes, what follows them is what is left of any bytes that
begin with them. -/
theorem eq_append_append_iff {read : Reading α} {a : α} {front tail : Bytes}
    (hback : ∀ tail, read (front ++ tail) = .ok (a, tail)) (h : read bs = .ok (a, rest)) :
    bs = front ++ tail ↔ bs = front ++ rest ∧ rest = tail := by
  constructor
  · rintro rfl
    rw [hback] at h
    cases h
    exact ⟨rfl, rfl⟩
  · rintro ⟨hbs, rfl⟩
    exact hbs

section Items

variable {item : Reading α} {keys : Reading β} {lists : β → List (List Bytes)}
  {encode : α → Bytes} {Fits : α → Prop} {Found : α → β → Prop}

/-- What holds of each item that is read holds of all items. -/
theorem decodeItems_forall (hitem : ∀ bs a rest, item bs = .ok (a, rest) → Fits a) {n : Nat}
    {l : List α} (h : decodeItems item n bs = .ok (l, rest)) : ∀ a ∈ l, Fits a := by
  induction n generalizing bs l with
  | zero =>
    cases h
    exact List.forall_mem_nil _
  | succ n ih =>
    obtain ⟨_, ha, h⟩ := except_bind_ok.1 h
    obtain ⟨_, hl, h⟩ := except_bind_ok.1 h
    cases h
    exact List.forall_mem_cons.2 ⟨hitem _ _ _ ha, ih hl⟩

/-- If the bytes of each item tell whether they are canonical, those of all items do. -/
theorem decodeItems_canonical
    (hback : ∀ a, Fits a → ∀ tail, item (encode a ++ tail) = .ok (a, tail))
    (hitem : ∀ bs a rest, item bs = .ok (a, rest) → Fits a ∧ ∃ b, keys bs = .ok (b, rest) ∧
      Found a b ∧ (bs = encode a ++ rest ↔ Ascending (lists b)))
    {n : Nat} {l : List α} (h : decodeItems item n bs = .ok (l, rest)) :
    l.length = n ∧ ∃ found, decodeItems keys n bs = .ok (found, rest) ∧
      List.Forall₂ Found l found ∧
      (bs = l.flatMap encode ++ rest ↔ Ascending (found.flatMap lists)) := by
  induction n generalizing bs l with
  | zero =>
    cases h
    exact ⟨rfl, [], rfl, .nil, iff_of_true rfl ascending_nil⟩
  | succ n ih =>
    obtain ⟨⟨a, bs'⟩, ha, h⟩ := except_bind_ok.1 h
    obtain ⟨⟨others, _⟩, hl, h⟩ := except_bind_ok.1 h
    cases h
    obtain ⟨hfits, b, hb, hfound, hfirst⟩ := hitem bs a bs' ha
    obtain ⟨hlength, found, hkeys, hfounds, hothers⟩ := ih hl
    refine ⟨congrArg (· + 1) hlength, b :: found, ?_, .cons hfound hfounds, ?_⟩
    · exact except_bind_ok.2 ⟨(b, bs'), hb, except_bind_ok.2 ⟨_, hkeys, rfl⟩⟩
    · rw [List.flatMap_cons, List.flatMap_cons, List.append_assoc,
        eq_append_append_iff (hback a hfits) ha, hfirst, hothers, ascending_append]

end Items

end Reading

/-! ## Dictionaries -/

namespace Dict

variable {α : Type}

theorem length_insertEntry_le (k : String) (v : α) (l : List (String × α)) :
    (insertEntry k v l).length ≤ l.length + 1 := by
  induction l with
  | nil => exact Nat.le_refl 1
  | cons e l ih =>
    simp only [insertEntry]
    split
    · exact Nat.le_refl _
    · split
      · exact Nat.le_succ _
      · exact Nat.succ_le_succ ih

theorem foldl_insert_spec (l : List (String × α)) (d : Dict α) :
    (l.foldl (fun d e => d.insert e.1 e.2) d).size ≤ d.size + l.length ∧
    ∀ e ∈ (l.foldl (fun d e => d.insert e.1 e.2) d).entries, e ∈ d.entries ∨ e ∈ l := by
  induction l generalizing d with
  | nil => exact ⟨Nat.le_refl _, fun e he => .inl he⟩
  | cons x l ih =>
    obtain ⟨hsize, hmem⟩ := ih (d.insert x.1 x.2)
    have hinsert : (d.insert x.1 x.2).size ≤ d.size + 1 := length_insertEntry_le _ _ _
    refine ⟨by rw [List.foldl_cons, List.length_cons]; omega, fun e he => ?_⟩
    rcases hmem e he with he | he
    · rcases mem_insertEntry he with rfl | he
      · exact .inr List.mem_cons_self
      · exact .inl he
    · exact .inr (List.mem_cons_of_mem _ he)

theorem size_ofList_le (l : List (String × α)) : (ofList l).size ≤ l.length := by
  have h := (foldl_insert_spec l empty).1
  have hempty : (empty : Dict α).size = 0 := rfl
  rw [ofList]
  omega

theorem mem_of_mem_ofList {l : List (String × α)} {e : String × α} (h : e ∈ (ofList l).entries) :
    e ∈ l :=
  ((foldl_insert_spec l empty).2 e h).resolve_left (List.not_mem_nil)

/-- Entries in ascending order are those of the dictionary that they make. -/
theorem entries_ofList {l : List (String × α)} (h : l.Pairwise fun a b => a.1 < b.1) :
    (ofList l).entries = l :=
  entries_foldl_insert l empty h

end Dict

section Entries

variable {α : Type} {bs rest : Bytes} {value : Reading α} {keys : Reading (List (List Bytes))}
  {encode : α → Bytes} {Fits : α → Prop}

/-- If the bytes of a value tell whether they are canonical, those of an entry do. -/
theorem decodeEntry_canonical
    (hvalue : ∀ bs a rest, value bs = .ok (a, rest) → Fits a ∧ ∃ lists,
      keys bs = .ok (lists, rest) ∧ (bs = encode a ++ rest ↔ Ascending lists))
    {e : String × α} (h : decodeEntry value bs = .ok (e, rest)) :
    ((Utf8.encode e.1).length < 2 ^ 32 ∧ Fits e.2) ∧ ∃ found : Bytes × List (List Bytes),
      entryKeys keys bs = .ok (found, rest) ∧ Utf8.encode e.1 = found.1 ∧
      (bs = (encodeText e.1 ++ encode e.2) ++ rest ↔ Ascending found.2) := by
  obtain ⟨⟨k, bs'⟩, hk, h⟩ := except_bind_ok.1 h
  obtain ⟨⟨v, _⟩, hv, heq⟩ := except_bind_ok.1 h
  cases heq
  obtain ⟨hlength, hbs⟩ := eq_append_of_decodeText hk
  obtain ⟨hfits, lists, hlists, hiff⟩ := hvalue bs' v rest hv
  refine ⟨⟨hlength, hfits⟩, (Utf8.encode k, lists), ?_, rfl, ?_⟩
  · exact except_bind_ok.2 ⟨_, decodeBytes_of_decodeText hk, except_bind_ok.2 ⟨_, hlists, rfl⟩⟩
  · rw [← hiff, hbs, List.append_assoc, List.append_cancel_left_eq]

/-- The entries that are read are those of their dictionary, as it is written, exactly if their
keys ascend and the bytes of their values are canonical. -/
theorem decodeEntries_canonical
    (hback : ∀ a, Fits a → ∀ tail, value (encode a ++ tail) = .ok (a, tail))
    (hvalue : ∀ bs a rest, value bs = .ok (a, rest) → Fits a ∧ ∃ lists,
      keys bs = .ok (lists, rest) ∧ (bs = encode a ++ rest ↔ Ascending lists))
    {n : Nat} (hn : n < 2 ^ 32) {l : List (String × α)}
    (h : decodeItems (decodeEntry value) n bs = .ok (l, rest)) :
    (Dict.ofList l).size < 2 ^ 32 ∧
    (∀ e ∈ (Dict.ofList l).entries, (Utf8.encode e.1).length < 2 ^ 32 ∧ Fits e.2) ∧
    ∃ found, decodeItems (entryKeys keys) n bs = .ok (found, rest) ∧
      (encodeCount n ++ bs = encodeCount (Dict.ofList l).size ++
          ((Dict.ofList l).entries.flatMap fun e => encodeText e.1 ++ encode e.2) ++ rest ↔
        Ascending (found.map (·.1) :: found.flatMap (·.2))) := by
  have hentry (e : String × α) (he : (Utf8.encode e.1).length < 2 ^ 32 ∧ Fits e.2) (tail : Bytes) :
      decodeEntry value ((encodeText e.1 ++ encode e.2) ++ tail) = .ok (e, tail) :=
    decodeEntry_encode he.1 (hback e.2 he.2) tail
  obtain ⟨hlength, found, hfound, hsame, hiff⟩ :=
    decodeItems_canonical hentry (fun _ _ _ he => decodeEntry_canonical hvalue he) h
  have hall := decodeItems_forall (fun _ _ _ he => (decodeEntry_canonical hvalue he).1) h
  have hsize : (Dict.ofList l).size < 2 ^ 32 :=
    Nat.lt_of_le_of_lt (Dict.size_ofList_le l) (hlength ▸ hn)
  have hfits (e : String × α) (he : e ∈ (Dict.ofList l).entries) :=
    hall e (Dict.mem_of_mem_ofList he)
  have hkeys : l.map (fun e => Utf8.encode e.1) = found.map (·.1) := by
    rw [← List.forall₂_eq_eq_eq, List.forall₂_map_left_iff, List.forall₂_map_right_iff]
    exact hsame
  have hsorted : (found.map (·.1)).Pairwise (· < ·) ↔ l.Pairwise fun a b => a.1 < b.1 := by
    rw [← hkeys, List.pairwise_map]
    simp only [Utf8.encode_lt_encode_iff]
  refine ⟨hsize, hfits, found, hfound, ?_⟩
  rw [ascending_cons, ← hiff, hsorted]
  constructor
  · intro hbs
    -- The count and the entries that were read are those of the dictionary.
    have hcount := decodeNumber_encodeCount hn bs
    rw [hbs, List.append_assoc, decodeNumber_encodeCount hsize] at hcount
    obtain ⟨hlast, rfl⟩ : (Dict.ofList l).size = n ∧ _ = bs := by
      simpa only [Except.ok.injEq, Prod.mk.injEq] using hcount
    rw [← hlast, Dict.size, decodeItems_flatMap (fun e he => hentry e (hfits e he))] at h
    obtain hl : (Dict.ofList l).entries = l := by
      simpa only [Except.ok.injEq, Prod.mk.injEq, and_true] using h
    rw [hl]
    exact ⟨hl ▸ (Dict.ofList l).ascending, rfl⟩
  · rintro ⟨hl, hbs⟩
    rw [Dict.size, Dict.entries_ofList hl, hlength, List.append_assoc, ← hbs]

end Entries

/-! ## Schemas -/

section Schemas

variable {α : Type} {bs rest : Bytes}

theorem noKeys_canonical {read : Reading α} {a : α} {encoded : Bytes}
    (h : read bs = .ok (a, rest)) (hbs : bs = encoded ++ rest) :
    ∃ lists, noKeys read bs = .ok (lists, rest) ∧ (bs = encoded ++ rest ↔ Ascending lists) := by
  refine ⟨[], ?_, iff_of_true hbs ascending_nil⟩
  rw [noKeys, h]
  rfl

mutual

/-- What is read fits, and its bytes are the ones that were read exactly if all dictionaries in
them list their keys in ascending order. -/
theorem Schema.decode_canonical : ∀ {s : Schema}, s.narrow = true → ∀ {bs rest} {c : s.Carrier},
    s.decode bs = .ok (c, rest) → s.Fits c ∧ ∃ lists, s.keyLists bs = .ok (lists, rest) ∧
      (bs = s.encode c ++ rest ↔ Ascending lists)
  | .uint16, _, _, _, _, h =>
    ⟨trivial, noKeys_canonical h
      (eq_append_of_number UInt16.toNat (fun _ => UInt16.toNat_ofNat_of_lt') h)⟩
  | .uint32, _, _, _, _, h =>
    ⟨trivial, noKeys_canonical h
      (eq_append_of_number UInt32.toNat (fun _ => UInt32.toNat_ofNat_of_lt') h)⟩
  | .uint64, _, _, _, _, h =>
    ⟨trivial, noKeys_canonical h
      (eq_append_of_number UInt64.toNat (fun _ => UInt64.toNat_ofNat_of_lt') h)⟩
  | .int32, _, _, _, _, h => by
    have hback (n : Nat) (hn : n < 256 ^ 4) : (UInt32.ofNat n).toInt32.toUInt32.toNat = n := by
      rw [UInt32.toUInt32_toInt32, UInt32.toNat_ofNat_of_lt' hn]
    exact ⟨trivial, noKeys_canonical h
      (eq_append_of_number (fun c : Int32 => c.toUInt32.toNat) hback h)⟩
  | .int64, _, _, _, _, h => by
    have hback (n : Nat) (hn : n < 256 ^ 8) : (UInt64.ofNat n).toInt64.toUInt64.toNat = n := by
      rw [UInt64.toUInt64_toInt64, UInt64.toNat_ofNat_of_lt' hn]
    exact ⟨trivial, noKeys_canonical h
      (eq_append_of_number (fun c : Int64 => c.toUInt64.toNat) hback h)⟩
  | .bool, _, bs, rest, c, h => by
    refine ⟨trivial, noKeys_canonical h ?_⟩
    obtain ⟨⟨b, _⟩, hb, heq⟩ := except_bind_ok.1 h
    rw [eq_cons_of_decodeByte hb]
    dsimp only at heq
    split at heq
    · rename_i hzero
      cases heq
      rw [hzero]
      rfl
    · split at heq
      · rename_i hone
        cases heq
        rw [hone]
        rfl
      · cases heq
  | .text, _, bs, rest, s, h => by
    obtain ⟨hfits, hbs⟩ := eq_append_of_decodeText h
    exact ⟨hfits, noKeys_canonical h hbs⟩
  | .bytes, _, bs, rest, s, h => by
    obtain ⟨hfits, hbs⟩ := eq_append_of_decodeBytes h
    exact ⟨hfits, noKeys_canonical h hbs⟩
  | .enumeration names, _, bs, rest, i, h => by
    refine ⟨trivial, noKeys_canonical h ?_⟩
    obtain ⟨⟨b, _⟩, hb, heq⟩ := except_bind_ok.1 h
    rw [eq_cons_of_decodeByte hb]
    dsimp only at heq
    split at heq
    · cases heq
      rw [Schema.encode, UInt8.ofNat_toNat]
      rfl
    · cases heq
  | .list item, hs, bs, rest, l, h => by
    rw [Schema.narrow] at hs
    obtain ⟨⟨n, bs'⟩, hn, hitems⟩ := except_bind_ok.1 h
    obtain ⟨hlt, hbs⟩ := eq_append_of_decodeNumber hn
    have hitem (bs : Bytes) (a : item.Carrier) (rest : Bytes)
        (ha : item.decode bs = .ok (a, rest)) :
        item.Fits a ∧ ∃ lists, item.keyLists bs = .ok (lists, rest) ∧ True ∧
          (bs = item.encode a ++ rest ↔ Ascending (id lists)) := by
      obtain ⟨hfits, lists, hlists, hiff⟩ := item.decode_canonical hs ha
      exact ⟨hfits, lists, hlists, trivial, hiff⟩
    obtain ⟨rfl, found, hfound, -, hiff⟩ := decodeItems_canonical
      (fun a ha tail => item.decode_encode hs ha tail) hitem hitems
    have hall := decodeItems_forall (fun _ _ _ ha => (item.decode_canonical hs ha).1) hitems
    refine ⟨⟨hlt, hall⟩, found.flatten, ?_, ?_⟩
    · exact except_bind_ok.2 ⟨_, hn, except_bind_ok.2 ⟨_, hfound, rfl⟩⟩
    · rw [← List.flatMap_id, ← hiff, hbs, Schema.encode, List.append_assoc, encodeCount,
        List.append_cancel_left_eq]
  | .option item, hs, bs, rest, o, h => by
    rw [Schema.narrow] at hs
    obtain ⟨⟨b, bs'⟩, hb, hrest⟩ := except_bind_ok.1 h
    have hbs := eq_cons_of_decodeByte hb
    dsimp only at hrest
    split at hrest
    · rename_i hzero
      cases hrest
      refine ⟨trivial, [], except_bind_ok.2 ⟨_, hb, if_pos hzero⟩, iff_of_true ?_ ascending_nil⟩
      rw [hbs, hzero]
      rfl
    · rename_i hzero
      split at hrest
      · rename_i hone
        obtain ⟨⟨a, _⟩, ha, heq⟩ := except_bind_ok.1 hrest
        cases heq
        obtain ⟨hfits, lists, hlists, hiff⟩ := item.decode_canonical hs ha
        refine ⟨hfits, lists, except_bind_ok.2 ⟨_, hb, (if_neg hzero).trans hlists⟩, ?_⟩
        rw [← hiff, hbs, hone, Schema.encode, List.cons_append, List.cons.injEq, and_iff_right rfl]
      · cases hrest
  | .dict value, hs, bs, rest, d, h => by
    rw [Schema.narrow] at hs
    obtain ⟨⟨n, bs'⟩, hn, h⟩ := except_bind_ok.1 h
    obtain ⟨⟨l, _⟩, hl, heq⟩ := except_bind_ok.1 h
    cases heq
    obtain ⟨hlt, hbs⟩ := eq_append_of_decodeNumber hn
    obtain ⟨hsize, hfits, found, hfound, hiff⟩ := decodeEntries_canonical
      (fun a ha tail => value.decode_encode hs ha tail)
      (fun bs a rest ha => value.decode_canonical hs ha) hlt hl
    refine ⟨⟨hsize, hfits⟩, found.map (·.1) :: found.flatMap (·.2), ?_, ?_⟩
    · exact except_bind_ok.2 ⟨_, hn, except_bind_ok.2 ⟨_, hfound, rfl⟩⟩
    · rw [← hiff, hbs, Schema.encode]
      rfl
  | .record fields, hs, bs, rest, r, h => by
    rw [Schema.narrow] at hs
    exact fields.decode_canonical hs h
  | .choice arms, hs, bs, rest, a, h => by
    rw [Schema.narrow] at hs
    obtain ⟨⟨b, bs'⟩, hb, harm⟩ := except_bind_ok.1 h
    have hbs := eq_cons_of_decodeByte hb
    obtain ⟨hfits, lists, body, hlists, hencode, hiff⟩ := arms.decode_canonical hs harm
    refine ⟨hfits, lists, except_bind_ok.2 ⟨_, hb, hlists⟩, ?_⟩
    rw [← hiff, hbs, Schema.encode, hencode, Nat.zero_add, UInt8.ofNat_toNat, List.cons_append,
      List.cons.injEq, and_iff_right rfl]

theorem Fields.decode_canonical : ∀ {fs : Fields}, fs.narrow = true → ∀ {bs rest} {c : fs.Carrier},
    fs.decode bs = .ok (c, rest) → fs.Fits c ∧ ∃ lists, fs.keyLists bs = .ok (lists, rest) ∧
      (bs = fs.encode c ++ rest ↔ Ascending lists)
  | .nil, _, bs, rest, c, h => by
    cases h
    exact ⟨trivial, [], rfl, iff_of_true rfl ascending_nil⟩
  | .cons _ _ schema fields, hs, bs, rest, (a, r), h => by
    rw [Fields.narrow, Bool.and_eq_true] at hs
    obtain ⟨⟨a', bs'⟩, ha, h⟩ := except_bind_ok.1 h
    obtain ⟨⟨r', _⟩, hr, h⟩ := except_bind_ok.1 h
    cases h
    obtain ⟨hfits, lists, hlists, hiff⟩ := schema.decode_canonical hs.1 ha
    obtain ⟨hfits', lists', hlists', hiff'⟩ := fields.decode_canonical hs.2 hr
    refine ⟨⟨hfits, hfits'⟩, lists ++ lists', ?_, ?_⟩
    · exact except_bind_ok.2 ⟨_, hlists, except_bind_ok.2 ⟨_, hlists', rfl⟩⟩
    · rw [Fields.encode, List.append_assoc,
        eq_append_append_iff (fun tail => schema.decode_encode hs.1 hfits tail) ha, hiff, hiff',
        ascending_append]

/-- The byte that tells the alternative stands before the rest of its bytes. -/
theorem Arms.decode_canonical : ∀ {as : Arms} {first : Nat}, as.narrow first = true →
    ∀ {tag place bs rest} {c : as.Carrier}, as.decode tag place bs = .ok (c, rest) →
      as.Fits c ∧ ∃ lists body, as.keyLists tag place bs = .ok (lists, rest) ∧
        as.encode first c = UInt8.ofNat (first + place) :: body ∧
        (bs = body ++ rest ↔ Ascending lists)
  | .bare _ arms, first, _, tag, 0, bs, rest, c, h => by
    cases h
    exact ⟨trivial, [], [], rfl, rfl, iff_of_true rfl ascending_nil⟩
  | .bare _ arms, first, hs, tag, place + 1, bs, rest, c, h => by
    simp only [Arms.narrow, Bool.and_eq_true, decide_eq_true_eq] at hs
    obtain ⟨⟨a, _⟩, ha, heq⟩ := except_bind_ok.1 h
    cases heq
    obtain ⟨hfits, lists, body, hlists, hencode, hiff⟩ := arms.decode_canonical hs.2 ha
    refine ⟨hfits, lists, body, hlists, ?_, hiff⟩
    rw [Arms.encode, hencode, Nat.add_right_comm, Nat.add_assoc]
  | .holding _ schema arms, first, hs, tag, 0, bs, rest, c, h => by
    simp only [Arms.narrow, Bool.and_eq_true, decide_eq_true_eq] at hs
    obtain ⟨⟨a, _⟩, ha, heq⟩ := except_bind_ok.1 h
    cases heq
    obtain ⟨hfits, lists, hlists, hiff⟩ := schema.decode_canonical hs.1.2 ha
    exact ⟨hfits, lists, schema.encode a, hlists, rfl, hiff⟩
  | .holding _ schema arms, first, hs, tag, place + 1, bs, rest, c, h => by
    simp only [Arms.narrow, Bool.and_eq_true, decide_eq_true_eq] at hs
    obtain ⟨⟨a, _⟩, ha, heq⟩ := except_bind_ok.1 h
    cases heq
    obtain ⟨hfits, lists, body, hlists, hencode, hiff⟩ := arms.decode_canonical hs.2 ha
    refine ⟨hfits, lists, body, hlists, ?_, hiff⟩
    rw [Arms.encode, hencode, Nat.add_right_comm, Nat.add_assoc]

end

end Schemas

/-! ## Schemas without dictionaries -/

mutual

/-- No dictionary is in a value, at any depth. -/
def Schema.dictFree : Schema → Bool
  | .list item => item.dictFree
  | .option item => item.dictFree
  | .dict _ => false
  | .record fields => fields.dictFree
  | .choice arms => arms.dictFree
  | _ => true

def Fields.dictFree : Fields → Bool
  | .nil => true
  | .cons _ _ schema rest => schema.dictFree && rest.dictFree

def Arms.dictFree : Arms → Bool
  | .nil => true
  | .bare _ rest => rest.dictFree
  | .holding _ schema rest => schema.dictFree && rest.dictFree

end

section DictFree

variable {lists : List (List Bytes)} {bs rest : Bytes}

theorem noKeys_eq_nil {α : Type} {read : Reading α} (h : noKeys read bs = .ok (lists, rest)) :
    lists = [] := by
  obtain ⟨_, -, heq⟩ := except_bind_ok.1 h
  cases heq
  rfl

mutual

theorem Schema.keyLists_of_dictFree : ∀ {s : Schema}, s.dictFree = true → ∀ {bs lists rest},
    s.keyLists bs = .ok (lists, rest) → lists = []
  | .uint16, _, _, _, _, h | .uint32, _, _, _, _, h | .uint64, _, _, _, _, h
  | .int32, _, _, _, _, h | .int64, _, _, _, _, h | .bool, _, _, _, _, h
  | .text, _, _, _, _, h | .bytes, _, _, _, _, h | .enumeration _, _, _, _, _, h => noKeys_eq_nil h
  | .list item, hs, bs, lists, rest, h => by
    rw [Schema.dictFree] at hs
    obtain ⟨_, -, h⟩ := except_bind_ok.1 h
    obtain ⟨⟨found, _⟩, hfound, heq⟩ := except_bind_ok.1 h
    cases heq
    exact List.flatten_eq_nil_iff.2
      (decodeItems_forall (fun _ _ _ ha => item.keyLists_of_dictFree hs ha) hfound)
  | .option item, hs, bs, lists, rest, h => by
    rw [Schema.dictFree] at hs
    obtain ⟨⟨b, bs'⟩, -, h⟩ := except_bind_ok.1 h
    dsimp only at h
    split at h
    · cases h
      rfl
    · exact item.keyLists_of_dictFree hs h
  | .record fields, hs, _, _, _, h => by
    rw [Schema.dictFree] at hs
    exact fields.keyLists_of_dictFree hs h
  | .choice arms, hs, _, _, _, h => by
    rw [Schema.dictFree] at hs
    obtain ⟨_, -, h⟩ := except_bind_ok.1 h
    exact arms.keyLists_of_dictFree hs h

theorem Fields.keyLists_of_dictFree : ∀ {fs : Fields}, fs.dictFree = true → ∀ {bs lists rest},
    fs.keyLists bs = .ok (lists, rest) → lists = []
  | .nil, _, _, _, _, h => by
    cases h
    rfl
  | .cons _ _ schema fields, hs, _, _, _, h => by
    rw [Fields.dictFree, Bool.and_eq_true] at hs
    obtain ⟨_, hfirst, h⟩ := except_bind_ok.1 h
    obtain ⟨_, hmore, heq⟩ := except_bind_ok.1 h
    cases heq
    exact List.append_eq_nil_iff.2
      ⟨schema.keyLists_of_dictFree hs.1 hfirst, fields.keyLists_of_dictFree hs.2 hmore⟩

theorem Arms.keyLists_of_dictFree : ∀ {as : Arms}, as.dictFree = true →
    ∀ {tag place bs lists rest}, as.keyLists tag place bs = .ok (lists, rest) → lists = []
  | .bare _ _, _, _, 0, _, _, _, h => by
    cases h
    rfl
  | .bare _ arms, hs, _, _ + 1, _, _, _, h => by
    rw [Arms.dictFree] at hs
    exact arms.keyLists_of_dictFree hs h
  | .holding _ schema _, hs, _, 0, _, _, _, h => by
    rw [Arms.dictFree, Bool.and_eq_true] at hs
    exact schema.keyLists_of_dictFree hs.1 h
  | .holding _ _ arms, hs, _, _ + 1, _, _, _, h => by
    rw [Arms.dictFree, Bool.and_eq_true] at hs
    exact arms.keyLists_of_dictFree hs.2 h

end

end DictFree

/-! ## Messages -/

/-- The messages of the catalog with dictionaries. -/
def dictHolders : List String := [
  "Organization", "ApplicationGroup", "ConsortiumGroup", "OrdererGroup", "ChannelGroup", "Config",
  "ConfigEnvelope", "ConfigUpdate", "ChaincodeProposalPayload", "QueryChaincodeDefinitionResult",
  "CheckCommitReadinessResult"]

theorem dictFree_iff_of_mem_catalog :
    ∀ e ∈ catalog, e.schema.dictFree = true ↔ e.name ∉ dictHolders := by
  decide

section Messages

variable {α : Type} [Message α] {name : String} {a : α} {bs : Bytes}

theorem fromWire_canonical (hs : (schema α).narrow = true) (h : fromWire α bs = .ok a) :
    ∃ lists, (schema α).keyLists bs = .ok (lists, []) ∧ (toWire a = bs ↔ Ascending lists) := by
  obtain ⟨-, lists, hlists, hiff⟩ := Schema.decode_canonical hs (decode_of_fromWire h)
  refine ⟨lists, hlists, ?_⟩
  rw [← hiff, List.append_nil, eq_comm]
  rfl

theorem toWire_of_dictFree (hs : (schema α).narrow = true) (hfree : (schema α).dictFree = true)
    (h : fromWire α bs = .ok a) : toWire a = bs := by
  obtain ⟨lists, hlists, hiff⟩ := fromWire_canonical hs h
  rw [hiff, Schema.keyLists_of_dictFree hfree hlists]
  exact ascending_nil

/-- A message is written as the bytes that it was read from exactly if each dictionary in them, at
any depth, lists its keys in strictly ascending order.  A message without dictionaries can be read
from its own bytes only. -/
theorem toWire_eq_iff_ascending (hα : CatalogEntry.of name α ∈ catalog)
    (h : fromWire α bs = .ok a) :
    (∃ lists, (schema α).keyLists bs = .ok (lists, []) ∧
      (toWire a = bs ↔ ∀ keys ∈ lists, keys.Pairwise (· < ·))) ∧
    ((schema α).dictFree = true ↔ name ∉ dictHolders) ∧
    ((schema α).dictFree = true →
      toWire a = bs ∧ ∀ bs', fromWire α bs' = .ok a → bs' = bs) := by
  have hs : (schema α).narrow = true := narrow_of_mem_catalog _ hα
  refine ⟨fromWire_canonical hs h, dictFree_iff_of_mem_catalog _ hα, fun hfree => ?_⟩
  have hwire : toWire a = bs := toWire_of_dictFree hs hfree h
  refine ⟨hwire, fun bs' h' => ?_⟩
  rw [← hwire, toWire_of_dictFree hs hfree h']

end Messages

/-- A call with three transient values, the first of which is under the key of the last. -/
def repeatedKeys : Bytes :=
  encodeBytes [9] ++ encodeCount 3 ++ encodeText "b" ++ encodeBytes [1] ++
    encodeText "a" ++ encodeBytes [2] ++ encodeText "b" ++ encodeBytes [3]

theorem toWire_ne_repeatedKeys :
    CatalogEntry.of "ChaincodeProposalPayload" ChaincodeProposalPayload ∈ catalog ∧
    ∃ payload, fromWire ChaincodeProposalPayload repeatedKeys = .ok payload ∧
      payload.transientMap.get? "b" = some [3] ∧ toWire payload ≠ repeatedKeys := by
  have hmem : CatalogEntry.of "ChaincodeProposalPayload" ChaincodeProposalPayload ∈ catalog :=
    List.mem_of_getElem? (i := 39) rfl
  have hread : fromWire ChaincodeProposalPayload repeatedKeys =
      .ok { input := [9], transientMap := Dict.ofList [("b", [1]), ("a", [2]), ("b", [3])] } := by
    rfl
  refine ⟨hmem, _, hread, by decide, fun hwire => ?_⟩
  obtain ⟨⟨lists, hlists, hiff⟩, -, -⟩ := toWire_eq_iff_ascending hmem hread
  have hkeys : (schema ChaincodeProposalPayload).keyLists repeatedKeys =
      .ok ([[[98], [97], [98]]], []) := by
    rfl
  rw [hkeys] at hlists
  cases hlists
  exact absurd (hiff.1 hwire [[98], [97], [98]] List.mem_cons_self) (by decide)

end LedgerClient
