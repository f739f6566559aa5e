/-!
# Dictionaries

A dictionary is the list of its entries in ascending key order, so equal dictionaries are equal
values.  The view is `get?`: `get?_insert` and `get?_erase` say what the operations do to it, and
`Dict.ext_get?` that it determines the dictionary.
-/

namespace LedgerClient

structure Dict (α : Type) where
  entries : List (String × α)
  ascending : entries.Pairwise fun a b => a.1 < b.1
  deriving DecidableEq

namespace Dict

variable {α β : Type}

/-! ## Entry lists -/

def lookupEntry (k : String) : List (String × α) → Option α
  | [] => none
  | (k', v) :: rest => if k = k' then some v else lookupEntry k rest

def insertEntry (k : String) (v : α) : List (String × α) → List (String × α)
  | [] => [(k, v)]
  | (k', v') :: rest =>
    if k < k' then (k, v) :: (k', v') :: rest
    else if k = k' then (k, v) :: rest
    else (k', v') :: insertEntry k v rest

def eraseEntry (k : String) (l : List (String × α)) : List (String × α) :=
  l.filter fun e => e.1 != k

theorem lt_of_not_lt_of_ne {a b : String} (h : ¬a < b) (hne : a ≠ b) : b < a :=
  Decidable.byContradiction fun hba =>
    hne (String.le_antisymm (String.not_lt.1 hba) (String.not_lt.1 h))

theorem mem_insertEntry {k : String} {v : α} {l : List (String × α)} {e : String × α}
    (h : e ∈ insertEntry k v l) : e = (k, v) ∨ e ∈ l := by
  induction l with
  | nil => simp [insertEntry] at h; exact .inl h
  | cons a l ih =>
    obtain ⟨k', v'⟩ := a
    simp only [insertEntry] at h
    split at h
    · simpa using h
    · split at h
      · rcases List.mem_cons.1 h with h | h
        · exact .inl h
        · exact .inr (List.mem_cons_of_mem _ h)
      · rcases List.mem_cons.1 h with h | h
        · exact .inr (h ▸ List.mem_cons_self)
        · exact (ih h).imp_right (List.mem_cons_of_mem _)

theorem ascending_insertEntry (k : String) (v : α) {l : List (String × α)}
    (h : l.Pairwise fun a b => a.1 < b.1) : (insertEntry k v l).Pairwise fun a b => a.1 < b.1 := by
  induction l with
  | nil => simp [insertEntry]
  | cons a l ih =>
    obtain ⟨k', v'⟩ := a
    obtain ⟨hk, hl⟩ := List.pairwise_cons.1 h
    simp only [insertEntry]
    split
    · rename_i hlt
      refine List.pairwise_cons.2 ⟨fun e he => ?_, h⟩
      rcases List.mem_cons.1 he with rfl | he
      · exact hlt
      · exact String.lt_trans hlt (hk e he)
    · rename_i hlt
      split
      · rename_i heq
        subst heq
        exact List.pairwise_cons.2 ⟨hk, hl⟩
      · rename_i hne
        refine List.pairwise_cons.2 ⟨fun e he => ?_, ih hl⟩
        rcases mem_insertEntry he with rfl | he
        · exact lt_of_not_lt_of_ne hlt hne
        · exact hk e he

theorem lookupEntry_insertEntry (k k' : String) (v : α) (l : List (String × α)) :
    lookupEntry k' (insertEntry k v l) = if k' = k then some v else lookupEntry k' l := by
  induction l with
  | nil => simp [insertEntry, lookupEntry]
  | cons a l ih =>
    obtain ⟨k₁, v₁⟩ := a
    simp only [insertEntry]
    split
    · simp [lookupEntry]
    · split
      · rename_i heq
        subst heq
        by_cases h : k' = k <;> simp [lookupEntry, h]
      · rename_i hne
        simp only [lookupEntry, ih]
        by_cases h : k' = k
        · subst h; simp [hne]
        · simp [h]

theorem lookupEntry_eq_none {k : String} {l : List (String × α)} (h : ∀ e ∈ l, e.1 ≠ k) :
    lookupEntry k l = none := by
  induction l with
  | nil => rfl
  | cons a l ih =>
    have ha : k ≠ a.1 := fun e => h a List.mem_cons_self e.symm
    simp only [lookupEntry, if_neg ha]
    exact ih fun e he => h e (List.mem_cons_of_mem _ he)

theorem lookupEntry_eraseEntry (k k' : String) (l : List (String × α)) :
    lookupEntry k' (eraseEntry k l) = if k' = k then none else lookupEntry k' l := by
  induction l with
  | nil => simp [eraseEntry, lookupEntry]
  | cons a l ih =>
    obtain ⟨k₁, v₁⟩ := a
    simp only [eraseEntry] at ih
    by_cases hk : k₁ = k
    · subst hk
      simp only [eraseEntry, List.filter_cons, bne_self_eq_false, Bool.false_eq_true, if_false, ih,
        lookupEntry]
      by_cases h : k' = k₁ <;> simp [h]
    · have : (k₁ != k) = true := by simpa using hk
      simp only [eraseEntry, List.filter_cons, this, if_true, lookupEntry, ih]
      by_cases h : k' = k
      · subst h; simp [Ne.symm hk]
      · simp [h]

/-! ## Operations -/

def empty : Dict α := ⟨[], .nil⟩

instance : Inhabited (Dict α) := ⟨empty⟩

def isEmpty (d : Dict α) : Bool := d.entries.isEmpty

def size (d : Dict α) : Nat := d.entries.length

def keys (d : Dict α) : List String := d.entries.map (·.1)

def get? (d : Dict α) (k : String) : Option α := lookupEntry k d.entries

def contains (d : Dict α) (k : String) : Bool := (d.get? k).isSome

/-- An entry under the same key is replaced. -/
def insert (d : Dict α) (k : String) (v : α) : Dict α :=
  ⟨insertEntry k v d.entries, ascending_insertEntry k v d.ascending⟩

def erase (d : Dict α) (k : String) : Dict α := ⟨eraseEntry k d.entries, d.ascending.filter _⟩

/-- Of entries with the same key the last one stays. -/
def ofList (l : List (String × α)) : Dict α := l.foldl (fun d e => d.insert e.1 e.2) empty

def map (f : α → β) (d : Dict α) : Dict β :=
  ⟨d.entries.map fun e => (e.1, f e.2), List.pairwise_map.2 d.ascending⟩

/-! ## The view -/

@[simp] theorem get?_empty (k : String) : (empty : Dict α).get? k = none := rfl

theorem get?_insert (d : Dict α) (k k' : String) (v : α) :
    (d.insert k v).get? k' = if k' = k then some v else d.get? k' :=
  lookupEntry_insertEntry k k' v d.entries

theorem get?_erase (d : Dict α) (k k' : String) :
    (d.erase k).get? k' = if k' = k then none else d.get? k' :=
  lookupEntry_eraseEntry k k' d.entries

theorem ext_lookupEntry {l l' : List (String × α)} (h : l.Pairwise fun a b => a.1 < b.1)
    (h' : l'.Pairwise fun a b => a.1 < b.1) (heq : ∀ k, lookupEntry k l = lookupEntry k l') :
    l = l' := by
  induction l generalizing l' with
  | nil =>
    cases l' with
    | nil => rfl
    | cons b l' => have := heq b.1; simp [lookupEntry] at this
  | cons a l ih =>
    cases l' with
    | nil => have := heq a.1; simp [lookupEntry] at this
    | cons b l' =>
      obtain ⟨hk, hl⟩ := List.pairwise_cons.1 h
      obtain ⟨hk', hl'⟩ := List.pairwise_cons.1 h'
      have absent {c : String × α} {m : List (String × α)} {k : String}
          (hm : ∀ e ∈ m, c.1 < e.1) (hlt : ¬c.1 < k) : lookupEntry k m = none :=
        lookupEntry_eq_none fun e he hek => hlt (hek ▸ hm e he)
      have hab : a.1 = b.1 := Decidable.byContradiction fun hne => by
        by_cases hlt : a.1 < b.1
        · have := heq a.1
          simp only [lookupEntry, if_true, if_neg hne] at this
          rw [absent hk' (String.lt_asymm hlt)] at this
          cases this
        · have := heq b.1
          simp only [lookupEntry, if_true, if_neg (Ne.symm hne)] at this
          rw [absent hk hlt] at this
          cases this
      have hv : a.2 = b.2 := by
        have := heq a.1
        simpa [lookupEntry, hab] using this
      have hrest : l = l' := ih hl hl' fun k => by
        have := heq k
        by_cases hka : k = a.1
        · subst hka
          rw [absent hk (String.lt_irrefl _), absent (c := b) hk' (hab ▸ String.lt_irrefl _)]
        · simpa [lookupEntry, hka, hab ▸ hka] using this
      rw [hrest, Prod.ext hab hv]

theorem ext_get? {d d' : Dict α} (h : ∀ k, d.get? k = d'.get? k) : d = d' := by
  obtain ⟨l, hl⟩ := d
  obtain ⟨l', hl'⟩ := d'
  obtain rfl : l = l' := ext_lookupEntry hl hl' h
  rfl

theorem lookupEntry_eq_some_iff {l : List (String × α)} (h : l.Pairwise fun a b => a.1 < b.1)
    {k : String} {v : α} : lookupEntry k l = some v ↔ (k, v) ∈ l := by
  induction l with
  | nil => exact ⟨fun h => (nomatch h), fun h => (nomatch h)⟩
  | cons a l ih =>
    obtain ⟨k', v'⟩ := a
    obtain ⟨hk, hl⟩ := List.pairwise_cons.1 h
    rw [List.mem_cons, Prod.mk.injEq]
    by_cases heq : k = k'
    · subst heq
      rw [lookupEntry, if_pos rfl, Option.some.injEq]
      constructor
      · rintro rfl
        exact .inl ⟨rfl, rfl⟩
      · rintro (⟨-, rfl⟩ | hm)
        · rfl
        · exact absurd (hk _ hm) (String.lt_irrefl k)
    · rw [lookupEntry, if_neg heq, ih hl]
      exact ⟨.inr, fun hm => hm.resolve_left fun hv => heq hv.1⟩

theorem get?_eq_some_iff {d : Dict α} {k : String} {v : α} :
    d.get? k = some v ↔ (k, v) ∈ d.entries :=
  lookupEntry_eq_some_iff d.ascending

theorem mem_keys_iff {d : Dict α} {k : String} : k ∈ d.keys ↔ ∃ v, d.get? k = some v := by
  rw [keys, List.mem_map]
  constructor
  · rintro ⟨e, he, rfl⟩
    exact ⟨e.2, get?_eq_some_iff.2 he⟩
  · rintro ⟨v, hv⟩
    exact ⟨(k, v), get?_eq_some_iff.1 hv, rfl⟩

theorem nodup_keys (d : Dict α) : d.keys.Nodup :=
  List.pairwise_map.2 (d.ascending.imp fun h => String.ne_of_lt h)

theorem get?_foldl_insert (l : List (String × α)) (d : Dict α) (k : String) :
    (l.foldl (fun d e => d.insert e.1 e.2) d).get? k =
      ((l.reverse.find? fun e => e.1 = k).map (·.2)).or (d.get? k) := by
  induction l generalizing d with
  | nil => rfl
  | cons e l ih =>
    rw [List.foldl_cons, ih, get?_insert, List.reverse_cons, List.find?_append]
    cases l.reverse.find? fun e => e.1 = k with
    | some last => rfl
    | none =>
      by_cases hk : k = e.1
      · simp [hk]
      · simp [hk, Ne.symm hk]

/-- The last entry under a key is the one that stays. -/
theorem get?_ofList (l : List (String × α)) (k : String) :
    (ofList l).get? k = (l.reverse.find? fun e => e.1 = k).map (·.2) := by
  rw [ofList, get?_foldl_insert, get?_empty, Option.or_none]

theorem mem_keys_ofList {l : List (String × α)} {k : String} :
    k ∈ (ofList l).keys ↔ k ∈ l.map (·.1) := by
  rw [mem_keys_iff]
  simp only [get?_ofList, ← Option.isSome_iff_exists, Option.isSome_map, List.find?_isSome,
    List.mem_reverse, List.mem_map, decide_eq_true_eq]

@[simp] theorem map_map {γ : Type} (f : α → β) (g : β → γ) (d : Dict α) :
    (d.map f).map g = d.map fun a => g (f a) := by
  simp [map, Function.comp_def]

theorem map_id_of {f : α → α} (h : ∀ a, f a = a) (d : Dict α) : d.map f = d := by
  simp [map, h]

end Dict

end LedgerClient
