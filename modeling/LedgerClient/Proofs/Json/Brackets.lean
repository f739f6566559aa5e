import LedgerClient.Proofs.Json.Numerals
import LedgerClient.Proofs.Json.Strings
import LedgerClient.Schema.Json
/-!
# Reading arrays and objects back

* `Value.bytes`: the text of a value in bytes.
* `scanList_bytes`: an array whose items are read back is read back.
* `Reads`: the members of an object lead a reader from one state to another;
  `scanMembers_memberBytes`: if each member does so, the reader of objects does.
-/

namespace LedgerClient.Json

variable {α σ : Type} {rest : Bytes} {first : Bool}

namespace Value

def bytes (v : Value) : Bytes := Utf8.encodeChars v.compact

/-- The items after the first one, and the bracket. -/
def itemBytes (vs : List Value) : Bytes := Utf8.encodeChars (compactItems vs)

def memberBytes (ms : List (String × Value)) : Bytes := Utf8.encodeChars (compactMembers ms)

def keyBytes (k : String) : Bytes := Utf8.encodeChars (quoted k)

theorem encodeChars_append (cs ds : List Char) :
    Utf8.encodeChars (cs ++ ds) = Utf8.encodeChars cs ++ Utf8.encodeChars ds :=
  List.flatMap_append

theorem bytes_text (s : String) : (text s).bytes = keyBytes s := by
  rw [bytes, compact, keyBytes]

theorem bytes_number (n : Int) : (number n).bytes = Utf8.encodeChars (numeral n) := by
  rw [bytes, compact]

theorem bytes_null : null.bytes = [Ascii.n, Ascii.u, Ascii.l, Ascii.l] := by
  rw [bytes, compact]
  rfl

theorem bytes_true : (bool true).bytes = [Ascii.t, Ascii.r, Ascii.u, Ascii.e] := by
  rw [bytes, compact]
  rfl

theorem bytes_false : (bool false).bytes = [Ascii.f, Ascii.a, Ascii.l, Ascii.s, Ascii.e] := by
  rw [bytes, compact]
  rfl

theorem bytes_array_nil : (array []).bytes = [Ascii.openSquare, Ascii.closeSquare] := by
  rw [bytes, compact]
  rfl

theorem itemBytes_nil : itemBytes [] = [Ascii.closeSquare] := by
  rw [itemBytes, compactItems]
  rfl

theorem bytes_array_cons (v : Value) (vs : List Value) :
    (array (v :: vs)).bytes = Ascii.openSquare :: (v.bytes ++ itemBytes vs) := by
  rw [bytes, compact, bytes, itemBytes, ← encodeChars_append]
  rfl

theorem itemBytes_cons (v : Value) (vs : List Value) :
    itemBytes (v :: vs) = Ascii.comma :: (v.bytes ++ itemBytes vs) := by
  rw [itemBytes, compactItems, bytes, itemBytes, ← encodeChars_append]
  rfl

theorem bytes_object_nil : (object []).bytes = [Ascii.openCurly, Ascii.closeCurly] := by
  rw [bytes, compact]
  rfl

theorem memberBytes_nil : memberBytes [] = [Ascii.closeCurly] := by
  rw [memberBytes, compactMembers]
  rfl

theorem encodeChars_member (k : String) (v : Value) (cs : List Char) :
    Utf8.encodeChars (quoted k ++ ':' :: (v.compact ++ cs)) =
      keyBytes k ++ Ascii.colon :: (v.bytes ++ Utf8.encodeChars cs) := by
  rw [encodeChars_append]
  exact congrArg (fun cs => keyBytes k ++ Ascii.colon :: cs) (encodeChars_append v.compact cs)

theorem bytes_object_cons (k : String) (v : Value) (ms : List (String × Value)) :
    (object ((k, v) :: ms)).bytes =
      Ascii.openCurly :: (keyBytes k ++ Ascii.colon :: (v.bytes ++ memberBytes ms)) := by
  rw [bytes, compact, memberBytes, ← encodeChars_member]
  rfl

theorem memberBytes_cons (k : String) (v : Value) (ms : List (String × Value)) :
    memberBytes ((k, v) :: ms) =
      Ascii.comma :: (keyBytes k ++ Ascii.colon :: (v.bytes ++ memberBytes ms)) := by
  rw [memberBytes, compactMembers, memberBytes, ← encodeChars_member]
  rfl

/-! ### How a text begins -/

theorem keyBytes_append (k : String) (rest : Bytes) :
    keyBytes k ++ rest =
      Ascii.quote :: (Utf8.encodeChars (k.toList.flatMap escape) ++ Ascii.quote :: rest) := by
  rw [keyBytes, encodeChars_quoted, List.cons_append, List.append_assoc, List.singleton_append]

theorem isSpace_of_isDigit {b : UInt8} (h : isDigit b = true) : isSpace b = false := by
  rw [Bool.eq_false_iff]
  intro hspace
  simp only [isSpace, Bool.or_eq_true, decide_eq_true_eq] at hspace
  rcases hspace with ((rfl | rfl) | rfl) | rfl <;> cases h

/-- No text of a value begins with a blank or a closing bracket, and only `null` with its letter. -/
theorem bytes_eq_cons (v : Value) : ∃ c cs, v.bytes = c :: cs ∧ isSpace c = false ∧
    c ≠ Ascii.closeSquare ∧ (v ≠ null → c ≠ Ascii.n) := by
  cases v with
  | null => exact ⟨_, _, bytes_null, rfl, by decide, fun h => absurd rfl h⟩
  | bool b =>
    cases b with
    | true => exact ⟨_, _, bytes_true, rfl, by decide, fun _ => by decide⟩
    | false => exact ⟨_, _, bytes_false, rfl, by decide, fun _ => by decide⟩
  | number n =>
    rw [bytes_number, encodeChars_numeral]
    split
    · exact ⟨_, _, rfl, rfl, by decide, fun _ => by decide⟩
    · obtain ⟨b, bs, hdigits, hb, -⟩ := digits_eq_cons n.natAbs
      refine ⟨b, bs, hdigits, isSpace_of_isDigit hb, ?_, fun _ => ?_⟩
      · rintro rfl
        cases hb
      · rintro rfl
        cases hb
  | text s =>
    rw [bytes_text, ← List.append_nil (keyBytes s), keyBytes_append]
    exact ⟨_, _, rfl, rfl, by decide, fun _ => by decide⟩
  | array vs =>
    cases vs with
    | nil => exact ⟨_, _, bytes_array_nil, rfl, by decide, fun _ => by decide⟩
    | cons v vs => exact ⟨_, _, bytes_array_cons v vs, rfl, by decide, fun _ => by decide⟩
  | object ms =>
    cases ms with
    | nil => exact ⟨_, _, bytes_object_nil, rfl, by decide, fun _ => by decide⟩
    | cons m ms => exact ⟨_, _, bytes_object_cons m.1 m.2 ms, rfl, by decide, fun _ => by decide⟩

end Value

open Value

theorem skipSpace_cons {c : UInt8} (h : isSpace c = false) (cs : Bytes) :
    skipSpace (c :: cs) = c :: cs := by
  rw [skipSpace, List.dropWhile_cons_of_neg (by rw [h]; exact Bool.false_ne_true)]

theorem skipSpace_bytes (v : Value) (rest : Bytes) :
    skipSpace (v.bytes ++ rest) = v.bytes ++ rest := by
  obtain ⟨c, cs, hv, hspace, -⟩ := v.bytes_eq_cons
  rw [hv, List.cons_append, skipSpace_cons hspace]

theorem ends_itemBytes (vs : List Value) (rest : Bytes) : Ends (itemBytes vs ++ rest) := by
  cases vs with
  | nil =>
    rw [itemBytes_nil]
    exact .inr (.inl rfl)
  | cons v vs =>
    rw [itemBytes_cons]
    exact .inl rfl

theorem ends_memberBytes (ms : List (String × Value)) (rest : Bytes) :
    Ends (memberBytes ms ++ rest) := by
  cases ms with
  | nil =>
    rw [memberBytes_nil]
    exact .inr (.inr rfl)
  | cons m ms =>
    rw [memberBytes_cons]
    exact .inl rfl

/-! ## Arrays -/

theorem nextItem_first (v : Value) (rest : Bytes) :
    nextItem true (v.bytes ++ rest) = .ok (true, v.bytes ++ rest) := by
  obtain ⟨c, cs, hv, hspace, hclose, -⟩ := v.bytes_eq_cons
  rw [nextItem, skipSpace_bytes, hv, List.cons_append]
  split
  · rename_i heq
    cases heq
  · rename_i heq
    exact absurd (List.cons.inj heq).1 hclose
  · rename_i heq
    cases heq
    rfl

theorem nextItem_comma (v : Value) (rest : Bytes) :
    nextItem false (Ascii.comma :: (v.bytes ++ rest)) = .ok (true, v.bytes ++ rest) := by
  obtain ⟨c, cs, hv, hspace, hclose, -⟩ := v.bytes_eq_cons
  have hskip := skipSpace_bytes v rest
  rw [hv, List.cons_append] at hskip ⊢
  rw [nextItem, skipSpace_cons rfl]
  split
  · rename_i heq
    cases heq
  · rename_i heq
    cases heq
  · rename_i heq
    cases heq
    rw [if_neg Bool.false_ne_true, if_pos rfl, hskip]
    split
    · rename_i heq
      cases heq
    · rename_i heq
      exact absurd (List.cons.inj heq).1 hclose
    · rfl

section Items

variable {item : Scan α} {f : α → Value}

/-- The reader reads a value back, whatever may follow. -/
def ReadsBack (scan : Scan α) (f : α → Value) (a : α) : Prop :=
  ∀ rest, Ends rest → scan ((f a).bytes ++ rest) = .ok (a, rest)

theorem scanItems_close (item : Scan α) (fuel : Nat) (first : Bool) (rest : Bytes) :
    scanItems item (fuel + 1) first (Ascii.closeSquare :: rest) = .ok ([], rest) := rfl

/-- An item is read, and then the others. -/
theorem scanItems_cons {a : α} {cs : Bytes} {fuel : Nat} (hcs : Ends cs)
    (h : ReadsBack item f a) {front : Bytes} {first : Bool}
    (hnext : nextItem first front = .ok (true, (f a).bytes ++ cs)) :
    scanItems item (fuel + 1) first front =
      (scanItems item fuel false cs).map fun x => (a :: x.1, x.2) := by
  rw [scanItems, hnext]
  change (item ((f a).bytes ++ cs) >>= fun x => scanItems item fuel false x.2 >>= fun y =>
    Except.ok (x.1 :: y.1, y.2)) = _
  rw [h cs hcs]
  change (scanItems item fuel false cs >>= fun y => Except.ok (a :: y.1, y.2)) = _
  cases scanItems item fuel false cs <;> rfl

theorem scanItems_itemBytes {l : List α} (h : ∀ a ∈ l, ReadsBack item f a) {fuel : Nat}
    (hfuel : l.length < fuel) (rest : Bytes) :
    scanItems item fuel false (itemBytes (l.map f) ++ rest) = .ok (l, rest) := by
  induction l generalizing fuel with
  | nil =>
    obtain ⟨fuel, rfl⟩ := Nat.exists_eq_succ_of_ne_zero (Nat.ne_zero_of_lt hfuel)
    rw [List.map_nil, itemBytes_nil]
    exact scanItems_close item fuel false rest
  | cons a l ih =>
    obtain ⟨fuel, rfl⟩ := Nat.exists_eq_succ_of_ne_zero (Nat.ne_zero_of_lt hfuel)
    rw [List.map_cons, itemBytes_cons, List.cons_append, List.append_assoc,
      scanItems_cons (ends_itemBytes _ _) (h a List.mem_cons_self) (nextItem_comma _ _),
      ih (fun b hb => h b (List.mem_cons_of_mem _ hb)) (Nat.lt_of_succ_lt_succ hfuel)]
    rfl

theorem length_lt_itemBytes (vs : List Value) : vs.length < (itemBytes vs).length := by
  induction vs with
  | nil =>
    rw [itemBytes_nil]
    exact Nat.zero_lt_one
  | cons v vs ih =>
    rw [itemBytes_cons, List.length_cons, List.length_cons, List.length_append]
    omega

/-- An array whose items are read back is read back. -/
theorem scanList_bytes {l : List α} (h : ∀ a ∈ l, ReadsBack item f a) (rest : Bytes) :
    scanList item ((array (l.map f)).bytes ++ rest) = .ok (l, rest) := by
  cases l with
  | nil =>
    rw [List.map_nil, bytes_array_nil]
    exact scanItems_close item _ true rest
  | cons a l =>
    have hlength := length_lt_itemBytes (l.map f)
    rw [List.length_map] at hlength
    rw [List.map_cons, bytes_array_cons, List.cons_append, List.append_assoc]
    change scanItems item (((f a).bytes ++ (itemBytes (l.map f) ++ rest)).length + 1) true _ = _
    rw [scanItems_cons (ends_itemBytes _ _) (h a List.mem_cons_self) (nextItem_first _ _),
      scanItems_itemBytes (fun b hb => h b (List.mem_cons_of_mem _ hb))]
    · rfl
    · rw [List.length_append, List.length_append]
      omega

end Items

/-! ## Objects -/

theorem scanColon_colon (rest : Bytes) : scanColon (Ascii.colon :: rest) = .ok rest := rfl

theorem nextKey_first (k : String) (rest : Bytes) :
    nextKey true (keyBytes k ++ rest) = .ok (some k, rest) := by
  rw [keyBytes_append]
  change (scanString (Utf8.encodeChars (k.toList.flatMap escape) ++ Ascii.quote :: rest) >>=
    fun x => Except.ok (some x.1, x.2)) = _
  rw [scanString_quoted]
  rfl

theorem nextKey_comma (k : String) (rest : Bytes) :
    nextKey false (Ascii.comma :: (keyBytes k ++ rest)) = .ok (some k, rest) := by
  rw [keyBytes_append]
  change (scanString (Utf8.encodeChars (k.toList.flatMap escape) ++ Ascii.quote :: rest) >>=
    fun x => Except.ok (some x.1, x.2)) = _
  rw [scanString_quoted]
  rfl

/-- The members lead from one state to another: each of them is read to its end, whatever may
follow. -/
inductive Reads (member : String → σ → Scan σ) : σ → List (String × Value) → σ → Prop
  | nil {s : σ} : Reads member s [] s
  | cons {s s' s'' : σ} {k : String} {v : Value} {ms : List (String × Value)} :
      (∀ rest, Ends rest → member k s (Ascii.colon :: (v.bytes ++ rest)) = .ok (s', rest)) →
      Reads member s' ms s'' → Reads member s ((k, v) :: ms) s''

section Members

variable {member : String → σ → Scan σ} {s s' s'' : σ} {ms : List (String × Value)}

theorem scanMembers_close (member : String → σ → Scan σ) (fuel : Nat) (first : Bool) (s : σ)
    (rest : Bytes) :
    scanMembers member (fuel + 1) first s (Ascii.closeCurly :: rest) = .ok (s, rest) := rfl

/-- A member is read, and then the others. -/
theorem scanMembers_cons {k : String} {v : Value} {cs front : Bytes} {fuel : Nat} (hcs : Ends cs)
    (h : ∀ rest, Ends rest → member k s (Ascii.colon :: (v.bytes ++ rest)) = .ok (s', rest))
    (hnext : nextKey first front = .ok (some k, Ascii.colon :: (v.bytes ++ cs))) :
    scanMembers member (fuel + 1) first s front = scanMembers member fuel false s' cs := by
  rw [scanMembers, hnext]
  change (member k s (Ascii.colon :: (v.bytes ++ cs)) >>= fun x =>
    scanMembers member fuel false x.1 x.2) = _
  rw [h cs hcs]
  rfl

theorem scanMembers_memberBytes (h : Reads member s ms s') {fuel : Nat} (hfuel : ms.length < fuel)
    (rest : Bytes) :
    scanMembers member fuel false s (memberBytes ms ++ rest) = .ok (s', rest) := by
  induction h generalizing fuel with
  | nil =>
    obtain ⟨fuel, rfl⟩ := Nat.exists_eq_succ_of_ne_zero (Nat.ne_zero_of_lt hfuel)
    rw [memberBytes_nil]
    exact scanMembers_close member fuel false _ rest
  | cons hmember _ ih =>
    obtain ⟨fuel, rfl⟩ := Nat.exists_eq_succ_of_ne_zero (Nat.ne_zero_of_lt hfuel)
    rw [memberBytes_cons, List.cons_append, List.append_assoc, List.cons_append, List.append_assoc,
      scanMembers_cons (ends_memberBytes _ _) hmember (nextKey_comma _ _)]
    exact ih (Nat.lt_of_succ_lt_succ hfuel)

theorem length_lt_memberBytes (ms : List (String × Value)) :
    ms.length < (memberBytes ms).length := by
  induction ms with
  | nil =>
    rw [memberBytes_nil]
    exact Nat.zero_lt_one
  | cons m ms ih =>
    rw [memberBytes_cons, List.length_cons, List.length_cons, List.length_append, List.length_cons,
      List.length_append]
    omega

/-- An object is its opening bracket and a text through which its members lead a reader. -/
theorem exists_bytes_object (h : Reads member s ms s') (rest : Bytes) :
    ∃ cs, (object ms).bytes ++ rest = Ascii.openCurly :: cs ∧
      scanMembers member (cs.length + 1) true s cs = .ok (s', rest) := by
  cases h with
  | nil =>
    rw [bytes_object_nil]
    exact ⟨_, rfl, scanMembers_close member _ true s rest⟩
  | cons hmember hmembers =>
    rename_i s₁ k v ms
    have hlength := length_lt_memberBytes ms
    refine ⟨keyBytes k ++ Ascii.colon :: (v.bytes ++ (memberBytes ms ++ rest)), ?_, ?_⟩
    · rw [bytes_object_cons, List.cons_append, List.append_assoc, List.cons_append,
        List.append_assoc]
    · rw [scanMembers_cons (ends_memberBytes _ _) hmember (nextKey_first _ _)]
      refine scanMembers_memberBytes hmembers ?_ rest
      simp only [List.length_append, List.length_cons]
      omega

end Members

end LedgerClient.Json
