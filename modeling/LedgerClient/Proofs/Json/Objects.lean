import LedgerClient.Proofs.Json.Spelling
import Mathlib.Data.List.TakeWhile
/-!
# Objects of strings

* `IsObject`: the texts of an object whose members are strings, with any spelling, any white space
  between the tokens and any repetition of keys.
* `fromJsonText_iff`: exactly these texts are read as a dictionary of strings, and of members with
  the same key the last one is kept.
-/

namespace LedgerClient.Json

open Value (encodeChars_append)

variable {bs rest : Bytes} {cs : List Char} {k v : String} {d d' : Dict String} {fuel : Nat}
  {first : Bool}

/-! ## Texts -/

def isWhite (c : Char) : Bool := c = ' ' || c = '\n' || c = '\t' || c = '\r'

/-- What may stand between tokens. -/
def White (w : List Char) : Prop := ∀ c ∈ w, isWhite c = true

/-- A string between quotes. -/
inductive IsString : List Char → String → Prop
  | mk {u : List Char} {s : String} : Spelling u s.toList → IsString ('"' :: (u ++ ['"'])) s

/-- A key and a value with a colon between them. -/
inductive IsMember : List Char → String × String → Prop
  | mk {w₀ key w₁ w₂ value : List Char} {k v : String} : White w₀ → IsString key k → White w₁ →
      White w₂ → IsString value v →
      IsMember (w₀ ++ (key ++ (w₁ ++ ':' :: (w₂ ++ value)))) (k, v)

/-- Members with commas between them. -/
inductive Members : List Char → List (String × String) → Prop
  | last {t w : List Char} {e : String × String} : IsMember t e → White w → Members (t ++ w) [e]
  | more {t w ts : List Char} {e : String × String} {es : List (String × String)} :
      IsMember t e → White w → Members ts es → Members (t ++ (w ++ ',' :: ts)) (e :: es)

/-- A whole text: an object whose members are these strings, in this order. -/
inductive IsObject : List Char → List (String × String) → Prop
  | empty {w₀ w₁ w₂ : List Char} : White w₀ → White w₁ → White w₂ →
      IsObject (w₀ ++ '{' :: (w₁ ++ '}' :: w₂)) []
  | members {w₀ body w₂ : List Char} {es : List (String × String)} : White w₀ → Members body es →
      White w₂ → IsObject (w₀ ++ '{' :: (body ++ '}' :: w₂)) es

/-- An object with one member, written without white space. -/
theorem isObject_single {u u' : List Char} (hkey : Spelling u k.toList)
    (hvalue : Spelling u' v.toList)
    (hcs : cs = '{' :: '"' :: (u ++ '"' :: ':' :: '"' :: (u' ++ ['"', '}']))) :
    IsObject cs [(k, v)] := by
  have hwhite : White [] := fun c hc => nomatch hc
  have hmember := IsMember.mk hwhite (.mk hkey) hwhite hwhite (.mk hvalue)
  have hobject := IsObject.members hwhite (.last hmember hwhite) hwhite
  simpa [hcs] using hobject

/-! ## Tokens -/

/-- A text whose first byte is that of a character begins with this character. -/
theorem eq_cons_of_encodeChars {c : Char} {b : UInt8} (hc : Utf8.encodeChar c = [b])
    (h : Utf8.encodeChars cs = b :: bs) : ∃ cs', cs = c :: cs' ∧ bs = Utf8.encodeChars cs' := by
  refine Utf8.eq_append_of_encodeChars (show _ = Utf8.encodeChars [c] ++ bs from ?_)
  rw [h, Utf8.encodeChars, List.flatMap_singleton, hc]
  rfl

theorem isWhite_of_isSpace {c : Char} {b : UInt8} (hb : Utf8.encodeChar c = b :: bs)
    (hspace : isSpace b = true) : isWhite c = true := by
  have hcs : Utf8.encodeChars [c] = b :: bs := by rw [Utf8.encodeChars, List.flatMap_singleton, hb]
  have hwhite : ∀ w : Char, isWhite w = true → Utf8.encodeChar w = [b] → isWhite c = true := by
    intro w hw hwb
    obtain ⟨cs', heq, -⟩ := eq_cons_of_encodeChars hwb hcs
    rwa [(List.cons.inj heq).1]
  simp only [isSpace, Bool.or_eq_true, decide_eq_true_eq] at hspace
  rcases hspace with ((rfl | rfl) | rfl) | rfl
  · exact hwhite ' ' rfl rfl
  · exact hwhite '\n' rfl rfl
  · exact hwhite '\t' rfl rfl
  · exact hwhite '\r' rfl rfl

theorem skipSpace_encodeChars (cs : List Char) :
    skipSpace (Utf8.encodeChars cs) = Utf8.encodeChars (cs.dropWhile isWhite) := by
  induction cs with
  | nil => rfl
  | cons c cs ih =>
    by_cases hc : isWhite c = true
    · rw [List.dropWhile_cons_of_pos hc, ← ih]
      simp only [isWhite, Bool.or_eq_true, decide_eq_true_eq] at hc
      rcases hc with ((rfl | rfl) | rfl) | rfl <;> rfl
    · obtain ⟨b, bs, hb, -⟩ := Utf8.encodeChar_eq_cons c
      rw [List.dropWhile_cons_of_neg hc, Utf8.encodeChars_cons, hb, List.cons_append]
      exact skipSpace_cons (Bool.eq_false_iff.2 fun hspace => hc (isWhite_of_isSpace hb hspace)) _

/-- After white space stands this character, which is written as this byte. -/
theorem skipSpace_iff {c : Char} {b : UInt8} (hc : Utf8.encodeChar c = [b])
    (hspace : isWhite c = false) : skipSpace (Utf8.encodeChars cs) = b :: bs ↔
      ∃ w cs', White w ∧ cs = w ++ c :: cs' ∧ bs = Utf8.encodeChars cs' := by
  rw [skipSpace_encodeChars]
  constructor
  · intro h
    obtain ⟨cs', hdrop, hbs⟩ := eq_cons_of_encodeChars hc h
    refine ⟨cs.takeWhile isWhite, cs', fun c hc => List.mem_takeWhile_imp hc, ?_, hbs⟩
    rw [← hdrop, List.takeWhile_append_dropWhile]
  · rintro ⟨w, cs', hw, rfl, rfl⟩
    rw [List.dropWhile_append_of_pos hw,
      List.dropWhile_cons_of_neg (by rw [hspace]; exact Bool.false_ne_true),
      Utf8.encodeChars_cons, hc]
    rfl

theorem scanColon_ok_iff : scanColon bs = .ok rest ↔ skipSpace bs = Ascii.colon :: rest := by
  rw [scanColon]
  constructor
  · intro h
    split at h
    · cases h
    · rename_i heq
      cases h
      exact heq
    · cases h
  · intro h
    rw [h]
    rfl

theorem scanText_ok_iff : scanText bs = .ok (v, rest) ↔
    ∃ r, skipSpace bs = Ascii.quote :: r ∧ scanString r = .ok (v, rest) := by
  rw [scanText]
  constructor
  · intro h
    split at h
    · rename_i r heq
      exact ⟨r, heq, h⟩
    · cases h
  · rintro ⟨r, heq, h⟩
    rw [heq]
    exact h

theorem nextKey_none_iff :
    nextKey first bs = .ok (none, rest) ↔ skipSpace bs = Ascii.closeCurly :: rest := by
  rw [nextKey]
  constructor
  · intro h
    dsimp only at h
    split at h
    · cases h
    · rename_i heq
      cases h
      exact heq
    · split at h
      · split at h
        · cases h
        · obtain ⟨x, -, h⟩ := except_bind_ok.1 h
          cases h
        · cases h
      · split at h
        · split at h
          · cases h
          · obtain ⟨x, -, h⟩ := except_bind_ok.1 h
            cases h
          · cases h
        · cases h
  · intro h
    rw [h]
    rfl

theorem nextKey_some_iff : nextKey true bs = .ok (some k, rest) ↔
    ∃ r, skipSpace bs = Ascii.quote :: r ∧ scanString r = .ok (k, rest) := by
  rw [nextKey]
  constructor
  · intro h
    dsimp only at h
    split at h
    · cases h
    · cases h
    · rename_i c r hclose heq
      rw [if_pos rfl] at h
      split at h
      · cases h
      · rename_i r' heq'
        obtain ⟨x, hx, h⟩ := except_bind_ok.1 h
        cases h
        exact ⟨r', heq.trans heq', hx⟩
      · cases h
  · rintro ⟨r, heq, h⟩
    rw [heq]
    exact except_bind_ok.2 ⟨(k, rest), h, rfl⟩

/-- Before each member but the first one stands a comma. -/
theorem nextKey_comma_iff : nextKey false bs = .ok (some k, rest) ↔
    ∃ r, skipSpace bs = Ascii.comma :: r ∧ nextKey true r = .ok (some k, rest) := by
  simp only [nextKey_some_iff]
  rw [nextKey]
  constructor
  · intro h
    dsimp only at h
    split at h
    · cases h
    · cases h
    · rename_i c r hclose heq
      rw [if_neg Bool.false_ne_true] at h
      split at h
      · rename_i hcomma
        subst hcomma
        split at h
        · cases h
        · rename_i r' heq'
          obtain ⟨x, hx, h⟩ := except_bind_ok.1 h
          cases h
          exact ⟨r, heq, r', heq', hx⟩
        · cases h
      · cases h
  · rintro ⟨r, heq, r', heq', h⟩
    rw [heq]
    split
    · rename_i hnil
      cases hnil
    · rename_i hclose
      cases hclose
    · rename_i hcomma
      cases hcomma
      rw [if_neg Bool.false_ne_true, if_pos rfl, heq']
      exact except_bind_ok.2 ⟨(k, rest), h, rfl⟩

/-! ## Members -/

theorem isString_iff : (∃ r, skipSpace (Utf8.encodeChars cs) = Ascii.quote :: r ∧
    scanString r = .ok (v, rest)) ↔
      ∃ w t cs', White w ∧ IsString t v ∧ cs = w ++ (t ++ cs') ∧ rest = Utf8.encodeChars cs' := by
  have hquote : Utf8.encodeChar '"' = [Ascii.quote] := rfl
  constructor
  · rintro ⟨r, hskip, hscan⟩
    obtain ⟨w, cs', hw, rfl, rfl⟩ := (skipSpace_iff hquote rfl).1 hskip
    obtain ⟨u, cs'', rfl, hspelling, rfl⟩ := scanString_iff.1 hscan
    exact ⟨w, _, cs'', hw, .mk hspelling, by simp, rfl⟩
  · rintro ⟨w, t, cs', hw, ht, rfl, rfl⟩
    cases ht with
    | @mk u s hspelling =>
      refine ⟨_, (skipSpace_iff hquote rfl).2 ⟨w, u ++ '"' :: cs', hw, by simp, rfl⟩, ?_⟩
      exact scanString_iff.2 ⟨u, cs', rfl, hspelling, rfl⟩

theorem scanEntry_ok_iff : scanEntry scanText k d bs = .ok (d', rest) ↔
    ∃ r v, skipSpace bs = Ascii.colon :: r ∧ scanText r = .ok (v, rest) ∧ d' = d.insert k v := by
  constructor
  · intro h
    obtain ⟨r, hcolon, h⟩ := except_bind_ok.1 h
    obtain ⟨x, htext, h⟩ := except_bind_ok.1 h
    cases h
    exact ⟨r, x.1, scanColon_ok_iff.1 hcolon, htext, rfl⟩
  · rintro ⟨r, v, hcolon, htext, rfl⟩
    exact except_bind_ok.2 ⟨r, scanColon_ok_iff.2 hcolon, except_bind_ok.2 ⟨_, htext, rfl⟩⟩

/-- A key and what is read behind it are a member. -/
theorem isMember_iff : (∃ r, nextKey true (Utf8.encodeChars cs) = .ok (some k, r) ∧
    scanEntry scanText k d r = .ok (d', rest)) ↔
      ∃ t v cs', IsMember t (k, v) ∧ cs = t ++ cs' ∧ d' = d.insert k v ∧
        rest = Utf8.encodeChars cs' := by
  have hcolon : Utf8.encodeChar ':' = [Ascii.colon] := rfl
  simp only [nextKey_some_iff, isString_iff, scanEntry_ok_iff, scanText_ok_iff]
  constructor
  · rintro ⟨_, ⟨w₀, key, cs₁, hw₀, hkey, rfl, rfl⟩, r, v, hskip, htext, rfl⟩
    obtain ⟨w₁, cs₂, hw₁, rfl, rfl⟩ := (skipSpace_iff hcolon rfl).1 hskip
    obtain ⟨w₂, value, cs₃, hw₂, hvalue, rfl, rfl⟩ := isString_iff.1 htext
    exact ⟨_, v, cs₃, .mk hw₀ hkey hw₁ hw₂ hvalue, by simp, rfl, rfl⟩
  · rintro ⟨t, v, cs', ht, rfl, rfl, rfl⟩
    cases ht with
    | @mk w₀ key w₁ w₂ value _ _ hw₀ hkey hw₁ hw₂ hvalue =>
      exact ⟨_, ⟨w₀, key, w₁ ++ ':' :: (w₂ ++ (value ++ cs')), hw₀, hkey, by simp, rfl⟩, _, v,
        (skipSpace_iff hcolon rfl).2 ⟨w₁, _, hw₁, rfl, rfl⟩,
        isString_iff.2 ⟨w₂, value, cs', hw₂, hvalue, rfl, rfl⟩, rfl⟩

/-- The reader of members stops at the closing bracket, or reads a member and goes on. -/
theorem scanMembers_ok_iff : scanMembers (scanEntry scanText) (fuel + 1) first d bs =
    .ok (d', rest) ↔
      (skipSpace bs = Ascii.closeCurly :: rest ∧ d' = d) ∨
      ∃ k r m rest', nextKey first bs = .ok (some k, r) ∧
        scanEntry scanText k d r = .ok (m, rest') ∧
        scanMembers (scanEntry scanText) fuel false m rest' = .ok (d', rest) := by
  rw [scanMembers, except_bind_ok]
  constructor
  · rintro ⟨⟨k?, r⟩, hkey, h⟩
    cases k? with
    | none =>
      cases h
      exact .inl ⟨nextKey_none_iff.1 hkey, rfl⟩
    | some k =>
      obtain ⟨⟨m, rest'⟩, hentry, h⟩ := except_bind_ok.1 h
      exact .inr ⟨k, r, m, rest', hkey, hentry, h⟩
  · rintro (⟨hclose, rfl⟩ | ⟨k, r, m, rest', hkey, hentry, h⟩)
    · exact ⟨_, nextKey_none_iff.2 hclose, rfl⟩
    · exact ⟨_, hkey, except_bind_ok.2 ⟨_, hentry, h⟩⟩

/-- Behind a comma members are read as they are at the beginning. -/
theorem scanMembers_comma {r : Bytes} (hcomma : skipSpace bs = Ascii.comma :: r)
    (hkey : ∃ k r', nextKey true r = .ok (some k, r')) :
    scanMembers (scanEntry scanText) (fuel + 1) false d bs =
      scanMembers (scanEntry scanText) (fuel + 1) true d r := by
  obtain ⟨k, r', hkey⟩ := hkey
  rw [scanMembers, scanMembers, nextKey_comma_iff.2 ⟨r, hcomma, hkey⟩, hkey]

theorem Members.length_le {body : List Char} {es : List (String × String)} (h : Members body es) :
    es.length ≤ body.length := by
  have hmember : ∀ {t : List Char} {e : String × String}, IsMember t e → 0 < t.length := by
    rintro t e ⟨⟩
    simp only [List.length_append, List.length_cons]
    omega
  induction h with
  | last ht _ =>
    have hpos := hmember ht
    rw [List.length_singleton, List.length_append]
    omega
  | more ht _ _ ih =>
    simp only [List.length_append, List.length_cons]
    omega

theorem Members.nextKey {body : List Char} {es : List (String × String)} (h : Members body es)
    (cs : List Char) :
    ∃ k r, nextKey true (Utf8.encodeChars (body ++ cs)) = .ok (some k, r) := by
  have hmember : ∀ {t : List Char} {e : String × String} (cs : List Char), IsMember t e →
      ∃ k r, Json.nextKey true (Utf8.encodeChars (t ++ cs)) = .ok (some k, r) := by
    intro t e cs ht
    obtain ⟨r, hkey, -⟩ := isMember_iff.2 ⟨t, e.2, cs, ht, rfl, (rfl : Dict.empty.insert e.1 _ = _),
      rfl⟩
    exact ⟨e.1, r, hkey⟩
  cases h with
  | last ht _ =>
    rw [List.append_assoc]
    exact hmember _ ht
  | more ht _ _ =>
    rw [List.append_assoc]
    exact hmember _ ht

/-- Members are put into the dictionary one after the other. -/
theorem scanMembers_members {body : List Char} {es : List (String × String)}
    (h : Members body es) (hfuel : es.length < fuel) (cs : List Char) :
    scanMembers (scanEntry scanText) fuel true d (Utf8.encodeChars (body ++ '}' :: cs)) =
      .ok (es.foldl (fun d e => d.insert e.1 e.2) d, Utf8.encodeChars cs) := by
  have hclose : Utf8.encodeChar '}' = [Ascii.closeCurly] := rfl
  have hcomma : Utf8.encodeChar ',' = [Ascii.comma] := rfl
  induction h generalizing d fuel with
  | @last t w e ht hw =>
    obtain ⟨fuel, rfl⟩ : ∃ f, fuel = f + 2 := ⟨fuel - 2, by
      rw [List.length_singleton] at hfuel
      omega⟩
    obtain ⟨r, hkey, hentry⟩ := isMember_iff.2 ⟨t, e.2, w ++ '}' :: cs, ht, rfl,
      (rfl : d.insert e.1 _ = _), rfl⟩
    rw [List.append_assoc]
    refine scanMembers_ok_iff.2 (.inr ⟨e.1, r, _, _, hkey, hentry, scanMembers_ok_iff.2 (.inl
      ⟨(skipSpace_iff hclose rfl).2 ⟨w, cs, hw, rfl, rfl⟩, rfl⟩)⟩)
  | @more t w ts e es ht hw hts ih =>
    obtain ⟨fuel, rfl⟩ : ∃ f, fuel = f + 2 := ⟨fuel - 2, by
      rw [List.length_cons] at hfuel
      omega⟩
    obtain ⟨r, hkey, hentry⟩ := isMember_iff.2 ⟨t, e.2, w ++ ',' :: (ts ++ '}' :: cs), ht, rfl,
      (rfl : d.insert e.1 _ = _), rfl⟩
    rw [List.append_assoc, List.append_assoc, List.cons_append]
    refine scanMembers_ok_iff.2 (.inr ⟨e.1, r, _, _, hkey, hentry, ?_⟩)
    rw [scanMembers_comma ((skipSpace_iff hcomma rfl).2 ⟨w, _, hw, rfl, rfl⟩) (hts.nextKey _)]
    exact ih (by rw [List.length_cons] at hfuel; omega)

/-- What is read up to the closing bracket, if there is a key, are members. -/
theorem members_of_scanMembers {r : Bytes}
    (hkey : nextKey true (Utf8.encodeChars cs) = .ok (some k, r))
    (h : scanMembers (scanEntry scanText) fuel true d (Utf8.encodeChars cs) = .ok (d', rest)) :
    ∃ body es cs', Members body es ∧ cs = body ++ '}' :: cs' ∧
      d' = es.foldl (fun d e => d.insert e.1 e.2) d ∧ rest = Utf8.encodeChars cs' := by
  have hclose : Utf8.encodeChar '}' = [Ascii.closeCurly] := rfl
  have hcomma : Utf8.encodeChar ',' = [Ascii.comma] := rfl
  induction fuel generalizing cs d k r with
  | zero => cases h
  | succ fuel ih =>
    obtain ⟨hend, -⟩ | ⟨k, r, m, rest', hkey, hentry, hmore⟩ := scanMembers_ok_iff.1 h
    · cases hkey.symm.trans (nextKey_none_iff.2 hend)
    obtain ⟨t, v, cs₁, ht, rfl, rfl, rfl⟩ := isMember_iff.1 ⟨r, hkey, hentry⟩
    cases fuel with
    | zero => cases hmore
    | succ fuel =>
      obtain ⟨hend, rfl⟩ | ⟨k₂, r₂, m, rest', hkey₂, -, -⟩ := scanMembers_ok_iff.1 hmore
      · obtain ⟨w, cs', hw, rfl, rfl⟩ := (skipSpace_iff hclose rfl).1 hend
        exact ⟨_, [(k, v)], cs', .last ht hw, by simp, rfl, rfl⟩
      · obtain ⟨r₃, hskip, hkey₃⟩ := nextKey_comma_iff.1 hkey₂
        rw [scanMembers_comma hskip ⟨k₂, r₂, hkey₃⟩] at hmore
        obtain ⟨w, cs₂, hw, rfl, rfl⟩ := (skipSpace_iff hcomma rfl).1 hskip
        obtain ⟨body, es, cs', hbody, rfl, rfl, rfl⟩ := ih hkey₃ hmore
        exact ⟨_, (k, v) :: es, cs', .more ht hw hbody, by simp, rfl, rfl⟩

/-! ## Objects -/

theorem isEmpty_skipSpace_iff :
    (skipSpace (Utf8.encodeChars cs)).isEmpty = true ↔ White cs := by
  rw [List.isEmpty_iff, skipSpace_encodeChars, White, ← List.dropWhile_eq_nil_iff]
  constructor
  · intro h
    have hsize := Utf8.size_eq_length (cs.dropWhile isWhite)
    have hlength := Utf8.length_le_size (cs.dropWhile isWhite)
    rw [hsize, h] at hlength
    exact List.length_eq_zero_iff.1 (Nat.le_zero.1 hlength)
  · intro h
    rw [h]
    rfl

theorem scanDict_ok_iff : scanDict scanText bs = .ok (d, rest) ↔
    ∃ r, skipSpace bs = Ascii.openCurly :: r ∧
      scanMembers (scanEntry scanText) (r.length + 1) true .empty r = .ok (d, rest) := by
  rw [scanDict]
  constructor
  · intro h
    split at h
    · rename_i r heq
      exact ⟨r, heq, h⟩
    · cases h
  · rintro ⟨r, heq, h⟩
    rw [heq]
    exact h

theorem scanAll_ok_iff {α : Type} {value : Scan α} {a : α} :
    scanAll value bs = .ok a ↔
      ∃ rest, value bs = .ok (a, rest) ∧ (skipSpace rest).isEmpty = true := by
  rw [scanAll, except_bind_ok]
  constructor
  · rintro ⟨⟨a', rest⟩, hvalue, h⟩
    dsimp only at h
    split at h
    · rename_i hempty
      cases h
      exact ⟨rest, hvalue, hempty⟩
    · cases h
  · rintro ⟨rest, hvalue, hempty⟩
    refine ⟨_, hvalue, ?_⟩
    dsimp only
    rw [if_pos hempty]
    rfl

theorem fromJsonText_eq (text : String) : fromJsonText (Dict String) text =
    scanAll (scanDict scanText) (Utf8.encodeChars text.toList) := by
  have hscan : (schema (Dict String)).scan = scanDict scanText := by
    funext cs
    exact Schema.scan.eq_def (.dict .text) cs
  rw [fromJsonText, fromJson, hscan, Utf8.encode]
  generalize Utf8.encodeChars text.toList = bs
  change (fun d : Dict String => d.map fun a => a) <$> scanAll (scanDict scanText) bs = _
  cases scanAll (scanDict scanText) bs with
  | error e => rfl
  | ok d => exact congrArg Except.ok (Dict.map_id_of (fun _ => rfl) d)

/-- Exactly the texts of objects of strings are read as dictionaries of strings. -/
theorem fromJsonText_iff {text : String} :
    fromJsonText (Dict String) text = .ok d ↔ ∃ es, IsObject text.toList es ∧ d = .ofList es := by
  have hopen : Utf8.encodeChar '{' = [Ascii.openCurly] := rfl
  have hclose : Utf8.encodeChar '}' = [Ascii.closeCurly] := rfl
  rw [fromJsonText_eq, scanAll_ok_iff]
  constructor
  · rintro ⟨rest, hdict, hend⟩
    obtain ⟨r, hskip, hmembers⟩ := scanDict_ok_iff.1 hdict
    obtain ⟨w₀, cs, hw₀, htext, rfl⟩ := (skipSpace_iff hopen rfl).1 hskip
    rw [htext]
    rcases scanMembers_ok_iff.1 hmembers with ⟨hclosed, rfl⟩ | ⟨k, r, m, rest', hkey, -, -⟩
    · obtain ⟨w₁, w₂, hw₁, rfl, rfl⟩ := (skipSpace_iff hclose rfl).1 hclosed
      exact ⟨[], .empty hw₀ hw₁ (isEmpty_skipSpace_iff.1 hend), rfl⟩
    · obtain ⟨body, es, w₂, hbody, rfl, rfl, rfl⟩ := members_of_scanMembers hkey hmembers
      exact ⟨es, .members hw₀ hbody (isEmpty_skipSpace_iff.1 hend), rfl⟩
  · rintro ⟨es, hobject, rfl⟩
    generalize text.toList = cs at hobject
    cases hobject with
    | @empty w₀ w₁ w₂ hw₀ hw₁ hw₂ =>
      exact ⟨_, scanDict_ok_iff.2 ⟨_, (skipSpace_iff hopen rfl).2 ⟨w₀, _, hw₀, rfl, rfl⟩,
        scanMembers_ok_iff.2 (.inl ⟨(skipSpace_iff hclose rfl).2 ⟨w₁, w₂, hw₁, rfl, rfl⟩, rfl⟩)⟩,
        isEmpty_skipSpace_iff.2 hw₂⟩
    | @members w₀ body w₂ es hw₀ hbody hw₂ =>
      have hfuel : es.length < (Utf8.encodeChars (body ++ '}' :: w₂)).length + 1 := by
        have hes := hbody.length_le
        have hsize := Utf8.length_le_size (body ++ '}' :: w₂)
        rw [Utf8.size_eq_length, List.length_append] at hsize
        omega
      exact ⟨_, scanDict_ok_iff.2 ⟨_, (skipSpace_iff hopen rfl).2 ⟨w₀, _, hw₀, rfl, rfl⟩,
        scanMembers_members hbody hfuel w₂⟩, isEmpty_skipSpace_iff.2 hw₂⟩

end LedgerClient.Json
