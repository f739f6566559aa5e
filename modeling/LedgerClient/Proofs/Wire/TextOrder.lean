import LedgerClient.Dict
import LedgerClient.Proofs.Wire.Text
import Mathlib.Tactic.SplitIfs
/-!
# One byte string for each text

* `encode_of_decode`: bytes that are read as a text are the bytes of this text, so overlong forms,
  surrogates and lone continuation bytes are no texts.
* `encode_lt_encode_iff`: texts are in the order of their bytes.
-/

namespace LedgerClient.Utf8

variable {a b c d : UInt8} {x y : Char}

/-! ## Reading is strict -/

theorem toNat_charOfNat {n : Nat} (h : n < 0xD800 ∨ 0xDFFF < n ∧ n < 0x110000) :
    (Char.ofNat n).toNat = n := by
  rw [Char.ofNat, dif_pos h]
  rfl

theorem eq_ofNat {n : Nat} (h : a.toNat = n) : UInt8.ofNat n = a := by
  rw [← h, UInt8.ofNat_toNat]

theorem eq_trail {n : Nat} (hb : isTrail b = true) (h : n % 64 = bits b) : trail n = b := by
  rw [isTrail_iff] at hb
  rw [bits] at h
  exact eq_ofNat (by omega)

theorem isTrail_of_followsThree (h : followsThree a b = true) : isTrail b = true ∧
    (a.toNat = 0xE0 → 0xA0 ≤ b.toNat) ∧ (a.toNat = 0xED → b.toNat ≤ 0x9F) := by
  simp only [followsThree, Bool.and_eq_true, Bool.or_eq_true, bne_iff_ne, decide_eq_true_eq,
    UInt8.le_iff_toNat_le, ne_eq, ← UInt8.toNat_inj] at h
  exact ⟨h.1.1, fun ha => h.1.2.resolve_left (not_not_intro ha),
    fun ha => h.2.resolve_left (not_not_intro ha)⟩

theorem isTrail_of_followsFour (h : followsFour a b = true) : isTrail b = true ∧
    (a.toNat = 0xF0 → 0x90 ≤ b.toNat) ∧ (a.toNat = 0xF4 → b.toNat ≤ 0x8F) := by
  simp only [followsFour, Bool.and_eq_true, Bool.or_eq_true, bne_iff_ne, decide_eq_true_eq,
    UInt8.le_iff_toNat_le, ne_eq, ← UInt8.toNat_inj] at h
  exact ⟨h.1.1, fun ha => h.1.2.resolve_left (not_not_intro ha),
    fun ha => h.2.resolve_left (not_not_intro ha)⟩

theorem encodeChar_one (ha : a.toNat < 0x80) : encodeChar (Char.ofNat a.toNat) = [a] := by
  have hn := toNat_charOfNat (n := a.toNat) (by omega)
  simp only [encodeChar, hn, if_pos ha, UInt8.ofNat_toNat]

theorem encodeChar_two (ha : 0xC2 ≤ a.toNat) (ha' : a.toNat < 0xE0) (hb : isTrail b = true) :
    encodeChar (Char.ofNat ((a.toNat - 0xC0) * 64 + bits b)) = [a, b] := by
  have hbits : bits b < 64 := Nat.mod_lt _ (by decide)
  have hn := toNat_charOfNat (n := (a.toNat - 0xC0) * 64 + bits b) (by omega)
  simp only [encodeChar, hn]
  rw [if_neg (by omega), if_pos (by omega), eq_ofNat (a := a) (by omega), eq_trail hb (by omega)]

theorem encodeChar_three (ha : 0xE0 ≤ a.toNat) (ha' : a.toNat < 0xF0)
    (hb : followsThree a b = true) (hc : isTrail c = true) :
    encodeChar (Char.ofNat ((a.toNat - 0xE0) * 4096 + bits b * 64 + bits c)) = [a, b, c] := by
  obtain ⟨htrail, hlow, hhigh⟩ := isTrail_of_followsThree hb
  have hrange := isTrail_iff.1 htrail
  have hb' : bits b = b.toNat - 0x80 := by
    rw [bits]
    omega
  have hc' : bits c < 64 := Nat.mod_lt _ (by decide)
  have hn := toNat_charOfNat (n := (a.toNat - 0xE0) * 4096 + bits b * 64 + bits c) (by omega)
  simp only [encodeChar, hn]
  rw [if_neg (by omega), if_neg (by omega), if_pos (by omega), eq_ofNat (a := a) (by omega),
    eq_trail htrail (by omega), eq_trail hc (by omega)]

theorem encodeChar_four (ha : 0xF0 ≤ a.toNat) (ha' : a.toNat < 0xF5)
    (hb : followsFour a b = true) (hc : isTrail c = true) (hd : isTrail d = true) :
    encodeChar (Char.ofNat ((a.toNat - 0xF0) * 262144 + bits b * 4096 + bits c * 64 + bits d)) =
      [a, b, c, d] := by
  obtain ⟨htrail, hlow, hhigh⟩ := isTrail_of_followsFour hb
  have hrange := isTrail_iff.1 htrail
  have hb' : bits b = b.toNat - 0x80 := by
    rw [bits]
    omega
  have hc' : bits c < 64 := Nat.mod_lt _ (by decide)
  have hd' : bits d < 64 := Nat.mod_lt _ (by decide)
  have hn := toNat_charOfNat
    (n := (a.toNat - 0xF0) * 262144 + bits b * 4096 + bits c * 64 + bits d) (by omega)
  simp only [encodeChar, hn]
  rw [if_neg (by omega), if_neg (by omega), if_neg (by omega), eq_ofNat (a := a) (by omega),
    eq_trail htrail (by omega), eq_trail hc (by omega), eq_trail hd (by omega)]

theorem map_cons_eq_ok {r : Except Fault (List Char)} {cs : List Char}
    (h : (x :: ·) <$> r = .ok cs) : ∃ tail, r = .ok tail ∧ cs = x :: tail := by
  cases r with
  | error e => cases h
  | ok tail =>
    cases h
    exact ⟨tail, rfl, rfl⟩

/-- The bytes of a text are the only ones that are read as this text. -/
theorem encodeChars_of_decodeFrom {index : Nat} {bs : Bytes} {cs : List Char}
    (h : decodeFrom index bs = .ok cs) : encodeChars cs = bs := by
  fun_induction decodeFrom index bs generalizing cs
  case case1 =>
    cases h
    rfl
  case case2 a rest ha ih =>
    obtain ⟨tail, htail, rfl⟩ := map_cons_eq_ok h
    have hchar := encodeChar_one (UInt8.lt_iff_toNat_lt.1 ha)
    rw [encodeChars, List.flatMap_cons, hchar, ← encodeChars, ih htail]
    rfl
  case case5 a _ ha ha' b rest hb ih =>
    obtain ⟨tail, htail, rfl⟩ := map_cons_eq_ok h
    have hchar := encodeChar_two (UInt8.le_iff_toNat_le.1 (UInt8.not_lt.1 ha))
      (UInt8.lt_iff_toNat_lt.1 ha') hb
    rw [encodeChars, List.flatMap_cons, hchar, ← encodeChars, ih htail]
    rfl
  case case11 a _ _ ha ha' b c rest hb hc ih =>
    obtain ⟨tail, htail, rfl⟩ := map_cons_eq_ok h
    have hchar := encodeChar_three (UInt8.le_iff_toNat_le.1 (UInt8.not_lt.1 ha))
      (UInt8.lt_iff_toNat_lt.1 ha') (by simpa using hb) (by simpa using hc)
    rw [encodeChars, List.flatMap_cons, hchar, ← encodeChars, ih htail]
    rfl
  case case18 a _ _ _ ha ha' b c d rest hb hc hd ih =>
    obtain ⟨tail, htail, rfl⟩ := map_cons_eq_ok h
    have hchar := encodeChar_four (UInt8.le_iff_toNat_le.1 (UInt8.not_lt.1 ha))
      (UInt8.lt_iff_toNat_lt.1 ha') (by simpa using hb) (by simpa using hc) (by simpa using hd)
    rw [encodeChars, List.flatMap_cons, hchar, ← encodeChars, ih htail]
    rfl
  all_goals cases h

theorem encode_of_decode {bs : Bytes} {s : String} (h : decode bs = .ok s) : encode s = bs := by
  rw [decode] at h
  cases hread : decodeFrom 0 bs with
  | error e =>
    rw [hread] at h
    cases h
  | ok cs =>
    rw [hread] at h
    cases h
    rw [encode, String.toList_ofList]
    exact encodeChars_of_decodeFrom hread

/-! ## Order -/

theorem ofNat_cons_lt {m n : Nat} {u v : Bytes} (hn : n < 256) (hle : m ≤ n) (h : m = n → u < v) :
    UInt8.ofNat m :: u < UInt8.ofNat n :: v := by
  rw [List.cons_lt_cons_iff, UInt8.lt_iff_toNat_lt, toNat_ofNat hn, toNat_ofNat (by omega)]
  rcases Nat.lt_or_eq_of_le hle with hlt | rfl
  · exact .inl hlt
  · exact .inr ⟨rfl, h rfl⟩

/-- A smaller character has smaller bytes, and the two differ before either ends. -/
theorem encodeChar_append_lt (h : x < y) (front back : Bytes) :
    encodeChar x ++ front < encodeChar y ++ back := by
  have hlt : x.toNat < y.toNat := UInt32.lt_iff_toNat_lt.1 (Char.lt_def.1 h)
  have hy := toNat_valid y
  simp only [encodeChar, trail]
  split_ifs
  any_goals omega
  all_goals refine ofNat_cons_lt (by omega) (by omega) fun hfirst => ?_
  -- The first bytes are the same only for two characters of one width, of more than one byte.
  any_goals omega
  · exact ofNat_cons_lt (by omega) (by omega) fun hsecond => by omega
  · refine ofNat_cons_lt (by omega) (by omega) fun hsecond => ?_
    exact ofNat_cons_lt (by omega) (by omega) fun hthird => by omega
  · refine ofNat_cons_lt (by omega) (by omega) fun hsecond => ?_
    refine ofNat_cons_lt (by omega) (by omega) fun hthird => ?_
    exact ofNat_cons_lt (by omega) (by omega) fun hfourth => by omega

theorem encodeChars_lt {cs ds : List Char} (h : cs < ds) : encodeChars cs < encodeChars ds := by
  induction ds generalizing cs with
  | nil => exact absurd h (List.not_lt_nil cs)
  | cons d ds ih =>
    cases cs with
    | nil =>
      obtain ⟨b, bs, hd⟩ : ∃ b bs, encodeChar d = b :: bs := by
        simp only [encodeChar]
        split_ifs
        all_goals exact ⟨_, _, rfl⟩
      rw [encodeChars, List.flatMap_nil, encodeChars, List.flatMap_cons, hd, List.cons_append]
      exact List.nil_lt_cons _ _
    | cons c cs =>
      rw [encodeChars, encodeChars, List.flatMap_cons, List.flatMap_cons]
      rcases List.cons_lt_cons_iff.1 h with hlt | ⟨rfl, hlt⟩
      · exact encodeChar_append_lt hlt _ _
      · exact List.append_left_lt (ih hlt)

/-- Texts are in the order of their bytes. -/
theorem encode_lt_encode_iff {s t : String} : encode s < encode t ↔ s < t := by
  have hmono {s t : String} (h : s < t) : encode s < encode t :=
    encodeChars_lt (show s.toList < t.toList from h)
  refine ⟨fun h => ?_, hmono⟩
  by_cases hlt : s < t
  · exact hlt
  by_cases heq : s = t
  · rw [heq] at h
    exact absurd h (List.lt_irrefl _)
  · exact absurd (hmono (Dict.lt_of_not_lt_of_ne hlt heq)) (List.lt_asymm h)

end LedgerClient.Utf8
