import LedgerClient.Text.Utf8
/-!
# Reading UTF-8 back

`decodeFrom_encodeChar`: the bytes of a character in front of others are read as that
character, whatever its width.  `decode_encode`: a text that is written is read back.
-/

namespace LedgerClient.Utf8

variable {a b c d : UInt8} {rest : Bytes}

/-! ## Bytes -/

theorem toNat_ofNat {n : Nat} (h : n < 256) : (UInt8.ofNat n).toNat = n :=
  UInt8.toNat_ofNat_of_lt' h

theorem not_lt_of_le (h : b.toNat ≤ a.toNat) : ¬a < b :=
  UInt8.not_lt.2 (UInt8.le_iff_toNat_le.2 h)

theorem toNat_trail (n : Nat) : (trail n).toNat = 0x80 + n % 64 :=
  toNat_ofNat (by omega)

theorem bits_trail (n : Nat) : bits (trail n) = n % 64 := by
  rw [bits, toNat_trail]
  omega

theorem isTrail_iff : isTrail b = true ↔ 0x80 ≤ b.toNat ∧ b.toNat ≤ 0xBF := by
  simp [isTrail, UInt8.le_iff_toNat_le]

theorem isTrail_trail (n : Nat) : isTrail (trail n) = true := by
  rw [isTrail_iff, toNat_trail]
  omega

theorem followsThree_of (hb : isTrail b = true) (hlow : a.toNat = 0xE0 → 0xA0 ≤ b.toNat)
    (hhigh : a.toNat = 0xED → b.toNat ≤ 0x9F) : followsThree a b = true := by
  simp only [followsThree, hb, Bool.true_and, Bool.and_eq_true, Bool.or_eq_true, bne_iff_ne,
    decide_eq_true_eq, UInt8.le_iff_toNat_le, ne_eq, ← UInt8.toNat_inj]
  exact ⟨Decidable.or_iff_not_imp_left.2 fun h => hlow (Decidable.not_not.1 h),
    Decidable.or_iff_not_imp_left.2 fun h => hhigh (Decidable.not_not.1 h)⟩

theorem followsFour_of (hb : isTrail b = true) (hlow : a.toNat = 0xF0 → 0x90 ≤ b.toNat)
    (hhigh : a.toNat = 0xF4 → b.toNat ≤ 0x8F) : followsFour a b = true := by
  simp only [followsFour, hb, Bool.true_and, Bool.and_eq_true, Bool.or_eq_true, bne_iff_ne,
    decide_eq_true_eq, UInt8.le_iff_toNat_le, ne_eq, ← UInt8.toNat_inj]
  exact ⟨Decidable.or_iff_not_imp_left.2 fun h => hlow (Decidable.not_not.1 h),
    Decidable.or_iff_not_imp_left.2 fun h => hhigh (Decidable.not_not.1 h)⟩

/-! ## Sequences -/

theorem decodeFrom_one (index : Nat) (rest : Bytes) (h : a.toNat < 0x80) :
    decodeFrom index (a :: rest) = (Char.ofNat a.toNat :: ·) <$> decodeFrom (index + 1) rest := by
  have h₁ : a < 0x80 := UInt8.lt_iff_toNat_lt.2 h
  rw [decodeFrom.eq_def]
  exact if_pos h₁

theorem decodeFrom_two (index : Nat) (rest : Bytes) (ha : 0xC2 ≤ a.toNat) (ha' : a.toNat < 0xE0)
    (hb : isTrail b = true) :
    decodeFrom index (a :: b :: rest) =
      (Char.ofNat ((a.toNat - 0xC0) * 64 + bits b) :: ·) <$> decodeFrom (index + 2) rest := by
  have h₁ : ¬a < 0x80 := not_lt_of_le (show 0x80 ≤ a.toNat by omega)
  have h₂ : ¬a < 0xC2 := not_lt_of_le (show 0xC2 ≤ a.toNat by omega)
  have h₃ : a < 0xE0 := UInt8.lt_iff_toNat_lt.2 ha'
  rw [decodeFrom, if_neg h₁, if_neg h₂, if_pos h₃, if_pos hb]

theorem decodeFrom_three (index : Nat) (rest : Bytes) (ha : 0xE0 ≤ a.toNat) (ha' : a.toNat < 0xF0)
    (hb : followsThree a b = true) (hc : isTrail c = true) :
    decodeFrom index (a :: b :: c :: rest) =
      (Char.ofNat ((a.toNat - 0xE0) * 4096 + bits b * 64 + bits c) :: ·) <$>
        decodeFrom (index + 3) rest := by
  have h₁ : ¬a < 0x80 := not_lt_of_le (show 0x80 ≤ a.toNat by omega)
  have h₂ : ¬a < 0xC2 := not_lt_of_le (show 0xC2 ≤ a.toNat by omega)
  have h₃ : ¬a < 0xE0 := not_lt_of_le (show 0xE0 ≤ a.toNat by omega)
  have h₄ : a < 0xF0 := UInt8.lt_iff_toNat_lt.2 ha'
  rw [decodeFrom, if_neg h₁, if_neg h₂, if_neg h₃, if_pos h₄]
  simp only [hb, hc, Bool.not_true, Bool.false_eq_true, if_false]

theorem decodeFrom_four (index : Nat) (rest : Bytes) (ha : 0xF0 ≤ a.toNat) (ha' : a.toNat < 0xF5)
    (hb : followsFour a b = true) (hc : isTrail c = true) (hd : isTrail d = true) :
    decodeFrom index (a :: b :: c :: d :: rest) =
      (Char.ofNat ((a.toNat - 0xF0) * 262144 + bits b * 4096 + bits c * 64 + bits d) :: ·) <$>
        decodeFrom (index + 4) rest := by
  have h₁ : ¬a < 0x80 := not_lt_of_le (show 0x80 ≤ a.toNat by omega)
  have h₂ : ¬a < 0xC2 := not_lt_of_le (show 0xC2 ≤ a.toNat by omega)
  have h₃ : ¬a < 0xE0 := not_lt_of_le (show 0xE0 ≤ a.toNat by omega)
  have h₄ : ¬a < 0xF0 := not_lt_of_le (show 0xF0 ≤ a.toNat by omega)
  have h₅ : a < 0xF5 := UInt8.lt_iff_toNat_lt.2 ha'
  rw [decodeFrom, if_neg h₁, if_neg h₂, if_neg h₃, if_neg h₄, if_pos h₅]
  simp only [hb, hc, hd, Bool.not_true, Bool.false_eq_true, if_false]

/-! ## Characters -/

/-- A character is no surrogate and lies below 0x110000. -/
theorem toNat_valid (x : Char) : x.toNat < 0xD800 ∨ 0xDFFF < x.toNat ∧ x.toNat < 0x110000 :=
  x.valid

theorem decodeFrom_encodeChar (index : Nat) (x : Char) (rest : Bytes) :
    ∃ next, decodeFrom index (encodeChar x ++ rest) = (x :: ·) <$> decodeFrom next rest := by
  have hvalid := toNat_valid x
  rw [encodeChar]
  -- The four widths are the four branches of the writer.
  by_cases h₁ : x.toNat < 0x80
  · have ha := toNat_ofNat (n := x.toNat) (by omega)
    refine ⟨index + 1, ?_⟩
    rw [if_pos h₁, List.singleton_append, decodeFrom_one index rest (by omega), ha,
      Char.ofNat_toNat]
  rw [if_neg h₁]
  by_cases h₂ : x.toNat < 0x800
  · have ha := toNat_ofNat (n := 0xC0 + x.toNat / 64) (by omega)
    refine ⟨index + 2, ?_⟩
    have hn : (0xC0 + x.toNat / 64 - 0xC0) * 64 + x.toNat % 64 = x.toNat := by omega
    rw [if_pos h₂]
    refine (decodeFrom_two index rest (by omega) (by omega) (isTrail_trail _)).trans ?_
    rw [ha, bits_trail, hn, Char.ofNat_toNat]
  rw [if_neg h₂]
  by_cases h₃ : x.toNat < 0x10000
  · have ha := toNat_ofNat (n := 0xE0 + x.toNat / 4096) (by omega)
    have hb := toNat_trail (x.toNat / 64)
    refine ⟨index + 3, ?_⟩
    have hn : (0xE0 + x.toNat / 4096 - 0xE0) * 4096 + x.toNat / 64 % 64 * 64 + x.toNat % 64 =
        x.toNat := by omega
    have hfollow : followsThree (UInt8.ofNat (0xE0 + x.toNat / 4096)) (trail (x.toNat / 64)) =
        true :=
      followsThree_of (isTrail_trail _) (by omega) (by omega)
    rw [if_pos h₃]
    refine (decodeFrom_three index rest (by omega) (by omega) hfollow (isTrail_trail _)).trans ?_
    rw [ha, bits_trail, bits_trail, hn, Char.ofNat_toNat]
  · have ha := toNat_ofNat (n := 0xF0 + x.toNat / 262144) (by omega)
    have hb := toNat_trail (x.toNat / 4096)
    refine ⟨index + 4, ?_⟩
    have hn : (0xF0 + x.toNat / 262144 - 0xF0) * 262144 + x.toNat / 4096 % 64 * 4096 +
        x.toNat / 64 % 64 * 64 + x.toNat % 64 = x.toNat := by omega
    have hfollow : followsFour (UInt8.ofNat (0xF0 + x.toNat / 262144)) (trail (x.toNat / 4096)) =
        true :=
      followsFour_of (isTrail_trail _) (by omega) (by omega)
    rw [if_neg h₃]
    refine (decodeFrom_four index rest (by omega) (by omega) hfollow (isTrail_trail _)
      (isTrail_trail _)).trans ?_
    rw [ha, bits_trail, bits_trail, bits_trail, hn, Char.ofNat_toNat]

theorem decodeFrom_encodeChars (index : Nat) (cs : List Char) :
    decodeFrom index (encodeChars cs) = .ok cs := by
  induction cs generalizing index with
  | nil => rfl
  | cons x cs ih =>
    obtain ⟨next, h⟩ := decodeFrom_encodeChar index x (encodeChars cs)
    rw [encodeChars, List.flatMap_cons]
    refine h.trans ?_
    rw [ih]
    rfl

/-- A text that is written is read back. -/
theorem decode_encode (s : String) : decode (encode s) = .ok s := by
  rw [decode, encode, decodeFrom_encodeChars]
  exact congrArg Except.ok String.ofList_toList

end LedgerClient.Utf8
