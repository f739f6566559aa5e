import LedgerClient.Proofs.Wire.TextOrder
import Mathlib.Tactic.SplitIfs
/-!
# Offsets between characters

A text is cut at an offset in bytes.  `splitBytes?` cuts it where a character begins, and
`exists_splitBytes?_iff` says that it does so at the boundaries of its bytes: at both ends, and
before every byte that is no continuation byte.
-/

namespace LedgerClient.Utf8

/-- The offset is inside the bytes of a text or at their end, and no continuation byte follows. -/
def IsBoundary (bs : Bytes) (n : Nat) : Prop := n ≤ bs.length ∧ ∀ b ∈ bs[n]?, isTrail b = false

/-! ## Sizes -/

theorem size_cons (c : Char) (cs : List Char) : size (c :: cs) = width c + size cs := rfl

theorem encodeChars_cons (c : Char) (cs : List Char) :
    encodeChars (c :: cs) = encodeChar c ++ encodeChars cs := List.flatMap_cons

theorem size_eq_length (cs : List Char) : size cs = (encodeChars cs).length := by
  induction cs with
  | nil => rfl
  | cons c cs ih =>
    rw [size_cons, encodeChars_cons, List.length_append, ih, width]

/-- A character is a first byte that is no continuation byte, and continuation bytes. -/
theorem encodeChar_eq_cons (c : Char) :
    ∃ b bs, encodeChar c = b :: bs ∧ isTrail b = false ∧ ∀ t ∈ bs, isTrail t = true := by
  have hvalid := toNat_valid c
  have hlead : ∀ n < 256, n < 0x80 ∨ 0xBF < n → isTrail (UInt8.ofNat n) = false := by
    intro n hn hrange
    have h := toNat_ofNat hn
    rw [Bool.eq_false_iff, ne_eq, isTrail_iff]
    omega
  rw [encodeChar]
  split_ifs with h₁ h₂ h₃
  · exact ⟨_, _, rfl, hlead _ (by omega) (by omega), by simp⟩
  all_goals exact ⟨_, _, rfl, hlead _ (by omega) (by omega), by simp [isTrail_trail]⟩

theorem width_pos (c : Char) : 0 < width c := by
  obtain ⟨b, bs, h, -⟩ := encodeChar_eq_cons c
  rw [width, h]
  exact Nat.zero_lt_succ _

theorem length_le_size (cs : List Char) : cs.length ≤ size cs := by
  induction cs with
  | nil => exact Nat.le_refl _
  | cons c cs ih =>
    have hc := width_pos c
    rw [size_cons, List.length_cons]
    omega

/-- Behind the bytes of a text that begin those of another one lie the bytes of what remains. -/
theorem eq_append_of_encodeChars {cs front : List Char} {bs : Bytes}
    (h : encodeChars cs = encodeChars front ++ bs) :
    ∃ rest, cs = front ++ rest ∧ bs = encodeChars rest := by
  induction front generalizing cs with
  | nil => exact ⟨cs, rfl, h.symm⟩
  | cons c front ih =>
    rw [encodeChars_cons, List.append_assoc] at h
    obtain ⟨next, hread⟩ := decodeFrom_encodeChar 0 c (encodeChars front ++ bs)
    rw [← h, decodeFrom_encodeChars] at hread
    obtain ⟨tail, htail, rfl⟩ := map_cons_eq_ok hread.symm
    obtain ⟨rest, rfl, hbs⟩ := ih (encodeChars_of_decodeFrom htail)
    exact ⟨rest, rfl, hbs⟩

/-! ## Cuts -/

theorem splitBytes?_append (front rest : List Char) :
    splitBytes? (size front) (front ++ rest) = some (front, rest) := by
  induction front with
  | nil => rw [List.nil_append, size, List.foldr_nil, splitBytes?]
  | cons c front ih =>
    obtain ⟨n, hn⟩ := Nat.exists_eq_succ_of_ne_zero
      (show size (c :: front) ≠ 0 from fun h => absurd (length_le_size (c :: front)) (by simp [h]))
    have hsize := size_cons c front
    rw [hn] at hsize ⊢
    rw [List.cons_append, splitBytes?, if_pos (by omega),
      show n + 1 - width c = size front by omega, ih]
    rfl

theorem eq_append_of_splitBytes? {n : Nat} {cs front rest : List Char}
    (h : splitBytes? n cs = some (front, rest)) : cs = front ++ rest ∧ size front = n := by
  induction cs generalizing n front with
  | nil =>
    cases n with
    | zero =>
      rw [splitBytes?] at h
      cases h
      exact ⟨rfl, rfl⟩
    | succ n => cases h
  | cons c cs ih =>
    cases n with
    | zero =>
      rw [splitBytes?] at h
      cases h
      exact ⟨rfl, rfl⟩
    | succ n =>
      rw [splitBytes?] at h
      split at h
      · rename_i hwidth
        obtain ⟨⟨front', rest'⟩, hparts, heq⟩ := Option.map_eq_some_iff.1 h
        cases heq
        obtain ⟨rfl, hsize⟩ := ih hparts
        refine ⟨rfl, ?_⟩
        rw [size_cons, hsize]
        omega
      · cases h

/-- A text can be cut exactly at the boundaries of its bytes. -/
theorem exists_splitBytes?_iff {n : Nat} {cs : List Char} :
    (∃ parts, splitBytes? n cs = some parts) ↔ IsBoundary (encodeChars cs) n := by
  constructor
  · rintro ⟨⟨front, rest⟩, h⟩
    obtain ⟨rfl, rfl⟩ := eq_append_of_splitBytes? h
    rw [IsBoundary, encodeChars, List.flatMap_append, ← encodeChars, ← encodeChars, size_eq_length]
    refine ⟨by rw [List.length_append]; omega, fun b hb => ?_⟩
    rw [List.getElem?_append_right (Nat.le_refl _), Nat.sub_self] at hb
    cases rest with
    | nil => cases hb
    | cons c rest =>
      obtain ⟨lead, bs, hc, hlead, -⟩ := encodeChar_eq_cons c
      rw [encodeChars_cons, hc] at hb
      cases hb
      exact hlead
  · intro h
    induction cs generalizing n with
    | nil =>
      obtain rfl : n = 0 := Nat.le_zero.1 h.1
      exact ⟨_, rfl⟩
    | cons c cs ih =>
      obtain ⟨hle, hbyte⟩ := h
      rw [encodeChars_cons] at hle hbyte
      cases n with
      | zero => exact ⟨_, rfl⟩
      | succ n =>
        by_cases hwidth : width c ≤ n + 1
        · have hrest : IsBoundary (encodeChars cs) (n + 1 - width c) := by
            rw [List.length_append] at hle
            refine ⟨?_, fun b hb => hbyte b ?_⟩
            · rw [width] at hwidth ⊢
              omega
            · rw [List.getElem?_append_right hwidth]
              exact hb
          obtain ⟨parts, hparts⟩ := ih hrest
          exact ⟨(c :: parts.1, parts.2), by rw [splitBytes?, if_pos hwidth, hparts]; rfl⟩
        · -- inside a character only continuation bytes follow
          obtain ⟨lead, bs, hc, -, htrail⟩ := encodeChar_eq_cons c
          have hlt : n < bs.length := by
            rw [width, hc, List.length_cons] at hwidth
            omega
          have hget : (encodeChar c ++ encodeChars cs)[n + 1]? = some bs[n] := by
            rw [hc, List.cons_append, List.getElem?_cons_succ, List.getElem?_append_left hlt,
              List.getElem?_eq_getElem hlt]
          have hfalse := hbyte _ hget
          rw [htrail _ (List.getElem_mem hlt)] at hfalse
          cases hfalse

theorem isBoundary_size (front rest : List Char) :
    IsBoundary (encodeChars (front ++ rest)) (size front) :=
  exists_splitBytes?_iff.1 ⟨_, splitBytes?_append front rest⟩

end LedgerClient.Utf8
