import LedgerClient.Json.Number
import LedgerClient.Json.Value
import LedgerClient.Text.Utf8
import Mathlib.Algebra.Group.Int.Defs
/-!
# Reading numerals back

* `Ends`: what may follow a value, the end of the text or a mark.
* `scanNumber_numeral`: an integer of 64 bits, signed or not, is read back before such a mark.
-/

namespace LedgerClient.Json

variable {n : Nat} {rest : Bytes}

/-- The text ends, or it goes on with a comma or a closing bracket. -/
def Ends : Bytes → Prop
  | [] => True
  | c :: _ => c = Ascii.comma ∨ c = Ascii.closeSquare ∨ c = Ascii.closeCurly

/-! ## Digits -/

/-- The decimal digits of a number. -/
def digits (n : Nat) : Bytes := Utf8.encodeChars (Nat.toDigits 10 n)

theorem encodeChar_digitChar (h : n < 10) :
    Utf8.encodeChar n.digitChar = [UInt8.ofNat (48 + n)] := by
  revert n
  decide

theorem digits_of_lt (h : n < 10) : digits n = [UInt8.ofNat (48 + n)] := by
  rw [digits, Nat.toDigits_of_lt_base h, Utf8.encodeChars, List.flatMap_singleton,
    encodeChar_digitChar h]

theorem digits_of_le (h : 10 ≤ n) : digits n = digits (n / 10) ++ [UInt8.ofNat (48 + n % 10)] := by
  rw [digits, Nat.toDigits_of_base_le (by decide) h, Utf8.encodeChars, List.flatMap_append,
    List.flatMap_singleton, encodeChar_digitChar (Nat.mod_lt n (by decide))]
  rfl

theorem isDigit_digit (h : n < 10) : isDigit (UInt8.ofNat (48 + n)) = true := by
  revert n
  decide

theorem digitValue_digit (h : n < 10) : digitValue (UInt8.ofNat (48 + n)) = n := by
  revert n
  decide

theorem isDigit_of_mem_digits (n : Nat) : ∀ b ∈ digits n, isDigit b = true := by
  induction n using Nat.strongRecOn with
  | ind n ih =>
    intro b hb
    rcases Nat.lt_or_ge n 10 with h | h
    · rw [digits_of_lt h, List.mem_singleton] at hb
      rw [hb]
      exact isDigit_digit h
    · rw [digits_of_le h, List.mem_append, List.mem_singleton] at hb
      rcases hb with hb | rfl
      · exact ih (n / 10) (by omega) b hb
      · exact isDigit_digit (Nat.mod_lt n (by decide))

/-- There is a first digit, and only for the number zero it is zero. -/
theorem digits_eq_cons (n : Nat) :
    ∃ b bs, digits n = b :: bs ∧ isDigit b = true ∧ (b = Ascii.zero → n = 0) := by
  induction n using Nat.strongRecOn with
  | ind n ih =>
    rcases Nat.lt_or_ge n 10 with h | h
    · refine ⟨_, _, digits_of_lt h, isDigit_digit h, fun hzero => ?_⟩
      rw [← digitValue_digit h, hzero]
      rfl
    · obtain ⟨b, bs, hdigits, hb, hzero⟩ := ih (n / 10) (by omega)
      refine ⟨b, bs ++ [UInt8.ofNat (48 + n % 10)], ?_, hb, fun heq => ?_⟩
      · rw [digits_of_le h, hdigits, List.cons_append]
      · exact absurd (hzero heq) (by omega)

theorem appendDigits_append {m k : Nat} {ds : Bytes} {d : UInt8} (h : appendDigits m ds = (k, []))
    (hk : k * 10 + digitValue d ≤ largestUnsigned) :
    appendDigits m (ds ++ [d]) = (k * 10 + digitValue d, []) := by
  induction ds generalizing m with
  | nil =>
    cases h
    rw [List.nil_append, appendDigits]
    exact if_pos hk
  | cons c ds ih =>
    rw [List.cons_append, appendDigits]
    rw [appendDigits] at h
    split at h
    · rename_i hle
      rw [if_pos hle]
      exact ih h
    · cases h

/-- The digits of a number of 64 bits give the number back. -/
theorem appendDigits_digits (h : n ≤ largestUnsigned) : appendDigits 0 (digits n) = (n, []) := by
  induction n using Nat.strongRecOn with
  | ind n ih =>
    rcases Nat.lt_or_ge n 10 with hn | hn
    · rw [digits_of_lt hn]
      have hnone : appendDigits 0 [] = (0, []) := rfl
      refine (appendDigits_append hnone ?_).trans ?_
      · rw [digitValue_digit hn, Nat.zero_mul, Nat.zero_add]
        exact h
      · rw [digitValue_digit hn, Nat.zero_mul, Nat.zero_add]
    · have hvalue := digitValue_digit (Nat.mod_lt n (show 0 < 10 by decide))
      have hdivide : n / 10 * 10 + n % 10 = n := by omega
      rw [digits_of_le hn]
      refine (appendDigits_append (ih (n / 10) (by omega) (by omega)) ?_).trans ?_
      · rw [hvalue, hdivide]
        exact h
      · rw [hvalue, hdivide]

/-! ## Numerals -/

theorem Ends.not_isDigit {c : UInt8} (h : Ends (c :: rest)) : ¬isDigit c = true := by
  rcases h with rfl | rfl | rfl <;> decide

theorem takeWhile_digits (h : Ends rest) (n : Nat) :
    (digits n ++ rest).takeWhile isDigit = digits n := by
  rw [List.takeWhile_append_of_pos (isDigit_of_mem_digits n)]
  cases rest with
  | nil => exact List.append_nil _
  | cons c rest =>
    rw [List.takeWhile_cons_of_neg h.not_isDigit, List.append_nil]

theorem dropWhile_digits (h : Ends rest) (n : Nat) :
    (digits n ++ rest).dropWhile isDigit = rest := by
  rw [List.dropWhile_append_of_pos (isDigit_of_mem_digits n)]
  cases rest with
  | nil => rfl
  | cons c rest =>
    rw [List.dropWhile_cons_of_neg h.not_isDigit]

theorem scanMagnitude_digits (h : Ends rest) (hn : n ≤ largestUnsigned) (negative : Bool) :
    scanMagnitude negative (digits n ++ rest) =
      if !negative then .ok (.integer n, rest)
      else if n = 0 || Nat.pow 2 63 < n then .ok (.fraction, rest)
      else .ok (.integer (-n), rest) := by
  obtain ⟨b, bs, hdigits, -, hzero⟩ := digits_eq_cons n
  rw [scanMagnitude]
  dsimp only
  rw [takeWhile_digits h, dropWhile_digits h]
  split
  · rename_i hnil
    rw [hnil] at hdigits
    cases hdigits
  · rename_i hmany
    -- A number of two digits or more does not start with zero.
    rw [hmany] at hdigits
    cases hdigits
    rw [hzero rfl] at hmany
    cases hmany
  · rw [appendDigits_digits hn]
    cases rest with
    | nil => rfl
    | cons c rest =>
      rcases h with rfl | rfl | rfl
      · rfl
      · rfl
      · rfl

theorem encodeChars_numeral (n : Int) :
    Utf8.encodeChars (Value.numeral n) =
      if n < 0 then Ascii.minus :: digits n.natAbs else digits n.natAbs := by
  rw [Value.numeral]
  split
  · rfl
  · rfl

/-- An integer that 64 bits hold, signed or not, is read back. -/
theorem scanNumber_numeral (h : Ends rest) {n : Int} (hlow : -2 ^ 63 ≤ n) (hhigh : n < 2 ^ 64) :
    scanNumber (Utf8.encodeChars (Value.numeral n) ++ rest) = .ok (.integer n, rest) := by
  have hn : n.natAbs ≤ largestUnsigned := by
    change n.natAbs ≤ 2 ^ 64 - 1
    omega
  rw [encodeChars_numeral]
  by_cases hneg : n < 0
  · have hsmall : ¬(n.natAbs = 0 || Nat.pow 2 63 < n.natAbs) = true := by
      rw [Bool.or_eq_true, decide_eq_true_eq, decide_eq_true_eq]
      change ¬(_ ∨ 2 ^ 63 < _)
      omega
    rw [if_pos hneg, List.cons_append]
    refine (scanMagnitude_digits h hn true).trans ?_
    refine (if_neg Bool.false_ne_true).trans ((if_neg hsmall).trans ?_)
    rw [Int.ofNat_natAbs_of_nonpos (Int.le_of_lt hneg), Int.neg_neg]
  · obtain ⟨b, bs, hdigits, hb, -⟩ := digits_eq_cons n.natAbs
    have hscan := scanMagnitude_digits h hn false
    rw [if_neg hneg, hdigits, List.cons_append, scanNumber]
    · rw [← List.cons_append, ← hdigits, hscan]
      refine (if_pos rfl).trans ?_
      rw [Int.natAbs_of_nonneg (Int.not_lt.1 hneg)]
    · intro cs heq
      rw [(List.cons.inj heq).1] at hb
      cases hb

end LedgerClient.Json
