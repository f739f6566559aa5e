import LedgerClient.Json.Scan
import LedgerClient.Json.Value
import LedgerClient.Proofs.Wire.Text
import Mathlib.Tactic.SplitIfs
/-!
# Reading strings back

* `scanContent_escape`: what is written for a character, an escape or its own bytes, is read as
  the bytes of the character.
* `scanString_quoted`: a string is read back, whatever characters it has.
-/

namespace LedgerClient.Json

variable {b : UInt8} {front : Bytes}

/-! ## Bytes that stand for themselves -/

def isPlain (b : UInt8) : Bool := 32 ≤ b && b != Ascii.quote && b != Ascii.backslash

theorem isPlain_of_toNat (h : 32 ≤ b.toNat) (hquote : b.toNat ≠ 34) (hbackslash : b.toNat ≠ 92) :
    isPlain b = true := by
  simp only [isPlain, Bool.and_eq_true, decide_eq_true_eq, bne_iff_ne, ne_eq, ← UInt8.toNat_inj,
    UInt8.le_iff_toNat_le]
  exact ⟨⟨h, hquote⟩, hbackslash⟩

theorem scanContent_plain (h : isPlain b = true) (rest : Bytes) :
    scanContent (b :: rest) = pushBytes [b] (scanContent rest) := by
  simp only [isPlain, Bool.and_eq_true, decide_eq_true_eq, bne_iff_ne, ne_eq] at h
  obtain ⟨⟨hlow, hquote⟩, hbackslash⟩ := h
  rw [scanContent]
  · exact if_neg (UInt8.not_lt.2 hlow)
  · exact fun h => hquote h
  · exact fun h => hbackslash h

theorem pushBytes_nil (r : Except Fault (Bytes × Bytes)) : pushBytes [] r = r := by
  cases r <;> rfl

theorem pushBytes_append (front back : Bytes) (r : Except Fault (Bytes × Bytes)) :
    pushBytes (front ++ back) r = pushBytes front (pushBytes back r) := by
  cases r with
  | ok x => exact congrArg (fun s => Except.ok (s, x.2)) (List.append_assoc _ _ _)
  | error e => rfl

theorem scanContent_append (h : ∀ b ∈ front, isPlain b = true) (rest : Bytes) :
    scanContent (front ++ rest) = pushBytes front (scanContent rest) := by
  induction front with
  | nil => exact (pushBytes_nil _).symm
  | cons b front ih =>
    rw [List.cons_append, scanContent_plain (h b List.mem_cons_self),
      ih fun b hb => h b (List.mem_cons_of_mem _ hb), ← pushBytes_append, List.singleton_append]

/-- A character that is no control character, quote or backslash stands for itself. -/
theorem isPlain_of_mem_encodeChar {c : Char} (h : 32 ≤ c.toNat) (hquote : c ≠ '"')
    (hbackslash : c ≠ '\\') : ∀ b ∈ Utf8.encodeChar c, isPlain b = true := by
  have hvalid := Utf8.toNat_valid c
  have hquote' : c.toNat ≠ 34 := fun hn => hquote (Char.toNat_inj.1 hn)
  have hbackslash' : c.toNat ≠ 92 := fun hn => hbackslash (Char.toNat_inj.1 hn)
  have hlead : ∀ n, 0x80 ≤ n → n < 256 → isPlain (UInt8.ofNat n) = true := fun n hlow hhigh => by
    have hn := Utf8.toNat_ofNat hhigh
    exact isPlain_of_toNat (by omega) (by omega) (by omega)
  have htrail : ∀ n, isPlain (Utf8.trail n) = true := fun n => hlead _ (by omega) (by omega)
  rw [Utf8.encodeChar]
  split_ifs with hone htwo hthree
  · have hn := Utf8.toNat_ofNat (show c.toNat < 256 by omega)
    intro b hb
    rw [List.mem_singleton.1 hb]
    exact isPlain_of_toNat (by omega) (by omega) (by omega)
  all_goals
    simp only [List.forall_mem_cons, List.not_mem_nil, false_imp_iff, implies_true, and_true,
      htrail]
    exact hlead _ (by omega) (by omega)

/-! ## Escapes -/

theorem scanContent_unit {a b c d : UInt8} {n : Nat} (h : hexUnit? a b c d = some n)
    (hn : n < 0xD800 ∨ 0xDFFF < n) (rest : Bytes) :
    scanContent (Ascii.backslash :: Ascii.u :: a :: b :: c :: d :: rest) =
      pushBytes (Utf8.encodeChar (Char.ofNat n)) (scanContent rest) := by
  have hlow : isLowSurrogate n = false := by
    simp only [isLowSurrogate, Bool.and_eq_false_iff, decide_eq_false_iff_not]
    omega
  have hhigh : isHighSurrogate n = false := by
    simp only [isHighSurrogate, Bool.and_eq_false_iff, decide_eq_false_iff_not]
    omega
  -- The marks in the form in which the reader's patterns have them.
  change scanContent (⟨92#8⟩ :: ⟨117#8⟩ :: a :: b :: c :: d :: rest) = _
  rw [scanContent.eq_def]
  simp only [h, hlow, hhigh, Bool.false_eq_true, if_false]

theorem hexUnit?_hexDigit {n : Nat} (h : n < 32) :
    hexUnit? 48 48 (UInt8.ofNat (Value.hexDigit (n / 16)).toNat)
      (UInt8.ofNat (Value.hexDigit (n % 16)).toNat) = some n := by
  revert n
  decide

theorem encodeChar_hexDigit {k : Nat} (h : k < 16) :
    Utf8.encodeChar (Value.hexDigit k) = [UInt8.ofNat (Value.hexDigit k).toNat] := by
  revert k
  decide

/-- What is written for a character is read as this character. -/
theorem scanContent_escape (c : Char) (rest : Bytes) :
    scanContent (Utf8.encodeChars (Value.escape c) ++ rest) =
      pushBytes (Utf8.encodeChar c) (scanContent rest) := by
  have hc : ∀ n, c.toNat = n → c = Char.ofNat n := fun n h => by rw [← h, Char.ofNat_toNat]
  rw [Value.escape]
  split_ifs with hquote hbackslash hnewline hreturn htab hbackspace hfeed hcontrol
  · subst hquote
    rfl
  · subst hbackslash
    rfl
  · subst hnewline
    rfl
  · subst hreturn
    rfl
  · subst htab
    rfl
  · rw [hc _ hbackspace]
    rfl
  · rw [hc _ hfeed]
    rfl
  · have hunit := scanContent_unit (hexUnit?_hexDigit hcontrol) (.inl (by omega)) rest
    rw [Char.ofNat_toNat] at hunit
    rw [← hunit]
    simp only [Utf8.encodeChars, List.flatMap_cons, List.flatMap_nil,
      encodeChar_hexDigit (show c.toNat / 16 < 16 by omega),
      encodeChar_hexDigit (show c.toNat % 16 < 16 by omega)]
    rfl
  · rw [Utf8.encodeChars, List.flatMap_singleton]
    exact scanContent_append
      (isPlain_of_mem_encodeChar (Nat.le_of_not_lt hcontrol) hquote hbackslash) rest

/-! ## Strings -/

theorem scanContent_escapes (cs : List Char) (rest : Bytes) :
    scanContent (Utf8.encodeChars (cs.flatMap Value.escape) ++ Ascii.quote :: rest) =
      .ok (Utf8.encodeChars cs, rest) := by
  induction cs with
  | nil => rfl
  | cons c cs ih =>
    rw [List.flatMap_cons, Utf8.encodeChars, List.flatMap_append, List.append_assoc]
    refine (scanContent_escape c _).trans ?_
    rw [← Utf8.encodeChars, ih]
    rfl

/-- A string is its escaped content between quotes. -/
theorem encodeChars_quoted (s : String) :
    Utf8.encodeChars (Value.quoted s) =
      Ascii.quote :: (Utf8.encodeChars (s.toList.flatMap Value.escape) ++ [Ascii.quote]) := by
  rw [Value.quoted, Utf8.encodeChars, List.flatMap_cons, List.flatMap_append]
  rfl

/-- A string is read back after its opening quote. -/
theorem scanString_quoted (s : String) (rest : Bytes) :
    scanString (Utf8.encodeChars (s.toList.flatMap Value.escape) ++ Ascii.quote :: rest) =
      .ok (s, rest) := by
  have hdecode : Utf8.decode (Utf8.encodeChars s.toList) = .ok s := Utf8.decode_encode s
  rw [scanString, scanContent_escapes]
  simp only [bind, Except.bind, hdecode]
  rfl

end LedgerClient.Json
