import LedgerClient.Proofs.Json.Brackets
import LedgerClient.Proofs.Wire.Boundaries
import LedgerClient.Proofs.Wire.RoundTrip
/-!
# The spellings of a string

A character of a string stands for itself, or is written as an escape: by a letter, or by its number
in one unit of four hexadecimal digits or as two of them that are a surrogate pair.

* `Spells`: what may be written for a character; `Spelling`: for a string.
* `scanString_iff`: the reader of strings takes exactly the spellings off a text.
-/

namespace LedgerClient.Json

open Value (encodeChars_append)

variable {bs content rest : Bytes} {n : Nat}

/-! ## Spellings -/

/-- A digit of either case and its value. -/
def HexDigit (c : Char) (n : Nat) : Prop :=
  "0123456789abcdef".toList[n]? = some c ∨ "0123456789ABCDEF".toList[n]? = some c

/-- Four digits, the highest first. -/
inductive FourDigits : List Char → Nat → Prop
  | mk {a b c d : Char} {k l m n : Nat} : HexDigit a k → HexDigit b l → HexDigit c m →
      HexDigit d n → FourDigits [a, b, c, d] (((k * 16 + l) * 16 + m) * 16 + n)

/-- The letters of the short escapes and what they stand for. -/
def shortEscapes : List (Char × Char) :=
  [('"', '"'), ('\\', '\\'), ('/', '/'), ('b', '\x08'), ('f', '\x0c'), ('n', '\n'), ('r', '\r'),
    ('t', '\t')]

/-- Whether a character may stand for itself. -/
def isUnescaped (c : Char) : Bool := 0x20 ≤ c.toNat && c != '"' && c != '\\'

/-- What may be written for a character between the quotes. -/
inductive Spells : List Char → Char → Prop
  | plain {c : Char} : isUnescaped c = true → Spells [c] c
  | short {e c : Char} : (e, c) ∈ shortEscapes → Spells ['\\', e] c
  | unit {u : List Char} {c : Char} : FourDigits u c.toNat → Spells ('\\' :: 'u' :: u) c
  | pair {u v : List Char} {high low : Nat} {c : Char} : FourDigits u high → FourDigits v low →
      0xD800 ≤ high → high < 0xDC00 → 0xDC00 ≤ low → low < 0xE000 →
      c.toNat = 0x10000 + (high - 0xD800) * 0x400 + (low - 0xDC00) →
      Spells ('\\' :: 'u' :: (u ++ '\\' :: 'u' :: v)) c

/-- What may be written for characters, one after the other. -/
inductive Spelling : List Char → List Char → Prop
  | nil : Spelling [] []
  | cons {t ts cs : List Char} {c : Char} : Spells t c → Spelling ts cs →
      Spelling (t ++ ts) (c :: cs)

theorem isUnescaped_iff {c : Char} :
    isUnescaped c = true ↔ 0x20 ≤ c.toNat ∧ c ≠ '"' ∧ c ≠ '\\' := by
  rw [isUnescaped, Bool.and_eq_true, Bool.and_eq_true, decide_eq_true_eq, bne_iff_ne, bne_iff_ne,
    and_assoc]

/-- Characters that need no escape are a spelling of themselves. -/
theorem spelling_plain {cs : List Char} (h : cs.all isUnescaped = true) : Spelling cs cs := by
  induction cs with
  | nil => exact .nil
  | cons c cs ih =>
    rw [List.all_cons, Bool.and_eq_true] at h
    exact .cons (.plain h.1) (ih h.2)

/-! ## Digits -/

theorem hexDigit_spec {c : Char} (h : HexDigit c n) :
    c.toNat < 0x80 ∧ n < 16 ∧ Hex.value? (UInt8.ofNat c.toNat) = some (UInt8.ofNat n) := by
  have hdigits : ∀ digits ∈ ["0123456789abcdef".toList, "0123456789ABCDEF".toList],
      digits.length = 16 ∧ ∀ n < 16, (digits[n]?).all (fun c => c.toNat < 0x80 &&
        Hex.value? (UInt8.ofNat c.toNat) == some (UInt8.ofNat n)) = true := by decide
  obtain ⟨digits, hmem, hc⟩ : ∃ digits ∈ ["0123456789abcdef".toList, "0123456789ABCDEF".toList],
      digits[n]? = some c := by
    rcases h with h | h
    · exact ⟨_, .head _, h⟩
    · exact ⟨_, .tail _ (.head _), h⟩
  obtain ⟨hlength, hspec⟩ := hdigits digits hmem
  obtain ⟨hn, -⟩ := List.getElem?_eq_some_iff.1 hc
  rw [hlength] at hn
  have hdigit := hspec n hn
  rw [hc, Option.all_some, Bool.and_eq_true, decide_eq_true_eq, beq_iff_eq] at hdigit
  exact ⟨hdigit.1, hn, hdigit.2⟩

theorem exists_hexDigit {b v : UInt8} (h : Hex.value? b = some v) :
    ∃ c, HexDigit c v.toNat ∧ [b] = Utf8.encodeChar c := by
  have hbytes : ∀ k < 256, (Hex.value? (UInt8.ofNat k)).all (fun v =>
      ("0123456789abcdef".toList[v.toNat]? == some (Char.ofNat k) ||
        "0123456789ABCDEF".toList[v.toNat]? == some (Char.ofNat k)) &&
      [UInt8.ofNat k] == Utf8.encodeChar (Char.ofNat k)) = true := by
    decide +kernel
  have hb := hbytes b.toNat b.toNat_lt
  rw [UInt8.ofNat_toNat, h, Option.all_some, Bool.and_eq_true, Bool.or_eq_true, beq_iff_eq,
    beq_iff_eq, beq_iff_eq] at hb
  exact ⟨_, hb⟩

theorem encodeChar_of_lt {c : Char} (h : c.toNat < 0x80) :
    Utf8.encodeChar c = [UInt8.ofNat c.toNat] := by
  rw [Utf8.encodeChar, if_pos h]

/-- Four digits are read as the number that they write. -/
theorem FourDigits.hexUnit? {u : List Char} (h : FourDigits u n) :
    n < 0x10000 ∧ ∃ a b c d, Utf8.encodeChars u = [a, b, c, d] ∧
      hexUnit? a b c d = some n := by
  cases h with
  | @mk a b c d k l m n ha hb hc hd =>
    obtain ⟨hasciia, hlta, hvaluea⟩ := hexDigit_spec ha
    obtain ⟨hasciib, hltb, hvalueb⟩ := hexDigit_spec hb
    obtain ⟨hasciic, hltc, hvaluec⟩ := hexDigit_spec hc
    obtain ⟨hasciid, hltd, hvalued⟩ := hexDigit_spec hd
    refine ⟨by omega, .ofNat a.toNat, .ofNat b.toNat, .ofNat c.toNat, .ofNat d.toNat, ?_, ?_⟩
    · simp only [Utf8.encodeChars_cons, encodeChar_of_lt hasciia, encodeChar_of_lt hasciib,
        encodeChar_of_lt hasciic, encodeChar_of_lt hasciid]
      rfl
    · simp only [Json.hexUnit?, hvaluea, hvalueb, hvaluec, hvalued, Option.bind_eq_bind,
        Option.bind_some]
      rw [Utf8.toNat_ofNat (by omega), Utf8.toNat_ofNat (by omega), Utf8.toNat_ofNat (by omega),
        Utf8.toNat_ofNat (by omega)]
      rfl

/-- What is read as a number are the digits of this number. -/
theorem exists_fourDigits {a b c d : UInt8} (h : hexUnit? a b c d = some n) :
    ∃ u, FourDigits u n ∧ Utf8.encodeChars u = [a, b, c, d] := by
  simp only [hexUnit?, Option.bind_eq_bind, Option.bind_eq_some_iff] at h
  obtain ⟨va, ha, vb, hb, vc, hc, vd, hd, hn⟩ := h
  cases hn
  obtain ⟨ca, hca, hbytea⟩ := exists_hexDigit ha
  obtain ⟨cb, hcb, hbyteb⟩ := exists_hexDigit hb
  obtain ⟨cc, hcc, hbytec⟩ := exists_hexDigit hc
  obtain ⟨cd, hcd, hbyted⟩ := exists_hexDigit hd
  refine ⟨_, .mk hca hcb hcc hcd, ?_⟩
  rw [Utf8.encodeChars_cons, Utf8.encodeChars_cons, Utf8.encodeChars_cons, Utf8.encodeChars_cons,
    ← hbytea, ← hbyteb, ← hbytec, ← hbyted]
  rfl

/-! ## Characters -/

theorem isLowSurrogate_iff : isLowSurrogate n = true ↔ 0xDC00 ≤ n ∧ n ≤ 0xDFFF := by
  rw [isLowSurrogate, Bool.and_eq_true, decide_eq_true_eq, decide_eq_true_eq]

theorem isHighSurrogate_iff : isHighSurrogate n = true ↔ 0xD800 ≤ n ∧ n ≤ 0xDBFF := by
  rw [isHighSurrogate, Bool.and_eq_true, decide_eq_true_eq, decide_eq_true_eq]

theorem scanContent_pair {a b c d e f g h : UInt8} {high low : Nat}
    (hhigh : hexUnit? a b c d = some high) (hlow : hexUnit? e f g h = some low)
    (hhigh' : isHighSurrogate high = true) (hlow' : isLowSurrogate low = true) (rest : Bytes) :
    scanContent (Ascii.backslash :: Ascii.u :: a :: b :: c :: d :: Ascii.backslash :: Ascii.u ::
        e :: f :: g :: h :: rest) =
      pushBytes (Utf8.encodeChar (.ofNat (0x10000 + (high - 0xD800) * 0x400 + (low - 0xDC00))))
        (scanContent rest) := by
  have hnot : isLowSurrogate high = false := by
    have hrange := isHighSurrogate_iff.1 hhigh'
    rw [Bool.eq_false_iff, ne_eq, isLowSurrogate_iff]
    omega
  change scanContent (⟨92#8⟩ :: ⟨117#8⟩ :: a :: b :: c :: d :: ⟨92#8⟩ :: ⟨117#8⟩ ::
    e :: f :: g :: h :: rest) = _
  rw [scanContent.eq_def]
  simp only [hhigh, hlow, hnot, hhigh', hlow', Bool.false_eq_true, if_false, if_true]

/-- What may be written for a character is read as this character. -/
theorem scanContent_spells {t : List Char} {c : Char} (h : Spells t c) (rest : Bytes) :
    scanContent (Utf8.encodeChars t ++ rest) = pushBytes (Utf8.encodeChar c) (scanContent rest) := by
  cases h with
  | plain hc =>
    obtain ⟨hlow, hquote, hbackslash⟩ := isUnescaped_iff.1 hc
    rw [Utf8.encodeChars, List.flatMap_singleton]
    exact scanContent_append (isPlain_of_mem_encodeChar hlow hquote hbackslash) rest
  | short hmem =>
    simp only [shortEscapes, List.mem_cons, List.not_mem_nil, or_false, Prod.mk.injEq] at hmem
    rcases hmem with ⟨rfl, rfl⟩ | ⟨rfl, rfl⟩ | ⟨rfl, rfl⟩ | ⟨rfl, rfl⟩ | ⟨rfl, rfl⟩ | ⟨rfl, rfl⟩ |
      ⟨rfl, rfl⟩ | ⟨rfl, rfl⟩
    all_goals rfl
  | unit hunit =>
    obtain ⟨-, d₁, d₂, d₃, d₄, hbytes, hread⟩ := hunit.hexUnit?
    have hvalid := Utf8.toNat_valid c
    have hscan := scanContent_unit hread (by omega) rest
    rw [Char.ofNat_toNat] at hscan
    rw [Utf8.encodeChars_cons, Utf8.encodeChars_cons, hbytes]
    exact hscan
  | @pair u v high low _ hhigh hlow hmin hmax hmin' hmax' hc =>
    obtain ⟨-, d₁, d₂, d₃, d₄, hbytes, hread⟩ := hhigh.hexUnit?
    obtain ⟨-, e₁, e₂, e₃, e₄, hbytes', hread'⟩ := hlow.hexUnit?
    have hscan := scanContent_pair hread hread' (isHighSurrogate_iff.2 ⟨hmin, by omega⟩)
      (isLowSurrogate_iff.2 ⟨hmin', by omega⟩) rest
    rw [← hc, Char.ofNat_toNat] at hscan
    rw [Utf8.encodeChars_cons, Utf8.encodeChars_cons, encodeChars_append, Utf8.encodeChars_cons,
      Utf8.encodeChars_cons, hbytes, hbytes']
    exact hscan

theorem pushBytes_ok {front : Bytes} {r : Except Fault (Bytes × Bytes)}
    (h : pushBytes front r = .ok (content, rest)) :
    ∃ content', content = front ++ content' ∧ r = .ok (content', rest) := by
  cases r with
  | ok x =>
    cases h
    exact ⟨_, rfl, rfl⟩
  | error e => cases h

theorem exists_short {e x : UInt8} (h : escaped? e = some x) :
    ∃ l c, (l, c) ∈ shortEscapes ∧ Utf8.encodeChar l = [e] ∧ Utf8.encodeChar c = [x] := by
  have hbytes : ∀ k < 256, (escaped? (UInt8.ofNat k)).all (fun x =>
      shortEscapes.contains (Char.ofNat k, Char.ofNat x.toNat) &&
      (Utf8.encodeChar (Char.ofNat k) == [UInt8.ofNat k] &&
        Utf8.encodeChar (Char.ofNat x.toNat) == [x])) = true := by
    decide +kernel
  have hb := hbytes e.toNat e.toNat_lt
  rw [UInt8.ofNat_toNat, h, Option.all_some, Bool.and_eq_true, Bool.and_eq_true, beq_iff_eq,
    beq_iff_eq, List.contains_iff_mem] at hb
  exact ⟨_, _, hb⟩

/-- Behind the digits of an escape that is read stands nothing else, or a low surrogate. -/
theorem spells_of_unit {a b c d : UInt8} {u : List Char} (hu : FourDigits u n)
    (hread : hexUnit? a b c d = some n)
    (h : scanContent (Ascii.backslash :: Ascii.u :: a :: b :: c :: d :: bs) =
      .ok (content, rest)) :
    ∃ t c bs' content', bs = Utf8.encodeChars t ++ bs' ∧ Spells ('\\' :: 'u' :: (u ++ t)) c ∧
      content = Utf8.encodeChar c ++ content' ∧ scanContent bs' = .ok (content', rest) := by
  have hsmall := hu.hexUnit?.1
  change scanContent (⟨92#8⟩ :: ⟨117#8⟩ :: a :: b :: c :: d :: bs) = _ at h
  rw [scanContent.eq_4] at h
  simp only [hread] at h
  by_cases hlow : isLowSurrogate n = true
  · rw [if_pos hlow] at h
    cases h
  rw [if_neg hlow] at h
  by_cases hhigh : isHighSurrogate n = true
  · rw [if_pos hhigh] at h
    split at h
    · cases h
    · cases h
    · split at h
      · rename_i e f g i bs'
        split at h
        · cases h
        · rename_i m hm
          split at h
          · rename_i hlow'
            obtain ⟨v, hv, hbytes'⟩ := exists_fourDigits hm
            obtain ⟨content', hcontent, hrest⟩ := pushBytes_ok h
            rw [isHighSurrogate_iff] at hhigh
            rw [isLowSurrogate_iff] at hlow'
            refine ⟨'\\' :: 'u' :: v, _, bs', content', ?_,
              .pair hu hv hhigh.1 (by omega) hlow'.1 (by omega)
                (Utf8.toNat_charOfNat (by omega)), hcontent, hrest⟩
            rw [Utf8.encodeChars_cons, Utf8.encodeChars_cons, hbytes']
            rfl
          · cases h
      · cases h
    · cases h
  · rw [if_neg hhigh] at h
    rw [isLowSurrogate_iff] at hlow
    rw [isHighSurrogate_iff] at hhigh
    obtain ⟨content', hcontent, hrest⟩ := pushBytes_ok h
    have hn : (Char.ofNat n).toNat = n := Utf8.toNat_charOfNat (by omega)
    refine ⟨[], .ofNat n, bs, content', rfl, ?_, hcontent, hrest⟩
    rw [List.append_nil]
    exact .unit (hn.symm ▸ hu)

/-- Behind a backslash that is read stands an escape. -/
theorem spells_of_backslash (h : scanContent (Ascii.backslash :: bs) = .ok (content, rest)) :
    ∃ t c bs' content', bs = Utf8.encodeChars t ++ bs' ∧ Spells ('\\' :: t) c ∧
      content = Utf8.encodeChar c ++ content' ∧ scanContent bs' = .ok (content', rest) := by
  match bs with
  | [] => cases h
  | e :: bs =>
    by_cases he : e = Ascii.u
    · subst he
      match bs with
      | a :: b :: c :: d :: bs =>
        cases hread : hexUnit? a b c d with
        | none =>
          change scanContent (⟨92#8⟩ :: ⟨117#8⟩ :: a :: b :: c :: d :: bs) = _ at h
          rw [scanContent.eq_4] at h
          simp only [hread] at h
          cases h
        | some n =>
          obtain ⟨u, hu, hbytes⟩ := exists_fourDigits hread
          obtain ⟨t, x, bs', content', rfl, hspells, hcontent, hrest⟩ :=
            spells_of_unit hu hread h
          refine ⟨'u' :: (u ++ t), x, bs', content', ?_, hspells, hcontent, hrest⟩
          rw [Utf8.encodeChars_cons, encodeChars_append, hbytes]
          rfl
      | [] | [_] | [_, _] | [_, _, _] => cases h
    · change scanContent (⟨92#8⟩ :: e :: bs) = _ at h
      rw [scanContent.eq_6 _ _ he] at h
      cases hshort : escaped? e with
      | none =>
        simp only [hshort] at h
        cases h
      | some x =>
        simp only [hshort] at h
        obtain ⟨l, c, hmem, hletter, hc⟩ := exists_short hshort
        obtain ⟨content', hcontent, hrest⟩ := pushBytes_ok h
        refine ⟨[l], c, bs, content', ?_, .short hmem, ?_, hrest⟩
        · rw [Utf8.encodeChars, List.flatMap_singleton, hletter]
          rfl
        · rw [hcontent, hc]

/-! ## Strings -/

theorem scanContent_spelling {u cs : List Char} (h : Spelling u cs) (rest : Bytes) :
    scanContent (Utf8.encodeChars u ++ Ascii.quote :: rest) = .ok (Utf8.encodeChars cs, rest) := by
  induction h with
  | nil => rfl
  | cons hspells _ ih =>
    rw [encodeChars_append, List.append_assoc, scanContent_spells hspells, ih,
      Utf8.encodeChars_cons]
    rfl

theorem not_scanContent_control {c : Char} (h : c.toNat < 32) :
    scanContent (UInt8.ofNat c.toNat :: bs) ≠ .ok (content, rest) := by
  have hc : (UInt8.ofNat c.toNat).toNat = c.toNat := Utf8.toNat_ofNat (by omega)
  have hne : ∀ b : UInt8, 32 ≤ b.toNat → UInt8.ofNat c.toNat ≠ b := by
    rintro b hb rfl
    omega
  rw [scanContent.eq_7 _ _ (hne 34 (by decide)) (hne 92 (by decide)),
    if_pos (UInt8.lt_iff_toNat_lt.2 (hc.symm ▸ h))]
  intro hread
  cases hread

/-- What is read up to a quote is the spelling of what it is read as. -/
theorem spelling_of_scanContent {cs : List Char}
    (h : scanContent (Utf8.encodeChars cs) = .ok (content, rest)) :
    ∃ u s cs', cs = u ++ '"' :: cs' ∧ Spelling u s ∧ content = Utf8.encodeChars s ∧
      rest = Utf8.encodeChars cs' := by
  induction hlength : cs.length using Nat.strongRecOn generalizing cs content with
  | ind n ih =>
    cases cs with
    | nil => cases h
    | cons c cs =>
      by_cases hquote : c = '"'
      · subst hquote
        cases h
        exact ⟨[], [], cs, rfl, .nil, rfl, rfl⟩
      by_cases hbackslash : c = '\\'
      · subst hbackslash
        obtain ⟨t, x, bs', content', hbs, hspells, rfl, hrest⟩ := spells_of_backslash h
        obtain ⟨cs', rfl, rfl⟩ := Utf8.eq_append_of_encodeChars hbs
        have hlt : cs'.length < n := by
          rw [← hlength, List.length_cons, List.length_append]
          omega
        obtain ⟨u, s, cs'', rfl, hspelling, rfl, rfl⟩ := ih _ hlt hrest rfl
        exact ⟨_, x :: s, cs'', by simp, .cons hspells hspelling, (Utf8.encodeChars_cons x s).symm,
          rfl⟩
      by_cases hlow : c.toNat < 32
      · rw [Utf8.encodeChars_cons, encodeChar_of_lt (by omega), List.singleton_append] at h
        exact absurd h (not_scanContent_control hlow)
      · have hplain := isPlain_of_mem_encodeChar (Nat.le_of_not_lt hlow) hquote hbackslash
        rw [Utf8.encodeChars_cons, scanContent_append hplain] at h
        obtain ⟨content', rfl, hrest⟩ := pushBytes_ok h
        have hlt : cs.length < n := by
          rw [← hlength, List.length_cons]
          omega
        obtain ⟨u, s, cs', rfl, hspelling, rfl, rfl⟩ := ih _ hlt hrest rfl
        have hplain := isUnescaped_iff.2 ⟨Nat.le_of_not_lt hlow, hquote, hbackslash⟩
        exact ⟨_, c :: s, cs', rfl, .cons (.plain hplain) hspelling,
          (Utf8.encodeChars_cons c s).symm, rfl⟩

/-- Exactly the spellings of a string are read as this string. -/
theorem scanString_iff {cs : List Char} {s : String} :
    scanString (Utf8.encodeChars cs) = .ok (s, rest) ↔
      ∃ u cs', cs = u ++ '"' :: cs' ∧ Spelling u s.toList ∧ rest = Utf8.encodeChars cs' := by
  constructor
  · intro h
    obtain ⟨⟨content, rest'⟩, hcontent, h⟩ := except_bind_ok.1 h
    obtain ⟨u, cs₁, cs', rfl, hspelling, rfl, rfl⟩ := spelling_of_scanContent hcontent
    have hdecode : Utf8.decode (Utf8.encodeChars cs₁) = .ok (String.ofList cs₁) := by
      rw [← Utf8.decode_encode (String.ofList cs₁), Utf8.encode, String.toList_ofList]
    dsimp only at h
    rw [hdecode] at h
    cases h
    exact ⟨u, cs', rfl, by rwa [String.toList_ofList], rfl⟩
  · rintro ⟨u, cs', rfl, hspelling, rfl⟩
    have hdecode : Utf8.decode (Utf8.encodeChars s.toList) = .ok s := Utf8.decode_encode s
    rw [encodeChars_append, Utf8.encodeChars_cons]
    refine except_bind_ok.2 ⟨_, scanContent_spelling hspelling _, ?_⟩
    dsimp only
    rw [hdecode]
    rfl

end LedgerClient.Json
