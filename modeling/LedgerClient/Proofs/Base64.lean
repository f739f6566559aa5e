import LedgerClient.Proofs.Wire.Text
import LedgerClient.Proofs.Wire.RoundTrip
import LedgerClient.Text.Base64
import Mathlib.Data.List.Basic
/-!
# Base64 texts are canonical

The decoder accepts what the encoder writes and nothing else.

* `push_ok_iff`, `finish_ok_iff`: what the last symbols of a text may be.
* `lastGroup_ok_iff`, `decodeFrom_ok_iff`: the last group, and the groups before it.
* `decode_ok_iff`: a text is decoded to bytes exactly if it is the text of these bytes.
-/

namespace LedgerClient.Base64

variable {n offset place : Nat} {b : UInt8} {t t' : Tail} {input bs : Bytes}

/-! ## Symbols -/

theorem value?_symbol (h : n < 64) : value? (symbol n) = some n := by
  revert n
  decide

theorem symbol_ne_pad (h : n < 64) : symbol n ≠ pad := by
  revert n
  decide

theorem eq_symbol_of_value? (h : value? b = some n) : n < 64 ∧ b = symbol n := by
  have hbytes : ∀ k < 256, ∀ n ∈ value? (UInt8.ofNat k), n < 64 ∧ UInt8.ofNat k = symbol n := by
    decide +kernel
  have hb := hbytes b.toNat b.toNat_lt n
  rw [UInt8.ofNat_toNat] at hb
  exact hb h

theorem value_ok_iff : value offset b = .ok n ↔ n < 64 ∧ b = symbol n := by
  rw [value]
  constructor
  · intro h
    cases hv : value? b with
    | none => simp only [hv] at h; cases h
    | some v =>
      simp only [hv] at h
      cases h
      exact eq_symbol_of_value? hv
  · rintro ⟨hn, rfl⟩
    simp only [value?_symbol hn]

/-! ## Groups of bytes as groups of symbols -/

section Groups

variable {v₁ v₂ v₃ v₄ : Nat}

theorem encode_one (h₁ : v₁ < 64) (h₂ : v₂ < 64) (hspare : v₂ % 16 = 0) :
    encode [UInt8.ofNat (v₁ * 4 + v₂ / 16)] = [symbol v₁, symbol v₂, pad, pad] := by
  rw [encode, Utf8.toNat_ofNat (by omega), show (v₁ * 4 + v₂ / 16) / 4 = v₁ by omega,
    show (v₁ * 4 + v₂ / 16) % 4 * 16 = v₂ by omega]

theorem encode_two (h₁ : v₁ < 64) (h₂ : v₂ < 64) (h₃ : v₃ < 64) (hspare : v₃ % 4 = 0) :
    encode [UInt8.ofNat (v₁ * 4 + v₂ / 16), UInt8.ofNat (v₂ % 16 * 16 + v₃ / 4)] =
      [symbol v₁, symbol v₂, symbol v₃, pad] := by
  rw [encode, Utf8.toNat_ofNat (by omega), Utf8.toNat_ofNat (by omega),
    show (v₁ * 4 + v₂ / 16) / 4 = v₁ by omega,
    show (v₁ * 4 + v₂ / 16) % 4 * 16 + (v₂ % 16 * 16 + v₃ / 4) / 16 = v₂ by omega,
    show (v₂ % 16 * 16 + v₃ / 4) % 16 * 4 = v₃ by omega]

theorem encode_three (h₁ : v₁ < 64) (h₂ : v₂ < 64) (h₃ : v₃ < 64) (h₄ : v₄ < 64) (rest : Bytes) :
    encode ((bytesOf [v₁, v₂, v₃, v₄]).1 ++ rest) =
      symbol v₁ :: symbol v₂ :: symbol v₃ :: symbol v₄ :: encode rest := by
  change encode (UInt8.ofNat (v₁ * 4 + v₂ / 16) :: UInt8.ofNat (v₂ % 16 * 16 + v₃ / 4) ::
    UInt8.ofNat (v₃ % 4 * 64 + v₄) :: rest) = _
  rw [encode, Utf8.toNat_ofNat (by omega), Utf8.toNat_ofNat (by omega),
    Utf8.toNat_ofNat (by omega), show (v₁ * 4 + v₂ / 16) / 4 = v₁ by omega,
    show (v₁ * 4 + v₂ / 16) % 4 * 16 + (v₂ % 16 * 16 + v₃ / 4) / 16 = v₂ by omega,
    show (v₂ % 16 * 16 + v₃ / 4) % 16 * 4 + (v₃ % 4 * 64 + v₄) / 64 = v₃ by omega,
    show (v₃ % 4 * 64 + v₄) % 64 = v₄ by omega]

theorem exists_values_one (x : UInt8) : ∃ v₁ < 64, ∃ v₂ < 64, v₂ % 16 = 0 ∧
    [x] = [UInt8.ofNat (v₁ * 4 + v₂ / 16)] := by
  have hx := x.toNat_lt
  refine ⟨x.toNat / 4, by omega, x.toNat % 4 * 16, by omega, by omega, ?_⟩
  rw [show x.toNat / 4 * 4 + x.toNat % 4 * 16 / 16 = x.toNat by omega, UInt8.ofNat_toNat]

theorem exists_values_two (x y : UInt8) : ∃ v₁ < 64, ∃ v₂ < 64, ∃ v₃ < 64, v₃ % 4 = 0 ∧
    [x, y] = [UInt8.ofNat (v₁ * 4 + v₂ / 16), UInt8.ofNat (v₂ % 16 * 16 + v₃ / 4)] := by
  have hx := x.toNat_lt
  have hy := y.toNat_lt
  refine ⟨x.toNat / 4, by omega, x.toNat % 4 * 16 + y.toNat / 16, by omega, y.toNat % 16 * 4,
    by omega, by omega, ?_⟩
  rw [show x.toNat / 4 * 4 + (x.toNat % 4 * 16 + y.toNat / 16) / 16 = x.toNat by omega,
    show (x.toNat % 4 * 16 + y.toNat / 16) % 16 * 16 + y.toNat % 16 * 4 / 4 = y.toNat by omega,
    UInt8.ofNat_toNat, UInt8.ofNat_toNat]

theorem exists_values_three (x y z : UInt8) :
    ∃ v₁ < 64, ∃ v₂ < 64, ∃ v₃ < 64, ∃ v₄ < 64, [x, y, z] = (bytesOf [v₁, v₂, v₃, v₄]).1 := by
  have hx := x.toNat_lt
  have hy := y.toNat_lt
  have hz := z.toNat_lt
  refine ⟨x.toNat / 4, by omega, x.toNat % 4 * 16 + y.toNat / 16, by omega,
    y.toNat % 16 * 4 + z.toNat / 64, by omega, z.toNat % 64, by omega, ?_⟩
  rw [bytesOf, show x.toNat / 4 * 4 + (x.toNat % 4 * 16 + y.toNat / 16) / 16 = x.toNat by omega,
    show (x.toNat % 4 * 16 + y.toNat / 16) % 16 * 16 + (y.toNat % 16 * 4 + z.toNat / 64) / 4 =
      y.toNat by omega,
    show (y.toNat % 16 * 4 + z.toNat / 64) % 4 * 64 + z.toNat % 64 = z.toNat by omega,
    UInt8.ofNat_toNat, UInt8.ofNat_toNat, UInt8.ofNat_toNat]

theorem length_encode (bs : Bytes) : (encode bs).length = 4 * ((bs.length + 2) / 3) := by
  fun_induction encode bs with
  | case1 => rfl
  | case2 a => simp only [List.length_cons, List.length_nil]
  | case3 a b => simp only [List.length_cons, List.length_nil]
  | case4 a b c rest ih =>
    simp only [List.length_cons, ih]
    omega

end Groups

/-! ## The last symbols -/

theorem push_ok_iff : t.push place b = .ok t' ↔
    (b = pad ∧ 2 ≤ place ∧ t' = { t with padding := t.padding + 1 }) ∨
      ∃ n < 64, b = symbol n ∧ t.padding = 0 ∧
        t' = { t with values := t.values ++ [n], last := b } := by
  rw [Tail.push]
  by_cases hpad : b = pad
  · have hsymbol : ∀ n < 64, b ≠ symbol n := fun n hn h => symbol_ne_pad hn (h.symm.trans hpad)
    rw [if_pos hpad]
    by_cases hplace : place < 2
    · rw [if_pos hplace]
      refine ⟨fun h => (nomatch h), ?_⟩
      rintro (⟨-, h, -⟩ | ⟨n, hn, h, -⟩)
      · omega
      · exact absurd h (hsymbol n hn)
    · rw [if_neg hplace, Except.ok.injEq]
      constructor
      · rintro rfl
        exact .inl ⟨hpad, by omega, rfl⟩
      · rintro (⟨-, -, rfl⟩ | ⟨n, hn, h, -⟩)
        · rfl
        · exact absurd h (hsymbol n hn)
  · rw [if_neg hpad]
    by_cases hpadding : 0 < t.padding
    · rw [if_pos hpadding]
      refine ⟨fun h => (nomatch h), ?_⟩
      rintro (⟨h, -⟩ | ⟨n, -, -, h, -⟩)
      · exact absurd h hpad
      · omega
    · rw [if_neg hpadding, except_bind_ok]
      constructor
      · rintro ⟨n, hn, h⟩
        cases h
        obtain ⟨hlt, hb⟩ := value_ok_iff.1 hn
        exact .inr ⟨n, hlt, hb, by omega, rfl⟩
      · rintro (⟨h, -⟩ | ⟨n, hn, hb, -, rfl⟩)
        · exact absurd h hpad
        · exact ⟨n, value_ok_iff.2 ⟨hn, hb⟩, rfl⟩

theorem push_pad (h : 2 ≤ place) :
    t.push place pad = .ok { t with padding := t.padding + 1 } :=
  push_ok_iff.2 (.inl ⟨rfl, h, rfl⟩)

theorem push_symbol (h : n < 64) (hpadding : t.padding = 0) :
    t.push place (symbol n) = .ok { t with values := t.values ++ [n], last := symbol n } :=
  push_ok_iff.2 (.inr ⟨n, h, rfl, hpadding, rfl⟩)

theorem pushAll_cons_ok_iff : t.pushAll place (b :: input) = .ok t' ↔
    ∃ m, t.push place b = .ok m ∧ m.pushAll (place + 1) input = .ok t' := by
  rw [Tail.pushAll, except_bind_ok]

theorem length_of_pushAll (h : t.pushAll place input = .ok t') :
    t'.values.length + t'.padding = t.values.length + t.padding + input.length := by
  induction input generalizing t place with
  | nil =>
    cases h
    rfl
  | cons b input ih =>
    obtain ⟨m, hm, hrest⟩ := pushAll_cons_ok_iff.1 h
    have hlength := ih hrest
    rw [List.length_cons]
    rcases push_ok_iff.1 hm with ⟨-, -, rfl⟩ | ⟨n, -, -, hpadding, rfl⟩
    · dsimp only at hlength
      omega
    · dsimp only at hlength
      rw [List.length_append, List.length_singleton] at hlength
      omega

theorem finish_ok_iff : t.finish = .ok bs ↔ 2 ≤ t.values.length ∧
    (t.values.length + t.padding) % 4 = 0 ∧ bytesOf t.values = (bs, 0) := by
  rw [Tail.finish]
  by_cases hcount : t.values.length < 2
  · rw [if_pos hcount]
    exact ⟨fun h => (nomatch h), fun h => by omega⟩
  by_cases hpadding : (t.values.length + t.padding) % 4 = 0
  · rw [if_neg hcount, if_neg (not_not_intro hpadding)]
    obtain ⟨bytes, spare⟩ := bytesOf t.values
    dsimp only
    by_cases hspare : spare = 0
    · rw [if_pos hspare, hspare, Except.ok.injEq, Prod.mk.injEq]
      exact ⟨fun h => ⟨by omega, hpadding, h, rfl⟩, fun h => h.2.2.1⟩
    · rw [if_neg hspare]
      exact ⟨fun h => (nomatch h), fun h => absurd (congrArg Prod.snd h.2.2) hspare⟩
  · rw [if_neg hcount, if_pos hpadding]
    exact ⟨fun h => (nomatch h), fun h => absurd h.2.1 hpadding⟩

/-- The last group, which may hold padding, is that of one to three bytes. -/
theorem lastGroup_ok_iff (hlength : input.length ≤ 4) :
    (Tail.pushAll { offset := offset } 0 input >>= Tail.finish) = .ok bs ↔
      bs ≠ [] ∧ input = encode bs := by
  rw [except_bind_ok]
  constructor
  · rintro ⟨t, hpush, hfinish⟩
    obtain ⟨hcount, hwhole, hbytes⟩ := finish_ok_iff.1 hfinish
    have hfour := length_of_pushAll hpush
    dsimp only [List.length_nil] at hfour
    cases input with
    | nil =>
      rw [List.length_nil] at hfour
      omega
    | cons a rest =>
    rw [List.length_cons] at hlength hfour
    obtain ⟨b, c, d, rfl⟩ := List.length_eq_three.1 (show rest.length = 3 by omega)
    obtain ⟨t₁, h₁, hpush⟩ := pushAll_cons_ok_iff.1 hpush
    obtain ⟨t₂, h₂, hpush⟩ := pushAll_cons_ok_iff.1 hpush
    obtain ⟨t₃, h₃, hpush⟩ := pushAll_cons_ok_iff.1 hpush
    obtain ⟨t₄, h₄, hpush⟩ := pushAll_cons_ok_iff.1 hpush
    cases hpush
    obtain ⟨-, hplace, -⟩ | ⟨v₁, hv₁, rfl, -, rfl⟩ := push_ok_iff.1 h₁
    · cases hplace
    obtain ⟨-, hplace, -⟩ | ⟨v₂, hv₂, rfl, -, rfl⟩ := push_ok_iff.1 h₂
    · omega
    obtain ⟨rfl, -, rfl⟩ | ⟨v₃, hv₃, rfl, -, rfl⟩ := push_ok_iff.1 h₃
    · obtain ⟨rfl, -, rfl⟩ | ⟨v₄, -, -, hpadding, -⟩ := push_ok_iff.1 h₄
      · obtain ⟨rfl, hspare⟩ := Prod.mk.inj hbytes
        exact ⟨List.cons_ne_nil _ _, (encode_one hv₁ hv₂ hspare).symm⟩
      · cases hpadding
    · obtain ⟨rfl, -, rfl⟩ | ⟨v₄, hv₄, rfl, -, rfl⟩ := push_ok_iff.1 h₄
      · obtain ⟨rfl, hspare⟩ := Prod.mk.inj hbytes
        exact ⟨List.cons_ne_nil _ _, (encode_two hv₁ hv₂ hv₃ hspare).symm⟩
      · obtain ⟨rfl, -⟩ := Prod.mk.inj hbytes
        exact ⟨List.cons_ne_nil _ _, (encode_three hv₁ hv₂ hv₃ hv₄ []).symm⟩
  · rintro ⟨hne, rfl⟩
    rw [length_encode] at hlength
    match bs, hne with
    | [x], _ =>
      obtain ⟨v₁, hv₁, v₂, hv₂, hspare, hx⟩ := exists_values_one x
      rw [hx, encode_one hv₁ hv₂ hspare]
      refine ⟨_, pushAll_cons_ok_iff.2 ⟨_, push_symbol hv₁ rfl, pushAll_cons_ok_iff.2
        ⟨_, push_symbol hv₂ rfl, pushAll_cons_ok_iff.2 ⟨_, push_pad (Nat.le_refl 2),
          pushAll_cons_ok_iff.2 ⟨_, push_pad (Nat.le_succ 2), rfl⟩⟩⟩⟩, ?_⟩
      exact finish_ok_iff.2 ⟨Nat.le_refl 2, Nat.mod_self 4, Prod.ext rfl hspare⟩
    | [x, y], _ =>
      obtain ⟨v₁, hv₁, v₂, hv₂, v₃, hv₃, hspare, hxy⟩ := exists_values_two x y
      rw [hxy, encode_two hv₁ hv₂ hv₃ hspare]
      refine ⟨_, pushAll_cons_ok_iff.2 ⟨_, push_symbol hv₁ rfl, pushAll_cons_ok_iff.2
        ⟨_, push_symbol hv₂ rfl, pushAll_cons_ok_iff.2 ⟨_, push_symbol hv₃ rfl,
          pushAll_cons_ok_iff.2 ⟨_, push_pad (Nat.le_succ 2), rfl⟩⟩⟩⟩, ?_⟩
      exact finish_ok_iff.2 ⟨Nat.le_succ 2, Nat.mod_self 4, Prod.ext rfl hspare⟩
    | [x, y, z], _ =>
      obtain ⟨v₁, hv₁, v₂, hv₂, v₃, hv₃, v₄, hv₄, hxyz⟩ := exists_values_three x y z
      rw [hxyz, ← List.append_nil (bytesOf _).1, encode_three hv₁ hv₂ hv₃ hv₄, List.append_nil]
      refine ⟨_, pushAll_cons_ok_iff.2 ⟨_, push_symbol hv₁ rfl, pushAll_cons_ok_iff.2
        ⟨_, push_symbol hv₂ rfl, pushAll_cons_ok_iff.2 ⟨_, push_symbol hv₃ rfl,
          pushAll_cons_ok_iff.2 ⟨_, push_symbol hv₄ rfl, rfl⟩⟩⟩⟩, ?_⟩
      exact finish_ok_iff.2 ⟨Nat.le_add_left 2 2, Nat.mod_self 4, rfl⟩
    | x :: y :: z :: w :: rest, _ =>
      simp only [List.length_cons] at hlength
      omega

/-! ## Whole texts -/

theorem decodeFrom_ok_iff : decodeFrom offset input = .ok bs ↔ bs ≠ [] ∧ input = encode bs := by
  induction offset, input using decodeFrom.induct generalizing bs with
  | case1 offset a b c d e rest ih =>
    rw [decodeFrom]
    constructor
    · intro h
      obtain ⟨v₁, h₁, h⟩ := except_bind_ok.1 h
      obtain ⟨v₂, h₂, h⟩ := except_bind_ok.1 h
      obtain ⟨v₃, h₃, h⟩ := except_bind_ok.1 h
      obtain ⟨v₄, h₄, h⟩ := except_bind_ok.1 h
      obtain ⟨bytes, hrest, h⟩ := except_bind_ok.1 h
      cases h
      obtain ⟨hv₁, rfl⟩ := value_ok_iff.1 h₁
      obtain ⟨hv₂, rfl⟩ := value_ok_iff.1 h₂
      obtain ⟨hv₃, rfl⟩ := value_ok_iff.1 h₃
      obtain ⟨hv₄, rfl⟩ := value_ok_iff.1 h₄
      rw [encode_three hv₁ hv₂ hv₃ hv₄, ← (ih.1 hrest).2]
      exact ⟨List.cons_ne_nil _ _, rfl⟩
    · rintro ⟨-, h⟩
      have hlength := congrArg List.length h
      rw [length_encode] at hlength
      match bs with
      | [] | [_] | [_, _] | [_, _, _] =>
        simp only [List.length_cons, List.length_nil] at hlength
        omega
      | x :: y :: z :: w :: bytes =>
        obtain ⟨v₁, hv₁, v₂, hv₂, v₃, hv₃, v₄, hv₄, hxyz⟩ := exists_values_three x y z
        have hbytes : x :: y :: z :: w :: bytes = (bytesOf [v₁, v₂, v₃, v₄]).1 ++ w :: bytes := by
          rw [← hxyz]
          rfl
        rw [hbytes, encode_three hv₁ hv₂ hv₃ hv₄] at h
        simp only [List.cons.injEq] at h
        obtain ⟨rfl, rfl, rfl, rfl, hrest⟩ := h
        rw [hbytes]
        exact except_bind_ok.2 ⟨v₁, value_ok_iff.2 ⟨hv₁, rfl⟩, except_bind_ok.2
          ⟨v₂, value_ok_iff.2 ⟨hv₂, rfl⟩, except_bind_ok.2 ⟨v₃, value_ok_iff.2 ⟨hv₃, rfl⟩,
            except_bind_ok.2 ⟨v₄, value_ok_iff.2 ⟨hv₄, rfl⟩, except_bind_ok.2
              ⟨w :: bytes, ih.2 ⟨List.cons_ne_nil _ _, hrest⟩, rfl⟩⟩⟩⟩⟩
  | case2 offset rest h =>
    have hlength : rest.length ≤ 4 := by
      match rest, h with
      | [], _ | [_], _ | [_, _], _ | [_, _, _], _ | [_, _, _, _], _ => simp
      | a :: b :: c :: d :: e :: rest, h => exact (h a b c d e rest rfl).elim
    rw [decodeFrom]
    · exact lastGroup_ok_iff hlength
    · exact h

/-- Exactly the text of the bytes is decoded to them. -/
theorem decode_ok_iff : decode input = .ok bs ↔ input = encode bs := by
  rw [decode]
  cases hlast : input.getLast? with
  | none =>
    obtain rfl := List.getLast?_eq_none_iff.1 hlast
    rw [Except.ok.injEq]
    constructor
    · rintro rfl
      rfl
    · intro h
      have hlength := congrArg List.length h
      rw [length_encode, List.length_nil] at hlength
      exact (List.length_eq_zero_iff.1 (by omega)).symm
  | some last =>
    dsimp only
    split
    · rename_i hlone
      simp only [Bool.and_eq_true, decide_eq_true_eq] at hlone
      refine ⟨fun h => (nomatch h), fun h => ?_⟩
      rw [h, length_encode] at hlone
      omega
    · rw [decodeFrom_ok_iff, and_iff_right_iff_imp]
      rintro rfl rfl
      cases hlast

end LedgerClient.Base64
