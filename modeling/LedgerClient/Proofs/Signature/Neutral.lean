import LedgerClient.Signature.Ed25519
import Mathlib.Data.Nat.ModEq
/-!
# The key of the neutral point

The neutral point is on the curve, so it is a key, and one signature is good for every message
under it (`verify_neutral`).  With it there are signers of which it can be shown that all that they
sign is accepted.

* `Centred`: the coordinates in which the neutral point comes up when it is added to itself;
  `centred_add`, `centred_times`.
* `toBytes_of_centred`: they all stand for the neutral point, since `2 ^ (p - 1)` is `1` modulo
  the prime `p`.
-/

namespace LedgerClient

namespace Curve

theorem prime_pos : 0 < prime := by decide

theorem pow_eq (a n : Nat) : pow a n = a ^ n % prime := by
  induction n using Nat.strong_induction_on with
  | _ n ih =>
    rw [pow]
    by_cases h : n = 0
    · rw [dif_pos h, h, Nat.pow_zero]
      decide
    · have hhalf := ih (n / 2) (Nat.div_lt_self (Nat.pos_of_ne_zero h) Nat.one_lt_two)
      have hsquare : square (pow a (n / 2)) = a ^ (2 * (n / 2)) % prime := by
        rw [square, mul, hhalf, ← Nat.mul_mod, ← Nat.pow_add, Nat.two_mul]
      rw [dif_neg h]
      dsimp only
      rw [hsquare]
      have hdiv := Nat.div_add_mod n 2
      split
      · rename_i hodd
        rw [mul, Nat.mod_mul_mod, ← Nat.pow_succ, Nat.succ_eq_add_one, ← hodd, hdiv]
      · rename_i heven
        have hzero : n % 2 = 0 := by omega
        rw [hzero, Nat.add_zero] at hdiv
        rw [hdiv]

/-- A power of two modulo the prime. -/
def IsPower (c : Nat) : Prop := ∃ n, c = 2 ^ n % prime

theorem IsPower.lt {c : Nat} (h : IsPower c) : c < prime := by
  obtain ⟨n, rfl⟩ := h
  exact Nat.mod_lt _ prime_pos

theorem IsPower.mul {a b : Nat} (ha : IsPower a) (hb : IsPower b) : IsPower (mul a b) := by
  obtain ⟨m, rfl⟩ := ha
  obtain ⟨n, rfl⟩ := hb
  exact ⟨m + n, by rw [Curve.mul, ← Nat.mul_mod, Nat.pow_add]⟩

theorem isPower_one : IsPower 1 := ⟨0, by decide⟩

theorem isPower_two : IsPower 2 := ⟨1, by decide⟩

theorem two_pow_prime_sub_one : 2 ^ (prime - 1) % prime = 1 := by
  rw [← pow_eq]
  decide +kernel

/-- Where `2 ^ (p - 1)` is `1` modulo `p`, the power `p - 2` of a power of two is its inverse. -/
theorem power_mul_inverse_mod {p : Nat} (hp : 2 ≤ p) (h : 2 ^ (p - 1) % p = 1) (n : Nat) :
    2 ^ n % p * ((2 ^ n % p) ^ (p - 2) % p) % p = 1 := by
  have hexponent : p - 2 + 1 = p - 1 := by omega
  calc 2 ^ n % p * ((2 ^ n % p) ^ (p - 2) % p) % p
      = (2 ^ n % p) ^ (p - 2 + 1) % p := by rw [Nat.mul_mod_mod, ← Nat.pow_succ']
    _ = (2 ^ n) ^ (p - 1) % p := by rw [hexponent, ← Nat.pow_mod]
    _ = (2 ^ (p - 1)) ^ n % p := by rw [← Nat.pow_mul, Nat.mul_comm, Nat.pow_mul]
    _ = 1 := by rw [Nat.pow_mod, h, Nat.one_pow, Nat.mod_eq_of_lt hp]

theorem mul_inverse_of_isPower {c : Nat} (h : IsPower c) : mul c (inverse c) = 1 := by
  obtain ⟨n, rfl⟩ := h
  rw [inverse, pow_eq, mul]
  exact power_mul_inverse_mod (by decide) two_pow_prime_sub_one n

theorem sub_zero_of_lt {a : Nat} (h : a < prime) : sub a 0 = a := by
  rw [sub, Nat.zero_mod, Nat.sub_zero, Nat.add_mod_right, Nat.mod_eq_of_lt h]

theorem sub_self_of_lt {a : Nat} (h : a < prime) : sub a a = 0 := by
  rw [sub, Nat.mod_eq_of_lt h, Nat.add_sub_cancel' h.le, Nat.mod_self]

theorem add_zero_of_lt {a : Nat} (h : a < prime) : add a 0 = a := by
  rw [add, Nat.add_zero, Nat.mod_eq_of_lt h]

theorem zero_mul (a : Nat) : mul 0 a = 0 := by
  rw [mul, Nat.zero_mul, Nat.zero_mod]

theorem mul_zero (a : Nat) : mul a 0 = 0 := by
  rw [mul, Nat.mul_zero, Nat.zero_mod]

theorem add_self (a b : Nat) : add (mul a b) (mul a b) = mul (mul a 2) b := by
  rw [add, mul, mul, mul, ← Nat.two_mul, Nat.mul_mod_mod, Nat.mod_mul_mod, Nat.mul_right_comm,
    Nat.mul_comm 2]

theorem mul_lt (a b : Nat) : mul a b < prime := Nat.mod_lt _ prime_pos

namespace Point

/-- Coordinates of the neutral point. -/
def Centred (p : Point) : Prop := ∃ c, IsPower c ∧ p = ⟨0, c, c, 0⟩

theorem centred_zero : zero.Centred := ⟨1, isPower_one, rfl⟩

theorem centred_neg {p : Point} (h : p.Centred) : p.neg.Centred := by
  obtain ⟨c, hc, rfl⟩ := h
  refine ⟨c, hc, ?_⟩
  rw [neg]
  dsimp only
  rw [sub_self_of_lt prime_pos]

theorem centred_add {p q : Point} (hp : p.Centred) (hq : q.Centred) : (p.add q).Centred := by
  obtain ⟨a, ha, rfl⟩ := hp
  obtain ⟨b, hb, rfl⟩ := hq
  have he : IsPower (mul (mul a 2) b) := (ha.mul isPower_two).mul hb
  refine ⟨mul (mul (mul a 2) b) (mul (mul a 2) b), he.mul he, ?_⟩
  rw [add]
  dsimp only
  simp only [sub_zero_of_lt ha.lt, sub_zero_of_lt hb.lt, add_zero_of_lt ha.lt, add_zero_of_lt hb.lt,
    zero_mul, mul_zero, sub_self_of_lt (mul_lt _ _), add_self, sub_zero_of_lt he.lt,
    add_zero_of_lt he.lt]

theorem centred_times {p : Point} (h : p.Centred) (n : Nat) : (p.times n).Centred := by
  induction n using Nat.strong_induction_on with
  | _ n ih =>
    rw [times]
    by_cases hn : n = 0
    · rw [dif_pos hn]
      exact centred_zero
    · have hhalf := ih (n / 2) (Nat.div_lt_self (Nat.pos_of_ne_zero hn) Nat.one_lt_two)
      rw [dif_neg hn]
      dsimp only
      split
      · exact centred_add (centred_add hhalf hhalf) h
      · exact centred_add hhalf hhalf

theorem toBytes_of_centred {p : Point} (h : p.Centred) : p.toBytes = littleEndian 32 1 := by
  obtain ⟨c, hc, rfl⟩ := h
  rw [toBytes]
  dsimp only
  rw [mul_inverse_of_isPower hc, zero_mul]

end Point

end Curve

namespace Ed25519

open Curve

/-- The neutral point as a key. -/
def neutralKey : Bytes := littleEndian 32 1

/-- The signature whose commitment is the neutral point and whose second number is zero. -/
def neutralSignature : Bytes := neutralKey ++ littleEndian 32 0

theorem ofBytes?_neutralKey : ∃ key, Point.ofBytes? neutralKey = some key ∧ key.Centred := by
  have hread : (Point.ofBytes? neutralKey).map (fun p => (p.x, p.y, p.z, p.t)) =
      some (0, 1, 1, 0) := by decide +kernel
  obtain ⟨⟨x, y, z, t⟩, hkey, hcoordinates⟩ := Option.map_eq_some_iff.1 hread
  cases hcoordinates
  exact ⟨_, hkey, 1, isPower_one, rfl⟩

/-- Under the key of the neutral point one signature is good for every message. -/
theorem verify_neutral (message : Bytes) :
    verify neutralKey message neutralSignature = .ok () := by
  obtain ⟨key, hkey, hcentred⟩ := ofBytes?_neutralKey
  have hcommitment : neutralSignature.take 32 = neutralKey := by decide
  have hscalar : ofLittleEndian (neutralSignature.drop 32) = 0 := by decide
  have hequation : ∀ k, ((Point.base.times 0).add (key.neg.times k)).toBytes = neutralKey := by
    intro k
    have hzero : (Point.base.times 0).Centred := by
      rw [Point.times, dif_pos rfl]
      exact Point.centred_zero
    exact Point.toBytes_of_centred
      (Point.centred_add hzero (Point.centred_times (Point.centred_neg hcentred) k))
  rw [verify, if_neg (by decide), hkey]
  dsimp only
  rw [if_neg (by decide), hscalar, if_neg (by decide), hcommitment, if_pos (hequation _)]

end Ed25519

end LedgerClient
