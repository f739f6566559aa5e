import LedgerClient.Bytes
/-!
# The curve of Ed25519

The points of `-x² + y² = 1 + d x² y²` over the integers modulo `2^255 - 19`, in coordinates
`(X : Y : Z : T)` with `x = X/Z`, `y = Y/Z` and `T = XY/Z`.  The addition law has no exceptions.  A
point is written as its `y` in 32 bytes, with the parity of `x` in the highest bit.
-/

namespace LedgerClient.Curve

def prime : Nat := Nat.pow 2 255 - 19

/-- The order of the base point. -/
def order : Nat := Nat.pow 2 252 + 27742317777372353535851937790883648493

def mul (a b : Nat) : Nat := a * b % prime

def add (a b : Nat) : Nat := (a + b) % prime

def sub (a b : Nat) : Nat := (a + (prime - b % prime)) % prime

def square (a : Nat) : Nat := mul a a

def pow (a : Nat) (n : Nat) : Nat :=
  if h : n = 0 then 1
  else
    let r := square (pow a (n / 2))
    if n % 2 = 1 then mul r a else r
termination_by n
decreasing_by exact Nat.div_lt_self (Nat.pos_of_ne_zero h) (by decide)

def inverse (a : Nat) : Nat := pow a (prime - 2)

def d : Nat := mul (sub 0 121665) (inverse 121666)

/-- A square root of `-1`. -/
def rootOfMinusOne : Nat := pow 2 ((prime - 1) / 4)

/-- A root of `u / v`, if there is one. -/
def rootOfRatio? (u v : Nat) : Option Nat :=
  let v3 := mul (square v) v
  let v7 := mul (square v3) v
  let r := mul (mul u v3) (pow (mul u v7) ((prime - 5) / 8))
  let check := mul v (square r)
  if check = u % prime then some r
  else if check = sub 0 u then some (mul r rootOfMinusOne)
  else none

structure Point where
  (x y z t : Nat)

namespace Point

def zero : Point := ⟨0, 1, 1, 0⟩

def add (p q : Point) : Point :=
  let a := mul (sub p.y p.x) (sub q.y q.x)
  let b := mul (Curve.add p.y p.x) (Curve.add q.y q.x)
  let c := mul (mul p.t (mul 2 d)) q.t
  let e := mul (mul p.z 2) q.z
  let f := sub b a
  let g := sub e c
  let h := Curve.add e c
  let i := Curve.add b a
  ⟨mul f g, mul h i, mul g h, mul f i⟩

def neg (p : Point) : Point := ⟨sub 0 p.x, p.y, p.z, sub 0 p.t⟩

/-- The sum of `n` copies of a point. -/
def times (n : Nat) (p : Point) : Point :=
  if h : n = 0 then zero
  else
    let half := times (n / 2) p
    let double := half.add half
    if n % 2 = 1 then double.add p else double
termination_by n
decreasing_by exact Nat.div_lt_self (Nat.pos_of_ne_zero h) (by decide)

def toBytes (p : Point) : Bytes :=
  let w := inverse p.z
  let x := mul p.x w
  let y := mul p.y w
  littleEndian 32 (y + x % 2 * Nat.pow 2 255)

/-- Reads a point.  The number for `y` may exceed the modulus, and a parity bit on `x = 0` is
passed over. -/
def ofBytes? (bs : Bytes) : Option Point :=
  let n := ofLittleEndian bs
  let y := n % Nat.pow 2 255 % prime
  let odd := n / Nat.pow 2 255 % 2
  match rootOfRatio? (sub (square y) 1) (Curve.add (mul d (square y)) 1) with
  | none => none
  | some r =>
    let x := if r % 2 = odd then r else sub 0 r
    some ⟨x, y, 1, mul x y⟩

/-- The point with `y = 4/5` and even `x`. -/
def base : Point := (ofBytes? (littleEndian 32 (mul 4 (inverse 5)))).getD zero

end Point

end LedgerClient.Curve
