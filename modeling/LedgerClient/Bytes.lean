/-!
# Byte strings

Byte strings are lists of bytes.  `littleEndian w n` writes `n` in `w` bytes, lowest byte first,
and `ofLittleEndian` reads them back; `Bytes.split?` takes a fixed number of bytes off the front.
-/

namespace LedgerClient

abbrev Bytes := List UInt8

/-- The `width` lowest base-256 digits of `n`, lowest first. -/
def littleEndian : (width : Nat) → (n : Nat) → Bytes
  | 0, _ => []
  | width + 1, n => UInt8.ofNat n :: littleEndian width (n / 256)

def ofLittleEndian : Bytes → Nat
  | [] => 0
  | b :: bs => b.toNat + 256 * ofLittleEndian bs

theorem length_littleEndian (width n : Nat) : (littleEndian width n).length = width := by
  induction width generalizing n with
  | zero => rfl
  | succ width ih => simp [littleEndian, ih]

/-- The first `n` bytes and the rest, if there are that many. -/
def Bytes.split? : (n : Nat) → Bytes → Option (Bytes × Bytes)
  | 0, bs => some ([], bs)
  | _ + 1, [] => none
  | n + 1, b :: bs =>
    match Bytes.split? n bs with
    | none => none
    | some (front, rest) => some (b :: front, rest)

theorem split?_append (front rest : Bytes) :
    Bytes.split? front.length (front ++ rest) = some (front, rest) := by
  induction front with
  | nil => rfl
  | cons b front ih => simp [Bytes.split?, ih]

theorem eq_append_of_split? {n : Nat} {bs front rest : Bytes}
    (h : Bytes.split? n bs = some (front, rest)) : bs = front ++ rest ∧ front.length = n := by
  induction n generalizing bs front with
  | zero => simp [Bytes.split?] at h; simp [h]
  | succ n ih =>
    cases bs with
    | nil => simp [Bytes.split?] at h
    | cons b bs =>
      simp only [Bytes.split?] at h
      split at h
      · simp at h
      · rename_i f r heq
        obtain ⟨rfl, rfl⟩ : b :: f = front ∧ r = rest := by simpa using h
        simp [(ih heq).1, (ih heq).2]

end LedgerClient
