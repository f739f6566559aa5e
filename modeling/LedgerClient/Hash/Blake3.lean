import LedgerClient.Bytes
/-!
# BLAKE3

The input is cut into chunks of 1024 bytes and these into blocks of 64; a chunk is compressed
block by block, and the chunks are joined in a binary tree whose left part is full.  Only the last
compression knows that it is the root.
-/

namespace LedgerClient.Blake3

/-- Four words, on which a step of the compression works at once. -/
structure Row where
  (x y z w : UInt32)

namespace Row

def map (f : UInt32 → UInt32) (a : Row) : Row := ⟨f a.x, f a.y, f a.z, f a.w⟩

def zip (f : UInt32 → UInt32 → UInt32) (a b : Row) : Row :=
  ⟨f a.x b.x, f a.y b.y, f a.z b.z, f a.w b.w⟩

def rotate (a : Row) : Row := ⟨a.y, a.z, a.w, a.x⟩

def toList (a : Row) : List UInt32 := [a.x, a.y, a.z, a.w]

end Row

def rotateRight (n : UInt32) (w : UInt32) : UInt32 := (w >>> n) ||| (w <<< (32 - n))

structure State where
  (a b c d : Row)

/-- Mixes the columns of the state with two words of the message each. -/
def State.mix (s : State) (m n : Row) : State :=
  let a := (s.a.zip (· + ·) s.b).zip (· + ·) m
  let d := (s.d.zip (· ^^^ ·) a).map (rotateRight 16)
  let c := s.c.zip (· + ·) d
  let b := (s.b.zip (· ^^^ ·) c).map (rotateRight 12)
  let a := (a.zip (· + ·) b).zip (· + ·) n
  let d := (d.zip (· ^^^ ·) a).map (rotateRight 8)
  let c := c.zip (· + ·) d
  let b := (b.zip (· ^^^ ·) c).map (rotateRight 7)
  ⟨a, b, c, d⟩

/-- Turns the diagonals of the state into columns. -/
def State.toDiagonals (s : State) : State :=
  ⟨s.a, s.b.rotate, s.c.rotate.rotate, s.d.rotate.rotate.rotate⟩

def State.ofDiagonals (s : State) : State :=
  ⟨s.a, s.b.rotate.rotate.rotate, s.c.rotate.rotate, s.d.rotate⟩

/-- The sixteen words of a block. -/
structure Block where
  (m0 m1 m2 m3 m4 m5 m6 m7 m8 m9 m10 m11 m12 m13 m14 m15 : UInt32)

def Block.ofList : List UInt32 → Block
  | [m0, m1, m2, m3, m4, m5, m6, m7, m8, m9, m10, m11, m12, m13, m14, m15] =>
    ⟨m0, m1, m2, m3, m4, m5, m6, m7, m8, m9, m10, m11, m12, m13, m14, m15⟩
  | _ => ⟨0, 0, 0, 0, 0, 0, 0, 0, 0, 0, 0, 0, 0, 0, 0, 0⟩

/-- The order of the words in the next round. -/
def Block.permute (b : Block) : Block :=
  ⟨b.m2, b.m6, b.m3, b.m10, b.m7, b.m0, b.m4, b.m13, b.m1, b.m11, b.m12, b.m5, b.m9, b.m14, b.m15,
    b.m8⟩

def round (s : State) (b : Block) : State :=
  let s := s.mix ⟨b.m0, b.m2, b.m4, b.m6⟩ ⟨b.m1, b.m3, b.m5, b.m7⟩
  (s.toDiagonals.mix ⟨b.m8, b.m10, b.m12, b.m14⟩ ⟨b.m9, b.m11, b.m13, b.m15⟩).ofDiagonals

def rounds : (n : Nat) → State → Block → State
  | 0, s, _ => s
  | n + 1, s, b => rounds n (round s b) b.permute

/-- Eight words that stand for what has been compressed. -/
structure Chaining where
  (low high : Row)

def initial : Chaining where
  low := ⟨0x6A09E667, 0xBB67AE85, 0x3C6EF372, 0xA54FF53A⟩
  high := ⟨0x510E527F, 0x9B05688C, 0x1F83D9AB, 0x5BE0CD19⟩

/-- A compression that waits to be told whether it is the root. -/
structure Pending where
  chaining : Chaining
  block : Block
  counter : Nat
  length : Nat
  flags : UInt32

def Pending.compress (p : Pending) (rootFlag : UInt32) : Chaining :=
  let s : State :=
    ⟨p.chaining.low, p.chaining.high, initial.low,
      ⟨UInt32.ofNat p.counter, UInt32.ofNat (p.counter / Nat.pow 2 32), UInt32.ofNat p.length,
        p.flags ||| rootFlag⟩⟩
  let s := rounds 7 s p.block
  ⟨s.a.zip (· ^^^ ·) s.c, s.b.zip (· ^^^ ·) s.d⟩

def chunkStart : UInt32 := 1
def chunkEnd : UInt32 := 2
def parentFlag : UInt32 := 4
def rootFlag : UInt32 := 8

/-- Cuts a list into pieces of `n + 1` and a shorter last one; an empty list is one empty piece. -/
def pieces {α : Type} (n : Nat) (l : List α) : List (List α) :=
  if h : l.length ≤ n + 1 then [l] else l.take (n + 1) :: pieces n (l.drop (n + 1))
termination_by l.length
decreasing_by simp only [List.length_drop]; omega

def words : Bytes → List UInt32
  | a :: b :: c :: d :: rest => UInt32.ofNat (ofLittleEndian [a, b, c, d]) :: words rest
  | _ => []

def blockOf (bs : Bytes) : Block := .ofList (words (bs ++ List.replicate (64 - bs.length) 0))

/-- Compresses the blocks of chunk number `counter`, all but the last one. -/
def chunkFrom (counter : Nat) (chaining : Chaining) (flags : UInt32) : List Bytes → Pending
  | [] => ⟨chaining, blockOf [], counter, 0, flags ||| chunkEnd⟩
  | [last] => ⟨chaining, blockOf last, counter, last.length, flags ||| chunkEnd⟩
  | block :: rest =>
    let done := Pending.compress ⟨chaining, blockOf block, counter, block.length, flags⟩ 0
    chunkFrom counter done 0 rest

def chunk (counter : Nat) (bs : Bytes) : Pending :=
  chunkFrom counter initial chunkStart (pieces 63 bs)

def parent (left right : Pending) : Pending :=
  let l := left.compress 0
  let r := right.compress 0
  ⟨initial, .ofList (l.low.toList ++ l.high.toList ++ r.low.toList ++ r.high.toList), 0, 64,
    parentFlag⟩

/-- The largest power of two below `n`. -/
def leftSize (n : Nat) : Nat := Nat.pow 2 (Nat.log2 (n - 1))

theorem leftSize_lt {n : Nat} (h : 2 ≤ n) : leftSize n < n := by
  have h₁ : n - 1 ≠ 0 := by omega
  have h₂ : leftSize n ≤ n - 1 := Nat.log2_self_le h₁
  omega

theorem leftSize_pos (n : Nat) : 0 < leftSize n := Nat.two_pow_pos _

def tree (chunks : List Pending) : Pending :=
  if _h : chunks.length ≤ 1 then chunks.headD (chunk 0 [])
  else
    parent (tree (chunks.take (leftSize chunks.length)))
      (tree (chunks.drop (leftSize chunks.length)))
termination_by chunks.length
decreasing_by
  all_goals
    have := leftSize_lt (n := chunks.length) (by omega)
    have := leftSize_pos chunks.length
    simp only [List.length_take, List.length_drop]
    omega

def numbered (n : Nat) : List Bytes → List Pending
  | [] => []
  | bs :: rest => chunk n bs :: numbered (n + 1) rest

/-- The hash of 32 bytes. -/
def hash (bs : Bytes) : Bytes :=
  let r := (tree (numbered 0 (pieces 1023 bs))).compress rootFlag
  (r.low.toList ++ r.high.toList).flatMap fun w => littleEndian 4 w.toNat

end LedgerClient.Blake3
