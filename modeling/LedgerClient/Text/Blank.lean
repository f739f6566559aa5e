/-!
# White space

The white space of texts is the Unicode property White_Space, and `trimBlank` takes it off both
ends of a text.
-/

namespace LedgerClient

/-- The code points with the property White_Space, as ranges. -/
def blankRanges : List (Nat × Nat) :=
  [(0x09, 0x0D), (0x20, 0x20), (0x85, 0x85), (0xA0, 0xA0), (0x1680, 0x1680), (0x2000, 0x200A),
   (0x2028, 0x2029), (0x202F, 0x202F), (0x205F, 0x205F), (0x3000, 0x3000)]

def isBlank (c : Char) : Bool := blankRanges.any fun r => r.1 ≤ c.toNat && c.toNat ≤ r.2

def dropBlank (cs : List Char) : List Char := cs.dropWhile isBlank

def trimBlank (cs : List Char) : List Char := (dropBlank (dropBlank cs).reverse).reverse

example : (blankRanges.map fun r => r.2 + 1 - r.1).sum = 25 := by decide

end LedgerClient
