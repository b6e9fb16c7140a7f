/-!
# Ranges of characters

Unicode properties are kept as ascending lists of closed ranges of code points.  All
tables hold the data of Unicode 17.

## Main Definitions

* `Range` — a first and a last code point
* `inRanges` — whether a character lies in one of several ranges
-/

namespace DocQuery.Text

/-- A first and a last code point. -/
abbrev Range := Nat × Nat

/-- Whether a character lies in one of the ranges. -/
def inRanges (ranges : List Range) (c : Char) : Bool :=
  ranges.any fun r => r.1 ≤ c.toNat && c.toNat ≤ r.2

@[simp] theorem inRanges_nil (c : Char) : inRanges [] c = false := rfl

@[simp] theorem inRanges_cons (r : Range) (ranges : List Range) (c : Char) :
    inRanges (r :: ranges) c = (r.1 ≤ c.toNat && c.toNat ≤ r.2 || inRanges ranges c) := rfl

end DocQuery.Text
