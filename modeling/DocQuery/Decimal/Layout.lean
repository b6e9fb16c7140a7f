import DocQuery.Decimal.Shortest

/-!
# How a double is written

The digits of a double are chosen once, by `Binary.shortest`; what remains is where the
point goes and when an exponent is written.  Three layouts are in use.

## Main Definitions

* `Layout` — the decisions of a written form
* `Layout.write` — the text of a double
* `json`, `literal`, `plain` — the layouts of documents, of values shown on their own, and of
  expressions
-/

namespace DocQuery.Decimal

/-- The decisions of a written form of doubles.  A number is written positionally when the
exponent of its leading digit lies between the bounds, and with an exponent otherwise. -/
structure Layout where
  /-- Least exponent of the leading digit that is written positionally, if bounded. -/
  lowest : Option Int
  /-- Greatest exponent of the leading digit that is written positionally, if bounded. -/
  highest : Option Int
  /-- Whether a whole number written positionally ends in `.0`. -/
  wholePoint : Bool
  /-- Whether a positive exponent carries its sign. -/
  plusSign : Bool
  /-- Which of two equally near shortest decimals is written. -/
  tie : Tie
  /-- Text of the infinities and of NaN, given the sign. -/
  infinite : Bool → String
  /-- Text of a value that is no number. -/
  nan : String

namespace Layout

/-- Whether a leading digit of exponent `e` is written positionally. -/
def isPositional (l : Layout) (e : Int) : Bool :=
  l.lowest.all (· ≤ e) && l.highest.all (e ≤ ·)

/-- Digits with the point after the digit of exponent zero. -/
def positional (l : Layout) (digits : List Char) (exponent : Int) : String :=
  if 0 ≤ exponent then
    let whole := String.ofList (digits ++ List.replicate exponent.toNat '0')
    if l.wholePoint then whole ++ ".0" else whole
  else
    let places := (-exponent).toNat
    let padded := List.replicate (places + 1 - digits.length) '0' ++ digits
    let split := padded.length - places
    String.ofList (padded.take split ++ '.' :: padded.drop split)

/-- One digit, the point and the others if there are others, and the exponent. -/
def scientific (l : Layout) (digits : List Char) (leading : Int) : String :=
  let mark := if l.plusSign && 0 ≤ leading then "e+" else "e"
  let fraction := if digits.length ≤ 1 then [] else '.' :: digits.drop 1
  String.ofList (digits.take 1 ++ fraction) ++ mark ++ toString leading

def magnitude (l : Layout) (b : Binary) : String :=
  let s := b.shortest l.tie
  let digits := Nat.toDigits 10 s.digits
  let leading := s.exponent + digits.length - 1
  if l.isPositional leading then l.positional digits s.exponent
  else l.scientific digits leading

def write (l : Layout) (x : Float) : String :=
  let signed (negative : Bool) (text : String) := if negative then "-" ++ text else text
  match shape x with
  | .nan => l.nan
  | .infinite negative => l.infinite negative
  | .zero negative => signed negative (if l.wholePoint then "0.0" else "0")
  | .finite negative b => signed negative (l.magnitude b)

end Layout

/-- Documents: positional from `1e-5` to below `1e16`, exponents signed, a half goes to
the even neighbour, and what is no finite number is `null`. -/
def json : Layout where
  lowest := some (-5)
  highest := some 15
  wholePoint := true
  plusSign := true
  tie := .toEven
  infinite _ := "null"
  nan := "null"

/-- A value on its own: positional from `1e-4` to below `1e16`, positive exponents
unsigned. -/
def literal : Layout where
  lowest := some (-4)
  highest := some 15
  wholePoint := true
  plusSign := false
  tie := .up
  infinite negative := if negative then "-inf" else "inf"
  nan := "NaN"

/-- A number inside an expression: always positional, and no point in a whole number. -/
def plain : Layout where
  lowest := none
  highest := none
  wholePoint := false
  plusSign := false
  tie := .up
  infinite negative := if negative then "-inf" else "inf"
  nan := "NaN"

end DocQuery.Decimal
