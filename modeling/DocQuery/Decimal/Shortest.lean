/-!
# Shortest decimal digits of a binary number

A positive double is `mantissa · 2 ^ exponent`.  Among the decimals that read back as that
double we want one with the fewest digits, and of those the nearest to the double itself.

## Main Definitions

* `Binary` — a positive binary number together with its distance to the next smaller double
* `Scientific` — digits and a power of ten
* `Tie` — which of two equally near decimals is taken
* `Binary.shortest` — the decimal with the fewest digits

## Design Notes

All arithmetic is exact and in `Nat`: the number and the two ends of the interval of reals
that round to it are brought over one denominator.  The ends belong to the interval
exactly when the mantissa is even, because reading rounds half to even.  For one digit,
two digits, and so on up to seventeen, the two multiples of the digit's place around the
number are tested against the interval; if any multiple lies inside, one of these two
does.
-/

namespace DocQuery.Decimal

/-- The positive number `mantissa · 2 ^ exponent`.  The flag says that the next smaller
double is only half as far away as the next larger one, as it is for a power of two. -/
structure Binary where
  mantissa : Nat
  exponent : Int
  narrowBelow : Bool

/-- The number `digits · 10 ^ exponent`. -/
structure Scientific where
  digits : Nat
  exponent : Int
deriving Repr, DecidableEq

/-- Which of two equally near decimals is taken. -/
inductive Tie where
  | toEven
  | up
deriving Repr, DecidableEq

/-- The interval of reals that round to a binary number: numerators of the number and of
the two ends over one denominator. -/
structure Interval where
  value : Nat
  low : Nat
  high : Nat
  denominator : Nat
  closed : Bool

namespace Binary

/-- The reals that round to `b`. -/
def interval (b : Binary) : Interval :=
  let unit := Nat.pow 2 b.exponent.toNat
  let value := 4 * b.mantissa * unit
  { value
    low := value - (if b.narrowBelow then unit else 2 * unit)
    high := value + 2 * unit
    denominator := 4 * Nat.pow 2 (-b.exponent).toNat
    closed := b.mantissa % 2 == 0 }

end Binary

namespace Interval

/-- Whether the rational `n / d` lies in the interval. -/
def contains (i : Interval) (n d : Nat) : Bool :=
  let x := n * i.denominator
  if i.closed then i.low * d ≤ x && x ≤ i.high * d else i.low * d < x && x < i.high * d

/-- A power of ten as numerator and denominator. -/
def tenTo (e : Int) : Nat × Nat :=
  (Nat.pow 10 e.toNat, Nat.pow 10 (-e).toNat)

/-- Whether the value is at least `10 ^ e`. -/
def reaches (i : Interval) (e : Int) : Bool :=
  let (n, d) := tenTo e
  n * i.denominator ≤ i.value * d

/-- The exponent of the value's leading decimal digit, searched downwards from `e`. -/
def leadingFrom (i : Interval) : Nat → Int → Int
  | 0, e => e
  | fuel + 1, e => if i.reaches e then e else leadingFrom i fuel (e - 1)

/-- The exponent of the leading decimal digit of a double.  Doubles lie below `10 ^ 309`
and above `10 ^ -325`. -/
def leading (i : Interval) : Int :=
  i.leadingFrom 640 310

/-- The multiple of `10 ^ place` nearest to the value among its two neighbours that lie in
the interval, if there is one. -/
def nearest (i : Interval) (tie : Tie) (place : Int) : Option Scientific :=
  let (n, d) := tenTo place
  let below := i.value * d / (i.denominator * n)
  let above := below + 1
  match i.contains (below * n) d && below != 0, i.contains (above * n) d with
  | false, false => none
  | true, false => some ⟨below, place⟩
  | false, true => some ⟨above, place⟩
  | true, true =>
    let gapBelow := i.value * d - below * n * i.denominator
    let gapAbove := above * n * i.denominator - i.value * d
    if gapBelow < gapAbove then some ⟨below, place⟩
    else if gapAbove < gapBelow then some ⟨above, place⟩
    else
      match tie with
      | .up => some ⟨above, place⟩
      | .toEven => some ⟨if below % 2 == 0 then below else above, place⟩

/-- The first grid with a hit, from `place` downwards. -/
def search (i : Interval) (tie : Tie) : Nat → Int → Scientific
  | 0, place => ⟨0, place⟩
  | fuel + 1, place =>
    match i.nearest tie place with
    | some found => found
    | none => search i tie fuel (place - 1)

end Interval

/-- Trailing zeros moved into the exponent. -/
def Scientific.trimZeros : Nat → Scientific → Scientific
  | 0, s => s
  | fuel + 1, s =>
    if s.digits != 0 && s.digits % 10 == 0 then
      trimZeros fuel ⟨s.digits / 10, s.exponent + 1⟩
    else s

/-- The decimal with the fewest digits that reads back as `b`. -/
def Binary.shortest (b : Binary) (tie : Tie) : Scientific :=
  let i := b.interval
  (i.search tie 18 i.leading).trimZeros 20

/-- What a double is: its sign, and what it stands for. -/
inductive Shape where
  | nan
  | infinite (negative : Bool)
  | zero (negative : Bool)
  | finite (negative : Bool) (magnitude : Binary)

/-- The weight of the bit that a normal double leaves out. -/
def hiddenBit : Nat := 4503599627370496

/-- The parts of a double, read off its bits. -/
def shape (x : Float) : Shape :=
  let bits := x.toBits.toNat
  let negative := bits / 9223372036854775808 == 1
  let exponent : Nat := bits / hiddenBit % 2048
  let fraction := bits % hiddenBit
  if exponent == 2047 then
    if fraction == 0 then .infinite negative else .nan
  else if exponent == 0 then
    if fraction == 0 then .zero negative else .finite negative ⟨fraction, -1074, false⟩
  else
    .finite negative ⟨hiddenBit + fraction, Int.ofNat exponent - 1075,
      fraction == 0 && 1 < exponent⟩

end DocQuery.Decimal
