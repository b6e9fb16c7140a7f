import DocQuery.Text.Basic

/-!
# Reading numbers

Whole numbers of 64 bits and doubles, read from their decimal text.

## Main Definitions

* `fitsInt64` — the range of a signed 64-bit number
* `readInt?` — an optional sign and digits, in that range
* `readFloat?` — a decimal with optional sign, point and exponent, or the name of a
  special value

## Design Notes

Digits are accumulated in `Nat`, so nothing overflows before the range is checked.  A
decimal whose leading digit lies far outside the exponents of doubles is zero or infinite
without computing its power of ten.
-/

namespace DocQuery.Decimal

open DocQuery.Text

/-- The range of a signed 64-bit number. -/
def fitsInt64 (n : Int) : Bool :=
  -9223372036854775808 ≤ n && n < 9223372036854775808

def natOfDigits (ds : List Char) : Nat :=
  Nat.ofDigitChars 10 ds 0

/-- The number that a non-empty run of ASCII digits stands for. -/
def readNat? (cs : List Char) : Option Nat :=
  if cs.isEmpty || !cs.all Char.isDigit then none else some (natOfDigits cs)

/-- A sign, if one is written, and what follows it. -/
def splitSign : List Char → Bool × List Char
  | '-' :: rest => (true, rest)
  | '+' :: rest => (false, rest)
  | cs => (false, cs)

def applySign (negative : Bool) (n : Nat) : Int :=
  if negative then -(n : Int) else n

/-- A signed 64-bit number: an optional sign, then digits. -/
def readInt? (cs : List Char) : Option Int := do
  let (negative, rest) := splitSign cs
  let n ← readNat? rest
  let value := applySign negative n
  if fitsInt64 value then some value else none

/-- The double nearest to `digits · 10 ^ exponent`. -/
def floatOf (digits : Nat) (exponent : Int) : Float :=
  let leading := ((Nat.toDigits 10 digits).length : Int) + exponent
  if digits == 0 || leading < -330 then 0
  else if 320 < leading then 1 / 0
  else Float.ofScientific digits (exponent < 0) exponent.natAbs

/-- An exponent: the mark, an optional sign and digits.  The empty text is the exponent
zero. -/
def readExponent? : List Char → Option Int
  | [] => some 0
  | mark :: rest => do
    if mark != 'e' && mark != 'E' then none
    let (negative, ds) := splitSign rest
    let n ← readNat? ds
    return applySign negative n

/-- An unsigned decimal: digits with an optional point, at least one digit, and an
exponent. -/
def readDecimal? (cs : List Char) : Option Float := do
  let whole := cs.takeWhile Char.isDigit
  let rest := cs.dropWhile Char.isDigit
  let (fraction, rest) :=
    match rest with
    | '.' :: rest => (rest.takeWhile Char.isDigit, rest.dropWhile Char.isDigit)
    | _ => ([], rest)
  if whole.isEmpty && fraction.isEmpty then none
  let exponent ← readExponent? rest
  return floatOf (natOfDigits (whole ++ fraction)) (exponent - fraction.length)

/-- The unsigned value of a decimal or of the name of a special value. -/
def readMagnitude? (cs : List Char) : Option Float :=
  let name := String.ofList cs
  if sameWord name "inf" || sameWord name "infinity" then some (1 / 0)
  else if sameWord name "nan" then some (0 / 0)
  else readDecimal? cs

/-- A double: an optional sign, then a decimal or the name of a special value. -/
def readFloat? (cs : List Char) : Option Float :=
  let (negative, rest) := splitSign cs
  (readMagnitude? rest).map fun x => if negative then -x else x

end DocQuery.Decimal
