/-
# Nonnegative binary64 numbers

A finite nonnegative binary64 number is `significand * 2 ^ exponent` with a
significand below 2^53 and an exponent between -1074 and 971.  Rounding goes to
the nearest such number, an exact tie to the even significand.  A number is
written with the fewest decimal digits that read back.

Key definitions: `Binary64.nearest`, `Binary64.ofParts`, `Binary64.text`.
-/

namespace WikiOutline

/-- A finite nonnegative binary64 number, `significand * 2 ^ exponent`. -/
structure Binary64 where
  significand : Nat
  exponent : Int
  deriving Repr, DecidableEq

namespace Binary64

/-- The number zero. -/
def zero : Binary64 := ⟨0, -1074⟩

/-- The number as a fraction. -/
def fraction (x : Binary64) : Nat × Nat :=
  if 0 ≤ x.exponent then (x.significand <<< x.exponent.toNat, 1)
  else (x.significand, 1 <<< (-x.exponent).toNat)

/-- The quotient rounded to the nearest natural number, a tie to the even one. -/
def roundQuotient (num den : Nat) : Nat :=
  let q := num / den
  let r := num % den
  if 2 * r < den then q else if den < 2 * r then q + 1 else q + q % 2

/-- A fraction divided by `2 ^ e`. -/
def scaleDown (num den : Nat) (e : Int) : Nat × Nat :=
  if 0 ≤ e then (num, den <<< e.toNat) else (num <<< (-e).toNat, den)

/-- The exponent at which a positive fraction has a significand of 53 bits, but
never below that of the smallest positive number. -/
def fittingExponent (num den : Nat) : Int :=
  let guess : Int := (Nat.log2 num : Int) - (Nat.log2 den : Int) - 52
  let (n, d) := scaleDown num den guess
  max (-1074) (if n / d < 1 <<< 52 then guess - 1 else guess)

/-- The nearest finite number to a fraction, if the fraction is not beyond the
largest one. -/
def nearest (num den : Nat) : Option Binary64 :=
  if num = 0 then some zero
  else
    let e := fittingExponent num den
    let (n, d) := scaleDown num den e
    let m := roundQuotient n d
    let x : Binary64 := if m = 1 <<< 53 then ⟨1 <<< 52, e + 1⟩ else ⟨m, e⟩
    if 971 < x.exponent then none else some x

/-- The number nearest to a power of ten, up to `10 ^ 308`. -/
def powerOfTen (k : Nat) : Binary64 := (nearest (Nat.pow 10 k) 1).getD zero

/-- The rounded product. -/
def times (x y : Binary64) : Option Binary64 :=
  let (a, b) := x.fraction
  let (c, d) := y.fraction
  nearest (a * c) (b * d)

/-- The rounded quotient by a positive number. -/
def divided (x y : Binary64) : Binary64 :=
  let (a, b) := x.fraction
  let (c, d) := y.fraction
  (nearest (a * d) (b * c)).getD zero

/-- Divides by `10 ^ 308` until the rest `k` of the negative power is at most 308;
`steps` bounds how often, and zero stays zero. -/
def shrink : Nat → Binary64 → Nat → Binary64
  | 0, x, _ => x
  | steps + 1, x, k =>
    if k ≤ 308 then x.divided (powerOfTen k)
    else if x.significand = 0 then x
    else shrink steps (x.divided (powerOfTen 308)) (k - 308)

/-- A whole number times a power of ten: the number is rounded first, then
multiplied or divided by the rounded power.  There is no result beyond the
largest number. -/
def ofParts (whole : Nat) (power : Int) : Option Binary64 :=
  let x := (nearest whole 1).getD zero
  if 0 ≤ power then
    if power ≤ 308 then x.times (powerOfTen power.toNat)
    else if x.significand = 0 then some x
    else none
  else some (shrink 5 x (-power).toNat)

/-! ### Shortest text -/

/-- The fraction `digits * 10 ^ power`. -/
def decimalFraction (digits : Nat) (power : Int) : Nat × Nat :=
  if 0 ≤ power then (digits * Nat.pow 10 power.toNat, 1) else (digits, Nat.pow 10 (-power).toNat)

/-- A decimal reads back as `x`. -/
def readsBack (x : Binary64) (digits : Nat) (power : Int) : Bool :=
  let (n, d) := decimalFraction digits power
  nearest n d == some x

/-- Of the two decimals of the given power around `x`, one that reads back, the
nearer one if both do. -/
def decimalAt (x : Binary64) (power : Int) : Option Nat :=
  let (n, d) := x.fraction
  let (p, q) :=
    if 0 ≤ power then (n, d * Nat.pow 10 power.toNat) else (n * Nat.pow 10 (-power).toNat, d)
  let low := p / q
  match readsBack x low power, readsBack x (low + 1) power with
  | true, true => some (roundQuotient p q)
  | true, false => some low
  | false, true => some (low + 1)
  | false, false => none

/-- The power of ten of the leading digit of a positive number. -/
def leadingPower (x : Binary64) : Int :=
  let (n, d) := x.fraction
  if d ≤ n then ((toString (n / d)).length : Int) - 1
  else -((toString ((d + n - 1) / n)).length : Int)

/-- Tries one digit more at a time. -/
def shortestFrom (x : Binary64) (power : Int) : Nat → Nat × Int
  | 0 => ((decimalAt x power).getD 0, power)
  | more + 1 =>
    match decimalAt x power with
    | some digits => (digits, power)
    | none => shortestFrom x (power - 1) more

/-- The fewest digits that read back, and the power of ten of the last one. -/
def shortest (x : Binary64) : Nat × Int := shortestFrom x (leadingPower x + 1) 19

/-- The digits of a number with a point behind the leading `whole` ones, and at
least one digit on both sides; `whole` may be zero or less. -/
def positional (ds : List Char) (whole : Int) : List Char :=
  if whole ≤ 0 then '0' :: '.' :: List.replicate (-whole).toNat '0' ++ ds
  else
    let n := whole.toNat
    if ds.length ≤ n then ds ++ List.replicate (n - ds.length) '0' ++ ['.', '0']
    else ds.take n ++ '.' :: ds.drop n

/-- The digits of a number with a point behind the first one, and the power of
ten that the first one stands for, its sign always written. -/
def scientific (ds : List Char) (power : Int) : List Char :=
  let mantissa :=
    match ds with
    | d :: e :: rest => d :: '.' :: e :: rest
    | ds => ds
  mantissa ++ 'e' :: (if 0 ≤ power then '+' else '-') :: (toString power.natAbs).toList

/-- The text of a number: positional when the first digit stands for a power of
ten between -5 and 15, else scientific. -/
def text (x : Binary64) : String :=
  if x.significand = 0 then "0.0"
  else
    let (digits, last) := shortest x
    let ds := (toString digits).toList
    let power := last + ds.length - 1
    String.ofList
      (if -5 ≤ power && power ≤ 15 then positional ds (power + 1) else scientific ds power)

end Binary64

end WikiOutline
