/-!
# Double-precision numbers

A number is kept as its sign, its integer significand and its power of two, so
that every operation on it is exact arithmetic on integers. `Double.ofQuotient`
rounds an exact quotient to the nearest number, a tie going to the even
significand, which is what a reader of decimal text needs.
-/

namespace CloudGraph

/-- A double-precision number. `finite negative significand exponent` stands for
`± significand * 2 ^ exponent`; `Double.ofQuotient` builds it with
`significand < 2 ^ 53` and `-1074 ≤ exponent ≤ 971`. -/
inductive Double where
  | nan
  | infinite (negative : Bool)
  | finite (negative : Bool) (significand : Nat) (exponent : Int)
  deriving DecidableEq, Inhabited

namespace Double

/-- The natural number nearest to `n / d`, a tie going to the even one. -/
def roundQuotient (n d : Nat) : Nat :=
  let floor := n / d
  let twice := 2 * (n % d)
  if twice < d then floor
  else if d < twice then floor + 1
  else floor + floor % 2

/-- `n * 2 ^ e` as a quotient of natural numbers. -/
def scaleTwo (n : Nat) (e : Int) : Nat × Nat :=
  if 0 ≤ e then (n * Nat.pow 2 e.toNat, 1) else (n, Nat.pow 2 (-e).toNat)

/-- The largest `e` with `2 ^ e ≤ n / d`, for positive `n` and `d`. -/
def floorLog (n d : Nat) : Int :=
  let guess : Int := (n.log2 : Int) - (d.log2 : Int)
  let (up, down) := scaleTwo d guess
  if n * down < up then guess - 1 else guess

/-- The number nearest to `n / d`, a tie going to the even significand; a
quotient too large for any finite number is infinite. -/
def ofQuotient (negative : Bool) (n d : Nat) : Double :=
  if n = 0 then .finite negative 0 (-1074)
  else
    let exponent := max (floorLog n d - 52) (-1074)
    let (up, down) := scaleTwo d exponent
    let significand := roundQuotient (n * down) up
    let carried := significand = Nat.pow 2 53
    let significand := if carried then Nat.pow 2 52 else significand
    let exponent := if carried then exponent + 1 else exponent
    if 971 < exponent then .infinite negative else .finite negative significand exponent

/-- The number nearest to `± digits * 10 ^ exponent`. A magnitude that no finite
number reaches is settled from the count of digits, without computing the power. -/
def ofDecimal (negative : Bool) (digits : Nat) (exponent : Int) : Double :=
  let magnitude := exponent + (Nat.toDigits 10 digits).length
  if digits = 0 then .finite negative 0 (-1074)
  else if 310 < magnitude then .infinite negative
  else if magnitude < -330 then .finite negative 0 (-1074)
  else if 0 ≤ exponent then ofQuotient negative (digits * Nat.pow 10 exponent.toNat) 1
  else ofQuotient negative digits (Nat.pow 10 (-exponent).toNat)

/-- The number nearest to an integer. -/
def ofInt (value : Int) : Double :=
  ofQuotient (value < 0) value.natAbs 1

/-- The opposite number. -/
def neg : Double → Double
  | .nan => .nan
  | .infinite negative => .infinite (!negative)
  | .finite negative significand exponent => .finite (!negative) significand exponent

/-- The integer part of the product of two finite numbers; the product is rounded to the
nearest number first. -/
def truncatedProduct? : Double → Double → Option Int
  | .finite negative significand exponent, .finite negative' significand' exponent' =>
    let (n, d) := scaleTwo (significand * significand') (exponent + exponent')
    match ofQuotient (negative != negative') n d with
    | .finite negative significand exponent =>
      let (n, d) := scaleTwo significand exponent
      let magnitude : Int := (n / d : Nat)
      some (if negative then -magnitude else magnitude)
    | _ => none
  | _, _ => none

/-- The integer that the number is, if it is one. -/
def toInt? : Double → Option Int
  | .finite negative significand exponent =>
    let (n, d) := scaleTwo significand exponent
    if n % d = 0 then
      let magnitude : Int := (n / d : Nat)
      some (if negative then -magnitude else magnitude)
    else none
  | _ => none

/-- Whether the number is a zero of either sign. -/
def isZero : Double → Bool
  | .finite _ 0 _ => true
  | _ => false

/-- Whether two numbers are the same key of a mapping: both zeros are one key,
and so are all texts that read as not-a-number. -/
def same (a b : Double) : Bool :=
  a == b || (a.isZero && b.isZero)

/-- Whether the magnitude exceeds a natural number. -/
def exceeds (value : Double) (bound : Nat) : Bool :=
  match value with
  | .nan => false
  | .infinite _ => true
  | .finite _ significand exponent =>
    let (n, d) := scaleTwo significand exponent
    bound * d < n

end Double

end CloudGraph
