import CloudGraph.Number.Double

/-!
# Decimal text of double-precision numbers

`Double.shortest` finds the fewest decimal digits that read back as the same
number, and of those the nearest. `Double.text` lays them out. `Double.fixed` and
`Double.scientific` write a given count of places, rounded to nearest with a tie
going to the even digit.
-/

namespace CloudGraph

namespace Double

/-- `n * 10 ^ e` as a quotient of natural numbers. -/
def scaleTen (n : Nat) (e : Int) : Nat × Nat :=
  if 0 ≤ e then (n * Nat.pow 10 e.toNat, 1) else (n, Nat.pow 10 (-e).toNat)

/-- The decimal digits of a natural number, most significant first. -/
def digitsOf (n : Nat) : List Char :=
  Nat.toDigits 10 n

/-- The least `p` among a few guesses with `significand * 2 ^ exponent < 10 ^ p`.
The first guess is below the answer, since `1233 / 4096` is the logarithm of two
to five places. -/
def decimalPoint (significand : Nat) (exponent : Int) : Int :=
  let estimate := ((significand.log2 : Int) + exponent) * 1233 / 4096
  let (n, d) := scaleTwo significand exponent
  let below (p : Int) : Bool :=
    let (up, down) := scaleTen 1 p
    n * down < up * d
  let guesses := [estimate - 1, estimate, estimate + 1, estimate + 2]
  (guesses.find? below).getD (estimate + 3)

/-- Whether `digits * 10 ^ point` lies in the interval of reals that round to
`significand * 2 ^ exponent`; the ends belong to it when the significand is even. -/
def readsBack (significand : Nat) (exponent : Int) (digits : Nat) (point : Int) : Bool :=
  let (up, down) := scaleTen digits point
  let low := if significand = Nat.pow 2 52 ∧ -1074 < exponent then 4 * significand - 1
    else 4 * significand - 2
  let (lowUp, lowDown) := scaleTwo low (exponent - 2)
  let (highUp, highDown) := scaleTwo (4 * significand + 2) (exponent - 2)
  let value := (up * lowDown, lowUp * down)
  let limit := (highUp * down, up * highDown)
  if significand % 2 = 0 then value.2 ≤ value.1 && limit.2 ≤ limit.1
  else value.2 < value.1 && limit.2 < limit.1

/-- The nearest of the two `count`-digit neighbours of the number that read back
as it, if one does; a tie goes to the even neighbour. -/
def neighbour? (significand : Nat) (exponent point : Int) (count : Nat) : Option Nat :=
  let unit := point - count
  let (n, d) := scaleTwo significand exponent
  let (up, down) := scaleTen 1 unit
  let n := n * down
  let d := d * up
  let floor := n / d
  let nearest := roundQuotient n d
  let farther := if nearest = floor then floor + 1 else floor
  if readsBack significand exponent nearest unit then some nearest
  else if readsBack significand exponent farther unit then some farther
  else none

/-- The fewest digits that read back as the number, with the power of ten of the
last one. Seventeen digits always do. -/
def shortest (significand : Nat) (exponent : Int) : Nat × Int :=
  let point := decimalPoint significand exponent
  let counts := (List.range 17).map (· + 1)
  match counts.findSome? fun count =>
      (neighbour? significand exponent point count).map fun digits => (digits, point - count) with
  | some found => found
  | none => (significand, exponent)

/-- Drops the zeros at the end of a digit string. -/
def dropZeros (digits : List Char) : List Char :=
  (digits.reverse.dropWhile (· == '0')).reverse

/-- An exponent with its sign and at least two digits. -/
def exponentText (exponent : Int) : String :=
  let digits := digitsOf exponent.natAbs
  let digits := if digits.length < 2 then '0' :: digits else digits
  (if exponent < 0 then "e-" else "e+") ++ String.ofList digits

/-- Lays out a digit string whose first digit has the power of ten `lead`:
positional from `1e-4` up to `1e16`, where a whole number keeps one place, and in
scientific form elsewhere. -/
def layout (digits : List Char) (lead : Int) : String :=
  if -4 ≤ lead ∧ lead < 0 then
    "0." ++ String.ofList (List.replicate (-lead - 1).toNat '0' ++ digits)
  else if 0 ≤ lead ∧ lead < 16 then
    let whole := digits.take (lead.toNat + 1)
    let zeros := List.replicate (lead.toNat + 1 - digits.length) '0'
    let part := digits.drop (lead.toNat + 1)
    String.ofList (whole ++ zeros) ++ "." ++ (if part.isEmpty then "0" else String.ofList part)
  else
    match digits with
    | [] => "0"
    | first :: [] => String.singleton first ++ exponentText lead
    | first :: rest => String.singleton first ++ "." ++ String.ofList rest ++ exponentText lead

/-- The text of a number: the shortest digits that read back, `inf` and `nan`. -/
def text : Double → String
  | .nan => "nan"
  | .infinite negative => if negative then "-inf" else "inf"
  | .finite negative significand exponent =>
    (if negative then "-" else "") ++
      if significand = 0 then "0.0"
      else
        let (digits, unit) := shortest significand exponent
        let written := digitsOf digits
        layout (dropZeros written) (unit + written.length - 1)

/-- The text with a fixed count of decimal places. -/
def fixed (places : Nat) : Double → String
  | .nan => "nan"
  | .infinite negative => if negative then "-inf" else "inf"
  | .finite negative significand exponent =>
    let (n, d) := scaleTwo significand exponent
    let written := digitsOf (roundQuotient (n * Nat.pow 10 places) d)
    let padded := List.replicate (places + 1 - written.length) '0' ++ written
    let split := padded.length - places
    (if negative then "-" else "") ++ String.ofList (padded.take split) ++
      (if places = 0 then "" else "." ++ String.ofList (padded.drop split))

/-- The text in scientific form with a fixed count of decimal places. -/
def scientific (places : Nat) : Double → String
  | .nan => "nan"
  | .infinite negative => if negative then "-inf" else "inf"
  | .finite negative significand exponent =>
    let (n, d) := scaleTwo significand exponent
    let point := if significand = 0 then 1 else decimalPoint significand exponent
    let (up, down) := scaleTen 1 (point - (places + 1 : Nat))
    let digits := roundQuotient (n * down) (d * up)
    let carried := digits = Nat.pow 10 (places + 1)
    let digits := if carried then Nat.pow 10 places else digits
    let lead := if carried then point else point - 1
    let written := digitsOf digits
    let padded := written ++ List.replicate (places + 1 - written.length) '0'
    (if negative then "-" else "") ++ String.ofList (padded.take 1) ++
      (if places = 0 then "" else "." ++ String.ofList (padded.drop 1)) ++ exponentText lead

end Double

end CloudGraph
