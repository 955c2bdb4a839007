import ValuePath.Number.Binary64

/-!
# The shortest decimal text of a number

Every finite number is the nearest one to a whole interval of real numbers. Its decimal text has
the fewest digits that name a point of that interval; of two such points the nearer one is
taken, and the greater one when both are equally near. The text is positional at every size,
and a whole number has no point.
-/

namespace ValuePath

/-- The multiples of a power of ten: the `n`-th one is `n * num / den`. -/
structure DecimalGrid where
  /-- The numerator of the width of the grid. -/
  num : Nat
  /-- The denominator of the width of the grid. -/
  den : Nat

/-- The multiples of `10 ^ k`. -/
def DecimalGrid.ofExponent (k : Int) : DecimalGrid :=
  if 0 ≤ k then ⟨Nat.pow 10 k.toNat, 1⟩ else ⟨1, Nat.pow 10 (-k).toNat⟩

/-- A positive real number and the ends of the interval of the reals that round to it, all of
them as multiples of `num / den`. -/
structure RoundingInterval where
  /-- The greatest lower bound of the interval. -/
  low : Nat
  /-- The number itself. -/
  mid : Nat
  /-- The least upper bound of the interval. -/
  high : Nat
  /-- The numerator of the common unit. -/
  num : Nat
  /-- The denominator of the common unit. -/
  den : Nat
  /-- Whether the two ends themselves round to the number. -/
  closed : Bool

namespace RoundingInterval

/-- The interval of a finite positive number. The unit is a quarter of the last binary place, so
that the ends, half a place away, are whole. Below a power of two the places are half as wide.
The ends round to the number exactly when its significand is even. -/
def ofBinary64 (x : Binary64) : RoundingInterval :=
  let m := x.significand
  let narrow := x.fractionField = 0 && 1 < x.exponentField
  let unit := x.exponent - 2
  { low := if narrow then 4 * m - 1 else 4 * m - 2
    mid := 4 * m
    high := 4 * m + 2
    num := if 0 ≤ unit then Nat.pow 2 unit.toNat else 1
    den := if 0 ≤ unit then 1 else Nat.pow 2 (-unit).toNat
    closed := m % 2 = 0 }

/-- Whether the `n`-th point of a grid lies in the interval. -/
def contains (i : RoundingInterval) (g : DecimalGrid) (n : Nat) : Bool :=
  let point := n * g.num * i.den
  let low := i.low * i.num * g.den
  let high := i.high * i.num * g.den
  if i.closed then low ≤ point && point ≤ high else low < point && point < high

/-- The point of a grid nearest to the number among those in the interval, the greater one of
two equally near ones. It is one of the two points around the number. -/
def nearestOn? (i : RoundingInterval) (g : DecimalGrid) : Option Nat :=
  let mid := i.mid * i.num * g.den
  let width := g.num * i.den
  let below := mid / width
  let above := below + 1
  match i.contains g below, i.contains g above with
  | false, false => none
  | true, false => some below
  | false, true => some above
  | true, true => if mid - below * width < above * width - mid then some below else some above

/-- The exponents of the grids on which a number can have its shortest text, the widest first. -/
def gridExponents : List Int :=
  (List.range 640).map fun i : Nat => (309 : Int) - i

/-- The digits and the power of ten of the shortest decimal in the interval. -/
def shortest (i : RoundingInterval) : Nat × Int :=
  (gridExponents.findSome? fun k =>
    (i.nearestOn? (DecimalGrid.ofExponent k)).map fun digits => (digits, k)).getD (0, 0)

end RoundingInterval

/-- The text of `digits * 10 ^ k` without an exponent. -/
def positional (digits : Nat) (k : Int) : String :=
  let ds := Nat.toDigits 10 digits
  if 0 ≤ k then String.ofList (ds ++ List.replicate k.toNat '0')
  else
    let places := (-k).toNat
    let padded := List.replicate (places + 1 - ds.length) '0' ++ ds
    String.ofList (padded.take (padded.length - places) ++ '.' ::
      padded.drop (padded.length - places))

/-- The decimal text of a number. -/
def Binary64.text (x : Binary64) : String :=
  if x.isNaN then "NaN"
  else
    let sign := if x.isNegative then "-" else ""
    if !x.isFinite then sign ++ "inf"
    else if x.isZero then sign ++ "0"
    else
      let (digits, k) := (RoundingInterval.ofBinary64 x).shortest
      sign ++ positional digits k

end ValuePath
