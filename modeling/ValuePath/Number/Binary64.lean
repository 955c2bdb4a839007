/-!
# Binary floating point numbers of 64 bits

A number is its bits: the sign, eleven bits of exponent and fifty-two bits of fraction. Two
numbers are equal as numbers when neither is a NaN and they have the same bits, or both are
zero; so a NaN differs from itself, and the zeros of both signs are equal.
-/

namespace ValuePath

/-- A floating point number, given by its bits. -/
structure Binary64 where
  /-- Sign, exponent and fraction, from the highest bit to the lowest. -/
  bits : UInt64
  deriving DecidableEq

namespace Binary64

/-- Whether the sign bit is set. -/
def isNegative (x : Binary64) : Bool :=
  x.bits >>> 63 = 1

/-- The eleven bits of the exponent. -/
def exponentField (x : Binary64) : Nat :=
  x.bits.toNat / Nat.pow 2 52 % Nat.pow 2 11

/-- The fifty-two bits of the fraction. -/
def fractionField (x : Binary64) : Nat :=
  x.bits.toNat % Nat.pow 2 52

/-- Neither an infinity nor a NaN. -/
def isFinite (x : Binary64) : Bool :=
  x.exponentField < 2047

/-- Not a number. -/
def isNaN (x : Binary64) : Bool :=
  x.exponentField = 2047 && x.fractionField ≠ 0

/-- A zero of either sign. -/
def isZero (x : Binary64) : Bool :=
  x.exponentField = 0 && x.fractionField = 0

/-- The significand `m` of a finite number, whose size is `m * 2 ^ exponent`. -/
def significand (x : Binary64) : Nat :=
  if x.exponentField = 0 then x.fractionField else Nat.pow 2 52 + x.fractionField

/-- The power of two that the significand of a finite number is multiplied by. -/
def exponent (x : Binary64) : Int :=
  if x.exponentField = 0 then -1074 else (x.exponentField : Int) - 1075

/-- Equality of numbers, which a NaN fails even against itself. -/
def numEq (x y : Binary64) : Bool :=
  !x.isNaN && !y.isNaN && (x.bits = y.bits || x.isZero && y.isZero)

/-- The NaN that stands for all of them where numbers are written out. -/
def nan : Binary64 := ⟨0x7FF8000000000000⟩

/-- The number with every NaN replaced by `nan`. -/
def canonical (x : Binary64) : Binary64 :=
  if x.isNaN then nan else x

/-- `n / 2 ^ k` rounded to the nearest natural number, a half to the even neighbour. -/
def roundShift (n k : Nat) : Nat :=
  let unit := Nat.pow 2 k
  let quotient := n / unit
  let remainder := n % unit
  if 2 * remainder > unit || (2 * remainder = unit && quotient % 2 = 1) then quotient + 1
  else quotient

/-- The number nearest to a natural number, a half to the even neighbour. Where rounding up
carries out of the significand, the carry moves into the exponent; past the greatest finite
number it is infinity. -/
def ofNat (n : Nat) : Binary64 :=
  if n = 0 then ⟨0⟩
  else
    let top := n.log2
    let scaled := if top ≤ 52 then n * Nat.pow 2 (52 - top) else roundShift n (top - 52)
    ⟨UInt64.ofNat (min ((top + 1022) * Nat.pow 2 52 + scaled) 0x7FF0000000000000)⟩

/-- The number nearest to an integer, a half to the even neighbour. -/
def ofInt (n : Int) : Binary64 :=
  let size := ofNat n.natAbs
  if n < 0 then ⟨size.bits ||| 0x8000000000000000⟩ else size

end Binary64

end ValuePath
