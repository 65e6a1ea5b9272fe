/-! # Binary floating point of 64 bits

The finite values from zero up: a significand of at most 53 bits times a power of two not below
the least. A quotient is rounded to the nearest value, with ties to the even significand, so the
arithmetic here is exact arithmetic followed by one rounding.
-/
namespace ConflictBatching

/-- The whole number nearest to `num / den`, and the even one of two that are equally near. -/
def roundDiv (num den : Nat) : Nat :=
  let q := num / den
  let r := num % den
  if den < 2 * r ∨ (2 * r = den ∧ q % 2 = 1) then q + 1 else q

/-- The value `significand * 2 ^ exponent`. -/
structure Binary64 where
  significand : Nat
  exponent : Int
deriving DecidableEq

namespace Binary64

/-- The highest bit of a significand of 53 bits. -/
def leadingBit : Nat := 4503599627370496

def minExponent : Int := -1074

def maxExponent : Int := 971

def zero : Binary64 := ⟨0, minExponent⟩

/-- The value as a quotient of whole numbers. -/
def num (x : Binary64) : Nat := x.significand * Nat.pow 2 x.exponent.toNat

def den (x : Binary64) : Nat := Nat.pow 2 (-x.exponent).toNat

/-- The exponent at which `num / den` has 53 bits before the point. -/
def exponentOf (num den : Nat) : Int :=
  let e : Int := (num.log2 : Int) - den.log2 - 52
  if num * Nat.pow 2 (-e).toNat < den * Nat.pow 2 (e.toNat + 52) then e - 1 else e

/-- The value nearest to `num / den`; none if that is too large for any. -/
def ofQuotient? (num den : Nat) : Option Binary64 :=
  if num = 0 then some zero
  else
    let e := max (exponentOf num den) minExponent
    let m := roundDiv (num * Nat.pow 2 (-e).toNat) (den * Nat.pow 2 e.toNat)
    let x : Binary64 := if m = 2 * leadingBit then ⟨leadingBit, e + 1⟩ else ⟨m, e⟩
    if maxExponent < x.exponent then none else some x

def ofNat? (n : Nat) : Option Binary64 := ofQuotient? n 1

def mul? (x y : Binary64) : Option Binary64 := ofQuotient? (x.num * y.num) (x.den * y.den)

def div? (x y : Binary64) : Option Binary64 := ofQuotient? (x.num * y.den) (x.den * y.num)

/-- The quotient of two whole numbers that are rounded first, then divided. -/
def quotient? (num den : Nat) : Option Binary64 := do
  (← ofNat? num).div? (← ofNat? den)

/-- Whether the values just below the value lie twice as dense as those above. -/
def isBinadeStart (x : Binary64) : Bool := x.significand = leadingBit && minExponent < x.exponent

end Binary64
end ConflictBatching
