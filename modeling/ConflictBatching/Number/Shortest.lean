import ConflictBatching.Number.Binary64

/-! # The shortest decimal that reads back

Among the decimals that round to a value, those with the fewest digits, and of these the nearest
to the value. A grid of decimals is tried for each number of digits; if it meets the interval of
reals that round to the value, it does so at one of the two grid points beside the value.
-/
namespace ConflictBatching

/-- The decimal `digits * 10 ^ exponent`. -/
structure Decimal where
  digits : Nat
  exponent : Int
deriving DecidableEq

namespace Decimal

/-- Whether the decimal lies within half a step of the value, counted in quarters of a step. The
ends count when the significand is even, and below the first value of a binade the step is only
half as long. -/
def readsBack (x : Binary64) (d : Decimal) : Bool :=
  let num := 4 * d.digits * Nat.pow 10 d.exponent.toNat * Nat.pow 2 (-x.exponent).toNat
  let unit := Nat.pow 10 (-d.exponent).toNat * Nat.pow 2 x.exponent.toNat
  let low := (4 * x.significand - (if x.isBinadeStart then 1 else 2)) * unit
  let high := (4 * x.significand + 2) * unit
  if x.significand % 2 = 0 then low ≤ num && num ≤ high else low < num && num < high

/-- The distance to the value, times a factor that depends on the value and the exponent. -/
def distance (x : Binary64) (d : Decimal) : Nat :=
  let a := d.digits * Nat.pow 10 d.exponent.toNat * x.den
  let b := x.num * Nat.pow 10 (-d.exponent).toNat
  (a - b) + (b - a)

/-- The grid points beside the value that read back, the nearer one first. -/
def candidate? (x : Binary64) (exponent : Int) : Option Decimal :=
  let floor := x.num * Nat.pow 10 (-exponent).toNat / (x.den * Nat.pow 10 exponent.toNat)
  let below : Decimal := ⟨floor, exponent⟩
  let above : Decimal := ⟨floor + 1, exponent⟩
  match below.readsBack x, above.readsBack x with
  | true, true =>
    if below.distance x < above.distance x then some below
    else if above.distance x < below.distance x then some above
    else if floor % 2 = 0 then some below else some above
  | true, false => some below
  | false, true => some above
  | false, false => none

/-- The exponent of the first digit of `num / den`. -/
def topExponent (num den : Nat) : Int :=
  let guess : Int := (toString num).length - (toString den).length
  if den * Nat.pow 10 guess.toNat ≤ num * Nat.pow 10 (-guess).toNat then guess else guess - 1

/-- Trailing zeros are taken into the exponent. -/
def trim : (fuel : Nat) → Decimal → Decimal
  | 0, d => d
  | fuel + 1, d =>
    if d.digits ≠ 0 ∧ d.digits % 10 = 0 then trim fuel ⟨d.digits / 10, d.exponent + 1⟩ else d

/-- Seventeen digits always read back. -/
def shortest (x : Binary64) : Decimal :=
  let top := topExponent x.num x.den
  let found := (List.range 17).findSome? fun (k : Nat) => candidate? x (top - k)
  trim 17 (found.getD ⟨0, 0⟩)

end Decimal

/-- Where the point stands and how the exponent is written. -/
structure FloatStyle where
  /-- The least and the greatest exponent of the first digit that are written without one. -/
  minPlain : Int
  maxPlain : Int

/-- A value has at least one place after the point, or an exponent with its sign. -/
def FloatStyle.standard : FloatStyle := ⟨-5, 15⟩

def zeros (n : Nat) : String := String.ofList (List.replicate n '0')

/-- The digits with a point after the first `n`. -/
def pointAfter (n : Nat) (digits : String) : String :=
  (digits.take n).toString ++ "." ++ (digits.drop n).toString

def FloatStyle.decimal (style : FloatStyle) (d : Decimal) : String :=
  let digits := toString d.digits
  let first := d.exponent + digits.length - 1
  if first < style.minPlain ∨ style.maxPlain < first then
    let mantissa := if digits.length = 1 then digits else pointAfter 1 digits
    mantissa ++ "e" ++ (if first < 0 then "-" else "+") ++ toString first.natAbs
  else if first < 0 then "0." ++ zeros (-first - 1).toNat ++ digits
  else if 0 ≤ d.exponent then digits ++ zeros d.exponent.toNat ++ ".0"
  else pointAfter (first + 1).toNat digits

/-- The shortest text that reads back, with its sign. -/
def FloatStyle.text (style : FloatStyle) (negative : Bool) (x : Binary64) : String :=
  (if negative then "-" else "") ++
    if x.significand = 0 then "0.0" else style.decimal (Decimal.shortest x)

end ConflictBatching
