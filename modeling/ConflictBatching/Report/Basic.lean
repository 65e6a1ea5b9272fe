import ConflictBatching.Number.Binary64
import ConflictBatching.Report.Grid

/-! # Reports

A title and named values in their order, drawn as a table of two columns. A value is a text or a
measured time, alone or per unit. Quotients are formed in binary floating point, from operands that
are rounded first, and then written with a fixed number of places.
-/
namespace ConflictBatching

/-- A span of time in nanoseconds. -/
structure Duration where
  nanos : Nat
deriving DecidableEq

def padLeft (width : Nat) (text : String) : String :=
  String.ofList (List.replicate (width - text.length) '0') ++ text

/-- The quotient rounded to the given number of places. -/
def fixedText (places num den : Nat) : String :=
  let unit := Nat.pow 10 places
  let scaled := roundDiv (num * unit) den
  let whole := toString (scaled / unit)
  if places = 0 then whole else whole ++ "." ++ padLeft places (toString (scaled % unit))

/-- A whole part and the places after the point that are not zero at the end. -/
def trimmedText (whole fraction places : Nat) : String :=
  let digits := padLeft places (toString fraction)
  let digits := (digits.toList.reverse.dropWhile (· = '0')).reverse
  if digits.isEmpty then toString whole else s!"{whole}." ++ String.ofList digits

/-- In the greatest unit that leaves a whole part. -/
def Duration.text (d : Duration) : String :=
  if 1000000000 ≤ d.nanos then
    trimmedText (d.nanos / 1000000000) (d.nanos % 1000000000) 9 ++ "s"
  else if 1000000 ≤ d.nanos then
    trimmedText (d.nanos / 1000000) (d.nanos % 1000000) 6 ++ "ms"
  else if 1000 ≤ d.nanos then trimmedText (d.nanos / 1000) (d.nanos % 1000) 3 ++ "µs"
  else toString d.nanos ++ "ns"

/-- A quotient with a fixed number of places, or a dash where there is nothing to divide by. -/
def quotientText (places num den : Nat) : String :=
  if den = 0 then "-"
  else
    match Binary64.quotient? num den with
    | some x => fixedText places x.num x.den
    | none => "-"

/-- A share with three places. -/
def ratio (num den : Nat) : String := quotientText 3 num den

/-- The mean time per unit, in nanoseconds with one place. -/
def nsPer (d : Duration) (units : Nat) : String := quotientText 1 d.nanos units

inductive Cell where
  | text (text : String)
  /-- A measured time. -/
  | elapsed (d : Duration)
  /-- A measured time per unit. -/
  | perUnit (d : Duration) (units : Nat)
deriving DecidableEq

def Cell.toText : Cell → String
  | text t => t
  | elapsed d => d.text
  | perUnit d units => nsPer d units

def Cell.count (n : Nat) : Cell := .text (toString n)

structure Report where
  title : String
  rows : List (String × Cell) := []
deriving DecidableEq

namespace Report

/-- The value of the first row of that name. -/
def get? (r : Report) (metric : String) : Option String := (r.rows.lookup metric).map Cell.toText

def text (r : Report) : String :=
  gridText [r.title, ""] (r.rows.map fun (metric, value) => [metric, value.toText])

end Report
end ConflictBatching
