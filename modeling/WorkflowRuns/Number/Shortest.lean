import WorkflowRuns.Number.Binary64

/-!
# The shortest decimal that reads back

Each double is the nearest one to every number of some interval around it. Among the decimals in
that interval the ones with the fewest digits are taken, of these the one nearest to the double, and
of two that are equally near the even one. Everything is exact arithmetic on naturals.
-/

namespace WorkflowRuns

/-- The number `digits * 10 ^ exponent`. -/
structure Decimal where
  /-- The digits, as one number. -/
  digits : Nat
  /-- The power of ten that they count. -/
  exponent : Int
deriving DecidableEq

namespace Decimal

/-- Takes the zeros at the end out of the digits. -/
def trimmed (fuel : Nat) (d : Decimal) : Decimal :=
  match fuel with
  | 0 => d
  | fuel + 1 => if d.digits % 10 = 0 then trimmed fuel ⟨d.digits / 10, d.exponent + 1⟩ else d

end Decimal

namespace Ratio

/-- Whether `r ≤ s`. -/
def le (r s : Ratio) : Bool := r.num * s.den ≤ s.num * r.den

/-- Whether `r < s`. -/
def lt (r s : Ratio) : Bool := r.num * s.den < s.num * r.den

/-- The ratio `m * 10 ^ e`. -/
def ofDecimal (d : Decimal) : Ratio :=
  if 0 ≤ d.exponent then ⟨d.digits * Nat.pow 10 d.exponent.toNat, 1⟩
  else ⟨d.digits, Nat.pow 10 (-d.exponent).toNat⟩

/-- The number of digits of `r` before its point; for a ratio below one tenth, less than zero by the
number of zeros right after the point. It counts from an upper bound down. -/
def places (r : Ratio) (bound : Int) : Nat → Int
  | 0 => bound
  | fuel + 1 =>
    if (ofDecimal ⟨1, bound - 1⟩).le r then bound else places r (bound - 1) fuel

end Ratio

namespace Binary64

/-- The numbers that round to a double: their ends, and whether the ends belong to them. -/
structure Neighbourhood where
  /-- The lower end. -/
  low : Ratio
  /-- The upper end. -/
  high : Ratio
  /-- Whether the ends round to the double too. -/
  closed : Bool

/-- Whether a ratio lies in a neighbourhood. -/
def Neighbourhood.holds (i : Neighbourhood) (r : Ratio) : Bool :=
  if i.closed then i.low.le r && r.le i.high else i.low.lt r && r.lt i.high

/-- The numbers that round to `x`, without its sign: up to the middle of the way to the next double
on either side. The next double below a power of two is half as far away. -/
def neighbourhood (x : Binary64) : Neighbourhood :=
  let (m, e) := x.parts
  { low := if m = Ratio.leadingBit ∧ Ratio.leastExponent < e then .scaled (4 * m - 1) (e - 2)
      else .scaled (2 * m - 1) (e - 1)
    high := .scaled (2 * m + 1) (e - 1)
    closed := m % 2 = 0 }

/-- The decimal with the given exponent that reads back as `x` and is nearest to it, if there is
one: the next below or the next above. -/
def onGrid? (x : Binary64) (exponent : Int) : Option Decimal :=
  let r := x.absolute
  let unit := Ratio.ofDecimal ⟨1, exponent⟩
  let scaled := r.div unit
  let below := scaled.num / scaled.den
  let left := scaled.num % scaled.den
  let holds n := x.neighbourhood.holds (.ofDecimal ⟨n, exponent⟩)
  match holds below, holds (below + 1) with
  | false, false => none
  | true, false => some ⟨below, exponent⟩
  | false, true => some ⟨below + 1, exponent⟩
  | true, true =>
    if 2 * left < scaled.den || (2 * left == scaled.den && below % 2 == 0) then
      some ⟨below, exponent⟩
    else some ⟨below + 1, exponent⟩

/-- Searches the grids with `count`, `count + 1`, … digits. -/
def searchGrids (x : Binary64) (places : Int) (count : Nat) : Nat → Decimal
  | 0 => ⟨0, 0⟩
  | fuel + 1 =>
    match x.onGrid? (places - count) with
    | some d => d
    | none => searchGrids x places (count + 1) fuel

/-- The shortest decimal that reads back as `x`, without its sign. Seventeen digits always do. -/
def shortest (x : Binary64) : Decimal :=
  if x.magnitude = 0 then ⟨0, 0⟩
  else (x.searchGrids (x.absolute.places 309 640) 1 17).trimmed 20

end Binary64

end WorkflowRuns
