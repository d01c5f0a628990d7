/-!
# Double-precision numbers

A finite IEEE 754 double is kept as its 64 bits, and what it stands for is computed exactly, as a
ratio of natural numbers: no operation here goes through floating-point hardware. Rounding goes to
the nearest double, and from the middle between two to the one with an even significand.
-/

namespace WorkflowRuns

/-- A finite double by its bits: the sign, 11 bits of exponent, 52 bits of significand. -/
structure Binary64 where
  /-- The 64 bits. -/
  bits : UInt64
deriving DecidableEq

/-- A ratio of natural numbers, not in lowest terms. -/
structure Ratio where
  /-- The numerator. -/
  num : Nat
  /-- The denominator, which is not zero. -/
  den : Nat

namespace Ratio

/-- The ratio `m * 2 ^ e`. -/
def scaled (m : Nat) (e : Int) : Ratio :=
  if 0 ≤ e then ⟨m * Nat.pow 2 e.toNat, 1⟩ else ⟨m, Nat.pow 2 (-e).toNat⟩

/-- The product. -/
def mul (a b : Ratio) : Ratio := ⟨a.num * b.num, a.den * b.den⟩

/-- The quotient by a ratio that is not zero. -/
def div (a b : Ratio) : Ratio := ⟨a.num * b.den, a.den * b.num⟩

/-- The whole part of `r / 2 ^ e`, with what is left over and what it is left over from. -/
def split (r : Ratio) (e : Int) : Nat × Nat × Nat :=
  let (n, d) := if 0 ≤ e then (r.num, r.den * Nat.pow 2 e.toNat)
    else (r.num * Nat.pow 2 (-e).toNat, r.den)
  (n / d, n % d, d)

/-- The whole part nearest to `r / 2 ^ e`, the even one from the middle. -/
def nearest (r : Ratio) (e : Int) : Nat :=
  let (whole, left, d) := r.split e
  if d < 2 * left || (d == 2 * left && whole % 2 == 1) then whole + 1 else whole

/-- The leading bit of a significand of 53 bits: `2 ^ 52`. -/
def leadingBit : Nat := 0x10000000000000

/-- The least exponent of a double. -/
def leastExponent : Int := -1074

/-- The exponent of the doubles around `r`: with it, significands lie below `2 ^ 53`. -/
def exponent (r : Ratio) : Int :=
  let guess := (r.num.log2 : Int) - r.den.log2 - 53
  let e := if guess < leastExponent then leastExponent else guess
  if 2 * leadingBit ≤ (r.split e).1 then e + 1 else e

/-- The bits, without the sign, of the double nearest to a ratio: none if it is beyond them all. -/
def magnitude? (r : Ratio) : Option Nat :=
  if r.num = 0 then some 0
  else
    let e := r.exponent
    let m := r.nearest e
    let bits := if m < leadingBit then m
      else (e - leastExponent + 1).toNat * leadingBit + (m - leadingBit)
    if bits < 2047 * leadingBit then some bits else none

end Ratio

namespace Binary64

open Ratio (leadingBit leastExponent)

/-- The bit of the sign: `2 ^ 63`. -/
def signBit : Nat := 0x8000000000000000

/-- The double of a sign and the bits after it. -/
def ofMagnitude (negative : Bool) (magnitude : Nat) : Binary64 :=
  ⟨.ofNat (if negative then signBit + magnitude else magnitude)⟩

/-- Whether the sign bit is set. -/
def isNegative (x : Binary64) : Bool := signBit ≤ x.bits.toNat

/-- The bits after the sign. -/
def magnitude (x : Binary64) : Nat := x.bits.toNat % signBit

/-- Significand and exponent: without its sign, `x` is `m * 2 ^ e`. -/
def parts (x : Binary64) : Nat × Int :=
  let e : Nat := x.magnitude / leadingBit
  let m : Nat := x.magnitude % leadingBit
  if e = 0 then (m, leastExponent) else (m + leadingBit, e + leastExponent - 1)

/-- The value of `x` without its sign. -/
def absolute (x : Binary64) : Ratio := Ratio.scaled x.parts.1 x.parts.2

/-- The double nearest to an integer: none if it is beyond them all. -/
def ofInt? (i : Int) : Option Binary64 :=
  (Ratio.magnitude? ⟨i.natAbs, 1⟩).map (ofMagnitude (i < 0))

end Binary64

end WorkflowRuns
