import WorkflowRuns.Json.Value
import WorkflowRuns.Number.Shortest

/-!
# Numbers in JSON texts

A numeral is a sign, digits before and after the point, and a power of ten. Without point and
exponent it names an integer as long as it fits into 64 bits; every other numeral names a double.

The double is found from a significand of at most 64 bits: digits that would not fit are left out
and only counted. The significand is rounded to a double and then multiplied or divided by a power
of ten, itself a double, so the result can be a neighbour of the nearest double.
-/

namespace WorkflowRuns.Json

/-- A number as it is written. -/
structure Numeral where
  /-- Whether a minus sign is in front. -/
  negative : Bool
  /-- The digits before the point; there is at least one. -/
  whole : List Char
  /-- The digits after the point, none if there is no point. -/
  fraction : List Char
  /-- Whether the exponent has a minus sign, and its digits. -/
  exponent : Option (Bool × List Char)

/-- The number that decimal digits stand for. -/
def digitsValue (cs : List Char) : Nat := Nat.ofDigitChars 10 cs 0

namespace Numeral

/-- The first number that does not fit into 64 bits. -/
def wordEnd : Nat := 0x10000000000000000

/-- Appends digits to a significand as long as it fits into 64 bits, and counts those left out. -/
def gather (significand : Nat) : List Char → Nat × Nat
  | [] => (significand, 0)
  | c :: cs =>
    let next := significand * 10 + (c.toNat - '0'.toNat)
    if next < wordEnd then gather next cs else (significand, cs.length + 1)

/-- The power of ten that is written after the digits. -/
def writtenExponent (n : Numeral) : Int :=
  match n.exponent with
  | none => 0
  | some (negative, digits) => if negative then -digitsValue digits else digitsValue digits

/-- The greatest power of ten by which a double is multiplied or divided in one go. -/
def greatestPower : Nat := 308

/-- A double, by its bits without the sign, times a power of ten: none if it is beyond all doubles.
Below the range of the powers the double is first divided down, at most twice, until only zero is
left. -/
def timesPower? (fuel : Nat) (magnitude : Nat) (power : Int) : Option Nat :=
  let value := (Binary64.mk (.ofNat magnitude)).absolute
  let powerOf (k : Nat) : Ratio :=
    match Ratio.magnitude? ⟨Nat.pow 10 k, 1⟩ with
    | some m => (Binary64.mk (.ofNat m)).absolute
    | none => ⟨1, 1⟩
  if power.natAbs ≤ greatestPower then
    if 0 ≤ power then (value.mul (powerOf power.natAbs)).magnitude?
    else (value.div (powerOf power.natAbs)).magnitude?
  else if magnitude = 0 then some 0
  else if 0 ≤ power then none
  else match fuel with
    | 0 => some 0
    | fuel + 1 =>
      (value.div (powerOf greatestPower)).magnitude?.bind fun m =>
        timesPower? fuel m (power + greatestPower)

/-- The double that a numeral names, if it is in the range of doubles. -/
def float? (n : Numeral) : Option Binary64 :=
  let (whole, leftOut) := gather 0 n.whole
  let (significand, leftOut') := gather whole n.fraction
  let power := n.writtenExponent + leftOut - (n.fraction.length - leftOut' : Nat)
  (Ratio.magnitude? ⟨significand, 1⟩).bind fun m =>
    (timesPower? 3 m power).map (Binary64.ofMagnitude n.negative)

/-- The integer that a numeral names, if it has neither point nor exponent and fits into 64 bits:
unsigned ones for a number without sign, signed ones otherwise. Zero with a sign is no integer. -/
def int? (n : Numeral) : Option Int :=
  if n.fraction = [] ∧ n.exponent = none then
    let v := digitsValue n.whole
    if n.negative then if 0 < v ∧ v ≤ wordEnd / 2 then some (-v) else none
    else if v < wordEnd then some v else none
  else none

/-- The number that a numeral names, if it is in the range of doubles. -/
def number? (n : Numeral) : Option Number :=
  match n.int? with
  | some i => some (.int i)
  | none => n.float?.map .float

end Numeral

namespace Number

/-- The digits of an integer, with a minus sign if it is negative. -/
def intText (i : Int) : List Char :=
  if i < 0 then '-' :: Nat.toDigits 10 i.natAbs else Nat.toDigits 10 i.natAbs

/-- An exponent with its sign, which is written in front of a positive one too. -/
def exponentText (e : Int) : List Char := if 0 < e then '+' :: intText e else intText e

/-- The shortest digits of a double, with the point in its place if that is at most sixteen digits
from the first one and at most four zeros follow it, and with an exponent otherwise. A whole number
ends in `.0`. -/
def floatText (x : Binary64) : List Char :=
  let d := x.shortest
  let digits := Nat.toDigits 10 d.digits
  let point := digits.length + d.exponent
  let unsigned :=
    if d.digits = 0 then "0.0".toList
    else if 0 ≤ d.exponent ∧ point ≤ 16 then
      digits ++ List.replicate d.exponent.toNat '0' ++ ".0".toList
    else if 0 < point ∧ point ≤ 16 then
      digits.take point.toNat ++ '.' :: digits.drop point.toNat
    else if -5 < point ∧ point ≤ 0 then
      "0.".toList ++ List.replicate (-point).toNat '0' ++ digits
    else
      let rest := if digits.length = 1 then [] else '.' :: digits.drop 1
      digits.take 1 ++ rest ++ 'e' :: exponentText (point - 1)
  if x.isNegative then '-' :: unsigned else unsigned

-- The point stays in its place up to sixteen digits, and down to four zeros after it.
example :
    [0x4341c37937e07fff, 0x4341c37937e08000, 0x3ee4f8b588e368f1, 0x3eb0c6f7a0b5ed8d].map
        (fun n => String.ofList (floatText ⟨n⟩))
      = ["9999999999999998.0", "1e+16", "0.00001", "1e-6"] := by decide +kernel

/-- The text of a number. -/
def text : Number → List Char
  | int i => intText i
  | float x => floatText x

/-- The double nearest to a number. -/
def toBinary64? : Number → Option Binary64
  | int i => Binary64.ofInt? i
  | float x => some x

end Number

end WorkflowRuns.Json
