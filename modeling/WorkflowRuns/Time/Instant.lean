import WorkflowRuns.Text.Basic
import WorkflowRuns.Time.Calendar

/-!
# Points in time

Times are written as RFC 3339 has it, in UTC, with no fraction of a second or with the fewest of
three, six and nine digits that lose nothing. They are read more freely: white space may stand
around the parts, a blank may stand for the `T`, `UTC` for the `Z`, and a month, a day and the parts
of the time may have one digit.
-/

namespace WorkflowRuns

namespace Time

/-- How many nanoseconds a second has. -/
def nanosPerSecond : Nat := 1000000000

/-- The years in which times can be. -/
def yearRange : Int × Int := (-262143, 262142)

/-- A time of the day. -/
structure Clock where
  /-- The hour. -/
  hour : Nat
  /-- The minute. -/
  minute : Nat
  /-- The second; 60 is a leap second. -/
  second : Nat
  /-- Nanoseconds into the second. -/
  nanos : Nat

/-- Whether there is such a time on some day. -/
def Clock.isReal (c : Clock) : Bool := c.hour ≤ 23 && c.minute ≤ 59 && c.second ≤ 60

/-- The second with which a year begins, counted from the start of 1970. -/
def newYear (year : Int) : Int := (Date.mk year 1 1).toDays * 86400

end Time

open Time

/-- A point in time. -/
structure Instant where
  /-- Seconds since the start of 1970, none of which is a leap second. -/
  seconds : Int
  /-- Nanoseconds into the second; from `10 ^ 9` on they lie in a leap second after it. -/
  nanos : Nat
  /-- The second lies in one of the years in which times can be. -/
  inRange : newYear yearRange.1 ≤ seconds ∧ seconds < newYear (yearRange.2 + 1)
  /-- Only the last second of a minute has a leap second after it. -/
  inSecond : nanos < nanosPerSecond ∨ nanos < 2 * nanosPerSecond ∧ seconds % 60 = 59
deriving DecidableEq

namespace Instant

/-- The start of 1970. -/
def epoch : Instant := ⟨0, 0, by decide, by decide⟩

/-- A point in time, if there is one at the second with the nanoseconds. -/
def of? (seconds : Int) (nanos : Nat) : Option Instant :=
  if h : (newYear yearRange.1 ≤ seconds ∧ seconds < newYear (yearRange.2 + 1)) ∧
      (nanos < nanosPerSecond ∨ nanos < 2 * nanosPerSecond ∧ seconds % 60 = 59) then
    some ⟨seconds, nanos, h.1, h.2⟩
  else none

/-- The number of digits as decimals, at least so many, with zeros in front. -/
def padded (width n : Nat) : String :=
  let digits := Nat.toDigits 10 n
  String.ofList (List.replicate (width - digits.length) '0' ++ digits)

/-- The text of a year: four digits, and outside of 0 to 9999 a sign before them. -/
def yearText (year : Int) : String :=
  if year < 0 then "-" ++ padded 4 year.natAbs
  else if year ≤ 9999 then padded 4 year.natAbs
  else "+" ++ padded 4 year.natAbs

/-- The text of the fraction of a second. -/
def fractionText (nanos : Nat) : String :=
  if nanos = 0 then ""
  else if nanos % 1000000 = 0 then "." ++ padded 3 (nanos / 1000000)
  else if nanos % 1000 = 0 then "." ++ padded 6 (nanos / 1000)
  else "." ++ padded 9 nanos

/-- The text of a day. -/
def dateText (d : Date) : String :=
  yearText d.year ++ "-" ++ padded 2 d.month ++ "-" ++ padded 2 d.day

/-- The text of a time of the day. -/
def clockText (c : Clock) : String :=
  padded 2 c.hour ++ ":" ++ padded 2 c.minute ++ ":" ++ padded 2 c.second ++ fractionText c.nanos

/-- The day of a point in time. -/
def date (t : Instant) : Date := Date.ofDays (t.seconds / 86400)

/-- The time of the day of a point in time. What lies in a leap second is in the second 60. -/
def clock (t : Instant) : Clock :=
  let second := (t.seconds % 86400).toNat
  let (leap, nanos) := if t.nanos < nanosPerSecond then (0, t.nanos)
    else (1, t.nanos - nanosPerSecond)
  ⟨second / 3600, second / 60 % 60, second % 60 + leap, nanos⟩

/-- The text of a point in time. -/
def text (t : Instant) : String := dateText t.date ++ "T" ++ clockText t.clock ++ "Z"

/-- Reads a number of at most so many digits. -/
def readNumber? (most : Nat) (cs : List Char) : Option (Nat × List Char) :=
  match (cs.take most).takeWhile Char.isDigit with
  | [] => none
  | ds => some (Nat.ofDigitChars 10 ds 0, cs.drop ds.length)

/-- Reads a number of at most two digits, after white space. -/
def readTwo? (cs : List Char) : Option (Nat × List Char) := readNumber? 2 (Text.trimLeft cs)

/-- Reads a year, after white space: at most four digits, or a sign and any number of digits. -/
def readYear? (cs : List Char) : Option (Int × List Char) :=
  match Text.trimLeft cs with
  | '-' :: cs => (readNumber? cs.length cs).map fun (n, cs) => (-n, cs)
  | '+' :: cs => (readNumber? cs.length cs).map fun (n, cs) => (n, cs)
  | cs => (readNumber? 4 cs).map fun (n, cs) => (n, cs)

/-- Reads one character, after white space. -/
def readMark? (mark : Char) (cs : List Char) : Option (List Char) :=
  match Text.trimLeft cs with
  | c :: cs => if c = mark then some cs else none
  | [] => none

/-- Reads what divides the date from the time. -/
def readDivider? : List Char → Option (List Char)
  | c :: cs => if c = 'T' ∨ c = 't' ∨ c = ' ' then some cs else none
  | [] => none

/-- Reads a fraction of a second, if there is one, as nanoseconds. Digits after the ninth are
dropped. -/
def readFraction? : List Char → Option (Nat × List Char)
  | '.' :: cs =>
    (readNumber? 9 cs).map fun (n, rest) =>
      (n * Nat.pow 10 (9 - (cs.length - rest.length)), rest.dropWhile Char.isDigit)
  | cs => some (0, cs)

/-- The value of a digit, if it is at most so great. -/
def digitUpTo? (most : Nat) (c : Char) : Option Nat :=
  if c.isDigit ∧ c.toNat - '0'.toNat ≤ most then some (c.toNat - '0'.toNat) else none

/-- Reads hours and minutes of an offset: two digits each, with colons and white space in between or
not. -/
def readOffsetDigits? : List Char → Option (Nat × List Char)
  | a :: b :: cs => do
    let tens ← digitUpTo? 9 a
    let ones ← digitUpTo? 9 b
    match cs.dropWhile fun c => c = ':' || Text.isBlank c with
    | c :: d :: cs => do
      let minuteTens ← digitUpTo? 5 c
      let minuteOnes ← digitUpTo? 9 d
      return ((tens * 10 + ones) * 3600 + (minuteTens * 10 + minuteOnes) * 60, cs)
    | _ => none
  | _ => none

/-- Reads the offset from UTC in seconds. A minus sign may be the hyphen or U+2212. -/
def readOffset? (cs : List Char) : Option (Int × List Char) :=
  match cs with
  | [] => none
  | c :: rest =>
    if ((cs.take 3).map Char.toLower) = "utc".toList then some (0, cs.drop 3)
    else if c = 'Z' ∨ c = 'z' then some (0, rest)
    else if c = '+' then (readOffsetDigits? rest).map fun (n, cs) => (n, cs)
    else if c = '-' ∨ c = '−' then (readOffsetDigits? rest).map fun (n, cs) => (-n, cs)
    else none

/-- Reads a day, whether there is such a day or not. -/
def readDate? (cs : List Char) : Option (Date × List Char) := do
  let (year, cs) ← readYear? cs
  let cs ← readMark? '-' cs
  let (month, cs) ← readTwo? cs
  let cs ← readMark? '-' cs
  let (day, cs) ← readTwo? cs
  return (⟨year, month, day⟩, cs)

/-- Reads a time of the day, whether there is such a time or not. -/
def readClock? (cs : List Char) : Option (Clock × List Char) := do
  let (hour, cs) ← readTwo? cs
  let cs ← readMark? ':' cs
  let (minute, cs) ← readTwo? cs
  let cs ← readMark? ':' cs
  let (second, cs) ← readTwo? cs
  let (nanos, cs) ← readFraction? cs
  return (⟨hour, minute, second, nanos⟩, cs)

/-- The point in time at a time of a day, where clocks are so many seconds ahead. The second 60 is a
leap second after the second 59. -/
def at? (date : Date) (clock : Clock) (offset : Int) : Option Instant :=
  let (second, nanos) := if clock.second = 60 then (59, clock.nanos + nanosPerSecond)
    else (clock.second, clock.nanos)
  of? (date.toDays * 86400 + (clock.hour * 3600 + clock.minute * 60 + second : Nat) - offset) nanos

/-- Reads a point in time. -/
def ofText? (text : String) : Option Instant := do
  let (date, cs) ← readDate? text.toList
  let cs ← readDivider? cs
  let (clock, cs) ← readClock? cs
  let (offset, cs) ← readOffset? (Text.trimLeft cs)
  guard (Text.allBlank cs)
  guard (yearRange.1 ≤ date.year ∧ date.year ≤ yearRange.2)
  guard (date.isReal ∧ clock.isReal)
  guard (offset.natAbs < 86400)
  at? date clock offset

end Instant

end WorkflowRuns
