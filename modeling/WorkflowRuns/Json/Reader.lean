import WorkflowRuns.Json.Numeral

/-!
# Reading JSON texts

The grammar is that of RFC 8259 without additions. Each reader takes the text from where it stands
and gives what it read with the text after it; there is no result where the grammar is broken. Parts
that are well formed but name no value become `Json.unreadable`.

The readers of values count two things down: `room`, how many more containers may be nested, and
`fuel`, which bounds the recursion and is never used up by a text (`Json.parseWithin?`).
-/

namespace WorkflowRuns.Json

/-- The white space that JSON knows. -/
def isSpace (c : Char) : Bool := c = ' ' || c = '\n' || c = '\t' || c = '\r'

/-- The text after white space. -/
def skipSpace (cs : List Char) : List Char := cs.dropWhile isSpace

/-- The value of a hexadecimal digit. -/
def hexDigit? (c : Char) : Option Nat :=
  if '0' ≤ c ∧ c ≤ '9' then some (c.toNat - '0'.toNat)
  else if 'a' ≤ c ∧ c ≤ 'f' then some (c.toNat - 'a'.toNat + 10)
  else if 'A' ≤ c ∧ c ≤ 'F' then some (c.toNat - 'A'.toNat + 10)
  else none

/-- The number of four hexadecimal digits. -/
def hex4? (a b c d : Char) : Option Nat := do
  let a ← hexDigit? a
  let b ← hexDigit? b
  let c ← hexDigit? c
  let d ← hexDigit? d
  return ((a * 16 + b) * 16 + c) * 16 + d

/-- The character of an escape of two characters. -/
def shortEscape? (c : Char) : Option Char :=
  match c with
  | '"' => some '"'
  | '\\' => some '\\'
  | '/' => some '/'
  | 'b' => some '\x08'
  | 'f' => some '\x0C'
  | 'n' => some '\n'
  | 'r' => some '\r'
  | 't' => some '\t'
  | _ => none

/-- Reads a string from behind its opening quote up to its closing one, as a list of code units: a
character is one unit, and so is an escape `\uXXXX`, be it half of a pair or not. -/
def readUnits? : List Char → Option (List Nat × List Char)
  | [] => none
  | '"' :: rest => some ([], rest)
  | '\\' :: 'u' :: a :: b :: c :: d :: rest =>
    (hex4? a b c d).bind fun unit => (readUnits? rest).map fun (us, rest) => (unit :: us, rest)
  | '\\' :: c :: rest =>
    (shortEscape? c).bind fun c => (readUnits? rest).map fun (us, rest) => (c.toNat :: us, rest)
  | c :: rest =>
    if c.toNat < 0x20 then none
    else (readUnits? rest).map fun (us, rest) => (c.toNat :: us, rest)

/-- Whether a code unit is the first half of a surrogate pair. -/
def isHighHalf (u : Nat) : Bool := 0xD800 ≤ u && u < 0xDC00

/-- Whether a code unit is the second half of a surrogate pair. -/
def isLowHalf (u : Nat) : Bool := 0xDC00 ≤ u && u < 0xE000

/-- The characters of code units; none if half of a pair stands alone. -/
def ofUnits? : List Nat → Option (List Char)
  | [] => some []
  | u :: us =>
    if isHighHalf u then
      match us with
      | [] => none
      | v :: us =>
        if isLowHalf v then
          (ofUnits? us).map (Char.ofNat (0x10000 + (u - 0xD800) * 0x400 + (v - 0xDC00)) :: ·)
        else none
    else if isLowHalf u then none
    else (ofUnits? us).map (Char.ofNat u :: ·)

/-- The string of code units, if there is one. -/
def stringOfUnits? (us : List Nat) : Option String := (ofUnits? us).map String.ofList

/-- Reads one digit or more. -/
def readDigits? (cs : List Char) : Option (List Char × List Char) :=
  match cs.takeWhile Char.isDigit with
  | [] => none
  | ds => some (ds, cs.dropWhile Char.isDigit)

/-- Reads the digits before the point: one zero, or digits that start with another one. -/
def readWhole? : List Char → Option (List Char × List Char)
  | '0' :: rest => some (['0'], rest)
  | cs => readDigits? cs

/-- Reads the point with the digits after it, if there is a point. -/
def readFraction? : List Char → Option (List Char × List Char)
  | '.' :: rest => readDigits? rest
  | cs => some ([], cs)

/-- Reads the sign of an exponent, if there is one: whether it is a minus sign. -/
def readSign : List Char → Bool × List Char
  | '-' :: rest => (true, rest)
  | '+' :: rest => (false, rest)
  | cs => (false, cs)

/-- Reads an exponent, if there is one. -/
def readExponent? : List Char → Option (Option (Bool × List Char) × List Char)
  | c :: rest =>
    if c = 'e' ∨ c = 'E' then
      let (negative, rest) := readSign rest
      (readDigits? rest).map fun (ds, rest) => (some (negative, ds), rest)
    else some (none, c :: rest)
  | [] => some (none, [])

/-- Reads a numeral. -/
def readNumeral? (cs : List Char) : Option (Numeral × List Char) := do
  let (negative, cs) := match cs with
    | '-' :: rest => (true, rest)
    | cs => (false, cs)
  let (whole, cs) ← readWhole? cs
  let (fraction, cs) ← readFraction? cs
  let (exponent, cs) ← readExponent? cs
  return (⟨negative, whole, fraction, exponent⟩, cs)

/-- The value of a numeral. -/
def ofNumeral (n : Numeral) : Json :=
  match n.number? with
  | some n => .number n
  | none => .unreadable

/-- The value of a string. -/
def ofUnits (us : List Nat) : Json :=
  match stringOfUnits? us with
  | some s => .string s
  | none => .unreadable

/-- The value of an array at a place with room for so many nested containers. -/
def ofItems (room : Nat) (items : List Json) : Json :=
  if room = 0 then .unreadable else .array items

/-- Gives every member its name, if all of them name something. -/
def namedMembers? : List (List Nat × Json) → Option (List (String × Json))
  | [] => some []
  | (us, j) :: ms => (stringOfUnits? us).bind fun name => (namedMembers? ms).map ((name, j) :: ·)

/-- The value of an object at a place with room for so many nested containers. -/
def ofMembers (room : Nat) (members : List (List Nat × Json)) : Json :=
  if room = 0 then .unreadable
  else match namedMembers? members with
    | some members => .object members
    | none => .unreadable

mutual

/-- Reads a value. -/
def readValue? (room : Nat) : Nat → List Char → Option (Json × List Char)
  | 0, _ => none
  | fuel + 1, cs =>
    match skipSpace cs with
    | 'n' :: 'u' :: 'l' :: 'l' :: rest => some (.null, rest)
    | 't' :: 'r' :: 'u' :: 'e' :: rest => some (.bool true, rest)
    | 'f' :: 'a' :: 'l' :: 's' :: 'e' :: rest => some (.bool false, rest)
    | '"' :: rest => (readUnits? rest).map fun (us, rest) => (ofUnits us, rest)
    | '[' :: rest =>
      match skipSpace rest with
      | ']' :: rest => some (ofItems room [], rest)
      | rest => (readItems? (room - 1) fuel rest).map fun (js, rest) => (ofItems room js, rest)
    | '{' :: rest =>
      match skipSpace rest with
      | '}' :: rest => some (ofMembers room [], rest)
      | rest => (readMembers? (room - 1) fuel rest).map fun (ms, rest) => (ofMembers room ms, rest)
    | cs => (readNumeral? cs).map fun (n, rest) => (ofNumeral n, rest)

/-- Reads the items of an array that has some, and the bracket after them. -/
def readItems? (room : Nat) : Nat → List Char → Option (List Json × List Char)
  | 0, _ => none
  | fuel + 1, cs =>
    (readValue? room fuel cs).bind fun (j, rest) =>
      match skipSpace rest with
      | ',' :: rest => (readItems? room fuel rest).map fun (js, rest) => (j :: js, rest)
      | ']' :: rest => some ([j], rest)
      | _ => none

/-- Reads the members of an object that has some, and the brace after them. -/
def readMembers? (room : Nat) : Nat → List Char → Option (List (List Nat × Json) × List Char)
  | 0, _ => none
  | fuel + 1, cs =>
    match skipSpace cs with
    | '"' :: rest =>
      (readUnits? rest).bind fun (us, rest) =>
        match skipSpace rest with
        | ':' :: rest =>
          (readValue? room fuel rest).bind fun (j, rest) =>
            match skipSpace rest with
            | ',' :: rest =>
              (readMembers? room fuel rest).map fun (ms, rest) => ((us, j) :: ms, rest)
            | '}' :: rest => some ([(us, j)], rest)
            | _ => none
        | _ => none
    | _ => none

end

/-- Reads a whole text, in which containers may be nested to the given depth. -/
def parseWithin? (room : Nat) (text : String) : Option Json :=
  let cs := text.toList
  match readValue? room (2 * cs.length + 2) cs with
  | some (j, rest) => if skipSpace rest = [] then some j else none
  | none => none

/-- How deep containers may be nested in a text. -/
def deepest : Nat := 127

/-- Reads a whole text. -/
def parse? (text : String) : Option Json := parseWithin? deepest text

end WorkflowRuns.Json
