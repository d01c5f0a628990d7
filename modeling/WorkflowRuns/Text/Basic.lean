/-!
# Looking at a text

White space, lines, lower case, cutting at a character, finding one text inside another, and words
that stand for on and off.

The characters that count as white space are those of the Unicode property `White_Space`. Core's
`Char.isWhitespace` knows four of them, so the property has its own table here, and the functions
that cut white space off the ends of a text are built on it. Letters are compared by their ASCII case
only.
-/

namespace WorkflowRuns.Text

/-! ## White space -/

/-- The ranges of the Unicode property `White_Space`, as first and last code points. -/
def blankRanges : List (Nat × Nat) :=
  [(0x9, 0xD), (0x20, 0x20), (0x85, 0x85), (0xA0, 0xA0), (0x1680, 0x1680), (0x2000, 0x200A),
    (0x2028, 0x2029), (0x202F, 0x202F), (0x205F, 0x205F), (0x3000, 0x3000)]

/-- Whether a character is white space. -/
def isBlank (c : Char) : Bool :=
  blankRanges.any fun r => r.1 ≤ c.toNat && c.toNat ≤ r.2

/-- Whether a text holds nothing but white space. -/
def allBlank (cs : List Char) : Bool := cs.all isBlank

/-- The text from its first character that is not white space. -/
def trimLeft (cs : List Char) : List Char := cs.dropWhile isBlank

/-- The text up to its last character that is not white space. -/
def trimRight (cs : List Char) : List Char := (cs.reverse.dropWhile isBlank).reverse

/-- The text without the white space at its two ends. -/
def trim (cs : List Char) : List Char := trimRight (trimLeft cs)

/-! ## Lines

A line ends at `'\n'`, and one `'\r'` right before it belongs to the ending. What follows the last
`'\n'` is a line too unless it is empty, and such a line keeps a `'\r'` at its end. -/

/-- The lines of a text, without their endings. -/
def lines : List Char → List (List Char)
  | [] => []
  | c :: cs =>
    if c = '\n' then [] :: lines cs
    else if c = '\r' ∧ cs.head? = some '\n' then lines cs
    else match lines cs with
      | [] => [[c]]
      | l :: ls => (c :: l) :: ls

example : lines "a\r\n\nb\r".toList = ["a".toList, [], "b\r".toList] := by decide

example : lines "a\r\r\n".toList = ["a\r".toList] := by decide

/-! ## Search -/

/-- The text with the letters `A` to `Z` made small. -/
def lower (cs : List Char) : List Char := cs.map Char.toLower

/-- Cuts a text at the first place where a character stands. The character belongs to no part. -/
def cutAt? (mark : Char) : List Char → Option (List Char × List Char)
  | [] => none
  | c :: cs => if c = mark then some ([], cs) else (cutAt? mark cs).map fun (a, b) => (c :: a, b)

/-- What follows a text that stands at the front of another one. -/
def after? : List Char → List Char → Option (List Char)
  | [], cs => some cs
  | _ :: _, [] => none
  | m :: ms, c :: cs => if m = c then after? ms cs else none

theorem after?_eq_some_iff {front text rest : List Char} :
    after? front text = some rest ↔ text = front ++ rest := by
  induction front generalizing text with
  | nil => simp [after?]
  | cons m ms ih =>
    cases text with
    | nil => simp [after?]
    | cons c cs =>
      by_cases h : m = c
      · simp [after?, h, ih]
      · simp [after?, h, Ne.symm h]

/-- Whether a text occurs in another one. -/
def occursIn (needle : List Char) : List Char → Bool
  | [] => needle.isEmpty
  | c :: cs => needle.isPrefixOf (c :: cs) || occursIn needle cs

/-! ## Switches -/

/-- Reads a switch: `1`, `true` and `yes` turn it on, `0`, `false` and `no` turn it off, in either
case and with white space around. Any other text says nothing. -/
def switch? (text : String) : Option Bool :=
  match String.ofList (lower (trim text.toList)) with
  | "1" | "true" | "yes" => some true
  | "0" | "false" | "no" => some false
  | _ => none

end WorkflowRuns.Text
