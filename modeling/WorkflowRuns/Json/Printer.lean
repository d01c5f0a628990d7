import WorkflowRuns.Json.Numeral

/-!
# Writing JSON texts

Characters are written as they are, apart from the quote, the backslash and the control characters.
A style says what stands around the items of a container; an empty container has nothing inside in
any style.
-/

namespace WorkflowRuns.Json

/-- How the parts of a text are set apart. -/
structure Style where
  /-- What stands before an item, and before the end of a container, at a depth. -/
  newline : Nat → List Char
  /-- What stands between the name of a member and its value. -/
  colon : List Char

/-- Everything in one line and without blanks. -/
def Style.compact : Style := ⟨fun _ => [], [':']⟩

/-- Each item in a line of its own, indented by two blanks for each container around it. -/
def Style.indented : Style := ⟨fun depth => '\n' :: List.replicate (2 * depth) ' ', [':', ' ']⟩

/-- The hexadecimal digit of a number below sixteen. -/
def hexChar (n : Nat) : Char := Nat.digitChar n

/-- How a character is written in a string. -/
def escape (c : Char) : List Char :=
  if c = '"' then ['\\', '"']
  else if c = '\\' then ['\\', '\\']
  else if c = '\x08' then ['\\', 'b']
  else if c = '\t' then ['\\', 't']
  else if c = '\n' then ['\\', 'n']
  else if c = '\x0C' then ['\\', 'f']
  else if c = '\r' then ['\\', 'r']
  else if c.toNat < 0x20 then ['\\', 'u', '0', '0', hexChar (c.toNat / 16), hexChar (c.toNat % 16)]
  else [c]

/-- Writes a string in front of a text. -/
def writeString (s : String) (rest : List Char) : List Char :=
  '"' :: s.toList.foldr (fun c rest => escape c ++ rest) ('"' :: rest)

mutual

/-- Writes a value in front of a text. -/
def write (style : Style) (depth : Nat) : Json → List Char → List Char
  | null, rest => 'n' :: 'u' :: 'l' :: 'l' :: rest
  | bool true, rest => 't' :: 'r' :: 'u' :: 'e' :: rest
  | bool false, rest => 'f' :: 'a' :: 'l' :: 's' :: 'e' :: rest
  | number n, rest => n.text ++ rest
  | string s, rest => writeString s rest
  | array [], rest => '[' :: ']' :: rest
  | array (j :: js), rest =>
    '[' :: (style.newline (depth + 1) ++
      write style (depth + 1) j (writeItems style (depth + 1) js
        (style.newline depth ++ ']' :: rest)))
  | object [], rest => '{' :: '}' :: rest
  | object (m :: ms), rest =>
    '{' :: (style.newline (depth + 1) ++
      writeString m.1 (style.colon ++
        write style (depth + 1) m.2 (writeMembers style (depth + 1) ms
          (style.newline depth ++ '}' :: rest))))
  | unreadable, rest => 'n' :: 'u' :: 'l' :: 'l' :: rest

/-- Writes the items after the first one. -/
def writeItems (style : Style) (depth : Nat) : List Json → List Char → List Char
  | [], rest => rest
  | j :: js, rest =>
    ',' :: (style.newline depth ++ write style depth j (writeItems style depth js rest))

/-- Writes the members after the first one. -/
def writeMembers (style : Style) (depth : Nat) : List (String × Json) → List Char → List Char
  | [], rest => rest
  | m :: ms, rest =>
    ',' :: (style.newline depth ++
      writeString m.1 (style.colon ++ write style depth m.2 (writeMembers style depth ms rest)))

end

/-- The text of a value in one line. -/
def compact (j : Json) : String := String.ofList (j.write .compact 0 [])

/-- The text of a value, each item in a line of its own. -/
def pretty (j : Json) : String := String.ofList (j.write .indented 0 [])

end WorkflowRuns.Json
