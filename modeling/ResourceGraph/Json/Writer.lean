import ResourceGraph.Json.Basic
import ResourceGraph.Number.Format

/-!
# Writing JSON

Trees are written on one line without blanks (`compact`), or with every element and entry on a line of its
own, indented by two spaces a level (`pretty`). In strings only quotes, backslashes and control characters
are escaped.
-/

namespace ResourceGraph.Json

/-- A hexadecimal digit in lower case. -/
def hexDigit (n : Nat) : Char :=
  Nat.digitChar n

/-- One character of a string literal. -/
def writeChar (c : Char) : List Char :=
  if c = '"' then ['\\', '"']
  else if c = '\\' then ['\\', '\\']
  else if c = '\x08' then ['\\', 'b']
  else if c = '\t' then ['\\', 't']
  else if c = '\n' then ['\\', 'n']
  else if c = '\x0c' then ['\\', 'f']
  else if c = '\r' then ['\\', 'r']
  else if c < ' ' then ['\\', 'u', '0', '0', hexDigit (c.toNat / 16), hexDigit (c.toNat % 16)]
  else [c]

def writeString (s : String) : List Char :=
  '"' :: s.toList.flatMap writeChar ++ ['"']

def Number.write : Number → List Char
  | .natural value => Nat.toDigits 10 value.toNat
  | .negative value _ => '-' :: Nat.toDigits 10 value.toInt.natAbs
  | .float value _ => NumberFormat.json.write value

/-- The white space of a written tree. -/
structure Layout where
  /-- What separates the lines of a container, given the level of the line that follows. -/
  lineBreak : Nat → List Char
  afterColon : List Char

/-- Everything on one line. -/
def Layout.compact : Layout where
  lineBreak _ := []
  afterColon := []

/-- A line for each element and entry. -/
def Layout.pretty : Layout where
  lineBreak level := '\n' :: List.replicate (2 * level) ' '
  afterColon := [' ']

mutual

/-- A tree whose first line stands at the given level. -/
def write (layout : Layout) (level : Nat) : Json → List Char
  | .null => ['n', 'u', 'l', 'l']
  | .bool true => ['t', 'r', 'u', 'e']
  | .bool false => ['f', 'a', 'l', 's', 'e']
  | .number value => value.write
  | .string value => writeString value
  | .array [] => ['[', ']']
  | .array (item :: items) =>
    '[' :: writeItems layout (level + 1) (item :: items) ++ layout.lineBreak level ++ [']']
  | .object [] => ['\x7b', '\x7d']
  | .object (entry :: entries) =>
    '\x7b' :: writeEntries layout (level + 1) (entry :: entries) ++ layout.lineBreak level ++ ['\x7d']

/-- The elements of an array, each behind a line break and all but the last before a comma. -/
def writeItems (layout : Layout) (level : Nat) : List Json → List Char
  | [] => []
  | item :: items =>
    layout.lineBreak level ++ write layout level item ++ (if items.isEmpty then [] else [','])
      ++ writeItems layout level items

/-- The entries of an object. -/
def writeEntries (layout : Layout) (level : Nat) : List (String × Json) → List Char
  | [] => []
  | (key, value) :: entries =>
    layout.lineBreak level ++ writeString key ++ ':' :: layout.afterColon ++ write layout level value
      ++ (if entries.isEmpty then [] else [',']) ++ writeEntries layout level entries

end

/-- A tree on one line. -/
def compact (tree : Json) : String :=
  String.ofList (write .compact 0 tree)

/-- A tree with a line for each element and entry. -/
def pretty (tree : Json) : String :=
  String.ofList (write .pretty 0 tree)

end ResourceGraph.Json
