import ResourceGraph.Document.Basic
import ResourceGraph.Number.Format

/-!
# Displaying documents

The short text of a document that messages and logs show. Strings are quoted with their quotes escaped,
keys stand as they are, and numbers never have an exponent part.
-/

namespace ResourceGraph.Document

/-- One character of a displayed string. -/
def displayChar (c : Char) : List Char :=
  if c = '"' then ['\\', '"'] else [c]

mutual

/-- The characters of a displayed document. -/
def displayChars : Document → List Char
  | .null => "null".toList
  | .bool value => (if value then "true" else "false").toList
  | .int value => (Int.repr value.toInt).toList
  | .float value => NumberFormat.display.write value
  | .string value => '"' :: value.toList.flatMap displayChar ++ ['"']
  | .list items => '[' :: displayItems items ++ [']']
  | .map entries => '\x7b' :: displayEntries entries ++ ['\x7d']

/-- The items of a list, separated by commas. -/
def displayItems : List Document → List Char
  | [] => []
  | item :: items => displayChars item ++ (if items.isEmpty then [] else [',', ' ']) ++ displayItems items

/-- The entries of a map, separated by commas. -/
def displayEntries : List (String × Document) → List Char
  | [] => []
  | (key, value) :: entries =>
    key.toList ++ [':', ' '] ++ displayChars value ++ (if entries.isEmpty then [] else [',', ' '])
      ++ displayEntries entries

end

/-- A document as text. -/
def display (document : Document) : String :=
  String.ofList document.displayChars

end ResourceGraph.Document
