import ResourceGraph.Json.Container

/-!
# Reading any value

One grammar for all JSON values. A `Shape α` says what becomes of each form, so the same text can be read
into different types without passing through a tree of another.
-/

namespace ResourceGraph.Json

open Parsed (malformed truncated)

/-- What the forms of JSON values become. A numeral may be too large for `α`. -/
structure Shape (α : Type) where
  null : α
  bool : Bool → α
  numeral : Numeral → Option α
  string : String → α
  array : List α → α
  object : Entries α → α

/-- Reads a number into a shape; one that is too large is malformed. -/
def readShaped {α : Type} (shape : Shape α) (cs : List Char) : Parsed α :=
  (readNumeral cs).andThen fun numeral rest =>
  match shape.numeral numeral with
  | some value => .ok value rest
  | none => malformed

/-- Adds an entry to those gathered so far. -/
def readEntry {α : Type} (value : List Char → Parsed α) (entries : Entries α) (key : String)
    (cs : List Char) : Parsed (Entries α) :=
  (readColon cs).andThen fun _ cs =>
  (value cs).map fun x => entries.insert key x

/-- Reads a value into a shape. -/
def readValue {α : Type} (shape : Shape α) (depth : Nat) (cs : List Char) : Parsed α :=
  match skipBlank cs with
  | [] => truncated
  | 'n' :: rest => (readWord ['u', 'l', 'l'] rest).map fun _ => shape.null
  | 't' :: rest => (readWord ['r', 'u', 'e'] rest).map fun _ => shape.bool true
  | 'f' :: rest => (readWord ['a', 'l', 's', 'e'] rest).map fun _ => shape.bool false
  | '"' :: rest => (readString rest).map shape.string
  | '[' :: rest =>
    match depth with
    | 0 => malformed
    | depth + 1 => (readArray (readValue shape depth) rest).map shape.array
  | '{' :: rest =>
    match depth with
    | 0 => malformed
    | depth + 1 => (readObject (readEntry (readValue shape depth)) [] rest).map shape.object
  | c :: rest => if startsNumber c then readShaped shape (c :: rest) else malformed

/-- Reads a value as a tree. -/
def treeShape : Shape Json where
  null := .null
  bool := .bool
  numeral numeral := (Number.ofNumeral? numeral).map .number
  string := .string
  array := .array
  object := .object

/-- Reads a JSON text as a tree. -/
def ofText? (text : String) : Except ReadError Json :=
  readText (readValue treeShape) text

end ResourceGraph.Json
