import ResourceGraph.Document.Basic
import ResourceGraph.Json.Value

/-!
# Documents and JSON

A document is read from JSON text directly (`ofText?`) or from a JSON tree (`ofJson`), and turned back into a
tree by `toJson`. A number is an integer if it is written as one and has 64 bits with its sign; a negative
zero and all other numbers are binary64 numbers.
-/

namespace ResourceGraph

/-- An integer of 64 bits as a JSON number. -/
def Json.Number.ofInt64 (value : Int64) : Json.Number :=
  if h : value < 0 then .negative value h else .natural value.toUInt64

namespace Document

/-- The document of a JSON number; natural numbers beyond the signed 64 bits are rounded. -/
def ofNumber : Json.Number → Document
  | .natural value =>
    if value.toNat ≤ Int64.maxValue.toInt then .int value.toInt64 else .float (.ofInt value.toNat)
  | .negative value _ => .int value
  | .float value _ => .float value

mutual

/-- The document of a JSON tree. -/
def ofJson : Json → Document
  | .null => .null
  | .bool value => .bool value
  | .number value => ofNumber value
  | .string value => .string value
  | .array items => .list (ofJsonItems items)
  | .object entries => .map (ofJsonEntries entries)

/-- The documents of JSON trees. -/
def ofJsonItems : List Json → List Document
  | [] => []
  | item :: items => ofJson item :: ofJsonItems items

/-- The entries of a JSON object as entries of a map. -/
def ofJsonEntries : List (String × Json) → List (String × Document)
  | [] => []
  | (key, value) :: entries => (key, ofJson value) :: ofJsonEntries entries

end

mutual

/-- The JSON tree of a document. JSON has no number for an infinity or a NaN; they become null. -/
def toJson : Document → Json
  | .null => .null
  | .bool value => .bool value
  | .int value => .number (.ofInt64 value)
  | .float value => if h : value.isFinite then .number (.float value h) else .null
  | .string value => .string value
  | .list items => .array (toJsonItems items)
  | .map entries => .object (toJsonEntries entries)

/-- The JSON trees of documents. -/
def toJsonItems : List Document → List Json
  | [] => []
  | item :: items => toJson item :: toJsonItems items

/-- The entries of a map as entries of a JSON object. -/
def toJsonEntries : List (String × Document) → List (String × Json)
  | [] => []
  | (key, value) :: entries => (key, toJson value) :: toJsonEntries entries

end

/-- The document of a number as written, `none` if it is too large for any. -/
def ofNumeral? (numeral : Json.Numeral) : Option Document :=
  let value : Int := if numeral.negative then -numeral.magnitude else numeral.magnitude
  if numeral.isInteger ∧ ¬(numeral.negative ∧ value = 0) ∧
      Int64.minValue.toInt ≤ value ∧ value ≤ Int64.maxValue.toInt then
    some (.int (Int64.ofInt value))
  else
    numeral.toBinary64?.map .float

/-- Reads a value as a document. -/
def shape : Json.Shape Document where
  null := .null
  bool := .bool
  numeral := ofNumeral?
  string := .string
  array := .list
  object := .map

/-- Reads a JSON text as a document. -/
def ofText? (text : String) : Except Json.ReadError Document :=
  Json.readText (Json.readValue shape) text

theorem ofJsonItems_eq_map (items : List Json) : ofJsonItems items = items.map ofJson := by
  induction items with
  | nil => rfl
  | cons item items ih => simp [ofJsonItems, ih]

theorem ofJsonEntries_eq_mapValues (entries : Entries Json) :
    ofJsonEntries entries = entries.mapValues ofJson := by
  induction entries with
  | nil => rfl
  | cons entry entries ih => simp_all [ofJsonEntries, Entries.mapValues]

theorem toJsonItems_eq_map (items : List Document) : toJsonItems items = items.map toJson := by
  induction items with
  | nil => rfl
  | cons item items ih => simp [toJsonItems, ih]

theorem toJsonEntries_eq_mapValues (entries : Entries Document) :
    toJsonEntries entries = entries.mapValues toJson := by
  induction entries with
  | nil => rfl
  | cons entry entries ih => simp_all [toJsonEntries, Entries.mapValues]

end Document

end ResourceGraph
