import ResourceGraph.Entries
import ResourceGraph.Number.Rounding

/-!
# Resource documents

A resource is a tree of nested data. Integers have 64 bits and are kept apart from binary64 numbers, though
most comparisons look at the value only (`toFloat?`).
-/

namespace ResourceGraph

/-- A node of a resource document. -/
inductive Document
  | null
  | bool (value : Bool)
  | int (value : Int64)
  | float (value : Binary64)
  | string (value : String)
  | list (items : List Document)
  | map (entries : List (String × Document))

/-- The kinds of nodes. -/
inductive DocumentType
  | null
  | boolean
  | integer
  | float
  | string
  | list
  | map
deriving DecidableEq

def DocumentType.name : DocumentType → String
  | .null => "NULL"
  | .boolean => "BOOLEAN"
  | .integer => "INTEGER"
  | .float => "FLOAT"
  | .string => "STRING"
  | .list => "LIST"
  | .map => "MAP"

namespace Document

/-- A document with nothing in it. -/
instance : Inhabited Document := ⟨.null⟩

def type : Document → DocumentType
  | .null => .null
  | .bool _ => .boolean
  | .int _ => .integer
  | .float _ => .float
  | .string _ => .string
  | .list _ => .list
  | .map _ => .map

def isNumeric : Document → Bool
  | .int _ => true
  | .float _ => true
  | _ => false

/-- The binary64 number nearest to a number. -/
def toFloat? : Document → Option Binary64
  | .int value => some (.ofInt value.toInt)
  | .float value => some value
  | _ => none

def toString? : Document → Option String
  | .string value => some value
  | _ => none

/-- The entries of a map. -/
def entries? : Document → Option (Entries Document)
  | .map entries => some entries
  | _ => none

/-- The value of a key of a map; a list is not looked into. -/
def get? (key : String) (document : Document) : Option Document :=
  document.entries?.bind (Entries.get? key)

theorem isNumeric_iff {document : Document} : document.isNumeric ↔ document.toFloat?.isSome := by
  cases document <;> simp [isNumeric, toFloat?]

end Document

end ResourceGraph
