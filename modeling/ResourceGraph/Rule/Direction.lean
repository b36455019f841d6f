import ResourceGraph.Json.Typed
import ResourceGraph.Json.Writer

/-!
# Directions

The direction in which a relationship is traversed says which participant of a related pair lands on which
side. As a word it is read without regard to ASCII case; in JSON its case counts.
-/

namespace ResourceGraph

/-- The direction of a traversal. -/
inductive Direction
  | left
  | right
  | both
  | none
deriving DecidableEq

/-- A word that is no direction, in lower case. -/
structure UnknownDirection where
  word : String
deriving DecidableEq

def UnknownDirection.message (error : UnknownDirection) : String :=
  "unknown direction: " ++ error.word

namespace Direction

def all : List Direction := [.left, .right, .both, .none]

def name : Direction → String
  | .left => "left"
  | .right => "right"
  | .both => "both"
  | .none => "none"

/-- The direction that a word names. -/
def parse (word : String) : Except UnknownDirection Direction :=
  let word := String.ofList (word.toList.map Char.toLower)
  match all.find? (·.name == word) with
  | some direction => .ok direction
  | .none => .error { word }

/-- Reads a direction. -/
def reader : Json.Reader Direction :=
  Json.variantReader (all.map fun direction => .plain direction.name direction)

/-- Reads a direction from JSON text. -/
def ofText? (text : String) : Except Json.ReadError Direction :=
  Json.readText reader text

def toJson (direction : Direction) : Json :=
  .string direction.name

theorem parse_name (direction : Direction) : parse direction.name = .ok direction := by
  cases direction <;> rfl

end Direction

end ResourceGraph
