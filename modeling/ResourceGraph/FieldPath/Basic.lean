/-!
# Field paths

A field path leads into a document by map keys and list positions. Its displayed form starts at the root
`$` and writes a key behind a dot and a position in brackets.
-/

namespace ResourceGraph

/-- One step of a field path. -/
inductive FieldPath.Segment
  | key (name : String)
  | index (position : UInt64)
deriving DecidableEq

/-- A path from the root of a document. -/
structure FieldPath where
  segments : List FieldPath.Segment
deriving DecidableEq

namespace FieldPath

/-- The characters of a displayed step. -/
def Segment.displayChars : Segment → List Char
  | .key name => '.' :: name.toList
  | .index position => '[' :: Nat.toDigits 10 position.toNat ++ [']']

/-- The characters of a displayed path. -/
def displayChars (path : FieldPath) : List Char :=
  '$' :: path.segments.flatMap Segment.displayChars

/-- A path as text. -/
def display (path : FieldPath) : String :=
  String.ofList path.displayChars

end FieldPath

end ResourceGraph
