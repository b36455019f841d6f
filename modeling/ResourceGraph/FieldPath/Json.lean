import ResourceGraph.FieldPath.Basic
import ResourceGraph.Json.Typed
import ResourceGraph.Json.Writer

/-!
# Field paths in JSON

In JSON a path is a record with the list of its steps, and a step is a variant that holds its key or its
position. This form has no restrictions on keys, unlike the text of a path.
-/

namespace ResourceGraph.FieldPath

open ResourceGraph (Json)
open ResourceGraph.Json (Record Reader Variant)

def Segment.toJson : Segment → Json
  | .key name => .object [("Key", .string name)]
  | .index position => .object [("Index", .number (.natural position))]

def toJson (path : FieldPath) : Json :=
  .object [("segments", .array (path.segments.map Segment.toJson))]

/-- A path as JSON text. -/
def toText (path : FieldPath) : String :=
  path.toJson.compact

def segmentVariants : List (Variant Segment) :=
  [.tagged "Key" .key Json.stringReader, .tagged "Index" .index Json.indexReader]

/-- What has been read of a path. -/
structure Draft where
  segments : Option (List Segment) := none

/-- How a path is read from JSON. -/
def record : Record Draft FieldPath where
  name := "FieldPath"
  fields :=
    [.of "segments" Draft.segments (fun draft segments => { draft with segments := some segments })
      (Json.listReader (Json.variantReader segmentVariants))]
  start := {}
  finish draft := do
    let segments ← Json.requireField "segments" draft.segments
    return { segments }

/-- Reads a path from JSON text. -/
def ofText? (text : String) : Except Json.ReadError FieldPath :=
  Json.readText record.reader text

end ResourceGraph.FieldPath
