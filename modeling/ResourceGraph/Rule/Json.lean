import ResourceGraph.Rule.Table
import ResourceGraph.Json.Typed
import ResourceGraph.Json.Writer

/-!
# Rule files

The JSON form of a rule table: an array of rules, each a record with all its fields. A file is read whole or
refused with its first problem.
-/

namespace ResourceGraph

open ResourceGraph.Json (Record Reader Variant requireField)

/-! ### Comparisons and criteria -/

namespace Comparison

def all : List Comparison := [.containsAll, .exactMatch]

def name : Comparison → String
  | .containsAll => "ContainsAll"
  | .exactMatch => "ExactMatch"

def reader : Reader Comparison :=
  Json.variantReader (all.map fun comparison => .plain comparison.name comparison)

end Comparison

namespace Criterion

def toJson (criterion : Criterion) : Json :=
  .object [("field_a", .string criterion.fieldA), ("field_b", .string criterion.fieldB),
    ("comparison", .string criterion.comparison.name)]

/-- What has been read of a criterion. -/
structure Draft where
  fieldA : Option String := none
  fieldB : Option String := none
  comparison : Option Comparison := none

/-- How a criterion is read from JSON. -/
def record : Record Draft Criterion where
  name := "MatchCriterion"
  fields := [
    .of "field_a" Draft.fieldA (fun draft value => { draft with fieldA := some value }) Json.stringReader,
    .of "field_b" Draft.fieldB (fun draft value => { draft with fieldB := some value }) Json.stringReader,
    .of "comparison" Draft.comparison (fun draft value => { draft with comparison := some value })
      Comparison.reader]
  start := {}
  finish draft := do
    let fieldA ← requireField "field_a" draft.fieldA
    let fieldB ← requireField "field_b" draft.fieldB
    let comparison ← requireField "comparison" draft.comparison
    return { fieldA, fieldB, comparison }

end Criterion

/-! ### Rules and tables -/

namespace Rule

def toJson (rule : Rule) : Json :=
  .object [("kind_a", .string rule.kindA), ("kind_b", .string rule.kindB),
    ("relationship", .string rule.relationship.name),
    ("match_criteria", .array (rule.criteria.map Criterion.toJson))]

/-- What has been read of a rule. -/
structure Draft where
  kindA : Option String := none
  kindB : Option String := none
  relationship : Option String := none
  criteria : Option (List Criterion) := none

/-- How a rule is read from JSON. -/
def record : Record Draft Rule where
  name := "RelationshipRule"
  fields := [
    .of "kind_a" Draft.kindA (fun draft value => { draft with kindA := some value }) Json.stringReader,
    .of "kind_b" Draft.kindB (fun draft value => { draft with kindB := some value }) Json.stringReader,
    .of "relationship" Draft.relationship (fun draft value => { draft with relationship := some value })
      Json.stringReader,
    .of "match_criteria" Draft.criteria (fun draft value => { draft with criteria := some value })
      (Json.listReader Criterion.record.reader)]
  start := {}
  finish draft := do
    let kindA ← requireField "kind_a" draft.kindA
    let kindB ← requireField "kind_b" draft.kindB
    let relationship ← requireField "relationship" draft.relationship
    let criteria ← requireField "match_criteria" draft.criteria
    return { kindA, kindB, relationship := ⟨relationship⟩, criteria }

end Rule

/-- Why a rule file was refused, for those who edit it. -/
def configurationMessage (cause : Json.Mismatch) : String :=
  "Configuration error: " ++ cause.message

namespace RuleTable

def toJson (table : RuleTable) : Json :=
  .array (table.rules.map Rule.toJson)

/-- A table as the text of a rule file. -/
def toText (table : RuleTable) : String :=
  table.toJson.pretty

def reader : Reader RuleTable :=
  fun depth cs => (Json.listReader Rule.record.reader depth cs).map fun rules => { rules }

/-- Reads a table from the text of a rule file. -/
def ofText? (text : String) : Except Json.ReadError RuleTable :=
  Json.readText reader text

end RuleTable

end ResourceGraph
