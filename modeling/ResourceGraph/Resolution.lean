import ResourceGraph.Document.Json
import ResourceGraph.Matching
import ResourceGraph.Rule.Direction
import ResourceGraph.Rule.Table

/-!
# Resolving relationships

A resolution collects the participants of all related pairs of two collections on two sides. The pairs come
in the order of the first collection and, for each of its members, of the second. A side takes a participant
unless it already has one of the same name; participants without a name are always taken. The traversal is
generic in the members, of which only a name and a relation are asked.
-/

namespace ResourceGraph

/-- The participants of related pairs, by side. -/
structure Resolution (α : Type) where
  left : List α := []
  right : List α := []

namespace Resolution
variable {α : Type}

/-- The related pairs of two collections, in the order of their members. -/
def relatedPairs (related : α → α → Bool) (as bs : List α) : List (α × α) :=
  as.flatMap fun a => (bs.filter (related a)).map fun b => (a, b)

/-- Whether a side has a member with the name of `x`. -/
def hasNamesake (name : α → Option String) (side : List α) (x : α) : Bool :=
  (name x).any fun n => side.any fun y => name y == some n

/-- Adds a member to a side, unless its name is there already. -/
def addOnce (name : α → Option String) (side : List α) (x : α) : List α :=
  if hasNamesake name side x then side else side ++ [x]

/-- Adds the participants of a pair. Going left, the first one goes to the right side and the second to the
left side; going right, the other way round. The other directions route nothing. -/
def addPair (name : α → Option String) (direction : Direction) (resolution : Resolution α)
    (pair : α × α) : Resolution α :=
  match direction with
  | .left => ⟨addOnce name resolution.left pair.2, addOnce name resolution.right pair.1⟩
  | .right => ⟨addOnce name resolution.left pair.1, addOnce name resolution.right pair.2⟩
  | .both => resolution
  | .none => resolution

/-- The participants of all related pairs. -/
def ofRelated (name : α → Option String) (related : α → α → Bool) (direction : Direction)
    (as bs : List α) : Resolution α :=
  (relatedPairs related as bs).foldl (addPair name direction) {}

def isEmpty (resolution : Resolution α) : Bool :=
  resolution.left.isEmpty && resolution.right.isEmpty

/-- A side by its name. -/
def side? (resolution : Resolution α) (key : String) : Option (List α) :=
  if key = "left" then some resolution.left
  else if key = "right" then some resolution.right
  else none

/-- The two sides in JSON. -/
def toJson (resolution : Resolution Document) : Json :=
  .object [("left", .array (resolution.left.map Document.toJson)),
    ("right", .array (resolution.right.map Document.toJson))]

end Resolution

/-- The name by which a resource is known: the string at `metadata.name`. -/
def Document.identity? (resource : Document) : Option String :=
  ((resource.get? "metadata").bind (Document.get? "name")).bind Document.toString?

/-- Resolves a rule on two collections of resources. -/
def Rule.resolve (rule : Rule) (direction : Direction) (as bs : List Document) : Resolution Document :=
  .ofRelated Document.identity? (Matcher.ofCriteria rule.criteria).accepts direction as bs

/-- Resolves the first rule of a relationship. -/
def RuleTable.resolve (table : RuleTable) (relationship : Relationship) (direction : Direction)
    (as bs : List Document) : Except UnknownRelationship (Resolution Document) :=
  (table.ruleFor relationship).map fun rule => rule.resolve direction as bs

end ResourceGraph
