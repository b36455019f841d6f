import ResourceGraph.Entries

/-!
# Relationship rules

A rule says when a resource of one kind is related to a resource of another: every one of its criteria, each
a comparison of a field of the first with a field of the second, must hold of the pair.
-/

namespace ResourceGraph

/-- How the fields of a criterion are compared. -/
inductive Comparison
  /-- Every entry of the second field, a selector, is among those of the first, the labels. -/
  | containsAll
  /-- The second field occurs somewhere inside the first. -/
  | exactMatch
deriving DecidableEq

/-- A comparison of a field of the first resource with a field of the second. -/
structure Criterion where
  fieldA : String
  fieldB : String
  comparison : Comparison
deriving DecidableEq

/-- The name of a relationship. -/
structure Relationship where
  name : String
deriving DecidableEq

/-- A relationship between resources of two kinds. -/
structure Rule where
  kindA : String
  kindB : String
  relationship : Relationship
  criteria : List Criterion
deriving DecidableEq

/-- A text in which ASCII letters that differ in case only are made equal. -/
def foldCase (text : String) : List Char :=
  text.toList.map Char.toLower

/-- Whether a rule connects two kinds, named in either order and in any ASCII case. -/
def Rule.connects (rule : Rule) (a b : String) : Bool :=
  (foldCase rule.kindA == foldCase a && foldCase rule.kindB == foldCase b)
    || (foldCase rule.kindA == foldCase b && foldCase rule.kindB == foldCase a)

theorem Rule.connects_comm (rule : Rule) (a b : String) : rule.connects a b = rule.connects b a := by
  simp [connects, Bool.or_comm]

end ResourceGraph
