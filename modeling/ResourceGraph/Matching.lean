import ResourceGraph.Document.Equality
import ResourceGraph.FieldPath.Lookup
import ResourceGraph.FieldPath.Parse
import ResourceGraph.Rule.Basic

/-!
# Matching pairs of resources

Whether the criteria of a rule hold of two resources. A criterion that cannot be evaluated, because a path
does not parse, a field is missing or a field has the wrong shape, does not hold; there are no errors.
-/

namespace ResourceGraph

namespace Document

mutual

/-- Whether a scalar equal to `needle` occurs anywhere inside a document. A null inside it never counts, and
a list or map as a whole equals nothing. -/
def occursIn (needle : Document) : Document → Bool
  | .null => false
  | .list items => occursInItems needle items
  | .map entries => occursInEntries needle entries
  | scalar => scalar.looseEq needle

def occursInItems (needle : Document) : List Document → Bool
  | [] => false
  | item :: items => occursIn needle item || occursInItems needle items

def occursInEntries (needle : Document) : List (String × Document) → Bool
  | [] => false
  | (_, value) :: entries => occursIn needle value || occursInEntries needle entries

end

theorem occursInItems_eq_any (needle : Document) (items : List Document) :
    occursInItems needle items = items.any (occursIn needle) := by
  induction items with
  | nil => rfl
  | cons item items ih => simp [occursInItems, ih]

theorem occursInEntries_eq_any (needle : Document) (entries : Entries Document) :
    occursInEntries needle entries = entries.any fun entry => occursIn needle entry.2 := by
  induction entries with
  | nil => rfl
  | cons entry entries ih => simp [occursInEntries, ih]

end Document

/-- Whether an entry of a selector is among the labels, with an equal value. -/
def hasLabel (labels : Entries Document) (entry : String × Document) : Bool :=
  (labels.get? entry.1).any (Document.looseEq · entry.2)

/-- Whether every entry of a selector is among the labels. No labels and no selector match nothing. -/
def containsAll (labels selector : Entries Document) : Bool :=
  !selector.isEmpty && !labels.isEmpty && selector.all (hasLabel labels)

/-- Whether two fields compare as asked. -/
def Comparison.holds : Comparison → Document → Document → Bool
  | .containsAll, .map labels, .map selector => ResourceGraph.containsAll labels selector
  | .containsAll, _, _ => false
  | .exactMatch, a, b => b.occursIn a

/-- A criterion with its paths parsed; `none` stands for one that does not parse. -/
structure PreparedCriterion where
  fieldA : Option FieldPath
  fieldB : Option FieldPath
  comparison : Comparison

def Criterion.prepare (criterion : Criterion) : PreparedCriterion where
  fieldA := FieldPath.parse? criterion.fieldA
  fieldB := FieldPath.parse? criterion.fieldB
  comparison := criterion.comparison

/-- The value of a field, if its path parses and leads somewhere. -/
def fieldValue? (path : Option FieldPath) (resource : Document) : Option Document :=
  path.bind fun path => (path.lookup resource).toOption

/-- Whether a criterion holds of a pair. -/
def PreparedCriterion.holds (criterion : PreparedCriterion) (a b : Document) : Bool :=
  match fieldValue? criterion.fieldA a, fieldValue? criterion.fieldB b with
  | some x, some y => criterion.comparison.holds x y
  | _, _ => false

/-- Criteria prepared for many pairs. -/
structure Matcher where
  criteria : List PreparedCriterion

namespace Matcher

def ofCriteria (criteria : List Criterion) : Matcher where
  criteria := criteria.map Criterion.prepare

def size (matcher : Matcher) : Nat :=
  matcher.criteria.length

def isEmpty (matcher : Matcher) : Bool :=
  matcher.criteria.isEmpty

/-- Whether every criterion holds of a pair. -/
def accepts (matcher : Matcher) (a b : Document) : Bool :=
  matcher.criteria.all (·.holds a b)

end Matcher

/-- Whether every criterion holds of a pair. -/
def matchesAll (criteria : List Criterion) (a b : Document) : Bool :=
  (Matcher.ofCriteria criteria).accepts a b

theorem matchesAll_iff {criteria : List Criterion} {a b : Document} :
    matchesAll criteria a b ↔ ∀ criterion ∈ criteria, criterion.prepare.holds a b := by
  simp [matchesAll, Matcher.accepts, Matcher.ofCriteria]

end ResourceGraph
