import ResourceGraph.Document.Basic

/-!
# Equality of documents

Two documents are equal if their scalars are, position by position in lists and key by key in maps, in
whatever order the keys stand. `looseEq` compares numbers by value, since data that has passed through text
need not keep integers and binary64 numbers apart; `strictEq` keeps them apart.
-/

namespace ResourceGraph.Document

mutual

/-- Whether two documents have the same shape and scalars that `scalar` accepts. -/
def equalBy (scalar : Document → Document → Bool) : Document → Document → Bool
  | .list as, .list bs => equalItems scalar as bs
  | .map as, .map bs => as.length == bs.length && equalEntries scalar as bs
  | a, b => scalar a b

/-- Whether two lists have the same length and equal items. -/
def equalItems (scalar : Document → Document → Bool) : List Document → List Document → Bool
  | [], [] => true
  | a :: as, b :: bs => equalBy scalar a b && equalItems scalar as bs
  | _, _ => false

/-- Whether every entry has an equal one among `others`. -/
def equalEntries (scalar : Document → Document → Bool) :
    List (String × Document) → Entries Document → Bool
  | [], _ => true
  | (key, value) :: entries, others =>
    (match others.get? key with
      | some other => equalBy scalar value other
      | none => false) && equalEntries scalar entries others

end

/-- Equality of scalars of the same type. A zero equals the negative zero, and NaN nothing. -/
def strictScalarEq : Document → Document → Bool
  | .null, .null => true
  | .bool a, .bool b => a == b
  | .int a, .int b => a == b
  | .float a, .float b => a.valueEq b
  | .string a, .string b => a == b
  | _, _ => false

/-- Equality of scalars, an integer and a binary64 number being compared as binary64 numbers. -/
def looseScalarEq : Document → Document → Bool
  | .int a, .float b => (Binary64.ofInt a.toInt).valueEq b
  | .float a, .int b => a.valueEq (.ofInt b.toInt)
  | a, b => strictScalarEq a b

/-- Equality of trees, with integers and binary64 numbers kept apart. -/
def strictEq : Document → Document → Bool :=
  equalBy strictScalarEq

/-- Equality of trees, with numbers compared by value. -/
def looseEq : Document → Document → Bool :=
  equalBy looseScalarEq

theorem looseScalarEq_comm (a b : Document) : looseScalarEq a b = looseScalarEq b a := by
  cases a <;> cases b <;> simp [looseScalarEq, strictScalarEq, Binary64.valueEq_comm, Bool.beq_comm]

theorem looseScalarEq_of_strictScalarEq {a b : Document} (h : strictScalarEq a b) : looseScalarEq a b := by
  cases a <;> cases b <;> simp_all [looseScalarEq, strictScalarEq]

end ResourceGraph.Document
