import ResourceGraph.Json.Error

/-!
# Outcomes of reading

A reader takes the rest of the text and answers with a value and what is left, or with the first problem.
`andThen` goes on reading after a success and keeps the problem otherwise.
-/

namespace ResourceGraph.Json

/-- An outcome of reading: a value and what is left of the text, or the first problem. -/
inductive Parsed (α : Type)
  | ok (value : α) (rest : List Char)
  | error (cause : ReadError)

namespace Parsed
variable {α β : Type}

/-- Text that breaks the rules of JSON. -/
def malformed : Parsed α := error .malformed

/-- Text that ends too early. -/
def truncated : Parsed α := error .truncated

/-- Text of the wrong type. -/
def mismatched (cause : Mismatch) : Parsed α := error (.mismatched cause)

/-- Goes on reading after a success. -/
@[inline] def andThen : Parsed α → (α → List Char → Parsed β) → Parsed β
  | ok value rest, next => next value rest
  | error cause, _ => error cause

/-- Replaces the value of a success. -/
@[inline] def map (f : α → β) : Parsed α → Parsed β
  | ok value rest => ok (f value) rest
  | error cause => error cause

@[simp] theorem andThen_ok (value : α) (rest : List Char) (next : α → List Char → Parsed β) :
    (ok value rest).andThen next = next value rest := rfl

@[simp] theorem andThen_error (cause : ReadError) (next : α → List Char → Parsed β) :
    (error cause).andThen next = error cause := rfl

@[simp] theorem map_ok (f : α → β) (value : α) (rest : List Char) :
    (ok value rest).map f = ok (f value) rest := rfl

@[simp] theorem map_error (f : α → β) (cause : ReadError) :
    (error cause : Parsed α).map f = error cause := rfl

theorem andThen_eq_ok_iff {p : Parsed α} {next : α → List Char → Parsed β} {b : β} {rest : List Char} :
    p.andThen next = ok b rest ↔ ∃ a mid, p = ok a mid ∧ next a mid = ok b rest := by
  cases p <;> grind [andThen]

theorem map_eq_ok_iff {p : Parsed α} {f : α → β} {b : β} {rest : List Char} :
    p.map f = ok b rest ↔ ∃ a, p = ok a rest ∧ f a = b := by
  cases p <;> grind [map]

end Parsed

end ResourceGraph.Json
