import Mathlib.Data.List.Forall2
import ResourceGraph.Json.Value

/-!
# Readings that agree

Two readings of one text take the same steps, whatever they make of what they read. So they end in the same error or
in values that belong together, once this holds of each form of value (`rel_readForms`).

`Forms` are a `Shape` in which the members of an object are gathered in a way of their own, so that a reading may
keep all of them.
-/

namespace ResourceGraph

namespace Json

open Parsed (malformed truncated)

/-- Both outcomes are the same error, or related values with the same rest. -/
inductive Parsed.Rel {α β : Type} (R : α → β → Prop) : Parsed α → Parsed β → Prop
  | ok {a : α} {b : β} {rest : List Char} : R a b → Rel R (.ok a rest) (.ok b rest)
  | error {cause : ReadError} : Rel R (.error cause) (.error cause)

section
variable {α β γ δ σ τ : Type} {R : α → β → Prop} {S : σ → τ → Prop}

namespace Parsed.Rel

theorem of_eq (p : Parsed α) : Rel (· = ·) p p := by
  cases p with
  | ok => exact .ok rfl
  | error => exact .error

theorem andThen {p : Parsed α} {q : Parsed β} {f : α → List Char → Parsed σ} {g : β → List Char → Parsed τ}
    (h : Rel R p q) (hnext : ∀ a b rest, R a b → Rel S (f a rest) (g b rest)) :
    Rel S (p.andThen f) (q.andThen g) := by
  cases h with
  | ok hab => exact hnext _ _ _ hab
  | error => exact .error

theorem map {p : Parsed α} {q : Parsed β} {f : α → σ} {g : β → τ} (h : Rel R p q)
    (hmap : ∀ a b, R a b → S (f a) (g b)) : Rel S (p.map f) (q.map g) := by
  cases h with
  | ok hab => exact .ok (hmap _ _ hab)
  | error => exact .error

/-- The same characters are read by both. -/
theorem map_same {p : Parsed γ} {f : γ → σ} {g : γ → τ} (hmap : ∀ c, S (f c) (g c)) : Rel S (p.map f) (p.map g) :=
  (of_eq p).map fun _ _ h => h ▸ hmap _

end Parsed.Rel

open Parsed (Rel)

theorem rel_readItems {item : List Char → Parsed α} {item' : List Char → Parsed β}
    (h : ∀ cs, Rel R (item cs) (item' cs)) (bound : Nat) (cs : List Char) :
    Rel (List.Forall₂ R) (readItems item bound cs) (readItems item' bound cs) := by
  induction bound generalizing cs with
  | zero => exact .error
  | succ bound ih =>
    refine (h cs).andThen fun a b rest hab => ?_
    split
    · exact .error
    · exact .ok (.cons hab .nil)
    · exact (ih _).map fun _ _ hrest => .cons hab hrest
    · exact .error

theorem rel_readArray {item : List Char → Parsed α} {item' : List Char → Parsed β}
    (h : ∀ cs, Rel R (item cs) (item' cs)) (cs : List Char) :
    Rel (List.Forall₂ R) (readArray item cs) (readArray item' cs) := by
  unfold readArray
  split
  · exact .error
  · exact .ok .nil
  · exact rel_readItems h _ _

theorem rel_readMembers {member : σ → String → List Char → Parsed σ} {member' : τ → String → List Char → Parsed τ}
    (h : ∀ s t key cs, S s t → Rel S (member s key cs) (member' t key cs)) (bound : Nat) {s : σ} {t : τ}
    (hst : S s t) (cs : List Char) : Rel S (readMembers member bound s cs) (readMembers member' bound t cs) := by
  induction bound generalizing s t cs with
  | zero => exact .error
  | succ bound ih =>
    refine (Rel.of_eq (readKey cs)).andThen fun key _ rest hkey => ?_
    subst hkey
    refine (h s t key rest hst).andThen fun s' t' rest' hst' => ?_
    split
    · exact .error
    · exact .ok hst'
    · exact ih hst' _
    · exact .error

theorem rel_readObject {member : σ → String → List Char → Parsed σ} {member' : τ → String → List Char → Parsed τ}
    (h : ∀ s t key cs, S s t → Rel S (member s key cs) (member' t key cs)) {s : σ} {t : τ}
    (hst : S s t) (cs : List Char) : Rel S (readObject member s cs) (readObject member' t cs) := by
  unfold readObject
  split
  · exact .error
  · exact .ok hst
  · exact rel_readMembers h _ hst _

/-! ### Forms -/

/-- What the forms of JSON values become if the members of an object are gathered one after the other. -/
structure Forms (α σ : Type) where
  null : α
  bool : Bool → α
  numeral : Numeral → Option α
  string : String → α
  array : List α → α
  start : σ
  extend : σ → String → α → σ
  object : σ → α

/-- A shape keeps each key once. -/
def Shape.forms (shape : Shape α) : Forms α (Entries α) where
  null := shape.null
  bool := shape.bool
  numeral := shape.numeral
  string := shape.string
  array := shape.array
  start := []
  extend entries key value := entries.insert key value
  object := shape.object

def readMember (forms : Forms α σ) (value : List Char → Parsed α) (gathered : σ) (key : String)
    (cs : List Char) : Parsed σ :=
  (readColon cs).andThen fun _ cs =>
  (value cs).map fun x => forms.extend gathered key x

/-- Reads a value into its forms. -/
def readForms (forms : Forms α σ) (depth : Nat) (cs : List Char) : Parsed α :=
  match skipBlank cs with
  | [] => truncated
  | 'n' :: rest => (readWord ['u', 'l', 'l'] rest).map fun _ => forms.null
  | 't' :: rest => (readWord ['r', 'u', 'e'] rest).map fun _ => forms.bool true
  | 'f' :: rest => (readWord ['a', 'l', 's', 'e'] rest).map fun _ => forms.bool false
  | '"' :: rest => (readString rest).map forms.string
  | '[' :: rest =>
    match depth with
    | 0 => malformed
    | depth + 1 => (readArray (readForms forms depth) rest).map forms.array
  | '\x7b' :: rest =>
    match depth with
    | 0 => malformed
    | depth + 1 => (readObject (readMember forms (readForms forms depth)) forms.start rest).map forms.object
  | c :: rest =>
    if startsNumber c then
      (readNumeral (c :: rest)).andThen fun numeral rest =>
      match forms.numeral numeral with
      | some value => .ok value rest
      | none => malformed
    else malformed

theorem readValue_eq_readForms (shape : Shape α) (depth : Nat) :
    readValue shape depth = readForms shape.forms depth := by
  induction depth with
  | zero =>
    funext cs
    rw [readValue, readForms]
    rfl
  | succ depth ih =>
    funext cs
    rw [readValue, readForms]
    dsimp only
    rw [ih]
    rfl

/-- Each form becomes related values. -/
structure Forms.Agree (R : α → β → Prop) (S : σ → τ → Prop) (f : Forms α σ) (g : Forms β τ) : Prop where
  null : R f.null g.null
  bool : ∀ b, R (f.bool b) (g.bool b)
  numeral : ∀ numeral, Option.Rel R (f.numeral numeral) (g.numeral numeral)
  string : ∀ s, R (f.string s) (g.string s)
  array : ∀ xs ys, List.Forall₂ R xs ys → R (f.array xs) (g.array ys)
  start : S f.start g.start
  extend : ∀ s t key x y, S s t → R x y → S (f.extend s key x) (g.extend t key y)
  object : ∀ s t, S s t → R (f.object s) (g.object t)

/-- One step of the induction on the nesting. -/
theorem rel_readForms_of_inner {f : Forms α σ} {g : Forms β τ} (h : Forms.Agree R S f g) {depth : Nat}
    (hinner : ∀ inner, depth = inner + 1 → ∀ cs, Rel R (readForms f inner cs) (readForms g inner cs))
    (cs : List Char) : Rel R (readForms f depth cs) (readForms g depth cs) := by
  rw [readForms, readForms]
  generalize skipBlank cs = cs
  split
  · exact .error
  · exact Rel.map_same fun _ => h.null
  · exact Rel.map_same fun _ => h.bool true
  · exact Rel.map_same fun _ => h.bool false
  · exact Rel.map_same h.string
  · split
    · exact .error
    · next inner => exact (rel_readArray (hinner inner rfl) _).map h.array
  · split
    · exact .error
    · next inner =>
      refine (rel_readObject (S := S) (fun s t key cs hst => ?_) h.start _).map h.object
      refine (Rel.of_eq (readColon cs)).andThen fun _ _ rest _ => ?_
      exact (hinner inner rfl rest).map fun x y hxy => h.extend s t key x y hst hxy
  · split
    · refine (Rel.of_eq (readNumeral _)).andThen fun numeral _ rest hnumeral => ?_
      subst hnumeral
      have hvalue := h.numeral numeral
      revert hvalue
      cases f.numeral numeral <;> cases g.numeral numeral <;> rintro ⟨⟩
      · exact .error
      · exact .ok ‹_›
    · exact .error

theorem rel_readForms {f : Forms α σ} {g : Forms β τ} (h : Forms.Agree R S f g) (depth : Nat) (cs : List Char) :
    Rel R (readForms f depth cs) (readForms g depth cs) := by
  induction depth generalizing cs with
  | zero => exact rel_readForms_of_inner h (fun inner heq => absurd heq (Nat.succ_ne_zero inner).symm) cs
  | succ depth ih =>
    refine rel_readForms_of_inner h (fun inner heq => ?_) cs
    obtain rfl := Nat.succ.inj heq
    exact ih

/-- Readings whose values have something in common give texts that in common too. -/
theorem map_readText_eq {reader : Reader α} {reader' : Reader β} {φ : α → γ} {ψ : β → γ}
    (h : ∀ cs, Rel (fun a b => φ a = ψ b) (reader nestingLimit cs) (reader' nestingLimit cs)) (text : String) :
    (readText reader text).map φ = (readText reader' text).map ψ := by
  have hrel := h text.toList
  unfold readText
  generalize reader nestingLimit text.toList = p at hrel ⊢
  generalize reader' nestingLimit text.toList = q at hrel ⊢
  cases hrel with
  | error => rfl
  | ok hab =>
    dsimp only
    split
    · exact congrArg Except.ok hab
    · rfl

end

end Json

end ResourceGraph
