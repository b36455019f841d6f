import Mathlib.Data.List.Forall2
import Mathlib.Data.Multiset.ZeroCons
import ResourceGraph.Resolution

/-!
# Searching rule tables

Every search of a rule table finds the first rule that fits (`FindsFirst`), whatever stands behind it, so longer tables
find what shorter ones found (`RuleTable.searchesInOrder`). A rule fits a relationship if it is the rule's own. It
fits two kinds if these are the kinds it joins, taken as an unordered pair and compared up to the case of ASCII
letters (`Rule.Joins`); `Rule.connects` decides this by comparing folded texts in both orders.
-/

namespace ResourceGraph

/-! ### Kinds up to case -/

/-- The same character, or an ASCII letter in its two cases. -/
inductive SameLetter : Char → Char → Prop
  | refl (c : Char) : SameLetter c c
  | lower {c d : Char} : c.isUpper → d.toNat = c.toNat + 32 → SameLetter c d
  | upper {c d : Char} : d.isUpper → c.toNat = d.toNat + 32 → SameLetter c d

/-- The kinds differ at most in the case of ASCII letters. -/
def SameKind (a b : String) : Prop :=
  List.Forall₂ SameLetter a.toList b.toList

theorem isUpper_iff {c : Char} : c.isUpper ↔ 65 ≤ c.toNat ∧ c.toNat ≤ 90 := by
  show decide (c.val ≥ 65 ∧ c.val ≤ 90) = true ↔ 65 ≤ c.toNat ∧ c.toNat ≤ 90
  rw [decide_eq_true_iff]
  exact Iff.rfl

theorem toNat_toLower (c : Char) : c.toLower.toNat = if c.isUpper then c.toNat + 32 else c.toNat := by
  unfold Char.toLower
  split <;> rename_i h
  · have hupper : c.isUpper := isUpper_iff.2 h
    have hlt : c.toNat + 32 < 2 ^ 32 := by
      have hle : c.toNat ≤ 90 := h.2
      omega
    rw [if_pos hupper]
    show (c.val + 32).toNat = c.toNat + 32
    rw [UInt32.toNat_add, Nat.mod_eq_of_lt]
    · rfl
    · exact hlt
  · have hlower : ¬ c.isUpper := mt isUpper_iff.1 h
    rw [if_neg hlower]

theorem sameLetter_iff {c d : Char} : SameLetter c d ↔ c.toLower = d.toLower := by
  rw [← Char.toNat_inj, toNat_toLower, toNat_toLower]
  constructor
  · intro h
    cases h with
    | refl => rfl
    | lower hupper hnext =>
      have hlower : ¬ d.isUpper := by
        rw [isUpper_iff] at hupper ⊢
        omega
      rw [if_pos hupper, if_neg hlower, hnext]
    | upper hupper hnext =>
      have hlower : ¬ c.isUpper := by
        rw [isUpper_iff] at hupper ⊢
        omega
      rw [if_pos hupper, if_neg hlower, hnext]
  · intro h
    split_ifs at h with hc hd hd
    · obtain rfl : c = d := Char.toNat_inj.1 (Nat.add_right_cancel h)
      exact .refl c
    · exact .lower hc h.symm
    · exact .upper hd h
    · obtain rfl : c = d := Char.toNat_inj.1 h
      exact .refl c

theorem sameKind_iff {a b : String} : SameKind a b ↔ foldCase a = foldCase b := by
  have hletters : SameLetter = fun c d : Char => c.toLower = d.toLower := by
    funext c d
    exact propext sameLetter_iff
  rw [SameKind, hletters, foldCase, foldCase, ← List.forall₂_eq_eq_eq, List.forall₂_map_left_iff,
    List.forall₂_map_right_iff]

/-! ### Pairs of kinds -/

/-- The kinds of the rule are `a` and `b`, each of them once and in either order, up to case. -/
def Rule.Joins (rule : Rule) (a b : String) : Prop :=
  Multiset.Rel SameKind {rule.kindA, rule.kindB} {a, b}

theorem rel_pair_iff {α : Type} {r : α → α → Prop} {x y a b : α} :
    Multiset.Rel r {x, y} {a, b} ↔ r x a ∧ r y b ∨ r x b ∧ r y a := by
  have hpair {x y a b : α} (hx : r x a) (hy : r y b) : Multiset.Rel r {x, y} {a, b} :=
    .cons hx (.cons hy .zero)
  constructor
  · intro h
    obtain ⟨c, others, hx, hothers, hcons⟩ := Multiset.rel_cons_left.1 h
    obtain ⟨d, others', hy, hnone, rfl⟩ := Multiset.rel_cons_left.1 hothers
    obtain rfl := Multiset.rel_zero_left.1 hnone
    rw [Multiset.cons_zero] at hcons
    rcases Multiset.cons_eq_cons.1 hcons with ⟨rfl, hlast⟩ | ⟨-, rest, hb, hd⟩
    · obtain rfl := Multiset.singleton_inj.1 hlast
      exact .inl ⟨hx, hy⟩
    · obtain ⟨rfl, rfl⟩ := (Multiset.singleton_eq_cons_iff rest).1 hb
      obtain ⟨rfl, -⟩ := (Multiset.singleton_eq_cons_iff 0).1 hd
      exact .inr ⟨hx, hy⟩
  · rintro (⟨hx, hy⟩ | ⟨hx, hy⟩)
    · exact hpair hx hy
    · rw [Multiset.pair_comm a b]
      exact hpair hx hy

theorem Rule.connects_iff_joins {rule : Rule} {a b : String} : rule.connects a b ↔ rule.Joins a b := by
  simp only [Joins, rel_pair_iff, sameKind_iff, connects, Bool.or_eq_true, Bool.and_eq_true, beq_iff_eq]

theorem Rule.connects_congr {a b a' b' : String} (ha : SameKind a a') (hb : SameKind b b') (rule : Rule) :
    rule.connects a' b' = rule.connects a b := by
  rw [connects, connects, sameKind_iff.1 ha, sameKind_iff.1 hb]

/-! ### The first that fits -/

/-- What is found in a list is the first that fits, and nothing only if none fits. -/
inductive FindsFirst {α : Type} (fits : α → Prop) : List α → Option α → Prop
  | found {before after : List α} {x : α} : (∀ y ∈ before, ¬ fits y) → fits x →
    FindsFirst fits (before ++ x :: after) (some x)
  | nothing {xs : List α} : (∀ x ∈ xs, ¬ fits x) → FindsFirst fits xs none

theorem find?_eq_iff {α : Type} {p : α → Bool} {fits : α → Prop} (hfits : ∀ x, p x ↔ fits x) {xs : List α}
    {found : Option α} : xs.find? p = found ↔ FindsFirst fits xs found := by
  cases found with
  | none =>
    rw [List.find?_eq_none]
    constructor
    · exact fun h => .nothing fun x hx => mt (hfits x).2 (h x hx)
    · rintro (_ | h)
      exact fun x hx => mt (hfits x).1 (h x hx)
  | some x =>
    rw [List.find?_eq_some_iff_append]
    constructor
    · rintro ⟨hx, before, after, rfl, hbefore⟩
      refine .found (fun y hy => ?_) ((hfits x).1 hx)
      rw [← hfits y]
      simpa using hbefore y hy
    · rintro @⟨before, after, _, hbefore, hx⟩
      refine ⟨(hfits x).2 hx, before, after, rfl, fun y hy => ?_⟩
      simpa using mt (hfits y).1 (hbefore y hy)

theorem find?_append_of_eq_some {α : Type} {p : α → Bool} {xs : List α} {x : α} (h : xs.find? p = some x)
    (more : List α) : (xs ++ more).find? p = some x := by
  rw [List.find?_append, h, Option.some_or]

/-! ### Searches -/

namespace RuleTable

variable {table : RuleTable} {relationship : Relationship}

theorem ruleFor_eq_ok_iff {rule : Rule} :
    table.ruleFor relationship = .ok rule ↔
      table.rules.find? (·.relationship = relationship) = some rule := by
  rw [ruleFor]
  cases table.rules.find? (·.relationship = relationship) <;> simp

theorem ruleFor_eq_error_iff {error : UnknownRelationship} :
    table.ruleFor relationship = .error error ↔
      error = ⟨relationship⟩ ∧ table.rules.find? (·.relationship = relationship) = none := by
  rw [ruleFor]
  cases table.rules.find? (·.relationship = relationship) <;> simp [eq_comm]

/-- The table with more rules at its end. -/
def extend (table : RuleTable) (more : List Rule) : RuleTable where
  rules := table.rules ++ more

theorem ruleFor_extend {rule : Rule} (h : table.ruleFor relationship = .ok rule) (more : List Rule) :
    (table.extend more).ruleFor relationship = .ok rule :=
  ruleFor_eq_ok_iff.2 (find?_append_of_eq_some (ruleFor_eq_ok_iff.1 h) more)

theorem find?_relationship_iff {found : Option Rule} :
    table.rules.find? (·.relationship = relationship) = found ↔
      FindsFirst (·.relationship.name = relationship.name) table.rules found := by
  refine find?_eq_iff fun rule => ?_
  obtain ⟨name⟩ := relationship
  rw [decide_eq_true_iff]
  exact ⟨congrArg Relationship.name, congrArg Relationship.mk⟩

theorem resolve_eq_ok_iff {direction : Direction} {as bs : List Document} {resolution : Resolution Document} :
    table.resolve relationship direction as bs = .ok resolution ↔
      ∃ rule, table.ruleFor relationship = .ok rule ∧ rule.resolve direction as bs = resolution := by
  rw [resolve]
  cases table.ruleFor relationship <;> simp [Except.map]

/-- What a table answers, and that it goes on to answer so when it gets longer. -/
structure SearchesInOrder (table : RuleTable) : Prop where
  /-- Two kinds are searched for as an unordered pair, up to case. -/
  connecting (a b : String) (found : Option Rule) :
    table.firstConnecting? a b = found ↔ FindsFirst (·.Joins a b) table.rules found
  swapped (a b : String) : table.firstConnecting? b a = table.firstConnecting? a b
  recased {a b a' b' : String} : SameKind a a' → SameKind b b' →
    table.firstConnecting? a' b' = table.firstConnecting? a b
  /-- A relationship is searched for by its exact name. -/
  known (relationship : Relationship) (rule : Rule) :
    table.ruleFor relationship = .ok rule ↔
      FindsFirst (·.relationship.name = relationship.name) table.rules (some rule)
  unknown (relationship : Relationship) (error : UnknownRelationship) :
    table.ruleFor relationship = .error error ↔
      error = ⟨relationship⟩ ∧ FindsFirst (·.relationship.name = relationship.name) table.rules none
  /-- A relationship is resolved by the rule that is found. -/
  resolved {relationship : Relationship} {rule : Rule} (direction : Direction) (as bs : List Document) :
    FindsFirst (·.relationship.name = relationship.name) table.rules (some rule) →
    table.resolve relationship direction as bs = .ok (rule.resolve direction as bs)
  /-- Without a rule nothing is asked of the resources. -/
  unresolved {relationship : Relationship} (direction : Direction) (as bs : List Document) :
    FindsFirst (·.relationship.name = relationship.name) table.rules none →
    table.resolve relationship direction as bs = .error ⟨relationship⟩
  connecting_extend {a b : String} {rule : Rule} (more : List Rule) :
    table.firstConnecting? a b = some rule → (table.extend more).firstConnecting? a b = some rule
  known_extend {relationship : Relationship} {rule : Rule} (more : List Rule) :
    table.ruleFor relationship = .ok rule → (table.extend more).ruleFor relationship = .ok rule
  resolved_extend {relationship : Relationship} {direction : Direction} {as bs : List Document}
    {resolution : Resolution Document} (more : List Rule) :
    table.resolve relationship direction as bs = .ok resolution →
    (table.extend more).resolve relationship direction as bs = .ok resolution

/-- A table is searched in order: by two kinds, by a relationship, and to resolve a relationship. -/
theorem searchesInOrder (table : RuleTable) : table.SearchesInOrder where
  connecting _ _ _ := find?_eq_iff fun _ => Rule.connects_iff_joins
  swapped a b := congrArg table.rules.find? (funext fun rule => rule.connects_comm b a)
  recased ha hb := congrArg table.rules.find? (funext (Rule.connects_congr ha hb))
  known _ _ := ruleFor_eq_ok_iff.trans find?_relationship_iff
  unknown _ _ := ruleFor_eq_error_iff.trans (and_congr_right fun _ => find?_relationship_iff)
  resolved direction as bs h := resolve_eq_ok_iff.2 ⟨_, ruleFor_eq_ok_iff.2 (find?_relationship_iff.2 h), rfl⟩
  unresolved direction as bs h := by
    rw [resolve, ruleFor_eq_error_iff.2 ⟨rfl, find?_relationship_iff.2 h⟩]
    rfl
  connecting_extend more h := find?_append_of_eq_some h more
  known_extend more h := ruleFor_extend h more
  resolved_extend more h := by
    obtain ⟨rule, hrule, hresolve⟩ := resolve_eq_ok_iff.1 h
    exact resolve_eq_ok_iff.2 ⟨rule, ruleFor_extend hrule more, hresolve⟩

example :
    let table : RuleTable :=
      ⟨[⟨"pods", "Pods", ⟨"PEER"⟩, []⟩, ⟨"nodes", "pods", ⟨"RUN"⟩, []⟩, ⟨"pods", "nodes", ⟨"RUN"⟩, []⟩]⟩
    table.firstConnecting? "PODS" "Nodes" = table.rules[1]? ∧ table.firstConnecting? "nodes" "nodes" = none := by
  decide

end RuleTable

end ResourceGraph
