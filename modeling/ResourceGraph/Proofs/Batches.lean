import Mathlib.Data.List.Perm.Basic
import ResourceGraph.Proofs.Participation

/-!
# Resolving in batches

A collection may be resolved in parts. Splitting the first one splits the related pairs where the second part
begins, so each side is that of the first part with what the second part adds to it (`collected_append`). Splitting
the second one mingles the related pairs of the parts: the first pair of a name may then be another one, and only
which names a side holds and how many of its members have none can be told from the parts (`joins_collected`).
-/

namespace ResourceGraph

namespace Resolution

section
variable {α : Type} {name : α → Option String}

/-- A side with what a later one adds to it: the members without a name and those whose name is new. -/
def joined (name : α → Option String) (earlier later : List α) : List α :=
  earlier ++ later.filter fun x => name x = none ∨ name x ∉ earlier.map name

/-- A side has the names of two others, and as many members without a name as both together. -/
structure Joins (name : α → Option String) (whole part other : List α) : Prop where
  names : ∀ n, some n ∈ whole.map name ↔ some n ∈ part.map name ∨ some n ∈ other.map name
  nameless : (whole.map name).count none = (part.map name).count none + (other.map name).count none

/-! ### One part after the other -/

theorem isNew_iff {earlier : List α} {x : α} :
    (name x = none ∨ name x ∉ earlier.map name) ↔ ¬ hasNamesake name earlier x := by
  rw [hasNamesake_iff]
  cases name x <;> simp

theorem joined_concat (earlier later : List α) (x : α) :
    joined name earlier (later ++ [x]) =
      if hasNamesake name earlier x then joined name earlier later else joined name earlier later ++ [x] := by
  rw [joined, List.filter_append, List.filter_singleton, ← List.append_assoc]
  by_cases hsame : hasNamesake name earlier x
  · have hnew := mt isNew_iff.1 (not_not_intro hsame)
    rw [if_pos hsame, decide_eq_false hnew]
    exact List.append_nil _
  · rw [if_neg hsame, decide_eq_true (isNew_iff.2 hsame)]
    rfl

theorem hasNamesake_joined {earlier later : List α} {x : α} :
    hasNamesake name (joined name earlier later) x ↔ hasNamesake name earlier x ∨ hasNamesake name later x := by
  simp only [hasNamesake_iff, joined, List.mem_append, List.mem_filter, decide_eq_true_eq]
  constructor
  · rintro ⟨n, hx, y, hy | ⟨hy, -⟩, hn⟩
    · exact .inl ⟨n, hx, y, hy, hn⟩
    · exact .inr ⟨n, hx, y, hy, hn⟩
  · rintro (⟨n, hx, y, hy, hn⟩ | ⟨n, hx, y, hy, hn⟩)
    · exact ⟨n, hx, y, .inl hy, hn⟩
    · -- a namesake in the later side is left out only for one in the earlier side
      by_cases hnew : name y ∈ earlier.map name
      · obtain ⟨z, hz, hzy⟩ := List.mem_map.1 hnew
        exact ⟨n, hx, z, .inl hz, hzy.trans hn⟩
      · exact ⟨n, hx, y, .inr ⟨hy, .inr hnew⟩, hn⟩

theorem addOnce_joined (earlier later : List α) (x : α) :
    addOnce name (joined name earlier later) x = joined name earlier (addOnce name later x) := by
  rw [addOnce, addOnce]
  by_cases hlater : hasNamesake name later x
  · rw [if_pos (hasNamesake_joined.2 (.inr hlater)), if_pos hlater]
  · rw [if_neg hlater, joined_concat]
    by_cases hearlier : hasNamesake name earlier x
    · rw [if_pos (hasNamesake_joined.2 (.inl hearlier)), if_pos hearlier]
    · have hneither : ¬ hasNamesake name (joined name earlier later) x := by
        rw [hasNamesake_joined]
        exact not_or_intro hearlier hlater
      rw [if_neg hneither, if_neg hearlier]

theorem collected_append (xs ys : List α) :
    collected name (xs ++ ys) = joined name (collected name xs) (collected name ys) := by
  induction ys using List.reverseRecOn with
  | nil => rw [collected_nil, joined, List.filter_nil, List.append_nil, List.append_nil]
  | append_singleton ys y ih =>
    rw [← List.append_assoc, collected_append_singleton, ih, collected_append_singleton, addOnce_joined]

/-! ### Mingled parts -/

theorem name_mem_collected_iff {xs : List α} {n : String} :
    some n ∈ (collected name xs).map name ↔ some n ∈ xs.map name := by
  constructor
  · intro h
    obtain ⟨x, hx, hn⟩ := List.mem_map.1 h
    exact List.mem_map.2 ⟨x, (collected_sublist xs).subset hx, hn⟩
  · intro h
    obtain ⟨x, hx, hn⟩ := List.mem_map.1 h
    obtain ⟨first, hfirst⟩ : ∃ first, xs.find? (fun y => name y = some n) = some first :=
      Option.isSome_iff_exists.1 (List.find?_isSome.2 ⟨x, hx, by simpa using hn⟩)
    have hkept : first ∈ (collected name xs).filter fun y => name y = some n := by
      rw [filter_named_collected, hfirst]
      exact List.mem_singleton_self first
    obtain ⟨hmem, hname⟩ := List.mem_filter.1 hkept
    exact List.mem_map.2 ⟨first, hmem, by simpa using hname⟩

theorem count_nameless_collected (xs : List α) :
    ((collected name xs).map name).count none = (xs.map name).count none := by
  have hcount : ∀ side : List α, (side.map name).count none = (side.filter fun x => (name x).isNone).length := by
    intro side
    rw [List.count, List.countP_map, List.countP_eq_length_filter]
    congr 2
    funext x
    show (name x == none) = (name x).isNone
    cases name x <;> rfl
  rw [hcount, hcount, filter_nameless_collected]

/-- However the members of two lists are mingled, what is collected of them joins what is collected of each. -/
theorem joins_collected {zs xs ys : List α} (h : zs.Perm (xs ++ ys)) :
    Joins name (collected name zs) (collected name xs) (collected name ys) where
  names n := by
    rw [name_mem_collected_iff, name_mem_collected_iff, name_mem_collected_iff, (h.map name).mem_iff,
      List.map_append, List.mem_append]
  nameless := by
    rw [count_nameless_collected, count_nameless_collected, count_nameless_collected, (h.map name).count_eq,
      List.map_append, List.count_append]

/-! ### Both sides -/

theorem relatedPairs_append (related : α → α → Bool) (as as' bs : List α) :
    relatedPairs related (as ++ as') bs = relatedPairs related as bs ++ relatedPairs related as' bs :=
  List.flatMap_append

theorem relatedPairs_append_perm (related : α → α → Bool) (as bs bs' : List α) :
    (relatedPairs related as (bs ++ bs')).Perm (relatedPairs related as bs ++ relatedPairs related as bs') := by
  simp only [relatedPairs, List.filter_append, List.map_append]
  exact (List.flatMap_append_perm as _ _).symm

theorem collected_participants_append (related : α → α → Bool) (participant : α × α → Option α) (as as' bs : List α) :
    collected name ((relatedPairs related (as ++ as') bs).filterMap participant) =
      joined name (collected name ((relatedPairs related as bs).filterMap participant))
        (collected name ((relatedPairs related as' bs).filterMap participant)) := by
  rw [relatedPairs_append, List.filterMap_append, collected_append]

theorem joins_collected_participants (related : α → α → Bool) (participant : α × α → Option α) (as bs bs' : List α) :
    Joins name (collected name ((relatedPairs related as (bs ++ bs')).filterMap participant))
      (collected name ((relatedPairs related as bs).filterMap participant))
      (collected name ((relatedPairs related as bs').filterMap participant)) := by
  refine joins_collected ?_
  rw [← List.filterMap_append]
  exact (relatedPairs_append_perm related as bs bs').filterMap participant

/-- In any direction each side collects one participant, or none, of every related pair. -/
theorem exists_participants (name : α → Option String) (direction : Direction) :
    ∃ left right : α × α → Option α, ∀ related as bs, ofRelated name related direction as bs =
      ⟨collected name ((relatedPairs related as bs).filterMap left),
        collected name ((relatedPairs related as bs).filterMap right)⟩ := by
  cases direction with
  | left =>
    refine ⟨fun p => some p.2, fun p => some p.1, fun related as bs => ?_⟩
    rw [ofRelated, foldl_addPair_left]
    simp only [List.filterMap_eq_map']
    rfl
  | right =>
    refine ⟨fun p => some p.1, fun p => some p.2, fun related as bs => ?_⟩
    rw [ofRelated, foldl_addPair_right, foldl_addPair_left]
    simp only [List.filterMap_eq_map']
    rfl
  | both =>
    refine ⟨fun _ => none, fun _ => none, fun related as bs => ?_⟩
    rw [ofRelated_unrouted name (.inl rfl)]
    simp
  | none =>
    refine ⟨fun _ => none, fun _ => none, fun related as bs => ?_⟩
    rw [ofRelated_unrouted name (.inr rfl)]
    simp

theorem ofRelated_pair (name : α → Option String) (related : α → α → Bool) (a b : α) :
    ofRelated name related .left [a] [b] = if related a b then ⟨[b], [a]⟩ else {} := by
  rw [ofRelated, foldl_addPair_left]
  by_cases h : related a b <;> simp [relatedPairs, addOnce, hasNamesake, h]

end

end Resolution

open Resolution

/-- A rule can be resolved on parts of either collection, down to single pairs. The sides for parts of the first are
joined in order; those for parts of the second have together the names of the whole, and its members without one. -/
theorem Rule.resolve_batches (rule : Rule) :
    (∀ a b, rule.resolve .left [a] [b] = (if matchesAll rule.criteria a b then ⟨[b], [a]⟩ else {}) ∧
      rule.resolve .right [a] [b] = if matchesAll rule.criteria a b then ⟨[a], [b]⟩ else {}) ∧
    (∀ direction as as' bs, rule.resolve direction (as ++ as') bs =
      ⟨joined Document.identity? (rule.resolve direction as bs).left (rule.resolve direction as' bs).left,
        joined Document.identity? (rule.resolve direction as bs).right (rule.resolve direction as' bs).right⟩) ∧
    ∀ direction as bs bs',
      Joins Document.identity? (rule.resolve direction as (bs ++ bs')).left
        (rule.resolve direction as bs).left (rule.resolve direction as bs').left ∧
      Joins Document.identity? (rule.resolve direction as (bs ++ bs')).right
        (rule.resolve direction as bs).right (rule.resolve direction as bs').right := by
  refine ⟨?_, ?_, ?_⟩
  · intro a b
    have hleft : rule.resolve .left [a] [b] = if matchesAll rule.criteria a b then ⟨[b], [a]⟩ else {} :=
      ofRelated_pair _ _ a b
    refine ⟨hleft, (ofRelated_right _ _ _ _).trans ?_⟩
    show (rule.resolve .left [a] [b]).exchange = _
    rw [hleft]
    split <;> rfl
  · intro direction as as' bs
    obtain ⟨left, right, hsides⟩ := exists_participants Document.identity? direction
    simp only [Rule.resolve, hsides]
    rw [collected_participants_append, collected_participants_append]
  · intro direction as bs bs'
    obtain ⟨left, right, hsides⟩ := exists_participants Document.identity? direction
    simp only [Rule.resolve, hsides]
    exact ⟨joins_collected_participants _ left as bs bs', joins_collected_participants _ right as bs bs'⟩

end ResourceGraph
