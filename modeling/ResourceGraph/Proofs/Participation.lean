import Mathlib.Data.List.FinRange
import Mathlib.Data.List.Induction
import Mathlib.Data.List.ProdSigma
import Mathlib.Data.List.Sort
import ResourceGraph.Resolution

/-!
# Who takes part in a resolution

A resolution fills its two sides while it goes through the related pairs, and asks of each participant
whether the side built so far has a namesake. Here the sides are told apart from that traversal. The related
pairs are the positions `relatedPositions`, in lexicographic order, and a side is determined by them alone
(`Participation`): of the participants of one name it holds that of the first pair, of those without a name
it holds one for each pair, and its entries come in the order of the pairs that brought them in.

Filling one side is the fold `collected`. It acts alike on participants and on the pairs they come from
(`collected_map`), so the pairs that bring an entry in are collected by the same fold.
-/

namespace ResourceGraph

namespace Resolution

/-! ### Collecting one side -/

section
variable {α ι : Type} {name : α → Option String}

/-- The members of a list, those with a name only where the name first comes. -/
def collected (name : α → Option String) (xs : List α) : List α :=
  xs.foldl (addOnce name) []

theorem hasNamesake_iff {side : List α} {x : α} :
    hasNamesake name side x ↔ ∃ n, name x = some n ∧ ∃ y ∈ side, name y = some n := by
  unfold hasNamesake
  rw [Option.any_eq_true]
  simp only [List.any_eq_true, beq_iff_eq]

@[simp] theorem collected_nil : collected name [] = [] := rfl

theorem collected_append_singleton (xs : List α) (x : α) :
    collected name (xs ++ [x]) = addOnce name (collected name xs) x := by
  rw [collected, List.foldl_append]
  rfl

theorem collected_sublist (xs : List α) : (collected name xs).Sublist xs := by
  induction xs using List.reverseRecOn with
  | nil => exact List.Sublist.refl []
  | append_singleton xs x ih =>
    rw [collected_append_singleton, addOnce]
    split
    · exact ih.trans (List.sublist_append_left xs [x])
    · exact ih.append (List.Sublist.refl [x])

theorem addOnce_map (f : ι → α) (side : List ι) (i : ι) :
    addOnce name (side.map f) (f i) = (addOnce (name ∘ f) side i).map f := by
  have hsame : hasNamesake name (side.map f) (f i) = hasNamesake (name ∘ f) side i := by
    simp only [hasNamesake, List.any_map]
    rfl
  rw [addOnce, addOnce, hsame]
  split
  · rfl
  · rw [List.map_append, List.map_singleton]

/-- What is collected of the values of `f` are the values of what is collected with the names of these. -/
theorem collected_map (f : ι → α) (is : List ι) :
    collected name (is.map f) = (collected (name ∘ f) is).map f := by
  induction is using List.reverseRecOn with
  | nil => rfl
  | append_singleton is i ih =>
    rw [List.map_append, List.map_singleton, collected_append_singleton, ih, addOnce_map,
      collected_append_singleton]

/-- Members without a name are all kept. -/
theorem filter_nameless_collected (name : α → Option String) (xs : List α) :
    (collected name xs).filter (fun x => (name x).isNone) = xs.filter fun x => (name x).isNone := by
  induction xs using List.reverseRecOn with
  | nil => rfl
  | append_singleton xs x ih =>
    rw [collected_append_singleton, addOnce, List.filter_append]
    split
    · next hsame =>
      obtain ⟨n, hn, -⟩ := hasNamesake_iff.1 hsame
      rw [ih, List.filter_singleton, hn]
      exact (List.append_nil _).symm
    · rw [List.filter_append, ih]

/-- A participant has a namesake among those collected if it has one among those gone through. -/
theorem hasNamesake_collected {xs : List α} {x : α} {n : String} (hx : name x = some n)
    (hxs : (collected name xs).filter (fun y => name y = some n) =
      (xs.find? fun y => name y = some n).toList) :
    hasNamesake name (collected name xs) x ↔ (xs.find? fun y => name y = some n).isSome := by
  have hmem : (∃ y ∈ collected name xs, name y = some n) ↔
      (collected name xs).filter (fun y => name y = some n) ≠ [] := by
    rw [Ne, List.filter_eq_nil_iff]
    simp only [decide_eq_true_eq, not_forall, Classical.not_not, exists_prop]
  rw [hasNamesake_iff, hx]
  simp only [Option.some.injEq, exists_eq_left', hmem, hxs]
  cases xs.find? fun y => name y = some n <;> simp

/-- Of the members with one name the first is kept and no other. -/
theorem filter_named_collected (name : α → Option String) (xs : List α) (n : String) :
    (collected name xs).filter (fun x => name x = some n) = (xs.find? fun x => name x = some n).toList := by
  induction xs using List.reverseRecOn with
  | nil => rfl
  | append_singleton xs x ih =>
    rw [collected_append_singleton, addOnce, List.find?_append, List.find?_singleton]
    by_cases hx : name x = some n
    · have hsame := hasNamesake_collected hx ih
      cases hfirst : xs.find? fun y => name y = some n with
      | none =>
        rw [hfirst] at hsame ih
        rw [if_neg (by simpa using hsame), List.filter_append, ih]
        simp [hx]
      | some y =>
        rw [hfirst] at hsame ih
        rw [if_pos (by simpa using hsame), ih]
        rfl
    · have hnone : [x].filter (fun y => name y = some n) = [] := by simp [hx]
      have hlast : (collected name xs ++ [x]).filter (fun y => name y = some n) =
          (collected name xs).filter fun y => name y = some n := by
        rw [List.filter_append, hnone, List.append_nil]
      split <;> simp [hx, hlast, ih]

theorem collected_eq_nil_iff {xs : List α} : collected name xs = [] ↔ xs = [] := by
  refine ⟨fun h => ?_, fun h => by rw [h, collected_nil]⟩
  rcases List.eq_nil_or_concat xs with rfl | ⟨xs, x, rfl⟩
  · rfl
  · rw [List.concat_eq_append, collected_append_singleton, addOnce] at h
    split at h
    · next hsame =>
      obtain ⟨n, -, y, hy, -⟩ := hasNamesake_iff.1 hsame
      rw [h] at hy
      exact absurd hy List.not_mem_nil
    · exact absurd h (List.append_ne_nil_of_right_ne_nil _ (List.cons_ne_nil x []))

/-- A side that collects the participants of `pairs`. Its entries are those of the pairs `introducing`. -/
structure Participation (name : α → Option String) (participant : ι → α) (pairs introducing : List ι)
    (side : List α) : Prop where
  /-- The entries come in the order of the pairs that brought them in. -/
  order : introducing.Sublist pairs
  entries : side = introducing.map participant
  /-- A name that any participant has is that of one entry, which the first such pair brought in. -/
  named : ∀ n, (∃ p ∈ pairs, name (participant p) = some n) →
    ∃ first, pairs.find? (fun p => name (participant p) = some n) = some first ∧
      introducing.filter (fun p => name (participant p) = some n) = [first] ∧
      side.filter (fun x => name x = some n) = [participant first]
  /-- A participant without a name is an entry once for each of its pairs. -/
  nameless : introducing.filter (fun p => (name (participant p)).isNone) =
    pairs.filter fun p => (name (participant p)).isNone

theorem participation_collected (participant : ι → α) (pairs : List ι) :
    Participation name participant pairs (collected (name ∘ participant) pairs)
      (collected name (pairs.map participant)) where
  order := collected_sublist pairs
  entries := collected_map participant pairs
  named n := by
    rintro ⟨p, hp, hn⟩
    obtain ⟨first, hfirst⟩ : ∃ first, pairs.find? (fun p => name (participant p) = some n) = some first :=
      Option.isSome_iff_exists.1 (List.find?_isSome.2 ⟨p, hp, by simpa using hn⟩)
    have hintroducing := filter_named_collected (name ∘ participant) pairs n
    simp only [Function.comp_apply, hfirst, Option.toList_some] at hintroducing
    refine ⟨first, hfirst, hintroducing, ?_⟩
    rw [collected_map, List.filter_map]
    exact congrArg (List.map participant) hintroducing
  nameless := filter_nameless_collected (name ∘ participant) pairs

end

/-! ### Related positions -/

section
variable {α : Type}

/-- The positions of the related members of two collections, in lexicographic order. -/
def relatedPositions (related : α → α → Bool) (as bs : List α) : List (Fin as.length × Fin bs.length) :=
  (List.finRange as.length ×ˢ List.finRange bs.length).filter fun p => related as[p.1] bs[p.2]

theorem mem_relatedPositions {related : α → α → Bool} {as bs : List α} {p : Fin as.length × Fin bs.length} :
    p ∈ relatedPositions related as bs ↔ related as[p.1] bs[p.2] := by
  rw [relatedPositions, List.mem_filter, List.mem_product]
  simp only [List.mem_finRange, true_and]

theorem pairwise_product {β γ : Type} {r : β → β → Prop} {s : γ → γ → Prop} {xs : List β} {ys : List γ}
    (hx : xs.Pairwise r) (hy : ys.Pairwise s) : (xs ×ˢ ys).Pairwise (Prod.Lex r s) := by
  induction xs with
  | nil => exact List.Pairwise.nil
  | cons x xs ih =>
    obtain ⟨hhead, htail⟩ := List.pairwise_cons.1 hx
    rw [List.product_cons, List.pairwise_append]
    refine ⟨List.pairwise_map.2 (hy.imp fun h => Prod.Lex.right x h), ih htail, ?_⟩
    intro p hp q hq
    obtain ⟨y, -, rfl⟩ := List.mem_map.1 hp
    exact Prod.Lex.left _ _ (hhead _ (List.mem_product.1 hq).1)

theorem pairwise_relatedPositions (related : α → α → Bool) (as bs : List α) :
    (relatedPositions related as bs).Pairwise (Prod.Lex (· < ·) (· < ·)) :=
  (pairwise_product (List.sortedLT_finRange _).pairwise (List.sortedLT_finRange _).pairwise).filter _

theorem relatedPairs_eq_map (related : α → α → Bool) (as bs : List α) :
    relatedPairs related as bs = (relatedPositions related as bs).map fun p => (as[p.1], bs[p.2]) := by
  have hrow (a : α) : bs.filter (related a) =
      ((List.finRange bs.length).filter fun j => related a bs[j]).map fun j => bs[j] := by
    conv_lhs => rw [← List.map_getElem_finRange bs]
    rw [List.filter_map]
    rfl
  have hsplit : relatedPairs related as bs = (List.finRange as.length).flatMap fun i =>
      (bs.filter (related as[i])).map fun b => (as[i], b) := by
    conv_lhs => rw [relatedPairs, ← List.map_getElem_finRange as]
    rw [List.flatMap_map]
    rfl
  rw [hsplit]
  show _ = (((List.finRange as.length).product (List.finRange bs.length)).filter _).map _
  simp only [List.product, List.filter_flatMap, List.map_flatMap, List.filter_map, List.map_map, hrow]
  rfl

/-! ### Both sides -/

/-- A resolution with its sides exchanged. -/
def exchange (resolution : Resolution α) : Resolution α :=
  ⟨resolution.right, resolution.left⟩

variable (name : α → Option String)

theorem foldl_addPair_left (pairs : List (α × α)) (resolution : Resolution α) :
    pairs.foldl (addPair name .left) resolution =
      ⟨(pairs.map Prod.snd).foldl (addOnce name) resolution.left,
        (pairs.map Prod.fst).foldl (addOnce name) resolution.right⟩ := by
  induction pairs generalizing resolution with
  | nil => rfl
  | cons pair pairs ih => exact ih _

theorem foldl_addPair_right (pairs : List (α × α)) (resolution : Resolution α) :
    pairs.foldl (addPair name .right) resolution =
      (pairs.foldl (addPair name .left) resolution.exchange).exchange := by
  induction pairs generalizing resolution with
  | nil => rfl
  | cons pair pairs ih => exact ih _

theorem foldl_addPair_unrouted {direction : Direction} (h : direction = .both ∨ direction = .none)
    (pairs : List (α × α)) (resolution : Resolution α) :
    pairs.foldl (addPair name direction) resolution = resolution := by
  induction pairs with
  | nil => rfl
  | cons pair pairs ih => rcases h with rfl | rfl <;> exact ih

/-- The sides are filled independently, each from the participants on its own side of the pairs. -/
theorem ofRelated_left (related : α → α → Bool) (as bs : List α) :
    ofRelated name related .left as bs =
      ⟨collected name ((relatedPositions related as bs).map fun p => bs[p.2]),
        collected name ((relatedPositions related as bs).map fun p => as[p.1])⟩ := by
  rw [ofRelated, foldl_addPair_left, relatedPairs_eq_map, List.map_map, List.map_map]
  rfl

theorem participation_ofRelated_left (related : α → α → Bool) (as bs : List α) :
    ∃ introducing, Participation name (fun p => bs[p.2]) (relatedPositions related as bs) introducing
      (ofRelated name related .left as bs).left := by
  rw [ofRelated_left]
  exact ⟨_, participation_collected _ _⟩

theorem participation_ofRelated_right (related : α → α → Bool) (as bs : List α) :
    ∃ introducing, Participation name (fun p => as[p.1]) (relatedPositions related as bs) introducing
      (ofRelated name related .left as bs).right := by
  rw [ofRelated_left]
  exact ⟨_, participation_collected _ _⟩

theorem ofRelated_eq_nil_iff (related : α → α → Bool) (as bs : List α) :
    ((ofRelated name related .left as bs).left = [] ↔ relatedPositions related as bs = []) ∧
      ((ofRelated name related .left as bs).right = [] ↔ relatedPositions related as bs = []) := by
  rw [ofRelated_left, collected_eq_nil_iff, collected_eq_nil_iff, List.map_eq_nil_iff, List.map_eq_nil_iff]
  exact ⟨Iff.rfl, Iff.rfl⟩

theorem ofRelated_right (related : α → α → Bool) (as bs : List α) :
    ofRelated name related .right as bs = (ofRelated name related .left as bs).exchange :=
  foldl_addPair_right name _ _

theorem ofRelated_unrouted {direction : Direction} (h : direction = .both ∨ direction = .none)
    (related : α → α → Bool) (as bs : List α) : ofRelated name related direction as bs = {} :=
  foldl_addPair_unrouted name h _ _

end

end Resolution

open Resolution

/-- Going left, each side of a resolution is filled by the related pairs, once for each name; going right, the
sides are exchanged, and the other directions fill none. A side stays empty if no pair is related. -/
theorem Rule.resolve_participation (rule : Rule) (as bs : List Document) :
    let pairs := relatedPositions (matchesAll rule.criteria) as bs
    let resolution := rule.resolve .left as bs
    (pairs.Pairwise (Prod.Lex (· < ·) (· < ·)) ∧ ∀ p, p ∈ pairs ↔ matchesAll rule.criteria as[p.1] bs[p.2]) ∧
    (∃ introducing,
      Participation Document.identity? (fun p => as[p.1]) pairs introducing resolution.right) ∧
    (∃ introducing,
      Participation Document.identity? (fun p => bs[p.2]) pairs introducing resolution.left) ∧
    rule.resolve .right as bs = resolution.exchange ∧
    rule.resolve .both as bs = {} ∧ rule.resolve .none as bs = {} ∧
    ∀ direction ∈ [Direction.left, Direction.right],
      ((rule.resolve direction as bs).left = [] ↔ pairs = []) ∧
      ((rule.resolve direction as bs).right = [] ↔ pairs = []) := by
  intro pairs resolution
  have hexchange : rule.resolve .right as bs = resolution.exchange := ofRelated_right _ _ _ _
  have hempty : (resolution.left = [] ↔ pairs = []) ∧ (resolution.right = [] ↔ pairs = []) :=
    ofRelated_eq_nil_iff _ _ _ _
  refine ⟨⟨pairwise_relatedPositions _ _ _, fun p => mem_relatedPositions⟩,
    participation_ofRelated_right _ _ _ _, participation_ofRelated_left _ _ _ _, hexchange,
    ofRelated_unrouted _ (.inl rfl) _ _ _, ofRelated_unrouted _ (.inr rfl) _ _ _, ?_⟩
  intro direction hdirection
  rcases List.mem_cons.1 hdirection with rfl | hdirection
  · exact hempty
  · rw [List.mem_singleton.1 hdirection, hexchange]
    exact hempty.symm

end ResourceGraph
