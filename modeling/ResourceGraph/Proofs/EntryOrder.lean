import Mathlib.Data.List.Forall2
import ResourceGraph.Proofs.Participation
import ResourceGraph.Proofs.Routes

/-!
# The order of entries

Documents are `Reordered` if they differ in the order of the entries of their maps and in nothing else. No answer
depends on that order: what looks at a map either asks for the value of a key, and keys do not repeat, or asks
something of every entry.
-/

namespace ResourceGraph

theorem map_eq_of_forall₂ {α β γ : Type} {r : α → β → Prop} {xs : List α} {ys : List β} {f : α → γ} {g : β → γ}
    (h : List.Forall₂ r xs ys) (hfg : ∀ x ∈ xs, ∀ y, r x y → f x = g y) : xs.map f = ys.map g := by
  induction h with
  | nil => rfl
  | cons hxy _ ih =>
    rw [List.forall_mem_cons] at hfg
    rw [List.map_cons, List.map_cons, hfg.1 _ hxy, ih hfg.2]

namespace Document

/-- The second document has the entries of the maps of the first in another order, at any depth. No map of the
first repeats a key. -/
inductive Reordered : Document → Document → Prop
  | null : Reordered .null .null
  | scalar {document : Document} : document.IsScalar → Reordered document document
  | list {items others : List Document} : List.Forall₂ Reordered items others →
    Reordered (.list items) (.list others)
  | map {entries permuted others : Entries Document} : entries.keys.Nodup → entries.Perm permuted →
    permuted.keys = others.keys → List.Forall₂ Reordered (permuted.map Prod.snd) (others.map Prod.snd) →
    Reordered (.map entries) (.map others)

/-- The second map has the entries of the first in another order, with reordered values. -/
structure ReorderedEntries (entries others : Entries Document) : Prop where
  nodup : entries.keys.Nodup
  corresponding : ∃ permuted, entries.Perm permuted ∧
    List.Forall₂ (fun x y => x.1 = y.1 ∧ Reordered x.2 y.2) permuted others

theorem forall₂_entries {entries others : Entries Document} (hkeys : entries.keys = others.keys)
    (hvalues : List.Forall₂ Reordered (entries.map Prod.snd) (others.map Prod.snd)) :
    List.Forall₂ (fun x y => x.1 = y.1 ∧ Reordered x.2 y.2) entries others := by
  induction entries generalizing others with
  | nil =>
    cases others with
    | nil => exact .nil
    | cons other others => cases hkeys
  | cons entry entries ih =>
    cases others with
    | nil => cases hkeys
    | cons other others =>
      obtain ⟨hkey, hkeys⟩ := List.cons.inj hkeys
      obtain ⟨hvalue, hvalues⟩ := List.forall₂_cons.1 hvalues
      exact .cons ⟨hkey, hvalue⟩ (ih hkeys hvalues)

theorem Reordered.exists_entries {entries : Entries Document} {other : Document} (h : Reordered (.map entries) other) :
    ∃ others, other = .map others ∧ ReorderedEntries entries others := by
  rcases h with _ | hscalar | _ | ⟨hnodup, hperm, hkeys, hvalues⟩
  · exact hscalar.elim
  · exact ⟨_, rfl, hnodup, _, hperm, forall₂_entries hkeys hvalues⟩

theorem Reordered.exists_items {items : List Document} {other : Document} (h : Reordered (.list items) other) :
    ∃ others, other = .list others ∧ List.Forall₂ Reordered items others := by
  rcases h with _ | hscalar | hitems | _
  · exact hscalar.elim
  · exact ⟨_, rfl, hitems⟩

theorem Reordered.eq_of_isScalar {document other : Document} (h : Reordered document other)
    (hscalar : document.IsScalar) : other = document := by
  cases h <;> first | rfl | cases hscalar

theorem Reordered.eq_null {other : Document} (h : Reordered .null other) : other = .null := by
  cases h <;> rfl

end Document

/-! ### Entries in another order -/

theorem Entries.get?_perm {α : Type} {entries others : Entries α} (hperm : entries.Perm others)
    (hnodup : entries.keys.Nodup) (key : String) : entries.get? key = others.get? key := by
  induction hperm with
  | nil => rfl
  | cons entry _ ih =>
    rw [get?, get?, ih (List.nodup_cons.1 hnodup).2]
  | swap x y entries =>
    obtain ⟨hne, -⟩ := List.nodup_cons.1 hnodup
    have hxy : y.1 ≠ x.1 := fun heq => hne (heq ▸ List.mem_cons_self ..)
    by_cases hy : y.1 = key
    · have hx : x.1 ≠ key := fun hx => hxy (hy.trans hx.symm)
      simp [get?, hx, hy]
    · simp [get?, hy]
  | trans hperm _ ih ih' =>
    rw [ih hnodup, ih' ((hperm.map Prod.fst).nodup_iff.1 hnodup)]

namespace Document

theorem rel_get?_of_forall₂ {entries others : Entries Document}
    (h : List.Forall₂ (fun x y => x.1 = y.1 ∧ Reordered x.2 y.2) entries others) (key : String) :
    Option.Rel Reordered (entries.get? key) (others.get? key) := by
  induction h with
  | nil => exact .none
  | cons hxy _ ih =>
    rw [Entries.get?, Entries.get?, hxy.1]
    split
    · exact .some hxy.2
    · exact ih

namespace ReorderedEntries
variable {entries others : Entries Document}

theorem rel_get? (h : ReorderedEntries entries others) (key : String) :
    Option.Rel Reordered (entries.get? key) (others.get? key) := by
  obtain ⟨permuted, hperm, hentries⟩ := h.corresponding
  rw [Entries.get?_perm hperm h.nodup]
  exact rel_get?_of_forall₂ hentries key

/-- What is said of the entries one by one is the same, but for the order. -/
theorem perm_map {γ : Type} {f g : String × Document → γ} (h : ReorderedEntries entries others)
    (hfg : ∀ x ∈ entries, ∀ y, x.1 = y.1 → Reordered x.2 y.2 → f x = g y) :
    (entries.map f).Perm (others.map g) := by
  obtain ⟨permuted, hperm, hentries⟩ := h.corresponding
  have hmap : permuted.map f = others.map g :=
    map_eq_of_forall₂ hentries fun x hx y hxy => hfg x (hperm.mem_iff.2 hx) y hxy.1 hxy.2
  rw [← hmap]
  exact hperm.map f

theorem length_eq (h : ReorderedEntries entries others) : entries.length = others.length := by
  have hperm : (entries.map fun _ => ()).Perm (others.map fun _ => ()) :=
    h.perm_map fun _ _ _ _ _ => rfl
  simpa using hperm.length_eq

theorem isEmpty_eq (h : ReorderedEntries entries others) : entries.isEmpty = others.isEmpty := by
  rw [Bool.eq_iff_iff, List.isEmpty_iff_length_eq_zero, List.isEmpty_iff_length_eq_zero, h.length_eq]

theorem all_eq {p q : String × Document → Bool} (h : ReorderedEntries entries others)
    (hpq : ∀ x ∈ entries, ∀ y, x.1 = y.1 → Reordered x.2 y.2 → p x = q y) : entries.all p = others.all q := by
  have hall := @List.Perm.all_eq _ _ _ id (h.perm_map hpq)
  rwa [List.all_map, List.all_map] at hall

theorem any_eq {p q : String × Document → Bool} (h : ReorderedEntries entries others)
    (hpq : ∀ x ∈ entries, ∀ y, x.1 = y.1 → Reordered x.2 y.2 → p x = q y) : entries.any p = others.any q := by
  have hany := @List.Perm.any_eq _ _ _ id (h.perm_map hpq)
  rwa [List.any_map, List.any_map] at hany

end ReorderedEntries

/-! ### Comparing -/

theorem equalEntries_eq_all (scalar : Document → Document → Bool) (entries others : Entries Document) :
    equalEntries scalar entries others =
      entries.all fun entry => (others.get? entry.1).any (equalBy scalar entry.2) := by
  induction entries with
  | nil => rfl
  | cons entry entries ih =>
    rw [equalEntries, List.all_cons, ih]
    cases others.get? entry.1 <;> rfl

theorem any_eq_of_rel {p q : Document → Bool} {x y : Option Document} (h : Option.Rel Reordered x y)
    (hpq : ∀ a b, Reordered a b → p a = q b) : x.any p = y.any q := by
  cases h with
  | none => rfl
  | some hab => exact hpq _ _ hab

theorem equalItems_reordered {scalar : Document → Document → Bool} {as as' bs bs' : List Document}
    (has : List.Forall₂ Reordered as as') (hbs : List.Forall₂ Reordered bs bs')
    (heq : ∀ a ∈ as, ∀ a' b b', Reordered a a' → Reordered b b' → equalBy scalar a b = equalBy scalar a' b') :
    equalItems scalar as bs = equalItems scalar as' bs' := by
  induction has generalizing bs bs' with
  | nil => cases hbs <;> rfl
  | cons ha _ ih =>
    rw [List.forall_mem_cons] at heq
    cases hbs with
    | nil => rfl
    | cons hb hbs => rw [equalItems, equalItems, heq.1 _ _ _ ha hb, ih hbs heq.2]

/-- Nothing but a list equals a list, and nothing but a map a map. -/
theorem looseEq_reordered_of_leaf {a b b' : Document} (ha : a.IsScalar ∨ a = .null) (hb : Reordered b b') :
    a.looseEq b = a.looseEq b' := by
  rcases ha with ha | rfl
  · cases hb with
    | null => rfl
    | scalar => rfl
    | list => cases a <;> first | rfl | exact ha.elim
    | map => cases a <;> first | rfl | exact ha.elim
  · cases hb <;> rfl

theorem looseEq_reordered {a a' b b' : Document} (ha : Reordered a a') (hb : Reordered b b') :
    a.looseEq b = a'.looseEq b' := by
  induction a using induction_mem generalizing a' b b' with
  | null =>
    rw [ha.eq_null]
    exact looseEq_reordered_of_leaf (.inr rfl) hb
  | scalar a hscalar =>
    rw [ha.eq_of_isScalar hscalar]
    exact looseEq_reordered_of_leaf (.inl hscalar) hb
  | list as ih =>
    obtain ⟨as', rfl, has⟩ := ha.exists_items
    cases hb with
    | null => rfl
    | scalar hscalar => cases b <;> first | rfl | exact hscalar.elim
    | list hbs => exact equalItems_reordered has hbs fun a ha a' b b' => ih a ha
    | map => rfl
  | map as ih =>
    obtain ⟨as', rfl, has⟩ := ha.exists_entries
    cases b with
    | map bs =>
      obtain ⟨bs', rfl, hbs⟩ := hb.exists_entries
      rw [looseEq, equalBy, equalBy, equalEntries_eq_all, equalEntries_eq_all, has.length_eq, hbs.length_eq]
      congr 1
      refine has.all_eq fun x hx y hkey hvalue => ?_
      rw [hkey]
      exact any_eq_of_rel (hbs.rel_get? y.1) fun b b' => ih x hx hvalue
    | list bs =>
      obtain ⟨bs', rfl, hbs⟩ := hb.exists_items
      rfl
    | _ => cases hb <;> rfl

/-! ### Searching -/

theorem occursIn_reordered {needle needle' document document' : Document} (hneedle : Reordered needle needle')
    (h : Reordered document document') : needle.occursIn document = needle'.occursIn document' := by
  induction document using induction_mem generalizing document' with
  | null => cases h <;> rfl
  | scalar document hscalar =>
    rw [h.eq_of_isScalar hscalar, occursIn_scalar hscalar, occursIn_scalar hscalar]
    exact looseEq_reordered (.scalar hscalar) hneedle
  | list items ih =>
    obtain ⟨items', rfl, hitems⟩ := h.exists_items
    rw [occursIn, occursIn, occursInItems_eq_any, occursInItems_eq_any]
    have hany := congrArg (List.any · id) (map_eq_of_forall₂ hitems fun item hitem item' => ih item hitem)
    simp only [List.any_map] at hany
    exact hany
  | map entries ih =>
    obtain ⟨entries', rfl, hentries⟩ := h.exists_entries
    rw [occursIn, occursIn, occursInEntries_eq_any, occursInEntries_eq_any]
    exact hentries.any_eq fun x hx y _ hvalue => ih x hx hvalue

/-! ### Following a path -/

/-- Both succeed, with reordered documents, or both fail in the same way. -/
inductive SameOutcome {ε : Type} : Except ε Document → Except ε Document → Prop
  | ok {value value' : Document} : Reordered value value' → SameOutcome (.ok value) (.ok value')
  | error (problem : ε) : SameOutcome (.error problem) (.error problem)

theorem selectKey_reordered (key : String) {document document' : Document} (h : Reordered document document') :
    SameOutcome (selectKey key document) (selectKey key document') := by
  induction document using induction_mem generalizing document' with
  | null =>
    rw [h.eq_null]
    exact .error _
  | scalar document hscalar =>
    rw [h.eq_of_isScalar hscalar, selectKey_scalar hscalar]
    exact .error _
  | list items ih =>
    obtain ⟨items', rfl, hitems⟩ := h.exists_items
    rw [selectKey, selectKey]
    refine .ok (.list ?_)
    clear h
    -- items that lack the key are dropped from both lists, so the lists stay in step
    induction hitems with
    | nil => exact .nil
    | @cons item item' _ _ hitem _ ihitems =>
      rw [List.forall_mem_cons] at ih
      have hselected := ih.1 hitem
      rw [selectKeyInItems, selectKeyInItems]
      generalize selectKey key item = outcome, selectKey key item' = outcome' at hselected ⊢
      cases hselected with
      | ok hvalue => exact .cons hvalue (ihitems ih.2)
      | error => exact ihitems ih.2
  | map entries ih =>
    obtain ⟨entries', rfl, hentries⟩ := h.exists_entries
    have hvalue := hentries.rel_get? key
    rw [selectKey, selectKey]
    generalize Entries.get? key entries = value, Entries.get? key entries' = value' at hvalue ⊢
    cases hvalue with
    | none => exact .error _
    | some hvalue => exact .ok hvalue

theorem selectIndex_reordered (position : UInt64) {document document' : Document}
    (h : Reordered document document') :
    SameOutcome (selectIndex position document) (selectIndex position document') := by
  cases document with
  | list items =>
    obtain ⟨items', rfl, hitems⟩ := h.exists_items
    rw [selectIndex, selectIndex]
    by_cases hlt : position.toNat < items.length
    · have hlt' : position.toNat < items'.length := hitems.length_eq ▸ hlt
      rw [List.getElem?_eq_getElem hlt, List.getElem?_eq_getElem hlt']
      exact .ok (hitems.get hlt hlt')
    · have hge : items.length ≤ position.toNat := Nat.le_of_not_lt hlt
      rw [List.getElem?_eq_none hge, List.getElem?_eq_none (hitems.length_eq ▸ hge)]
      exact .error _
  | map entries =>
    obtain ⟨entries', rfl, -⟩ := h.exists_entries
    exact .error _
  | _ => cases h <;> exact .error _

theorem follow_reordered (segments : List FieldPath.Segment) {document document' : Document}
    (h : Reordered document document') : SameOutcome (follow segments document) (follow segments document') := by
  induction segments generalizing document document' with
  | nil => exact .ok h
  | cons segment segments ih =>
    have hselected : SameOutcome (select segment document) (select segment document') := by
      cases segment with
      | key name => exact selectKey_reordered name h
      | index position => exact selectIndex_reordered position h
    rw [follow, follow]
    generalize select segment document = outcome, select segment document' = outcome' at hselected ⊢
    cases hselected with
    | ok hvalue => exact ih hvalue
    | error => exact .error _

theorem rel_get?_reordered (key : String) {document document' : Document} (h : Reordered document document') :
    Option.Rel Reordered (document.get? key) (document'.get? key) := by
  cases document with
  | map entries =>
    obtain ⟨entries', rfl, hentries⟩ := h.exists_entries
    exact hentries.rel_get? key
  | list items =>
    obtain ⟨items', rfl, -⟩ := h.exists_items
    exact .none
  | _ => cases h <;> exact .none

end Document

theorem FieldPath.lookup_reordered (path : FieldPath) {document document' : Document}
    (h : document.Reordered document') : Document.SameOutcome (path.lookup document) (path.lookup document') := by
  have hfollowed := Document.follow_reordered path.segments h
  rw [lookup, lookup]
  generalize document.follow path.segments = outcome, document'.follow path.segments = outcome' at hfollowed ⊢
  cases hfollowed with
  | ok hvalue => exact .ok hvalue
  | error => exact .error _

theorem Document.identity?_reordered {document document' : Document} (h : document.Reordered document') :
    document.identity? = document'.identity? := by
  have hmetadata := rel_get?_reordered "metadata" h
  rw [identity?, identity?]
  generalize document.get? "metadata" = metadata, document'.get? "metadata" = metadata' at hmetadata ⊢
  cases hmetadata with
  | none => rfl
  | @some metadata metadata' hmetadata =>
    have hname := rel_get?_reordered "name" hmetadata
    rw [Option.bind_some, Option.bind_some]
    generalize metadata.get? "name" = name, metadata'.get? "name" = name' at hname ⊢
    cases hname with
    | none => rfl
    | some hname => cases hname <;> rfl

/-! ### Matching -/

theorem rel_fieldValue?_reordered (path : Option FieldPath) {resource resource' : Document}
    (h : resource.Reordered resource') :
    Option.Rel Document.Reordered (fieldValue? path resource) (fieldValue? path resource') := by
  cases path with
  | none => exact .none
  | some path =>
    show Option.Rel _ (path.lookup resource).toOption (path.lookup resource').toOption
    have hfound := path.lookup_reordered h
    generalize path.lookup resource = outcome, path.lookup resource' = outcome' at hfound ⊢
    cases hfound with
    | ok hvalue => exact .some hvalue
    | error => exact .none

theorem containsAll_reordered {labels labels' selector selector' : Entries Document}
    (hlabels : Document.ReorderedEntries labels labels')
    (hselector : Document.ReorderedEntries selector selector') :
    containsAll labels selector = containsAll labels' selector' := by
  rw [containsAll, containsAll, hlabels.isEmpty_eq, hselector.isEmpty_eq]
  congr 1
  refine hselector.all_eq fun x _ y hkey hvalue => ?_
  rw [hasLabel, hasLabel, hkey]
  exact Document.any_eq_of_rel (hlabels.rel_get? y.1) fun a b hab => Document.looseEq_reordered hab hvalue

theorem Comparison.holds_reordered (comparison : Comparison) {a a' b b' : Document} (ha : a.Reordered a')
    (hb : b.Reordered b') : comparison.holds a b = comparison.holds a' b' := by
  cases comparison with
  | exactMatch => exact Document.occursIn_reordered hb ha
  | containsAll =>
    cases a with
    | map labels =>
      obtain ⟨labels', rfl, hlabels⟩ := ha.exists_entries
      cases b with
      | map selector =>
        obtain ⟨selector', rfl, hselector⟩ := hb.exists_entries
        exact containsAll_reordered hlabels hselector
      | _ => cases hb <;> rfl
    | _ => cases ha <;> rfl

theorem PreparedCriterion.holds_reordered (criterion : PreparedCriterion) {a a' b b' : Document}
    (ha : a.Reordered a') (hb : b.Reordered b') : criterion.holds a b = criterion.holds a' b' := by
  have hx := rel_fieldValue?_reordered criterion.fieldA ha
  have hy := rel_fieldValue?_reordered criterion.fieldB hb
  rw [holds, holds]
  generalize fieldValue? criterion.fieldA a = x, fieldValue? criterion.fieldA a' = x' at hx ⊢
  generalize fieldValue? criterion.fieldB b = y, fieldValue? criterion.fieldB b' = y' at hy ⊢
  cases hx with
  | none => rfl
  | some hx =>
    cases hy with
    | none => rfl
    | some hy => exact criterion.comparison.holds_reordered hx hy

theorem Matcher.accepts_reordered (matcher : Matcher) {a a' b b' : Document} (ha : a.Reordered a')
    (hb : b.Reordered b') : matcher.accepts a b = matcher.accepts a' b' := by
  simp only [accepts, PreparedCriterion.holds_reordered _ ha hb]

/-! ### Resolving -/

namespace Resolution
variable {α β : Type}

/-- The sides of two resolutions correspond, member by member. -/
structure Corresponds (r : α → β → Prop) (resolution : Resolution α) (resolution' : Resolution β) : Prop where
  left : List.Forall₂ r resolution.left resolution'.left
  right : List.Forall₂ r resolution.right resolution'.right

variable {r : α → β → Prop} {name : α → Option String} {name' : β → Option String}

theorem addOnce_corresponds (hname : ∀ x y, r x y → name x = name' y) {side : List α} {side' : List β}
    (hside : List.Forall₂ r side side') {x : α} {y : β} (hxy : r x y) :
    List.Forall₂ r (addOnce name side x) (addOnce name' side' y) := by
  have hsame : hasNamesake name side x = hasNamesake name' side' y := by
    have hnames := map_eq_of_forall₂ hside fun x _ y => hname x y
    have hany (n : String) := congrArg (List.any · (· == some n)) hnames
    simp only [List.any_map] at hany
    rw [hasNamesake, hasNamesake, hname x y hxy]
    exact congrArg ((name' y).any ·) (funext hany)
  rw [addOnce, addOnce, hsame]
  split
  · exact hside
  · exact List.rel_append hside (.cons hxy .nil)

theorem addPair_corresponds (hname : ∀ x y, r x y → name x = name' y) (direction : Direction)
    {resolution : Resolution α} {resolution' : Resolution β} (h : Corresponds r resolution resolution')
    {pair : α × α} {pair' : β × β} (hpair : r pair.1 pair'.1 ∧ r pair.2 pair'.2) :
    Corresponds r (addPair name direction resolution pair) (addPair name' direction resolution' pair') := by
  cases direction with
  | left => exact ⟨addOnce_corresponds hname h.left hpair.2, addOnce_corresponds hname h.right hpair.1⟩
  | right => exact ⟨addOnce_corresponds hname h.left hpair.1, addOnce_corresponds hname h.right hpair.2⟩
  | both => exact h
  | none => exact h

/-- A traversal that finds the same names and the same relation in corresponding collections fills its sides
with corresponding members. -/
theorem ofRelated_corresponds {related : α → α → Bool} {related' : β → β → Bool}
    (hname : ∀ x y, r x y → name x = name' y)
    (hrelated : ∀ a a', r a a' → ∀ b b', r b b' → related a b = related' a' b') (direction : Direction)
    {as bs : List α} {as' bs' : List β} (has : List.Forall₂ r as as') (hbs : List.Forall₂ r bs bs') :
    Corresponds r (ofRelated name related direction as bs) (ofRelated name' related' direction as' bs') := by
  have hpairs : List.Forall₂ (fun p q => r p.1 q.1 ∧ r p.2 q.2) (relatedPairs related as bs)
      (relatedPairs related' as' bs') := by
    refine List.rel_flatMap has fun a a' ha => ?_
    refine List.rel_map (fun b b' hb => ⟨ha, hb⟩) (List.rel_filter (fun b b' hb => ?_) hbs)
    show related a b ↔ related' a' b'
    rw [hrelated a a' ha b b' hb]
  have hstep := fun resolution resolution' (h : Corresponds r resolution resolution') pair pair' =>
    @addPair_corresponds α β r name name' hname direction resolution resolution' h pair pair'
  exact List.rel_foldl hstep ⟨.nil, .nil⟩ hpairs

end Resolution

/-- Resolves a rule on two collections and says of each resource on which place of its collection it stands. -/
def Rule.resolvePlaces (rule : Rule) (direction : Direction) (as bs : List Document) :
    Resolution (Document × Nat) :=
  .ofRelated (Document.identity? ·.1) (fun a b => (Matcher.ofCriteria rule.criteria).accepts a.1 b.1) direction
    as.zipIdx bs.zipIdx

theorem forall₂_zipIdx {α β : Type} {r : α → β → Prop} {xs : List α} {ys : List β} (h : List.Forall₂ r xs ys)
    (start : Nat) :
    List.Forall₂ (fun x y => r x.1 y.1 ∧ x.2 = y.2) (xs.zipIdx start) (ys.zipIdx start) := by
  induction h generalizing start with
  | nil => exact .nil
  | cons hxy _ ih => exact .cons ⟨hxy, rfl⟩ (ih (start + 1))

theorem forall₂_fst_zipIdx {α : Type} (xs : List α) (start : Nat) :
    List.Forall₂ (fun x y => x.1 = y) (xs.zipIdx start) xs := by
  induction xs generalizing start with
  | nil => exact .nil
  | cons x xs ih => exact .cons rfl (ih (start + 1))

theorem Rule.resolvePlaces_fst (rule : Rule) (direction : Direction) (as bs : List Document) :
    Resolution.Corresponds (fun x y => x.1 = y) (rule.resolvePlaces direction as bs)
      (rule.resolve direction as bs) := by
  refine Resolution.ofRelated_corresponds ?_ ?_ direction (forall₂_fst_zipIdx as 0) (forall₂_fst_zipIdx bs 0)
  · rintro x _ rfl
    rfl
  · rintro a _ rfl b _ rfl
    rfl

theorem Rule.resolvePlaces_reordered (rule : Rule) (direction : Direction) {as as' bs bs' : List Document}
    (has : List.Forall₂ Document.Reordered as as') (hbs : List.Forall₂ Document.Reordered bs bs') :
    Resolution.Corresponds (fun x y => x.1.Reordered y.1 ∧ x.2 = y.2) (rule.resolvePlaces direction as bs)
      (rule.resolvePlaces direction as' bs') := by
  refine Resolution.ofRelated_corresponds ?_ ?_ direction (forall₂_zipIdx has 0) (forall₂_zipIdx hbs 0)
  · exact fun x y hxy => Document.identity?_reordered hxy.1
  · exact fun a a' ha b b' hb => Matcher.accepts_reordered _ ha.1 hb.1

/-- Going left, the left side is chosen from the second collection and the right side from the first; going
right, the other way round. -/
theorem Rule.resolvePlaces_mem (rule : Rule) (as bs : List Document) :
    (∀ x ∈ (rule.resolvePlaces .left as bs).left, bs[x.2]? = some x.1) ∧
      (∀ x ∈ (rule.resolvePlaces .left as bs).right, as[x.2]? = some x.1) ∧
      rule.resolvePlaces .right as bs = (rule.resolvePlaces .left as bs).exchange := by
  refine ⟨fun x hx => ?_, fun x hx => ?_, Resolution.ofRelated_right _ _ _ _⟩
  · rw [resolvePlaces, Resolution.ofRelated_left] at hx
    obtain ⟨p, -, rfl⟩ := List.mem_map.1 ((Resolution.collected_sublist _).subset hx)
    exact List.mem_zipIdx_iff_getElem?.1 (List.getElem_mem _)
  · rw [resolvePlaces, Resolution.ofRelated_left] at hx
    obtain ⟨p, -, rfl⟩ := List.mem_map.1 ((Resolution.collected_sublist _).subset hx)
    exact List.mem_zipIdx_iff_getElem?.1 (List.getElem_mem _)

/-- No answer about documents depends on the order of the entries of their maps, and a resolution chooses the
resources on the same places of their collections. -/
theorem answers_reordered {a a' b b' : Document} (ha : a.Reordered a') (hb : b.Reordered b')
    {as as' bs bs' : List Document} (has : List.Forall₂ Document.Reordered as as')
    (hbs : List.Forall₂ Document.Reordered bs bs') :
    a.looseEq b = a'.looseEq b' ∧
    b.occursIn a = b'.occursIn a' ∧
    (∀ labels labels' selector selector', a = .map labels → a' = .map labels' → b = .map selector →
      b' = .map selector' → containsAll labels selector = containsAll labels' selector') ∧
    (∀ criteria, matchesAll criteria a b = matchesAll criteria a' b') ∧
    (∀ path : FieldPath, Document.SameOutcome (path.lookup a) (path.lookup a')) ∧
    a.identity? = a'.identity? ∧
    (∀ rule direction,
      Resolution.Corresponds (fun x y => x.1 = y) (Rule.resolvePlaces rule direction as bs)
        (rule.resolve direction as bs) ∧
      Resolution.Corresponds (fun x y => x.1 = y) (rule.resolvePlaces direction as' bs')
        (rule.resolve direction as' bs') ∧
      Resolution.Corresponds (fun x y => x.1.Reordered y.1 ∧ x.2 = y.2) (rule.resolvePlaces direction as bs)
        (rule.resolvePlaces direction as' bs')) ∧
    ∀ (rule : Rule) (cs ds : List Document),
      (∀ x ∈ (rule.resolvePlaces .left cs ds).left, ds[x.2]? = some x.1) ∧
      (∀ x ∈ (rule.resolvePlaces .left cs ds).right, cs[x.2]? = some x.1) ∧
      rule.resolvePlaces .right cs ds = (rule.resolvePlaces .left cs ds).exchange := by
  refine ⟨Document.looseEq_reordered ha hb, Document.occursIn_reordered hb ha, ?_,
    fun criteria => Matcher.accepts_reordered _ ha hb, fun path => path.lookup_reordered ha,
    Document.identity?_reordered ha, fun rule direction => ⟨rule.resolvePlaces_fst direction as bs,
      rule.resolvePlaces_fst direction as' bs', rule.resolvePlaces_reordered direction has hbs⟩,
    Rule.resolvePlaces_mem⟩
  rintro labels labels' selector selector' rfl rfl rfl rfl
  exact Comparison.holds_reordered .containsAll ha hb

theorem answers_reordered_pod :
    let pod := Document.map [("metadata", .map [("name", .string "web"), ("uid", .null)]), ("kind", .string "Pod")]
    let pod' := Document.map [("kind", .string "Pod"), ("metadata", .map [("uid", .null), ("name", .string "web")])]
    pod.Reordered pod' ∧ pod.looseEq pod = pod'.looseEq pod' ∧ pod.identity? = pod'.identity? ∧
      ∀ rule direction, Resolution.Corresponds (fun x y => x.1.Reordered y.1 ∧ x.2 = y.2)
        (Rule.resolvePlaces rule direction [pod, .null] [pod]) (rule.resolvePlaces direction [pod', .null] [pod']) := by
  intro pod pod'
  have hmetadata : Document.Reordered (.map [("name", .string "web"), ("uid", .null)])
      (.map [("uid", .null), ("name", .string "web")]) :=
    .map (by decide) (.swap ..) rfl (.cons .null (.cons (.scalar trivial) .nil))
  have hpod : pod.Reordered pod' := .map (by decide) (.swap ..) rfl (.cons (.scalar trivial) (.cons hmetadata .nil))
  have hanswers := answers_reordered hpod hpod (.cons hpod (.cons .null .nil)) (.cons hpod .nil)
  obtain ⟨hequal, -, -, -, -, hname, hresolved, -⟩ := hanswers
  exact ⟨hpod, hequal, hname, fun rule direction => (hresolved rule direction).2.2⟩

end ResourceGraph
