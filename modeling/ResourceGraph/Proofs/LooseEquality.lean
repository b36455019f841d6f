import Mathlib.Data.List.Forall2
import Mathlib.Data.List.Perm.Subperm
import ResourceGraph.Document.Equality
import ResourceGraph.Proofs.NearestNumber
import ResourceGraph.Proofs.Routes

/-!
# Loose equality

The `datum` of a document is what it says once numbers count by their value and entries in no order. As long as
every integer is a binary64 number, two documents are loosely equal exactly if they say the same
(`looseEq_iff_datum_eq`).

Other integers are rounded when they meet a binary64 number, but not when they meet each other. So one number may
equal two different integers, and transitivity fails exactly where such integers stand at the same place
(`looseEq_trans_iff`).

Maps are compared from one side only, entry by entry. As no key repeats and the lengths agree, no key is left over
on the other side, and the comparison is one of values key by key (`equalBy_map_iff`).
-/

namespace ResourceGraph

theorem Entries.exists_mem_of_get? {α : Type} {key : String} {value : α} {entries : Entries α}
    (h : entries.get? key = some value) : (key, value) ∈ entries := by
  induction entries with
  | nil => cases h
  | cons entry entries ih =>
    rw [get?] at h
    split at h
    · next hkey =>
      obtain rfl := Option.some.inj h
      rw [← hkey]
      exact List.mem_cons_self ..
    · exact List.mem_cons_of_mem _ (ih h)

theorem Entries.get?_of_mem {α : Type} {entries : Entries α} (hnodup : entries.keys.Nodup) {entry : String × α}
    (h : entry ∈ entries) : entries.get? entry.1 = some entry.2 := by
  induction entries with
  | nil => cases h
  | cons first entries ih =>
    obtain ⟨hfirst, hnodup⟩ := List.nodup_cons.1 hnodup
    rw [get?]
    rcases List.mem_cons.1 h with rfl | h
    · exact if_pos rfl
    · rw [if_neg, ih hnodup h]
      intro heq
      exact hfirst (heq ▸ List.mem_map_of_mem h)

namespace Document

/-! ### Comparing part by part -/

section
variable {scalar : Document → Document → Bool}

theorem equalBy_list_iff {as bs : List Document} :
    equalBy scalar (.list as) (.list bs) ↔ List.Forall₂ (fun a b => equalBy scalar a b) as bs := by
  rw [equalBy]
  induction as generalizing bs with
  | nil => cases bs <;> simp [equalItems]
  | cons a as ih => cases bs <;> simp [equalItems, ih]

/-- Keys that all occur among as many others are all of them. -/
theorem keys_subset_of_length_eq {as bs : Entries Document} (has : as.keys.Nodup) (hlength : as.length = bs.length)
    (hsubset : as.keys ⊆ bs.keys) : bs.keys ⊆ as.keys := by
  have hperm : as.keys.Perm bs.keys := by
    refine (List.subperm_of_subset has hsubset).perm_of_length_le ?_
    rw [Entries.keys, Entries.keys, List.length_map, List.length_map, hlength]
  exact hperm.symm.subset

theorem equalEntries_iff {as bs : Entries Document} : equalEntries scalar as bs ↔
    ∀ entry ∈ as, ∃ other, bs.get? entry.1 = some other ∧ equalBy scalar entry.2 other := by
  induction as with
  | nil => simp [equalEntries]
  | cons entry as ih =>
    rw [equalEntries, Bool.and_eq_true, ih, List.forall_mem_cons]
    refine and_congr_left fun _ => ?_
    cases bs.get? entry.1 <;> simp

theorem equalBy_map_iff {as bs : Entries Document} (has : as.keys.Nodup) (hbs : bs.keys.Nodup) :
    equalBy scalar (.map as) (.map bs) ↔
      ∀ key, Option.Rel (fun a b => equalBy scalar a b) (as.get? key) (bs.get? key) := by
  rw [equalBy, Bool.and_eq_true, beq_iff_eq, equalEntries_iff]
  constructor
  · rintro ⟨hlength, hentries⟩ key
    cases ha : as.get? key with
    | some a =>
      obtain ⟨b, hb, hequal⟩ := hentries _ (Entries.exists_mem_of_get? ha)
      rw [hb]
      exact .some hequal
    | none =>
      have hsubset : as.keys ⊆ bs.keys := by
        intro k hk
        obtain ⟨entry, hentry, rfl⟩ := List.mem_map.1 hk
        obtain ⟨b, hb, -⟩ := hentries entry hentry
        by_contra hnone
        rw [Entries.get?_eq_none_iff.2 hnone] at hb
        cases hb
      have hkey : key ∉ bs.keys := fun hmem =>
        Entries.get?_eq_none_iff.1 ha (keys_subset_of_length_eq has hlength hsubset hmem)
      rw [Entries.get?_eq_none_iff.2 hkey]
      exact .none
  · intro hrel
    have hmem : ∀ key, key ∈ as.keys ↔ key ∈ bs.keys := by
      intro key
      have hvalue := hrel key
      rw [← not_iff_not, ← Entries.get?_eq_none_iff, ← Entries.get?_eq_none_iff]
      generalize as.get? key = value, bs.get? key = other at hvalue ⊢
      cases hvalue <;> simp
    refine ⟨?_, fun entry hentry => ?_⟩
    · have hperm := (List.perm_ext_iff_of_nodup has hbs).2 hmem
      simpa [Entries.keys] using hperm.length_eq
    · have hvalue := hrel entry.1
      rw [Entries.get?_of_mem has hentry] at hvalue
      generalize bs.get? entry.1 = other at hvalue ⊢
      cases hvalue with
      | some hequal => exact ⟨_, rfl, hequal⟩

end

/-! ### Nodes -/

/-- Every node of the document has the property. -/
def Every (p : Document → Prop) (document : Document) : Prop :=
  ∀ node, Route [] document node → p node

namespace Every
variable {p : Document → Prop}

theorem self {document : Document} (h : Every p document) : p document :=
  h document .here

theorem item {items : List Document} (h : Every p (.list items)) {item : Document} (hitem : item ∈ items) :
    Every p item :=
  fun node hroute => h node (.element hitem hroute)

theorem value {entries : Entries Document} (h : Every p (.map entries)) {entry : String × Document}
    (hentry : entry ∈ entries) : Every p entry.2 :=
  fun node hroute => h node (.value hentry hroute)

theorem get? {entries : Entries Document} (h : Every p (.map entries)) {key : String} {value : Document}
    (hvalue : entries.get? key = some value) : Every p value :=
  h.value (Entries.exists_mem_of_get? hvalue)

end Every

theorem Every.null {p : Document → Prop} (h : p .null) : Every p .null := by
  intro node hroute
  obtain ⟨-, rfl⟩ := route_null_iff.1 hroute
  exact h

theorem Every.scalar {p : Document → Prop} {document : Document} (hscalar : document.IsScalar) (h : p document) :
    Every p document := by
  intro node hroute
  obtain ⟨-, rfl⟩ := (route_scalar_iff hscalar).1 hroute
  exact h

theorem every_list_iff {p : Document → Prop} {items : List Document} :
    Every p (.list items) ↔ p (.list items) ∧ ∀ item ∈ items, Every p item := by
  refine ⟨fun h => ⟨h.self, fun item => h.item⟩, ?_⟩
  rintro ⟨hself, hitems⟩ node (_ | ⟨hitem, hroute⟩)
  · exact hself
  · exact hitems _ hitem node hroute

theorem every_map_iff {p : Document → Prop} {entries : Entries Document} :
    Every p (.map entries) ↔ p (.map entries) ∧ ∀ entry ∈ entries, Every p entry.2 := by
  refine ⟨fun h => ⟨h.self, fun entry => h.value⟩, ?_⟩
  rintro ⟨hself, hentries⟩ node (_ | _ | _ | ⟨hentry, hroute⟩)
  · exact hself
  · exact hentries _ hentry node hroute

/-- A binary64 number is finite, and a map repeats no key. -/
def IsSound : Document → Prop
  | .float value => value.isFinite
  | .map entries => (Entries.keys entries).Nodup
  | _ => True

/-- All binary64 numbers are finite, and no map repeats a key. -/
abbrev WellFormed : Document → Prop :=
  Every IsSound

/-- An integer is kept when it is rounded to a binary64 number. -/
def IsExact : Document → Prop
  | .int value => (Binary64.ofInt value.toInt).toRat = value.toInt
  | _ => True

/-- All integers are binary64 numbers. -/
abbrev HasExactIntegers : Document → Prop :=
  Every IsExact

/-- No integer is greater than `2 ^ 53` in absolute value. -/
abbrev HasSmallIntegers : Document → Prop :=
  Every fun
    | .int value => value.toInt.natAbs ≤ 2 ^ 53
    | _ => True

theorem natAbs_toInt_lt (value : Int64) : value.toInt.natAbs < 2 ^ 64 := by
  have hlower := value.le_toInt
  have hupper := value.toInt_lt
  omega

theorem isFinite_ofInt (value : Int64) : (Binary64.ofInt value.toInt).isFinite :=
  (Binary64.isNearest_ofInt (natAbs_toInt_lt value)).isFinite

theorem HasSmallIntegers.hasExactIntegers {document : Document} (h : document.HasSmallIntegers) :
    document.HasExactIntegers := by
  intro node hroute
  have hsmall := h node hroute
  cases node with
  | int value => exact Binary64.toRat_ofInt hsmall
  | _ => trivial

end Document

/-! ### What documents say -/

/-- What a document says: its numbers are rationals, and its maps give each key its value or none. -/
inductive Datum
  | null
  | bool (value : Bool)
  | number (value : ℚ)
  | string (value : String)
  | list (items : List Datum)
  | map (value? : String → Option Datum)

namespace Document

mutual

def datum : Document → Datum
  | .null => .null
  | .bool value => .bool value
  | .int value => .number value.toInt
  | .float value => .number value.toRat
  | .string value => .string value
  | .list items => .list (itemData items)
  | .map entries => .map (entryData entries)

def itemData : List Document → List Datum
  | [] => []
  | item :: items => datum item :: itemData items

def entryData : List (String × Document) → String → Option Datum
  | [], _ => none
  | (key, value) :: entries, wanted => if key = wanted then some (datum value) else entryData entries wanted

end

theorem itemData_eq_map (items : List Document) : itemData items = items.map datum := by
  induction items with
  | nil => rfl
  | cons item items ih => rw [itemData, ih, List.map_cons]

theorem entryData_eq (entries : Entries Document) (key : String) :
    entryData entries key = (entries.get? key).map datum := by
  induction entries with
  | nil => rfl
  | cons entry entries ih =>
    rw [entryData, Entries.get?, ih]
    split <;> rfl

/-! ### Scalars -/

theorem equalBy_leaf {scalar : Document → Document → Bool} {a : Document} (ha : a.IsScalar ∨ a = .null)
    (b : Document) : equalBy scalar a b = scalar a b := by
  rcases ha with ha | rfl
  · cases a <;> first | cases b <;> rfl | exact ha.elim
  · cases b <;> rfl

theorem valueEq_ofInt_iff {value : Int64} (h : (Document.int value).IsExact) {x : Binary64} (hx : x.isFinite) :
    (Binary64.ofInt value.toInt).valueEq x ↔ (value.toInt : ℚ) = x.toRat := by
  rw [Binary64.valueEq_iff_toRat (isFinite_ofInt value) hx, h]

theorem looseScalarEq_iff_datum_eq {a b : Document} (ha : a.IsScalar ∨ a = .null) (hwa : a.IsSound)
    (hwb : b.IsSound) (hea : a.IsExact) (heb : b.IsExact) : looseScalarEq a b ↔ a.datum = b.datum := by
  cases a with
  | null => cases b <;> simp [looseScalarEq, strictScalarEq, datum]
  | bool => cases b <;> simp [looseScalarEq, strictScalarEq, datum]
  | string => cases b <;> simp [looseScalarEq, strictScalarEq, datum]
  | int i =>
    cases b with
    | int j => simp [looseScalarEq, strictScalarEq, datum, Int64.toInt_inj]
    | float y =>
      rw [looseScalarEq, datum, datum, Datum.number.injEq]
      exact valueEq_ofInt_iff hea hwb
    | _ => simp [looseScalarEq, strictScalarEq, datum]
  | float x =>
    cases b with
    | int j =>
      rw [looseScalarEq, datum, datum, Datum.number.injEq, Binary64.valueEq_comm, valueEq_ofInt_iff heb hwa]
      exact eq_comm
    | float y =>
      rw [looseScalarEq, strictScalarEq, datum, datum, Datum.number.injEq]
      · exact Binary64.valueEq_iff_toRat hwa hwb
      all_goals simp
    | _ => simp [looseScalarEq, strictScalarEq, datum]
  | list => simp [IsScalar] at ha
  | map => simp [IsScalar] at ha

theorem strictScalarEq_self {a : Document} (ha : a.IsScalar) (hwa : a.IsSound) : strictScalarEq a a := by
  cases a with
  | float x => exact Binary64.valueEq_self hwa
  | list => exact ha.elim
  | map => exact ha.elim
  | _ => simp [strictScalarEq]

theorem looseScalarEq_self {a : Document} (ha : a.IsScalar) (hwa : a.IsSound) : looseScalarEq a a :=
  looseScalarEq_of_strictScalarEq (strictScalarEq_self ha hwa)

/-! ### Trees -/

theorem forall₂_imp_mem {α β : Type} {r s : α → β → Prop} {xs : List α} {ys : List β} (h : List.Forall₂ r xs ys)
    (himp : ∀ x ∈ xs, ∀ y ∈ ys, r x y → s x y) : List.Forall₂ s xs ys := by
  induction h with
  | nil => exact .nil
  | @cons x y xs ys hxy _ ih =>
    refine .cons (himp x (List.mem_cons_self ..) y (List.mem_cons_self ..) hxy) (ih fun x hx y hy => ?_)
    exact himp x (List.mem_cons_of_mem _ hx) y (List.mem_cons_of_mem _ hy)

theorem rel_imp_some {α β : Type} {r s : α → β → Prop} {x : Option α} {y : Option β} (h : Option.Rel r x y)
    (himp : ∀ a, x = some a → ∀ b, y = some b → r a b → s a b) : Option.Rel s x y := by
  cases h with
  | none => exact .none
  | some hab => exact .some (himp _ rfl _ rfl hab)

theorem looseEq_list_iff {as bs : List Document} :
    looseEq (.list as) (.list bs) ↔ List.Forall₂ (fun a b => a.looseEq b) as bs :=
  equalBy_list_iff

theorem looseEq_map_iff {as bs : Entries Document} (ha : (Document.map as).WellFormed)
    (hb : (Document.map bs).WellFormed) : looseEq (.map as) (.map bs) ↔
      ∀ key, Option.Rel (fun a b => a.looseEq b) (as.get? key) (bs.get? key) :=
  equalBy_map_iff ha.self hb.self

/-- A document equals itself if all its scalars do. -/
theorem equalBy_self {scalar : Document → Document → Bool} (hnull : scalar .null .null)
    (hscalar : ∀ leaf : Document, leaf.IsScalar → leaf.IsSound → scalar leaf leaf) {a : Document} (ha : a.WellFormed) :
    equalBy scalar a a := by
  induction a using induction_mem with
  | null => exact hnull
  | scalar a ha' =>
    rw [equalBy_leaf (.inl ha')]
    exact hscalar a ha' ha.self
  | list as ih =>
    rw [equalBy_list_iff, List.forall₂_same]
    exact fun a hmem => ih a hmem (ha.item hmem)
  | map as ih =>
    rw [equalBy_map_iff ha.self ha.self]
    intro key
    cases hvalue : Entries.get? key as with
    | none => exact .none
    | some a => exact .some (ih _ (Entries.exists_mem_of_get? hvalue) (ha.get? hvalue))

theorem looseEq_self {a : Document} (ha : a.WellFormed) : a.looseEq a :=
  equalBy_self rfl (fun _ => looseScalarEq_self) ha

theorem strictEq_self {a : Document} (ha : a.WellFormed) : a.strictEq a :=
  equalBy_self rfl (fun _ => strictScalarEq_self) ha

theorem looseEq_symm {a b : Document} (ha : a.WellFormed) (hb : b.WellFormed) (h : a.looseEq b) : b.looseEq a := by
  induction a using induction_mem generalizing b with
  | null =>
    rw [looseEq, equalBy_leaf (.inr rfl)] at h
    cases b <;> first | rfl | cases h
  | scalar a hscalar =>
    have hb : b.IsScalar := isScalar_of_looseEq hscalar h
    rw [looseEq, equalBy_leaf (.inl hscalar), looseScalarEq_comm] at h
    rwa [looseEq, equalBy_leaf (.inl hb)]
  | list as ih =>
    cases b with
    | list bs =>
      rw [looseEq_list_iff] at h ⊢
      have hitems : List.Forall₂ (fun a b => b.looseEq a) as bs :=
        forall₂_imp_mem h fun a hmem b hmem' => ih a hmem (ha.item hmem) (hb.item hmem')
      exact hitems.flip
    | _ => cases h
  | map as ih =>
    cases b with
    | map bs =>
      rw [looseEq_map_iff ha hb] at h
      rw [looseEq_map_iff hb ha]
      intro key
      have hvalue := rel_imp_some (s := fun a b => b.looseEq a) (h key) fun a hx b hy =>
        ih _ (Entries.exists_mem_of_get? hx) (ha.get? hx) (hb.get? hy)
      generalize Entries.get? key as = x, Entries.get? key bs = y at hvalue ⊢
      cases hvalue with
      | none => exact .none
      | some hequal => exact .some hequal
    | _ => cases h

theorem looseEq_of_strictEq {a b : Document} (h : a.strictEq b) : a.looseEq b := by
  induction a using induction_mem generalizing b with
  | null =>
    rw [strictEq, equalBy_leaf (.inr rfl)] at h
    rw [looseEq, equalBy_leaf (.inr rfl)]
    exact looseScalarEq_of_strictScalarEq h
  | scalar a hscalar =>
    rw [strictEq, equalBy_leaf (.inl hscalar)] at h
    rw [looseEq, equalBy_leaf (.inl hscalar)]
    exact looseScalarEq_of_strictScalarEq h
  | list as ih =>
    cases b with
    | list bs =>
      rw [strictEq, equalBy_list_iff] at h
      rw [looseEq_list_iff]
      exact forall₂_imp_mem h fun a hmem b _ => ih a hmem
    | _ => cases h
  | map as ih =>
    cases b with
    | map bs =>
      rw [strictEq, equalBy, Bool.and_eq_true, equalEntries_iff] at h
      rw [looseEq, equalBy, Bool.and_eq_true, equalEntries_iff]
      refine h.imp_right fun hentries entry hentry => ?_
      obtain ⟨other, hother, hequal⟩ := hentries entry hentry
      exact ⟨other, hother, ih entry hentry hequal⟩
    | _ => cases h

/-! ### Equal data -/

theorem forall₂_iff_map_eq {α β γ : Type} {r : α → β → Prop} {f : α → γ} {g : β → γ} {xs : List α} {ys : List β}
    (h : ∀ x ∈ xs, ∀ y ∈ ys, r x y ↔ f x = g y) : List.Forall₂ r xs ys ↔ xs.map f = ys.map g := by
  rw [← List.forall₂_eq_eq_eq, List.forall₂_map_left_iff, List.forall₂_map_right_iff]
  exact ⟨fun hr => forall₂_imp_mem hr fun x hx y hy => (h x hx y hy).1,
    fun heq => forall₂_imp_mem heq fun x hx y hy => (h x hx y hy).2⟩

theorem rel_iff_map_eq {α β γ : Type} {r : α → β → Prop} {f : α → γ} {g : β → γ} {x : Option α} {y : Option β}
    (h : ∀ a, x = some a → ∀ b, y = some b → (r a b ↔ f a = g b)) : Option.Rel r x y ↔ x.map f = y.map g := by
  cases x <;> cases y <;> simp_all

theorem looseEq_iff_datum_eq {a b : Document} (ha : a.WellFormed) (hb : b.WellFormed) (hea : a.HasExactIntegers)
    (heb : b.HasExactIntegers) : a.looseEq b ↔ a.datum = b.datum := by
  induction a using induction_mem generalizing b with
  | null =>
    rw [looseEq, equalBy_leaf (.inr rfl)]
    exact looseScalarEq_iff_datum_eq (.inr rfl) ha.self hb.self hea.self heb.self
  | scalar a hscalar =>
    rw [looseEq, equalBy_leaf (.inl hscalar)]
    exact looseScalarEq_iff_datum_eq (.inl hscalar) ha.self hb.self hea.self heb.self
  | list as ih =>
    cases b with
    | list bs =>
      rw [looseEq_list_iff, datum, datum, Datum.list.injEq, itemData_eq_map, itemData_eq_map]
      exact forall₂_iff_map_eq fun a hmem b hmem' =>
        ih a hmem (ha.item hmem) (hb.item hmem') (hea.item hmem) (heb.item hmem')
    | _ => exact iff_of_false nofun nofun
  | map as ih =>
    cases b with
    | map bs =>
      rw [looseEq_map_iff ha hb, datum, datum, Datum.map.injEq, funext_iff]
      refine forall_congr' fun key => ?_
      rw [entryData_eq, entryData_eq]
      exact rel_iff_map_eq fun a hx b hy => ih _ (Entries.exists_mem_of_get? hx) (ha.get? hx) (hb.get? hy)
        (hea.get? hx) (heb.get? hy)
    | _ => exact iff_of_false nofun nofun

/-- Loose equality is reflexive and symmetric, holds of strictly equal documents, and tells whether documents say the
same, provided that their integers are small. -/
theorem looseEq_isEquality {a b : Document} (ha : a.WellFormed) (hb : b.WellFormed) :
    a.looseEq a ∧ a.looseEq b = b.looseEq a ∧ (a.strictEq b → a.looseEq b) ∧
      (a.HasSmallIntegers → b.HasSmallIntegers → (a.looseEq b ↔ a.datum = b.datum)) := by
  refine ⟨looseEq_self ha, ?_, looseEq_of_strictEq, fun hea heb => ?_⟩
  · rw [Bool.eq_iff_iff]
    exact ⟨looseEq_symm ha hb, looseEq_symm hb ha⟩
  · exact looseEq_iff_datum_eq ha hb hea.hasExactIntegers heb.hasExactIntegers

theorem looseEq_isEquality_reordered :
    let a := Document.map [("n", .int 2), ("m", .null)]
    let b := Document.map [("m", .null), ("n", .float ⟨0x4000000000000000⟩)]
    a.WellFormed ∧ b.WellFormed ∧ a.HasSmallIntegers ∧ b.HasSmallIntegers ∧ a.looseEq a ∧
      a.looseEq b = b.looseEq a ∧ a.datum = b.datum := by
  intro a b
  have hkeys : ["n", "m"].Nodup ∧ ["m", "n"].Nodup := by decide
  have hfinite : Binary64.isFinite ⟨0x4000000000000000⟩ := by decide +kernel
  have ha : a.WellFormed := every_map_iff.2 ⟨hkeys.1, List.forall_mem_cons.2
    ⟨.scalar trivial trivial, List.forall_mem_singleton.2 (.null trivial)⟩⟩
  have hb : b.WellFormed := every_map_iff.2 ⟨hkeys.2, List.forall_mem_cons.2
    ⟨.null trivial, List.forall_mem_singleton.2 (.scalar trivial hfinite)⟩⟩
  have hsmall : a.HasSmallIntegers := every_map_iff.2 ⟨trivial, List.forall_mem_cons.2
    ⟨.scalar trivial (by decide), List.forall_mem_singleton.2 (.null trivial)⟩⟩
  have hsmall' : b.HasSmallIntegers := every_map_iff.2 ⟨trivial, List.forall_mem_cons.2
    ⟨.null trivial, List.forall_mem_singleton.2 (.scalar trivial trivial)⟩⟩
  obtain ⟨hself, hcomm, -, hdatum⟩ := looseEq_isEquality ha hb
  have hequal : a.looseEq b := by decide +kernel
  exact ⟨ha, hb, hsmall, hsmall', hself, hcomm, (hdatum hsmall hsmall').1 hequal⟩

/-! ### Transitivity -/

/-- The nodes `x` and `y` stand at the same place of two documents. -/
inductive SamePlace : (a b x y : Document) → Prop
  | here {a b : Document} : SamePlace a b a b
  | item {as bs : List Document} {position : Nat} {a b x y : Document} : as[position]? = some a →
    bs[position]? = some b → SamePlace a b x y → SamePlace (.list as) (.list bs) x y
  | entry {as bs : Entries Document} {key : String} {a b x y : Document} : as.get? key = some a →
    bs.get? key = some b → SamePlace a b x y → SamePlace (.map as) (.map bs) x y

theorem forall₂_iff_rel_getElem? {α β : Type} {r : α → β → Prop} {xs : List α} {ys : List β} :
    List.Forall₂ r xs ys ↔ ∀ position : Nat, Option.Rel r xs[position]? ys[position]? := by
  induction xs generalizing ys with
  | nil =>
    cases ys with
    | nil => exact iff_of_true .nil fun _ => .none
    | cons y ys => exact iff_of_false nofun fun h => nomatch h 0
  | cons x xs ih =>
    cases ys with
    | nil => exact iff_of_false nofun fun h => nomatch h 0
    | cons y ys =>
      rw [List.forall₂_cons, ih]
      constructor
      · rintro ⟨hxy, htail⟩ position
        cases position with
        | zero => exact .some hxy
        | succ position => simpa using htail position
      · intro h
        refine ⟨?_, fun position => by simpa using h (position + 1)⟩
        cases h 0 with
        | some hxy => exact hxy

theorem exists_of_rel_some {α β : Type} {r : α → β → Prop} {x : Option α} {y : Option β} (h : Option.Rel r x y)
    {a : α} (ha : x = some a) : ∃ b, y = some b ∧ r a b := by
  cases h with
  | none => cases ha
  | some hab =>
    obtain rfl := Option.some.inj ha
    exact ⟨_, rfl, hab⟩

theorem rel_of_rel_rel {α β γ : Type} {r : α → β → Prop} {s : β → γ → Prop} {t : α → γ → Prop} {x : Option α}
    {y : Option β} {z : Option γ} (hxy : Option.Rel r x y) (hyz : Option.Rel s y z)
    (h : ∀ a b c, x = some a → y = some b → z = some c → r a b → s b c → t a c) : Option.Rel t x z := by
  cases hxy with
  | none =>
    cases hyz
    exact .none
  | some hab =>
    cases hyz with
    | some hbc => exact .some (h _ _ _ rfl rfl rfl hab hbc)

theorem looseEq_list_iff_position {as bs : List Document} : looseEq (.list as) (.list bs) ↔
    ∀ position : Nat, Option.Rel (fun a b => a.looseEq b) as[position]? bs[position]? := by
  rw [looseEq_list_iff, forall₂_iff_rel_getElem?]

/-- Integers that both equal something loosely are rounded to the same number. -/
theorem valueEq_of_looseEq {i j : Int64} {b : Document} (hi : (Document.int i).looseEq b)
    (hj : b.looseEq (.int j)) : (Binary64.ofInt i.toInt).valueEq (.ofInt j.toInt) := by
  cases b with
  | int k =>
    obtain rfl : i = k := beq_iff_eq.1 hi
    obtain rfl : i = j := beq_iff_eq.1 hj
    exact Binary64.valueEq_self (isFinite_ofInt i)
  | float x =>
    have hix : (Binary64.ofInt i.toInt).valueEq x := hi
    have hxj : x.valueEq (.ofInt j.toInt) := hj
    exact Binary64.valueEq_trans hix hxj
  | _ => cases hi

/-- Loosely equal documents have loosely equal nodes at the same place. -/
theorem SamePlace.looseEq {a c x y : Document} (h : SamePlace a c x y) (ha : a.WellFormed) (hc : c.WellFormed)
    (hac : a.looseEq c) : x.looseEq y := by
  induction h with
  | here => exact hac
  | @item as cs position _ _ _ _ ha' hc' _ ih =>
    rw [looseEq_list_iff_position] at hac
    obtain ⟨c, hc'', hac⟩ := exists_of_rel_some (hac position) ha'
    obtain rfl := Option.some.inj (hc'.symm.trans hc'')
    exact ih (ha.item (List.mem_of_getElem? ha')) (hc.item (List.mem_of_getElem? hc')) hac
  | @entry as cs key _ _ _ _ ha' hc' _ ih =>
    rw [looseEq_map_iff ha hc] at hac
    obtain ⟨c, hc'', hac⟩ := exists_of_rel_some (hac key) ha'
    obtain rfl := Option.some.inj (hc'.symm.trans hc'')
    exact ih (ha.get? ha') (hc.get? hc') hac

/-- A document that two others equal loosely has a node at each place that they share. -/
theorem SamePlace.exists_between {a b c x y : Document} (h : SamePlace a c x y) (ha : a.WellFormed)
    (hb : b.WellFormed) (hc : c.WellFormed) (hab : a.looseEq b) (hbc : b.looseEq c) :
    ∃ z, x.looseEq z ∧ z.looseEq y := by
  induction h generalizing b with
  | here => exact ⟨b, hab, hbc⟩
  | @item as cs position _ _ _ _ ha' hc' _ ih =>
    cases b with
    | list bs =>
      rw [looseEq_list_iff_position] at hab hbc
      obtain ⟨b, hb', hab⟩ := exists_of_rel_some (hab position) ha'
      obtain ⟨c, hc'', hbc⟩ := exists_of_rel_some (hbc position) hb'
      obtain rfl := Option.some.inj (hc'.symm.trans hc'')
      exact ih (ha.item (List.mem_of_getElem? ha')) (hb.item (List.mem_of_getElem? hb'))
        (hc.item (List.mem_of_getElem? hc')) hab hbc
    | _ => cases hab
  | @entry as cs key _ _ _ _ ha' hc' _ ih =>
    cases b with
    | map bs =>
      rw [looseEq_map_iff ha hb] at hab
      rw [looseEq_map_iff hb hc] at hbc
      obtain ⟨b, hb', hab⟩ := exists_of_rel_some (hab key) ha'
      obtain ⟨c, hc'', hbc⟩ := exists_of_rel_some (hbc key) hb'
      obtain rfl := Option.some.inj (hc'.symm.trans hc'')
      exact ih (ha.get? ha') (hb.get? hb') (hc.get? hc') hab hbc
    | _ => cases hab

theorem looseScalarEq_trans {a b c : Document} (ha : a.IsScalar) (hab : looseScalarEq a b) (hbc : looseScalarEq b c)
    (hsame : ∀ i j, a = .int i → c = .int j → i = j) : looseScalarEq a c := by
  cases a with
  | int i =>
    cases b with
    | int k =>
      obtain rfl : i = k := beq_iff_eq.1 hab
      exact hbc
    | float x =>
      cases c with
      | int j =>
        obtain rfl := hsame i j rfl rfl
        exact beq_self_eq_true i
      | float y => exact Binary64.valueEq_trans hab hbc
      | _ => cases hbc
    | _ => cases hab
  | float x =>
    cases b with
    | int k =>
      cases c with
      | int j =>
        obtain rfl : k = j := beq_iff_eq.1 hbc
        exact hab
      | float y => exact Binary64.valueEq_trans hab hbc
      | _ => cases hbc
    | float y =>
      cases c with
      | int j => exact Binary64.valueEq_trans hab hbc
      | float z => exact Binary64.valueEq_trans hab hbc
      | _ => cases hbc
    | _ => cases hab
  | bool x =>
    cases b with
    | bool y =>
      obtain rfl : x = y := beq_iff_eq.1 hab
      exact hbc
    | _ => cases hab
  | string x =>
    cases b with
    | string y =>
      obtain rfl : x = y := beq_iff_eq.1 hab
      exact hbc
    | _ => cases hab
  | _ => exact ha.elim

theorem looseEq_trans {a b c : Document} (ha : a.WellFormed) (hb : b.WellFormed) (hc : c.WellFormed)
    (hab : a.looseEq b) (hbc : b.looseEq c) (hsame : ∀ i j, SamePlace a c (.int i) (.int j) → i = j) :
    a.looseEq c := by
  induction a using induction_mem generalizing b c with
  | null =>
    rw [looseEq, equalBy_leaf (.inr rfl)] at hab
    cases b <;> first | exact hbc | cases hab
  | scalar a hscalar =>
    have hscalar' : b.IsScalar := isScalar_of_looseEq hscalar hab
    rw [looseEq, equalBy_leaf (.inl hscalar)] at hab
    rw [looseEq, equalBy_leaf (.inl hscalar')] at hbc
    rw [looseEq, equalBy_leaf (.inl hscalar)]
    refine looseScalarEq_trans hscalar hab hbc fun i j hi hj => hsame i j ?_
    rw [hi, hj]
    exact .here
  | list as ih =>
    cases b with
    | list bs =>
      cases c with
      | list cs =>
        rw [looseEq_list_iff_position] at hab hbc ⊢
        refine fun position => rel_of_rel_rel (hab position) (hbc position) fun a b c ha' hb' hc' => ?_
        exact fun hab hbc => ih a (List.mem_of_getElem? ha') (ha.item (List.mem_of_getElem? ha'))
          (hb.item (List.mem_of_getElem? hb')) (hc.item (List.mem_of_getElem? hc')) hab hbc
          fun i j hplace => hsame i j (.item ha' hc' hplace)
      | _ => cases hbc
    | _ => cases hab
  | map as ih =>
    cases b with
    | map bs =>
      cases c with
      | map cs =>
        rw [looseEq_map_iff ha hb] at hab
        rw [looseEq_map_iff hb hc] at hbc
        rw [looseEq_map_iff ha hc]
        refine fun key => rel_of_rel_rel (hab key) (hbc key) fun a b c ha' hb' hc' hab hbc => ?_
        exact ih _ (Entries.exists_mem_of_get? ha') (ha.get? ha') (hb.get? hb') (hc.get? hc') hab hbc
          fun i j hplace => hsame i j (.entry ha' hc' hplace)
      | _ => cases hbc
    | _ => cases hab

theorem SamePlace.routes {a b x y : Document} (h : SamePlace a b x y) : Route [] a x ∧ Route [] b y := by
  induction h with
  | here => exact ⟨.here, .here⟩
  | item ha hb _ ih => exact ⟨.element (List.mem_of_getElem? ha) ih.1, .element (List.mem_of_getElem? hb) ih.2⟩
  | entry ha hb _ ih =>
    exact ⟨.value (Entries.exists_mem_of_get? ha) ih.1, .value (Entries.exists_mem_of_get? hb) ih.2⟩

/-- Of three documents the first and the last are loosely equal if both equal the one between them, unless two
different integers stand at the same place of them. Such integers are rounded to the same binary64 number, and at
least one of them is no binary64 number itself. -/
theorem looseEq_trans_iff {a b c : Document} (ha : a.WellFormed) (hb : b.WellFormed) (hc : c.WellFormed)
    (hab : a.looseEq b) (hbc : b.looseEq c) :
    (a.looseEq c ↔ ∀ i j, SamePlace a c (.int i) (.int j) → i = j) ∧
      (∀ i j, SamePlace a c (.int i) (.int j) → (Binary64.ofInt i.toInt).valueEq (.ofInt j.toInt)) ∧
      (a.HasExactIntegers → c.HasExactIntegers → a.looseEq c) := by
  have hvalue : ∀ i j, SamePlace a c (.int i) (.int j) → (Binary64.ofInt i.toInt).valueEq (.ofInt j.toInt) := by
    intro i j hplace
    obtain ⟨z, hi, hj⟩ := hplace.exists_between ha hb hc hab hbc
    exact valueEq_of_looseEq hi hj
  refine ⟨⟨fun hac i j hplace => beq_iff_eq.1 (hplace.looseEq ha hc hac), looseEq_trans ha hb hc hab hbc⟩, hvalue,
    fun hea hec => looseEq_trans ha hb hc hab hbc fun i j hplace => ?_⟩
  have hi : (Binary64.ofInt i.toInt).toRat = i.toInt := hea _ hplace.routes.1
  have hj : (Binary64.ofInt j.toInt).toRat = j.toInt := hec _ hplace.routes.2
  have hequal := (Binary64.valueEq_iff_toRat (isFinite_ofInt i) (isFinite_ofInt j)).1 (hvalue i j hplace)
  rw [hi, hj, Int.cast_inj] at hequal
  exact Int64.toInt_inj.1 hequal

/-- Two integers at `2 ^ 53` are rounded to it, so both equal it, but not each other. -/
theorem looseEq_trans_iff_neighbours :
    let a := Document.list [.int 9007199254740993]
    let b := Document.list [.float ⟨0x4340000000000000⟩]
    let c := Document.list [.int 9007199254740992]
    a.WellFormed ∧ b.WellFormed ∧ c.WellFormed ∧ a.looseEq b ∧ b.looseEq c ∧ ¬ a.looseEq c := by
  intro a b c
  have hfinite : Binary64.isFinite ⟨0x4340000000000000⟩ := by decide +kernel
  have ha : a.WellFormed := every_list_iff.2 ⟨trivial, List.forall_mem_singleton.2 (.scalar trivial trivial)⟩
  have hb : b.WellFormed := every_list_iff.2 ⟨trivial, List.forall_mem_singleton.2 (.scalar trivial hfinite)⟩
  have hc : c.WellFormed := every_list_iff.2 ⟨trivial, List.forall_mem_singleton.2 (.scalar trivial trivial)⟩
  have hab : a.looseEq b := by decide +kernel
  have hbc : b.looseEq c := by decide +kernel
  refine ⟨ha, hb, hc, hab, hbc, fun hac => ?_⟩
  have hplace : SamePlace a c (.int 9007199254740993) (.int 9007199254740992) :=
    .item (List.getElem?_cons_zero) (List.getElem?_cons_zero) .here
  exact absurd ((looseEq_trans_iff ha hb hc hab hbc).1.1 hac _ _ hplace) (by decide)

/-- Numbers do not compare by value, and equality is not transitive: the integer `2 ^ 53 + 1` equals the number
`2 ^ 53`, which equals the integer `2 ^ 53`. -/
theorem looseEq_rounds : (Document.int 9007199254740993).datum ≠ (Document.float ⟨0x4340000000000000⟩).datum ∧
    (Document.int 9007199254740993).looseEq (.float ⟨0x4340000000000000⟩) ∧
    (Document.float ⟨0x4340000000000000⟩).looseEq (.int 9007199254740992) ∧
    ¬ (Document.int 9007199254740993).looseEq (.int 9007199254740992) := by
  refine ⟨fun heq => ?_, by decide +kernel, by decide +kernel, by decide +kernel⟩
  have hfloat : Binary64.ofInt 9007199254740992 = ⟨0x4340000000000000⟩ := by decide +kernel
  have hvalue := Binary64.toRat_ofInt (i := 9007199254740992) (by decide)
  have hnumber := Datum.number.inj heq
  rw [← hfloat, hvalue, Int.cast_inj] at hnumber
  exact absurd hnumber (by decide)

end Document

end ResourceGraph
