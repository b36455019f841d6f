import ResourceGraph.Document.Json
import ResourceGraph.Proofs.LooseEquality

/-!
# Documents as JSON trees

A document is turned into a JSON tree and back without loss, every number with its kind and its bits, as long as
its binary64 numbers are finite (`ofJson_toJson_eq_iff`). A tree is turned into a document and back with every large
integer rounded, as an integer of a document has 64 bits with its sign, and with nothing else changed
(`rounds_toJson_ofJson`).

Everything but the numbers is carried over node by node, so all of it rests on what becomes of one number
(`ofNumber_ofInt64`, `rounds_ofNumber`).
-/

namespace ResourceGraph

namespace Json

/-- The integer is greater than any of 64 bits with its sign. -/
def Number.IsLarge : Number → Prop
  | .natural value => Int64.maxValue.toInt < value.toNat
  | _ => False

/-- The node stands somewhere in the tree. -/
inductive HasNode : (tree node : Json) → Prop
  | here {tree : Json} : HasNode tree tree
  | element {items : List Json} {item node : Json} : item ∈ items → HasNode item node → HasNode (.array items) node
  | value {entries : Entries Json} {entry : String × Json} {node : Json} : entry ∈ entries →
    HasNode entry.2 node → HasNode (.object entries) node

/-- Some number of the tree is a large integer. -/
def HasLargeInteger (tree : Json) : Prop :=
  ∃ number, tree.HasNode (.number number) ∧ number.IsLarge

/-- The second tree is the first with each large integer rounded to the nearest binary64 number. -/
inductive Rounds : (tree rounded : Json) → Prop
  | null : Rounds .null .null
  | bool {value : Bool} : Rounds (.bool value) (.bool value)
  | string {value : String} : Rounds (.string value) (.string value)
  | number {number : Number} : ¬ number.IsLarge → Rounds (.number number) (.number number)
  | large {value : UInt64} {x : Binary64} (hx : x.isFinite) : (Number.natural value).IsLarge →
    x.IsNearest value.toNat → Rounds (.number (.natural value)) (.number (.float x hx))
  | array {items : List (Json × Json)} : (∀ item ∈ items, Rounds item.1 item.2) →
    Rounds (.array (items.map Prod.fst)) (.array (items.map Prod.snd))
  | object {entries : Entries (Json × Json)} : (∀ entry ∈ entries, Rounds entry.2.1 entry.2.2) →
    Rounds (.object (entries.mapValues Prod.fst)) (.object (entries.mapValues Prod.snd))

@[elab_as_elim] theorem induction_mem {motive : Json → Prop} (null : motive .null)
    (bool : ∀ value, motive (.bool value)) (number : ∀ value, motive (.number value))
    (string : ∀ value, motive (.string value))
    (array : ∀ items, (∀ item ∈ items, motive item) → motive (.array items))
    (object : ∀ entries, (∀ entry ∈ entries, motive entry.2) → motive (.object entries)) : ∀ tree, motive tree
  | .null => null
  | .bool value => bool value
  | .number value => number value
  | .string value => string value
  | .array items => array items fun item hitem =>
      have := List.sizeOf_lt_of_mem hitem
      induction_mem null bool number string array object item
  | .object entries => object entries fun entry hentry =>
      have := Entries.sizeOf_value_lt_of_mem hentry
      induction_mem null bool number string array object entry.2

/-! ### Trees with large integers -/

theorem hasLargeInteger_number_iff {number : Number} : (Json.number number).HasLargeInteger ↔ number.IsLarge := by
  constructor
  · rintro ⟨_, _ | _, hlarge⟩
    exact hlarge
  · exact fun hlarge => ⟨number, .here, hlarge⟩

theorem hasLargeInteger_array_iff {items : List Json} :
    (Json.array items).HasLargeInteger ↔ ∃ item ∈ items, item.HasLargeInteger := by
  constructor
  · rintro ⟨number, _ | ⟨hitem, hnode⟩, hlarge⟩
    exact ⟨_, hitem, number, hnode, hlarge⟩
  · rintro ⟨item, hitem, number, hnode, hlarge⟩
    exact ⟨number, .element hitem hnode, hlarge⟩

theorem hasLargeInteger_object_iff {entries : Entries Json} :
    (Json.object entries).HasLargeInteger ↔ ∃ entry ∈ entries, entry.2.HasLargeInteger := by
  constructor
  · rintro ⟨number, _ | _ | ⟨hentry, hnode⟩, hlarge⟩
    exact ⟨_, hentry, number, hnode, hlarge⟩
  · rintro ⟨entry, hentry, number, hnode, hlarge⟩
    exact ⟨number, .value hentry hnode, hlarge⟩

/-- Nothing is rounded exactly if no large integer is there. -/
theorem Rounds.eq_iff {tree rounded : Json} (h : Rounds tree rounded) : rounded = tree ↔ ¬ tree.HasLargeInteger := by
  induction h with
  | null => exact iff_of_true rfl fun ⟨_, hnode, _⟩ => nomatch hnode
  | bool => exact iff_of_true rfl fun ⟨_, hnode, _⟩ => nomatch hnode
  | string => exact iff_of_true rfl fun ⟨_, hnode, _⟩ => nomatch hnode
  | number hsmall => exact iff_of_true rfl (mt hasLargeInteger_number_iff.1 hsmall)
  | large hx hlarge _ => exact iff_of_false nofun (not_not.2 (hasLargeInteger_number_iff.2 hlarge))
  | @array items _ ih =>
    have hitems : items.map Prod.snd = items.map Prod.fst ↔ ∀ item ∈ items, ¬ item.1.HasLargeInteger := by
      rw [List.map_inj_left]
      exact forall₂_congr ih
    rw [Json.array.injEq, hitems, hasLargeInteger_array_iff]
    simp
  | @object entries _ ih =>
    have hentries : entries.mapValues Prod.snd = entries.mapValues Prod.fst ↔
        ∀ entry ∈ entries, ¬ entry.2.1.HasLargeInteger := by
      rw [Entries.mapValues, Entries.mapValues, List.map_inj_left]
      simp only [Prod.mk.injEq, true_and]
      exact forall₂_congr ih
    rw [Json.object.injEq, hentries, hasLargeInteger_object_iff]
    simp [Entries.mapValues]

end Json

namespace Document

/-! ### Numbers -/

theorem ofNumber_ofInt64 (value : Int64) : ofNumber (.ofInt64 value) = .int value := by
  rw [Json.Number.ofInt64]
  split
  · rfl
  · next hsign =>
    have hmax : (value.toUInt64.toNat : Int) ≤ Int64.maxValue.toInt := by
      have hlt := value.toInt_lt
      have hhigh : Int64.maxValue.toInt = 2 ^ 63 - 1 := rfl
      rw [Int64.toNat_toUInt64_of_le (Int64.not_lt.1 hsign), Int64.toNatClampNeg]
      omega
    rw [ofNumber, if_pos hmax, Int64.toInt64_toUInt64]

theorem toJson_int_toInt64 {value : UInt64} (h : (value.toNat : Int) ≤ Int64.maxValue.toInt) :
    toJson (.int value.toInt64) = .number (.natural value) := by
  have hhigh : Int64.maxValue.toInt = 2 ^ 63 - 1 := rfl
  have hvalue : value.toInt64.toInt = value.toNat := by
    rw [← Int64.toInt_ofNat_of_lt (n := value.toNat) (by omega), ← UInt64.toInt64_ofNat', UInt64.ofNat_toNat]
  have hsign : ¬ value.toInt64 < 0 := by
    rw [Int64.lt_iff_toInt_lt, hvalue]
    exact Int.not_lt.2 (Int.natCast_nonneg _)
  rw [toJson, Json.Number.ofInt64, dif_neg hsign, UInt64.toUInt64_toInt64]

/-- A number of a tree is kept, or else it is a large integer and is rounded. -/
theorem rounds_ofNumber (number : Json.Number) : Json.Rounds (.number number) (toJson (ofNumber number)) := by
  cases number with
  | natural value =>
    rw [ofNumber]
    split
    · next hle =>
      rw [toJson_int_toInt64 hle]
      exact .number (Int.not_lt.2 hle)
    · next hlarge =>
      have hnearest : (Binary64.ofInt value.toNat).IsNearest value.toNat := by
        exact_mod_cast Binary64.isNearest_ofInt (i := value.toNat) value.toNat_lt
      rw [toJson, dif_pos hnearest.isFinite]
      exact .large hnearest.isFinite (Int.not_le.1 hlarge) hnearest
  | negative value hsign =>
    rw [ofNumber, toJson, Json.Number.ofInt64, dif_pos hsign]
    exact .number id
  | float x hx =>
    rw [ofNumber, toJson, dif_pos hx]
    exact .number id

/-! ### Documents to trees and back -/

/-- No binary64 number of the document is an infinity or a NaN. -/
abbrev HasFiniteNumbers : Document → Prop :=
  Every fun
    | .float value => value.isFinite
    | _ => True

theorem WellFormed.hasFiniteNumbers {document : Document} (h : document.WellFormed) : document.HasFiniteNumbers := by
  intro node hroute
  have hsound := h node hroute
  cases node with
  | float value => exact hsound
  | _ => trivial

theorem ofJson_toJson_scalar_iff {document : Document} (h : document.IsScalar) :
    ofJson document.toJson = document ↔ document.HasFiniteNumbers := by
  cases document with
  | float value =>
    by_cases hvalue : value.isFinite
    · rw [toJson, dif_pos hvalue]
      exact iff_of_true rfl (.scalar trivial hvalue)
    · rw [toJson, dif_neg hvalue]
      exact iff_of_false nofun fun hfinite => hvalue hfinite.self
  | int value => exact iff_of_true (ofNumber_ofInt64 value) (.scalar trivial trivial)
  | bool value => exact iff_of_true rfl (.scalar trivial trivial)
  | string value => exact iff_of_true rfl (.scalar trivial trivial)
  | _ => exact h.elim

theorem map_eq_self_iff {α : Type} {f : α → α} {xs : List α} : xs.map f = xs ↔ ∀ x ∈ xs, f x = x := by
  have h := List.map_inj_left (f := f) (g := id) (l := xs)
  rwa [List.map_id] at h

/-- Nothing but infinities and NaNs is lost on the way to a tree and back. -/
theorem ofJson_toJson_eq_iff (document : Document) :
    ofJson document.toJson = document ↔ document.HasFiniteNumbers := by
  induction document using induction_mem with
  | null => exact iff_of_true rfl (.null trivial)
  | scalar document hscalar => exact ofJson_toJson_scalar_iff hscalar
  | list items ih =>
    have hitems : ofJsonItems (toJsonItems items) = items ↔ ∀ item ∈ items, item.HasFiniteNumbers := by
      rw [ofJsonItems_eq_map, toJsonItems_eq_map, List.map_map, map_eq_self_iff]
      exact forall₂_congr ih
    rw [toJson, ofJson, Document.list.injEq, hitems]
    exact (every_list_iff.trans (and_iff_right trivial)).symm
  | map entries ih =>
    have hentries : ofJsonEntries (toJsonEntries entries) = entries ↔
        ∀ entry ∈ entries, entry.2.HasFiniteNumbers := by
      rw [ofJsonEntries_eq_mapValues, toJsonEntries_eq_mapValues, Entries.mapValues, Entries.mapValues, List.map_map,
        map_eq_self_iff]
      refine forall₂_congr fun entry hentry => ?_
      rw [← ih entry hentry]
      exact ⟨fun h => congrArg Prod.snd h, fun h => Prod.ext rfl h⟩
    rw [toJson, ofJson, Document.map.injEq, hentries]
    exact (every_map_iff.trans (and_iff_right trivial)).symm

/-! ### Trees to documents and back -/

theorem rounds_toJson_ofJson (tree : Json) : Json.Rounds tree (ofJson tree).toJson := by
  induction tree using Json.induction_mem with
  | null => exact .null
  | bool value => exact .bool
  | number value => exact rounds_ofNumber value
  | string value => exact .string
  | array items ih =>
    have hitems := @Json.Rounds.array (items.map fun item => (item, (ofJson item).toJson))
      (List.forall_mem_map.2 ih)
    rw [ofJson, toJson, toJsonItems_eq_map, ofJsonItems_eq_map]
    simpa [Function.comp_def] using hitems
  | object entries ih =>
    have hentries := @Json.Rounds.object (Entries.mapValues (fun value => (value, (ofJson value).toJson)) entries)
      (List.forall_mem_map.2 ih)
    rw [ofJson, toJson, toJsonEntries_eq_mapValues, ofJsonEntries_eq_mapValues]
    simpa [Entries.mapValues, Function.comp_def] using hentries

/-- A document comes back from its tree as it was if its binary64 numbers are finite, so what comes back is strictly
equal to it. A tree comes back from its document as it was but for its large integers, which become the binary64
numbers nearest to them. -/
theorem toJson_lossless :
    (∀ document : Document, ofJson document.toJson = document ↔ document.HasFiniteNumbers) ∧
    (∀ document : Document, document.WellFormed → (ofJson document.toJson).strictEq document) ∧
    (∀ tree : Json, (ofJson tree).toJson = tree ↔ ¬ tree.HasLargeInteger) ∧
    ∀ tree : Json, Json.Rounds tree (ofJson tree).toJson := by
  refine ⟨ofJson_toJson_eq_iff, fun document hdocument => ?_, fun tree => (rounds_toJson_ofJson tree).eq_iff,
    rounds_toJson_ofJson⟩
  rw [(ofJson_toJson_eq_iff document).2 hdocument.hasFiniteNumbers]
  exact strictEq_self hdocument

/-- An integer, a whole binary64 number and a negative zero keep their kinds; `2 ^ 63` does not. -/
theorem toJson_lossless_kinds :
    let document := Document.list [.int 2, .float ⟨0x4000000000000000⟩, .float ⟨0x8000000000000000⟩]
    let tree := Json.array [.number (.natural 9223372036854775807), .number (.natural 9223372036854775808)]
    document.WellFormed ∧ ofJson document.toJson = document ∧ (ofJson document.toJson).strictEq document ∧
      (ofJson tree).toJson ≠ tree := by
  intro document tree
  obtain ⟨hsame, hstrict, htree, -⟩ := toJson_lossless
  have hfinite : Binary64.isFinite ⟨0x4000000000000000⟩ ∧ Binary64.isFinite ⟨0x8000000000000000⟩ := by decide +kernel
  have hdocument : document.WellFormed := every_list_iff.2 ⟨trivial, List.forall_mem_cons.2 ⟨.scalar trivial trivial,
    List.forall_mem_cons.2 ⟨.scalar trivial hfinite.1, List.forall_mem_singleton.2 (.scalar trivial hfinite.2)⟩⟩⟩
  have hnumber : (Json.number (.natural 9223372036854775808)).HasLargeInteger :=
    Json.hasLargeInteger_number_iff.2 (show Int64.maxValue.toInt < 9223372036854775808 by decide)
  have hlarge : tree.HasLargeInteger := Json.hasLargeInteger_array_iff.2 ⟨_, by simp, hnumber⟩
  exact ⟨hdocument, (hsame document).2 hdocument.hasFiniteNumbers, hstrict document hdocument,
    fun heq => (htree tree).1 heq hlarge⟩

end Document

end ResourceGraph
