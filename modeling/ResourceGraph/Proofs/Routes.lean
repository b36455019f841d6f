import Mathlib.Data.List.Basic
import ResourceGraph.Matching

/-!
# Exact matches as routes

`Route keys document target` says that one can go down from a document to one of its nodes with keys pending: at
a list to any element, at a map to the entry of the next key, or to any value once no key is left. An exact match
finds its scalar on such a route (`exactMatch_iff_route`).

Looking up a key of a list leaves out the elements in which it fails and keeps the rest nested, so the result is
no node of the document. Still a scalar lies on a route in the result exactly if it lies on one in the document
with the key pending (`route_selectKey_iff`), and following the path takes one such step after the other
(`route_follow_iff`).
-/

namespace ResourceGraph

theorem Entries.sizeOf_value_lt_of_mem {α : Type} [SizeOf α] {entry : String × α} {entries : Entries α}
    (h : entry ∈ entries) : sizeOf entry.2 < sizeOf entries := by
  have hlt := List.sizeOf_lt_of_mem h
  obtain ⟨key, value⟩ := entry
  rw [Prod.mk.sizeOf_spec] at hlt
  show sizeOf value < sizeOf entries
  omega

namespace Document

/-- A boolean, a number or a string. -/
def IsScalar : Document → Prop
  | .bool _ | .int _ | .float _ | .string _ => True
  | .null | .list _ | .map _ => False

@[elab_as_elim] theorem induction_mem {motive : Document → Prop} (null : motive .null)
    (scalar : ∀ document, document.IsScalar → motive document)
    (list : ∀ items, (∀ item ∈ items, motive item) → motive (.list items))
    (map : ∀ entries, (∀ entry ∈ entries, motive entry.2) → motive (.map entries)) :
    ∀ document, motive document
  | .null => null
  | .bool value => scalar (.bool value) trivial
  | .int value => scalar (.int value) trivial
  | .float value => scalar (.float value) trivial
  | .string value => scalar (.string value) trivial
  | .list items => list items fun item hitem =>
      have := List.sizeOf_lt_of_mem hitem
      induction_mem null scalar list map item
  | .map entries => map entries fun entry hentry =>
      have := Entries.sizeOf_value_lt_of_mem hentry
      induction_mem null scalar list map entry.2

/-- A route from a document to one of its nodes that uses up the pending keys. -/
inductive Route : (keys : List String) → (document target : Document) → Prop
  | here {document : Document} : Route [] document document
  | element {keys : List String} {items : List Document} {item target : Document} : item ∈ items →
    Route keys item target → Route keys (.list items) target
  | entry {key : String} {keys : List String} {entries : Entries Document} {value target : Document} :
    entries.get? key = some value → Route keys value target → Route (key :: keys) (.map entries) target
  | value {entries : Entries Document} {entry : String × Document} {target : Document} : entry ∈ entries →
    Route [] entry.2 target → Route [] (.map entries) target

variable {keys : List String} {target : Document}

theorem route_null_iff : Route keys .null target ↔ keys = [] ∧ target = .null := by
  constructor
  · rintro (_ | _)
    exact ⟨rfl, rfl⟩
  · rintro ⟨rfl, rfl⟩
    exact .here

theorem route_scalar_iff {document : Document} (h : document.IsScalar) :
    Route keys document target ↔ keys = [] ∧ target = document := by
  constructor
  · rintro (_ | _ | _ | _)
    · exact ⟨rfl, rfl⟩
    all_goals exact h.elim
  · rintro ⟨rfl, rfl⟩
    exact .here

theorem route_list_iff (h : target.IsScalar) {items : List Document} :
    Route keys (.list items) target ↔ ∃ item ∈ items, Route keys item target := by
  constructor
  · rintro (_ | ⟨hitem, hroute⟩)
    · exact h.elim
    · exact ⟨_, hitem, hroute⟩
  · rintro ⟨item, hitem, hroute⟩
    exact .element hitem hroute

theorem route_values_iff (h : target.IsScalar) {entries : Entries Document} :
    Route [] (.map entries) target ↔ ∃ entry ∈ entries, Route [] entry.2 target := by
  constructor
  · rintro (_ | _ | _ | ⟨hentry, hroute⟩)
    · exact h.elim
    · exact ⟨_, hentry, hroute⟩
  · rintro ⟨entry, hentry, hroute⟩
    exact .value hentry hroute

theorem route_entry_iff {key : String} {entries : Entries Document} :
    Route (key :: keys) (.map entries) target ↔
      ∃ value, entries.get? key = some value ∧ Route keys value target := by
  constructor
  · rintro (_ | _ | ⟨hvalue, hroute⟩)
    exact ⟨_, hvalue, hroute⟩
  · rintro ⟨value, hvalue, hroute⟩
    exact .entry hvalue hroute

/-! ### Searching a document -/

theorem occursIn_scalar {scalar : Document} (h : scalar.IsScalar) (needle : Document) :
    needle.occursIn scalar = scalar.looseEq needle := by
  cases scalar <;> first | rfl | cases h

/-- A needle occurs in a document exactly if a route without keys leads to a scalar that equals it. -/
theorem occursIn_iff_route {needle document : Document} : needle.occursIn document ↔
    ∃ scalar, Route [] document scalar ∧ scalar.IsScalar ∧ scalar.looseEq needle := by
  induction document using induction_mem with
  | null =>
    constructor
    · intro h
      cases h
    · rintro ⟨scalar, hroute, hscalar, -⟩
      obtain ⟨-, rfl⟩ := route_null_iff.1 hroute
      exact hscalar.elim
  | scalar document hdocument =>
    rw [occursIn_scalar hdocument]
    constructor
    · exact fun hequal => ⟨document, .here, hdocument, hequal⟩
    · rintro ⟨scalar, hroute, -, hequal⟩
      obtain ⟨-, rfl⟩ := (route_scalar_iff hdocument).1 hroute
      exact hequal
  | list items ih =>
    rw [occursIn, occursInItems_eq_any, List.any_eq_true]
    constructor
    · rintro ⟨item, hitem, hoccurs⟩
      obtain ⟨scalar, hroute, hscalar, hequal⟩ := (ih item hitem).1 hoccurs
      exact ⟨scalar, .element hitem hroute, hscalar, hequal⟩
    · rintro ⟨scalar, hroute, hscalar, hequal⟩
      obtain ⟨item, hitem, hroute⟩ := (route_list_iff hscalar).1 hroute
      exact ⟨item, hitem, (ih item hitem).2 ⟨scalar, hroute, hscalar, hequal⟩⟩
  | map entries ih =>
    rw [occursIn, occursInEntries_eq_any, List.any_eq_true]
    constructor
    · rintro ⟨entry, hentry, hoccurs⟩
      obtain ⟨scalar, hroute, hscalar, hequal⟩ := (ih entry hentry).1 hoccurs
      exact ⟨scalar, .value hentry hroute, hscalar, hequal⟩
    · rintro ⟨scalar, hroute, hscalar, hequal⟩
      obtain ⟨entry, hentry, hroute⟩ := (route_values_iff hscalar).1 hroute
      exact ⟨entry, hentry, (ih entry hentry).2 ⟨scalar, hroute, hscalar, hequal⟩⟩

/-! ### Following a path -/

theorem selectKey_scalar {scalar : Document} (h : scalar.IsScalar) (key : String) :
    selectKey key scalar = .error (.noKeys key scalar.type) := by
  cases scalar <;> first | rfl | cases h

theorem mem_selectKeyInItems_iff {key : String} {items : List Document} {value : Document} :
    value ∈ selectKeyInItems key items ↔ ∃ item ∈ items, selectKey key item = .ok value := by
  have hselect : ∀ item, (selectKey key item).toOption = some value ↔ selectKey key item = .ok value := by
    intro item
    cases selectKey key item <;> simp [Except.toOption]
  simp only [selectKeyInItems_eq_filterMap, List.mem_filterMap, hselect]

/-- Selecting a key neither loses nor makes up a scalar at the end of a route on which the key is pending. -/
theorem route_selectKey_iff (h : target.IsScalar) {key : String} {document : Document} :
    (∃ value, selectKey key document = .ok value ∧ Route keys value target) ↔
      Route (key :: keys) document target := by
  induction document using induction_mem with
  | null =>
    rw [route_null_iff]
    simp [selectKey]
  | scalar document hdocument =>
    rw [route_scalar_iff hdocument, selectKey_scalar hdocument]
    simp
  | list items ih =>
    -- An element in which the key fails is left out, and no route leads through it either.
    have hvalues : (∃ value, selectKey key (.list items) = .ok value ∧ Route keys value target) ↔
        ∃ value ∈ selectKeyInItems key items, Route keys value target := by
      rw [← route_list_iff h]
      simp [selectKey]
    rw [hvalues, route_list_iff h]
    constructor
    · rintro ⟨value, hvalue, hroute⟩
      obtain ⟨item, hitem, hselect⟩ := mem_selectKeyInItems_iff.1 hvalue
      exact ⟨item, hitem, (ih item hitem).1 ⟨value, hselect, hroute⟩⟩
    · rintro ⟨item, hitem, hroute⟩
      obtain ⟨value, hselect, hroute⟩ := (ih item hitem).2 hroute
      exact ⟨value, mem_selectKeyInItems_iff.2 ⟨item, hitem, hselect⟩, hroute⟩
  | map entries ih =>
    rw [route_entry_iff, selectKey]
    cases Entries.get? key entries <;> simp

theorem route_follow_iff (h : target.IsScalar) {document : Document} :
    (∃ value, follow (keys.map .key) document = .ok value ∧ Route [] value target) ↔
      Route keys document target := by
  induction keys generalizing document with
  | nil => simp [follow]
  | cons key keys ih =>
    rw [← route_selectKey_iff h, List.map_cons, follow, select]
    cases selectKey key document with
    | error obstacle => simp [Except.bind]
    | ok next => simpa [Except.bind] using ih

/-- Whether a needle occurs in what a path of keys selects can be read off the document itself. -/
theorem occursIn_follow_iff {needle document : Document} :
    (∃ value, follow (keys.map .key) document = .ok value ∧ needle.occursIn value) ↔
      ∃ scalar, Route keys document scalar ∧ scalar.IsScalar ∧ scalar.looseEq needle := by
  constructor
  · rintro ⟨value, hfollow, hoccurs⟩
    obtain ⟨scalar, hroute, hscalar, hequal⟩ := occursIn_iff_route.1 hoccurs
    exact ⟨scalar, (route_follow_iff hscalar).1 ⟨value, hfollow, hroute⟩, hscalar, hequal⟩
  · rintro ⟨scalar, hroute, hscalar, hequal⟩
    obtain ⟨value, hfollow, hroute⟩ := (route_follow_iff hscalar).2 hroute
    exact ⟨value, hfollow, occursIn_iff_route.2 ⟨scalar, hroute, hscalar, hequal⟩⟩

theorem isScalar_of_looseEq {scalar other : Document} (h : scalar.IsScalar) (hequal : scalar.looseEq other) :
    other.IsScalar := by
  cases scalar <;> cases other <;> trivial

end Document

/-! ### Exact matches -/

theorem FieldPath.lookup_eq_ok_iff {path : FieldPath} {document value : Document} :
    path.lookup document = .ok value ↔ document.follow path.segments = .ok value := by
  rw [FieldPath.lookup]
  cases document.follow path.segments <;> simp

theorem fieldValue?_eq_some_iff {field : String} {path : FieldPath} (h : FieldPath.parse field = .ok path)
    {resource value : Document} :
    fieldValue? (FieldPath.parse? field) resource = some value ↔ path.lookup resource = .ok value := by
  rw [FieldPath.parse?, h]
  show (path.lookup resource).toOption = some value ↔ _
  cases path.lookup resource <;> simp [Except.toOption]

theorem PreparedCriterion.holds_iff {criterion : PreparedCriterion} {a b : Document} : criterion.holds a b ↔
    ∃ x y, fieldValue? criterion.fieldA a = some x ∧ fieldValue? criterion.fieldB b = some y ∧
      criterion.comparison.holds x y := by
  rw [PreparedCriterion.holds]
  cases fieldValue? criterion.fieldA a <;> cases fieldValue? criterion.fieldB b <;> simp

theorem Criterion.holds_iff (criterion : Criterion) {pathA pathB : FieldPath}
    (hA : FieldPath.parse criterion.fieldA = .ok pathA) (hB : FieldPath.parse criterion.fieldB = .ok pathB)
    {a b : Document} : criterion.prepare.holds a b ↔
      ∃ x y, pathA.lookup a = .ok x ∧ pathB.lookup b = .ok y ∧ criterion.comparison.holds x y := by
  simp only [PreparedCriterion.holds_iff, Criterion.prepare, fieldValue?_eq_some_iff hA, fieldValue?_eq_some_iff hB]

/-- For a path of keys, an exact match holds exactly if the second field has a value and a route from the first
resource with these keys leads to a scalar that equals it. The value is then itself a scalar. -/
theorem exactMatch_iff_route {fieldA fieldB : String} {keys : List String} {pathB : FieldPath}
    (hA : FieldPath.parse fieldA = .ok ⟨keys.map .key⟩) (hB : FieldPath.parse fieldB = .ok pathB) (a b : Document) :
    ((Criterion.mk fieldA fieldB .exactMatch).prepare.holds a b ↔ ∃ y, pathB.lookup b = .ok y ∧
      ∃ scalar, Document.Route keys a scalar ∧ scalar.IsScalar ∧ scalar.looseEq y) ∧
    ((Criterion.mk fieldA fieldB .exactMatch).prepare.holds a b →
      ∀ y, pathB.lookup b = .ok y → y.IsScalar) := by
  have hiff : (Criterion.mk fieldA fieldB .exactMatch).prepare.holds a b ↔ ∃ y, pathB.lookup b = .ok y ∧
      ∃ scalar, Document.Route keys a scalar ∧ scalar.IsScalar ∧ scalar.looseEq y := by
    rw [Criterion.holds_iff ⟨fieldA, fieldB, .exactMatch⟩ hA hB]
    constructor
    · rintro ⟨x, y, hx, hy, hoccurs⟩
      exact ⟨y, hy, Document.occursIn_follow_iff.1 ⟨x, FieldPath.lookup_eq_ok_iff.1 hx, hoccurs⟩⟩
    · rintro ⟨y, hy, hscalar⟩
      obtain ⟨x, hx, hoccurs⟩ := Document.occursIn_follow_iff.2 hscalar
      exact ⟨x, y, FieldPath.lookup_eq_ok_iff.2 hx, hy, hoccurs⟩
  refine ⟨hiff, fun hholds y hy => ?_⟩
  obtain ⟨y', hy', scalar, -, hscalar, hequal⟩ := hiff.1 hholds
  obtain rfl : y' = y := Except.ok.inj (hy'.symm.trans hy)
  exact Document.isScalar_of_looseEq hscalar hequal

theorem exactMatch_images : (Criterion.mk "image[]" "images[0]" .exactMatch).prepare.holds
    (.list [.null, .map [("image", .string "nginx")]]) (.map [("images", .list [.string "nginx"])]) := by
  have hA : FieldPath.parse "image[]" = .ok ⟨["image"].map .key⟩ := by decide +kernel
  have hB : FieldPath.parse "images[0]" = .ok ⟨[.key "images", .index 0]⟩ := by decide +kernel
  refine (exactMatch_iff_route hA hB _ _).1.2 ⟨.string "nginx", rfl, .string "nginx", ?_, trivial, by decide⟩
  have hitem : Document.map [("image", .string "nginx")] ∈ [.null, .map [("image", .string "nginx")]] := by simp
  exact .element hitem (.entry rfl .here)

end ResourceGraph
