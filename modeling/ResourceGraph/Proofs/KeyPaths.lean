import ResourceGraph.Proofs.Routes
import ResourceGraph.Resolution

/-!
# Paths of keys

A path without positions never fails on a list. Each of its keys is asked of the elements that the keys before it
have left, nested as they were, and this comes to the same as following the whole path in every element and keeping
the elements in which it leads somewhere (`follow_items`).

So once a list is met on the way, only a list can come out. A path of keys that leads to anything else has gone from
map to map, and there it finds what asking one map after the other for its entry does (`follow_eq_ok_iff`).
-/

namespace ResourceGraph

namespace Document

/-- The value at the end of a chain of keys, each asked of the map that the one before it has given. -/
def getAlong? (keys : List String) (document : Document) : Option Document :=
  keys.foldlM (fun value key => value.get? key) document

variable {keys : List String} {document value : Document}

/-! ### Lists on the way -/

theorem toOption_bind {ε α β : Type} (outcome : Except ε α) (f : α → Except ε β) :
    (outcome.bind f).toOption = outcome.toOption.bind fun a => (f a).toOption := by
  cases outcome <;> rfl

/-- Following keys in a list is following them in its elements. -/
theorem follow_items (keys : List String) (items : List Document) :
    follow (keys.map .key) (.list items) =
      .ok (.list (items.filterMap fun item => (follow (keys.map .key) item).toOption)) := by
  induction keys generalizing items with
  | nil =>
    show Except.ok (Document.list items) = .ok (.list (items.filterMap some))
    rw [List.filterMap_some]
  | cons key keys ih =>
    -- the first key leaves a list again, in which the others are followed
    have hitem : ∀ item, (follow ((key :: keys).map .key) item).toOption =
        (selectKey key item).toOption.bind fun value => (follow (keys.map .key) value).toOption :=
      fun item => toOption_bind (selectKey key item) (follow (keys.map .key))
    calc follow ((key :: keys).map .key) (.list items)
        = follow (keys.map .key) (.list (selectKeyInItems key items)) := rfl
      _ = .ok (.list ((selectKeyInItems key items).filterMap fun value =>
            (follow (keys.map .key) value).toOption)) := ih _
      _ = .ok (.list (items.filterMap fun item => (follow ((key :: keys).map .key) item).toOption)) := by
        rw [selectKeyInItems_eq_filterMap, List.filterMap_filterMap]
        simp only [hitem]

theorem type_of_follow_list {items : List Document} (h : follow (keys.map .key) (.list items) = .ok value) :
    value.type = .list := by
  rw [follow_items] at h
  obtain rfl := Except.ok.inj h
  rfl

/-! ### Maps on the way -/

theorem selectKey_of_get? {key : String} (h : document.get? key = some value) :
    selectKey key document = .ok value := by
  cases document with
  | map entries =>
    rw [selectKey, show Entries.get? key entries = some value from h]
  | _ => cases h

theorem get?_of_selectKey {key : String} (htype : document.type ≠ .list) (h : selectKey key document = .ok value) :
    document.get? key = some value := by
  cases document with
  | list items => exact absurd rfl htype
  | map entries =>
    rw [selectKey] at h
    split at h
    · next hentry =>
      cases h
      exact hentry
    · cases h
  | _ => cases h

theorem getAlong?_cons (key : String) (keys : List String) (document : Document) :
    getAlong? (key :: keys) document = (document.get? key).bind (getAlong? keys) :=
  List.foldlM_cons

theorem follow_of_getAlong? (h : getAlong? keys document = some value) :
    follow (keys.map .key) document = .ok value := by
  induction keys generalizing document with
  | nil =>
    obtain rfl := Option.some.inj h
    rfl
  | cons key keys ih =>
    rw [getAlong?_cons] at h
    obtain ⟨next, hnext, h⟩ := Option.bind_eq_some_iff.1 h
    show (selectKey key document).bind (follow (keys.map .key)) = .ok value
    rw [selectKey_of_get? hnext]
    exact ih h

theorem getAlong?_of_follow (h : follow (keys.map .key) document = .ok value) (htype : value.type ≠ .list) :
    getAlong? keys document = some value := by
  induction keys generalizing document with
  | nil =>
    obtain rfl := Except.ok.inj h
    rfl
  | cons key keys ih =>
    have hdocument : document.type ≠ .list := by
      intro hlist
      cases document with
      | list items => exact htype (type_of_follow_list h)
      | _ => cases hlist
    have hbind : (selectKey key document).bind (follow (keys.map .key)) = .ok value := h
    rw [getAlong?_cons]
    cases hselect : selectKey key document with
    | error obstacle =>
      rw [hselect] at hbind
      cases hbind
    | ok next =>
      rw [hselect] at hbind
      rw [get?_of_selectKey hdocument hselect]
      exact ih hbind

/-- Where something other than a list is wanted, a path of keys and a chain of keys agree. -/
theorem follow_eq_ok_iff (htype : value.type ≠ .list) :
    follow (keys.map .key) document = .ok value ↔ getAlong? keys document = some value :=
  ⟨fun h => getAlong?_of_follow h htype, follow_of_getAlong?⟩

theorem identity?_eq_some_iff {name : String} :
    document.identity? = some name ↔ getAlong? ["metadata", "name"] document = some (.string name) := by
  have hchain : getAlong? ["metadata", "name"] document =
      (document.get? "metadata").bind (Document.get? "name") := by
    rw [getAlong?_cons]
    cases document.get? "metadata" with
    | none => rfl
    | some metadata =>
      show getAlong? ["name"] metadata = metadata.get? "name"
      rw [getAlong?_cons]
      cases metadata.get? "name" <;> rfl
  have hstring : ∀ found : Document, found.toString? = some name ↔ found = .string name := by
    intro found
    cases found <;> simp [toString?]
  rw [identity?, hchain, Option.bind_eq_some_iff]
  simp only [hstring, exists_eq_right]

end Document

theorem toOption_lookup (path : FieldPath) (document : Document) :
    (path.lookup document).toOption = (document.follow path.segments).toOption := by
  rw [FieldPath.lookup]
  cases document.follow path.segments <;> rfl

theorem containsAll_iff {labels selector : Entries Document} :
    containsAll labels selector ↔ labels ≠ [] ∧ selector ≠ [] ∧
      ∀ entry ∈ selector, ∃ value, labels.get? entry.1 = some value ∧ value.looseEq entry.2 := by
  have hlabel : ∀ entry : String × Document,
      hasLabel labels entry ↔ ∃ value, labels.get? entry.1 = some value ∧ value.looseEq entry.2 :=
    fun entry => Option.any_eq_true ..
  rw [containsAll, Bool.and_eq_true, Bool.and_eq_true, List.all_eq_true]
  simp only [hlabel, Bool.not_eq_true', List.isEmpty_eq_false_iff]
  tauto

theorem Comparison.containsAll_holds_iff {a b : Document} : Comparison.containsAll.holds a b ↔
    ∃ labels selector, a = .map labels ∧ b = .map selector ∧ ResourceGraph.containsAll labels selector := by
  constructor
  · intro h
    cases a <;> cases b <;> first | exact ⟨_, _, rfl, rfl, h⟩ | cases h
  · rintro ⟨labels, selector, rfl, rfl, h⟩
    exact h

/-- Following a path of keys in a list is following it in every element, and the elements in which it leads
nowhere are left out. -/
theorem FieldPath.lookup_items (keys : List String) (items : List Document) :
    (mk (keys.map .key)).lookup (.list items) =
      .ok (.list (items.filterMap fun item => ((mk (keys.map .key)).lookup item).toOption)) := by
  simp only [toOption_lookup]
  exact lookup_eq_ok_iff.2 (Document.follow_items keys items)

theorem Document.type_map_ne_list (entries : Entries Document) : (Document.map entries).type ≠ .list := nofun

theorem Document.identity?_iff_lookup {document : Document} {name : String} : document.identity? = some name ↔
    ∃ path, FieldPath.parse "$.metadata.name" = .ok path ∧ path.lookup document = .ok (.string name) := by
  have hparse : FieldPath.parse "$.metadata.name" = .ok ⟨["metadata", "name"].map .key⟩ := by decide +kernel
  have htype : (Document.string name).type ≠ .list := nofun
  rw [identity?_eq_some_iff, ← follow_eq_ok_iff htype, hparse]
  constructor
  · intro hfollow
    exact ⟨_, rfl, FieldPath.lookup_eq_ok_iff.2 hfollow⟩
  · rintro ⟨path, hpath, hlookup⟩
    obtain rfl := Except.ok.inj hpath
    exact FieldPath.lookup_eq_ok_iff.1 hlookup

theorem Criterion.containsAll_iff_getAlong? {fieldA fieldB : String} {keysA keysB : List String}
    (hA : FieldPath.parse fieldA = .ok ⟨keysA.map .key⟩) (hB : FieldPath.parse fieldB = .ok ⟨keysB.map .key⟩)
    (a b : Document) : (Criterion.mk fieldA fieldB .containsAll).prepare.holds a b ↔
      ∃ labels selector : Entries Document, a.getAlong? keysA = some (.map labels) ∧ labels ≠ [] ∧
        b.getAlong? keysB = some (.map selector) ∧ selector ≠ [] ∧
        ∀ entry ∈ selector, ∃ value, labels.get? entry.1 = some value ∧ value.looseEq entry.2 := by
  rw [Criterion.holds_iff ⟨fieldA, fieldB, .containsAll⟩ hA hB]
  simp only [FieldPath.lookup_eq_ok_iff, Comparison.containsAll_holds_iff, containsAll_iff]
  constructor
  · rintro ⟨_, _, ha, hb, labels, selector, rfl, rfl, hlabels, hselector, hall⟩
    have ha := Document.getAlong?_of_follow ha (Document.type_map_ne_list labels)
    have hb := Document.getAlong?_of_follow hb (Document.type_map_ne_list selector)
    exact ⟨labels, selector, ha, hlabels, hb, hselector, hall⟩
  · rintro ⟨labels, selector, ha, hlabels, hb, hselector, hall⟩
    exact ⟨.map labels, .map selector, Document.follow_of_getAlong? ha, Document.follow_of_getAlong? hb,
      labels, selector, rfl, rfl, hlabels, hselector, hall⟩

/-- A path of keys finds what a chain of keys finds, and besides that only lists. So a resource is known by the
string that the path to its name finds, and labels and selectors are looked for in maps alone. -/
theorem FieldPath.lookup_getAlong?_agree :
    (∀ keys document value, Document.getAlong? keys document = some value →
      (mk (keys.map .key)).lookup document = .ok value) ∧
    (∀ keys document value, (mk (keys.map .key)).lookup document = .ok value → value.type ≠ .list →
      Document.getAlong? keys document = some value) ∧
    (∀ document name, Document.identity? document = some name ↔
      ∃ path, parse "$.metadata.name" = .ok path ∧ path.lookup document = .ok (.string name)) ∧
    ∀ fieldA fieldB keysA keysB, parse fieldA = .ok ⟨keysA.map .key⟩ → parse fieldB = .ok ⟨keysB.map .key⟩ →
      ∀ a b, (Criterion.mk fieldA fieldB .containsAll).prepare.holds a b ↔
        ∃ labels selector : Entries Document, a.getAlong? keysA = some (.map labels) ∧ labels ≠ [] ∧
          b.getAlong? keysB = some (.map selector) ∧ selector ≠ [] ∧
          ∀ entry ∈ selector, ∃ value, labels.get? entry.1 = some value ∧ value.looseEq entry.2 := by
  refine ⟨?_, ?_, fun _ _ => Document.identity?_iff_lookup, ?_⟩
  · intro keys document value hget
    exact lookup_eq_ok_iff.2 (Document.follow_of_getAlong? hget)
  · intro keys document value hlookup htype
    exact Document.getAlong?_of_follow (lookup_eq_ok_iff.1 hlookup) htype
  · intro fieldA fieldB keysA keysB hA hB a b
    exact Criterion.containsAll_iff_getAlong? hA hB a b

theorem FieldPath.lookup_getAlong?_agree_pod :
    let labels := Document.map [("app", .string "web"), ("tier", .string "front")]
    let pod := Document.map [("metadata", .map [("name", .string "web-0"), ("labels", labels)])]
    let service := Document.map [("spec", .map [("selector", .map [("tier", .string "front")])])]
    (mk [.key "metadata", .key "labels"]).lookup pod = .ok labels ∧
      pod.getAlong? ["metadata", "labels"] = some labels ∧
      (Criterion.mk "$.metadata.labels" "spec.selector[]" .containsAll).prepare.holds pod service := by
  intro labels pod service
  obtain ⟨hget, hlookup, -, hcontains⟩ := lookup_getAlong?_agree
  have hfound : (mk [.key "metadata", .key "labels"]).lookup pod = .ok labels := hget ["metadata", "labels"] _ _ rfl
  have hA : parse "$.metadata.labels" = .ok ⟨["metadata", "labels"].map .key⟩ := by decide +kernel
  have hB : parse "spec.selector[]" = .ok ⟨["spec", "selector"].map .key⟩ := by decide +kernel
  refine ⟨hfound, hlookup ["metadata", "labels"] _ _ hfound nofun, ?_⟩
  refine (hcontains _ _ _ _ hA hB pod service).2 ⟨_, _, rfl, nofun, rfl, nofun, ?_⟩
  intro entry hentry
  obtain rfl := List.mem_singleton.1 hentry
  exact ⟨.string "front", rfl, by decide⟩

end ResourceGraph
