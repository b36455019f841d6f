import ResourceGraph.Proofs.KeyPaths

/-!
# Where a lookup stops

A path is followed one step after the other, so following it to the end is following a first part and then the
rest (`follow_append`). It fails at the first step that cannot be taken from the value reached so far
(`follow_eq_error_iff`). `Blocked` says from which values a step cannot be taken, and how this is put: the reason
names the step, and the type of a value that has no such steps. A key of a list is never among these, whatever
happens in the elements of the list.
-/

namespace ResourceGraph

namespace Document

open FieldPath (Segment)

/-- The step cannot be taken from the document, for a reason in these words. -/
inductive Blocked : Segment → Document → String → Prop
  | missingKey {key : String} {entries : Entries Document} : key ∉ entries.keys →
    Blocked (.key key) (.map entries) ("key '" ++ key ++ "' not found")
  | outOfRange {position : UInt64} {items : List Document} : items.length ≤ position.toNat →
    Blocked (.index position) (.list items) ("index " ++ Nat.repr position.toNat ++ " out of range")
  | noKeys {key : String} {document : Document} : document.IsScalar ∨ document = .null →
    Blocked (.key key) document ("cannot select key '" ++ key ++ "' from " ++ document.type.name)
  | noPositions {position : UInt64} {document : Document} : document.type ≠ .list →
    Blocked (.index position) document
      ("cannot index [" ++ Nat.repr position.toNat ++ "] into " ++ document.type.name)

/-! ### One step -/

theorem selectKey_eq_error_iff {key : String} {document : Document} {reason : String} :
    (∃ obstacle, selectKey key document = .error obstacle ∧ obstacle.message = reason) ↔
      Blocked (.key key) document reason := by
  constructor
  · rintro ⟨obstacle, hselect, rfl⟩
    cases document with
    | list items => cases hselect
    | map entries =>
      rw [selectKey] at hselect
      split at hselect
      · cases hselect
      · next hmissing =>
        cases hselect
        exact .missingKey (Entries.get?_eq_none_iff.1 hmissing)
    | null =>
      cases hselect
      exact .noKeys (.inr rfl)
    | _ =>
      cases hselect
      exact .noKeys (.inl trivial)
  · rintro (hmissing | _ | hleaf | _)
    · refine ⟨.missingKey key, ?_, rfl⟩
      rw [selectKey, Entries.get?_eq_none_iff.2 hmissing]
    · refine ⟨.noKeys key document.type, ?_, rfl⟩
      rcases hleaf with hscalar | rfl
      · exact selectKey_scalar hscalar key
      · rfl

theorem selectIndex_eq_error_iff {position : UInt64} {document : Document} {reason : String} :
    (∃ obstacle, selectIndex position document = .error obstacle ∧ obstacle.message = reason) ↔
      Blocked (.index position) document reason := by
  constructor
  · rintro ⟨obstacle, hselect, rfl⟩
    cases document with
    | list items =>
      rw [selectIndex] at hselect
      split at hselect
      · cases hselect
      · next hpast =>
        cases hselect
        exact .outOfRange (List.getElem?_eq_none_iff.1 hpast)
    | _ =>
      cases hselect
      exact .noPositions nofun
  · rintro (_ | hpast | _ | htype)
    · refine ⟨.outOfRange position, ?_, rfl⟩
      rw [selectIndex, List.getElem?_eq_none hpast]
    · refine ⟨.noPositions position document.type, ?_, rfl⟩
      cases document <;> first | rfl | exact absurd rfl htype

theorem select_eq_error_iff {segment : Segment} {document : Document} {reason : String} :
    (∃ obstacle, select segment document = .error obstacle ∧ obstacle.message = reason) ↔
      Blocked segment document reason := by
  cases segment with
  | key name => exact selectKey_eq_error_iff
  | index position => exact selectIndex_eq_error_iff

/-! ### Step after step -/

theorem follow_singleton (segment : Segment) (document : Document) :
    follow [segment] document = select segment document := by
  rw [follow]
  cases select segment document <;> rfl

theorem follow_append (segments others : List Segment) (document : Document) :
    follow (segments ++ others) document = (follow segments document).bind (follow others) := by
  induction segments generalizing document with
  | nil => rfl
  | cons segment segments ih =>
    rw [List.cons_append, follow, follow]
    cases select segment document with
    | error obstacle => rfl
    | ok next => exact ih next

theorem exists_of_follow_eq_error {segments : List Segment} {document : Document} {obstacle : Obstacle}
    (h : follow segments document = .error obstacle) :
    ∃ before segment behind value, segments = before ++ segment :: behind ∧
      follow before document = .ok value ∧ select segment value = .error obstacle := by
  induction segments generalizing document with
  | nil => cases h
  | cons first segments ih =>
    rw [follow] at h
    cases hfirst : select first document with
    | error problem =>
      rw [hfirst] at h
      exact ⟨[], first, segments, document, rfl, rfl, hfirst.trans h⟩
    | ok next =>
      rw [hfirst] at h
      obtain ⟨before, segment, behind, value, rfl, hbefore, hselect⟩ := ih h
      refine ⟨first :: before, segment, behind, value, rfl, ?_, hselect⟩
      rw [follow, hfirst]
      exact hbefore

/-- A path fails exactly if, behind some steps that can be taken, there is one that cannot. -/
theorem follow_eq_error_iff {segments : List Segment} {document : Document} {obstacle : Obstacle} :
    follow segments document = .error obstacle ↔
      ∃ before segment behind value, segments = before ++ segment :: behind ∧
        follow before document = .ok value ∧ select segment value = .error obstacle := by
  refine ⟨exists_of_follow_eq_error, ?_⟩
  rintro ⟨before, segment, behind, value, rfl, hbefore, hselect⟩
  rw [follow_append, hbefore]
  show follow (segment :: behind) value = .error obstacle
  rw [follow, hselect]
  rfl

end Document

/-! ### Looking up a path -/

namespace FieldPath
open Document (Blocked)

/-- Behind some steps of the path that can be taken from the document there is one that cannot, for this reason. -/
def Stops (path : FieldPath) (document : Document) (reason : String) : Prop :=
  ∃ before segment behind value, path.segments = before ++ segment :: behind ∧
    (mk before).lookup document = .ok value ∧ Blocked segment value reason

theorem lookup_eq_error_iff {path : FieldPath} {document : Document} {error : LookupError} :
    path.lookup document = .error error ↔
      error.path = path ∧ document.follow path.segments = .error error.obstacle := by
  rw [lookup]
  cases document.follow path.segments with
  | ok value => simp
  | error obstacle =>
    constructor
    · intro h
      cases h
      exact ⟨rfl, rfl⟩
    · rintro ⟨rfl, h⟩
      cases h
      rfl

theorem stops_iff {path : FieldPath} {document : Document} {reason : String} :
    path.Stops document reason ↔
      ∃ error, path.lookup document = .error error ∧ error.obstacle.message = reason := by
  constructor
  · rintro ⟨before, segment, behind, value, hsegments, hbefore, hblocked⟩
    obtain ⟨obstacle, hselect, hreason⟩ := Document.select_eq_error_iff.2 hblocked
    have hfollow : document.follow path.segments = .error obstacle :=
      Document.follow_eq_error_iff.2
        ⟨before, segment, behind, value, hsegments, lookup_eq_ok_iff.1 hbefore, hselect⟩
    exact ⟨⟨path, obstacle⟩, lookup_eq_error_iff.2 ⟨rfl, hfollow⟩, hreason⟩
  · rintro ⟨error, herror, hreason⟩
    obtain ⟨before, segment, behind, value, hsegments, hbefore, hselect⟩ :=
      Document.follow_eq_error_iff.1 (lookup_eq_error_iff.1 herror).2
    exact ⟨before, segment, behind, value, hsegments, lookup_eq_ok_iff.2 hbefore,
      Document.select_eq_error_iff.1 ⟨error.obstacle, hselect, hreason⟩⟩

theorem lookup_append_eq_ok_iff {segments others : List Segment} {document value : Document} :
    (mk (segments ++ others)).lookup document = .ok value ↔
      ∃ middle, (mk segments).lookup document = .ok middle ∧ (mk others).lookup middle = .ok value := by
  simp only [lookup_eq_ok_iff, Document.follow_append]
  cases document.follow segments <;> simp [Except.bind]

theorem lookup_entry_eq_ok_iff {key : String} {entries : Entries Document} {value : Document} :
    (mk [.key key]).lookup (.map entries) = .ok value ↔ entries.get? key = some value := by
  rw [lookup_eq_ok_iff, Document.follow_singleton, Document.select, Document.selectKey]
  cases entries.get? key <;> simp

theorem lookup_element_eq_ok_iff {position : UInt64} {items : List Document} {item : Document} :
    (mk [.index position]).lookup (.list items) = .ok item ↔ items[position.toNat]? = some item := by
  rw [lookup_eq_ok_iff, Document.follow_singleton, Document.select, Document.selectIndex]
  cases items[position.toNat]? <;> simp

theorem lookup_elements (key : String) (items : List Document) : (mk [.key key]).lookup (.list items) =
    .ok (.list (items.filterMap fun item => ((mk [.key key]).lookup item).toOption)) := by
  simp only [toOption_lookup]
  exact lookup_eq_ok_iff.2 (Document.follow_items [key] items)

end FieldPath

end ResourceGraph
