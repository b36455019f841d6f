import ResourceGraph.Proofs.ReadingProblems
import ResourceGraph.Rule.Json

/-!
# Rule files with problems

A rule file need not be the file of a table: the fields of its rules and criteria come in any order, among
entries with other keys that hold any JSON, and some of them may be missing or come twice. It is read exactly if
every rule and every criterion has each of its fields once, and then the table holds what those fields say.
Otherwise it is refused with its first problem (`RuleTable.ofText?_ruleFile`).

`CriterionEntry` and `RuleEntry` are the entries of the two records. What a draft holds while entries are read is
said by `CriterionEntry.Gathered` and `RuleEntry.Gathered`, one line for each field.
-/

namespace ResourceGraph

open Json

/-- Lists are determined member by member if members that satisfy a condition determine theirs. -/
theorem eq_of_forall₂ {ι α : Type} {IsComplete : ι → Prop} {IsGiven : ι → α → Prop} {xs : List ι} {as bs : List α}
    (hunique : ∀ x a b, IsComplete x → IsGiven x a → IsGiven x b → a = b) (h : ∀ x ∈ xs, IsComplete x)
    (has : List.Forall₂ IsGiven xs as) (hbs : List.Forall₂ IsGiven xs bs) : as = bs := by
  have hright : Relator.RightUnique fun x a => IsComplete x ∧ IsGiven x a := by
    rintro x a b ⟨hx, ha⟩ ⟨-, hb⟩
    exact hunique x a b hx ha hb
  exact hright.forall₂ ((List.forall₂_and_left _ _).2 ⟨h, has⟩) ((List.forall₂_and_left _ _).2 ⟨h, hbs⟩)

/-! ### Criteria -/

@[simp]
def CriterionEntry.fields : List String := ["field_a", "field_b", "comparison"]

/-- An entry of a criterion. Its unknown entries have any other key. -/
inductive CriterionEntry
  | fieldA (value : String)
  | fieldB (value : String)
  | comparison (value : Comparison)
  | unknown (key : String) (isUnknown : key ∉ CriterionEntry.fields)

/-- What the entries of a criterion say. -/
structure Criterion.IsGiven (entries : List CriterionEntry) (criterion : Criterion) : Prop where
  fieldA : .fieldA criterion.fieldA ∈ entries
  fieldB : .fieldB criterion.fieldB ∈ entries
  comparison : .comparison criterion.comparison ∈ entries

namespace CriterionEntry

@[simp]
def key : CriterionEntry → String
  | .fieldA _ => "field_a"
  | .fieldB _ => "field_b"
  | .comparison _ => "comparison"
  | .unknown key _ => key

/-- How the value of an entry is written. The string of a field has to denote a Unicode text; a value that is
skipped need not, it may hold half a surrogate pair. -/
def IsContent : CriterionEntry → List Char → Prop
  | .fieldA value, cs => IsLiteral cs value
  | .fieldB value, cs => IsLiteral cs value
  | .comparison value, cs => IsLiteral cs value.name
  | .unknown _ _, cs => IsValue cs

/-- Each field of a criterion is given once. -/
def IsComplete (entries : List CriterionEntry) : Prop :=
  HasEachOnce fields key entries

def problems (entries : List CriterionEntry) : List Mismatch :=
  recordProblems fields key (fun _ => []) entries

theorem problems_eq_nil_iff {entries : List CriterionEntry} : problems entries = [] ↔ IsComplete entries := by
  rw [problems, recordProblems_eq_nil_iff]
  exact and_iff_left fun _ _ => rfl

/-- What the draft of a criterion holds after some entries. -/
structure Gathered (seen : List CriterionEntry) (draft : Criterion.Draft) : Prop where
  fieldA : IsFilled key "field_a" (fun x value => x = .fieldA value) seen draft.fieldA
  fieldB : IsFilled key "field_b" (fun x value => x = .fieldB value) seen draft.fieldB
  comparison : IsFilled key "comparison" (fun x value => x = .comparison value) seen draft.comparison

theorem gathered_nil : Gathered [] Criterion.record.start where
  fieldA := List.not_mem_nil
  fieldB := List.not_mem_nil
  comparison := List.not_mem_nil

theorem judges_comparison {comparison : Comparison} {text : List Char} (h : IsLiteral text comparison.name)
    (depth : Nat) : Judges (Comparison.reader depth) text [] (· = comparison) := by
  cases comparison with
  | containsAll => exact judges_variant rfl rfl h depth
  | exactMatch => exact judges_variant rfl rfl h depth

theorem extends_readMember (depth : Nat) : Extends (Criterion.record.readMember depth) key IsContent
    (entryProblems fields key fun _ => []) Gathered := by
  intro seen draft x content before after rest hseen hcontent hbefore hafter hrest
  cases x with
  | fieldA value =>
    refine (settles_field rfl (by simp) hseen.fieldA (judges_string hcontent depth) hbefore hafter hrest).imp ?_
    rintro _ ⟨_, rfl, rfl⟩
    exact ⟨.fill seen rfl rfl, hseen.fieldB.other (by simp), hseen.comparison.other (by simp)⟩
  | fieldB value =>
    refine (settles_field rfl (by simp) hseen.fieldB (judges_string hcontent depth) hbefore hafter hrest).imp ?_
    rintro _ ⟨_, rfl, rfl⟩
    exact ⟨hseen.fieldA.other (by simp), .fill seen rfl rfl, hseen.comparison.other (by simp)⟩
  | comparison value =>
    refine (settles_field rfl (by simp) hseen.comparison (judges_comparison hcontent depth) hbefore hafter
      hrest).imp ?_
    rintro _ ⟨_, rfl, rfl⟩
    exact ⟨hseen.fieldA.other (by simp), hseen.fieldB.other (by simp), .fill seen rfl rfl⟩
  | unknown k hk =>
    refine (settles_unknown rfl hk rfl hcontent hbefore hafter hrest).imp ?_
    rintro _ rfl
    simp only [fields, List.mem_cons, List.not_mem_nil, or_false, not_or] at hk
    exact ⟨hseen.fieldA.other hk.1, hseen.fieldB.other hk.2.1, hseen.comparison.other hk.2.2⟩

theorem concludes_finish {entries : List CriterionEntry} {draft : Criterion.Draft} (h : Gathered entries draft) :
    Concludes (Criterion.record.finish draft) (missingFields fields key entries)
      (Criterion.IsGiven entries) := by
  refine (concludes_requireField h.fieldA).bind ?_
  rintro fieldA ⟨_, hfieldA, rfl⟩
  refine (concludes_requireField h.fieldB).bind ?_
  rintro fieldB ⟨_, hfieldB, rfl⟩
  refine (concludes_requireField h.comparison).bind ?_
  rintro comparison ⟨_, hcomparison, rfl⟩
  exact ⟨_, rfl, hfieldA, hfieldB, hcomparison⟩

theorem judges_criterion {entries : List CriterionEntry} {text : List Char} (h : IsRecord key IsContent entries text)
    (depth : Nat) : Judges (Criterion.record.reader (depth + 1)) text (problems entries)
      (Criterion.IsGiven entries) :=
  judges_record h (extends_readMember depth) gathered_nil fun _ => concludes_finish

end CriterionEntry

theorem Criterion.IsGiven.unique {entries : List CriterionEntry} {first second : Criterion}
    (h : CriterionEntry.IsComplete entries) (hfirst : first.IsGiven entries) (hsecond : second.IsGiven entries) :
    first = second := by
  have hfieldA := h.eq_of_key hfirst.fieldA hsecond.fieldA (by simp) rfl
  have hfieldB := h.eq_of_key hfirst.fieldB hsecond.fieldB (by simp) rfl
  have hcomparison := h.eq_of_key hfirst.comparison hsecond.comparison (by simp) rfl
  cases first
  cases second
  cases hfieldA
  cases hfieldB
  cases hcomparison
  rfl

/-! ### Rules -/

@[simp]
def RuleEntry.fields : List String := ["kind_a", "kind_b", "relationship", "match_criteria"]

/-- An entry of a rule. Its unknown entries have any other key. -/
inductive RuleEntry
  | kindA (value : String)
  | kindB (value : String)
  | relationship (name : String)
  | criteria (objects : List (List CriterionEntry))
  | unknown (key : String) (isUnknown : key ∉ RuleEntry.fields)

/-- What the entries of a rule say. -/
structure Rule.IsGiven (entries : List RuleEntry) (rule : Rule) : Prop where
  kindA : .kindA rule.kindA ∈ entries
  kindB : .kindB rule.kindB ∈ entries
  relationship : .relationship rule.relationship.name ∈ entries
  criteria : ∃ objects, .criteria objects ∈ entries ∧ List.Forall₂ Criterion.IsGiven objects rule.criteria

namespace RuleEntry

@[simp]
def key : RuleEntry → String
  | .kindA _ => "kind_a"
  | .kindB _ => "kind_b"
  | .relationship _ => "relationship"
  | .criteria _ => "match_criteria"
  | .unknown key _ => key

/-- How the value of an entry is written. As in a criterion, the strings of fields have to denote Unicode texts
and values that are skipped need not. -/
def IsContent : RuleEntry → List Char → Prop
  | .kindA value, cs => IsLiteral cs value
  | .kindB value, cs => IsLiteral cs value
  | .relationship name, cs => IsLiteral cs name
  | .criteria objects, cs => IsArray (IsRecord CriterionEntry.key CriterionEntry.IsContent) objects cs
  | .unknown _ _, cs => IsValue cs

/-- Each field of a rule is given once, and each field of the criteria in it. -/
structure IsComplete (entries : List RuleEntry) : Prop where
  once : HasEachOnce fields key entries
  criteria : ∀ objects, .criteria objects ∈ entries → ∀ object ∈ objects, CriterionEntry.IsComplete object

/-- The problems inside the value of an entry. -/
def inner : RuleEntry → List Mismatch
  | .criteria objects => objects.flatMap CriterionEntry.problems
  | .kindA _ | .kindB _ | .relationship _ | .unknown _ _ => []

def problems (entries : List RuleEntry) : List Mismatch :=
  recordProblems fields key inner entries

theorem inner_eq_nil_iff {x : RuleEntry} : inner x = [] ↔
    ∀ objects, x = .criteria objects → ∀ object ∈ objects, CriterionEntry.IsComplete object := by
  cases x with
  | criteria objects =>
    rw [inner, List.flatMap_eq_nil_iff]
    simp only [CriterionEntry.problems_eq_nil_iff, criteria.injEq, forall_eq']
  | _ => exact iff_of_true rfl nofun

theorem problems_eq_nil_iff {entries : List RuleEntry} : problems entries = [] ↔ IsComplete entries := by
  rw [problems, recordProblems_eq_nil_iff]
  constructor
  · rintro ⟨honce, hinner⟩
    exact ⟨honce, fun objects hmem => inner_eq_nil_iff.1 (hinner _ hmem) objects rfl⟩
  · rintro ⟨honce, hcriteria⟩
    refine ⟨honce, fun x hx => inner_eq_nil_iff.2 ?_⟩
    rintro objects rfl
    exact hcriteria objects hx

/-- What the draft of a rule holds after some entries. -/
structure Gathered (seen : List RuleEntry) (draft : Rule.Draft) : Prop where
  kindA : IsFilled key "kind_a" (fun x value => x = .kindA value) seen draft.kindA
  kindB : IsFilled key "kind_b" (fun x value => x = .kindB value) seen draft.kindB
  relationship : IsFilled key "relationship" (fun x name => x = .relationship name) seen draft.relationship
  criteria : IsFilled key "match_criteria"
    (fun x criteria => ∃ objects, x = .criteria objects ∧ List.Forall₂ Criterion.IsGiven objects criteria) seen
    draft.criteria

theorem gathered_nil : Gathered [] Rule.record.start where
  kindA := List.not_mem_nil
  kindB := List.not_mem_nil
  relationship := List.not_mem_nil
  criteria := List.not_mem_nil

theorem extends_readMember (depth : Nat) : Extends (Rule.record.readMember (depth + 2)) key IsContent
    (entryProblems fields key inner) Gathered := by
  intro seen draft x content before after rest hseen hcontent hbefore hafter hrest
  cases x with
  | kindA value =>
    have hread := judges_string hcontent (depth + 2)
    refine (settles_field rfl (by simp) hseen.kindA hread hbefore hafter hrest).imp ?_
    rintro _ ⟨_, rfl, rfl⟩
    exact ⟨.fill seen rfl rfl, hseen.kindB.other (by simp), hseen.relationship.other (by simp),
      hseen.criteria.other (by simp)⟩
  | kindB value =>
    have hread := judges_string hcontent (depth + 2)
    refine (settles_field rfl (by simp) hseen.kindB hread hbefore hafter hrest).imp ?_
    rintro _ ⟨_, rfl, rfl⟩
    exact ⟨hseen.kindA.other (by simp), .fill seen rfl rfl, hseen.relationship.other (by simp),
      hseen.criteria.other (by simp)⟩
  | relationship name =>
    have hread := judges_string hcontent (depth + 2)
    refine (settles_field rfl (by simp) hseen.relationship hread hbefore hafter hrest).imp ?_
    rintro _ ⟨_, rfl, rfl⟩
    exact ⟨hseen.kindA.other (by simp), hseen.kindB.other (by simp), .fill seen rfl rfl,
      hseen.criteria.other (by simp)⟩
  | criteria objects =>
    have hread : Judges (listReader Criterion.record.reader (depth + 2)) content (inner (.criteria objects))
        (List.Forall₂ Criterion.IsGiven objects) :=
      judges_array hcontent fun _ _ _ hobject => CriterionEntry.judges_criterion hobject depth
    refine (settles_field rfl (by simp) hseen.criteria hread hbefore hafter hrest).imp ?_
    rintro _ ⟨criteria, hcriteria, rfl⟩
    exact ⟨hseen.kindA.other (by simp), hseen.kindB.other (by simp), hseen.relationship.other (by simp),
      .fill seen rfl ⟨objects, rfl, hcriteria⟩⟩
  | unknown k hk =>
    refine (settles_unknown rfl hk rfl hcontent hbefore hafter hrest).imp ?_
    rintro _ rfl
    simp only [fields, List.mem_cons, List.not_mem_nil, or_false, not_or] at hk
    obtain ⟨hkindA, hkindB, hrelationship, hcriteria⟩ := hk
    exact ⟨hseen.kindA.other hkindA, hseen.kindB.other hkindB, hseen.relationship.other hrelationship,
      hseen.criteria.other hcriteria⟩

theorem concludes_finish {entries : List RuleEntry} {draft : Rule.Draft} (h : Gathered entries draft) :
    Concludes (Rule.record.finish draft) (missingFields fields key entries) (Rule.IsGiven entries) := by
  refine (concludes_requireField h.kindA).bind ?_
  rintro kindA ⟨_, hkindA, rfl⟩
  refine (concludes_requireField h.kindB).bind ?_
  rintro kindB ⟨_, hkindB, rfl⟩
  refine (concludes_requireField h.relationship).bind ?_
  rintro relationship ⟨_, hrelationship, rfl⟩
  refine (concludes_requireField h.criteria).bind ?_
  rintro criteria ⟨_, hmem, objects, rfl, hcriteria⟩
  exact ⟨_, rfl, hkindA, hkindB, hrelationship, objects, hmem, hcriteria⟩

theorem judges_rule {entries : List RuleEntry} {text : List Char} (h : IsRecord key IsContent entries text)
    (depth : Nat) : Judges (Rule.record.reader (depth + 3)) text (problems entries) (Rule.IsGiven entries) :=
  judges_record h (extends_readMember depth) gathered_nil fun _ => concludes_finish

end RuleEntry

theorem Rule.IsGiven.unique {entries : List RuleEntry} {first second : Rule} (h : RuleEntry.IsComplete entries)
    (hfirst : first.IsGiven entries) (hsecond : second.IsGiven entries) : first = second := by
  have hkindA := h.once.eq_of_key hfirst.kindA hsecond.kindA (by simp) rfl
  have hkindB := h.once.eq_of_key hfirst.kindB hsecond.kindB (by simp) rfl
  have hrelationship := h.once.eq_of_key hfirst.relationship hsecond.relationship (by simp) rfl
  obtain ⟨objects, hobjects, hcriteria⟩ := hfirst.criteria
  obtain ⟨objects', hobjects', hcriteria'⟩ := hsecond.criteria
  obtain rfl : objects = objects' := RuleEntry.criteria.inj (h.once.eq_of_key hobjects hobjects' (by simp) rfl)
  have hcriteria := eq_of_forall₂ (fun _ _ _ => Criterion.IsGiven.unique) (h.criteria objects hobjects) hcriteria
    hcriteria'
  obtain ⟨kindA, kindB, ⟨relationship⟩, criteria⟩ := first
  obtain ⟨kindA', kindB', ⟨relationship'⟩, criteria'⟩ := second
  cases hkindA
  cases hkindB
  cases hrelationship
  cases hcriteria
  rfl

/-! ### Files -/

/-- The rules of a file, each with its entries as they come. -/
abbrev RuleFile := List (List RuleEntry)

namespace RuleFile

/-- The text is an array of objects with these entries. All keys have to denote Unicode texts, those of unknown
entries too, and so do the strings of fields; the values of unknown entries need not. -/
def IsText (file : RuleFile) (text : String) : Prop :=
  ∃ before body after, IsGap before ∧ IsGap after ∧ text.toList = before ++ (body ++ after) ∧
    IsArray (IsRecord RuleEntry.key RuleEntry.IsContent) file body

/-- Each field of each rule, and of each criterion in it, is given once. -/
def IsComplete (file : RuleFile) : Prop :=
  ∀ entries ∈ file, RuleEntry.IsComplete entries

/-- The duplicate and the missing fields, in the order in which a reader of the file comes to them. -/
def problems (file : RuleFile) : List Mismatch :=
  file.flatMap RuleEntry.problems

theorem problems_eq_nil_iff {file : RuleFile} : file.problems = [] ↔ file.IsComplete := by
  rw [problems, List.flatMap_eq_nil_iff, IsComplete]
  exact forall₂_congr fun _ _ => RuleEntry.problems_eq_nil_iff

end RuleFile

/-- What the entries of a file say. -/
def RuleTable.IsGiven (file : RuleFile) (table : RuleTable) : Prop :=
  List.Forall₂ Rule.IsGiven file table.rules

theorem RuleTable.IsGiven.unique {file : RuleFile} {first second : RuleTable} (h : file.IsComplete)
    (hfirst : first.IsGiven file) (hsecond : second.IsGiven file) : first = second := by
  have hrules : first.rules = second.rules := eq_of_forall₂ (fun _ _ _ => Rule.IsGiven.unique) h hfirst hsecond
  cases first
  cases second
  exact congrArg RuleTable.mk hrules

theorem RuleTable.concludes_ofText? {file : RuleFile} {text : String} (h : file.IsText text) :
    Concludes (RuleTable.ofText? text) (file.problems.map .mismatched) (RuleTable.IsGiven file) := by
  obtain ⟨before, body, after, hbefore, hafter, htext, hbody⟩ := h
  have hrules : Judges (listReader Rule.record.reader nestingLimit) body file.problems
      (List.Forall₂ Rule.IsGiven file) :=
    judges_array hbody fun _ _ _ hentries => RuleEntry.judges_rule hentries 123
  exact concludes_readText (hrules.map fun _ hgiven => hgiven) htext hbefore hafter

/-- A rule file is loaded exactly if each field of each rule and criterion in it is given once, and as it is given.
If not, it is refused with the first problem in it. -/
theorem RuleTable.ofText?_ruleFile {file : RuleFile} {text : String} (h : file.IsText text) :
    (∀ table, RuleTable.ofText? text = .ok table ↔ file.IsComplete ∧ table.IsGiven file) ∧
      (file.IsComplete → ∃ table, RuleTable.ofText? text = .ok table) ∧
      (¬ file.IsComplete → ∃ first others, file.problems = first :: others ∧
        RuleTable.ofText? text = .error (.mismatched first)) := by
  have hread := RuleTable.concludes_ofText? h
  by_cases hcomplete : file.IsComplete
  · rw [RuleFile.problems_eq_nil_iff.2 hcomplete] at hread
    obtain ⟨table, htable, hgiven⟩ := hread
    refine ⟨fun other => ⟨fun hother => ?_, fun hother => ?_⟩, fun _ => ⟨table, htable⟩,
      fun hnot => absurd hcomplete hnot⟩
    · obtain rfl : table = other := Except.ok.inj (htable.symm.trans hother)
      exact ⟨hcomplete, hgiven⟩
    · rw [hother.2.unique hcomplete hgiven]
      exact htable
  · obtain ⟨first, others, hproblems⟩ := List.exists_cons_of_ne_nil (mt RuleFile.problems_eq_nil_iff.1 hcomplete)
    rw [hproblems] at hread
    refine ⟨fun table => ⟨fun htable => ?_, fun htable => absurd htable.1 hcomplete⟩,
      fun hcomplete' => absurd hcomplete' hcomplete, fun _ => ⟨first, others, hproblems, hread⟩⟩
    cases htable.symm.trans hread

/-- A rule that gives one field twice lacks the others too, but its second key comes first. -/
theorem RuleTable.ofText?_ruleFile_kindTwice :
    RuleFile.IsText [[.kindA "", .kindA "b"]] "[\x7b\"kind_a\":\"\",\"kind_a\":\"b\"\x7d]" ∧
      RuleTable.ofText? "[\x7b\"kind_a\":\"\",\"kind_a\":\"b\"\x7d]" =
        .error (.mismatched (.duplicateField "kind_a")) := by
  have hkey := isLiteral_plain "kind_a" (by simp [IsPlain])
  have hfirst := isLiteral_plain "" (by simp [IsPlain])
  have hsecond := isLiteral_plain "b" (by simp [IsPlain])
  have htext : RuleFile.IsText [[.kindA "", .kindA "b"]] "[\x7b\"kind_a\":\"\",\"kind_a\":\"b\"\x7d]" := by
    refine ⟨[], _, [], isGap_nil, isGap_nil, ?_, .brackets (.last isGap_nil (.braces (.cons isGap_nil
      (.colon hkey isGap_nil isGap_nil hfirst) isGap_nil (.last isGap_nil
        (.colon hkey isGap_nil isGap_nil hsecond) isGap_nil))) isGap_nil)⟩
    rfl
  have hproblems : RuleFile.problems [[.kindA "", .kindA "b"]] = [.duplicateField "kind_a",
      .missingField "kind_b", .missingField "relationship", .missingField "match_criteria"] := rfl
  have hincomplete : ¬ RuleFile.IsComplete [[.kindA "", .kindA "b"]] := by
    rw [← RuleFile.problems_eq_nil_iff, hproblems]
    exact List.cons_ne_nil _ _
  obtain ⟨first, others, hcons, hread⟩ := (RuleTable.ofText?_ruleFile htext).2.2 hincomplete
  cases hproblems.symm.trans hcons
  exact ⟨htext, hread⟩

end ResourceGraph
