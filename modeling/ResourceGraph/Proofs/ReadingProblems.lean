import Mathlib.Data.List.Forall2
import ResourceGraph.Proofs.SkippedJson

/-!
# Reading up to the first problem

`Settles parsed rest problems Good` says of an outcome of reading that it is the first of the listed problems or,
if there are none, a value that is `Good`. The lists add up when one reader goes on behind another
(`Settles.andThen`), so an array has the problems of its elements, and a record has for each entry a complaint if
its key came before, the problems of its value, and at the end the fields that are missing
(`judges_array`, `judges_record`).
-/

namespace ResourceGraph.Json

open Parsed (mismatched)

variable {α β ι σ : Type}

/-- Reading stops with the first problem. If there is none, it gives a good value and leaves `rest`. -/
def Settles (parsed : Parsed α) (rest : List Char) (problems : List Mismatch) (Good : α → Prop) : Prop :=
  match problems with
  | [] => ∃ value, parsed = .ok value rest ∧ Good value
  | first :: _ => parsed = mismatched first

namespace Settles
variable {parsed : Parsed α} {mid rest : List Char} {problems later : List Mismatch} {Good : α → Prop}
  {Better : β → Prop}

theorem andThen {next : α → List Char → Parsed β} (h : Settles parsed mid problems Good)
    (hnext : ∀ value, Good value → Settles (next value mid) rest later Better) :
    Settles (parsed.andThen next) rest (problems ++ later) Better := by
  cases problems with
  | nil =>
    obtain ⟨value, rfl, hgood⟩ := h
    exact hnext value hgood
  | cons first others =>
    obtain rfl : parsed = mismatched first := h
    rfl

theorem map {f : α → β} (h : Settles parsed rest problems Good) (hf : ∀ value, Good value → Better (f value)) :
    Settles (parsed.map f) rest problems Better := by
  cases problems with
  | nil =>
    obtain ⟨value, rfl, hgood⟩ := h
    exact ⟨f value, rfl, hf value hgood⟩
  | cons first others =>
    obtain rfl : parsed = mismatched first := h
    rfl

theorem imp {Good' : α → Prop} (h : Settles parsed rest problems Good) (hgood : ∀ value, Good value → Good' value) :
    Settles parsed rest problems Good' := by
  cases problems with
  | nil =>
    obtain ⟨value, hparsed, hvalue⟩ := h
    exact ⟨value, hparsed, hgood value hvalue⟩
  | cons first others => exact h

end Settles

/-- The text of a value, read with any white space in front and whatever may follow it. -/
structure Judges (read : List Char → Parsed α) (text : List Char) (problems : List Mismatch)
    (Good : α → Prop) : Prop where
  opens : OpensPart text
  settles : ∀ gap rest, IsGap gap → EndsValue rest → Settles (read (gap ++ (text ++ rest))) rest problems Good

theorem Judges.map {read : List Char → Parsed α} {text : List Char} {problems : List Mismatch} {Good : α → Prop}
    {Better : β → Prop} {f : α → β} (h : Judges read text problems Good)
    (hf : ∀ value, Good value → Better (f value)) :
    Judges (fun cs => (read cs).map f) text problems Better where
  opens := h.opens
  settles gap rest hgap hrest := (h.settles gap rest hgap hrest).map hf

/-! ### Strings and variants -/

theorem judges_string {text : List Char} {s : String} (h : IsLiteral text s) (depth : Nat) :
    Judges (stringReader depth) text [] (· = s) where
  opens := h.opensPart
  settles gap rest hgap _ := by
    obtain ⟨body, rfl, hread⟩ := h.exists_readString
    refine ⟨s, ?_, rfl⟩
    rw [List.cons_append, stringReader, skipBlank_gap_cons hgap rfl]
    exact hread rest

theorem judges_variant {variants : List (Variant α)} {variant : Variant α} {name : String} {value : α}
    (hfind : variants.find? (·.name == name) = some variant) (hbare : variant.bare = .ok value) {text : List Char}
    (h : IsLiteral text name) (depth : Nat) : Judges (variantReader variants depth) text [] (· = value) where
  opens := h.opensPart
  settles gap rest hgap _ := by
    obtain ⟨body, rfl, hread⟩ := h.exists_readString
    refine ⟨value, ?_, rfl⟩
    rw [List.cons_append, variantReader, skipBlank_gap_cons hgap rfl]
    simp only [hread, Parsed.andThen_ok, findVariant, hfind, hbare]

/-! ### Arrays -/

section
variable {IsPart : ι → List Char → Prop} {xs : List ι} {inner : List Char}

variable {item : List Char → Parsed α} {problems : ι → List Mismatch} {Good : ι → α → Prop}

theorem settles_readItems (h : IsSeparated IsPart xs inner) (hne : xs ≠ [])
    (hparts : ∀ x ∈ xs, ∀ part, IsPart x part → Judges item part (problems x) (Good x)) (rest : List Char)
    (bound : Nat) (hbound : xs.length ≤ bound) :
    Settles (readItems item bound (inner ++ ']' :: rest)) rest (xs.flatMap problems) (List.Forall₂ Good xs) := by
  induction h generalizing bound with
  | nil => exact absurd rfl hne
  | @last x before part after hbefore hpart hafter =>
    obtain ⟨bound, rfl⟩ := Nat.exists_eq_add_one_of_ne_zero (Nat.ne_of_gt hbound)
    have hitem := (hparts x (List.mem_cons_self ..) part hpart).settles before _ hbefore
      (endsValue_behind (c := ']') hafter (by decide) rest)
    rw [List.append_assoc, List.append_assoc, readItems, List.flatMap_cons]
    refine hitem.andThen fun value hvalue => ?_
    rw [skipBlank_gap_cons hafter rfl]
    exact ⟨[value], rfl, .cons hvalue .nil⟩
  | @cons x y xs before part after more hbefore hpart hafter _ ih =>
    obtain ⟨bound, rfl⟩ := Nat.exists_eq_add_one_of_ne_zero (Nat.ne_of_gt (Nat.zero_lt_of_lt hbound))
    have hitem := (hparts x (List.mem_cons_self ..) part hpart).settles before _ hbefore
      (endsValue_behind (c := ',') hafter (by decide) (more ++ ']' :: rest))
    rw [List.forall_mem_cons] at hparts
    have hmore := ih (List.cons_ne_nil y xs) hparts.2 bound (Nat.le_of_succ_le_succ hbound)
    simp only [List.append_assoc, List.cons_append]
    rw [readItems, List.flatMap_cons]
    refine hitem.andThen fun value hvalue => ?_
    rw [skipBlank_gap_cons hafter rfl]
    exact hmore.map fun values hvalues => .cons hvalue hvalues

theorem settles_readArray (h : IsSeparated IsPart xs inner)
    (hparts : ∀ x ∈ xs, ∀ part, IsPart x part → Judges item part (problems x) (Good x)) (rest : List Char) :
    Settles (readArray item (inner ++ ']' :: rest)) rest (xs.flatMap problems) (List.Forall₂ Good xs) := by
  by_cases hne : xs = []
  · subst hne
    cases h with
    | nil hinner =>
      rw [readArray, skipBlank_gap_cons hinner rfl]
      exact ⟨[], rfl, .nil⟩
  · obtain ⟨c, tail, hseparated, hc, hskip⟩ := h.exists_skipBlank hne fun x hx part hpart =>
      (hparts x hx part hpart).opens
    have hlength := hseparated.length_le
    rw [readArray_of_skipBlank (hskip _) hc.1]
    refine settles_readItems hseparated hne hparts rest _ ?_
    simp only [List.length_append, List.length_cons] at hlength ⊢
    omega

end

theorem judges_array {reader : Reader α} {depth : Nat} {IsPart : ι → List Char → Prop}
    {problems : ι → List Mismatch} {Good : ι → α → Prop} {xs : List ι} {text : List Char}
    (h : IsArray IsPart xs text)
    (hparts : ∀ x ∈ xs, ∀ part, IsPart x part → Judges (reader depth) part (problems x) (Good x)) :
    Judges (listReader reader (depth + 1)) text (xs.flatMap problems) (List.Forall₂ Good xs) where
  opens := h.opensPart
  settles gap rest hgap _ := by
    obtain ⟨hinner⟩ := h
    have harray := settles_readArray hinner hparts rest
    simp only [List.cons_append, List.append_assoc, List.nil_append]
    rw [listReader, skipBlank_gap_cons hgap rfl]
    exact harray

/-! ### Objects -/

/-- The problems of entries, each of which may depend on those seen before it. -/
def problemsAlong (problems : List ι → ι → List Mismatch) : List ι → List ι → List Mismatch
  | _, [] => []
  | seen, x :: xs => problems seen x ++ problemsAlong problems (seen ++ [x]) xs

section
variable {key : ι → String} {IsContent : ι → List Char → Prop} {xs : List ι} {inner : List Char}

/-- A key in quotes, and behind a colon the content that belongs to it. -/
abbrev IsEntry (key : ι → String) (IsContent : ι → List Char → Prop) : ι → List Char → Prop :=
  IsMember (fun x cs => IsLiteral cs (key x)) IsContent

/-- An object with these entries. -/
abbrev IsRecord (key : ι → String) (IsContent : ι → List Char → Prop) : List ι → List Char → Prop :=
  IsObject (fun x cs => IsLiteral cs (key x)) IsContent

theorem readKey_literal {gap literal : List Char} {s : String} (hgap : IsGap gap) (h : IsLiteral literal s)
    (rest : List Char) : readKey (gap ++ (literal ++ rest)) = .ok s rest := by
  obtain ⟨body, rfl, hread⟩ := h.exists_readString
  rw [List.cons_append, readKey, skipBlank_gap_cons hgap rfl]
  exact hread rest

theorem readColon_gap {gap : List Char} (hgap : IsGap gap) (rest : List Char) :
    readColon (gap ++ ':' :: rest) = .ok () rest := by
  rw [readColon, skipBlank_gap_cons hgap rfl]
  rfl

variable {member : σ → String → List Char → Parsed σ} {problems : List ι → ι → List Mismatch}
  {Inv : List ι → σ → Prop}

/-- Behind the key of an entry, what was gathered from the entries seen is extended by the entry. -/
def Extends (member : σ → String → List Char → Parsed σ) (key : ι → String) (IsContent : ι → List Char → Prop)
    (problems : List ι → ι → List Mismatch) (Inv : List ι → σ → Prop) : Prop :=
  ∀ seen gathered x content before after rest, Inv seen gathered → IsContent x content → IsGap before →
    IsGap after → EndsValue rest →
    Settles (member gathered (key x) (before ++ ':' :: (after ++ (content ++ rest)))) rest (problems seen x)
      (Inv (seen ++ [x]))

theorem settles_readMembers (hmember : Extends member key IsContent problems Inv)
    (h : IsSeparated (IsEntry key IsContent) xs inner) (hne : xs ≠ []) (rest : List Char) {seen : List ι}
    {gathered : σ} (hgathered : Inv seen gathered) (bound : Nat) (hbound : xs.length ≤ bound) :
    Settles (readMembers member bound gathered (inner ++ '\x7d' :: rest)) rest (problemsAlong problems seen xs)
      (Inv (seen ++ xs)) := by
  -- each entry moves on what was seen and what was gathered, so both vary along the induction
  induction h generalizing bound seen gathered with
  | nil => exact absurd rfl hne
  | @last x gap part after hgap hpart hafter =>
    obtain ⟨bound, rfl⟩ := Nat.exists_eq_add_one_of_ne_zero (Nat.ne_of_gt hbound)
    obtain @⟨literal, before, behind, content, hliteral, hbefore, hbehind, hcontent⟩ := hpart
    have hentry := hmember seen gathered x content before behind _ hgathered hcontent hbefore hbehind
      (endsValue_behind (c := '\x7d') hafter (by decide) rest)
    simp only [List.append_assoc, List.cons_append]
    rw [readMembers, readKey_literal hgap hliteral, Parsed.andThen_ok, problemsAlong]
    refine hentry.andThen fun next hnext => ?_
    rw [skipBlank_gap_cons hafter rfl]
    exact ⟨next, rfl, hnext⟩
  | @cons x y xs gap part after more hgap hpart hafter _ ih =>
    obtain ⟨bound, rfl⟩ := Nat.exists_eq_add_one_of_ne_zero (Nat.ne_of_gt (Nat.zero_lt_of_lt hbound))
    obtain @⟨literal, before, behind, content, hliteral, hbefore, hbehind, hcontent⟩ := hpart
    have hentry := hmember seen gathered x content before behind _ hgathered hcontent hbefore hbehind
      (endsValue_behind (c := ',') hafter (by decide) (more ++ '\x7d' :: rest))
    simp only [List.append_assoc, List.cons_append]
    rw [readMembers, readKey_literal hgap hliteral, Parsed.andThen_ok, problemsAlong]
    refine hentry.andThen fun next hnext => ?_
    have hmore := ih (List.cons_ne_nil y xs) hnext bound (Nat.le_of_succ_le_succ hbound)
    rw [List.append_assoc] at hmore
    rw [skipBlank_gap_cons hafter rfl]
    exact hmore

theorem settles_readObject (hmember : Extends member key IsContent problems Inv)
    (h : IsSeparated (IsEntry key IsContent) xs inner) {start : σ} (hstart : Inv [] start) (rest : List Char) :
    Settles (readObject member start (inner ++ '\x7d' :: rest)) rest (problemsAlong problems [] xs) (Inv xs) := by
  by_cases hne : xs = []
  · subst hne
    cases h with
    | nil hinner =>
      rw [readObject, skipBlank_gap_cons hinner rfl]
      exact ⟨start, rfl, hstart⟩
  · obtain ⟨c, tail, hseparated, hc, hskip⟩ := h.exists_skipBlank hne fun x _ part hpart =>
      hpart.opensPart fun _ hliteral => hliteral.opensPart
    have hlength := hseparated.length_le
    rw [readObject_of_skipBlank (hskip _) hc.2]
    refine settles_readMembers hmember hseparated hne rest hstart _ ?_
    simp only [List.length_append, List.length_cons] at hlength ⊢
    omega

end

/-! ### Records -/

/-- The problems of an entry: its key has come before, or its value has problems. -/
def entryProblems (fields : List String) (key : ι → String) (inner : ι → List Mismatch) (seen : List ι) (x : ι) :
    List Mismatch :=
  (if key x ∈ fields ∧ key x ∈ seen.map key then [.duplicateField (key x)] else []) ++ inner x

/-- The fields that no entry has as its key, in the order of the fields. -/
def missingFields (fields : List String) (key : ι → String) (xs : List ι) : List Mismatch :=
  fields.flatMap fun field => if field ∈ xs.map key then [] else [.missingField field]

/-- The problems of a record in the order in which a reader comes to them: those of the entries one after the
other, then at the closing brace the missing fields. -/
def recordProblems (fields : List String) (key : ι → String) (inner : ι → List Mismatch) (xs : List ι) :
    List Mismatch :=
  problemsAlong (entryProblems fields key inner) [] xs ++ missingFields fields key xs

/-- Every field is the key of one entry and no more. -/
def HasEachOnce (fields : List String) (key : ι → String) (xs : List ι) : Prop :=
  ∀ field ∈ fields, (xs.map key).count field = 1

section
variable {fields : List String} {key : ι → String} {inner : ι → List Mismatch}

/-- Then no two entries give the same field. -/
theorem HasEachOnce.eq_of_key {xs : List ι} (h : HasEachOnce fields key xs) {x y : ι} (hx : x ∈ xs) (hy : y ∈ xs)
    (hfield : key x ∈ fields) (hkey : key x = key y) : x = y := by
  have hcount := h (key x) hfield
  rw [List.count, List.countP_map, List.countP_eq_length_filter, List.length_eq_one_iff] at hcount
  obtain ⟨z, hz⟩ := hcount
  have honly : ∀ w ∈ xs, key w = key x → w = z := by
    intro w hw heq
    refine List.mem_singleton.1 ?_
    rw [← hz]
    exact List.mem_filter.2 ⟨hw, beq_iff_eq.2 heq⟩
  rw [honly x hx rfl, honly y hy hkey.symm]

theorem entryProblems_eq_nil_iff {seen : List ι} {x : ι} : entryProblems fields key inner seen x = [] ↔
    (key x ∈ fields → key x ∉ seen.map key) ∧ inner x = [] := by
  rw [entryProblems, List.append_eq_nil_iff]
  split_ifs with h
  · exact iff_of_false (fun hnil => by cases hnil.1) fun hnot => hnot.1 h.1 h.2
  · exact and_congr_left fun _ => iff_of_true rfl fun hfield hseen => h ⟨hfield, hseen⟩

/-- There is no problem along the entries exactly if no field comes twice, in what was seen or in the entries. -/
theorem problemsAlong_eq_nil_iff {seen xs : List ι} : problemsAlong (entryProblems fields key inner) seen xs = [] ↔
    (∀ field ∈ fields, (xs.map key).count field ≤ 1 ∧ (field ∈ seen.map key → field ∉ xs.map key)) ∧
      ∀ x ∈ xs, inner x = [] := by
  induction xs generalizing seen with
  | nil => simp [problemsAlong]
  | cons x xs ih =>
    rw [problemsAlong, List.append_eq_nil_iff, entryProblems_eq_nil_iff, ih, List.forall_mem_cons]
    simp only [List.map_cons, List.map_append, List.map_nil, List.mem_append, List.mem_cons, List.not_mem_nil,
      or_false]
    constructor
    · rintro ⟨⟨hx, hinner⟩, hxs, hall⟩
      refine ⟨fun field hfield => ?_, hinner, hall⟩
      obtain ⟨honce, hseen⟩ := hxs field hfield
      by_cases hkey : key x = field
      · subst hkey
        rw [List.count_cons_self, List.count_eq_zero_of_not_mem (hseen (.inr rfl))]
        exact ⟨Nat.le_refl 1, fun hmem => absurd hmem (hx hfield)⟩
      · rw [List.count_cons_of_ne hkey]
        refine ⟨honce, fun hmem => ?_⟩
        rintro (rfl | hmem')
        · exact hkey rfl
        · exact hseen (.inl hmem) hmem'
    · rintro ⟨hfields, hinner, hall⟩
      refine ⟨⟨fun hfield hseen => (hfields _ hfield).2 hseen (.inl rfl), hinner⟩, fun field hfield => ?_, hall⟩
      obtain ⟨honce, hseen⟩ := hfields field hfield
      by_cases hkey : key x = field
      · subst hkey
        rw [List.count_cons_self] at honce
        have hzero : (xs.map key).count (key x) = 0 := by omega
        exact ⟨by omega, fun _ => List.count_eq_zero.1 hzero⟩
      · rw [List.count_cons_of_ne hkey] at honce
        refine ⟨honce, ?_⟩
        rintro (hmem | rfl)
        · exact fun hmem' => hseen hmem (.inr hmem')
        · exact absurd rfl hkey

theorem missingFields_eq_nil_iff {xs : List ι} :
    missingFields fields key xs = [] ↔ ∀ field ∈ fields, field ∈ xs.map key := by
  rw [missingFields, List.flatMap_eq_nil_iff]
  refine forall₂_congr fun field _ => ?_
  by_cases h : field ∈ xs.map key
  · rw [if_pos h]
    exact iff_of_true rfl h
  · rw [if_neg h]
    exact iff_of_false (List.cons_ne_nil _ _) h

theorem recordProblems_eq_nil_iff {xs : List ι} : recordProblems fields key inner xs = [] ↔
    HasEachOnce fields key xs ∧ ∀ x ∈ xs, inner x = [] := by
  rw [recordProblems, List.append_eq_nil_iff, problemsAlong_eq_nil_iff, missingFields_eq_nil_iff]
  constructor
  · rintro ⟨⟨honce, hinner⟩, hmissing⟩
    refine ⟨fun field hfield => ?_, hinner⟩
    have hpos := List.count_pos_iff.2 (hmissing field hfield)
    have hle := (honce field hfield).1
    omega
  · rintro ⟨honce, hinner⟩
    refine ⟨⟨fun field hfield => ⟨(honce field hfield).le, fun hseen => ?_⟩, hinner⟩, fun field hfield => ?_⟩
    · cases hseen
    · exact List.count_pos_iff.1 (by rw [honce field hfield]; exact Nat.one_pos)

end

/-! ### Drafts -/

/-- What a draft holds of a field: nothing while no entry has it as its key, then a value that one such entry
gives. -/
def IsFilled (key : ι → String) (field : String) (Gives : ι → α → Prop) (seen : List ι) : Option α → Prop
  | none => field ∉ seen.map key
  | some value => ∃ x ∈ seen, key x = field ∧ Gives x value

namespace IsFilled
variable {key : ι → String} {field : String} {Gives : ι → α → Prop} {seen : List ι} {slot : Option α} {x : ι}

theorem isSome_iff (h : IsFilled key field Gives seen slot) : slot.isSome ↔ field ∈ seen.map key := by
  cases slot with
  | none => exact iff_of_false Bool.false_ne_true h
  | some value =>
    obtain ⟨x, hx, hkey, -⟩ := h
    exact iff_of_true rfl (List.mem_map.2 ⟨x, hx, hkey⟩)

theorem other (h : IsFilled key field Gives seen slot) (hx : key x ≠ field) :
    IsFilled key field Gives (seen ++ [x]) slot := by
  cases slot with
  | none =>
    show field ∉ (seen ++ [x]).map key
    rw [List.map_append, List.mem_append, not_or]
    exact ⟨h, fun hmem => hx (List.mem_singleton.1 hmem).symm⟩
  | some value =>
    obtain ⟨y, hy, hkey, hgives⟩ := h
    exact ⟨y, List.mem_append_left [x] hy, hkey, hgives⟩

theorem fill (seen : List ι) {value : α} (hkey : key x = field) (hgives : Gives x value) :
    IsFilled key field Gives (seen ++ [x]) (some value) :=
  ⟨x, List.mem_append_right seen (List.mem_singleton_self x), hkey, hgives⟩

end IsFilled

/-- The outcome is the first problem or, if there is none, a good value. -/
def Concludes {ε : Type} (outcome : Except ε α) (problems : List ε) (Good : α → Prop) : Prop :=
  match problems with
  | [] => ∃ value, outcome = .ok value ∧ Good value
  | first :: _ => outcome = .error first

theorem Concludes.bind {ε : Type} {outcome : Except ε α} {problems later : List ε} {Good : α → Prop}
    {Better : β → Prop} {next : α → Except ε β} (h : Concludes outcome problems Good)
    (hnext : ∀ value, Good value → Concludes (next value) later Better) :
    Concludes (outcome >>= next) (problems ++ later) Better := by
  cases problems with
  | nil =>
    obtain ⟨value, rfl, hgood⟩ := h
    exact hnext value hgood
  | cons first others =>
    obtain rfl : outcome = .error first := h
    rfl

theorem concludes_requireField {key : ι → String} {field : String} {Gives : ι → α → Prop} {xs : List ι}
    {slot : Option α} (h : IsFilled key field Gives xs slot) :
    Concludes (requireField field slot) (if field ∈ xs.map key then [] else [.missingField field])
      fun value => ∃ x ∈ xs, Gives x value := by
  have hsome := h.isSome_iff
  cases slot with
  | none =>
    rw [if_neg (fun hmem => Bool.false_ne_true (hsome.2 hmem))]
    rfl
  | some value =>
    rw [if_pos (hsome.1 rfl)]
    obtain ⟨x, hx, -, hgives⟩ := h
    exact ⟨value, rfl, x, hx, hgives⟩

/-- A text with one value in it, and white space around that. -/
theorem concludes_readText {reader : Reader α} {body before after : List Char} {text : String}
    {problems : List Mismatch} {Good : α → Prop} (h : Judges (reader nestingLimit) body problems Good)
    (htext : text.toList = before ++ (body ++ after)) (hbefore : IsGap before) (hafter : IsGap after) :
    Concludes (readText reader text) (problems.map .mismatched) Good := by
  have hend := endsValue_gap_append hafter endsValue_nil
  have hblank := skipBlank_append hafter []
  rw [List.append_nil] at hend hblank
  have hread := h.settles before after hbefore hend
  rw [readText, htext]
  cases problems with
  | nil =>
    obtain ⟨value, hvalue, hgood⟩ := hread
    refine ⟨value, ?_, hgood⟩
    rw [hvalue]
    simp only [hblank]
    rfl
  | cons first others =>
    have hfirst : reader nestingLimit (before ++ (body ++ after)) = mismatched first := hread
    rw [hfirst]
    rfl

/-! ### Reading a record -/

section
variable {ρ : Type} {record : Record ρ α} {depth : Nat} {fields : List String} {key : ι → String}
  {inner : ι → List Mismatch}

/-- The entry of a field is read into the draft, unless the field has come before. -/
theorem settles_field {x : ι} {get : ρ → Option β} {set : ρ → β → ρ} {reader : Reader β}
    (hfind : record.fields.find? (·.key == key x) = some (.of (key x) get set reader)) (hfield : key x ∈ fields)
    {seen : List ι} {draft : ρ} {Gives : ι → β → Prop} (hslot : IsFilled key (key x) Gives seen (get draft))
    {content : List Char} {Good : β → Prop} (hcontent : Judges (reader depth) content (inner x) Good)
    {before after rest : List Char} (hbefore : IsGap before) (hafter : IsGap after) (hrest : EndsValue rest) :
    Settles (record.readMember depth draft (key x) (before ++ ':' :: (after ++ (content ++ rest)))) rest
      (entryProblems fields key inner seen x) fun next => ∃ value, Good value ∧ next = set draft value := by
  have hisSet : (Field.of (key x) get set reader).isSet draft = (get draft).isSome := rfl
  simp only [Record.readMember, hfind, hisSet]
  by_cases hseen : key x ∈ seen.map key
  · rw [if_pos (hslot.isSome_iff.2 hseen), entryProblems, if_pos ⟨hfield, hseen⟩]
    rfl
  · rw [if_neg (mt hslot.isSome_iff.1 hseen), entryProblems, if_neg fun h => hseen h.2, List.nil_append,
      readColon_gap hbefore, Parsed.andThen_ok]
    exact (hcontent.settles after rest hafter hrest).map fun value hvalue => ⟨value, hvalue, rfl⟩

/-- An entry whose key is no field is skipped. -/
theorem settles_unknown {x : ι} (hfields : record.fields.map Field.key = fields) (hunknown : key x ∉ fields)
    (hinner : inner x = []) {seen : List ι} {draft : ρ} {content : List Char} (hcontent : IsValue content)
    {before after rest : List Char} (hbefore : IsGap before) (hafter : IsGap after) (hrest : EndsValue rest) :
    Settles (record.readMember depth draft (key x) (before ++ ':' :: (after ++ (content ++ rest)))) rest
      (entryProblems fields key inner seen x) (· = draft) := by
  have hfind : record.fields.find? (·.key == key x) = none := by
    refine List.find?_eq_none.2 fun field hmem heq => hunknown ?_
    rw [← hfields, ← eq_of_beq heq]
    exact List.mem_map_of_mem hmem
  simp only [Record.readMember, hfind]
  rw [entryProblems, if_neg fun h => hunknown h.1, hinner, readColon_gap hbefore, Parsed.andThen_ok,
    skipValue_append hafter hcontent hrest]
  exact ⟨draft, rfl, rfl⟩

theorem settles_complete {draft : ρ} {problems : List Mismatch} {Good : α → Prop}
    (h : Concludes (record.finish draft) problems Good) (rest : List Char) :
    Settles (record.complete draft rest) rest problems Good := by
  rw [Record.complete]
  cases problems with
  | nil =>
    obtain ⟨value, hfinish, hgood⟩ := h
    rw [hfinish]
    exact ⟨value, rfl, hgood⟩
  | cons first others =>
    have hfinish : record.finish draft = .error first := h
    rw [hfinish]
    rfl

/-- A record has the problems of its entries and of the fields that it lacks. -/
theorem judges_record {IsContent : ι → List Char → Prop} {xs : List ι} {text : List Char}
    (h : IsRecord key IsContent xs text) {Inv : List ι → ρ → Prop}
    (hmember : Extends (record.readMember depth) key IsContent (entryProblems fields key inner) Inv)
    (hstart : Inv [] record.start) {Good : α → Prop}
    (hfinish : ∀ draft, Inv xs draft → Concludes (record.finish draft) (missingFields fields key xs) Good) :
    Judges (record.reader (depth + 1)) text (recordProblems fields key inner xs) Good where
  opens := h.opensPart
  settles gap rest hgap _ := by
    obtain ⟨hinner⟩ := h
    have hread := settles_readObject hmember hinner hstart rest
    simp only [List.cons_append, List.append_assoc, List.nil_append]
    rw [Record.reader, skipBlank_gap_cons hgap rfl]
    exact hread.andThen fun draft hdraft => settles_complete (hfinish draft hdraft) rest

end

end ResourceGraph.Json
