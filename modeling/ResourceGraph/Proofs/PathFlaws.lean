import Mathlib.Data.List.DropRight
import ResourceGraph.Proofs.PathGrammar

/-!
# What is wrong with a path

A flaw is a place of a body where something is wrong, whatever stands in the other parts (`IsFlawAt`), and an
expression that is no path is blamed on its first flaw (`parse_eq_error_iff`). The defect that is reported is not
always the defect that is there: text behind a bracket is taken for a bracket that is not closed, unless a bracket
closes somewhere behind that text in the same part (`Defect.reported`).

No flaw stands in a key or in brackets that denote positions (`not_isFlaw_of_lt`), so the first one is where parsing
stops.
-/

namespace ResourceGraph.FieldPath

/-! ### Flaws -/

/-- The text ends with a pair of brackets. -/
inductive EndsClosed : List Char → Prop
  | closed {before content : List Char} : ']' ∉ content → EndsClosed (before ++ '[' :: (content ++ [']']))

/-- What is wrong at a place of a part, between the text in front of it and the text from there on. Where a part
begins with a bracket, it is the key that is missing, whatever the bracket holds. -/
inductive IsFlaw : Defect → (front back : List Char) → Prop
  | emptyKey {back : List Char} : (∀ c ∈ back.head?, c = '[') → IsFlaw .emptyKey [] back
  | unclosedBracket {front tail : List Char} : front ≠ [] → ']' ∉ tail →
    IsFlaw .unclosedBracket front ('[' :: tail)
  | textAfterBracket {front tail : List Char} {c : Char} : EndsClosed front → c ≠ '[' →
    IsFlaw .textAfterBracket front (c :: tail)
  | badIndex {front content tail : List Char} : front ≠ [] → ']' ∉ content →
    (∀ positions, ¬ IsSelector content positions) → IsFlaw .badIndex front ('[' :: (content ++ ']' :: tail))

/-- The text in front of a place, from the last dot on. -/
def frontOf (body : List Char) (place : Nat) : List Char :=
  (body.take place).rtakeWhile (· ≠ '.')

/-- The text from a place on, up to the next dot. -/
def backOf (body : List Char) (place : Nat) : List Char :=
  (body.drop place).takeWhile (· ≠ '.')

structure IsFlawAt (body : List Char) (place : Nat) (defect : Defect) : Prop where
  inside : place ≤ body.length
  isFlaw : IsFlaw defect (frontOf body place) (backOf body place)

/-- The leftmost flaw of a body. -/
structure IsFirstFlaw (body : List Char) (place : Nat) (defect : Defect) : Prop where
  isFlawAt : IsFlawAt body place defect
  first : ∀ earlier < place, ∀ other, ¬ IsFlawAt body earlier other

/-- What is reported of a defect, given the text from its place on: text behind a bracket is recognized only if
another bracket closes behind it. -/
def Defect.reported (defect : Defect) (back : List Char) : Defect :=
  if defect = .textAfterBracket ∧ ']' ∉ back then .unclosedBracket else defect

theorem EndsClosed.getLast? {front : List Char} (h : EndsClosed front) : front.getLast? = some ']' := by
  obtain ⟨-⟩ := h
  rw [← List.cons_append, ← List.append_assoc, List.getLast?_concat]

theorem EndsClosed.open_mem {front : List Char} (h : EndsClosed front) : '[' ∈ front := by
  obtain ⟨-⟩ := h
  simp

theorem EndsClosed.ne_nil {front : List Char} (h : EndsClosed front) : front ≠ [] :=
  List.ne_nil_of_mem h.open_mem

theorem eq_of_append_close {content other rest more : List Char} (hcontent : ']' ∉ content) (hother : ']' ∉ other)
    (h : content ++ ']' :: rest = other ++ ']' :: more) : content = other := by
  have htake {inside rest : List Char} (hinside : ']' ∉ inside) :
      (inside ++ ']' :: rest).takeWhile (· ≠ ']') = inside :=
    Text.takeWhile_append_of_head? (forall_ne_of_not_mem hinside) (by simp)
  rw [← @htake content rest hcontent, h, htake hother]

variable {defect other : Defect} {front back : List Char}

/-- One place has one defect. -/
theorem IsFlaw.unique (h : IsFlaw defect front back) (hother : IsFlaw other front back) : defect = other := by
  cases h with
  | emptyKey _ =>
    cases hother with
    | emptyKey _ => rfl
    | unclosedBracket hne _ => exact absurd rfl hne
    | textAfterBracket hclosed _ => exact absurd rfl hclosed.ne_nil
    | badIndex hne _ _ => exact absurd rfl hne
  | unclosedBracket hne htail =>
    cases hother with
    | emptyKey _ => exact absurd rfl hne
    | unclosedBracket _ _ => rfl
    | textAfterBracket _ hc => exact absurd rfl hc
    | badIndex _ _ _ => simp at htail
  | textAfterBracket hclosed hc =>
    cases hother with
    | emptyKey _ => exact absurd rfl hclosed.ne_nil
    | unclosedBracket _ _ => exact absurd rfl hc
    | textAfterBracket _ _ => rfl
    | badIndex _ _ _ => exact absurd rfl hc
  | badIndex hne _ _ =>
    generalize hback : '[' :: (_ ++ ']' :: _) = back at hother
    cases hother with
    | emptyKey _ => exact absurd rfl hne
    | unclosedBracket _ htail =>
      obtain rfl := (List.cons.inj hback).2
      simp at htail
    | textAfterBracket _ hc => exact absurd (List.cons.inj hback).1.symm hc
    | badIndex _ _ _ => rfl

/-! ### Where no flaw stands -/

/-- A flaw is a bracket or stands behind one. -/
theorem not_isFlaw_cons {c : Char} (hc : c ≠ '[') (hfront : '[' ∉ front ∨ front.getLast? ≠ some ']') :
    ¬ IsFlaw defect front (c :: back) := by
  intro h
  cases h with
  | emptyKey hback => exact hc (hback c rfl)
  | unclosedBracket _ _ => exact hc rfl
  | textAfterBracket hclosed _ => exact hfront.elim (absurd hclosed.open_mem) (absurd hclosed.getLast?)
  | badIndex _ _ _ => exact hc rfl

theorem not_isFlaw_selector {content : List Char} {positions : List UInt64} (hne : front ≠ [])
    (hselector : IsSelector content positions) (rest : List Char) :
    ¬ IsFlaw defect front ('[' :: (content ++ ']' :: rest)) := by
  have hclose : ']' ∉ content := hselector.not_mem (by simp)
  intro h
  generalize hback : '[' :: (content ++ ']' :: rest) = back at h
  cases h with
  | emptyKey _ => exact hne rfl
  | unclosedBracket _ htail =>
    obtain rfl := (List.cons.inj hback).2
    simp at htail
  | textAfterBracket _ hc => exact hc (List.cons.inj hback).1.symm
  | badIndex _ hother hnone =>
    obtain rfl := eq_of_append_close hclose hother (List.cons.inj hback).2
    exact hnone positions hselector

/-- No flaw stands in brackets that denote positions. -/
theorem IsSuffixes.not_isFlaw {suffixes : List Char} {positions : List UInt64} (h : IsSuffixes suffixes positions)
    {before rest : List Char} (hne : before ≠ []) (heq : before ++ (suffixes ++ rest) = front ++ back)
    (hle : before.length ≤ front.length) (hlt : front.length < before.length + suffixes.length) :
    ¬ IsFlaw defect front back := by
  induction h generalizing before with
  | nil => exact absurd hlt (Nat.not_lt.2 hle)
  | @cons content more positions others hselector hmore ih =>
    obtain ⟨mid, rfl⟩ : before <+: front :=
      List.prefix_of_prefix_length_le (List.prefix_append _ _) ⟨back, heq.symm⟩ hle
    rw [List.append_assoc, List.append_cancel_left_eq] at heq
    cases mid with
    | nil =>
      obtain rfl : back = '[' :: (content ++ ']' :: (more ++ rest)) := by simpa using heq.symm
      rw [List.append_nil]
      exact not_isFlaw_selector hne hselector _
    | cons c mid =>
      obtain ⟨rfl, hinside⟩ : '[' = c ∧ content ++ ']' :: (more ++ rest) = mid ++ back := by simpa using heq
      rcases Nat.lt_or_ge content.length mid.length with hlength | hlength
      · obtain ⟨mid, rfl⟩ : content ++ [']'] <+: mid :=
          List.prefix_of_prefix_length_le ⟨more ++ rest, by simp⟩ ⟨back, hinside.symm⟩ (by simpa using Nat.succ_le_of_lt hlength)
        have hbefore : before ++ '[' :: (content ++ [']']) ≠ [] := by simp
        refine ih hbefore ?_ ?_ ?_
        · simpa using hinside
        · simp
        · simp only [List.length_append, List.length_cons, List.length_nil] at hlt ⊢
          omega
      · obtain ⟨tail, rfl⟩ : mid <+: content :=
          List.prefix_of_prefix_length_le ⟨back, hinside.symm⟩ (List.prefix_append _ _) hlength
        obtain rfl : back = tail ++ ']' :: (more ++ rest) := by simpa using hinside.symm
        have hopen : '[' ∉ mid ++ tail := hselector.not_mem (by simp)
        have hclose : ']' ∉ mid ++ tail := hselector.not_mem (by simp)
        have hlast : (before ++ '[' :: mid).getLast? ≠ some ']' := by
          rw [List.getLast?_append_of_ne_nil _ (List.cons_ne_nil _ _)]
          intro hlast
          have hmem := List.mem_of_getLast? hlast
          simp_all
        cases tail with
        | nil => exact not_isFlaw_cons (by decide) (.inr hlast)
        | cons c tail => exact not_isFlaw_cons (by rintro rfl; simp at hopen) (.inr hlast)

/-- No flaw stands in a key, or in brackets behind it that denote positions. -/
theorem not_isFlaw_of_lt {key suffixes rest : List Char} {positions : List UInt64} (hne : key ≠ [])
    (hkey : '[' ∉ key) (h : IsSuffixes suffixes positions) (heq : key ++ (suffixes ++ rest) = front ++ back)
    (hlt : front.length < key.length + suffixes.length) : ¬ IsFlaw defect front back := by
  rcases Nat.lt_or_ge front.length key.length with hlength | hlength
  · obtain ⟨tail, rfl⟩ : front <+: key :=
      List.prefix_of_prefix_length_le ⟨back, heq.symm⟩ (List.prefix_append _ _) hlength.le
    cases tail with
    | nil => simp at hlength
    | cons c tail =>
      obtain rfl : back = c :: (tail ++ (suffixes ++ rest)) := by simpa using heq.symm
      simp only [List.mem_append, List.mem_cons, not_or] at hkey
      exact not_isFlaw_cons (Ne.symm hkey.2.1) (.inl hkey.1)
  · exact h.not_isFlaw hne heq hlength hlt

/-! ### Where parsing stops -/

theorem parseBracket_eq_error_iff {content : List Char} {defect : Defect} :
    parseBracket content = .error defect ↔
      defect = .badIndex ∧ ∀ positions, ¬ IsSelector content positions := by
  simp only [← parseBracket_eq_ok_iff]
  rw [parseBracket]
  split_ifs
  · simp
  · cases parseIndex? content <;> simp [eq_comm]

/-- From `front` on, brackets that denote positions lead up to a flaw that is reported as `reported`. -/
inductive StopsAt (reported : Defect) : (front cs : List Char) → Prop
  | here {front cs : List Char} {defect : Defect} : IsFlaw defect front cs → defect.reported cs = reported →
    StopsAt reported front cs
  | behind {front content rest : List Char} {positions : List UInt64} : IsSelector content positions →
    StopsAt reported (front ++ '[' :: (content ++ [']'])) rest →
    StopsAt reported front ('[' :: (content ++ ']' :: rest))

theorem StopsAt.exists_flaw {reported : Defect} {cs : List Char} (h : StopsAt reported front cs) :
    ∃ good positions bad defect, cs = good ++ bad ∧ IsSuffixes good positions ∧ IsFlaw defect (front ++ good) bad ∧
      defect.reported bad = reported := by
  induction h with
  | @here front cs defect hflaw hreported =>
    rw [← List.append_nil front] at hflaw
    exact ⟨[], [], cs, defect, rfl, .nil, hflaw, hreported⟩
  | @behind front content rest positions hselector _ ih =>
    obtain ⟨good, others, bad, defect, rfl, hgood, hflaw, hreported⟩ := ih
    refine ⟨'[' :: (content ++ ']' :: good), positions ++ others, bad, defect, by simp, .cons hselector hgood, ?_,
      hreported⟩
    simpa using hflaw

/-- Brackets that denote no positions are parsed up to a flaw, behind a key or behind other brackets. -/
theorem stopsAt_of_parseBrackets {cs : List Char} {reported : Defect} (h : parseBrackets cs = .error reported)
    (hne : front ≠ []) (hfront : (∀ c ∈ cs.head?, c = '[') ∨ EndsClosed front) : StopsAt reported front cs := by
  induction cs using brackets_induction generalizing front with
  | nil =>
    rw [parseBrackets] at h
    cases h
  | unclosed cs hcs hclose =>
    rw [parseBrackets_unclosed hcs hclose] at h
    obtain rfl := Except.error.inj h
    obtain ⟨c, tail, rfl⟩ := List.exists_cons_of_ne_nil hcs
    by_cases hopen : c = '['
    · rw [hopen] at hclose ⊢
      exact .here (.unclosedBracket hne fun hmem => hclose (List.mem_cons_of_mem _ hmem)) rfl
    · have hclosed : EndsClosed front := hfront.resolve_left fun hhead => hopen (hhead c rfl)
      exact .here (.textAfterBracket hclosed hopen) (if_pos ⟨rfl, hclose⟩)
  | pair content rest hcontent ih =>
    rw [parseBrackets_pair hcontent] at h
    rcases bind_eq_error_iff.1 h with hbracket | ⟨positions, hbracket, h⟩
    · obtain ⟨rfl, hnone⟩ := parseBracket_eq_error_iff.1 hbracket
      exact .here (.badIndex hne hcontent hnone) rfl
    · have hlonger : front ++ '[' :: (content ++ [']']) ≠ [] := List.append_ne_nil_of_left_ne_nil hne _
      exact .behind (parseBracket_eq_ok_iff.1 hbracket) (ih (bind_ok_eq_error_iff.1 h) hlonger (.inr (.closed hcontent)))
  | text c cs hopen hclose =>
    rw [parseBrackets_text hopen hclose] at h
    obtain rfl := Except.error.inj h
    have hclosed : EndsClosed front := hfront.resolve_left fun hhead => hopen (hhead c rfl)
    exact .here (.textAfterBracket hclosed hopen) (if_neg fun hnone => hnone.2 hclose)

/-- A part that is no key with brackets is blamed on its first flaw. -/
theorem exists_flaw_of_parsePart {part : List Char} {reported : Defect} (h : parsePart part = .error reported) :
    ∃ defect front back, part = front ++ back ∧ IsFlaw defect front back ∧ defect.reported back = reported ∧
      ∀ other before behind, part = before ++ behind → IsFlaw other before behind → front.length ≤ before.length := by
  obtain ⟨key, suffixes, rfl, hkey, hsuffixes⟩ := exists_key_append part
  by_cases hne : key = []
  · rw [hne, List.nil_append] at h ⊢
    rw [parsePart_emptyKey hsuffixes] at h
    obtain rfl := Except.error.inj h
    exact ⟨.emptyKey, [], suffixes, rfl, .emptyKey hsuffixes, rfl, fun _ _ _ _ _ => Nat.zero_le _⟩
  · rw [parsePart_append hne hkey hsuffixes] at h
    obtain ⟨good, positions, bad, defect, rfl, hgood, hflaw, hreported⟩ :=
      (stopsAt_of_parseBrackets (bind_ok_eq_error_iff.1 h) hne (.inl hsuffixes)).exists_flaw
    refine ⟨defect, key ++ good, bad, by simp, hflaw, hreported, fun other before behind heq hother => ?_⟩
    by_contra hlt
    rw [List.length_append, Nat.not_le] at hlt
    exact not_isFlaw_of_lt hne hkey hgood heq hlt hother

theorem IsPart.not_isFlaw {part : List Char} {segments : List Segment} (h : IsPart part segments)
    (heq : part = front ++ back) : ¬ IsFlaw defect front back := by
  obtain @⟨key, suffixes, positions, hne, -, hkey, hsuffixes⟩ := h
  rcases Nat.lt_or_ge front.length (key.length + suffixes.length) with hlt | hge
  · have hwhole : key ++ (suffixes ++ []) = front ++ back := by rwa [List.append_nil]
    exact not_isFlaw_of_lt hne hkey hsuffixes hwhole hlt
  · -- Behind the part there is nothing left that could be wrong.
    have hlength := congrArg List.length heq
    simp only [List.length_append] at hlength
    obtain rfl : back = [] := List.eq_nil_of_length_eq_zero (by omega)
    rw [List.append_nil] at heq
    intro hflaw
    cases hflaw with
    | emptyKey _ => exact hne (List.append_eq_nil_iff.1 heq).1

/-! ### Places of a body -/

section
variable {part rest : List Char} {place : Nat}

theorem frontOf_of_dot_not_mem (hdot : '.' ∉ part) (place : Nat) : frontOf part place = part.take place :=
  List.rtakeWhile_eq_self_iff.2 fun c hc => forall_ne_of_not_mem hdot c (List.mem_of_mem_take hc)

theorem backOf_of_dot_not_mem (hdot : '.' ∉ part) (place : Nat) : backOf part place = part.drop place :=
  List.takeWhile_eq_self_iff.2 fun c hc => forall_ne_of_not_mem hdot c (List.mem_of_mem_drop hc)

theorem isFlawAt_iff_of_dot_not_mem (hdot : '.' ∉ part) :
    IsFlawAt part place defect ↔ place ≤ part.length ∧ IsFlaw defect (part.take place) (part.drop place) := by
  rw [← frontOf_of_dot_not_mem hdot, ← backOf_of_dot_not_mem hdot]
  exact ⟨fun h => ⟨h.inside, h.isFlaw⟩, fun h => ⟨h.1, h.2⟩⟩

theorem backOf_append_of_le (hdot : '.' ∉ part) (hplace : place ≤ part.length) :
    backOf (part ++ '.' :: rest) place = backOf part place := by
  rw [backOf_of_dot_not_mem hdot, backOf, List.drop_append_of_le_length hplace]
  refine Text.takeWhile_append_of_head? (fun c hc => ?_) (by simp)
  exact forall_ne_of_not_mem hdot c (List.mem_of_mem_drop hc)

/-- What is wrong in a part is wrong there, whatever follows behind the next dot. -/
theorem isFlawAt_append_of_le (hdot : '.' ∉ part) (hplace : place ≤ part.length) :
    IsFlawAt (part ++ '.' :: rest) place defect ↔ IsFlawAt part place defect := by
  have hfront : frontOf (part ++ '.' :: rest) place = frontOf part place := by
    rw [frontOf, frontOf, List.take_append_of_le_length hplace]
  have hback : backOf (part ++ '.' :: rest) place = backOf part place := backOf_append_of_le hdot hplace
  have hinside : place ≤ (part ++ '.' :: rest).length := by
    rw [List.length_append]
    omega
  constructor
  · exact fun h => ⟨hplace, hfront ▸ hback ▸ h.isFlaw⟩
  · exact fun h => ⟨hinside, hfront ▸ hback ▸ h.isFlaw⟩

theorem rtakeWhile_append_dot (part rest : List Char) :
    (part ++ '.' :: rest).rtakeWhile (· ≠ '.') = rest.rtakeWhile (· ≠ '.') := by
  induction rest using List.reverseRecOn with
  | nil => exact List.rtakeWhile_concat_neg _ _ _ (by simp)
  | append_singleton rest c ih =>
    rw [← List.cons_append, ← List.append_assoc, List.rtakeWhile_concat, List.rtakeWhile_concat, ih]

theorem backOf_append_add (part rest : List Char) (place : Nat) :
    backOf (part ++ '.' :: rest) (part.length + (place + 1)) = backOf rest place := by
  rw [backOf, backOf, List.drop_length_add_append, List.drop_succ_cons]

/-- What is wrong behind the first dot is wrong there, whatever stands in front. -/
theorem isFlawAt_append_add :
    IsFlawAt (part ++ '.' :: rest) (part.length + (place + 1)) defect ↔ IsFlawAt rest place defect := by
  have hfront : frontOf (part ++ '.' :: rest) (part.length + (place + 1)) = frontOf rest place := by
    rw [frontOf, frontOf, List.take_length_add_append, List.take_succ_cons, rtakeWhile_append_dot]
  have hinside : part.length + (place + 1) ≤ (part ++ '.' :: rest).length ↔ place ≤ rest.length := by
    simp
  constructor
  · rintro ⟨hplace, hflaw⟩
    rw [hfront, backOf_append_add] at hflaw
    exact ⟨hinside.1 hplace, hflaw⟩
  · rintro ⟨hplace, hflaw⟩
    rw [← hfront, ← backOf_append_add part] at hflaw
    exact ⟨hinside.2 hplace, hflaw⟩

theorem IsFirstFlaw.unique {body : List Char} {otherPlace : Nat} (h : IsFirstFlaw body place defect)
    (hother : IsFirstFlaw body otherPlace other) : place = otherPlace ∧ defect = other := by
  obtain rfl : place = otherPlace :=
    Nat.le_antisymm (Nat.not_lt.1 fun hlt => h.first _ hlt _ hother.isFlawAt)
      (Nat.not_lt.1 fun hlt => hother.first _ hlt _ h.isFlawAt)
  exact ⟨rfl, h.isFlawAt.isFlaw.unique hother.isFlawAt.isFlaw⟩

theorem IsFirstFlaw.append (hdot : '.' ∉ part) (h : IsFirstFlaw part place defect) (rest : List Char) :
    IsFirstFlaw (part ++ '.' :: rest) place defect where
  isFlawAt := (isFlawAt_append_of_le hdot h.isFlawAt.inside).2 h.isFlawAt
  first earlier hlt other hearlier :=
    h.first earlier hlt other ((isFlawAt_append_of_le hdot (hlt.le.trans h.isFlawAt.inside)).1 hearlier)

theorem IsFirstFlaw.behind (hdot : '.' ∉ part) (hpart : ∀ place defect, ¬ IsFlawAt part place defect)
    (h : IsFirstFlaw rest place defect) :
    IsFirstFlaw (part ++ '.' :: rest) (part.length + (place + 1)) defect where
  isFlawAt := isFlawAt_append_add.2 h.isFlawAt
  first earlier hlt other hearlier := by
    rcases Nat.lt_or_ge part.length earlier with hbehind | hinside
    · obtain ⟨earlier, rfl⟩ := Nat.exists_eq_add_of_lt hbehind
      exact h.first earlier (by omega) other (isFlawAt_append_add.1 hearlier)
    · exact hpart earlier other ((isFlawAt_append_of_le hdot hinside).1 hearlier)

/-! ### Blame -/

theorem IsPart.not_isFlawAt {segments : List Segment} (h : IsPart part segments) : ¬ IsFlawAt part place defect := by
  rw [isFlawAt_iff_of_dot_not_mem h.dot_not_mem]
  exact fun hflaw => h.not_isFlaw (List.take_append_drop place part).symm hflaw.2

theorem IsParts.not_isFlawAt {body : List Char} {segments : List Segment} (h : IsParts body segments) :
    ¬ IsFlawAt body place defect := by
  induction h generalizing place with
  | one hpart => exact hpart.not_isFlawAt
  | @dotted part rest _ _ hpart _ ih =>
    intro hflaw
    rcases Nat.lt_or_ge part.length place with hbehind | hinside
    · obtain ⟨place, rfl⟩ := Nat.exists_eq_add_of_lt hbehind
      exact ih (isFlawAt_append_add.1 hflaw)
    · exact hpart.not_isFlawAt ((isFlawAt_append_of_le hpart.dot_not_mem hinside).1 hflaw)

theorem exists_isFirstFlaw_of_parsePart {reported : Defect} (hdot : '.' ∉ part)
    (h : parsePart part = .error reported) :
    ∃ place defect, IsFirstFlaw part place defect ∧ defect.reported (backOf part place) = reported := by
  obtain ⟨defect, front, back, rfl, hflaw, hreported, hfirst⟩ := exists_flaw_of_parsePart h
  have hback : backOf (front ++ back) front.length = back := by
    rw [backOf_of_dot_not_mem hdot, List.drop_left]
  refine ⟨front.length, defect, ⟨?_, fun earlier hlt other hearlier => ?_⟩, by rwa [hback]⟩
  · rw [isFlawAt_iff_of_dot_not_mem hdot]
    simpa using hflaw
  · obtain ⟨hinside, hother⟩ := (isFlawAt_iff_of_dot_not_mem hdot).1 hearlier
    have hle := hfirst other _ _ (List.take_append_drop earlier _).symm hother
    rw [List.length_take_of_le hinside] at hle
    omega

theorem exists_isFirstFlaw_of_parseParts {body : List Char} {reported : Defect}
    (h : parseParts (body.splitOn '.') = .error reported) :
    ∃ place defect, IsFirstFlaw body place defect ∧ defect.reported (backOf body place) = reported := by
  induction hlength : body.length using Nat.strongRecOn generalizing body with
  | ind length ih =>
    rcases splitOn_cases body with ⟨hdot, hsplit⟩ | ⟨part, rest, rfl, hdot, hsplit⟩
    · rw [hsplit, parseParts_singleton] at h
      exact exists_isFirstFlaw_of_parsePart hdot h
    · rw [hsplit, parseParts] at h
      rcases bind_eq_error_iff.1 h with hpart | ⟨first, hpart, h⟩
      · obtain ⟨place, defect, hfirst, hreported⟩ := exists_isFirstFlaw_of_parsePart hdot hpart
        refine ⟨place, defect, hfirst.append hdot rest, ?_⟩
        rwa [backOf_append_of_le hdot hfirst.isFlawAt.inside]
      · have hshorter : rest.length < length := by
          rw [← hlength, List.length_append, List.length_cons]
          omega
        obtain ⟨place, defect, hfirst, hreported⟩ := ih _ hshorter (bind_ok_eq_error_iff.1 h) rfl
        have hsound : ∀ place defect, ¬ IsFlawAt part place defect := fun _ _ =>
          ((parsePart_eq_ok_iff hdot).1 hpart).not_isFlawAt
        refine ⟨_, defect, hfirst.behind hdot hsound, ?_⟩
        rwa [backOf_append_add]

theorem parseParts_eq_error_iff {body : List Char} {reported : Defect} :
    parseParts (body.splitOn '.') = .error reported ↔
      ∃ place defect, IsFirstFlaw body place defect ∧ reported = defect.reported (backOf body place) := by
  constructor
  · intro h
    obtain ⟨place, defect, hfirst, hreported⟩ := exists_isFirstFlaw_of_parseParts h
    exact ⟨place, defect, hfirst, hreported.symm⟩
  · rintro ⟨place, defect, hfirst, rfl⟩
    cases h : parseParts (body.splitOn '.') with
    | ok segments => exact absurd hfirst.isFlawAt (isParts_of_parseParts h).not_isFlawAt
    | error reported =>
      obtain ⟨_, _, hother, rfl⟩ := exists_isFirstFlaw_of_parseParts h
      obtain ⟨rfl, rfl⟩ := hfirst.unique hother
      rfl

/-- An expression is no path exactly if its body has a flaw, and then the first one is blamed. The body of the root
alone is empty and has no parts. -/
theorem parse_eq_error_iff {expression : String} {error : ParseError} :
    parse expression = .error error ↔
      error.expression = expression ∧ body expression.toList ≠ [] ∧
        ∃ place defect, IsFirstFlaw (body expression.toList) place defect ∧
          error.defect = defect.reported (backOf (body expression.toList) place) := by
  obtain ⟨text, blamed⟩ := error
  rw [← parseParts_eq_error_iff, parse, parseBody]
  split_ifs with hempty
  · simp [hempty]
  · cases parseParts ((body expression.toList).splitOn '.') <;> simp [hempty, eq_comm]

/-- In `a[0]x` the first flaw is the text behind the brackets, but what is reported is a bracket that is not closed,
of which there is none. -/
theorem parse_text_blames_bracket :
    IsFirstFlaw (body "a[0]x".toList) 4 .textAfterBracket ∧
      parse "a[0]x" = .error ⟨"a[0]x", .unclosedBracket⟩ ∧
      ParseError.message ⟨"a[0]x", .unclosedBracket⟩ = "Invalid path 'a[0]x': unclosed '['" := by
  have hdot : '.' ∉ body "a[0]x".toList := by decide
  have hclosed : EndsClosed ['a', '[', '0', ']'] := @EndsClosed.closed ['a'] ['0'] (by decide)
  have hzero : IsSelector ['0'] [0] := @IsSelector.index [] ['0'] (by simp) (by simp) (by simp) (by decide)
  have hbrackets : IsSuffixes ['[', '0', ']'] [0] := .cons hzero .nil
  have hfirst : IsFirstFlaw (body "a[0]x".toList) 4 .textAfterBracket := by
    refine ⟨⟨by decide, .textAfterBracket hclosed (by decide)⟩, fun earlier hlt other hflaw => ?_⟩
    obtain ⟨hinside, hflaw⟩ := (isFlawAt_iff_of_dot_not_mem hdot).1 hflaw
    refine @not_isFlaw_of_lt other _ _ ['a'] _ ['x'] _ (by decide) (by decide) hbrackets ?_ ?_ hflaw
    · exact (List.take_append_drop earlier _).symm
    · rw [List.length_take_of_le hinside]
      exact hlt
  have hparts : parseParts ((body "a[0]x".toList).splitOn '.') = .error .unclosedBracket :=
    parseParts_eq_error_iff.2 ⟨4, .textAfterBracket, hfirst, rfl⟩
  refine ⟨hfirst, ?_, rfl⟩
  rw [parse, parseBody, if_neg (by decide), hparts]

end

end ResourceGraph.FieldPath
