import ResourceGraph.Proofs.PathGrammar

/-!
# Parsing displayed paths

A parsed path is displayed in its canonical form, and that form is parsed to the same path unless it ends in
white space (`parse_display_iff`): an expression loses the white space at its ends, so a last key that ends in
white space does not survive. Such a key is parsed from an expression only if brackets for every element follow
it, since they are not displayed.

A path that was not parsed may have steps that no expression has, such as an empty key, and then its displayed form
denotes another path or none (`parse_display_eq_ok_iff`).

What a path displays behind the root is a body of its steps (`isParts_display`), which gives one direction. For
the other, no body of these steps is shorter than what they display (`IsBody.length_display_le`), so nothing of it
may have been trimmed off.
-/

namespace ResourceGraph.FieldPath

open ResourceGraph.Text (isBlank trimRight)

/-! ### What bodies denote -/

/-- A step that can be written in an expression. -/
def Segment.IsWritable : Segment → Prop
  | .key name => name.toList ≠ [] ∧ '.' ∉ name.toList ∧ '[' ∉ name.toList
  | .index _ => True

/-- A path whose steps can be written in an expression. -/
structure IsWritable (path : FieldPath) : Prop where
  startsWithKey : ∀ segment ∈ path.segments.head?, ∃ name, segment = .key name
  segments : ∀ segment ∈ path.segments, segment.IsWritable

/-- The last step is a key that ends in white space. -/
def EndsInBlank (path : FieldPath) : Prop :=
  ∃ name, path.segments.getLast? = some (.key name) ∧ ∃ c ∈ name.toList.getLast?, isBlank c

theorem IsPart.isWritable {part : List Char} {segments : List Segment} (h : IsPart part segments) :
    ∃ name others, segments = .key name :: others ∧ ∀ segment ∈ segments, segment.IsWritable := by
  obtain ⟨hne, hdot, hbracket, -⟩ := h
  refine ⟨_, _, rfl, fun segment hsegment => ?_⟩
  rcases List.mem_cons.1 hsegment with rfl | hsegment
  · simpa [Segment.IsWritable] using ⟨hne, hdot, hbracket⟩
  · obtain ⟨position, -, rfl⟩ := List.mem_map.1 hsegment
    trivial

theorem IsParts.isWritable {body : List Char} {segments : List Segment} (h : IsParts body segments) :
    ∃ name others, segments = .key name :: others ∧ ∀ segment ∈ segments, segment.IsWritable := by
  induction h with
  | one hpart => exact hpart.isWritable
  | @dotted part rest segments others hpart _ ih =>
    obtain ⟨name, behind, rfl, hfirst⟩ := hpart.isWritable
    obtain ⟨-, -, -, hothers⟩ := ih
    exact ⟨name, behind ++ others, rfl, fun segment hsegment =>
      (List.mem_append.1 hsegment).elim (hfirst segment) (hothers segment)⟩

theorem IsBody.isWritable {body : List Char} {segments : List Segment} (h : IsBody body segments) :
    IsWritable { segments } := by
  cases h with
  | empty => exact ⟨by simp, by simp⟩
  | parts hparts =>
    obtain ⟨name, others, rfl, hsegments⟩ := hparts.isWritable
    exact ⟨by simp, hsegments⟩

theorem isWritable_of_parse {expression : String} {path : FieldPath} (h : parse expression = .ok path) :
    path.IsWritable :=
  (isExpression_iff.1 (parse_eq_ok_iff.1 h)).isWritable

/-! ### Displayed steps are a body -/

theorem isSelector_toDigits (position : UInt64) : IsSelector (Nat.toDigits 10 position.toNat) [position] := by
  have hvalue : Nat.ofDigitChars 10 (Nat.toDigits 10 position.toNat) 0 = position.toNat :=
    Nat.ofDigitChars_ten_toDigits
  have hdigits : ∀ c ∈ Nat.toDigits 10 position.toNat, c.isDigit := fun c hc =>
    Nat.isDigit_of_mem_toDigits (by decide) (by decide) hc
  have hindex := IsSelector.index (List.mem_cons_self (a := [])) Nat.toDigits_ne_nil hdigits
    (by rw [hvalue]; exact position.toNat_lt)
  rwa [hvalue, UInt64.ofNat_toNat, List.nil_append] at hindex

theorem IsSuffixes.append {cs more : List Char} {positions others : List UInt64} (h : IsSuffixes cs positions)
    (hmore : IsSuffixes more others) : IsSuffixes (cs ++ more) (positions ++ others) := by
  induction h with
  | nil => exact hmore
  | @cons content rest positions others' hselector _ ih =>
    have hcons := IsSuffixes.cons hselector ih
    rwa [← List.append_assoc, ← List.cons_append, ← List.cons_append, ← List.append_assoc] at hcons

theorem isSuffixes_displayChars (position : UInt64) :
    IsSuffixes (Segment.index position).displayChars [position] :=
  .cons (isSelector_toDigits position) .nil

theorem isPart_of_isWritable {key : String} (hkey : (Segment.key key).IsWritable) {suffixes : List Char}
    {positions : List UInt64} (hsuffixes : IsSuffixes suffixes positions) :
    IsPart (key.toList ++ suffixes) (.key key :: positions.map .index) := by
  obtain ⟨hne, hdot, hbracket⟩ := hkey
  have hkeyed := IsPart.keyed hne hdot hbracket hsuffixes
  rwa [String.ofList_toList] at hkeyed

/-- A key, brackets behind it and what more steps display denote the key, the positions and these steps. -/
theorem isParts_display {segments : List Segment} (h : ∀ segment ∈ segments, segment.IsWritable) {key : String}
    (hkey : (Segment.key key).IsWritable) {suffixes : List Char} {positions : List UInt64}
    (hsuffixes : IsSuffixes suffixes positions) :
    IsParts (key.toList ++ suffixes ++ segments.flatMap Segment.displayChars)
      (.key key :: positions.map .index ++ segments) := by
  induction segments generalizing key suffixes positions with
  | nil => simpa using IsParts.one (isPart_of_isWritable hkey hsuffixes)
  | cons segment segments ih =>
    have hrest : ∀ segment ∈ segments, segment.IsWritable := fun segment hsegment =>
      h segment (List.mem_cons_of_mem _ hsegment)
    cases segment with
    | key name =>
      -- The next key ends the part.
      have hname : (Segment.key name).IsWritable := h _ (List.mem_cons_self ..)
      have hbehind := ih hrest hname .nil
      simpa [Segment.displayChars] using IsParts.dotted (isPart_of_isWritable hkey hsuffixes) hbehind
    | index position =>
      have hmore := hsuffixes.append (isSuffixes_displayChars position)
      simpa using ih hrest hkey hmore

/-! ### Bodies are no shorter than what they display -/

theorem ofDigitChars_lt {digits : List Char} (h : ∀ c ∈ digits, c.isDigit) (start : Nat) :
    Nat.ofDigitChars 10 digits start < (start + 1) * 10 ^ digits.length := by
  induction digits generalizing start with
  | nil => simp
  | cons d digits ih =>
    have hd : d.toNat - '0'.toNat ≤ 9 := by
      have hrange := Char.isDigit_iff_toNat.1 (h d (List.mem_cons_self ..))
      have hnine : '9'.toNat - '0'.toNat = 9 := rfl
      omega
    have hrest := ih (fun c hc => h c (List.mem_cons_of_mem _ hc)) (10 * start + (d.toNat - '0'.toNat))
    rw [Nat.ofDigitChars_cons, List.length_cons, Nat.pow_succ']
    calc Nat.ofDigitChars 10 digits (10 * start + (d.toNat - '0'.toNat))
      _ < (10 * start + (d.toNat - '0'.toNat) + 1) * 10 ^ digits.length := hrest
      _ ≤ (10 * (start + 1)) * 10 ^ digits.length := Nat.mul_le_mul_right _ (by omega)
      _ = (start + 1) * (10 * 10 ^ digits.length) := by rw [Nat.mul_comm 10, Nat.mul_assoc]

theorem IsSelector.length_display_le {content : List Char} {positions : List UInt64}
    (h : IsSelector content positions) :
    ((positions.map Segment.index).flatMap Segment.displayChars).length ≤ content.length + 2 := by
  cases h with
  | all _ => simp
  | @index sign digits _ hne hdigits hvalue =>
    have hlength : (Nat.toDigits 10 (Nat.ofDigitChars 10 digits 0)).length ≤ digits.length := by
      rw [Nat.length_toDigits_le_iff (by decide) (List.length_pos_iff.2 hne)]
      simpa using ofDigitChars_lt hdigits 0
    have hposition : (UInt64.ofNat (Nat.ofDigitChars 10 digits 0)).toNat = Nat.ofDigitChars 10 digits 0 :=
      UInt64.toNat_ofNat_of_lt' hvalue
    simp [Segment.displayChars, hposition]
    omega

theorem IsSuffixes.length_display_le {cs : List Char} {positions : List UInt64} (h : IsSuffixes cs positions) :
    ((positions.map Segment.index).flatMap Segment.displayChars).length ≤ cs.length := by
  induction h with
  | nil => simp
  | cons hselector _ ih =>
    have hfirst := hselector.length_display_le
    simp only [List.map_append, List.flatMap_append, List.length_append, List.length_cons] at *
    omega

theorem IsPart.length_display_le {part : List Char} {segments : List Segment} (h : IsPart part segments) :
    (segments.flatMap Segment.displayChars).length ≤ part.length + 1 := by
  obtain ⟨-, -, -, hsuffixes⟩ := h
  have hbrackets := hsuffixes.length_display_le
  simp [Segment.displayChars] at *
  omega

theorem IsParts.length_display_le {body : List Char} {segments : List Segment} (h : IsParts body segments) :
    (segments.flatMap Segment.displayChars).length ≤ body.length + 1 := by
  induction h with
  | one hpart => exact hpart.length_display_le
  | dotted hpart _ ih =>
    have hfirst := hpart.length_display_le
    simp only [List.flatMap_append, List.length_append, List.length_cons]
    omega

theorem IsBody.length_display_le {body : List Char} {segments : List Segment} (h : IsBody body segments) :
    (segments.flatMap Segment.displayChars).length ≤ body.length + 1 := by
  cases h with
  | empty => simp
  | parts hparts => exact hparts.length_display_le

/-! ### Trimming what is displayed -/

theorem trimRight_eq_self_iff {cs : List Char} : trimRight cs = cs ↔ ∀ c ∈ cs.getLast?, ¬ isBlank c := by
  constructor
  · intro h c hc
    rw [← h] at hc
    exact getLast?_trimRight hc
  · intro h
    obtain ⟨after, hafter, hcs⟩ := exists_append_trimRight cs
    rcases List.eq_nil_or_concat after with rfl | ⟨front, c, rfl⟩
    · rw [List.append_nil] at hcs
      exact hcs.symm
    · refine absurd (hafter c (by simp)) (h c ?_)
      rw [hcs]
      simp

theorem body_display (steps : List Char) : body ('$' :: '.' :: steps) = trimRight steps := by
  obtain ⟨after, hafter, hsteps⟩ := exists_append_trimRight steps
  have hlast : ∀ c ∈ ('$' :: '.' :: trimRight steps).getLast?, ¬ isBlank c := by
    intro c hc
    rw [List.getLast?_cons_cons] at hc
    cases hcore : trimRight steps with
    | nil =>
      rw [hcore] at hc
      cases hc
      decide
    | cons x core =>
      rw [hcore, List.getLast?_cons_cons, ← hcore] at hc
      exact getLast?_trimRight hc
  have htrimmed : IsTrimmed ('$' :: '.' :: steps) ('$' :: '.' :: trimRight steps) := by
    have hbetween : IsTrimmed ([] ++ '$' :: '.' :: trimRight steps ++ after) ('$' :: '.' :: trimRight steps) :=
      .between hafter (by simp; decide) hlast
    rwa [List.nil_append, List.cons_append, List.cons_append, ← hsteps] at hbetween
  rw [body, ← isTrimmed_iff.1 htrimmed, Text.dropLeading_cons_self, Text.dropLeading_cons_self]

theorem getLast?_displayChars_concat (front : List Segment) (segment : Segment) :
    (displayChars ⟨front ++ [segment]⟩).getLast? = segment.displayChars.getLast? := by
  have hlast : segment.displayChars.getLast? ≠ none := by
    cases segment <;> simp [Segment.displayChars]
  rw [displayChars, List.flatMap_append, List.flatMap_singleton, ← List.cons_append, List.getLast?_append,
    Option.or_of_isSome (Option.isSome_iff_ne_none.2 hlast)]

theorem endsInBlank_iff {path : FieldPath} :
    path.EndsInBlank ↔ ∃ c ∈ path.displayChars.getLast?, isBlank c := by
  obtain ⟨segments⟩ := path
  rcases List.eq_nil_or_concat segments with rfl | ⟨front, segment, rfl⟩
  · have hroot : ¬ isBlank '$' := by decide
    simpa [EndsInBlank, displayChars] using hroot
  · rw [List.concat_eq_append, getLast?_displayChars_concat]
    cases segment with
    | key name =>
      have hdot : ¬ isBlank '.' := by decide
      cases hname : name.toList <;> simp [EndsInBlank, Segment.displayChars, hname, hdot]
    | index position =>
      have hclose : ¬ isBlank ']' := by decide
      have hlast : (Segment.index position).displayChars.getLast? = some ']' := List.getLast?_concat
      simpa [EndsInBlank, hlast] using hclose

/-- Nothing is trimmed off what a path displays if it still denotes the path without the blanks at its end. -/
theorem trimRight_eq_self_of_isBody {segments : List Segment} {steps : List Char}
    (hdisplay : segments.flatMap Segment.displayChars = '.' :: steps) (h : IsBody (trimRight steps) segments) :
    trimRight steps = steps := by
  obtain ⟨after, -, hsteps⟩ := exists_append_trimRight steps
  have hlength := h.length_display_le
  rw [hdisplay, List.length_cons] at hlength
  refine List.IsPrefix.eq_of_length_le ⟨after, hsteps.symm⟩ ?_
  omega

/-- A path whose steps can be written is parsed again from its displayed form unless it ends in white space. -/
theorem IsWritable.parse_display {path : FieldPath} (h : path.IsWritable) :
    parse path.display = .ok path ↔ ¬ path.EndsInBlank := by
  obtain ⟨segments⟩ := path
  have htext : (display ⟨segments⟩).toList = displayChars ⟨segments⟩ := String.toList_ofList
  rw [parse_eq_ok_iff, isExpression_iff, htext, endsInBlank_iff]
  cases segments with
  | nil =>
    have hroot : ¬ isBlank '$' := by decide
    have hbody : body ['$'] = [] := by decide
    simpa [displayChars, hroot, hbody] using IsBody.empty
  | cons segment segments =>
    obtain ⟨key, rfl⟩ := h.startsWithKey segment rfl
    have hkey : (Segment.key key).IsWritable := h.segments _ (List.mem_cons_self ..)
    have hothers : ∀ segment ∈ segments, segment.IsWritable := fun segment hsegment =>
      h.segments segment (List.mem_cons_of_mem _ hsegment)
    obtain ⟨steps, hsteps⟩ : ∃ steps, steps = key.toList ++ segments.flatMap Segment.displayChars := ⟨_, rfl⟩
    have hdisplay : (Segment.key key :: segments).flatMap Segment.displayChars = '.' :: steps := by
      rw [hsteps]
      rfl
    have hparts : IsParts steps (.key key :: segments) := by
      simpa [hsteps] using isParts_display hothers hkey .nil
    obtain ⟨c, cs, hcons⟩ := List.exists_cons_of_ne_nil hparts.ne_nil
    have hlast : (displayChars ⟨.key key :: segments⟩).getLast? = steps.getLast? := by
      rw [displayChars, hdisplay, hcons, List.getLast?_cons_cons, List.getLast?_cons_cons]
    have hbody : body (displayChars ⟨.key key :: segments⟩) = trimRight steps := by
      rw [displayChars, hdisplay, body_display]
    rw [hlast, hbody]
    constructor
    · -- With a blank trimmed off, the body would be too short for its steps.
      rintro hdenotes ⟨c, hc, hblank⟩
      exact trimRight_eq_self_iff.1 (trimRight_eq_self_of_isBody hdisplay hdenotes) c hc hblank
    · intro hblank
      rw [trimRight_eq_self_iff.2 fun c hc hc' => hblank ⟨c, hc, hc'⟩]
      exact .parts hparts

/-- The displayed form of a parsed path is parsed to the same path exactly if no key that ends in white space is
its last step. -/
theorem parse_display_iff {expression : String} {path : FieldPath} (h : parse expression = .ok path) :
    parse path.display = .ok path ↔ ¬ path.EndsInBlank :=
  (isWritable_of_parse h).parse_display

theorem parse_display_brackets : parse "a[*].b[+01]" = .ok ⟨[.key "a", .key "b", .index 1]⟩ ∧
    parse (display ⟨[.key "a", .key "b", .index 1]⟩) = .ok ⟨[.key "a", .key "b", .index 1]⟩ := by
  have h : parse "a[*].b[+01]" = .ok ⟨[.key "a", .key "b", .index 1]⟩ := by decide +kernel
  refine ⟨h, (parse_display_iff h).2 ?_⟩
  rintro ⟨name, hlast, -⟩
  cases hlast

theorem parse_display_trailingBlank : parse "a []" = .ok ⟨[.key "a "]⟩ ∧
    parse (display ⟨[.key "a "]⟩) ≠ .ok ⟨[.key "a "]⟩ := by
  decide +kernel

theorem isWritable_iff {path : FieldPath} : path.IsWritable ↔
    (path.segments = [] ∨ ∃ name others, path.segments = .key name :: others) ∧
      ∀ name, .key name ∈ path.segments → name.toList ≠ [] ∧ '.' ∉ name.toList ∧ '[' ∉ name.toList := by
  obtain ⟨segments⟩ := path
  constructor
  · rintro ⟨hfirst, hsegments⟩
    refine ⟨?_, fun name hname => hsegments _ hname⟩
    cases segments with
    | nil => exact .inl rfl
    | cons segment others =>
      obtain ⟨name, rfl⟩ := hfirst segment rfl
      exact .inr ⟨name, others, rfl⟩
  · rintro ⟨hfirst, hkeys⟩
    refine ⟨fun segment hsegment => ?_, fun segment hsegment => ?_⟩
    · rcases hfirst with hnil | ⟨name, others, hcons⟩
      · rw [hnil] at hsegment
        cases hsegment
      · rw [hcons] at hsegment
        exact ⟨name, (Option.some.inj hsegment).symm⟩
    · cases segment with
      | key name => exact hkeys name hsegment
      | index position => trivial

/-- A path of whatever steps is parsed again from its displayed form exactly if it is the root or starts with a key,
every key can be written in an expression, and no key that ends in white space is its last step. -/
theorem parse_display_eq_ok_iff (path : FieldPath) : parse path.display = .ok path ↔
    (path.segments = [] ∨ ∃ name others, path.segments = .key name :: others) ∧
      (∀ name, .key name ∈ path.segments → name.toList ≠ [] ∧ '.' ∉ name.toList ∧ '[' ∉ name.toList) ∧
      ¬ ∃ name, path.segments.getLast? = some (.key name) ∧ ∃ c ∈ name.toList.getLast?, isBlank c := by
  rw [← and_assoc, ← isWritable_iff]
  constructor
  · intro h
    have hwritable := isWritable_of_parse h
    exact ⟨hwritable, hwritable.parse_display.1 h⟩
  · rintro ⟨hwritable, hblank⟩
    exact hwritable.parse_display.2 hblank

end ResourceGraph.FieldPath
