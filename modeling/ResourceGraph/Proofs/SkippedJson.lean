import Mathlib.Data.List.DropRight
import ResourceGraph.Proofs.JsonGrammar

/-!
# Skipping any value

A JSON value that nobody asks for is skipped up to its end, whatever it is (`skipValue_append`). Skipping keeps
the open brackets in a list and counts its steps, so what is said by induction on values is that skipping from in
front of a value with brackets open goes on behind it with the same brackets open, and with steps left
(`Skips`).
-/

namespace ResourceGraph.Json

/-! ### Strings -/

theorem skipString_plain {c : Char} (hc : IsPlain c) (cs : List Char) : skipString (c :: cs) = skipString cs := by
  obtain ⟨hquote, hbackslash, hcontrol⟩ := hc
  rw [skipString]
  · exact if_neg hcontrol
  · exact fun heq => hquote heq
  · exact fun heq _ => hbackslash heq
  · exact fun _ _ heq _ => hbackslash heq

theorem isPlain_of_isHexDigit {c : Char} {n : Nat} (h : IsHexDigit c n) : IsPlain c := by
  have htable : ∀ n < 16, IsPlain (Nat.digitChar n) ∧ IsPlain (Nat.digitChar n).toUpper := by decide
  obtain ⟨hlt, rfl | rfl⟩ := h
  · exact (htable n hlt).1
  · exact (htable n hlt).2

/-- The digits of an escape pass as plain characters. -/
theorem skipString_digits {digits : List Char} {n : Nat} (h : IsCodeUnit digits n) (cs : List Char) :
    skipString ('\\' :: 'u' :: (digits ++ cs)) = skipString cs := by
  rw [skipString, if_pos rfl, readCodeUnit_append h]
  obtain ⟨ha, hb, hc, hd⟩ := h
  simp [skipString_plain (isPlain_of_isHexDigit ha), skipString_plain (isPlain_of_isHexDigit hb),
    skipString_plain (isPlain_of_isHexDigit hc), skipString_plain (isPlain_of_isHexDigit hd)]

theorem skipString_append {body : List Char} (h : IsStringBody body) (rest : List Char) :
    skipString (body ++ '"' :: rest) = .ok () rest := by
  induction h with
  | nil => rw [List.nil_append, skipString]
  | plain hc _ ih => rw [List.cons_append, skipString_plain hc, ih]
  | @letter letter c cs hmem _ ih =>
    have hletter : letter ≠ 'u' ∧ (escapedChar? letter).isSome := by
      have htable : ∀ entry ∈ letterEscapes, entry.1 ≠ 'u' ∧ (escapedChar? entry.1).isSome := by decide
      exact htable _ hmem
    rw [List.cons_append, List.cons_append, skipString, if_neg hletter.1, if_pos hletter.2, ih]
  | unit hdigits _ ih => rw [List.cons_append, List.cons_append, List.append_assoc, skipString_digits hdigits, ih]

/-! ### Values without parts -/

/-- Skipping from in front of the text, whatever brackets are open, goes on behind it and does not run out of
steps. -/
def Skips (cs : List Char) : Prop :=
  ∀ gap rest opened bound, IsGap gap → EndsValue rest → (gap ++ (cs ++ rest)).length < bound →
    ∃ left, rest.length < left ∧
      skipFrom bound .before opened (gap ++ (cs ++ rest)) = skipFrom left .behind opened rest

theorem skips_of_skipScalar {cs : List Char} {c : Char} {tail : List Char} (hcs : cs = c :: tail)
    (hblank : isBlank c = false) (hc : c ≠ '[' ∧ c ≠ '{')
    (h : ∀ rest, EndsValue rest → skipScalar (cs ++ rest) = .ok () rest) : Skips cs := by
  intro gap rest opened bound hgap hrest hbound
  have hskip := h rest hrest
  subst hcs
  obtain ⟨left, rfl⟩ := Nat.exists_eq_add_one_of_ne_zero (Nat.ne_of_gt (Nat.zero_lt_of_lt hbound))
  refine ⟨left, ?_, ?_⟩
  · simp only [List.length_append, List.length_cons] at hbound
    omega
  · rw [List.cons_append] at hskip ⊢
    rw [skipFrom, skipBlank_gap_cons hgap hblank]
    split
    · next heq => exact absurd (List.cons.inj heq).1 hc.1
    · next heq => exact absurd (List.cons.inj heq).1 hc.2
    · rw [hskip, Parsed.andThen_ok]

theorem IsWritten.exists_cons {numeral : Numeral} {cs : List Char} (h : IsWritten numeral cs) :
    ∃ c tail, cs = c :: tail ∧ startsNumber c := by
  obtain ⟨negative, whole, fraction, exponent⟩ := numeral
  obtain @⟨point, power, hwhole, -, -⟩ := h
  cases negative with
  | true => exact ⟨_, _, rfl, rfl⟩
  | false =>
    cases hwhole with
    | zero => exact ⟨_, _, rfl, rfl⟩
    | digits _ hdigits =>
      refine ⟨_, _, rfl, ?_⟩
      simp [startsNumber, hdigits.2 _ (List.mem_cons_self ..)]

theorem IsNumber.exists_cons {cs : List Char} (h : IsNumber cs) : ∃ c tail, cs = c :: tail ∧ startsNumber c := by
  obtain ⟨numeral, h⟩ := h.exists_isWritten
  exact h.exists_cons

theorem not_mem_of_startsNumber {c : Char} (h : startsNumber c) :
    c ∉ [' ', '\t', '\n', '\r', '"', '[', ']', '\x7b', '\x7d', 'f', 'n', 't'] := by
  have htable : [' ', '\t', '\n', '\r', '"', '[', ']', '\x7b', '\x7d', 'f', 'n', 't'].all (!startsNumber ·) := rfl
  intro hmem
  have hnot := List.all_eq_true.1 htable c hmem
  rw [h] at hnot
  cases hnot

theorem skipScalar_number {number rest : List Char} (h : IsNumber number) (hrest : EndsValue rest) :
    skipScalar (number ++ rest) = .ok () rest := by
  obtain ⟨numeral, hread⟩ := exists_readNumeral h hrest
  obtain ⟨c, tail, rfl, hstart⟩ := h.exists_cons
  have hnone := not_mem_of_startsNumber hstart
  simp only [List.mem_cons, not_or] at hnone
  rw [List.cons_append] at hread ⊢
  rw [skipScalar, if_pos hstart, skipNumber, hread]
  all_goals simp [hnone]

theorem IsNumber.opensPart {number : List Char} (h : IsNumber number) : OpensPart number := by
  obtain ⟨c, tail, rfl, hstart⟩ := h.exists_cons
  have hnone := not_mem_of_startsNumber hstart
  simp only [List.mem_cons, not_or] at hnone
  refine ⟨c, tail, rfl, ?_⟩
  simp [isBlank, hnone]

theorem skips_number {number : List Char} (h : IsNumber number) : Skips number := by
  obtain ⟨c, tail, rfl, hblank, -⟩ := h.opensPart
  obtain ⟨_, _, heq, hstart⟩ := h.exists_cons
  obtain ⟨rfl, -⟩ := List.cons.inj heq
  have hnone := not_mem_of_startsNumber hstart
  simp only [List.mem_cons, not_or] at hnone
  refine skips_of_skipScalar rfl hblank ?_ fun rest hrest => skipScalar_number h hrest
  simp [hnone]

theorem skips_string {cs : List Char} (h : IsString cs) : Skips cs := by
  obtain ⟨hbody⟩ := h
  refine skips_of_skipScalar rfl rfl (by decide) fun rest _ => ?_
  simpa [skipScalar] using skipString_append hbody rest

/-! ### Containers -/

namespace Bracket

def opening : Bracket → Char
  | .array => '['
  | .object => '\x7b'

def closing : Bracket → Char
  | .array => ']'
  | .object => '\x7d'

/-- Goes on from in front of a part of a container, which is an element or an entry. -/
def skipPart (bracket : Bracket) (bound : Nat) (opened : List Bracket) (cs : List Char) : Parsed Unit :=
  match bracket with
  | .array => skipFrom bound .before (.array :: opened) cs
  | .object => (skipKey cs).andThen fun _ rest => skipFrom bound .before (.object :: opened) rest

variable (bracket : Bracket)

theorem skipBlank_skipBlank (cs : List Char) : skipBlank (skipBlank cs) = skipBlank cs :=
  List.dropWhile_idempotent isBlank cs

theorem skipPart_skipBlank (bound : Nat) (opened : List Bracket) (cs : List Char) :
    bracket.skipPart bound opened (skipBlank cs) = bracket.skipPart bound opened cs := by
  cases bracket with
  | array =>
    cases bound with
    | zero => rfl
    | succ bound => rw [skipPart, skipPart, skipFrom, skipFrom, skipBlank_skipBlank]
  | object => rw [skipPart, skipPart, skipKey, skipKey, skipBlank_skipBlank]

theorem skipFrom_comma {gap : List Char} (hgap : IsGap gap) (bound : Nat) (opened : List Bracket)
    (rest : List Char) :
    skipFrom (bound + 1) .behind (bracket :: opened) (gap ++ ',' :: rest) = bracket.skipPart bound opened rest := by
  have hblank := skipBlank_gap_cons (c := ',') hgap rfl rest
  unfold skipFrom
  rw [hblank]
  cases bracket <;> rfl

theorem skipFrom_closing {gap : List Char} (hgap : IsGap gap) (bound : Nat) (opened : List Bracket)
    (rest : List Char) :
    skipFrom (bound + 1) .behind (bracket :: opened) (gap ++ bracket.closing :: rest) =
      skipFrom bound .behind opened rest := by
  have hblank : skipBlank (gap ++ bracket.closing :: rest) = bracket.closing :: rest :=
    skipBlank_gap_cons hgap (by cases bracket <;> rfl) rest
  -- the right side is the next step, and stays folded
  conv_lhs => unfold skipFrom
  rw [hblank]
  cases bracket <;> rfl

theorem skipFrom_opening {gap inner : List Char} (hgap : IsGap gap) {c : Char} {tail : List Char}
    (hinner : skipBlank inner = c :: tail) (hc : c ≠ bracket.closing) (bound : Nat) (opened : List Bracket) :
    skipFrom (bound + 1) .before opened (gap ++ bracket.opening :: inner) = bracket.skipPart bound opened inner := by
  have hblank : skipBlank (gap ++ bracket.opening :: inner) = bracket.opening :: inner :=
    skipBlank_gap_cons hgap (by cases bracket <;> rfl) inner
  rw [← skipPart_skipBlank, hinner, skipFrom, hblank]
  cases bracket with
  | array =>
    simp only [opening, hinner]
    split
    · next heq => cases heq
    · next heq => exact absurd (List.cons.inj heq).1 hc
    · rfl
  | object =>
    simp only [opening, hinner]
    split
    · next heq => cases heq
    · next heq => exact absurd (List.cons.inj heq).1 hc
    · rfl

theorem skipFrom_empty {gap inner : List Char} (hgap : IsGap gap) (hinner : IsGap inner) (bound : Nat)
    (opened : List Bracket) (rest : List Char) :
    skipFrom (bound + 1) .before opened (gap ++ bracket.opening :: (inner ++ bracket.closing :: rest)) =
      skipFrom bound .behind opened rest := by
  have hblank : skipBlank (gap ++ bracket.opening :: (inner ++ bracket.closing :: rest)) =
      bracket.opening :: (inner ++ bracket.closing :: rest) :=
    skipBlank_gap_cons hgap (by cases bracket <;> rfl) _
  have hclosing : skipBlank (inner ++ bracket.closing :: rest) = bracket.closing :: rest :=
    skipBlank_gap_cons hinner (by cases bracket <;> rfl) rest
  rw [skipFrom, hblank]
  cases bracket <;> simp only [opening, hclosing] <;> rfl

/-- Skipping from in front of the part goes on behind it, inside the same container. -/
structure SkipsPart (part : List Char) : Prop where
  opens : OpensPart part
  skip : ∀ gap rest opened bound, IsGap gap → EndsValue rest → (gap ++ (part ++ rest)).length < bound →
    ∃ left, rest.length < left ∧
      bracket.skipPart bound opened (gap ++ (part ++ rest)) = skipFrom left .behind (bracket :: opened) rest

variable {bracket} {ι : Type} {IsPart : ι → List Char → Prop}

theorem exists_skipParts {xs : List ι} {inner : List Char} (h : IsSeparated IsPart xs inner) (hne : xs ≠ [])
    (hparts : ∀ x ∈ xs, ∀ part, IsPart x part → bracket.SkipsPart part) (rest : List Char)
    (opened : List Bracket) (bound : Nat) (hbound : (inner ++ bracket.closing :: rest).length < bound) :
    ∃ left, rest.length < left ∧
      bracket.skipPart bound opened (inner ++ bracket.closing :: rest) = skipFrom left .behind opened rest := by
  have hclosing : bracket.closing ∈ [',', ']', '\x7d'] := by cases bracket <;> decide
  induction h generalizing bound with
  | nil => exact absurd rfl hne
  | @last x before part after hbefore hpart hafter =>
    have hskips := hparts x (List.mem_cons_self ..) part hpart
    rw [List.append_assoc, List.append_assoc] at hbound ⊢
    obtain ⟨left, hleft, hskip⟩ :=
      hskips.skip before _ opened bound hbefore (endsValue_behind hafter hclosing rest) hbound
    obtain ⟨left, rfl⟩ := Nat.exists_eq_add_one_of_ne_zero (Nat.ne_of_gt (Nat.zero_lt_of_lt hleft))
    refine ⟨left, ?_, by rw [hskip, skipFrom_closing bracket hafter]⟩
    simp only [List.length_append, List.length_cons] at hleft
    omega
  | @cons x y xs before part after more hbefore hpart hafter _ ih =>
    have hskips := hparts x (List.mem_cons_self ..) part hpart
    rw [List.forall_mem_cons] at hparts
    simp only [List.append_assoc, List.cons_append] at hbound ⊢
    obtain ⟨left, hleft, hskip⟩ := hskips.skip before _ opened bound hbefore
      (endsValue_behind (c := ',') hafter (by decide) (more ++ bracket.closing :: rest)) hbound
    obtain ⟨left, rfl⟩ := Nat.exists_eq_add_one_of_ne_zero (Nat.ne_of_gt (Nat.zero_lt_of_lt hleft))
    -- the comma takes one of the steps left, and at least one character
    have hmore : (more ++ bracket.closing :: rest).length < left := by
      simp only [List.length_append, List.length_cons] at hleft ⊢
      omega
    obtain ⟨left', hleft', hskip'⟩ := ih (List.cons_ne_nil y xs) hparts.2 left hmore
    exact ⟨left', hleft', by rw [hskip, skipFrom_comma bracket hafter, hskip']⟩

variable (bracket) in
/-- A container is skipped if its parts are. -/
theorem skips_container {xs : List ι} {inner : List Char} (h : IsSeparated IsPart xs inner)
    (hparts : ∀ x ∈ xs, ∀ part, IsPart x part → bracket.SkipsPart part) :
    Skips (bracket.opening :: (inner ++ [bracket.closing])) := by
  intro gap rest opened bound hgap _ hbound
  obtain ⟨bound, rfl⟩ := Nat.exists_eq_add_one_of_ne_zero (Nat.ne_of_gt (Nat.zero_lt_of_lt hbound))
  simp only [List.cons_append, List.append_assoc, List.nil_append] at hbound ⊢
  have hlength : (inner ++ bracket.closing :: rest).length < bound := by
    simp only [List.length_append, List.length_cons] at hbound ⊢
    omega
  by_cases hne : xs = []
  · subst hne
    cases h with
    | nil hinner =>
      refine ⟨bound, ?_, skipFrom_empty bracket hgap hinner bound opened rest⟩
      simp only [List.length_append, List.length_cons] at hlength
      omega
  · have hopens : ∀ x ∈ xs, ∀ part, IsPart x part → OpensPart part :=
      fun x hx part hpart => (hparts x hx part hpart).opens
    obtain ⟨c, tail, -, hc, hinner⟩ := h.exists_skipBlank hne hopens
    have hclosing : c ≠ bracket.closing := by
      cases bracket
      · exact hc.1
      · exact hc.2
    rw [skipFrom_opening bracket hgap (hinner _) hclosing]
    exact exists_skipParts h hne hparts rest opened bound hlength

end Bracket

/-! ### All values -/

theorem skipKey_append {key before : List Char} (hkey : IsString key) (hbefore : IsGap before)
    {gap : List Char} (hgap : IsGap gap) (rest : List Char) :
    skipKey (gap ++ (key ++ (before ++ ':' :: rest))) = .ok () rest := by
  obtain @⟨body, hbody⟩ := hkey
  have hskip := skipString_append hbody (before ++ ':' :: rest)
  simp only [List.cons_append, List.append_assoc, List.nil_append]
  rw [skipKey, skipBlank_gap_cons hgap rfl]
  show (skipString (body ++ '"' :: (before ++ ':' :: rest))).andThen _ = _
  rw [hskip, Parsed.andThen_ok, readColon, skipBlank_gap_cons hbefore rfl]
  rfl

theorem skipsPart_element {item : List Char} (hopens : OpensPart item) (h : Skips item) :
    Bracket.array.SkipsPart item where
  opens := hopens
  skip gap rest opened bound hgap hrest hbound := h gap rest (.array :: opened) bound hgap hrest hbound

theorem skipsPart_entry {member : List Char × List Char} {cs : List Char} (hkey : IsString member.1)
    (hcontent : Skips member.2)
    (h : IsMember (fun member cs => cs = member.1) (fun member cs => cs = member.2) member cs) :
    Bracket.object.SkipsPart cs where
  opens := h.opensPart fun key hkey' => hkey' ▸ hkey.opensPart
  skip gap rest opened bound hgap hrest hbound := by
    obtain @⟨key, before, after, content, rfl, hbefore, hafter, rfl⟩ := h
    simp only [List.append_assoc, List.cons_append] at hbound ⊢
    rw [Bracket.skipPart, skipKey_append hkey hbefore hgap, Parsed.andThen_ok]
    refine hcontent after rest (.object :: opened) bound hafter hrest ?_
    simp only [List.length_append, List.length_cons] at hbound ⊢
    omega

theorem skips_value {cs : List Char} (h : IsValue cs) : OpensPart cs ∧ Skips cs := by
  induction h with
  | null => exact ⟨⟨'n', _, rfl, by decide⟩, skips_of_skipScalar rfl rfl (by decide) fun _ _ => rfl⟩
  | true => exact ⟨⟨'t', _, rfl, by decide⟩, skips_of_skipScalar rfl rfl (by decide) fun _ _ => rfl⟩
  | false => exact ⟨⟨'f', _, rfl, by decide⟩, skips_of_skipScalar rfl rfl (by decide) fun _ _ => rfl⟩
  | number h => exact ⟨h.opensPart, skips_number h⟩
  | string h => exact ⟨h.opensPart, skips_string h⟩
  | array h _ ih =>
    refine ⟨h.opensPart, ?_⟩
    obtain ⟨hitems⟩ := h
    refine Bracket.array.skips_container hitems ?_
    rintro _ hitem item rfl
    exact skipsPart_element (ih item hitem).1 (ih item hitem).2
  | object h hkeys _ ih =>
    refine ⟨h.opensPart, ?_⟩
    obtain ⟨hmembers⟩ := h
    refine Bracket.object.skips_container hmembers ?_
    intro member hmember part hpart
    exact skipsPart_entry (hkeys member hmember) (ih member hmember).2 hpart

/-- Any value is skipped up to its end. -/
theorem skipValue_append {gap value rest : List Char} (hgap : IsGap gap) (h : IsValue value)
    (hrest : EndsValue rest) : skipValue (gap ++ (value ++ rest)) = .ok () rest := by
  obtain ⟨left, hleft, hskip⟩ := (skips_value h).2 gap rest [] _ hgap hrest (Nat.lt_succ_self _)
  obtain ⟨left, rfl⟩ := Nat.exists_eq_add_one_of_ne_zero (Nat.ne_of_gt (Nat.zero_lt_of_lt hleft))
  rw [skipValue, hskip]
  rfl

end ResourceGraph.Json
