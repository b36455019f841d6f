import Mathlib.Algebra.Group.Nat.Defs
import Mathlib.Data.List.TakeWhile
import ResourceGraph.FieldPath.Parse

/-!
# The grammar of field paths

`IsExpression` says which texts are path expressions and which steps they denote, with nothing said about how
an expression is taken apart. Parsing accepts exactly these texts (`parseBody_eq_ok_iff`, `parse_eq_ok_iff`): going
down from the body of an expression to the content of a bracket, what is parsed is of its form, and what is of its
form is parsed.
-/

namespace ResourceGraph.FieldPath

open ResourceGraph.Text (dropLeading isBlank trim trimRight)

/-! ### Bracket suffixes -/

/-- What stands between two brackets, with the positions it denotes: nothing or a star for every element, or a
number of less than 64 bits. -/
inductive IsSelector : List Char → List UInt64 → Prop
  | all {content : List Char} : content ∈ [[], ['*']] → IsSelector content []
  | index {sign digits : List Char} : sign ∈ [[], ['+']] → digits ≠ [] → (∀ c ∈ digits, c.isDigit) →
    Nat.ofDigitChars 10 digits 0 < 2 ^ 64 →
    IsSelector (sign ++ digits) [UInt64.ofNat (Nat.ofDigitChars 10 digits 0)]

/-- Pairs of brackets, with nothing between them. -/
inductive IsSuffixes : List Char → List UInt64 → Prop
  | nil : IsSuffixes [] []
  | cons {content rest : List Char} {positions others : List UInt64} : IsSelector content positions →
    IsSuffixes rest others → IsSuffixes ('[' :: (content ++ ']' :: rest)) (positions ++ others)

/-! ### Parts -/

/-- A key with the brackets behind it. -/
inductive IsPart : List Char → List Segment → Prop
  | keyed {key suffixes : List Char} {positions : List UInt64} : key ≠ [] → '.' ∉ key → '[' ∉ key →
    IsSuffixes suffixes positions →
    IsPart (key ++ suffixes) (.key (String.ofList key) :: positions.map .index)

/-- Parts with single dots between them. -/
inductive IsParts : List Char → List Segment → Prop
  | one {part : List Char} {segments : List Segment} : IsPart part segments → IsParts part segments
  | dotted {part rest : List Char} {segments others : List Segment} : IsPart part segments →
    IsParts rest others → IsParts (part ++ '.' :: rest) (segments ++ others)

inductive IsBody : List Char → List Segment → Prop
  | empty : IsBody [] []
  | parts {body : List Char} {segments : List Segment} : IsParts body segments → IsBody body segments

/-! ### Expressions -/

/-- `core` is the text without the blanks at its ends. -/
inductive IsTrimmed : (text core : List Char) → Prop
  | between {before core after : List Char} : (∀ c ∈ before ++ after, isBlank c) →
    (∀ c ∈ core.head?, ¬ isBlank c) → (∀ c ∈ core.getLast?, ¬ isBlank c) → IsTrimmed (before ++ core ++ after) core

/-- `rest` is the text without its first character if that is `c`. -/
inductive IsStripped (c : Char) : (text rest : List Char) → Prop
  | dropped {rest : List Char} : IsStripped c (c :: rest) rest
  | kept {text : List Char} : text.head? ≠ some c → IsStripped c text text

/-- A body behind an optional root and an optional dot, with blanks around all of it. -/
def IsExpression (text : List Char) (segments : List Segment) : Prop :=
  ∃ core rooted body, IsTrimmed text core ∧ IsStripped '$' core rooted ∧ IsStripped '.' rooted body ∧
    IsBody body segments

theorem bind_eq_ok_iff {ε α β : Type} {x : Except ε α} {f : α → Except ε β} {b : β} :
    (x >>= f) = .ok b ↔ ∃ a, x = .ok a ∧ f a = .ok b := by
  cases x with
  | error e => exact ⟨fun h => (nomatch h), fun ⟨_, h, _⟩ => (nomatch h)⟩
  | ok a => exact ⟨fun h => ⟨a, rfl, h⟩, fun ⟨a', h, h'⟩ => Except.ok.inj h ▸ h'⟩

theorem bind_eq_error_iff {ε α β : Type} {x : Except ε α} {f : α → Except ε β} {e : ε} :
    (x >>= f) = .error e ↔ x = .error e ∨ ∃ a, x = .ok a ∧ f a = .error e := by
  cases x <;> simp [bind, Except.bind]

theorem bind_ok_eq_error_iff {ε α β : Type} {x : Except ε α} {f : α → β} {e : ε} :
    (x >>= fun a => .ok (f a)) = .error e ↔ x = .error e := by
  cases x <;> simp [bind, Except.bind]

/-! ### Parsing brackets -/

theorem dropLeading_plus {sign digits : List Char} (hsign : sign ∈ [[], ['+']])
    (hdigits : ∀ c ∈ digits, c.isDigit) : dropLeading '+' (sign ++ digits) = digits := by
  rcases List.mem_cons.1 hsign with rfl | hsign
  · cases digits with
    | nil => rfl
    | cons d digits =>
      have hd : d ≠ '+' := by
        rintro rfl
        exact absurd (hdigits '+' (List.mem_cons_self ..)) (by decide)
      exact Text.dropLeading_cons_of_ne hd digits
  · rw [List.mem_singleton.1 hsign]
    exact Text.dropLeading_cons_self '+' digits

theorem exists_append_dropLeading (c : Char) (cs : List Char) :
    ∃ front ∈ [[], [c]], cs = front ++ dropLeading c cs := by
  cases cs with
  | nil => exact ⟨[], List.mem_cons_self .., rfl⟩
  | cons x cs =>
    by_cases hx : x = c
    · rw [hx, Text.dropLeading_cons_self]
      exact ⟨[c], by simp, rfl⟩
    · rw [Text.dropLeading_cons_of_ne hx]
      exact ⟨[], List.mem_cons_self .., rfl⟩

theorem parseIndex?_eq_some_iff {content : List Char} {position : UInt64} :
    parseIndex? content = some position ↔ ∃ sign digits, content = sign ++ digits ∧ sign ∈ [[], ['+']] ∧
      digits ≠ [] ∧ (∀ c ∈ digits, c.isDigit) ∧ Nat.ofDigitChars 10 digits 0 < 2 ^ 64 ∧
      UInt64.ofNat (Nat.ofDigitChars 10 digits 0) = position := by
  have hsome : parseIndex? content = some position ↔ dropLeading '+' content ≠ [] ∧
      (∀ c ∈ dropLeading '+' content, c.isDigit) ∧
      Nat.ofDigitChars 10 (dropLeading '+' content) 0 < UInt64.size ∧
      UInt64.ofNat (Nat.ofDigitChars 10 (dropLeading '+' content) 0) = position := by
    simp [parseIndex?, and_assoc]
  rw [hsome]
  constructor
  · intro h
    obtain ⟨sign, hsign, hcontent⟩ := exists_append_dropLeading '+' content
    exact ⟨sign, dropLeading '+' content, hcontent, hsign, h⟩
  · rintro ⟨sign, digits, rfl, hsign, hne, hdigits, hvalue⟩
    rw [dropLeading_plus hsign hdigits]
    exact ⟨hne, hdigits, hvalue⟩

theorem isSelector_iff {content : List Char} {positions : List UInt64} :
    IsSelector content positions ↔ content ∈ [[], ['*']] ∧ positions = [] ∨
      ∃ position, parseIndex? content = some position ∧ positions = [position] := by
  constructor
  · rintro (hall | ⟨hsign, hne, hdigits, hvalue⟩)
    · exact .inl ⟨hall, rfl⟩
    · exact .inr ⟨_, parseIndex?_eq_some_iff.2 ⟨_, _, rfl, hsign, hne, hdigits, hvalue, rfl⟩, rfl⟩
  · rintro (⟨hall, rfl⟩ | ⟨position, hindex, rfl⟩)
    · exact .all hall
    · obtain ⟨sign, digits, rfl, hsign, hne, hdigits, hvalue, rfl⟩ := parseIndex?_eq_some_iff.1 hindex
      exact .index hsign hne hdigits hvalue

theorem parseBracket_eq_ok_iff {content : List Char} {positions : List UInt64} :
    parseBracket content = .ok positions ↔ IsSelector content positions := by
  rw [isSelector_iff, parseBracket]
  by_cases hall : content = [] ∨ content = ['*']
  · have hnone : parseIndex? content = none := by
      rcases hall with rfl | rfl <;> rfl
    simp [hall, hnone, eq_comm]
  · cases hindex : parseIndex? content <;> simp [hall, eq_comm]

/-- No brackets and no dots stand inside a selector. -/
theorem IsSelector.not_mem {content : List Char} {positions : List UInt64} (h : IsSelector content positions)
    {c : Char} (hc : c ∈ [']', '.', '[']) : c ∉ content := by
  intro hmem
  cases h with
  | all hall =>
    simp only [List.mem_cons, List.not_mem_nil, or_false] at hall hc
    rcases hall with rfl | rfl
    · exact absurd hmem List.not_mem_nil
    · rcases hc with rfl | rfl | rfl <;> simp at hmem
  | @index sign digits hsign _ hdigits _ =>
    simp only [List.mem_cons, List.not_mem_nil, or_false] at hsign hc
    rcases List.mem_append.1 hmem with hmem | hmem
    · rcases hsign with rfl | rfl <;> rcases hc with rfl | rfl | rfl <;> simp at hmem
    · have hdigit := hdigits c hmem
      rcases hc with rfl | rfl | rfl <;> exact absurd hdigit (by decide)

/-- Texts by how their first pair of brackets is closed: not at all, behind the bracket that opens the text, or
behind a character that is no bracket. -/
theorem brackets_induction {motive : List Char → Prop} (nil : motive [])
    (unclosed : ∀ cs, cs ≠ [] → ']' ∉ cs → motive cs)
    (pair : ∀ content rest, ']' ∉ content → motive rest → motive ('[' :: (content ++ ']' :: rest)))
    (text : ∀ c cs, c ≠ '[' → ']' ∈ c :: cs → motive (c :: cs)) (cs : List Char) : motive cs := by
  induction hlength : cs.length using Nat.strongRecOn generalizing cs with
  | ind length ih =>
    cases cs with
    | nil => exact nil
    | cons c cs =>
      by_cases hclose : ']' ∈ c :: cs
      · by_cases hopen : c = '['
        · obtain ⟨content, rest, rfl, hcontent⟩ : ∃ content rest, cs = content ++ ']' :: rest ∧ ']' ∉ content :=
            List.eq_append_cons_of_mem (by simpa [hopen] using hclose)
          rw [hopen]
          refine pair content rest hcontent (ih _ ?_ rest rfl)
          simp only [← hlength, List.length_cons, List.length_append]
          omega
        · exact text c cs hopen hclose
      · exact unclosed _ (List.cons_ne_nil c cs) hclose

theorem forall_ne_of_not_mem {c : Char} {cs : List Char} (h : c ∉ cs) : ∀ x ∈ cs, (x ≠ c : Bool) := by
  intro x hx
  simp only [decide_eq_true_eq]
  rintro rfl
  exact h hx

theorem parseBrackets_pair {content : List Char} (hcontent : ']' ∉ content) (rest : List Char) :
    parseBrackets ('[' :: (content ++ ']' :: rest)) = (do
      let first ← parseBracket content
      let others ← parseBrackets rest
      .ok (first ++ others)) := by
  have hinside := forall_ne_of_not_mem hcontent
  have hstop : ∀ c ∈ (']' :: rest).head?, ¬ (c ≠ ']' : Bool) := by simp
  have htake : (content ++ ']' :: rest).takeWhile (· ≠ ']') = content :=
    Text.takeWhile_append_of_head? hinside hstop
  have hdrop : ('[' :: (content ++ ']' :: rest)).dropWhile (· ≠ ']') = ']' :: rest :=
    Text.dropWhile_append_of_head? hinside hstop
  rw [parseBrackets]
  split
  · next heq =>
    rw [hdrop] at heq
    cases heq
  · next heq =>
    rw [hdrop] at heq
    obtain ⟨-, rfl⟩ := List.cons.inj heq
    rw [if_pos rfl, htake]

theorem parseBrackets_unclosed {cs : List Char} (hne : cs ≠ []) (hclose : ']' ∉ cs) :
    parseBrackets cs = .error .unclosedBracket := by
  obtain ⟨c, cs, rfl⟩ := List.exists_cons_of_ne_nil hne
  have hdrop : (c :: cs).dropWhile (· ≠ ']') = [] :=
    List.dropWhile_eq_nil_iff.2 (forall_ne_of_not_mem hclose)
  rw [parseBrackets]
  split
  · rfl
  · next heq =>
    rw [hdrop] at heq
    cases heq

theorem parseBrackets_text {c : Char} {cs : List Char} (hopen : c ≠ '[') (hclose : ']' ∈ c :: cs) :
    parseBrackets (c :: cs) = .error .textAfterBracket := by
  rw [parseBrackets]
  split
  · next heq => simpa using List.dropWhile_eq_nil_iff.1 heq ']' hclose
  · rw [if_neg hopen]

theorem isSuffixes_of_parseBrackets {cs : List Char} {positions : List UInt64}
    (h : parseBrackets cs = .ok positions) : IsSuffixes cs positions := by
  induction cs using brackets_induction generalizing positions with
  | nil =>
    rw [parseBrackets] at h
    obtain rfl := Except.ok.inj h
    exact .nil
  | unclosed cs hne hclose =>
    rw [parseBrackets_unclosed hne hclose] at h
    cases h
  | pair content rest hcontent ih =>
    rw [parseBrackets_pair hcontent] at h
    obtain ⟨first, hfirst, h⟩ := bind_eq_ok_iff.1 h
    obtain ⟨others, hothers, h⟩ := bind_eq_ok_iff.1 h
    obtain rfl := Except.ok.inj h
    exact .cons (parseBracket_eq_ok_iff.1 hfirst) (ih hothers)
  | text c cs hopen hclose =>
    rw [parseBrackets_text hopen hclose] at h
    cases h

theorem parseBrackets_of_isSuffixes {cs : List Char} {positions : List UInt64} (h : IsSuffixes cs positions) :
    parseBrackets cs = .ok positions := by
  induction h with
  | nil => rw [parseBrackets]
  | @cons content rest positions others hselector _ ih =>
    have hclose : ']' ∉ content := hselector.not_mem (List.mem_cons_self ..)
    rw [parseBrackets_pair hclose, parseBracket_eq_ok_iff.2 hselector, ih]
    rfl

/-! ### Parsing parts -/

theorem IsSuffixes.dot_not_mem {cs : List Char} {positions : List UInt64} (h : IsSuffixes cs positions) :
    '.' ∉ cs := by
  induction h with
  | nil => exact List.not_mem_nil
  | @cons content rest positions others hselector _ ih =>
    have hdot : '.' ∉ content := hselector.not_mem (by simp)
    simp [hdot, ih]

theorem IsSuffixes.head? {cs : List Char} {positions : List UInt64} (h : IsSuffixes cs positions) :
    ∀ c ∈ cs.head?, c = '[' := by
  cases h with
  | nil => simp
  | cons _ _ => simp

/-- A part is a key, which may be empty, and what follows from the first bracket on. -/
theorem exists_key_append (part : List Char) : ∃ key suffixes, part = key ++ suffixes ∧ '[' ∉ key ∧
    ∀ c ∈ suffixes.head?, c = '[' := by
  refine ⟨part.takeWhile (· ≠ '['), part.dropWhile (· ≠ '['), List.takeWhile_append_dropWhile.symm, ?_, ?_⟩
  · exact fun hmem => by simpa using List.mem_takeWhile_imp hmem
  · exact fun c hc => by simpa using Text.of_mem_head?_dropWhile hc

theorem parsePart_emptyKey {part : List Char} (h : ∀ c ∈ part.head?, c = '[') :
    parsePart part = .error .emptyKey := by
  have hkey : part.takeWhile (· ≠ '[') = [] := by
    cases part with
    | nil => rfl
    | cons c part => rw [h c rfl]; rfl
  simp only [parsePart, hkey, if_true]

theorem parsePart_append {key suffixes : List Char} (hne : key ≠ []) (hkey : '[' ∉ key)
    (hsuffixes : ∀ c ∈ suffixes.head?, c = '[') :
    parsePart (key ++ suffixes) = (do
      let positions ← parseBrackets suffixes
      .ok (.key (String.ofList key) :: positions.map .index)) := by
  have hinside := forall_ne_of_not_mem hkey
  have hstop : ∀ c ∈ suffixes.head?, ¬ (c ≠ '[' : Bool) := by simpa using hsuffixes
  have htake := Text.takeWhile_append_of_head? hinside hstop
  have hdrop := Text.dropWhile_append_of_head? hinside hstop
  simp only [parsePart, htake, hdrop, if_neg hne]

theorem parsePart_eq_ok_iff {part : List Char} (hpart : '.' ∉ part) {segments : List Segment} :
    parsePart part = .ok segments ↔ IsPart part segments := by
  constructor
  · intro h
    obtain ⟨key, suffixes, rfl, hkey, hsuffixes⟩ := exists_key_append part
    by_cases hne : key = []
    · rw [hne, List.nil_append, parsePart_emptyKey hsuffixes] at h
      cases h
    · rw [parsePart_append hne hkey hsuffixes] at h
      obtain ⟨positions, hpositions, h⟩ := bind_eq_ok_iff.1 h
      obtain rfl := Except.ok.inj h
      have hdot : '.' ∉ key := fun hmem => hpart (List.mem_append_left _ hmem)
      exact .keyed hne hdot hkey (isSuffixes_of_parseBrackets hpositions)
  · rintro ⟨hne, -, hkey, hsuffixes⟩
    rw [parsePart_append hne hkey hsuffixes.head?, parseBrackets_of_isSuffixes hsuffixes]
    rfl

theorem IsPart.dot_not_mem {part : List Char} {segments : List Segment} (h : IsPart part segments) :
    '.' ∉ part := by
  obtain ⟨-, hdot, -, hsuffixes⟩ := h
  simp [hdot, hsuffixes.dot_not_mem]

/-! ### Parsing bodies -/

theorem splitOn_cases (body : List Char) : ('.' ∉ body ∧ body.splitOn '.' = [body]) ∨
    ∃ part rest, body = part ++ '.' :: rest ∧ '.' ∉ part ∧ body.splitOn '.' = part :: rest.splitOn '.' := by
  by_cases hdot : '.' ∈ body
  · obtain ⟨part, rest, rfl, hpart⟩ := List.eq_append_cons_of_mem hdot
    exact .inr ⟨part, rest, rfl, hpart, List.splitOn_append_cons_self_of_not_mem hpart rest⟩
  · exact .inl ⟨hdot, List.splitOn_eq_singleton hdot⟩

theorem parseParts_singleton (part : List Char) : parseParts [part] = parsePart part := by
  cases h : parsePart part <;> simp [parseParts, h, bind, Except.bind]

theorem isParts_of_parseParts {body : List Char} {segments : List Segment}
    (h : parseParts (body.splitOn '.') = .ok segments) : IsParts body segments := by
  induction hlength : body.length using Nat.strongRecOn generalizing body segments with
  | ind length ih =>
    rcases splitOn_cases body with ⟨hdot, hsplit⟩ | ⟨part, rest, rfl, hdot, hsplit⟩
    · rw [hsplit, parseParts_singleton] at h
      exact .one ((parsePart_eq_ok_iff hdot).1 h)
    · rw [hsplit, parseParts] at h
      obtain ⟨first, hfirst, h⟩ := bind_eq_ok_iff.1 h
      obtain ⟨others, hothers, h⟩ := bind_eq_ok_iff.1 h
      obtain rfl := Except.ok.inj h
      refine .dotted ((parsePart_eq_ok_iff hdot).1 hfirst) (ih _ ?_ hothers rfl)
      rw [← hlength, List.length_append, List.length_cons]
      omega

theorem parseParts_of_isParts {body : List Char} {segments : List Segment} (h : IsParts body segments) :
    parseParts (body.splitOn '.') = .ok segments := by
  induction h with
  | @one part segments hpart =>
    rw [List.splitOn_eq_singleton hpart.dot_not_mem, parseParts_singleton]
    exact (parsePart_eq_ok_iff hpart.dot_not_mem).2 hpart
  | @dotted part rest segments others hpart _ ih =>
    rw [List.splitOn_append_cons_self_of_not_mem hpart.dot_not_mem, parseParts,
      (parsePart_eq_ok_iff hpart.dot_not_mem).2 hpart, ih]
    rfl

theorem IsParts.ne_nil {body : List Char} {segments : List Segment} (h : IsParts body segments) : body ≠ [] := by
  cases h with
  | one hpart =>
    obtain ⟨hne, -⟩ := hpart
    exact List.append_ne_nil_of_left_ne_nil hne _
  | dotted _ _ => exact List.append_ne_nil_of_right_ne_nil _ (List.cons_ne_nil _ _)

theorem parseBody_eq_ok_iff {body : List Char} {segments : List Segment} :
    parseBody body = .ok segments ↔ IsBody body segments := by
  unfold parseBody
  split_ifs with hempty
  · rw [hempty]
    constructor
    · intro h
      obtain rfl := Except.ok.inj h
      exact .empty
    · rintro (_ | hparts)
      · rfl
      · exact absurd rfl hparts.ne_nil
  · constructor
    · exact fun h => .parts (isParts_of_parseParts h)
    · rintro (_ | hparts)
      · exact absurd rfl hempty
      · exact parseParts_of_isParts hparts

/-! ### Finding the body -/

theorem isStripped_iff {c : Char} {text rest : List Char} : IsStripped c text rest ↔ rest = dropLeading c text := by
  constructor
  · rintro (_ | hkept)
    · exact (Text.dropLeading_cons_self c rest).symm
    · cases text with
      | nil => rfl
      | cons x text => exact (Text.dropLeading_cons_of_ne (fun hx => hkept (by simp [hx])) text).symm
  · rintro rfl
    cases text with
    | nil => exact .kept (by simp)
    | cons x text =>
      by_cases hx : x = c
      · rw [hx, Text.dropLeading_cons_self]
        exact .dropped
      · rw [Text.dropLeading_cons_of_ne hx]
        exact .kept (by simpa using hx)

theorem trimRight_append {after : List Char} (hafter : ∀ c ∈ after, isBlank c) (cs : List Char) :
    trimRight (cs ++ after) = trimRight cs := by
  rw [trimRight, trimRight, List.reverse_append, List.dropWhile_append_of_pos]
  exact fun c hc => hafter c (List.mem_reverse.1 hc)

theorem exists_append_trimRight (cs : List Char) :
    ∃ after, (∀ c ∈ after, isBlank c) ∧ cs = trimRight cs ++ after := by
  refine ⟨(cs.reverse.takeWhile isBlank).reverse, fun c hc => ?_, ?_⟩
  · exact List.mem_takeWhile_imp (List.mem_reverse.1 hc)
  · rw [trimRight, ← List.reverse_append, List.takeWhile_append_dropWhile, List.reverse_reverse]

theorem getLast?_trimRight {cs : List Char} {c : Char} (hc : c ∈ (trimRight cs).getLast?) : ¬ isBlank c := by
  rw [trimRight, List.getLast?_reverse] at hc
  simp [Text.of_mem_head?_dropWhile hc]

theorem isTrimmed_iff {text core : List Char} : IsTrimmed text core ↔ core = trim text := by
  constructor
  · rintro (@⟨before, core, after, hblank, hfirst, hlast⟩)
    have hbefore : ∀ c ∈ before, isBlank c := fun c hc => hblank c (List.mem_append_left _ hc)
    have hafter : ∀ c ∈ after, isBlank c := fun c hc => hblank c (List.mem_append_right _ hc)
    cases core with
    | nil =>
      rw [trim, List.append_nil, List.dropWhile_eq_nil_iff.2 hblank]
      rfl
    | cons c core =>
      have hself : trim (c :: core) = c :: core := Text.trim_eq_self hfirst hlast
      have hdrop : (before ++ (c :: core ++ after)).dropWhile isBlank = c :: core ++ after :=
        Text.dropWhile_append_of_head? hbefore hfirst
      have hcore : (c :: core).dropWhile isBlank = c :: core := List.dropWhile_cons_of_neg (hfirst c rfl)
      rw [trim, hcore] at hself
      rw [List.append_assoc, trim, hdrop, trimRight_append hafter, hself]
  · rintro rfl
    obtain ⟨after, hafter, hrest⟩ := exists_append_trimRight (text.dropWhile isBlank)
    have htext : text.takeWhile isBlank ++ trim text ++ after = text := by
      rw [List.append_assoc, trim, ← hrest, List.takeWhile_append_dropWhile]
    have hblank : ∀ c ∈ text.takeWhile isBlank ++ after, isBlank c := fun c hc =>
      (List.mem_append.1 hc).elim List.mem_takeWhile_imp (hafter c)
    have hfirst : ∀ c ∈ (trim text).head?, ¬ isBlank c := by
      intro c hc
      have hcore : (trimRight (text.dropWhile isBlank)).head? = some c := hc
      have hhead : c ∈ (text.dropWhile isBlank).head? := by
        rw [hrest, List.head?_append, hcore]
        rfl
      simp [Text.of_mem_head?_dropWhile hhead]
    have htrimmed := IsTrimmed.between hblank hfirst fun c hc => getLast?_trimRight hc
    rwa [htext] at htrimmed

theorem isExpression_iff {text : List Char} {segments : List Segment} :
    IsExpression text segments ↔ IsBody (body text) segments := by
  simp only [IsExpression, isTrimmed_iff, isStripped_iff]
  constructor
  · rintro ⟨_, _, _, rfl, rfl, rfl, hbody⟩
    exact hbody
  · exact fun hbody => ⟨_, _, _, rfl, rfl, rfl, hbody⟩

theorem parse_eq_ok_iff {expression : String} {segments : List Segment} :
    parse expression = .ok { segments } ↔ IsExpression expression.toList segments := by
  rw [isExpression_iff, ← parseBody_eq_ok_iff, parse]
  cases parseBody (body expression.toList) <;> simp

end ResourceGraph.FieldPath
