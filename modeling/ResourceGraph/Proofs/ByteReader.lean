import ResourceGraph.Proofs.Slices

/-!
# Reading a text by byte positions

A byte reader stands at a byte position of a text. It sees what is there by cutting off the rest of the text,
and it fails if it has come to stand behind the text or inside a character (`slice?`). `Goes` says from where
to where a reader gets in terms of the characters on both sides of a place, and that it does not fail on the
way. There is one rule for each part that readers are made of, and a loop has two: its last step and any other,
which has to move on.
-/

namespace ResourceGraph.Query

open Text (byteLength)

/-- A program that reads in a text, from a byte position on. -/
abbrev ByteReader := ReaderT String (StateT Nat Option)

/-- A place in a text, by the characters before and behind it. -/
structure Place where
  before : List Char
  behind : List Char

namespace ByteReader
variable {α β σ : Type}

/-! ### Looking and moving -/

def position : ByteReader Nat := fun _ position => some (position, position)

/-- What is left of the text. -/
def rest : ByteReader String := fun text position =>
  (slice? text ⟨position, text.utf8ByteSize⟩).map (·, position)

/-- What is left of the text behind the next bytes. -/
def restBehind (bytes : Nat) : ByteReader String := do
  let text ← rest
  fun _ position => (slice? text ⟨bytes, text.utf8ByteSize⟩).map (·, position)

/-- The text from a byte position up to here. -/
def textFrom (start : Nat) : ByteReader String := fun text position =>
  (slice? text ⟨start, position⟩).map (·, position)

/-- Moves on by a number of bytes, whatever they are. -/
def advance (bytes : Nat) : ByteReader Unit := fun _ position => some ((), position + bytes)

def skipRest : ByteReader Unit := fun text _ => some ((), text.utf8ByteSize)

def peek : ByteReader (Option Char) := do
  return (← rest).toList.head?

def bump : ByteReader (Option Char) := do
  match ← peek with
  | none => return none
  | some c =>
    advance c.utf8Size
    return some c

/-- Reads the given character, if it is the next one. -/
def eat (c : Char) : ByteReader Bool := do
  if (← peek) = some c then
    advance c.utf8Size
    return true
  else return false

/-- Takes steps up to one that gives a result. A step that gives none has to move on within the text, or the
loop gives nothing. -/
def loop (step : σ → ByteReader (σ ⊕ α)) (state : σ) (text : String) (position : Nat) : Option (α × Nat) :=
  match step state text position with
  | none => none
  | some (.inr value, after) => some (value, after)
  | some (.inl state, after) =>
    if position < after ∧ after ≤ text.utf8ByteSize then loop step state text after else none
termination_by text.utf8ByteSize - position

def eatWhile (p : Char → Bool) : ByteReader Unit :=
  loop (fun _ => do
    if (← peek).any p then
      let _ ← bump
      return .inl ()
    else return .inr ()) ()

/-! ### Where readers get to -/

/-- In every text that consists of the characters around `place`, the reader gets from there to `place'` and
gives `value`. -/
def Goes (reader : ByteReader α) (place : Place) (value : α) (place' : Place) : Prop :=
  ∀ text : String, text.toList = place.before ++ place.behind →
    reader text (byteLength place.before) = some (value, byteLength place'.before) ∧
      text.toList = place'.before ++ place'.behind

namespace Goes
variable {reader : ByteReader α} {value : α} {place place' place'' : Place}

protected theorem pure (value : α) (place : Place) : Goes (pure value) place value place :=
  fun _ htext => ⟨rfl, htext⟩

theorem pure_of_eq {value' : α} (h : (value, place) = (value', place')) :
    Goes (Pure.pure value) place value' place' := by
  cases h
  exact .pure value place

protected theorem bind {next : α → ByteReader β} {result : β} (hfirst : Goes reader place value place')
    (hnext : Goes (next value) place' result place'') : Goes (reader >>= next) place result place'' := by
  intro text htext
  obtain ⟨hreader, htext'⟩ := hfirst text htext
  obtain ⟨hresult, htext''⟩ := hnext text htext'
  refine ⟨?_, htext''⟩
  show (reader text (byteLength place.before)).bind _ = _
  rw [hreader]
  exact hresult

theorem loop_last {step : σ → ByteReader (σ ⊕ α)} {state : σ}
    (h : Goes (step state) place (.inr value) place') : Goes (loop step state) place value place' := by
  intro text htext
  obtain ⟨hstep, htext'⟩ := h text htext
  refine ⟨?_, htext'⟩
  rw [loop, hstep]

theorem loop_more {step : σ → ByteReader (σ ⊕ α)} {state state' : σ} {read : List Char} (hread : read ≠ [])
    (hbefore : place'.before = place.before ++ read) (h : Goes (step state) place (.inl state') place')
    (hmore : Goes (loop step state') place' value place'') : Goes (loop step state) place value place'' := by
  intro text htext
  obtain ⟨hstep, htext'⟩ := h text htext
  have hlt : byteLength place.before < byteLength place'.before := by
    have := mt Text.byteLength_eq_zero_iff.1 hread
    rw [hbefore, Text.byteLength_append]
    omega
  have hle : byteLength place'.before ≤ text.utf8ByteSize := by
    rw [← Text.byteLength_toList, htext', Text.byteLength_append]
    exact Nat.le_add_right _ _
  obtain ⟨hresult, htext''⟩ := hmore text htext'
  refine ⟨?_, htext''⟩
  rw [loop, hstep]
  simp only [hlt, hle, and_self, if_true]
  exact hresult

end Goes

/-! ### The rules of the parts -/

theorem goes_position (place : Place) : Goes position place (byteLength place.before) place :=
  fun _ htext => ⟨rfl, htext⟩

theorem goes_rest (before after : List Char) :
    Goes rest ⟨before, after⟩ (String.ofList after) ⟨before, after⟩ := by
  intro text htext
  refine ⟨?_, htext⟩
  rw [rest, slice?_to_end htext]
  rfl

theorem goes_restBehind (before piece after : List Char) :
    Goes (restBehind (byteLength piece)) ⟨before, piece ++ after⟩ (String.ofList after)
      ⟨before, piece ++ after⟩ := by
  refine (goes_rest before (piece ++ after)).bind fun text htext => ⟨?_, htext⟩
  rw [slice?_to_end String.toList_ofList]
  rfl

theorem goes_textFrom (before piece after : List Char) :
    Goes (textFrom (byteLength before)) ⟨before ++ piece, after⟩ (String.ofList piece)
      ⟨before ++ piece, after⟩ := by
  intro text htext
  refine ⟨?_, htext⟩
  rw [textFrom, Text.byteLength_append, slice?_of_append htext]
  rfl

theorem goes_advance (before piece after : List Char) :
    Goes (advance (byteLength piece)) ⟨before, piece ++ after⟩ () ⟨before ++ piece, after⟩ := by
  intro text htext
  refine ⟨?_, htext.trans (List.append_assoc _ _ _).symm⟩
  rw [advance, Text.byteLength_append]

theorem goes_advance_char (before : List Char) (c : Char) (after : List Char) :
    Goes (advance c.utf8Size) ⟨before, c :: after⟩ () ⟨before ++ [c], after⟩ :=
  goes_advance before [c] after

theorem goes_skipRest (before after : List Char) :
    Goes skipRest ⟨before, after⟩ () ⟨before ++ after, []⟩ := by
  intro text htext
  refine ⟨?_, htext.trans (List.append_nil _).symm⟩
  rw [skipRest, ← Text.byteLength_toList, htext]

theorem goes_peek (before after : List Char) : Goes peek ⟨before, after⟩ after.head? ⟨before, after⟩ := by
  refine (goes_rest before after).bind ?_
  rw [String.toList_ofList]
  exact .pure _ _

theorem goes_bump_nil (before : List Char) : Goes bump ⟨before, []⟩ none ⟨before, []⟩ :=
  (goes_peek before []).bind (.pure none _)

theorem goes_bump (before : List Char) (c : Char) (after : List Char) :
    Goes bump ⟨before, c :: after⟩ (some c) ⟨before ++ [c], after⟩ :=
  (goes_peek before (c :: after)).bind ((goes_advance_char before c after).bind (.pure _ _))

theorem goes_eat (before : List Char) (c : Char) (after : List Char) :
    Goes (eat c) ⟨before, c :: after⟩ true ⟨before ++ [c], after⟩ := by
  refine (goes_peek before (c :: after)).bind ?_
  rw [List.head?_cons, if_pos rfl]
  exact (goes_advance_char before c after).bind (.pure _ _)

theorem goes_eat_false {c : Char} {after : List Char} (h : ∀ cs, after ≠ c :: cs) (before : List Char) :
    Goes (eat c) ⟨before, after⟩ false ⟨before, after⟩ := by
  have hhead : after.head? ≠ some c := fun hc => h _ (List.head?_eq_some_iff.1 hc).choose_spec
  refine (goes_peek before after).bind ?_
  rw [if_neg hhead]
  exact .pure false _

/-- Reading a character if it is the next one, with a reader for each outcome. -/
theorem goes_ifEat {c : Char} {yes no : ByteReader α} {before after : List Char} {value : α} {place : Place}
    (hyes : ∀ cs, after = c :: cs → Goes yes ⟨before ++ [c], cs⟩ value place)
    (hno : (∀ cs, after ≠ c :: cs) → Goes no ⟨before, after⟩ value place) :
    Goes (do if ← eat c then yes else no) ⟨before, after⟩ value place := by
  by_cases h : ∃ cs, after = c :: cs
  · obtain ⟨cs, rfl⟩ := h
    exact (goes_eat before c cs).bind (hyes cs rfl)
  · have hne : ∀ cs, after ≠ c :: cs := not_exists.1 h
    exact (goes_eat_false hne before).bind (hno hne)

theorem goes_eatWhile (p : Char → Bool) (before after : List Char) :
    Goes (eatWhile p) ⟨before, after⟩ () ⟨before ++ after.takeWhile p, after.dropWhile p⟩ := by
  induction after generalizing before with
  | nil =>
    rw [List.takeWhile_nil, List.append_nil]
    exact .loop_last ((goes_peek before []).bind (.pure _ _))
  | cons c after ih =>
    by_cases hc : p c
    · have hmore := ih (before ++ [c])
      rw [List.append_assoc, List.singleton_append] at hmore
      rw [List.takeWhile_cons_of_pos hc, List.dropWhile_cons_of_pos hc]
      refine .loop_more (List.cons_ne_nil c []) rfl ((goes_peek before (c :: after)).bind ?_) hmore
      rw [List.head?_cons, Option.any_some, if_pos hc]
      exact (goes_bump before c after).bind (.pure _ _)
    · rw [List.takeWhile_cons_of_neg hc, List.dropWhile_cons_of_neg hc, List.append_nil]
      refine .loop_last ((goes_peek before (c :: after)).bind ?_)
      rw [List.head?_cons, Option.any_some, if_neg hc]
      exact .pure _ _

theorem goes_eatWhile_append (p : Char → Bool) (before piece after : List Char) :
    Goes (eatWhile p) ⟨before ++ piece, after⟩ ()
      ⟨before ++ (piece ++ after.takeWhile p), after.dropWhile p⟩ := by
  rw [← List.append_assoc]
  exact goes_eatWhile p _ after

/-- Behind a first character that also belongs. -/
theorem goes_eatWhile_cons {p : Char → Bool} {c : Char} (hc : p c) (before after : List Char) :
    Goes (eatWhile p) ⟨before ++ [c], after⟩ ()
      ⟨before ++ (c :: after).takeWhile p, (c :: after).dropWhile p⟩ := by
  rw [List.takeWhile_cons_of_pos hc, List.dropWhile_cons_of_pos hc]
  exact goes_eatWhile_append p before [c] after

end ByteReader

end ResourceGraph.Query
