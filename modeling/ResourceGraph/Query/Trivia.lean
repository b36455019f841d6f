/-!
# Trivia

White space and comments stand between tokens and mean nothing. Text is split into pieces of trivia as far
as it goes (`splitTrivia`); the pieces and what remains make up the text again. A block comment that is
never closed is no trivia.
-/

namespace ResourceGraph.Query

/-- White space of the query language. -/
def isSpace (c : Char) : Bool :=
  c = ' ' || c = '\t' || c = '\r' || c = '\n'

/-- Splits a text behind the first `*/`. -/
def splitComment? : List Char → Option (List Char × List Char)
  | [] => none
  | '*' :: '/' :: rest => some (['*', '/'], rest)
  | c :: cs => (splitComment? cs).map fun (comment, rest) => (c :: comment, rest)

/-- Splits off one piece of trivia: a white space character, a line comment without its line end, or a block
comment. -/
def splitPiece? : List Char → Option (List Char × List Char)
  | '/' :: '/' :: cs => some ('/' :: '/' :: cs.takeWhile (· ≠ '\n'), cs.dropWhile (· ≠ '\n'))
  | '/' :: '*' :: cs => (splitComment? cs).map fun (comment, rest) => ('/' :: '*' :: comment, rest)
  | c :: cs => if isSpace c then some ([c], cs) else none
  | [] => none

theorem append_of_splitComment? {cs comment rest : List Char} (h : splitComment? cs = some (comment, rest)) :
    comment ++ rest = cs := by
  fun_induction splitComment? cs generalizing comment rest with
  | case1 => simp at h
  | case2 => grind
  | case3 c cs _ ih =>
    obtain ⟨⟨comment', rest'⟩, h', heq⟩ := Option.map_eq_some_iff.1 h
    simp only [Prod.mk.injEq] at heq
    obtain ⟨rfl, rfl⟩ := heq
    simp [ih h']

theorem append_of_splitPiece? {cs piece rest : List Char} (h : splitPiece? cs = some (piece, rest)) :
    piece ++ rest = cs ∧ piece ≠ [] := by
  unfold splitPiece? at h
  split at h
  · simp only [Option.some.injEq, Prod.mk.injEq] at h
    obtain ⟨rfl, rfl⟩ := h
    simp
  · obtain ⟨⟨comment, rest'⟩, h', heq⟩ := Option.map_eq_some_iff.1 h
    simp only [Prod.mk.injEq] at heq
    obtain ⟨rfl, rfl⟩ := heq
    simp [append_of_splitComment? h']
  · split at h <;> simp_all
    grind
  · simp at h

theorem length_of_splitPiece? {cs piece rest : List Char} (h : splitPiece? cs = some (piece, rest)) :
    rest.length < cs.length := by
  obtain ⟨rfl, hne⟩ := append_of_splitPiece? h
  have := List.length_pos_iff.2 hne
  simp only [List.length_append]
  omega

/-- Splits off all the trivia at the start of a text. -/
def splitTrivia (cs : List Char) : List Char × List Char :=
  match h : splitPiece? cs with
  | none => ([], cs)
  | some (piece, rest) =>
    have := length_of_splitPiece? h
    let (trivia, text) := splitTrivia rest
    (piece ++ trivia, text)
termination_by cs.length

theorem append_splitTrivia (cs : List Char) : (splitTrivia cs).1 ++ (splitTrivia cs).2 = cs := by
  fun_induction splitTrivia cs with
  | case1 => rfl
  | case2 cs piece rest h _ trivia text heq ih => simp_all [(append_of_splitPiece? h).1.symm]

theorem splitPiece?_splitTrivia (cs : List Char) : splitPiece? (splitTrivia cs).2 = none := by
  fun_induction splitTrivia cs with
  | case1 _ h => exact h
  | case2 cs piece rest h _ trivia text heq ih => simp_all

theorem length_splitTrivia_le (cs : List Char) : (splitTrivia cs).2.length ≤ cs.length := by
  have := congrArg List.length (append_splitTrivia cs)
  simp only [List.length_append] at this
  omega

end ResourceGraph.Query
