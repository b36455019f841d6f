import Mathlib.Data.List.Infix
import Mathlib.Data.List.TakeWhile
import ResourceGraph.Query.Trivia
import ResourceGraph.Text.Cut

/-!
# The grammar of trivia

`IsTrivia after gap` says of a text `gap` that stands in front of `after` that it is made of spaces and whole
comments. What follows matters, because a line comment goes up to the end of its line, which may lie behind
the gap. Splitting off the trivia at the start of a text splits off trivia in this sense
(`isTrivia_splitTrivia`).
-/

namespace ResourceGraph.Query

/-- Spaces, line comments up to the end of the line or of the text, and block comments up to their first end
mark, in front of `after`. -/
inductive IsTrivia (after : List Char) : List Char → Prop
  | nil : IsTrivia after []
  | space {c : Char} {cs : List Char} : c ∈ [' ', '\t', '\r', '\n'] → IsTrivia after cs →
    IsTrivia after (c :: cs)
  | lineComment {body cs : List Char} : '\n' ∉ body → (∀ c ∈ (cs ++ after).head?, c = '\n') →
    IsTrivia after cs → IsTrivia after ('/' :: '/' :: body ++ cs)
  | blockComment {body cs : List Char} : ¬ ['*', '/'] <:+: body → IsTrivia after cs →
    IsTrivia after ('/' :: '*' :: body ++ '*' :: '/' :: cs)

theorem mem_spaces_of_isSpace {c : Char} (h : isSpace c) : c ∈ [' ', '\t', '\r', '\n'] := by
  simp only [isSpace, Bool.or_eq_true, decide_eq_true_eq] at h
  simpa [or_assoc] using h

/-- What is split off as a comment ends at the first end mark. -/
theorem exists_body_of_splitComment? {cs comment rest : List Char}
    (h : splitComment? cs = some (comment, rest)) :
    ∃ body, comment = body ++ ['*', '/'] ∧ ¬ ['*', '/'] <:+: body := by
  fun_induction splitComment? cs generalizing comment rest with
  | case1 => cases h
  | case2 cs =>
    obtain ⟨rfl, rfl⟩ := Prod.mk.inj (Option.some.inj h)
    exact ⟨[], rfl, fun h => by simpa using h.length_le⟩
  | case3 c cs hmark ih =>
    obtain ⟨⟨comment', rest'⟩, h', heq⟩ := Option.map_eq_some_iff.1 h
    obtain ⟨rfl, rfl⟩ := Prod.mk.inj heq
    obtain ⟨body, rfl, hbody⟩ := ih h'
    refine ⟨c :: body, rfl, fun hinfix => ?_⟩
    rcases List.infix_cons_iff.1 hinfix with hbegins | hinfix
    · obtain ⟨rfl, hslash⟩ := List.cons_prefix_cons.1 hbegins
      obtain ⟨body', rfl⟩ := hslash
      have hcs := append_of_splitComment? h'
      exact hmark _ rfl hcs.symm
    · exact hbody hinfix

/-- There is a comment to split off as soon as there is an end mark. -/
theorem splitComment?_eq_none_iff {cs : List Char} : splitComment? cs = none ↔ ¬ ['*', '/'] <:+: cs := by
  fun_induction splitComment? cs with
  | case1 => exact iff_of_true rfl fun h => by simpa using h.length_le
  | case2 cs => exact iff_of_false (Option.some_ne_none _) (not_not.2 ⟨[], cs, rfl⟩)
  | case3 c cs hmark ih =>
    rw [Option.map_eq_none_iff, ih, List.infix_cons_iff, not_or, iff_and_self]
    intro _ hbegins
    obtain ⟨rfl, hslash⟩ := List.cons_prefix_cons.1 hbegins
    obtain ⟨cs', rfl⟩ := hslash
    exact hmark _ rfl rfl

theorem isTrivia_append_of_splitPiece? {cs piece trivia after : List Char}
    (h : splitPiece? cs = some (piece, trivia ++ after)) (htrivia : IsTrivia after trivia) :
    IsTrivia after (piece ++ trivia) := by
  unfold splitPiece? at h
  split at h
  · next cs =>
    obtain ⟨rfl, hrest⟩ := Prod.mk.inj (Option.some.inj h)
    refine .lineComment (fun hmem => ?_) (fun c hc => ?_) htrivia
    · simpa using List.mem_takeWhile_imp hmem
    · rw [← hrest] at hc
      simpa using Text.of_mem_head?_dropWhile hc
  · next cs =>
    obtain ⟨⟨comment, rest⟩, h', heq⟩ := Option.map_eq_some_iff.1 h
    obtain ⟨rfl, rfl⟩ := Prod.mk.inj heq
    obtain ⟨body, rfl, hbody⟩ := exists_body_of_splitComment? h'
    simpa using IsTrivia.blockComment hbody htrivia
  · next c cs =>
    split at h
    · next hspace =>
      obtain ⟨rfl, -⟩ := Prod.mk.inj (Option.some.inj h)
      exact .space (mem_spaces_of_isSpace hspace) htrivia
    · cases h
  · cases h

theorem isTrivia_splitTrivia (cs : List Char) : IsTrivia (splitTrivia cs).2 (splitTrivia cs).1 := by
  fun_induction splitTrivia cs with
  | case1 => exact .nil
  | case2 cs piece rest h _ trivia text heq ih =>
    have happend := append_splitTrivia rest
    rw [heq] at happend ih
    exact isTrivia_append_of_splitPiece? (happend ▸ h) ih

theorem splitTrivia_of_splitPiece?_eq_none {cs : List Char} (h : splitPiece? cs = none) :
    splitTrivia cs = ([], cs) := by
  rw [splitTrivia]
  split
  · rfl
  · next heq => simp [h] at heq

theorem splitTrivia_of_splitPiece? {cs piece rest : List Char} (h : splitPiece? cs = some (piece, rest)) :
    splitTrivia cs = (piece ++ (splitTrivia rest).1, (splitTrivia rest).2) := by
  rw [splitTrivia]
  split
  · next heq => simp [h] at heq
  · next heq =>
    obtain ⟨rfl, rfl⟩ : _ ∧ _ := by simpa [h] using heq
    rfl

/-- A comment goes up to its first end mark, whatever stands behind it. -/
theorem splitComment?_append {body : List Char} (h : ¬ ['*', '/'] <:+: body) (rest : List Char) :
    splitComment? (body ++ '*' :: '/' :: rest) = some (body ++ ['*', '/'], rest) := by
  induction body with
  | nil => rfl
  | cons c body ih =>
    rw [List.infix_cons_iff, not_or] at h
    have hmark : ∀ more, c = '*' → body ++ '*' :: '/' :: rest ≠ '/' :: more := by
      rintro more rfl heq
      cases body with
      | nil => simp at heq
      | cons d body =>
        obtain ⟨rfl, -⟩ := List.cons.inj heq
        exact h.1 (by simp)
    rw [List.cons_append, splitComment?, ih h.2]
    · rfl
    · exact hmark

/-- The trivia in front of a text is split off with that at its start. -/
theorem splitTrivia_append {gap after : List Char} (h : IsTrivia after gap) :
    splitTrivia (gap ++ after) = (gap ++ (splitTrivia after).1, (splitTrivia after).2) := by
  induction h with
  | nil => rfl
  | @space c cs hc _ ih =>
    have hpiece : splitPiece? (c :: (cs ++ after)) = some ([c], cs ++ after) := by
      simp only [List.mem_cons, List.not_mem_nil, or_false] at hc
      rcases hc with rfl | rfl | rfl | rfl <;> rfl
    rw [List.cons_append, splitTrivia_of_splitPiece? hpiece, ih]
    rfl
  | @lineComment body cs hbody hend _ ih =>
    have hbody' : ∀ c ∈ body, decide (c ≠ '\n') := by
      intro c hc
      simp only [ne_eq, decide_not, Bool.not_eq_true', decide_eq_false_iff_not]
      rintro rfl
      exact hbody hc
    have hend' : ∀ c ∈ (cs ++ after).head?, ¬ decide (c ≠ '\n') := by
      intro c hc
      simp [hend c hc]
    have hpiece : splitPiece? ('/' :: '/' :: (body ++ (cs ++ after))) =
        some ('/' :: '/' :: body, cs ++ after) := by
      rw [splitPiece?, Text.takeWhile_append_of_head? hbody' hend', Text.dropWhile_append_of_head? hbody' hend']
    simp only [List.cons_append, List.append_assoc]
    rw [splitTrivia_of_splitPiece? hpiece, ih]
    simp
  | @blockComment body cs hbody _ ih =>
    have hpiece : splitPiece? ('/' :: '*' :: (body ++ '*' :: '/' :: (cs ++ after))) =
        some ('/' :: '*' :: (body ++ ['*', '/']), cs ++ after) := by
      rw [splitPiece?, splitComment?_append hbody]
      rfl
    simp only [List.cons_append, List.append_assoc]
    rw [splitTrivia_of_splitPiece? hpiece, ih]
    simp

/-- Trivia is still trivia when a further line follows. -/
theorem IsTrivia.append_lineBreak {gap after : List Char} (h : IsTrivia after gap) (more : List Char) :
    IsTrivia (after ++ '\n' :: more) gap := by
  induction h with
  | nil => exact .nil
  | space hc _ ih => exact .space hc ih
  | @lineComment body cs hbody hend _ ih =>
    refine .lineComment hbody ?_ ih
    rw [← List.append_assoc]
    cases hrest : cs ++ after with
    | nil => simp
    | cons d rest =>
      intro c hc
      rw [hrest] at hend
      exact hend c hc
  | blockComment hbody _ ih => exact .blockComment hbody ih

/-- No trivia is left over. -/
theorem eq_nil_of_isTrivia {trivia after : List Char} (h : IsTrivia after trivia)
    (hnone : splitPiece? (trivia ++ after) = none) : trivia = [] := by
  cases h with
  | nil => rfl
  | @space c cs hspace _ =>
    simp only [List.mem_cons, List.not_mem_nil, or_false] at hspace
    rcases hspace with rfl | rfl | rfl | rfl <;> cases hnone
  | lineComment _ _ _ => cases hnone
  | @blockComment body cs hbody _ =>
    have hend : splitComment? (body ++ '*' :: '/' :: cs ++ after) = none := by
      simpa [splitPiece?] using hnone
    refine absurd ⟨body, cs ++ after, ?_⟩ (splitComment?_eq_none_iff.1 hend)
    simp

end ResourceGraph.Query
