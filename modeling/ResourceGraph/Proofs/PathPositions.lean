import ResourceGraph.Proofs.PathGrammar
import ResourceGraph.Text.Bytes

/-!
# Parsing field paths by byte positions

The brackets of a path can be looked up by their byte positions and their content cut out of the text at these
positions. A cut fails if a position lies behind the text or inside a character (`Text.splitAt?`). `parseAt?`
parses in this way, and it never fails to cut and gives what `parse` gives (`parseAt?_eq_parse`): the positions
are always those of a `[` or `]`, which are characters of one byte.
-/

namespace ResourceGraph

/-! ### Cutting a text at byte positions -/

namespace Text

/-- The text before and behind a byte position, if the position lies between two characters. -/
def splitAt? : (position : Nat) → List Char → Option (List Char × List Char)
  | 0, cs => some ([], cs)
  | _ + 1, [] => none
  | n + 1, c :: cs =>
    if c.utf8Size ≤ n + 1 then (splitAt? (n + 1 - c.utf8Size) cs).map fun (front, back) => (c :: front, back)
    else none

/-- The text from one byte position to another. -/
def cut? (start stop : Nat) (cs : List Char) : Option (List Char) := do
  let (front, _) ← splitAt? stop cs
  let (_, piece) ← splitAt? start front
  return piece

/-- The text from a byte position on. -/
def cutFrom? (start : Nat) (cs : List Char) : Option (List Char) :=
  (splitAt? start cs).map Prod.snd

/-- The byte position of the first `c`. -/
def position? (c : Char) : List Char → Option Nat
  | [] => none
  | x :: cs => if x = c then some 0 else (position? c cs).map (x.utf8Size + ·)

theorem splitAt?_byteLength (front back : List Char) :
    splitAt? (byteLength front) (front ++ back) = some (front, back) := by
  induction front with
  | nil => rw [byteLength_nil, List.nil_append, splitAt?]
  | cons c front ih =>
    obtain ⟨n, hn⟩ : ∃ n, byteLength (c :: front) = n + 1 :=
      Nat.exists_eq_add_one_of_ne_zero (mt byteLength_eq_zero_iff.1 (List.cons_ne_nil c front))
    have hrest : n + 1 - c.utf8Size = byteLength front := by
      rw [← hn, byteLength_cons]
      omega
    rw [hn, List.cons_append, splitAt?, if_pos (by rw [← hn, byteLength_cons]; omega), hrest, ih]
    rfl

theorem append_of_splitAt? {n : Nat} {cs front back : List Char} (h : splitAt? n cs = some (front, back)) :
    cs = front ++ back ∧ byteLength front = n := by
  fun_induction splitAt? n cs generalizing front back with
  | case1 cs =>
    cases h
    exact ⟨rfl, rfl⟩
  | case2 => cases h
  | case3 n c cs hle ih =>
    obtain ⟨⟨front', back'⟩, h', heq⟩ := Option.map_eq_some_iff.1 h
    obtain ⟨rfl, rfl⟩ := Prod.mk.inj heq
    obtain ⟨rfl, hlength⟩ := ih h'
    refine ⟨rfl, ?_⟩
    rw [byteLength_cons, hlength]
    omega
  | case4 => cases h

theorem cut?_append (before piece after : List Char) :
    cut? (byteLength before) (byteLength before + byteLength piece) (before ++ (piece ++ after)) = some piece := by
  have hstop := splitAt?_byteLength (before ++ piece) after
  rw [byteLength_append, List.append_assoc] at hstop
  simp [cut?, hstop, splitAt?_byteLength]

theorem cutFrom?_append (before after : List Char) :
    cutFrom? (byteLength before) (before ++ after) = some after := by
  rw [cutFrom?, splitAt?_byteLength]
  rfl

theorem length_of_cutFrom? {n : Nat} {cs rest : List Char} (h : cutFrom? (n + 1) cs = some rest) :
    rest.length < cs.length := by
  obtain ⟨⟨front, back⟩, hsplit, rfl⟩ := Option.map_eq_some_iff.1 h
  obtain ⟨rfl, hlength⟩ := append_of_splitAt? hsplit
  have hne : front ≠ [] := by
    rintro rfl
    cases hlength
  have hpos : 0 < front.length := List.length_pos_iff.2 hne
  show back.length < (front ++ back).length
  rw [List.length_append]
  omega

theorem position?_append {c : Char} {before : List Char} (h : c ∉ before) (after : List Char) :
    position? c (before ++ c :: after) = some (byteLength before) := by
  induction before with
  | nil => rw [List.nil_append, position?, if_pos rfl, byteLength_nil]
  | cons x before ih =>
    obtain ⟨hx, hbefore⟩ := not_or.1 (mt List.mem_cons.2 h)
    rw [List.cons_append, position?, if_neg (Ne.symm hx), ih hbefore]
    rfl

theorem position?_of_not_mem {c : Char} {cs : List Char} (h : c ∉ cs) : position? c cs = none := by
  induction cs with
  | nil => rfl
  | cons x cs ih =>
    obtain ⟨hx, hcs⟩ := not_or.1 (mt List.mem_cons.2 h)
    rw [position?, if_neg (Ne.symm hx), ih hcs]
    rfl

end Text

namespace FieldPath

open Text (position? splitAt? cut? cutFrom? byteLength)

/-! ### Parsing -/

/-- The positions in the brackets behind a key. Each pair of brackets is cut at the byte where it closes. -/
def bracketsAt? (rest : List Char) : Option (Except Defect (List UInt64)) :=
  if rest = [] then some (.ok [])
  else match position? ']' rest with
    | none => some (.error .unclosedBracket)
    | some close =>
      if rest.head? ≠ some '[' then some (.error .textAfterBracket)
      else (cut? 1 close rest).bind fun content =>
        match parseBracket content with
        | .error defect => some (.error defect)
        | .ok first =>
          match h : cutFrom? (close + 1) rest with
          | none => none
          | some behind =>
            have := Text.length_of_cutFrom? h
            (bracketsAt? behind).map fun others => others.map (first ++ ·)
termination_by rest.length

/-- A part before and behind the byte where its first bracket opens. -/
def splitKeyAt? (part : List Char) : Option (List Char × List Char) :=
  match position? '[' part with
  | some start => splitAt? start part
  | none => some (part, [])

/-- A key with the brackets behind it. -/
def partAt? (part : List Char) : Option (Except Defect (List Segment)) :=
  (splitKeyAt? part).bind fun (key, suffixes) =>
    if key = [] then some (.error .emptyKey)
    else (bracketsAt? suffixes).map fun positions =>
      positions.map fun positions => .key (String.ofList key) :: positions.map .index

/-- The parts of a path, from left to right. -/
def partsAt? : List (List Char) → Option (Except Defect (List Segment))
  | [] => some (.ok [])
  | part :: parts => (partAt? part).bind fun
    | .error defect => some (.error defect)
    | .ok first => (partsAt? parts).map fun others => others.map (first ++ ·)

/-- Parses an expression by byte positions; `none` if a text cannot be cut at such a position. -/
def parseAt? (expression : String) : Option (Except ParseError FieldPath) :=
  let body := body expression.toList
  if body = [] then some (.ok { segments := [] })
  else (partsAt? (body.splitOn '.')).map fun
    | .ok segments => .ok { segments }
    | .error defect => .error { expression, defect }

/-! ### No cut fails -/

theorem bracketsAt?_pair {content : List Char} (hcontent : ']' ∉ content) (rest : List Char) :
    bracketsAt? ('[' :: (content ++ ']' :: rest)) =
      match parseBracket content with
      | .error defect => some (.error defect)
      | .ok first => (bracketsAt? rest).map fun others => others.map (first ++ ·) := by
  have hopen : ']' ∉ '[' :: content := by simp [hcontent]
  have hclose : position? ']' ('[' :: (content ++ ']' :: rest)) = some (1 + byteLength content) :=
    Text.position?_append hopen rest
  have hcut : cut? 1 (1 + byteLength content) ('[' :: (content ++ ']' :: rest)) = some content :=
    Text.cut?_append ['['] content (']' :: rest)
  have hlength : byteLength ('[' :: (content ++ [']'])) = 1 + byteLength content + 1 := by
    simp only [byteLength, Text.byteLength_append, Nat.add_assoc]
    rfl
  have hbehind : cutFrom? (1 + byteLength content + 1) ('[' :: (content ++ ']' :: rest)) = some rest := by
    have hfrom := Text.cutFrom?_append ('[' :: (content ++ [']'])) rest
    rwa [hlength, List.cons_append, List.append_assoc, List.singleton_append] at hfrom
  rw [bracketsAt?, if_neg (List.cons_ne_nil _ _), hclose]
  simp only [List.head?_cons, ne_eq, not_true_eq_false, if_false, hcut, Option.bind_some]
  cases parseBracket content with
  | error defect => rfl
  | ok first =>
    simp only
    split
    · next heq =>
      rw [hbehind] at heq
      cases heq
    · next heq =>
      rw [hbehind] at heq
      obtain rfl := Option.some.inj heq
      rfl

theorem bracketsAt?_eq (cs : List Char) : bracketsAt? cs = some (parseBrackets cs) := by
  induction cs using brackets_induction with
  | nil => rw [bracketsAt?, if_pos rfl, parseBrackets]
  | unclosed cs hne hclose =>
    rw [parseBrackets_unclosed hne hclose, bracketsAt?, if_neg hne, Text.position?_of_not_mem hclose]
  | pair content rest hcontent ih =>
    rw [bracketsAt?_pair hcontent, ih, parseBrackets_pair hcontent]
    cases parseBracket content <;> cases parseBrackets rest <;> rfl
  | text c cs hopen hclose =>
    obtain ⟨before, rest, hcs, hbefore⟩ := List.eq_append_cons_of_mem hclose
    have hposition : position? ']' (c :: cs) = some (byteLength before) := by
      rw [hcs, Text.position?_append hbefore]
    rw [parseBrackets_text hopen hclose, bracketsAt?, if_neg (List.cons_ne_nil c cs), hposition]
    simp [hopen]

theorem splitKeyAt?_append {key suffixes : List Char} (hkey : '[' ∉ key)
    (hsuffixes : ∀ c ∈ suffixes.head?, c = '[') : splitKeyAt? (key ++ suffixes) = some (key, suffixes) := by
  cases suffixes with
  | nil => rw [List.append_nil, splitKeyAt?, Text.position?_of_not_mem hkey]
  | cons c suffixes =>
    obtain rfl : c = '[' := hsuffixes c rfl
    rw [splitKeyAt?, Text.position?_append hkey]
    exact Text.splitAt?_byteLength key _

theorem partAt?_eq (part : List Char) : partAt? part = some (parsePart part) := by
  obtain ⟨key, suffixes, rfl, hkey, hsuffixes⟩ := exists_key_append part
  rw [partAt?, splitKeyAt?_append hkey hsuffixes, Option.bind_some]
  by_cases hne : key = []
  · rw [hne, List.nil_append, parsePart_emptyKey hsuffixes]
    rfl
  · rw [parsePart_append hne hkey hsuffixes]
    simp only [if_neg hne, bracketsAt?_eq]
    cases parseBrackets suffixes <;> rfl

theorem partsAt?_eq (parts : List (List Char)) : partsAt? parts = some (parseParts parts) := by
  induction parts with
  | nil => rfl
  | cons part parts ih =>
    rw [partsAt?, parseParts, partAt?_eq, ih]
    cases parsePart part <;> cases parseParts parts <;> rfl

theorem parseAt?_eq_parse (expression : String) : parseAt? expression = some (parse expression) := by
  unfold parseAt? parse parseBody
  by_cases hempty : body expression.toList = []
  · simp only [hempty, if_true]
  · cases hparts : parseParts ((body expression.toList).splitOn '.') <;> simp [hempty, partsAt?_eq, hparts]

theorem exists_parse_eq (expression : String) : (∃ segments, parse expression = .ok { segments }) ∨
    ∃ defect, parse expression = .error { expression, defect } := by
  unfold parse
  cases parseBody (body expression.toList) with
  | ok segments => exact .inl ⟨segments, rfl⟩
  | error defect => exact .inr ⟨defect, rfl⟩

/-- Parsing accepts exactly the path expressions and gives the steps that they denote. A text that is none is
refused under its own name, and no text is ever cut outside its bytes or inside a character. -/
theorem parse_grammar (expression : String) :
    (∀ segments, parse expression = .ok { segments } ↔ IsExpression expression.toList segments) ∧
    ((∃ defect, parse expression = .error { expression, defect }) ↔
      ∀ segments, ¬ IsExpression expression.toList segments) ∧
    parseAt? expression = some (parse expression) := by
  refine ⟨fun _ => parse_eq_ok_iff, ?_, parseAt?_eq_parse expression⟩
  simp only [← parse_eq_ok_iff]
  constructor
  · rintro ⟨defect, herror⟩ segments hok
    rw [herror] at hok
    cases hok
  · intro hnone
    rcases exists_parse_eq expression with ⟨segments, hok⟩ | herror
    · exact absurd hok (hnone segments)
    · exact herror

end FieldPath

end ResourceGraph
