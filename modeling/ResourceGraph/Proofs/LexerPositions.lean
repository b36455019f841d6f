import ResourceGraph.Proofs.ByteReader
import ResourceGraph.Proofs.TokenSequence
import ResourceGraph.Proofs.TriviaGrammar

/-!
# Reading tokens by byte positions

The tokens of a text can be read character by character at byte positions, with a token cut out between the
positions at which it starts and stops. `tokenizeAt?` reads a text in this way. No slice that it takes fails,
and it gives what `tokenize` gives (`tokenizeAt?_eq`), since every scanner goes where the lexeme that it scans
ends.
-/

namespace ResourceGraph.Query

open Text (byteLength)

namespace ByteReader

/-! ### Scanners -/

/-- The token of the given kind from a byte position up to here. -/
def emit (kind : TokenKind) (start : Nat) : ByteReader Token := do
  let literal ← textFrom start
  let stop ← position
  return { kind, literal, span := ⟨start, stop⟩ }

/-- The byte position of the first `*/`. -/
def closeAt? : List Char → Option Nat
  | [] => none
  | '*' :: '/' :: _ => some 0
  | c :: cs => (closeAt? cs).map (c.utf8Size + ·)

/-- Skips a block comment. One that is not closed is a token up to the end of the text. -/
def blockPart : ByteReader (Unit ⊕ Option Token) := do
  let start ← position
  match closeAt? (← restBehind 2).toList with
  | some close =>
    advance (2 + close + 2)
    return .inl ()
  | none =>
    skipRest
    return .inr (some (← emit .illegal start))

/-- Skips a comment. Where none stands the trivia has come to its end. -/
def commentPart : ByteReader (Unit ⊕ Option Token) := do
  let left ← rest
  if ['/', '/'].isPrefixOf left.toList then
    eatWhile (· ≠ '\n')
    return .inl ()
  else if ['/', '*'].isPrefixOf left.toList then blockPart
  else return .inr none

def skipTrivia : ByteReader (Option Token) :=
  loop (fun _ => do
    eatWhile isSpace
    commentPart) ()

/-- A dot and a name behind it. -/
def labelPart : ByteReader (Unit ⊕ TokenKind) := do
  if ← eat '.' then
    if (← peek).any isNameStart then
      eatWhile isNamePart
      return .inl ()
    else return .inr .illegal
  else return .inr .ident

/-- A name from behind its first character on. -/
def scanName (names : NameMode) (start : Nat) : ByteReader TokenKind := do
  eatWhile isNamePart
  match names with
  | .plain => return .ofWord (← textFrom start).toList
  | .label => loop (fun _ => labelPart) ()

def eatEither (c d : Char) : ByteReader Bool := do
  if ← eat c then return true else eat d

def eatFraction : ByteReader Bool := do
  if ← eat '.' then
    eatWhile Char.isDigit
    return true
  else return false

def eatExponent : ByteReader Bool := do
  if ← eatEither 'e' 'E' then
    let _ ← eatEither '+' '-'
    eatWhile Char.isDigit
    return true
  else return false

/-- A number from behind its first digit on. -/
def scanNumber : ByteReader TokenKind := do
  eatWhile Char.isDigit
  let fraction ← eatFraction
  let exponent ← eatExponent
  return if fraction || exponent then .illegal else .number

/-- A character of a string, or a backslash and the character behind it. -/
def stringPart : ByteReader (Unit ⊕ TokenKind) := do
  match ← peek with
  | none => return .inr .illegal
  | some '\n' => return .inr .illegal
  | some '"' =>
    let _ ← bump
    return .inr .string
  | some '\\' =>
    let _ ← bump
    if (← peek).any (· ≠ '\n') then
      let _ ← bump
      return .inl ()
    else return .inl ()
  | some _ =>
    let _ ← bump
    return .inl ()

/-- A string from behind its opening quote on. -/
def scanString : ByteReader TokenKind :=
  loop (fun _ => stringPart) ()

/-- An operator from behind its first character on. -/
def scanOperator (minus : MinusMode) : Char → ByteReader TokenKind
  | '[' => return .leftBracket
  | ']' => do
    if ← eat '-' then
      if ← eat '>' then return .rightArrowClose else return .lineClose
    else return .rightBracket
  | '(' => return .leftParen
  | ')' => return .rightParen
  | '\x7b' => return .leftBrace
  | '\x7d' => return .rightBrace
  | ':' => return .colon
  | ',' => return .comma
  | '.' => return .dot
  | '=' => do
    if ← eat '~' then return .regexEquals else return .equals
  | '!' => do
    if ← eat '=' then return .notEquals else return .illegal
  | '-' => do
    if ← eat '>' then return .rightArrow
    else if ← eat '[' then return .lineOpen
    else if ← eat '-' then return .line
    else return minus.kind
  | '<' => do
    if ← eat '-' then
      if ← eat '[' then return .leftArrowOpen else return .leftArrow
    else if ← eat '=' then return .lessOrEqual
    else if ← eat '<' then return .illegal
    else return .less
  | '>' => do
    if ← eat '=' then return .greaterOrEqual else return .greater
  | _ => return .illegal

/-- A lexeme from behind its first character on. -/
def scanKind (names : NameMode) (minus : MinusMode) (start : Nat) (c : Char) : ByteReader TokenKind :=
  if isNameStart c then scanName names start
  else if c.isDigit then scanNumber
  else if c = '"' then scanString
  else scanOperator minus c

/-- A token where no trivia stands. -/
def scanToken (names : NameMode) (minus : MinusMode) : ByteReader Token := do
  let start ← position
  match ← bump with
  | none => return { kind := .eof, literal := "", span := ⟨start, start⟩ }
  | some c => emit (← scanKind names minus start c) start

def scan (names : NameMode) (minus : MinusMode) : ByteReader Token := do
  match ← skipTrivia with
  | some token => return token
  | none => scanToken names minus

/-- One more token, with the tokens before it; `eof` is the last one. -/
def scanMore : NameMode × List Token → ByteReader ((NameMode × List Token) ⊕ List Token)
  | (names, tokens) => do
    let token ← scan names .refused
    if token.isEof then return .inr (tokens ++ [token])
    else return .inl (names.after token.kind, tokens ++ [token])

end ByteReader

/-- The token of a lexeme that starts at the given byte. -/
def Lexeme.toToken (start : Nat) (lexeme : Lexeme) : Token where
  kind := lexeme.kind
  literal := String.ofList lexeme.text
  span := ⟨start, start + byteLength lexeme.text⟩

/-- The tokens of a text, read by byte positions; `none` if a slice would leave the text or cut a character, or
if a loop would stand still. -/
def tokenizeAt? (text : String) : Option (List Token) :=
  (ByteReader.loop ByteReader.scanMore (.plain, []) text 0).map Prod.fst

namespace ByteReader

/-! ### Readers of lexemes -/

theorem goes_emit (kind : TokenKind) (before piece after : List Char) :
    Goes (emit kind (byteLength before)) ⟨before ++ piece, after⟩
      ⟨kind, String.ofList piece, ⟨byteLength before, byteLength before + byteLength piece⟩⟩
      ⟨before ++ piece, after⟩ := by
  refine (goes_textFrom before piece after).bind ((goes_position _).bind ?_)
  rw [Text.byteLength_append]
  exact .pure _ _

/-- From behind its first character on the reader gets to the end of the lexeme. -/
abbrev Scans (reader : ByteReader TokenKind) (before : List Char) (c : Char) (cs : List Char)
    (lexeme : Lexeme) : Prop :=
  Goes reader ⟨before ++ [c], cs⟩ lexeme.kind ⟨before ++ lexeme.text, lexeme.rest⟩

/-! ### Names -/

theorem goes_labelPart_name {rest : List Char} (h : rest.head?.any isNameStart) (before : List Char) :
    Goes labelPart ⟨before, '.' :: rest⟩ (.inl ())
      ⟨before ++ '.' :: rest.takeWhile isNamePart, rest.dropWhile isNamePart⟩ := by
  refine (goes_eat before '.' rest).bind ((goes_peek _ rest).bind ?_)
  rw [if_pos h]
  exact (goes_eatWhile_append isNamePart before ['.'] rest).bind (.pure _ _)

theorem goes_labelPart_dot {rest : List Char} (h : ¬ rest.head?.any isNameStart) (before : List Char) :
    Goes labelPart ⟨before, '.' :: rest⟩ (.inr .illegal) ⟨before ++ ['.'], rest⟩ := by
  refine (goes_eat before '.' rest).bind ((goes_peek _ rest).bind ?_)
  rw [if_neg h]
  exact .pure _ _

theorem goes_labelPart_end {rest : List Char} (h : ∀ cs, rest ≠ '.' :: cs) (before : List Char) :
    Goes labelPart ⟨before, rest⟩ (.inr .ident) ⟨before, rest⟩ :=
  (goes_eat_false h before).bind (.pure _ _)

/-- Behind the first name of a label. -/
theorem goes_label (before cs : List Char) :
    Goes (loop (fun _ => labelPart) ()) ⟨before ++ cs.takeWhile isNamePart, cs.dropWhile isNamePart⟩
      (Lexeme.readLabel cs).kind ⟨before ++ (Lexeme.readLabel cs).text, (Lexeme.readLabel cs).rest⟩ := by
  fun_induction Lexeme.readLabel cs generalizing before with
  | case1 cs word rest h hstart _ more ih =>
    have hmore := ih (before ++ word ++ ['.'])
    rw [h]
    refine .loop_more (List.cons_ne_nil _ _) rfl (goes_labelPart_name hstart _) ?_
    simpa using hmore
  | case2 cs word rest h hstart =>
    rw [h, ← List.append_assoc]
    exact .loop_last (goes_labelPart_dot hstart _)
  | case3 cs word h => exact .loop_last (goes_labelPart_end h _)

theorem scans_scanName {c : Char} (hc : isNamePart c) (names : NameMode) (before cs : List Char) :
    Scans (scanName names (byteLength before)) before c cs (Lexeme.readName names (c :: cs)) := by
  refine (goes_eatWhile_cons hc before cs).bind ?_
  cases names with
  | plain =>
    refine (goes_textFrom before _ _).bind ?_
    rw [String.toList_ofList]
    exact .pure _ _
  | label => exact goes_label before (c :: cs)

/-! ### Numbers -/

theorem goes_eatEither {c d x : Char} (h : x = c ∨ x = d) (before cs : List Char) :
    Goes (eatEither c d) ⟨before, x :: cs⟩ true ⟨before ++ [x], cs⟩ := by
  by_cases hx : x = c
  · subst hx
    exact (goes_eat before x cs).bind (.pure _ _)
  · obtain rfl := h.resolve_left hx
    refine (goes_eat_false ?_ before).bind (goes_eat before x cs)
    simpa using hx

theorem goes_eatEither_false {c d : Char} {cs : List Char} (hc : ∀ rest, cs ≠ c :: rest)
    (hd : ∀ rest, cs ≠ d :: rest) (before : List Char) :
    Goes (eatEither c d) ⟨before, cs⟩ false ⟨before, cs⟩ :=
  (goes_eat_false hc before).bind (goes_eat_false hd before)

theorem goes_eatFraction (before cs : List Char) :
    Goes eatFraction ⟨before, cs⟩ (!(Lexeme.splitFraction cs).1.isEmpty)
      ⟨before ++ (Lexeme.splitFraction cs).1, (Lexeme.splitFraction cs).2⟩ := by
  unfold Lexeme.splitFraction
  split
  · next cs =>
    refine (goes_eat before '.' cs).bind ?_
    exact (goes_eatWhile_append Char.isDigit before ['.'] cs).bind (.pure _ _)
  · next hdot =>
    rw [List.append_nil]
    exact (goes_eat_false hdot before).bind (.pure _ _)

theorem goes_eatSign (before cs : List Char) :
    Goes (eatEither '+' '-') ⟨before, cs⟩ (!(Lexeme.splitSign cs).1.isEmpty)
      ⟨before ++ (Lexeme.splitSign cs).1, (Lexeme.splitSign cs).2⟩ := by
  unfold Lexeme.splitSign
  split
  · exact goes_eatEither (.inl rfl) before _
  · exact goes_eatEither (.inr rfl) before _
  · next hplus hminus =>
    rw [List.append_nil]
    exact goes_eatEither_false hplus hminus before

theorem goes_eatExponent (before cs : List Char) :
    Goes eatExponent ⟨before, cs⟩ (!(Lexeme.splitExponent cs).1.isEmpty)
      ⟨before ++ (Lexeme.splitExponent cs).1, (Lexeme.splitExponent cs).2⟩ := by
  unfold Lexeme.splitExponent
  split
  · rw [List.append_nil]
    exact (goes_eatEither_false (by simp) (by simp) before).bind (.pure _ _)
  · next c cs =>
    split
    · next hc =>
      refine (goes_eatEither hc before cs).bind ((goes_eatSign _ cs).bind ?_)
      have h := goes_eatWhile Char.isDigit (before ++ [c] ++ (Lexeme.splitSign cs).1) (Lexeme.splitSign cs).2
      simp only [List.append_assoc, List.singleton_append] at h ⊢
      exact h.bind (.pure _ _)
    · next hc =>
      rw [List.append_nil]
      obtain ⟨he, hE⟩ := not_or.1 hc
      exact (goes_eatEither_false (by simpa using he) (by simpa using hE) before).bind (.pure _ _)

theorem scans_scanNumber {c : Char} (hc : c.isDigit) (before cs : List Char) :
    Scans scanNumber before c cs (Lexeme.readNumber (c :: cs)) := by
  have hkind (fraction exponent : List Char) :
      (if !fraction.isEmpty || !exponent.isEmpty then TokenKind.illegal else .number) =
        if fraction = [] ∧ exponent = [] then .number else .illegal := by
    cases fraction <;> cases exponent <;> rfl
  refine (goes_eatWhile_cons hc before cs).bind ((goes_eatFraction _ _).bind ((goes_eatExponent _ _).bind ?_))
  simp only [Lexeme.readNumber, List.append_assoc, hkind]
  exact .pure _ _

/-! ### Strings -/

theorem goes_stringPart_quote (before cs : List Char) :
    Goes stringPart ⟨before, '"' :: cs⟩ (.inr .string) ⟨before ++ ['"'], cs⟩ :=
  (goes_peek before _).bind ((goes_bump before _ cs).bind (.pure _ _))

theorem goes_stringPart_escape {c : Char} (hc : c ≠ '\n') (before cs : List Char) :
    Goes stringPart ⟨before, '\\' :: c :: cs⟩ (.inl ()) ⟨before ++ ['\\', c], cs⟩ := by
  refine (goes_peek before _).bind ((goes_bump before _ _).bind ((goes_peek _ _).bind ?_))
  have hread : before ++ ['\\', c] = before ++ ['\\'] ++ [c] := List.append_cons before '\\' [c]
  rw [List.head?_cons, Option.any_some, if_pos (decide_eq_true hc), hread]
  exact (goes_bump _ c cs).bind (.pure _ _)

theorem goes_stringPart_backslash {cs : List Char} (h : ¬ cs.head?.any (· ≠ '\n')) (before : List Char) :
    Goes stringPart ⟨before, '\\' :: cs⟩ (.inl ()) ⟨before ++ ['\\'], cs⟩ := by
  refine (goes_peek before _).bind ((goes_bump before _ _).bind ((goes_peek _ _).bind ?_))
  rw [if_neg h]
  exact .pure _ _

theorem goes_stringPart_char {c : Char} (hquote : c ≠ '"') (hline : c ≠ '\n') (hescape : c ≠ '\\')
    (before cs : List Char) : Goes stringPart ⟨before, c :: cs⟩ (.inl ()) ⟨before ++ [c], cs⟩ := by
  refine (goes_peek before _).bind ?_
  rw [List.head?_cons]
  split
  · next h => cases h
  · next h => exact absurd (Option.some.inj h) hline
  · next h => exact absurd (Option.some.inj h) hquote
  · next h => exact absurd (Option.some.inj h) hescape
  · exact (goes_bump before c cs).bind (.pure _ _)

theorem goes_scanString (before cs : List Char) :
    Goes scanString ⟨before, cs⟩ (Lexeme.readQuoted cs).kind
      ⟨before ++ (Lexeme.readQuoted cs).text, (Lexeme.readQuoted cs).rest⟩ := by
  fun_induction Lexeme.readQuoted cs generalizing before with
  | case1 =>
    rw [List.append_nil]
    exact .loop_last ((goes_peek before []).bind (.pure _ _))
  | case2 cs => exact .loop_last (goes_stringPart_quote before cs)
  | case3 cs =>
    rw [List.append_nil]
    exact .loop_last ((goes_peek before _).bind (.pure _ _))
  | case4 =>
    refine .loop_more (List.cons_ne_nil _ _) rfl (goes_stringPart_backslash (by simp) before) ?_
    exact .loop_last ((goes_peek _ []).bind (.pure _ _))
  | case5 cs =>
    refine .loop_more (List.cons_ne_nil _ _) rfl (goes_stringPart_backslash (by simp) before) ?_
    exact .loop_last ((goes_peek _ _).bind (.pure _ _))
  | case6 c cs hline ih =>
    have hmore := ih (before ++ ['\\', c])
    rw [List.append_assoc] at hmore
    exact .loop_more (List.cons_ne_nil _ _) rfl (goes_stringPart_escape hline before cs) hmore
  | case7 c cs hquote hline hlast _ hescape ih =>
    have hc : c ≠ '\\' := by
      rintro rfl
      cases cs with
      | nil => exact hlast rfl rfl
      | cons d cs => exact hescape d cs rfl rfl
    have hmore := ih (before ++ [c])
    rw [List.append_assoc] at hmore
    exact .loop_more (List.cons_ne_nil c []) rfl (goes_stringPart_char hquote hline hc before cs) hmore

/-! ### Operators -/

theorem isPrefixOf_cons_eq_false {c : Char} {cs : List Char} (h : ∀ rest, cs ≠ c :: rest) (ds : List Char) :
    (c :: ds).isPrefixOf cs = false := by
  cases cs with
  | nil => rfl
  | cons d cs =>
    have hd : c ≠ d := fun heq => h cs (heq ▸ rfl)
    simp [List.isPrefixOf, hd]

theorem scans_scanOperator (minus : MinusMode) (c : Char) (before cs : List Char) :
    Scans (scanOperator minus c) before c cs (Lexeme.readOperator minus (c :: cs)) := by
  unfold scanOperator
  split
  case h_15 =>
    have hne (d : Char) (h : c ≠ d) : (d == c) = false := beq_eq_false_iff_ne.2 h.symm
    exact .pure_of_eq (by simp_all [Lexeme.readOperator, Lexeme.operators, List.isPrefixOf])
  -- a goal for each way through the tests of the characters behind `c`
  all_goals repeat' refine goes_ifEat (fun _ _ => ?_) fun _ => ?_
  all_goals refine .pure_of_eq ?_
  all_goals simp_all [Lexeme.readOperator, Lexeme.operators, List.isPrefixOf, isPrefixOf_cons_eq_false]

/-! ### Trivia -/

theorem closeAt?_add_two (cs : List Char) :
    (closeAt? cs).map (· + 2) = (splitComment? cs).map fun (comment, _) => byteLength comment := by
  fun_induction splitComment? cs with
  | case1 => rfl
  | case2 => rfl
  | case3 c cs hmark ih =>
    have hclose : closeAt? (c :: cs) = (closeAt? cs).map (c.utf8Size + ·) := by
      rw [closeAt?]
      exact hmark
    have hcons := congrArg (Option.map (c.utf8Size + ·)) ih
    simp only [Option.map_map] at hcons
    rw [hclose, Option.map_map, Option.map_map]
    exact hcons

theorem goes_commentPart_line (before cs : List Char) :
    Goes commentPart ⟨before, '/' :: '/' :: cs⟩ (.inl ())
      ⟨before ++ '/' :: '/' :: cs.takeWhile (· ≠ '\n'), cs.dropWhile (· ≠ '\n')⟩ := by
  refine (goes_rest before _).bind ?_
  rw [String.toList_ofList]
  exact (goes_eatWhile (· ≠ '\n') before ('/' :: '/' :: cs)).bind (.pure _ _)

theorem goes_commentPart_block {before cs : List Char} {value : Unit ⊕ Option Token} {place : Place}
    (h : Goes blockPart ⟨before, '/' :: '*' :: cs⟩ value place) :
    Goes commentPart ⟨before, '/' :: '*' :: cs⟩ value place := by
  refine (goes_rest before _).bind ?_
  rw [String.toList_ofList]
  exact h

theorem goes_blockPart {cs comment rest : List Char} (h : splitComment? cs = some (comment, rest))
    (before : List Char) :
    Goes blockPart ⟨before, '/' :: '*' :: cs⟩ (.inl ()) ⟨before ++ '/' :: '*' :: comment, rest⟩ := by
  have hsplit := closeAt?_add_two cs
  rw [h] at hsplit
  obtain ⟨close, hclose, hlength⟩ : ∃ close, closeAt? cs = some close ∧ close + 2 = byteLength comment :=
    Option.map_eq_some_iff.1 hsplit
  obtain rfl := append_of_splitComment? h
  have hadvance := goes_advance before ('/' :: '*' :: comment) rest
  have hbytes : byteLength ('/' :: '*' :: comment) = 2 + close + 2 := by
    show 1 + (1 + byteLength comment) = 2 + close + 2
    omega
  rw [hbytes] at hadvance
  refine (goes_position _).bind ((goes_restBehind before ['/', '*'] (comment ++ rest)).bind ?_)
  rw [String.toList_ofList, hclose]
  exact hadvance.bind (.pure _ _)

theorem goes_blockPart_unclosed {cs : List Char} (h : splitComment? cs = none) (before : List Char) :
    Goes blockPart ⟨before, '/' :: '*' :: cs⟩
      (.inr (some ⟨.illegal, String.ofList ('/' :: '*' :: cs),
        ⟨byteLength before, byteLength before + byteLength ('/' :: '*' :: cs)⟩⟩))
      ⟨before ++ '/' :: '*' :: cs, []⟩ := by
  have hsplit := closeAt?_add_two cs
  rw [h] at hsplit
  refine (goes_position _).bind ((goes_restBehind before ['/', '*'] cs).bind ?_)
  rw [String.toList_ofList, Option.map_eq_none_iff.1 hsplit]
  refine (goes_skipRest before _).bind ?_
  exact (goes_emit .illegal before ('/' :: '*' :: cs) []).bind (.pure _ _)

theorem goes_commentPart_none {cs : List Char} (hline : ¬ ['/', '/'].isPrefixOf cs)
    (hblock : ¬ ['/', '*'].isPrefixOf cs) (before : List Char) :
    Goes commentPart ⟨before, cs⟩ (.inr none) ⟨before, cs⟩ := by
  refine (goes_rest before cs).bind ?_
  rw [String.toList_ofList, if_neg hline, if_neg hblock]
  exact .pure _ _

theorem goes_commentPart_some {cs piece rest : List Char} (hspace : ∀ c ∈ cs.head?, isSpace c = false)
    (h : splitPiece? cs = some (piece, rest)) (before : List Char) :
    Goes commentPart ⟨before, cs⟩ (.inl ()) ⟨before ++ piece, rest⟩ := by
  unfold splitPiece? at h
  split at h
  · next cs =>
    obtain ⟨rfl, rfl⟩ := Prod.mk.inj (Option.some.inj h)
    exact goes_commentPart_line before cs
  · next cs =>
    obtain ⟨⟨comment, rest'⟩, h', heq⟩ := Option.map_eq_some_iff.1 h
    obtain ⟨rfl, rfl⟩ := Prod.mk.inj heq
    exact goes_commentPart_block (goes_blockPart h' before)
  · next c cs _ _ =>
    rw [if_neg (Bool.eq_false_iff.1 (hspace c rfl))] at h
    cases h
  · cases h

theorem isTrivia_takeWhile_isSpace (cs after : List Char) : IsTrivia after (cs.takeWhile isSpace) := by
  induction cs with
  | nil => exact .nil
  | cons c cs ih =>
    by_cases hc : isSpace c
    · rw [List.takeWhile_cons_of_pos hc]
      exact .space (mem_spaces_of_isSpace hc) ih
    · rw [List.takeWhile_cons_of_neg hc]
      exact .nil

/-- The last step is the one behind the trivia. -/
theorem goes_skipTrivia {cs before : List Char} {value : Option Token} {place : Place}
    (h : Goes commentPart ⟨before ++ (splitTrivia cs).1, (splitTrivia cs).2⟩ (.inr value) place) :
    Goes skipTrivia ⟨before, cs⟩ value place := by
  have hsplit : cs.takeWhile isSpace ++ cs.dropWhile isSpace = cs := List.takeWhile_append_dropWhile
  have hspaces := splitTrivia_append (isTrivia_takeWhile_isSpace cs (cs.dropWhile isSpace))
  rw [hsplit] at hspaces
  have heat := goes_eatWhile isSpace before cs
  cases hpiece : splitPiece? (cs.dropWhile isSpace) with
  | none =>
    rw [splitTrivia_of_splitPiece?_eq_none hpiece, List.append_nil] at hspaces
    rw [hspaces] at h
    exact .loop_last (heat.bind h)
  | some split =>
    obtain ⟨piece, rest⟩ := split
    obtain ⟨happend, hne⟩ := append_of_splitPiece? hpiece
    rw [splitTrivia_of_splitPiece? hpiece] at hspaces
    rw [hspaces, ← List.append_assoc, ← List.append_assoc] at h
    -- the spaces and the comment behind them are one step; less is left of the text then
    have hread : cs.takeWhile isSpace ++ piece ≠ [] := fun hnil => hne (List.append_eq_nil_iff.1 hnil).2
    have hlength : rest.length < cs.length := by
      have := List.length_pos_iff.2 hread
      rw [← hsplit, ← happend]
      simp only [List.length_append] at this ⊢
      omega
    refine .loop_more hread (List.append_assoc before _ piece) (heat.bind ?_) (goes_skipTrivia h)
    exact goes_commentPart_some (fun c hc => Text.of_mem_head?_dropWhile hc) hpiece _
termination_by cs.length

/-! ### Tokens -/

theorem scans_scanKind {c : Char} {cs : List Char} (h : ¬ (c = '/' ∧ cs.head? = some '*')) (names : NameMode)
    (minus : MinusMode) (before : List Char) :
    Scans (scanKind names minus (byteLength before) c) before c cs (Lexeme.read names minus (c :: cs)) := by
  unfold scanKind
  rw [Lexeme.read]
  split_ifs with hstart hdigit hquote
  · exact scans_scanName (Lexeme.isNamePart_of_isNameStart hstart) names before cs
  · exact scans_scanNumber hdigit before cs
  · have hstring := goes_scanString (before ++ [c]) cs
    rw [List.append_assoc] at hstring
    rw [← hquote]
    exact hstring
  · exact scans_scanOperator minus c before cs

theorem goes_scanToken {cs : List Char} (h : ¬ ['/', '*'].isPrefixOf cs) (names : NameMode) (minus : MinusMode)
    (before : List Char) :
    Goes (scanToken names minus) ⟨before, cs⟩ ((Lexeme.read names minus cs).toToken (byteLength before))
      ⟨before ++ (Lexeme.read names minus cs).text, (Lexeme.read names minus cs).rest⟩ := by
  refine (goes_position _).bind ?_
  cases cs with
  | nil =>
    have hnil : before ++ (Lexeme.read names minus []).text = before := List.append_nil before
    rw [hnil]
    exact (goes_bump_nil before).bind (.pure _ _)
  | cons c cs =>
    have hcomment : ¬ (c = '/' ∧ cs.head? = some '*') := by
      rintro ⟨rfl, hstar⟩
      obtain ⟨rest, rfl⟩ := List.head?_eq_some_iff.1 hstar
      exact h rfl
    have hkind := scans_scanKind hcomment names minus before
    exact (goes_bump before c cs).bind (hkind.bind (goes_emit _ before _ _))

theorem goes_scan (names : NameMode) (minus : MinusMode) (before cs : List Char) :
    Goes (scan names minus) ⟨before, cs⟩
      ((Lexeme.read names minus (splitTrivia cs).2).toToken (byteLength (before ++ (splitTrivia cs).1)))
      ⟨before ++ (splitTrivia cs).1 ++ (Lexeme.read names minus (splitTrivia cs).2).text,
        (Lexeme.read names minus (splitTrivia cs).2).rest⟩ := by
  have hnone := splitPiece?_splitTrivia cs
  by_cases hblock : ['/', '*'].isPrefixOf (splitTrivia cs).2
  · obtain ⟨body, hbody⟩ := List.isPrefixOf_iff_prefix.1 hblock
    have hunclosed : splitComment? body = none := by
      rw [← hbody] at hnone
      exact Option.map_eq_none_iff.1 hnone
    have hpart := goes_commentPart_block (goes_blockPart_unclosed hunclosed (before ++ (splitTrivia cs).1))
    have htext : (splitTrivia cs).2 = '/' :: '*' :: body := hbody.symm
    rw [← htext] at hpart
    rw [htext, Lexeme.read_comment, ← htext]
    exact (goes_skipTrivia hpart).bind (.pure _ _)
  · have hline : ¬ ['/', '/'].isPrefixOf (splitTrivia cs).2 := fun h => by
      obtain ⟨body, hbody⟩ := List.isPrefixOf_iff_prefix.1 h
      rw [← hbody] at hnone
      cases hnone
    exact (goes_skipTrivia (goes_commentPart_none hline hblock _)).bind (goes_scanToken hblock names minus _)

/-- A scan of a lexer that has come to the same place. -/
theorem goes_scan_lexer {lexer : Lexer} {before : List Char} (hoffset : lexer.offset = byteLength before) :
    Goes (scan lexer.names lexer.minus) ⟨before, lexer.rest⟩ lexer.scan.1
      ⟨before ++ ((splitTrivia lexer.rest).1 ++ lexer.scan.1.literal.toList), lexer.scan.2.rest⟩ := by
  have htoken : lexer.scan.1 = (Lexeme.read lexer.names lexer.minus (splitTrivia lexer.rest).2).toToken
      (byteLength (before ++ (splitTrivia lexer.rest).1)) := by
    rw [Text.byteLength_append, ← hoffset]
    rfl
  rw [Lexer.literal_scan, Lexer.rest_scan, htoken, ← List.append_assoc]
  exact goes_scan lexer.names lexer.minus before lexer.rest

theorem goes_scanMore {lexer : Lexer} {before : List Char} (hpending : lexer.pending = none)
    (hminus : lexer.minus = .refused) (hoffset : lexer.offset = byteLength before) (tokens : List Token) :
    Goes (loop scanMore (lexer.names, tokens)) ⟨before, lexer.rest⟩ (tokens ++ lexer.tokens)
      ⟨before ++ lexer.rest, []⟩ := by
  induction lexer using Lexer.scan_induction generalizing before tokens with
  | last lexer hlast =>
    have hscan := goes_scan_lexer hoffset
    have hrest : lexer.scan.2.rest = [] := by rw [Lexer.scan_of_nil (Lexer.isEof_scan_iff.1 hlast)]
    have happend := lexer.append_scan
    rw [hrest, List.append_nil] at happend
    rw [hrest, happend, hminus] at hscan
    rw [Lexer.tokens_of_isEof hpending hlast]
    refine .loop_last (hscan.bind ?_)
    rw [if_pos hlast]
    exact .pure _ _
  | step lexer hmore ih =>
    have hscan := goes_scan_lexer hoffset
    have happend := lexer.append_scan
    -- a scan that reads nothing would be the one at the end of the text
    have hread : (splitTrivia lexer.rest).1 ++ lexer.scan.1.literal.toList ≠ [] := fun hnil => by
      have hlt := Lexer.remaining_scan_lt hmore
      rw [hnil, List.nil_append] at happend
      rw [Lexer.remaining, happend] at hlt
      exact Nat.lt_irrefl _ hlt
    have hoffset' := lexer.offset_scan
    rw [hoffset, ← Text.byteLength_append] at hoffset'
    have hrest := ih hpending hminus hoffset' (tokens ++ [lexer.scan.1])
    rw [hminus] at hscan
    rw [List.append_assoc before, happend, List.append_assoc tokens] at hrest
    rw [Lexer.tokens_of_not_isEof hpending hmore]
    refine .loop_more hread rfl (hscan.bind ?_) hrest
    rw [if_neg (Bool.eq_false_iff.1 hmore)]
    exact .pure _ _

end ByteReader

/-- Reading by byte positions gives the tokens of the text; no slice is ever taken outside the text or inside a
character. -/
theorem tokenizeAt?_eq (text : String) : tokenizeAt? text = some (tokenize text) := by
  have hgoes := @ByteReader.goes_scanMore (.ofText text) [] rfl rfl rfl []
  exact congrArg (Option.map Prod.fst) (hgoes text rfl).1

end ResourceGraph.Query
