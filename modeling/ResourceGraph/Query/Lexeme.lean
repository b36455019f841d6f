import ResourceGraph.Query.Token
import ResourceGraph.Text.Cut
import ResourceGraph.Text.Numeric

/-!
# Lexemes

The text of one token, read from a place where no trivia stands. What a name is depends on whether it stands
in a label, and what a single `-` is on whether a direction is read; apart from that a lexeme depends on the
text alone. Lexical faults are lexemes too, of kind `illegal`. The text of a lexeme and what remains make up
the text it was read from (`Lexeme.append_read`), and no lexeme but the end of the text is empty.
-/

namespace ResourceGraph.Query

/-- Whether a name would be a node label, which may have dots and is never a keyword. -/
inductive NameMode
  | plain
  | label
deriving DecidableEq

/-- How a single `-` is taken: it is an identifier while a direction is read. -/
inductive MinusMode
  | refused
  | accepted
deriving DecidableEq

/-- A colon leads into a label, and a closing parenthesis out of it. -/
def NameMode.after (names : NameMode) : TokenKind → NameMode
  | .colon => .label
  | .rightParen => .plain
  | _ => names

def MinusMode.kind : MinusMode → TokenKind
  | .refused => .illegal
  | .accepted => .ident

def isNameStart (c : Char) : Bool :=
  Text.isAlphabetic c || c = '_'

def isNamePart (c : Char) : Bool :=
  Text.isAlphanumeric c || c = '_'

/-- The text of a token, its kind and the text behind it. -/
structure Lexeme where
  kind : TokenKind
  text : List Char
  rest : List Char

namespace Lexeme

/-! ### Names -/

/-- A name outside labels. -/
def readWord (cs : List Char) : Lexeme :=
  let word := cs.takeWhile isNamePart
  ⟨.ofWord word, word, cs.dropWhile isNamePart⟩

/-- A label: names with single dots between them. A dot that no name follows ends the label and spoils it. -/
def readLabel (cs : List Char) : Lexeme :=
  let word := cs.takeWhile isNamePart
  match h : cs.dropWhile isNamePart with
  | '.' :: rest =>
    if rest.head?.any isNameStart then
      have := Text.length_of_dropWhile_eq_cons h
      let more := readLabel rest
      ⟨more.kind, word ++ '.' :: more.text, more.rest⟩
    else ⟨.illegal, word ++ ['.'], rest⟩
  | rest => ⟨.ident, word, rest⟩
termination_by cs.length
decreasing_by exact this

def readName : NameMode → List Char → Lexeme
  | .plain => readWord
  | .label => readLabel

/-! ### Numbers -/

/-- Splits off a decimal point and the digits behind it. -/
def splitFraction : List Char → List Char × List Char
  | '.' :: cs => ('.' :: cs.takeWhile Char.isDigit, cs.dropWhile Char.isDigit)
  | cs => ([], cs)

/-- Splits off a sign. -/
def splitSign : List Char → List Char × List Char
  | '+' :: cs => (['+'], cs)
  | '-' :: cs => (['-'], cs)
  | cs => ([], cs)

/-- Splits off the letter of an exponent, its sign and its digits; sign and digits may be missing. -/
def splitExponent : List Char → List Char × List Char
  | [] => ([], [])
  | c :: cs =>
    if c = 'e' ∨ c = 'E' then
      let (sign, digits) := splitSign cs
      (c :: sign ++ digits.takeWhile Char.isDigit, digits.dropWhile Char.isDigit)
    else ([], c :: cs)

/-- A number. Only whole numbers belong to the language; a fraction or an exponent is read and refused. -/
def readNumber (cs : List Char) : Lexeme :=
  let whole := cs.takeWhile Char.isDigit
  let (fraction, cs) := splitFraction (cs.dropWhile Char.isDigit)
  let (exponent, cs) := splitExponent cs
  ⟨if fraction = [] ∧ exponent = [] then .number else .illegal, whole ++ fraction ++ exponent, cs⟩

/-! ### Strings -/

/-- Puts a character in front of a lexeme. -/
def cons (c : Char) (lexeme : Lexeme) : Lexeme :=
  { lexeme with text := c :: lexeme.text }

/-- A string from behind its opening quote on. It ends at the first quote that no backslash precedes, and
must end on its line. -/
def readQuoted : List Char → Lexeme
  | [] => ⟨.illegal, [], []⟩
  | '"' :: cs => ⟨.string, ['"'], cs⟩
  | '\n' :: cs => ⟨.illegal, [], '\n' :: cs⟩
  | ['\\'] => ⟨.illegal, ['\\'], []⟩
  | '\\' :: '\n' :: cs => ⟨.illegal, ['\\'], '\n' :: cs⟩
  | '\\' :: c :: cs => ((readQuoted cs).cons c).cons '\\'
  | c :: cs => (readQuoted cs).cons c

/-! ### Operators -/

/-- The operators, none of them a beginning of a later one. -/
def operators (minus : MinusMode) : List (List Char × TokenKind) :=
  [([']', '-', '>'], .rightArrowClose), (['<', '-', '['], .leftArrowOpen), ([']', '-'], .lineClose),
    (['<', '-'], .leftArrow), (['<', '='], .lessOrEqual), (['<', '<'], .illegal), (['-', '>'], .rightArrow),
    (['-', '['], .lineOpen), (['-', '-'], .line), (['=', '~'], .regexEquals), (['!', '='], .notEquals),
    (['>', '='], .greaterOrEqual), (['['], .leftBracket), ([']'], .rightBracket), (['('], .leftParen),
    ([')'], .rightParen), (['\x7b'], .leftBrace), (['\x7d'], .rightBrace), ([':'], .colon), ([','], .comma),
    (['.'], .dot), (['='], .equals), (['<'], .less), (['>'], .greater), (['-'], minus.kind)]

/-- The first operator that the text begins with, or one character that is no token. -/
def readOperator (minus : MinusMode) (cs : List Char) : Lexeme :=
  match (operators minus).find? (·.1.isPrefixOf cs) with
  | some (text, kind) => ⟨kind, text, cs.drop text.length⟩
  | none => ⟨.illegal, cs.take 1, cs.drop 1⟩

/-! ### All lexemes -/

/-- The lexeme at the start of a text. A block comment that is not closed takes all of the text. -/
def read (names : NameMode) (minus : MinusMode) : List Char → Lexeme
  | [] => ⟨.eof, [], []⟩
  | c :: cs =>
    if isNameStart c then readName names (c :: cs)
    else if c.isDigit then readNumber (c :: cs)
    else if c = '"' then (readQuoted cs).cons '"'
    else if c = '/' ∧ cs.head? = some '*' then ⟨.illegal, c :: cs, []⟩
    else readOperator minus (c :: cs)

/-! ### What remains -/

theorem append_readWord (cs : List Char) : (readWord cs).text ++ (readWord cs).rest = cs :=
  List.takeWhile_append_dropWhile

theorem append_readLabel (cs : List Char) : (readLabel cs).text ++ (readLabel cs).rest = cs := by
  fun_induction readLabel cs with
  | case1 cs word rest h hstart hlen more ih =>
    have : word ++ '.' :: rest = cs := h ▸ List.takeWhile_append_dropWhile
    rw [List.append_assoc, List.cons_append, ih, this]
  | case2 cs word rest h hstart =>
    have : word ++ '.' :: rest = cs := h ▸ List.takeWhile_append_dropWhile
    simpa using this
  | case3 cs word h => exact List.takeWhile_append_dropWhile

theorem append_readName (names : NameMode) (cs : List Char) :
    (readName names cs).text ++ (readName names cs).rest = cs := by
  cases names
  · exact append_readWord cs
  · exact append_readLabel cs

theorem append_splitFraction (cs : List Char) : (splitFraction cs).1 ++ (splitFraction cs).2 = cs := by
  unfold splitFraction
  split <;> simp

theorem append_splitSign (cs : List Char) : (splitSign cs).1 ++ (splitSign cs).2 = cs := by
  unfold splitSign
  split <;> simp

theorem append_splitExponent (cs : List Char) : (splitExponent cs).1 ++ (splitExponent cs).2 = cs := by
  unfold splitExponent
  split
  · rfl
  · split <;> simp [append_splitSign]

theorem append_readNumber (cs : List Char) : (readNumber cs).text ++ (readNumber cs).rest = cs := by
  simp [readNumber, append_splitExponent, append_splitFraction]

theorem append_readQuoted (cs : List Char) : (readQuoted cs).text ++ (readQuoted cs).rest = cs := by
  fun_induction readQuoted cs <;> simp_all [cons]

theorem append_readOperator (minus : MinusMode) (cs : List Char) :
    (readOperator minus cs).text ++ (readOperator minus cs).rest = cs := by
  unfold readOperator
  split
  · next text kind h =>
    have hprefix : text.isPrefixOf cs := by simpa using List.find?_some h
    obtain ⟨rest, rfl⟩ := List.isPrefixOf_iff_prefix.1 hprefix
    simp
  · exact List.take_append_drop 1 cs

theorem append_read (names : NameMode) (minus : MinusMode) (cs : List Char) :
    (read names minus cs).text ++ (read names minus cs).rest = cs := by
  unfold read
  split
  · rfl
  · split
    · exact append_readName _ _
    · split
      · exact append_readNumber _
      · split
        · simp_all [cons, append_readQuoted]
        · split
          · simp
          · exact append_readOperator _ _

theorem isNamePart_of_isNameStart {c : Char} (h : isNameStart c) : isNamePart c := by
  simp only [isNameStart, isNamePart, Bool.or_eq_true] at *
  exact h.imp_left Text.isAlphanumeric_of_isAlphabetic

theorem text_readLabel_ne_nil {c : Char} (h : isNamePart c) (cs : List Char) :
    (readLabel (c :: cs)).text ≠ [] := by
  rw [readLabel]
  split
  · split <;> simp
  · simp [h]

theorem text_readName_ne_nil {c : Char} (h : isNameStart c) (names : NameMode) (cs : List Char) :
    (readName names (c :: cs)).text ≠ [] := by
  have hpart := isNamePart_of_isNameStart h
  cases names
  · simp [readName, readWord, hpart]
  · exact text_readLabel_ne_nil hpart cs

theorem text_readOperator_ne_nil (minus : MinusMode) (c : Char) (cs : List Char) :
    (readOperator minus (c :: cs)).text ≠ [] := by
  unfold readOperator
  split
  · next text kind h =>
    have := List.mem_of_find?_eq_some h
    rintro rfl
    simp [operators] at this
  · simp

theorem text_read_ne_nil (names : NameMode) (minus : MinusMode) (c : Char) (cs : List Char) :
    (read names minus (c :: cs)).text ≠ [] := by
  rw [read]
  split
  · exact text_readName_ne_nil ‹_› names cs
  · split
    · simp_all [readNumber]
    · split
      · simp [cons]
      · split
        · simp
        · exact text_readOperator_ne_nil minus c cs

theorem length_rest_read (names : NameMode) (minus : MinusMode) (c : Char) (cs : List Char) :
    (read names minus (c :: cs)).rest.length < (c :: cs).length := by
  have := congrArg List.length (append_read names minus (c :: cs))
  have := List.length_pos_iff.2 (text_read_ne_nil names minus c cs)
  simp only [List.length_append] at *
  omega

end Lexeme

end ResourceGraph.Query
