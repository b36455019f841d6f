import ResourceGraph.Query.Lexeme

/-!
# The language of lexemes

Which texts are lexemes and of which kind, with nothing said about how they are found in a longer text. What
names mean decides which texts are lexemes (a name outside labels, a dotted label inside), and whether a
direction is read decides the kind of a single minus. Most lexical faults are lexemes of kind `illegal`; the
end of the text is none.
-/

namespace ResourceGraph.Query

/-! ### Names -/

/-- The texts differ at most in the case of ASCII letters. -/
def EqUpToCase (as bs : List Char) : Prop :=
  as.map Char.toUpper = bs.map Char.toUpper

/-- The words that are no identifiers. -/
inductive IsReserved (cs : List Char) : TokenKind → Prop
  | keyword (word : Keyword) : EqUpToCase cs word.name.toList → IsReserved cs (.keyword word)
  | boolean {literal : String} : literal ∈ ["TRUE", "FALSE"] → EqUpToCase cs literal.toList →
    IsReserved cs .boolean
  | null : EqUpToCase cs "NULL".toList → IsReserved cs .null

inductive IsName : List Char → Prop
  | cons {c : Char} {cs : List Char} : isNameStart c → (∀ d ∈ cs, isNamePart d) → IsName (c :: cs)

/-- Names with single dots between them. -/
inductive IsLabel : List Char → Prop
  | name {cs : List Char} : IsName cs → IsLabel cs
  | dotted {cs more : List Char} : IsName cs → IsLabel more → IsLabel (cs ++ '.' :: more)

/-! ### Numbers -/

def IsDigits (cs : List Char) : Prop :=
  ∀ c ∈ cs, c.isDigit

/-- A decimal point and the digits behind it, if there are any. -/
inductive IsFraction : List Char → Prop
  | point {digits : List Char} : IsDigits digits → IsFraction ('.' :: digits)

/-- The letter of an exponent, with a sign and digits or without. -/
inductive IsExponent : List Char → Prop
  | letter {c : Char} {sign digits : List Char} : c ∈ ['e', 'E'] → sign ∈ [[], ['+'], ['-']] →
    IsDigits digits → IsExponent (c :: sign ++ digits)

/-! ### Strings -/

/-- Characters between quotes, each on its own or behind a backslash. -/
inductive IsQuotable : List Char → Prop
  | nil : IsQuotable []
  | char {c : Char} {cs : List Char} : c ∉ ['"', '\\', '\n'] → IsQuotable cs → IsQuotable (c :: cs)
  | escape {c : Char} {cs : List Char} : c ≠ '\n' → IsQuotable cs → IsQuotable ('\\' :: c :: cs)

/-! ### Operators -/

/-- The operators with the same kind everywhere. -/
def punctuation : List (String × TokenKind) :=
  [("[", .leftBracket), ("]", .rightBracket), ("]-", .lineClose), ("]->", .rightArrowClose),
    ("(", .leftParen), (")", .rightParen), ("\x7b", .leftBrace), ("\x7d", .rightBrace), (":", .colon),
    (",", .comma), (".", .dot), ("=", .equals), ("=~", .regexEquals), ("!=", .notEquals),
    ("->", .rightArrow), ("-[", .lineOpen), ("--", .line), ("<", .less), ("<-", .leftArrow),
    ("<-[", .leftArrowOpen), ("<=", .lessOrEqual), ("<<", .illegal), (">", .greater),
    (">=", .greaterOrEqual)]

/-! ### All lexemes -/

inductive IsLexeme (names : NameMode) (minus : MinusMode) : List Char → TokenKind → Prop
  | reserved {cs : List Char} {kind : TokenKind} : names = .plain → IsName cs → IsReserved cs kind →
    IsLexeme names minus cs kind
  | ident {cs : List Char} : names = .plain → IsName cs → (∀ kind, ¬ IsReserved cs kind) →
    IsLexeme names minus cs .ident
  | label {cs : List Char} : names = .label → IsLabel cs → IsLexeme names minus cs .ident
  | openLabel {cs : List Char} : names = .label → IsLabel cs → IsLexeme names minus (cs ++ ['.']) .illegal
  | number {cs : List Char} : cs ≠ [] → IsDigits cs → IsLexeme names minus cs .number
  | real {whole fraction exponent : List Char} : whole ≠ [] → IsDigits whole →
    (fraction = [] ∨ IsFraction fraction) → (exponent = [] ∨ IsExponent exponent) →
    fraction ++ exponent ≠ [] → IsLexeme names minus (whole ++ fraction ++ exponent) .illegal
  | string {cs : List Char} : IsQuotable cs → IsLexeme names minus ('"' :: cs ++ ['"']) .string
  | openString {cs lone : List Char} : IsQuotable cs → lone ∈ [[], ['\\']] →
    IsLexeme names minus ('"' :: cs ++ lone) .illegal
  | operator {cs : List Char} {kind : TokenKind} : (String.ofList cs, kind) ∈ punctuation →
    IsLexeme names minus cs kind
  | minus : IsLexeme names minus ['-'] minus.kind
  | openComment {cs : List Char} : ¬ ['*', '/'] <:+: cs → IsLexeme names minus ('/' :: '*' :: cs) .illegal
  /-- Any character that none of the others is. -/
  | char {c : Char} : ¬ isNameStart c → ¬ c.isDigit → c ≠ '"' → c ≠ '-' →
    (∀ kind, (String.ofList [c], kind) ∉ punctuation) → IsLexeme names minus [c] .illegal

end ResourceGraph.Query
