/-!
# Tokens

A query is read as a sequence of tokens. A token keeps the text it was read from, a keyword its letters as
written and a string its quotes, and the bytes that the text takes up in the query.
-/

namespace ResourceGraph.Query

/-- The reserved words of the query language. -/
inductive Keyword
  | matchClause
  | createClause
  | whereClause
  | setClause
  | deleteClause
  | returnClause
  | inOperator
  | asOperator
  | countFunction
  | sumFunction
  | containsOperator
deriving DecidableEq

/-- The kinds of tokens. -/
inductive TokenKind
  | keyword (word : Keyword)
  | ident
  | number
  | string
  | boolean
  | null
  | leftParen
  | rightParen
  | leftBrace
  | rightBrace
  | leftBracket
  | rightBracket
  | colon
  | comma
  | dot
  /-- The arrow `<-`. -/
  | leftArrow
  /-- The arrow `->`. -/
  | rightArrow
  /-- The line `--`. -/
  | line
  /-- The start `<-[` of an arrow with a description. -/
  | leftArrowOpen
  /-- The start `-[` of a line or right arrow with a description. -/
  | lineOpen
  /-- The end `]->` of a right arrow. -/
  | rightArrowClose
  /-- The end `]-` of a line or left arrow. -/
  | lineClose
  | equals
  | notEquals
  | less
  | lessOrEqual
  | greater
  | greaterOrEqual
  /-- The comparison `=~` with a pattern. -/
  | regexEquals
  /-- The end of the query. -/
  | eof
  /-- Text that is no token. -/
  | illegal
deriving DecidableEq

def Keyword.all : List Keyword :=
  [.matchClause, .createClause, .whereClause, .setClause, .deleteClause, .returnClause, .inOperator,
    .asOperator, .countFunction, .sumFunction, .containsOperator]

def Keyword.name : Keyword → String
  | .matchClause => "MATCH"
  | .createClause => "CREATE"
  | .whereClause => "WHERE"
  | .setClause => "SET"
  | .deleteClause => "DELETE"
  | .returnClause => "RETURN"
  | .inOperator => "IN"
  | .asOperator => "AS"
  | .countFunction => "COUNT"
  | .sumFunction => "SUM"
  | .containsOperator => "CONTAINS"

namespace TokenKind

def all : List TokenKind :=
  Keyword.all.map .keyword ++
    [.ident, .number, .string, .boolean, .null, .leftParen, .rightParen, .leftBrace, .rightBrace,
      .leftBracket, .rightBracket, .colon, .comma, .dot, .leftArrow, .rightArrow, .line, .leftArrowOpen,
      .lineOpen, .rightArrowClose, .lineClose, .equals, .notEquals, .less, .lessOrEqual, .greater,
      .greaterOrEqual, .regexEquals, .eof, .illegal]

def name : TokenKind → String
  | .keyword word => word.name
  | .ident => "IDENT"
  | .number => "NUMBER"
  | .string => "STRING"
  | .boolean => "BOOLEAN"
  | .null => "NULL"
  | .leftParen => "LPAREN"
  | .rightParen => "RPAREN"
  | .leftBrace => "LBRACE"
  | .rightBrace => "RBRACE"
  | .leftBracket => "LBRACKET"
  | .rightBracket => "RBRACKET"
  | .colon => "COLON"
  | .comma => "COMMA"
  | .dot => "DOT"
  | .leftArrow => "REL_NOPROPS_LEFT"
  | .rightArrow => "REL_NOPROPS_RIGHT"
  | .line => "REL_NOPROPS_NONE"
  | .leftArrowOpen => "REL_BEGINPROPS_LEFT"
  | .lineOpen => "REL_BEGINPROPS_NONE"
  | .rightArrowClose => "REL_ENDPROPS_RIGHT"
  | .lineClose => "REL_ENDPROPS_NONE"
  | .equals => "EQUALS"
  | .notEquals => "NOT_EQUALS"
  | .less => "LESS_THAN"
  | .lessOrEqual => "LESS_THAN_EQUALS"
  | .greater => "GREATER_THAN"
  | .greaterOrEqual => "GREATER_THAN_EQUALS"
  | .regexEquals => "REGEX_COMPARE"
  | .eof => "EOF"
  | .illegal => "ILLEGAL"

/-- The kind with the given name. -/
def ofName? (name : String) : Option TokenKind :=
  all.find? (·.name == name)

def isKeyword : TokenKind → Bool
  | .keyword _ => true
  | _ => false

/-- The kind of a word outside labels: a keyword or a literal in any ASCII case, else an identifier. -/
def ofWord (text : List Char) : TokenKind :=
  let upper := String.ofList (text.map Char.toUpper)
  match Keyword.all.find? (·.name == upper) with
  | some word => .keyword word
  | none =>
    if upper = "TRUE" ∨ upper = "FALSE" then .boolean
    else if upper = "NULL" then .null
    else .ident

theorem ofName?_name (kind : TokenKind) : ofName? kind.name = some kind := by
  cases kind with
  | keyword word => cases word <;> rfl
  | _ => rfl

end TokenKind

/-- The bytes of a query from `start` up to, not including, `stop`. -/
structure Span where
  start : Nat
  stop : Nat
deriving DecidableEq

/-- A token with its text and place. -/
structure Token where
  kind : TokenKind
  literal : String
  span : Span
deriving DecidableEq

def Token.isEof (token : Token) : Bool :=
  token.kind = .eof

end ResourceGraph.Query
