import ResourceGraph.Query.Lexeme
import ResourceGraph.Query.Trivia
import ResourceGraph.Text.Bytes

/-!
# The lexer

A lexer stands at a place in a query and hands out its tokens one by one. Whoever reads the tokens may switch
the meaning of a single `-` between them and push one token back, which is then handed out again as it is:
it moves neither the place nor the meaning of names. At the end of the query every further token is `eof`.
-/

namespace ResourceGraph.Query

/-- A place in a query: the text that is left, the bytes before it, the two modes, and a token pushed back. -/
structure Lexer where
  rest : List Char
  offset : Nat := 0
  names : NameMode := .plain
  minus : MinusMode := .refused
  pending : Option Token := none

namespace Lexer

/-- The start of a query. -/
def ofText (text : String) : Lexer where
  rest := text.toList

/-- Reads the next token from the text. -/
def scan (lexer : Lexer) : Token × Lexer :=
  let (trivia, text) := splitTrivia lexer.rest
  let lexeme := Lexeme.read lexer.names lexer.minus text
  let start := lexer.offset + Text.byteLength trivia
  let stop := start + Text.byteLength lexeme.text
  ({ kind := lexeme.kind, literal := String.ofList lexeme.text, span := ⟨start, stop⟩ },
    { lexer with rest := lexeme.rest, offset := stop, names := lexer.names.after lexeme.kind })

/-- The token that was pushed back, or else the next one from the text. -/
def next (lexer : Lexer) : Token × Lexer :=
  match lexer.pending with
  | some token => (token, { lexer with pending := none })
  | none => lexer.scan

/-- Puts a token in front of the others. There is room for one; the token that had it is given back. -/
def pushBack (token : Token) (lexer : Lexer) : Option Token × Lexer :=
  (lexer.pending, { lexer with pending := some token })

/-- The next character of the text, trivia included. -/
def peek? (lexer : Lexer) : Option Char :=
  lexer.rest.head?

/-- Says whether a direction is read from here on. -/
def readDirection (on : Bool) (lexer : Lexer) : Lexer :=
  { lexer with minus := if on then .accepted else .refused }

def readsLabel (lexer : Lexer) : Bool :=
  lexer.names = .label

def readsDirection (lexer : Lexer) : Bool :=
  lexer.minus = .accepted

/-- The next token unless it is `eof`, which is handed out all the same. -/
def step? (lexer : Lexer) : Option Token × Lexer :=
  let (token, lexer) := lexer.next
  (if token.isEof then none else some token, lexer)

/-- The next tokens before `eof`, `count` at most. -/
def take : (count : Nat) → Lexer → List Token × Lexer
  | 0, lexer => ([], lexer)
  | count + 1, lexer =>
    match lexer.step? with
    | (none, lexer) => ([], lexer)
    | (some token, lexer) =>
      let (tokens, lexer) := take count lexer
      (token :: tokens, lexer)

/-! ### Reading to the end -/

/-- An upper bound of the number of tokens before `eof`. -/
def remaining (lexer : Lexer) : Nat :=
  lexer.rest.length + lexer.pending.toList.length

theorem remaining_scan_lt {lexer : Lexer} (h : lexer.scan.1.isEof = false) :
    lexer.scan.2.remaining < lexer.remaining := by
  have hle := length_splitTrivia_le lexer.rest
  simp only [scan, remaining, Token.isEof] at *
  cases htext : (splitTrivia lexer.rest).2 with
  | nil => simp [htext, Lexeme.read] at h
  | cons c cs =>
    have := Lexeme.length_rest_read lexer.names lexer.minus c cs
    simp only [htext] at *
    omega

theorem remaining_next_lt {lexer : Lexer} (h : lexer.next.1.isEof = false) :
    lexer.next.2.remaining < lexer.remaining := by
  unfold next at *
  split at h
  · simp [*, remaining]
  · exact remaining_scan_lt h

/-- All tokens before `eof`, then `eof`, and the lexer behind it. -/
def drain (lexer : Lexer) : List Token × Token × Lexer :=
  match h : lexer.next with
  | (token, after) =>
    if hlast : token.isEof then ([], token, after)
    else
      have : after.remaining < lexer.remaining := by
        have := @remaining_next_lt lexer (by simpa [h] using hlast)
        rwa [h] at this
      let (tokens, last) := after.drain
      (token :: tokens, last)
termination_by lexer.remaining

/-- All tokens before `eof`, which is handed out all the same. -/
def collect (lexer : Lexer) : List Token × Lexer :=
  let (tokens, _, lexer) := lexer.drain
  (tokens, lexer)

end Lexer

/-- The tokens of a query, `eof` included. -/
def tokenize (text : String) : List Token :=
  let (tokens, last, _) := (Lexer.ofText text).drain
  tokens ++ [last]

end ResourceGraph.Query
