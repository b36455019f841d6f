import Mathlib.Data.List.Induction
import ResourceGraph.Proofs.Slices
import ResourceGraph.Proofs.TokenSequence

/-!
# A lexer as a cursor in its token list

A lexer reads its query while it is asked for tokens, and its answers depend on what was asked before: a
token may have been pushed back, and a direction may be read or not. All the same it answers as a `Cursor`
does, which goes through the tokens of the query, found beforehand, and knows nothing of the text but which
character stands behind a token. The state of a lexer is a function of that of the cursor (`Cursor.lexer`),
and every call keeps it so (`Cursor.respond_lexer`).
-/

namespace ResourceGraph.Query

/-- What a reader of tokens can be asked. -/
inductive Call
  | next
  | pushBack (token : Token)
  | readDirection (on : Bool)
  | step

inductive Answer
  | token (token : Token)
  | displaced (token : Option Token)
  | done
  | item (token : Option Token)

/-- What is seen of a reader of tokens after a call. -/
structure Observation where
  answer : Answer
  readsLabel : Bool
  readsDirection : Bool
  peek? : Option Char

/-- What is seen of a reader in the course of some calls. -/
def transcript {σ : Type} (respond : σ → Call → Answer × σ) (observe : σ → Answer → Observation) :
    σ → List Call → List Observation
  | _, [] => []
  | state, call :: calls =>
    let (answer, state) := respond state call
    observe state answer :: transcript respond observe state calls

namespace Lexer

def respond (lexer : Lexer) : Call → Answer × Lexer
  | .next => lexer.next.map .token id
  | .pushBack token => (lexer.pushBack token).map .displaced id
  | .readDirection on => (.done, lexer.readDirection on)
  | .step => lexer.step?.map .item id

def observe (lexer : Lexer) (answer : Answer) : Observation where
  answer
  readsLabel := lexer.readsLabel
  readsDirection := lexer.readsDirection
  peek? := lexer.peek?

end Lexer

theorem tokenize_ne_nil (text : String) : tokenize text ≠ [] :=
  Lexer.tokens_ne_nil _

/-- A place in the tokens of a query: how many have been handed out, the last one counting once, the token
pushed back, and whether a direction is read. -/
structure Cursor where
  index : Nat := 0
  slot : Option Token := none
  direction : Bool := false

namespace NameMode

theorem after_eq_label_iff {names : NameMode} {kind : TokenKind} :
    names.after kind = .label ↔ kind = .colon ∨ kind ≠ .rightParen ∧ names = .label := by
  unfold after
  split <;> simp_all

/-- Of the tokens that lead into and out of labels the last one decides. -/
theorem afterAll_plain_eq_label_iff (tokens : List Token) :
    plain.afterAll tokens = .label ↔
      (tokens.filter fun token => token.kind = .colon ∨ token.kind = .rightParen).getLast?.any
        fun token => token.kind = .colon := by
  induction tokens using List.reverseRecOn with
  | nil => exact iff_of_false NameMode.noConfusion Bool.false_ne_true
  | append_singleton tokens token ih =>
    have hlast : plain.afterAll (tokens ++ [token]) = (plain.afterAll tokens).after token.kind :=
      List.foldl_append
    rw [hlast, after_eq_label_iff, ih, List.filter_append]
    by_cases hcolon : token.kind = .colon
    · simp [hcolon]
    · by_cases hparen : token.kind = .rightParen <;> simp [hcolon, hparen]

end NameMode

namespace Cursor

/-- The token pushed back, or else the next one of the list, which ends with the same token for ever. Whether
a direction is read when a token is handed out decides the kind of a single minus. -/
def next (text : String) (cursor : Cursor) : Token × Cursor :=
  match cursor.slot with
  | some token => (token, { cursor with slot := none })
  | none =>
    let token := (tokenize text)[cursor.index]?.getD ((tokenize text).getLast (tokenize_ne_nil text))
    (if token.literal = "-" then { token with kind := if cursor.direction then .ident else .illegal }
      else token,
      { cursor with index := min (cursor.index + 1) (tokenize text).length })

def respond (text : String) (cursor : Cursor) : Call → Answer × Cursor
  | .next =>
    let (token, cursor) := cursor.next text
    (.token token, cursor)
  | .pushBack token => (.displaced cursor.slot, { cursor with slot := some token })
  | .readDirection on => (.done, { cursor with direction := on })
  | .step =>
    let (token, cursor) := cursor.next text
    (.item (if token.kind = .eof then none else some token), cursor)

/-- The tokens of the list that have been handed out. -/
def passed (text : String) (cursor : Cursor) : List Token :=
  (tokenize text).take cursor.index

/-- Whether the last colon or closing parenthesis among the tokens passed is a colon. -/
def readsLabel (text : String) (cursor : Cursor) : Bool :=
  ((cursor.passed text).filter fun token => token.kind = .colon ∨ token.kind = .rightParen).getLast?.any
    fun token => token.kind = .colon

/-- The character of the text behind the tokens passed. -/
def peek? (text : String) (cursor : Cursor) : Option Char :=
  String.Pos.Raw.get? text ⟨((cursor.passed text).getLast?.map (·.span.stop)).getD 0⟩

def observe (text : String) (cursor : Cursor) (answer : Answer) : Observation where
  answer
  readsLabel := cursor.readsLabel text
  readsDirection := cursor.direction
  peek? := cursor.peek? text

/-- The lexer at the place of a cursor. -/
def lexer (text : String) (cursor : Cursor) : Lexer :=
  { (Lexer.ofText text).skip cursor.index with
    minus := if cursor.direction then .accepted else .refused
    pending := cursor.slot }

theorem lexer_start (text : String) : ({} : Cursor).lexer text = .ofText text := rfl

theorem next_lexer (text : String) (cursor : Cursor) :
    (cursor.lexer text).next = ((cursor.next text).1, (cursor.next text).2.lexer text) := by
  obtain ⟨index, slot, direction⟩ := cursor
  cases slot with
  | some token => rfl
  | none =>
    have hminus : ((Lexer.ofText text).skip index).minus = .refused := Lexer.minus_skip index _
    have hnext : (lexer text ⟨index, none, direction⟩).next = (lexer text ⟨index, none, direction⟩).scan := rfl
    rw [hnext, lexer, Lexer.scan_with hminus, Lexer.scan_skip index rfl, ← Lexer.skip_succ',
      ← Lexer.skip_min_length _ rfl]
    cases direction <;> rfl

theorem respond_lexer (text : String) (cursor : Cursor) (call : Call) :
    (cursor.lexer text).respond call =
      ((cursor.respond text call).1, (cursor.respond text call).2.lexer text) := by
  cases call with
  | next =>
    rw [Lexer.respond, next_lexer]
    rfl
  | pushBack token => rfl
  | readDirection on => rfl
  | step =>
    rw [Lexer.respond, Lexer.step?, next_lexer]
    simp only [respond, Token.isEof, decide_eq_true_eq]
    rfl

/-! ### What is seen between the calls -/

theorem readsLabel_lexer (text : String) (cursor : Cursor) :
    (cursor.lexer text).readsLabel = cursor.readsLabel text := by
  have hnames : (cursor.lexer text).names = NameMode.plain.afterAll (cursor.passed text) :=
    Lexer.names_skip cursor.index rfl
  rw [Bool.eq_iff_iff, Lexer.readsLabel, decide_eq_true_iff, hnames]
  exact NameMode.afterAll_plain_eq_label_iff (cursor.passed text)

theorem readsDirection_lexer (text : String) (cursor : Cursor) :
    (cursor.lexer text).readsDirection = cursor.direction := by
  obtain ⟨index, slot, direction⟩ := cursor
  cases direction <;> rfl

theorem peek?_lexer (text : String) (cursor : Cursor) :
    (cursor.lexer text).peek? = cursor.peek? text := by
  obtain ⟨before, hrest, hoffset⟩ := Lexer.exists_before_skip cursor.index (Lexer.ofText text)
  have hposition : Text.byteLength before = ((cursor.passed text).getLast?.map (·.span.stop)).getD 0 := by
    have hstop := @Lexer.offset_skip (Lexer.ofText text) cursor.index rfl
    rw [hoffset] at hstop
    exact (Nat.zero_add _).symm.trans hstop
  rw [peek?, ← hposition, Text.get?_byteLength hrest]
  rfl

theorem observe_lexer (text : String) (cursor : Cursor) (answer : Answer) :
    (cursor.lexer text).observe answer = cursor.observe text answer := by
  rw [Lexer.observe, observe, readsLabel_lexer, readsDirection_lexer, peek?_lexer]

/-- From corresponding states on, a lexer and a cursor are seen to do the same. -/
theorem transcript_lexer (text : String) (calls : List Call) (cursor : Cursor) :
    transcript Lexer.respond Lexer.observe (cursor.lexer text) calls =
      transcript (Cursor.respond text) (Cursor.observe text) cursor calls := by
  induction calls generalizing cursor with
  | nil => rfl
  | cons call calls ih =>
    rw [transcript, respond_lexer, transcript]
    exact congrArg₂ List.cons (observe_lexer text _ _) (ih _)

end Cursor

/-- Whatever calls are made of a lexer, in whatever order, it cannot be told from a cursor in the token list
of its query. -/
theorem Lexer.transcript_eq_cursor (text : String) (calls : List Call) :
    transcript Lexer.respond Lexer.observe (Lexer.ofText text) calls =
      transcript (Cursor.respond text) (Cursor.observe text) {} calls := by
  rw [← Cursor.lexer_start]
  exact Cursor.transcript_lexer text calls {}

end ResourceGraph.Query
