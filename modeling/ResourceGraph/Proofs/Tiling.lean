import ResourceGraph.Proofs.LexerPositions

/-!
# Tokens tile their query

The tokens of a query and the trivia between them make up the query, byte for byte: `Tiles` reads a text as
trivia, a token, trivia, a token and so on to the end, and the tokens of every place tile what is left of the
query there (`tiles_tokens`). What the spans of the tokens cut out follows from this by induction on `Tiles`.
The tokens are those that are read by byte positions, with no cut inside a character.
-/

namespace ResourceGraph.Query

open Text (byteLength)

/-- The tokens, the last one `eof`, cut out of a text that starts at byte `start`, with trivia in front of
each. -/
inductive Tiles : (start : Nat) → (cs : List Char) → List Token → Prop
  | eof {start : Nat} {gap : List Char} : IsTrivia [] gap →
    Tiles start gap [⟨.eof, "", ⟨start + byteLength gap, start + byteLength gap⟩⟩]
  | token {start : Nat} {gap piece rest : List Char} {kind : TokenKind} {tokens : List Token} :
    IsTrivia (piece ++ rest) gap → piece ≠ [] → kind ≠ .eof →
    Tiles (start + byteLength (gap ++ piece)) rest tokens →
    Tiles start (gap ++ piece ++ rest)
      (⟨kind, String.ofList piece, ⟨start + byteLength gap, start + byteLength (gap ++ piece)⟩⟩ :: tokens)

theorem tiles_tokens {lexer : Lexer} (h : lexer.pending = none) :
    Tiles lexer.offset lexer.rest lexer.tokens := by
  induction lexer using Lexer.scan_induction with
  | last lexer hlast =>
    have hnil := Lexer.isEof_scan_iff.1 hlast
    have hgap := isTrivia_splitTrivia lexer.rest
    have happend := append_splitTrivia lexer.rest
    rw [hnil, List.append_nil] at happend
    rw [hnil, happend] at hgap
    rw [Lexer.tokens_of_isEof h hlast, Lexer.scan_of_nil hnil]
    exact .eof hgap
  | step lexer hmore ih =>
    have hne : (splitTrivia lexer.rest).2 ≠ [] :=
      fun hnil => Bool.eq_false_iff.1 hmore (Lexer.isEof_scan_iff.2 hnil)
    have hgap := isTrivia_splitTrivia lexer.rest
    have happend := Lexeme.append_read lexer.names lexer.minus (splitTrivia lexer.rest).2
    have hpiece : (Lexeme.read lexer.names lexer.minus (splitTrivia lexer.rest).2).text ≠ [] := by
      obtain ⟨c, cs, hcons⟩ := List.exists_cons_of_ne_nil hne
      rw [hcons]
      exact Lexeme.text_read_ne_nil lexer.names lexer.minus c cs
    have hkind : (Lexeme.read lexer.names lexer.minus (splitTrivia lexer.rest).2).kind ≠ .eof :=
      mt Lexeme.kind_read_eq_eof_iff.1 hne
    have hrest := ih h
    rw [Lexer.offset_scan, Lexer.literal_scan] at hrest
    rw [← happend] at hgap
    have htiles := Tiles.token hgap hpiece hkind hrest
    rw [List.append_assoc, happend, append_splitTrivia, Text.byteLength_append, ← Nat.add_assoc] at htiles
    rw [Lexer.tokens_of_not_isEof h hmore]
    exact htiles

/-- The spans between tokens, from byte `start` on. -/
def gaps (start : Nat) : List Token → List Span
  | [] => []
  | token :: tokens => ⟨start, token.span.start⟩ :: gaps token.span.stop tokens

/-- At `span` stands `piece`, and `rest` behind it. Wherever a reader of the piece stops, what it has read and
what is left of the text are slices of the text. -/
structure StandsAt (text : String) (span : Span) (piece rest : List Char) : Prop where
  stop_eq : span.stop = span.start + byteLength piece
  slices : ∀ read left, piece = read ++ left →
    slice? text ⟨span.start, span.start + byteLength read⟩ = some (String.ofList read) ∧
    slice? text ⟨span.start + byteLength read, text.utf8ByteSize⟩ = some (String.ofList (left ++ rest))

theorem standsAt_of_append {text : String} {span : Span} {before piece rest : List Char}
    (htext : text.toList = before ++ piece ++ rest) (hstart : span.start = byteLength before)
    (hstop : span.stop = byteLength (before ++ piece)) : StandsAt text span piece rest where
  stop_eq := by rw [hstop, hstart, Text.byteLength_append]
  slices read left hpiece := by
    subst hpiece
    have hread : text.toList = before ++ read ++ (left ++ rest) := by rw [htext]; simp
    rw [hstart]
    refine ⟨slice?_of_append hread, ?_⟩
    rw [← Text.byteLength_append]
    exact slice?_to_end hread

theorem StandsAt.slice?_eq {text : String} {span : Span} {piece rest : List Char}
    (h : StandsAt text span piece rest) : slice? text span = some (String.ofList piece) := by
  have hslice := (h.slices piece [] (List.append_nil piece).symm).1
  rwa [← h.stop_eq] at hslice

/-! ### What tiles say of spans -/

theorem stop_eq_byteLength {start : Nat} {before : List Char} (hstart : start = byteLength before)
    (piece : List Char) : start + byteLength piece = byteLength (before ++ piece) := by
  rw [hstart, Text.byteLength_append]

namespace Tiles
variable {start : Nat} {cs : List Char} {tokens : List Token}

/-- The `eof` at the end of the text comes last and is the only one. No other token is empty. -/
theorem exists_eof (h : Tiles start cs tokens) :
    ∃ init, tokens = init ++ [⟨.eof, "", ⟨start + byteLength cs, start + byteLength cs⟩⟩] ∧
      ∀ token ∈ init, token.kind ≠ .eof ∧ token.span.start < token.span.stop := by
  induction h with
  | eof => exact ⟨[], rfl, fun token hmem => absurd hmem List.not_mem_nil⟩
  | @token start gap piece rest kind tokens hgap hpiece hkind _ ih =>
    obtain ⟨init, rfl, hinit⟩ := ih
    have hpos : byteLength piece ≠ 0 := mt Text.byteLength_eq_zero_iff.1 hpiece
    have hlt : start + byteLength gap < start + byteLength (gap ++ piece) := by
      rw [Text.byteLength_append]
      omega
    let first : Token :=
      ⟨kind, String.ofList piece, ⟨start + byteLength gap, start + byteLength (gap ++ piece)⟩⟩
    refine ⟨first :: init, ?_, List.forall_mem_cons.2 ⟨⟨hkind, hlt⟩, hinit⟩⟩
    rw [Text.byteLength_append (gap ++ piece), ← Nat.add_assoc]
    rfl

theorem start_le (h : Tiles start cs tokens) : ∀ token ∈ tokens, start ≤ token.span.start := by
  induction h with
  | eof => exact List.forall_mem_singleton.2 (Nat.le_add_right _ _)
  | token _ _ _ _ ih =>
    refine List.forall_mem_cons.2 ⟨Nat.le_add_right _ _, fun token hmem => ?_⟩
    exact Nat.le_trans (Nat.le_add_right _ _) (ih token hmem)

/-- The tokens come in the order of their spans, which have no byte in common. -/
theorem pairwise_le (h : Tiles start cs tokens) :
    tokens.Pairwise fun first second => first.span.stop ≤ second.span.start := by
  induction h with
  | eof => exact List.pairwise_singleton _ _
  | token _ _ _ htiles ih => exact List.pairwise_cons.2 ⟨htiles.start_le, ih⟩

variable {text : String} {before : List Char}

theorem standsAt (h : Tiles start cs tokens) (htext : text.toList = before ++ cs)
    (hstart : start = byteLength before) :
    ∀ token ∈ tokens, ∃ rest, StandsAt text token.span token.literal.toList rest := by
  induction h generalizing before with
  | @eof start gap =>
    have hstop := stop_eq_byteLength hstart gap
    refine List.forall_mem_singleton.2 ⟨[], standsAt_of_append ?_ hstop ?_⟩
    · rw [htext]
      simp
    · exact hstop.trans (congrArg byteLength (List.append_nil _).symm)
  | @token start gap piece rest kind tokens _ _ _ _ ih =>
    have hpiece : text.toList = before ++ gap ++ piece ++ rest := by rw [htext]; simp
    refine List.forall_mem_cons.2 ⟨⟨rest, ?_⟩, ih ?_ (stop_eq_byteLength hstart _)⟩
    · rw [String.toList_ofList]
      refine standsAt_of_append hpiece (stop_eq_byteLength hstart gap) ((stop_eq_byteLength hstart _).trans ?_)
      rw [List.append_assoc]
    · rw [htext, List.append_assoc before]

/-- Between the tokens stands trivia and nothing else. -/
theorem isTrivia_gaps (h : Tiles start cs tokens) (htext : text.toList = before ++ cs)
    (hstart : start = byteLength before) :
    ∀ gap ∈ gaps start tokens, ∃ skipped rest, StandsAt text gap skipped rest ∧ IsTrivia rest skipped := by
  induction h generalizing before with
  | @eof start gap hgap =>
    refine List.forall_mem_singleton.2 ⟨gap, [], ?_, hgap⟩
    exact standsAt_of_append (by rw [htext, List.append_nil]) hstart (stop_eq_byteLength hstart gap)
  | @token start gap piece rest kind tokens hgap _ _ _ ih =>
    have hskipped : text.toList = before ++ gap ++ (piece ++ rest) := by rw [htext]; simp
    refine List.forall_mem_cons.2 ⟨⟨gap, piece ++ rest, ?_, hgap⟩, ih ?_ (stop_eq_byteLength hstart _)⟩
    · exact standsAt_of_append hskipped hstart (stop_eq_byteLength hstart gap)
    · rw [htext, List.append_assoc before]

end Tiles

/-- Every text comes apart into tokens, each a slice of the text, and trivia between them, up to the `eof` at
its end. When they are read by byte positions, no slice is ever taken outside the text or inside a character. -/
theorem tokenize_tiling (text : String) :
    (∃ init, tokenize text = init ++ [⟨.eof, "", ⟨text.utf8ByteSize, text.utf8ByteSize⟩⟩] ∧
      ∀ token ∈ init, token.kind ≠ .eof ∧ token.span.start < token.span.stop) ∧
    (∀ token ∈ tokenize text, slice? text token.span = some token.literal ∧
      ∃ rest, StandsAt text token.span token.literal.toList rest) ∧
    ((tokenize text).Pairwise fun first second => first.span.stop ≤ second.span.start) ∧
    (∀ gap ∈ gaps 0 (tokenize text), ∃ skipped rest,
      StandsAt text gap skipped rest ∧ IsTrivia rest skipped) ∧
    tokenizeAt? text = some (tokenize text) := by
  have htiles : Tiles 0 text.toList (tokenize text) := @tiles_tokens (Lexer.ofText text) rfl
  have htext : text.toList = [] ++ text.toList := rfl
  refine ⟨?_, fun token hmem => ?_, htiles.pairwise_le, htiles.isTrivia_gaps htext rfl, tokenizeAt?_eq text⟩
  · have heof := htiles.exists_eof
    rwa [Text.byteLength_toList, Nat.zero_add] at heof
  · obtain ⟨rest, hstands⟩ := htiles.standsAt htext rfl token hmem
    have hslice := hstands.slice?_eq
    rw [String.ofList_toList] at hslice
    exact ⟨hslice, rest, hstands⟩

end ResourceGraph.Query
