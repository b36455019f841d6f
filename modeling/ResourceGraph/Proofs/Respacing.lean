import ResourceGraph.Proofs.LineBreaks

/-!
# Respaced queries

Trivia that ends by itself (`IsClosedTrivia`) is skipped whatever stands behind it, and the text of a token,
put in front of a line break or the end of the text, is read as that token again (`Lexer.scan_respaced`). So
the kinds and texts of the tokens of a query do not change when other trivia is put between them, as long as
every token ends with its line (`Lexer.tokens_respaced`).
-/

namespace ResourceGraph.Query

/-- Trivia whose last line comment ends in front of what follows: spaces, line comments with their line ends,
and block comments up to their first end mark. -/
inductive IsClosedTrivia : List Char → Prop
  | nil : IsClosedTrivia []
  | space {c : Char} {cs : List Char} : c ∈ [' ', '\t', '\r', '\n'] → IsClosedTrivia cs →
    IsClosedTrivia (c :: cs)
  | lineComment {body cs : List Char} : '\n' ∉ body → IsClosedTrivia cs →
    IsClosedTrivia ('/' :: '/' :: body ++ '\n' :: cs)
  | blockComment {body cs : List Char} : ¬ ['*', '/'] <:+: body → IsClosedTrivia cs →
    IsClosedTrivia ('/' :: '*' :: body ++ '*' :: '/' :: cs)

theorem IsClosedTrivia.isTrivia {gap : List Char} (h : IsClosedTrivia gap) (after : List Char) :
    IsTrivia after gap := by
  induction h with
  | nil => exact .nil
  | space hc _ ih => exact .space hc ih
  | lineComment hbody _ ih => exact .lineComment hbody (isBehindLine_lineBreak _) (.space (by simp) ih)
  | blockComment hbody _ ih => exact .blockComment hbody ih

/-- The token texts one after the other, with closed trivia behind them that begins with a line break. Only
behind the last one may it be missing, and behind an open comment it has to be. -/
inductive Respaces : List Token → List Char → Prop
  | nil : Respaces [] []
  | last {token : Token} {gap : List Char} : IsClosedTrivia gap → IsBehindLine gap →
    (token.OpensComment → gap = []) → Respaces [token] (token.literal.toList ++ gap)
  | cons {token next : Token} {tokens : List Token} {gap body : List Char} : IsClosedTrivia gap →
    gap.head? = some '\n' → Respaces (next :: tokens) body →
    Respaces (token :: next :: tokens) (token.literal.toList ++ gap ++ body)

/-- What a token says apart from its place. -/
def Token.content (token : Token) : TokenKind × String :=
  (token.kind, token.literal)

/-- The text with each of the tokens on a line of its own. -/
def onLines (tokens : List Token) : String :=
  "\n".intercalate (tokens.map (·.literal))

namespace Lexeme

/-- A lexeme stands for itself at the end of a line and at the end of the text, an open comment only at the
end of the text. -/
theorem read_text_append {cs behind : List Char} (hne : cs ≠ []) (h : splitPiece? cs = none)
    (hbehind : IsBehindLine behind) (hopen : ['/', '*'] <+: cs → behind = []) (names : NameMode)
    (minus : MinusMode) :
    splitPiece? ((read names minus cs).text ++ behind) = none ∧
      read names minus ((read names minus cs).text ++ behind) = { read names minus cs with rest := behind } := by
  by_cases hcomment : ['/', '*'] <+: cs
  · obtain rfl := hopen hcomment
    obtain ⟨body, rfl⟩ := hcomment
    have hread := read_comment body names minus
    rw [List.cons_append, List.cons_append, List.nil_append] at h ⊢
    rw [hread, List.append_nil]
    exact ⟨h, hread⟩
  · obtain ⟨c, tail, rfl⟩ := List.exists_cons_of_ne_nil hne
    have htext := text_read_ne_nil names minus c tail
    have hcs := append_read names minus (c :: tail)
    rw [← hcs] at h hcomment
    have hread := read_append htext h hcomment (by rw [hcs]) hbehind (by rw [hcs])
    rw [hcs] at hread
    exact ⟨(splitPiece?_append htext h hcomment hbehind).1, hread⟩

end Lexeme

namespace Lexer

variable {lexer lexer' : Lexer}

theorem scan_respaced {lead behind : List Char} (hnames : lexer'.names = lexer.names)
    (hminus : lexer'.minus = lexer.minus)
    (hrest : lexer'.rest = lead ++ (lexer.scan.1.literal.toList ++ behind))
    (hmore : lexer.scan.1.isEof = false) (hlead : IsClosedTrivia lead) (hbehind : IsBehindLine behind)
    (hopen : lexer.scan.1.OpensComment → behind = []) :
    lexer'.scan.1.content = lexer.scan.1.content ∧ lexer'.scan.2.rest = behind ∧
      lexer'.scan.2.names = lexer.scan.2.names := by
  rw [opensComment_scan_iff] at hopen
  obtain ⟨hnone, hread⟩ := Lexeme.read_text_append (splitTrivia_ne_nil hmore)
    (splitPiece?_splitTrivia lexer.rest) hbehind hopen lexer.names lexer.minus
  rw [literal_scan] at hrest
  have hsplit := splitTrivia_append (hlead.isTrivia
    ((Lexeme.read lexer.names lexer.minus (splitTrivia lexer.rest).2).text ++ behind))
  rw [← hrest, splitTrivia_of_splitPiece?_eq_none hnone] at hsplit
  simp only [scan, hsplit, hnames, hminus, hread, Token.content, and_self]

/-- An open comment is the last token. -/
theorem collect_of_opensComment (h : lexer.pending = none) (hopen : lexer.scan.1.OpensComment) :
    lexer.scan.2.collect.1 = [] := by
  have hend : lexer.scan.2.pending = none := h
  obtain ⟨body, hbody⟩ := opensComment_scan_iff.1 hopen
  have hrest : lexer.scan.2.rest = [] := by
    rw [rest_scan, ← hbody]
    exact congrArg Lexeme.rest (Lexeme.read_comment body lexer.names lexer.minus)
  have hnil : (splitTrivia lexer.scan.2.rest).2 = [] := by
    rw [hrest, splitTrivia_of_splitPiece?_eq_none rfl]
  rw [collect_of_isEof hend (isEof_scan_iff.2 hnil)]

/-- The text of the first token is followed by the respaced texts of the others. -/
theorem exists_of_respaces {body : List Char} (h : lexer.pending = none)
    (hbody : Respaces (lexer.scan.1 :: lexer.scan.2.collect.1) body) :
    ∃ gap rest, body = lexer.scan.1.literal.toList ++ (gap ++ rest) ∧ IsClosedTrivia gap ∧
      IsBehindLine (gap ++ rest) ∧ (lexer.scan.1.OpensComment → gap ++ rest = []) ∧
      Respaces lexer.scan.2.collect.1 rest := by
  generalize hothers : lexer.scan.2.collect.1 = others at hbody ⊢
  cases hbody with
  | @last _ gap hgap hline hopen =>
    refine ⟨gap, [], ?_, hgap, ?_, ?_, .nil⟩
    · rw [List.append_nil]
    · rwa [List.append_nil]
    · rwa [List.append_nil]
  | @cons _ next tokens gap rest hgap hhead hrest =>
    refine ⟨gap, rest, List.append_assoc .., hgap, ?_, ?_, hrest⟩
    · intro c hc
      rw [List.head?_append, hhead, Option.some_or] at hc
      exact (Option.some.inj hc).symm
    · -- an open comment is the last token, and here another one follows
      intro hopen
      rw [collect_of_opensComment h hopen] at hothers
      cases hothers

theorem content_tokens_of_respaces {lead body : List Char} (h : lexer.pending = none)
    (h' : lexer'.pending = none) (hnames : lexer'.names = lexer.names) (hminus : lexer'.minus = lexer.minus)
    (hrest : lexer'.rest = lead ++ body) (hlead : IsClosedTrivia lead) (hbody : Respaces lexer.collect.1 body) :
    lexer'.tokens.map Token.content = lexer.tokens.map Token.content := by
  induction lexer using scan_induction generalizing lexer' lead body with
  | last lexer hlast =>
    rw [collect_of_isEof h hlast] at hbody
    cases hbody
    have hnil : splitTrivia [] = ([], []) := splitTrivia_of_splitPiece?_eq_none rfl
    have hsplit := splitTrivia_append (hlead.isTrivia [])
    rw [← hrest, hnil] at hsplit
    have hlast' : lexer'.scan.1.isEof := isEof_scan_iff.2 (by rw [hsplit])
    rw [tokens_of_isEof h hlast, tokens_of_isEof h' hlast', scan_of_nil (isEof_scan_iff.1 hlast),
      scan_of_nil (isEof_scan_iff.1 hlast')]
    rfl
  | step lexer hmore ih =>
    rw [collect_of_not_isEof h hmore] at hbody
    obtain ⟨gap, rest, rfl, hgap, hline, hopen, hrespaces⟩ := exists_of_respaces h hbody
    obtain ⟨hcontent, hbehind, hnames'⟩ := scan_respaced hnames hminus hrest hmore hlead hline hopen
    have hkind : lexer'.scan.1.kind = lexer.scan.1.kind := congrArg Prod.fst hcontent
    have hmore' : lexer'.scan.1.isEof = false := by rwa [Token.isEof, hkind]
    have hend : lexer'.scan.2.pending = none := h'
    rw [tokens_of_not_isEof h hmore, tokens_of_not_isEof h' hmore', List.map_cons, List.map_cons, hcontent,
      ih h hend hnames' hminus hbehind hgap hrespaces]

end Lexer

/-! ### One token on each line -/

theorem toList_onLines_cons (token next : Token) (tokens : List Token) :
    (onLines (token :: next :: tokens)).toList =
      token.literal.toList ++ ['\n'] ++ (onLines (next :: tokens)).toList := by
  simp [onLines, String.intercalate_cons_cons]

theorem respaces_onLines (tokens : List Token) : Respaces tokens (onLines tokens).toList := by
  induction tokens with
  | nil => exact .nil
  | cons token tokens ih =>
    cases tokens with
    | nil =>
      have hlast := @Respaces.last token [] .nil (fun c hc => by cases hc) (fun _ => rfl)
      simpa [onLines] using hlast
    | cons next tokens =>
      rw [toList_onLines_cons]
      exact .cons (.space (by simp) .nil) rfl ih

theorem Lexer.content_collect (lexer : Lexer) :
    lexer.collect.1.map Token.content = (lexer.tokens.map Token.content).dropLast := by
  rw [← List.map_dropLast, tokens, List.dropLast_concat]
  rfl

theorem onLines_eq_of_content {tokens tokens' : List Token}
    (h : tokens.map Token.content = tokens'.map Token.content) : onLines tokens = onLines tokens' := by
  have hliterals := congrArg (List.map Prod.snd) h
  rw [List.map_map, List.map_map] at hliterals
  exact congrArg "\n".intercalate hliterals

/-- The trivia in front of the tokens of a text, between them and behind them may be replaced by any other, as
long as each token is followed by a line break if anything. One line for each token is a normal form. -/
theorem Lexer.tokens_respaced (text : String) (names : NameMode) (minus : MinusMode) :
    (∀ lead body, IsClosedTrivia lead → Respaces (start text names minus).collect.1 body →
      (start (String.ofList (lead ++ body)) names minus).tokens.map Token.content =
        (start text names minus).tokens.map Token.content) ∧
    (start (onLines (start text names minus).collect.1) names minus).tokens.map Token.content =
      (start text names minus).tokens.map Token.content ∧
    onLines (start (onLines (start text names minus).collect.1) names minus).collect.1 =
      onLines (start text names minus).collect.1 := by
  have hrespaced : ∀ lead body, IsClosedTrivia lead → Respaces (start text names minus).collect.1 body →
      (start (String.ofList (lead ++ body)) names minus).tokens.map Token.content =
        (start text names minus).tokens.map Token.content := by
    intro lead body hlead hbody
    exact content_tokens_of_respaces rfl rfl rfl rfl String.toList_ofList hlead hbody
  have hlines := hrespaced [] _ .nil (respaces_onLines _)
  rw [List.nil_append, String.ofList_toList] at hlines
  refine ⟨hrespaced, hlines, onLines_eq_of_content ?_⟩
  rw [content_collect, content_collect, hlines]

/-- A half number and an open string, taken apart by a comment with quotes in it. -/
theorem Lexer.tokens_respaced_comment :
    IsClosedTrivia "/**/".toList ∧ Respaces (start "1.\"a" .plain .refused).collect.1 "1.\n//\"\n\"a\n".toList ∧
      (start (String.ofList ("/**/".toList ++ "1.\n//\"\n\"a\n".toList)) .plain .refused).tokens.map
        Token.content = [(.illegal, "1."), (.illegal, "\"a"), (.eof, "")] := by
  have hlead : IsClosedTrivia "/**/".toList := @IsClosedTrivia.blockComment [] [] (by decide) .nil
  have hcollect : (start "1.\"a" .plain .refused).collect.1 =
      [⟨.illegal, "1.", ⟨0, 2⟩⟩, ⟨.illegal, "\"a", ⟨2, 4⟩⟩] := by decide +kernel
  have hgap : IsClosedTrivia "\n//\"\n".toList :=
    @IsClosedTrivia.space '\n' _ (by decide) (@IsClosedTrivia.lineComment ['"'] [] (by decide) .nil)
  have hbody : Respaces (start "1.\"a" .plain .refused).collect.1 "1.\n//\"\n\"a\n".toList := by
    rw [hcollect]
    have hlast : IsClosedTrivia ['\n'] := .space (by decide) .nil
    exact .cons hgap rfl (.last hlast (isBehindLine_lineBreak []) (by decide))
  have hrespaced := (tokens_respaced "1.\"a" .plain .refused).1 _ _ hlead hbody
  exact ⟨hlead, hbody, hrespaced.trans (by decide +kernel)⟩

end ResourceGraph.Query
