import ResourceGraph.Proofs.LongestMatch
import ResourceGraph.Proofs.Slices

/-!
# Line breaks end lexemes

No lexeme but an open comment goes on behind a line break (`IsLexeme.lineBreak_not_mem`), so a text and its
first line begin with the same longest lexeme: of two texts that begin with each other's lexemes both lexemes are
the same (`IsLongestLexeme.unique`). The tokens of a text that goes on with a further line are therefore its own
tokens and behind them those of the further line, read with the meaning of names that was reached
(`Lexer.tokens_lineBreak`). An open comment is the only lexical fault that spills over the end of its line.
-/

namespace ResourceGraph.Query

/-! ### Lexemes on one line -/

theorem isNamePart_lineBreak : isNamePart '\n' = false := by
  rw [isNamePart, Text.isAlphanumeric, Text.isAlphabetic_of_lt (by decide), Text.isNumeric_of_lt (by decide)]
  rfl

theorem IsName.lineBreak_not_mem {cs : List Char} (h : IsName cs) : '\n' ∉ cs := by
  intro hmem
  have := h.isNamePart '\n' hmem
  rw [isNamePart_lineBreak] at this
  cases this

theorem IsLabel.lineBreak_not_mem {cs : List Char} (h : IsLabel cs) : '\n' ∉ cs := by
  induction h with
  | name hname => exact hname.lineBreak_not_mem
  | dotted hname _ ih => simp [hname.lineBreak_not_mem, ih]

theorem IsDigits.lineBreak_not_mem {cs : List Char} (h : IsDigits cs) : '\n' ∉ cs :=
  fun hmem => absurd (h '\n' hmem) (by decide)

theorem IsFraction.lineBreak_not_mem {cs : List Char} (h : cs = [] ∨ IsFraction cs) : '\n' ∉ cs := by
  rcases h with rfl | @⟨digits, hdigits⟩
  · simp
  · simp [hdigits.lineBreak_not_mem]

theorem IsExponent.lineBreak_not_mem {cs : List Char} (h : cs = [] ∨ IsExponent cs) : '\n' ∉ cs := by
  rcases h with rfl | @⟨c, sign, digits, hletter, hsign, hdigits⟩
  · simp
  · simp only [List.mem_cons, List.not_mem_nil, or_false] at hletter hsign
    rcases hletter with rfl | rfl <;> rcases hsign with rfl | rfl | rfl <;> simp [hdigits.lineBreak_not_mem]

theorem IsQuotable.lineBreak_not_mem {cs : List Char} (h : IsQuotable cs) : '\n' ∉ cs := by
  induction h with
  | nil => simp
  | char hc _ ih =>
    simp only [List.mem_cons, List.not_mem_nil, or_false, not_or] at hc
    simp [ih, Ne.symm hc.2.2]
  | escape hc _ ih => simp [ih, Ne.symm hc]

theorem lineBreak_not_mem_punctuation {cs : List Char} {kind : TokenKind}
    (h : (String.ofList cs, kind) ∈ punctuation) : '\n' ∉ cs := by
  have htable : ∀ entry ∈ punctuation, '\n' ∉ entry.1.toList := by decide
  have := htable _ h
  rwa [String.toList_ofList] at this

theorem IsLexeme.lineBreak_not_mem {names : NameMode} {minus : MinusMode} {cs : List Char} {kind : TokenKind}
    (h : IsLexeme names minus cs kind) (hstart : cs.head? ≠ some '\n') (hopen : ¬ ['/', '*'] <+: cs) :
    '\n' ∉ cs := by
  cases h with
  | reserved _ hname _ => exact hname.lineBreak_not_mem
  | ident _ hname _ => exact hname.lineBreak_not_mem
  | label _ hlabel => exact hlabel.lineBreak_not_mem
  | openLabel _ hlabel => simp [hlabel.lineBreak_not_mem]
  | number _ hdigits => exact hdigits.lineBreak_not_mem
  | real _ hdigits hfraction hexponent =>
    simp [hdigits.lineBreak_not_mem, IsFraction.lineBreak_not_mem hfraction,
      IsExponent.lineBreak_not_mem hexponent]
  | string hbody => simp [hbody.lineBreak_not_mem]
  | openString hbody hlone => rcases List.mem_pair.1 hlone with rfl | rfl <;> simp [hbody.lineBreak_not_mem]
  | operator hmem => exact lineBreak_not_mem_punctuation hmem
  | minus => decide
  | @openComment body _ => exact absurd ⟨body, rfl⟩ hopen
  | char _ _ _ _ _ =>
    intro hmem
    obtain rfl := List.mem_singleton.1 hmem
    exact hstart rfl

/-- Two texts that begin with each other's longest lexemes have the same one. -/
theorem IsLongestLexeme.unique {names : NameMode} {minus : MinusMode} {text text' cs cs' : List Char}
    {kind kind' : TokenKind} (h : IsLongestLexeme names minus text cs kind)
    (h' : IsLongestLexeme names minus text' cs' kind') (hbegins : cs <+: text') (hbegins' : cs' <+: text) :
    cs' = cs ∧ kind' = kind := by
  have hle := h.longest minus cs' kind' h'.isLexeme hbegins'
  have hge := h'.longest minus cs kind h.isLexeme hbegins
  have hprefix := List.prefix_of_prefix_length_le hbegins' h.isPrefix hle
  obtain rfl := hprefix.eq_of_length_le hge
  exact ⟨rfl, h'.isLexeme.kind_unique h.isLexeme⟩

/-! ### Reading up to a line break -/

theorem prefix_of_prefix_append {xs before behind : List Char} (h : xs <+: before ++ behind)
    (hbehind : ∀ c ∈ behind.head?, c ∉ xs) : xs <+: before := by
  rcases List.prefix_or_prefix_of_prefix h (List.prefix_append before behind) with h' | ⟨more, rfl⟩
  · exact h'
  · cases more with
    | nil => simp
    | cons c more =>
      obtain ⟨behind, rfl⟩ := (List.prefix_append_right_inj before).1 h
      exact absurd (by simp) (hbehind c rfl)

/-- What stands behind is empty or begins a new line. -/
def IsBehindLine (behind : List Char) : Prop :=
  ∀ c ∈ behind.head?, c = '\n'

theorem isBehindLine_lineBreak (more : List Char) : IsBehindLine ('\n' :: more) :=
  fun _ hc => (Option.some.inj hc).symm

theorem IsBehindLine.begins {xs before behind : List Char} (h : IsBehindLine behind)
    (hbegins : xs <+: before ++ behind) (hxs : '\n' ∉ xs) : xs <+: before :=
  prefix_of_prefix_append hbegins fun c hc => h c hc ▸ hxs

theorem not_isSpace_of_splitPiece? {c : Char} {cs : List Char} (h : splitPiece? (c :: cs) = none) :
    isSpace c = false := by
  by_contra hspace
  have hmem := mem_spaces_of_isSpace (Bool.not_eq_false _ ▸ hspace)
  simp only [List.mem_cons, List.not_mem_nil, or_false] at hmem
  rcases hmem with rfl | rfl | rfl | rfl <;> cases h

theorem splitPiece?_eq_none_iff {c : Char} {cs : List Char} (hopen : ¬ ['/', '*'] <+: c :: cs) :
    splitPiece? (c :: cs) = none ↔ isSpace c = false ∧ ¬ ['/', '/'] <+: c :: cs := by
  constructor
  · intro h
    refine ⟨not_isSpace_of_splitPiece? h, ?_⟩
    rintro ⟨more, hmore⟩
    rw [← hmore] at h
    cases h
  · rintro ⟨hspace, hline⟩
    unfold splitPiece?
    split
    · next heq => exact absurd (heq ▸ by simp) hline
    · next heq => exact absurd (heq ▸ by simp) hopen
    · next heq =>
      obtain ⟨rfl, -⟩ := List.cons.inj heq
      simp [hspace]
    · rfl

theorem splitPiece?_append {before more behind : List Char} (hne : before ≠ [])
    (h : splitPiece? (before ++ more) = none) (hopen : ¬ ['/', '*'] <+: before ++ more)
    (hbehind : IsBehindLine behind) :
    splitPiece? (before ++ behind) = none ∧ ¬ ['/', '*'] <+: before ++ behind := by
  have hshort : ∀ xs : List Char, '\n' ∉ xs → xs <+: before ++ behind → xs <+: before ++ more :=
    fun xs hxs hbegins => (hbehind.begins hbegins hxs).trans (List.prefix_append _ _)
  have hopen' : ¬ ['/', '*'] <+: before ++ behind := fun hbegins => hopen (hshort _ (by decide) hbegins)
  refine ⟨?_, hopen'⟩
  obtain ⟨c, cs, rfl⟩ := List.exists_cons_of_ne_nil hne
  rw [List.cons_append] at h hopen hopen' ⊢
  obtain ⟨hspace, hline⟩ := (splitPiece?_eq_none_iff hopen).1 h
  exact (splitPiece?_eq_none_iff hopen').2 ⟨hspace, fun hbegins => hline (hshort _ (by decide) hbegins)⟩

namespace Lexeme

attribute [ext] Lexeme

theorem prefix_read (names : NameMode) (minus : MinusMode) (cs : List Char) :
    (read names minus cs).text <+: cs :=
  ⟨_, append_read names minus cs⟩

theorem lineBreak_not_mem_read {cs : List Char} (hne : cs ≠ []) (h : splitPiece? cs = none)
    (hopen : ¬ ['/', '*'] <+: cs) (names : NameMode) (minus : MinusMode) :
    '\n' ∉ (read names minus cs).text := by
  refine (isLexeme_read hne h names minus).lineBreak_not_mem ?_ fun hbegins =>
    hopen (hbegins.trans (prefix_read names minus cs))
  intro hhead
  obtain ⟨c, cs, rfl⟩ := List.exists_cons_of_ne_nil hne
  obtain ⟨d, text, htext⟩ := List.exists_cons_of_ne_nil (text_read_ne_nil names minus c cs)
  have happend := append_read names minus (c :: cs)
  rw [htext] at hhead happend
  obtain rfl : d = '\n' := Option.some.inj hhead
  obtain rfl : '\n' = c := (List.cons.inj happend).1
  cases h

/-- The lexeme of a text stays the same when the text is cut off anywhere behind it, or the cut off end is
replaced by further lines. -/
theorem read_append {before more behind rest : List Char} {names : NameMode} {minus : MinusMode}
    (hne : before ≠ []) (h : splitPiece? (before ++ more) = none) (hopen : ¬ ['/', '*'] <+: before ++ more)
    (hbegins : (read names minus (before ++ more)).text <+: before) (hbehind : IsBehindLine behind)
    (hrest : (read names minus (before ++ more)).text ++ rest = before ++ behind) :
    read names minus (before ++ behind) = { read names minus (before ++ more) with rest } := by
  have hne' (cs : List Char) : before ++ cs ≠ [] := fun hnil => hne (List.append_eq_nil_iff.1 hnil).1
  obtain ⟨h', hopen'⟩ := splitPiece?_append hne h hopen hbehind
  have hbegins' : (read names minus (before ++ behind)).text <+: before ++ more := by
    have hline := lineBreak_not_mem_read (hne' behind) h' hopen' names minus
    exact (hbehind.begins (prefix_read _ _ _) hline).trans (List.prefix_append _ _)
  -- each text begins with the lexeme of the other, so neither lexeme is the longer one
  obtain ⟨htext, hkind⟩ := (isLongestLexeme_read (hne' more) h names minus).unique
    (isLongestLexeme_read (hne' behind) h' names minus) (hbegins.trans (List.prefix_append _ _)) hbegins'
  have hleft : (read names minus (before ++ behind)).rest = rest := by
    have happend := append_read names minus (before ++ behind)
    rw [htext] at happend
    exact List.append_cancel_left (happend.trans hrest.symm)
  exact Lexeme.ext hkind htext hleft

theorem read_append_lineBreak {cs : List Char} (hne : cs ≠ []) (h : splitPiece? cs = none)
    (hopen : ¬ ['/', '*'] <+: cs) (names : NameMode) (minus : MinusMode) (more : List Char) :
    read names minus (cs ++ '\n' :: more) =
      { read names minus cs with rest := (read names minus cs).rest ++ '\n' :: more } := by
  have hnil := List.append_nil cs
  have happend := append_read names minus cs
  rw [← hnil] at h hopen
  have hread := read_append hne h hopen (by rw [hnil]; exact prefix_read names minus cs)
    (isBehindLine_lineBreak more) (by rw [hnil, ← List.append_assoc, happend])
  rwa [hnil] at hread

end Lexeme

/-! ### Trivia up to a line break -/

theorem splitTrivia_append_lineBreak {cs : List Char} (hne : (splitTrivia cs).2 ≠ [])
    (hopen : ¬ ['/', '*'] <+: (splitTrivia cs).2) (more : List Char) :
    splitTrivia (cs ++ '\n' :: more) = ((splitTrivia cs).1, (splitTrivia cs).2 ++ '\n' :: more) := by
  have hgap := (isTrivia_splitTrivia cs).append_lineBreak more
  have hnone : splitPiece? ((splitTrivia cs).2 ++ '\n' :: more) = none := by
    have h := splitPiece?_splitTrivia cs
    rw [← List.append_nil (splitTrivia cs).2] at h hopen
    exact (splitPiece?_append hne h hopen (isBehindLine_lineBreak more)).1
  have hsplit := splitTrivia_append hgap
  rwa [← List.append_assoc, append_splitTrivia, splitTrivia_of_splitPiece?_eq_none hnone,
    List.append_nil] at hsplit

/-- A line that holds no token is trivia, and so is the line break behind it. -/
theorem splitTrivia_lineBreak {cs : List Char} (h : (splitTrivia cs).2 = []) (more : List Char) :
    splitTrivia (cs ++ '\n' :: more) = (cs ++ '\n' :: (splitTrivia more).1, (splitTrivia more).2) := by
  have hgap := isTrivia_splitTrivia cs
  have happend := append_splitTrivia cs
  rw [h, List.append_nil] at happend
  rw [h, happend] at hgap
  have hsplit := splitTrivia_append (hgap.append_lineBreak more)
  have hbreak : splitPiece? ('\n' :: more) = some (['\n'], more) := rfl
  rwa [List.nil_append, splitTrivia_of_splitPiece? hbreak] at hsplit

/-! ### Tokens up to a line break -/

/-- The token is a block comment that is not closed. -/
def Token.OpensComment (token : Token) : Prop :=
  token.kind = .illegal ∧ ['/', '*'] <+: token.literal.toList

instance (token : Token) : Decidable token.OpensComment :=
  inferInstanceAs (Decidable (_ ∧ _))

/-- The token further back in a longer text. -/
def Token.shift (bytes : Nat) (token : Token) : Token :=
  { token with span := ⟨token.span.start + bytes, token.span.stop + bytes⟩ }

namespace Lexer

/-- The start of a text that is read with the given meaning of names and of a single minus. -/
def start (text : String) (names : NameMode) (minus : MinusMode) : Lexer :=
  { ofText text with names, minus }

/-- The same place in a text that goes on with a further line. -/
def followedBy (more : List Char) (lexer : Lexer) : Lexer :=
  { lexer with rest := lexer.rest ++ '\n' :: more }

/-- The start of a line behind the end of the text. -/
def onLine (more : List Char) (lexer : Lexer) : Lexer :=
  { lexer with rest := more, offset := lexer.offset + 1 }

/-- The place so many bytes further back. -/
def shift (bytes : Nat) (lexer : Lexer) : Lexer :=
  { lexer with offset := lexer.offset + bytes }

variable {lexer : Lexer}

theorem kind_scan (lexer : Lexer) :
    lexer.scan.1.kind = (Lexeme.read lexer.names lexer.minus (splitTrivia lexer.rest).2).kind :=
  rfl

theorem opensComment_scan_iff : lexer.scan.1.OpensComment ↔ ['/', '*'] <+: (splitTrivia lexer.rest).2 := by
  rw [Token.OpensComment, literal_scan, kind_scan]
  constructor
  · rintro ⟨-, hbegins⟩
    exact hbegins.trans (Lexeme.prefix_read _ _ _)
  · rintro ⟨cs, hcs⟩
    rw [← hcs, List.cons_append, List.cons_append, List.nil_append, Lexeme.read_comment]
    exact ⟨rfl, by simp⟩

theorem splitTrivia_ne_nil (hmore : lexer.scan.1.isEof = false) : (splitTrivia lexer.rest).2 ≠ [] :=
  fun hnil => Bool.eq_false_iff.1 hmore (isEof_scan_iff.2 hnil)

theorem scan_followedBy (hmore : lexer.scan.1.isEof = false) (hopen : ¬ lexer.scan.1.OpensComment)
    (more : List Char) : (lexer.followedBy more).scan = (lexer.scan.1, lexer.scan.2.followedBy more) := by
  have hne := splitTrivia_ne_nil hmore
  rw [opensComment_scan_iff] at hopen
  have hread := Lexeme.read_append_lineBreak hne (splitPiece?_splitTrivia lexer.rest) hopen lexer.names
    lexer.minus more
  simp only [scan, followedBy, splitTrivia_append_lineBreak hne hopen, hread]

theorem scan_followedBy_of_isEof (hlast : lexer.scan.1.isEof) (more : List Char) :
    (lexer.followedBy more).scan = (lexer.scan.2.onLine more).scan := by
  have hnil := isEof_scan_iff.1 hlast
  have hbreak : '\n'.utf8Size = 1 := rfl
  rw [scan_of_nil hnil]
  simp only [scan, followedBy, onLine, splitTrivia_lineBreak hnil, Text.byteLength_append,
    Text.byteLength_cons, hbreak, Nat.add_assoc]

theorem scan_shift (bytes : Nat) (lexer : Lexer) :
    (lexer.shift bytes).scan = (lexer.scan.1.shift bytes, lexer.scan.2.shift bytes) := by
  simp only [scan, shift, Token.shift, Nat.add_right_comm]

/-! ### All tokens of a text -/

theorem drain_eq (h : lexer.pending = none) :
    lexer.drain = if lexer.scan.1.isEof then ([], lexer.scan)
      else (lexer.scan.1 :: lexer.scan.2.drain.1, lexer.scan.2.drain.2) := by
  rw [drain]
  split
  next token after hnext =>
    rw [next_eq_scan h] at hnext
    rw [hnext]
    split
    · rfl
    · rfl

theorem collect_of_isEof (h : lexer.pending = none) (hlast : lexer.scan.1.isEof) :
    lexer.collect = ([], lexer.scan.2) := by
  rw [collect, drain_eq h, if_pos hlast]

theorem collect_of_not_isEof (h : lexer.pending = none) (hmore : lexer.scan.1.isEof = false) :
    lexer.collect = (lexer.scan.1 :: lexer.scan.2.collect.1, lexer.scan.2.collect.2) := by
  rw [collect, drain_eq h, if_neg (Bool.eq_false_iff.1 hmore)]
  rfl

theorem tokens_of_scan_eq {lexer lexer' : Lexer} (h : lexer.pending = none) (h' : lexer'.pending = none)
    (hscan : lexer.scan = lexer'.scan) : lexer.tokens = lexer'.tokens := by
  rw [tokens_eq h, tokens_eq h', hscan]

/-- The place behind all tokens is the end of the text. -/
theorem collect_end (h : lexer.pending = none) :
    lexer.collect.2 =
      ⟨[], lexer.offset + Text.byteLength lexer.rest, lexer.collect.2.names, lexer.minus, none⟩ := by
  induction lexer using scan_induction with
  | last lexer hlast =>
    rw [collect_of_isEof h hlast, scan_of_nil (isEof_scan_iff.1 hlast), h]
  | step lexer hmore ih =>
    have happend := congrArg Text.byteLength (append_scan lexer)
    rw [Text.byteLength_append] at happend
    rw [collect_of_not_isEof h hmore, ih h, offset_scan, Nat.add_assoc, happend]
    rfl

theorem tokens_shift (bytes : Nat) (h : lexer.pending = none) :
    (lexer.shift bytes).tokens = lexer.tokens.map (Token.shift bytes) := by
  induction lexer using scan_induction with
  | last lexer hlast =>
    have h' : (lexer.shift bytes).pending = none := h
    have hscan := scan_shift bytes lexer
    have hlast' : (lexer.shift bytes).scan.1.isEof := by rwa [hscan]
    rw [tokens_of_isEof h hlast, tokens_of_isEof h' hlast', hscan]
    rfl
  | step lexer hmore ih =>
    have h' : (lexer.shift bytes).pending = none := h
    have hscan := scan_shift bytes lexer
    have hmore' : (lexer.shift bytes).scan.1.isEof = false := by rwa [hscan]
    rw [tokens_of_not_isEof h hmore, tokens_of_not_isEof h' hmore', hscan, ih h]
    rfl

theorem tokens_followedBy (h : lexer.pending = none) (hopen : ∀ token ∈ lexer.collect.1, ¬ token.OpensComment)
    (more : List Char) :
    (lexer.followedBy more).tokens = lexer.collect.1 ++ (lexer.collect.2.onLine more).tokens := by
  induction lexer using scan_induction with
  | last lexer hlast =>
    have hend : lexer.scan.2.pending = none := h
    rw [collect_of_isEof h hlast]
    exact tokens_of_scan_eq h hend (scan_followedBy_of_isEof hlast more)
  | step lexer hmore ih =>
    rw [collect_of_not_isEof h hmore, List.forall_mem_cons] at hopen
    have hscan := scan_followedBy hmore hopen.1 more
    have h' : (lexer.followedBy more).pending = none := h
    have hmore' : (lexer.followedBy more).scan.1.isEof = false := by rwa [hscan]
    rw [tokens_of_not_isEof h' hmore', hscan, ih h hopen.2, collect_of_not_isEof h hmore, List.cons_append]

/-- A line break ends every token but an open comment: the tokens of two lines are those of the first and
behind them those of the second, read with the meaning of names that the first one leads to. -/
theorem tokens_lineBreak (first second : String) (names : NameMode) (minus : MinusMode)
    (hopen : ∀ token ∈ (start first names minus).collect.1, ¬ token.OpensComment) :
    (start (first ++ "\n" ++ second) names minus).tokens =
      (start first names minus).collect.1 ++
        (start second (start first names minus).collect.2.names minus).tokens.map
          (Token.shift (first.utf8ByteSize + 1)) := by
  have hfollowed : start (first ++ "\n" ++ second) names minus =
      (start first names minus).followedBy second.toList := by
    simp [start, ofText, followedBy]
  have hline : (start first names minus).collect.2.onLine second.toList =
      (start second (start first names minus).collect.2.names minus).shift (first.utf8ByteSize + 1) := by
    rw [collect_end rfl, ← Text.byteLength_toList]
    simp [start, ofText, onLine, shift]
  rw [hfollowed, tokens_followedBy rfl hopen, hline, tokens_shift _ rfl]

/-- An open label and an open string both end with their line, and the label goes on in the next one. -/
theorem tokens_lineBreak_openString :
    (∀ token ∈ (start ":A.\"b" .plain .refused).collect.1, ¬ token.OpensComment) ∧
      (start (":A.\"b" ++ "\n" ++ "C.d") .plain .refused).tokens =
        [⟨.colon, ":", ⟨0, 1⟩⟩, ⟨.illegal, "A.", ⟨1, 3⟩⟩, ⟨.illegal, "\"b", ⟨3, 5⟩⟩, ⟨.ident, "C.d", ⟨6, 9⟩⟩,
          ⟨.eof, "", ⟨9, 9⟩⟩] := by
  have hopen : ∀ token ∈ (start ":A.\"b" .plain .refused).collect.1, ¬ token.OpensComment := by
    decide +kernel
  have hlines := tokens_lineBreak ":A.\"b" "C.d" .plain .refused hopen
  exact ⟨hopen, hlines.trans (by decide +kernel)⟩

end Lexer

end ResourceGraph.Query
