import ResourceGraph.Proofs.LexemeReaders
import ResourceGraph.Proofs.TriviaGrammar

/-!
# Longest match

The token at a place is the longest lexeme that the text behind the trivia begins with, and its kind is the one
that the lexeme has (`Lexer.scan_longest_match`). Two facts about reading give this: where no trivia stands,
what is read is a lexeme (`isLexeme_read`), and whatever lexeme the text begins with, the text read goes at
least as far (`covers_read`).
-/

namespace ResourceGraph.Query

namespace Lexeme

theorem isNameStart_of_isDigit {c : Char} (h : c.isDigit) : isNameStart c = false := by
  have hbounds : 48 ≤ c.toNat ∧ c.toNat ≤ 57 := by
    simpa [Char.isDigit, UInt32.le_iff_toNat_le] using h
  have hupper : c.isUpper = false := decide_eq_false fun hc => by
    have hle : 65 ≤ c.toNat := UInt32.le_iff_toNat_le.1 hc.1
    omega
  have hlower : c.isLower = false := Bool.eq_false_iff.2 fun hc => by
    have hle : 97 ≤ c.toNat := UInt32.le_iff_toNat_le.1 (of_decide_eq_true (Bool.and_eq_true_iff.1 hc).1)
    omega
  have halpha : c.isAlpha = false := Bool.or_eq_false_iff.2 ⟨hupper, hlower⟩
  have hunderscore : c ≠ '_' := by
    rintro rfl
    cases h
  have hlt : c.toNat < 0xAA := by omega
  rw [isNameStart_of_lt hlt, halpha, Bool.false_or]
  exact decide_eq_false hunderscore

theorem read_of_isNameStart {cs : List Char} (h : cs.head?.any isNameStart) (names : NameMode)
    (minus : MinusMode) : read names minus cs = readName names cs := by
  cases cs with
  | nil => cases h
  | cons c cs => exact if_pos h

theorem read_of_isDigit {c : Char} (h : c.isDigit) (cs : List Char) (names : NameMode) (minus : MinusMode) :
    read names minus (c :: cs) = readNumber (c :: cs) := by
  rw [read, isNameStart_of_isDigit h, if_neg Bool.false_ne_true, if_pos h]

theorem read_quote (cs : List Char) (names : NameMode) (minus : MinusMode) :
    read names minus ('"' :: cs) = (readQuoted cs).cons '"' := by
  rw [read, isNameStart_of_lt (by decide)]
  rfl

/-- Where no trivia stands, what is read is a lexeme. -/
theorem isLexeme_read {cs : List Char} (hne : cs ≠ []) (h : splitPiece? cs = none) (names : NameMode)
    (minus : MinusMode) : IsLexeme names minus (read names minus cs).text (read names minus cs).kind := by
  obtain ⟨c, cs, rfl⟩ := List.exists_cons_of_ne_nil hne
  rw [read]
  split_ifs with hstart hdigit hquote hcomment
  · have hname : (c :: cs).head?.any isNameStart := hstart
    exact isLexeme_readName hname names minus
  · exact isLexeme_readNumber hdigit cs names minus
  · exact isLexeme_readQuoted cs names minus
  · obtain ⟨rfl, hstar⟩ := hcomment
    obtain ⟨body, rfl⟩ : ∃ body, cs = '*' :: body := by
      cases cs with
      | nil => cases hstar
      | cons d cs => exact ⟨cs, by rw [Option.some.inj hstar]⟩
    exact .openComment (splitComment?_eq_none_iff.1 (Option.map_eq_none_iff.1 h))
  · exact isLexeme_readOperator hstart hdigit hquote cs names minus

theorem operator_start {cs : List Char} {kind : TokenKind} {minus : MinusMode}
    (h : (cs, kind) ∈ operators minus) :
    ∃ c more, cs = c :: more ∧ ¬ isNameStart c ∧ ¬ c.isDigit ∧ c ≠ '"' ∧ c ≠ '/' := by
  have htable : ∀ entry ∈ operators minus, entry.1.head?.any fun c =>
      c.toNat < 0xAA ∧ ¬ c.isAlpha ∧ c ≠ '_' ∧ ¬ c.isDigit ∧ c ≠ '"' ∧ c ≠ '/' := by
    cases minus <;> decide
  have hcs := htable _ h
  cases cs with
  | nil => cases hcs
  | cons c more =>
    obtain ⟨hlt, halpha, hunderscore, hrest⟩ := of_decide_eq_true hcs
    refine ⟨c, more, rfl, ?_, hrest⟩
    simp [isNameStart_of_lt hlt, halpha, hunderscore]

theorem read_operator {c : Char} (hstart : ¬ isNameStart c) (hdigit : ¬ c.isDigit) (hquote : c ≠ '"')
    (hslash : c ≠ '/') (cs : List Char) (names : NameMode) (minus : MinusMode) :
    read names minus (c :: cs) = readOperator minus (c :: cs) := by
  rw [read, if_neg hstart, if_neg hdigit, if_neg hquote, if_neg (fun h => hslash h.1)]

theorem covers_read_operator {names : NameMode} {minus : MinusMode} {cs : List Char} {kind : TokenKind}
    (h : (cs, kind) ∈ operators minus) (rest : List Char) : (read names minus (cs ++ rest)).Covers cs kind := by
  obtain ⟨c, more, rfl, hstart, hdigit, hquote, hslash⟩ := operator_start h
  rw [List.cons_append, read_operator hstart hdigit hquote hslash]
  exact covers_readOperator h rest

/-- A character that no lexeme of another form begins with is read alone or at the start of an open comment. -/
theorem covers_read_char {c : Char} (hstart : ¬ isNameStart c) (hdigit : ¬ c.isDigit) (hquote : c ≠ '"')
    (hminus : c ≠ '-') (hnone : ∀ kind, (String.ofList [c], kind) ∉ punctuation) (names : NameMode)
    (minus : MinusMode) (rest : List Char) : (read names minus (c :: rest)).Covers [c] .illegal where
  isPrefix := by
    have happend := append_read names minus (c :: rest)
    obtain ⟨d, text, htext⟩ := List.exists_cons_of_ne_nil (text_read_ne_nil names minus c rest)
    rw [htext, List.cons_append] at happend
    rw [htext, (List.cons.inj happend).1]
    exact List.prefix_append [c] text
  kind_eq htext := by
    rw [read, if_neg hstart, if_neg hdigit, if_neg hquote] at htext ⊢
    split_ifs at htext ⊢ with hcomment
    · rfl
    unfold readOperator at htext ⊢
    split at htext
    · next text kind hfind =>
      obtain rfl : text = [c] := htext
      rcases mem_operators_iff.1 (List.mem_of_find?_eq_some hfind) with hmem | ⟨heq, -⟩
      · exact absurd hmem (hnone kind)
      · exact absurd (List.cons.inj heq).1 hminus
    · rfl

theorem covers_read {names : NameMode} {minus : MinusMode} {cs : List Char} {kind : TokenKind}
    (h : IsLexeme names minus cs kind) (rest : List Char) :
    (read names minus (cs ++ rest)).Covers cs kind := by
  cases h with
  | reserved hnames hname hreserved =>
    rw [read_of_isNameStart ((IsLabel.name hname).head?_append rest), hnames, ← ofWord_of_isReserved hreserved]
    exact covers_readWord hname rest
  | ident hnames hname hnone =>
    have hident := (isReserved_ofWord cs).resolve_left (hnone _)
    rw [read_of_isNameStart ((IsLabel.name hname).head?_append rest), hnames, ← hident]
    exact covers_readWord hname rest
  | label hnames hlabel =>
    rw [read_of_isNameStart (hlabel.head?_append rest), hnames]
    exact covers_readLabel hlabel rest
  | @openLabel label hnames hlabel =>
    rw [List.append_assoc, read_of_isNameStart (hlabel.head?_append _), hnames]
    exact covers_readLabel_dot hlabel rest
  | number hne hdigits =>
    obtain ⟨d, digits, rfl⟩ := List.exists_cons_of_ne_nil hne
    rw [List.cons_append, read_of_isDigit (hdigits d (List.mem_cons_self ..))]
    exact covers_readNumber hdigits rest
  | @real whole fraction exponent hne hdigits hfraction hexponent hnil =>
    obtain ⟨d, digits, rfl⟩ := List.exists_cons_of_ne_nil hne
    simp only [List.cons_append]
    rw [read_of_isDigit (hdigits d (List.mem_cons_self ..))]
    exact covers_readNumber_real hdigits hfraction hexponent hnil rest
  | @string body hbody =>
    rw [List.append_assoc, List.cons_append, read_quote]
    exact covers_readQuoted hbody rest
  | @openString body lone hbody hlone =>
    rw [List.append_assoc, List.cons_append, read_quote]
    exact covers_readQuoted_open hbody hlone rest
  | operator hmem => exact covers_read_operator (mem_operators_iff.2 (.inl hmem)) rest
  | minus => exact covers_read_operator (mem_operators_iff.2 (.inr ⟨rfl, rfl⟩)) rest
  | openComment hbody =>
    rw [List.cons_append, List.cons_append, read_comment]
    exact ⟨List.prefix_append _ _, fun _ => rfl⟩
  | char hstart hdigit hquote hminus hnone =>
    exact covers_read_char hstart hdigit hquote hminus hnone names minus rest

theorem text_read_eq (names : NameMode) (minus minus' : MinusMode) (cs : List Char) :
    (read names minus cs).text = (read names minus' cs).text := by
  rw [read_eq names minus, read_eq names minus']
  split <;> rfl

end Lexeme

/-- The kind of a lexeme is decided by its text and the two modes. -/
theorem IsLexeme.kind_unique {names : NameMode} {minus : MinusMode} {cs : List Char} {kind kind' : TokenKind}
    (h : IsLexeme names minus cs kind) (h' : IsLexeme names minus cs kind') : kind = kind' := by
  have hcovers := Lexeme.covers_read h []
  have hcovers' := Lexeme.covers_read h' []
  rw [List.append_nil] at hcovers hcovers'
  have hbegins : (Lexeme.read names minus cs).text <+: cs := ⟨_, Lexeme.append_read names minus cs⟩
  have htext := hbegins.eq_of_length_le hcovers.isPrefix.length_le
  exact (hcovers.kind_eq htext).symm.trans (hcovers'.kind_eq htext)

/-- The text begins with the lexeme `cs` and with none that is longer. -/
structure IsLongestLexeme (names : NameMode) (minus : MinusMode) (text cs : List Char) (kind : TokenKind) :
    Prop where
  isLexeme : IsLexeme names minus cs kind
  isPrefix : cs <+: text
  longest : ∀ minus' cs' kind', IsLexeme names minus' cs' kind' → cs' <+: text → cs'.length ≤ cs.length

theorem isLongestLexeme_read {text : List Char} (hne : text ≠ []) (h : splitPiece? text = none)
    (names : NameMode) (minus : MinusMode) :
    IsLongestLexeme names minus text (Lexeme.read names minus text).text
      (Lexeme.read names minus text).kind where
  isLexeme := Lexeme.isLexeme_read hne h names minus
  isPrefix := ⟨_, Lexeme.append_read names minus text⟩
  longest minus' cs' kind' hlexeme hbegins := by
    obtain ⟨rest, rfl⟩ := hbegins
    rw [Lexeme.text_read_eq names minus minus']
    exact (Lexeme.covers_read hlexeme rest).isPrefix.length_le

/-- Behind the trivia a scan takes the longest lexeme there is. -/
theorem Lexer.scan_longest_match (lexer : Lexer) :
    (∃ gap text, lexer.rest = gap ++ text ∧ IsTrivia text gap ∧
      (∀ more behind, IsTrivia behind more → text = more ++ behind → more = []) ∧
      lexer.scan.1.span.start = lexer.offset + Text.byteLength gap ∧
      (text = [] → lexer.scan.1.kind = .eof ∧ lexer.scan.1.literal = "") ∧
      (text ≠ [] →
        IsLongestLexeme lexer.names lexer.minus text lexer.scan.1.literal.toList lexer.scan.1.kind)) ∧
    ∀ names minus cs kind kind',
      IsLexeme names minus cs kind → IsLexeme names minus cs kind' → kind = kind' := by
  refine ⟨⟨(splitTrivia lexer.rest).1, (splitTrivia lexer.rest).2, (append_splitTrivia lexer.rest).symm,
    isTrivia_splitTrivia lexer.rest, fun more behind hmore htext => ?_, rfl, fun hnil => ?_, fun hne => ?_⟩,
    fun _ _ _ _ _ => IsLexeme.kind_unique⟩
  · have hnone := splitPiece?_splitTrivia lexer.rest
    rw [htext] at hnone
    exact eq_nil_of_isTrivia hmore hnone
  · rw [scan_of_nil hnil]
    exact ⟨rfl, rfl⟩
  · rw [literal_scan]
    exact isLongestLexeme_read hne (splitPiece?_splitTrivia lexer.rest) lexer.names lexer.minus

end ResourceGraph.Query
