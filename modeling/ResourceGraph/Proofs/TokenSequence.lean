import Mathlib.Logic.Function.Iterate
import Mathlib.Tactic.SplitIfs
import ResourceGraph.Query.Lexer

/-!
# The sequence of tokens

Scanning again and again leads from a place in a query through the places behind its tokens (`skip`), and the
token scanned behind so many tokens is the one with that number in the token list, or the last one
(`scan_skip`). So the token list says all about the scans of a query while no direction is read.

A scan depends on the reading of directions only where the token is a single `-`, and then only in the kind
of the token (`scan_with`): the bytes it takes up and the place behind it are the same.
-/

namespace ResourceGraph.Query

namespace Lexeme

/-! ### What begins with an ASCII character -/

theorem isNameStart_of_lt {c : Char} (h : c.toNat < 0xAA) : isNameStart c = (c.isAlpha || c = '_') := by
  rw [isNameStart, Text.isAlphabetic_of_lt h]

theorem read_comment (cs : List Char) (names : NameMode) (minus : MinusMode) :
    read names minus ('/' :: '*' :: cs) = ⟨.illegal, '/' :: '*' :: cs, []⟩ := by
  rw [read, isNameStart_of_lt (by decide)]
  rfl

/-! ### Only the end of the text is `eof` -/

theorem ofWord_ne_eof (word : List Char) : TokenKind.ofWord word ≠ .eof := by
  unfold TokenKind.ofWord
  dsimp only
  split
  · exact TokenKind.noConfusion
  · split_ifs <;> exact TokenKind.noConfusion

theorem kind_readLabel_ne_eof (cs : List Char) : (readLabel cs).kind ≠ .eof := by
  fun_induction readLabel cs with
  | case1 cs word rest h hstart hlen more ih => exact ih
  | case2 => exact TokenKind.noConfusion
  | case3 => exact TokenKind.noConfusion

theorem kind_readName_ne_eof (names : NameMode) (cs : List Char) : (readName names cs).kind ≠ .eof := by
  cases names
  · exact ofWord_ne_eof _
  · exact kind_readLabel_ne_eof cs

theorem kind_readNumber_ne_eof (cs : List Char) : (readNumber cs).kind ≠ .eof := by
  simp only [readNumber]
  split_ifs <;> exact TokenKind.noConfusion

theorem kind_readQuoted_ne_eof (cs : List Char) : (readQuoted cs).kind ≠ .eof := by
  fun_induction readQuoted cs with
  | case6 c cs _ ih => exact ih
  | case7 c cs _ _ _ _ _ ih => exact ih
  | _ => exact TokenKind.noConfusion

theorem kind_readOperator_ne_eof (minus : MinusMode) (cs : List Char) :
    (readOperator minus cs).kind ≠ .eof := by
  have htable : ∀ entry ∈ operators minus, entry.2 ≠ .eof := by cases minus <;> decide
  unfold readOperator
  split
  · next h => exact htable _ (List.mem_of_find?_eq_some h)
  · exact TokenKind.noConfusion

theorem kind_read_eq_eof_iff {names : NameMode} {minus : MinusMode} {cs : List Char} :
    (read names minus cs).kind = .eof ↔ cs = [] := by
  cases cs with
  | nil => exact iff_of_true rfl rfl
  | cons c cs =>
    refine iff_of_false ?_ (List.cons_ne_nil c cs)
    rw [read]
    split_ifs
    · exact kind_readName_ne_eof names _
    · exact kind_readNumber_ne_eof _
    · exact kind_readQuoted_ne_eof cs
    · exact not_false
    · exact kind_readOperator_ne_eof minus _

/-! ### The kind of a single minus -/

/-- The operators that mean the same whether a direction is read or not. -/
def fixedOperators : List (List Char × TokenKind) :=
  (operators .refused).dropLast

theorem operators_eq (minus : MinusMode) : operators minus = fixedOperators ++ [(['-'], minus.kind)] := by
  cases minus <;> rfl

theorem readOperator_of_ne_minus {c : Char} (hc : c ≠ '-') (minus : MinusMode) (cs : List Char) :
    readOperator minus (c :: cs) = readOperator .refused (c :: cs) := by
  have hlast (k : TokenKind) : [(['-'], k)].find? (·.1.isPrefixOf (c :: cs)) = none := by
    simp [List.isPrefixOf, Ne.symm hc]
  simp only [readOperator, operators_eq, List.find?_append, hlast]

theorem read_of_ne_minus {c : Char} (hc : c ≠ '-') (names : NameMode) (minus : MinusMode) (cs : List Char) :
    read names minus (c :: cs) = read names .refused (c :: cs) := by
  rw [read, read, readOperator_of_ne_minus hc]

theorem read_minus (names : NameMode) (minus : MinusMode) (cs : List Char) :
    read names minus ('-' :: cs) = readOperator minus ('-' :: cs) := by
  rw [read, isNameStart_of_lt (by decide)]
  rfl

theorem text_read_ne_minus {c : Char} (hc : c ≠ '-') (names : NameMode) (minus : MinusMode) (cs : List Char) :
    (read names minus (c :: cs)).text ≠ ['-'] := by
  intro h
  have happend := append_read names minus (c :: cs)
  rw [h, List.singleton_append, List.cons.injEq] at happend
  exact hc happend.1.symm

/-- Whether a direction is read decides the kind of a single minus and nothing else. -/
theorem read_eq (names : NameMode) (minus : MinusMode) (cs : List Char) :
    read names minus cs =
      if (read names .refused cs).text = ['-'] then { read names .refused cs with kind := minus.kind }
      else read names .refused cs := by
  cases cs with
  | nil => rfl
  | cons c cs =>
    by_cases hc : c = '-'
    · subst hc
      rw [read_minus, read_minus, readOperator, readOperator, operators_eq, operators_eq, List.find?_append,
        List.find?_append]
      cases h : fixedOperators.find? (·.1.isPrefixOf ('-' :: cs)) with
      | none => rfl
      | some entry =>
        have hfixed : ∀ entry ∈ fixedOperators, entry.1 ≠ ['-'] := by decide
        exact (if_neg (hfixed entry (List.mem_of_find?_eq_some h))).symm
    · rw [if_neg (text_read_ne_minus hc names .refused cs), read_of_ne_minus hc]

end Lexeme

/-- What names mean behind a sequence of tokens. -/
def NameMode.afterAll (names : NameMode) (tokens : List Token) : NameMode :=
  tokens.foldl (fun names token => names.after token.kind) names

namespace Lexer

/-! ### Scans -/

variable {lexer : Lexer}

@[simp] theorem minus_scan (lexer : Lexer) : lexer.scan.2.minus = lexer.minus := rfl

theorem next_eq_scan (h : lexer.pending = none) : lexer.next = lexer.scan := by
  rw [next, h]

theorem isEof_scan_iff : lexer.scan.1.isEof ↔ (splitTrivia lexer.rest).2 = [] := by
  rw [Token.isEof, decide_eq_true_iff]
  exact Lexeme.kind_read_eq_eof_iff

theorem scan_of_nil (h : (splitTrivia lexer.rest).2 = []) :
    lexer.scan =
      (⟨.eof, "", ⟨lexer.offset + Text.byteLength lexer.rest, lexer.offset + Text.byteLength lexer.rest⟩⟩,
        { lexer with rest := [], offset := lexer.offset + Text.byteLength lexer.rest }) := by
  have happend := append_splitTrivia lexer.rest
  rw [h, List.append_nil] at happend
  have hsplit : splitTrivia lexer.rest = (lexer.rest, []) := Prod.ext happend h
  rw [scan, hsplit]
  rfl

/-- Behind the end of the query nothing changes any more. -/
theorem scan_scan_of_isEof (h : lexer.scan.1.isEof) : lexer.scan.2.scan = lexer.scan := by
  have hend := scan_of_nil (isEof_scan_iff.1 h)
  have hnil : splitTrivia [] = ([], []) := by
    rw [splitTrivia]
    rfl
  rw [hend, scan_of_nil (by rw [hnil])]
  rfl

/-! ### The token list of a place -/

/-- The tokens from a place on, `eof` included. -/
def tokens (lexer : Lexer) : List Token :=
  lexer.drain.1 ++ [lexer.drain.2.1]

theorem tokens_eq (h : lexer.pending = none) :
    lexer.tokens = lexer.scan.1 :: if lexer.scan.1.isEof then [] else lexer.scan.2.tokens := by
  rw [tokens, drain]
  split
  next token after hnext =>
    rw [next_eq_scan h] at hnext
    rw [hnext]
    split
    · rfl
    · rfl

theorem tokens_of_isEof (h : lexer.pending = none) (hlast : lexer.scan.1.isEof) :
    lexer.tokens = [lexer.scan.1] := by
  rw [tokens_eq h, if_pos hlast]

theorem tokens_of_not_isEof (h : lexer.pending = none) (hmore : lexer.scan.1.isEof = false) :
    lexer.tokens = lexer.scan.1 :: lexer.scan.2.tokens := by
  rw [tokens_eq h, if_neg (Bool.eq_false_iff.1 hmore)]

/-- Scanning from any place comes to `eof`. -/
theorem scan_induction {motive : Lexer → Prop} (last : ∀ lexer, lexer.scan.1.isEof → motive lexer)
    (step : ∀ lexer, lexer.scan.1.isEof = false → motive lexer.scan.2 → motive lexer) (lexer : Lexer) :
    motive lexer :=
  if h : lexer.scan.1.isEof then last lexer h
  else
    have := remaining_scan_lt (Bool.eq_false_iff.2 h)
    step lexer (Bool.eq_false_iff.2 h) (scan_induction last step lexer.scan.2)
termination_by lexer.remaining

theorem tokens_ne_nil (lexer : Lexer) : lexer.tokens ≠ [] :=
  List.concat_ne_nil _ _

/-- The place behind the next `count` tokens. -/
def skip (count : Nat) (lexer : Lexer) : Lexer :=
  (fun lexer => lexer.scan.2)^[count] lexer

@[simp] theorem skip_zero (lexer : Lexer) : lexer.skip 0 = lexer := rfl

theorem skip_succ (count : Nat) (lexer : Lexer) : lexer.skip (count + 1) = lexer.scan.2.skip count := rfl

theorem skip_succ' (count : Nat) (lexer : Lexer) : lexer.skip (count + 1) = (lexer.skip count).scan.2 :=
  Function.iterate_succ_apply' _ count lexer

theorem skip_succ_of_isEof (h : lexer.scan.1.isEof) (count : Nat) :
    lexer.skip (count + 1) = lexer.scan.2 := by
  induction count with
  | zero => rfl
  | succ count ih => rw [skip_succ', ih, scan_scan_of_isEof h]

/-- The token scanned behind `count` tokens is the one with that number in the list, or the last one. -/
theorem scan_skip (count : Nat) (h : lexer.pending = none) :
    (lexer.skip count).scan.1 = lexer.tokens[count]?.getD (lexer.tokens.getLast lexer.tokens_ne_nil) := by
  induction lexer using scan_induction generalizing count with
  | last lexer hlast =>
    have htokens := tokens_of_isEof h hlast
    cases count with
    | zero => simp [htokens]
    | succ count =>
      rw [skip_succ_of_isEof hlast, scan_scan_of_isEof hlast]
      simp [htokens]
  | step lexer hmore ih =>
    have htokens := tokens_of_not_isEof h hmore
    cases count with
    | zero => simp [htokens]
    | succ count =>
      rw [skip_succ, ih count h]
      simp only [htokens, List.getElem?_cons_succ, List.getLast_cons lexer.scan.2.tokens_ne_nil]

/-- Behind the last token the place stays the same. -/
theorem skip_min_length (count : Nat) (h : lexer.pending = none) :
    lexer.skip (min count lexer.tokens.length) = lexer.skip count := by
  induction lexer using scan_induction generalizing count with
  | last lexer hlast =>
    have htokens := tokens_of_isEof h hlast
    cases count with
    | zero => rw [Nat.zero_min]
    | succ count =>
      rw [htokens, List.length_singleton, Nat.min_eq_right (Nat.le_add_left 1 count)]
      exact (skip_succ_of_isEof hlast count).symm
  | step lexer hmore ih =>
    have htokens := tokens_of_not_isEof h hmore
    cases count with
    | zero => rw [Nat.zero_min]
    | succ count =>
      rw [htokens, List.length_cons, Nat.add_min_add_right, skip_succ, skip_succ, ih count h]

/-! ### Places in the text -/

theorem literal_scan (lexer : Lexer) :
    lexer.scan.1.literal.toList = (Lexeme.read lexer.names lexer.minus (splitTrivia lexer.rest).2).text :=
  String.toList_ofList

theorem rest_scan (lexer : Lexer) :
    lexer.scan.2.rest = (Lexeme.read lexer.names lexer.minus (splitTrivia lexer.rest).2).rest :=
  rfl

theorem append_scan (lexer : Lexer) :
    (splitTrivia lexer.rest).1 ++ lexer.scan.1.literal.toList ++ lexer.scan.2.rest = lexer.rest := by
  have hread := Lexeme.append_read lexer.names lexer.minus (splitTrivia lexer.rest).2
  rw [rest_scan, literal_scan, List.append_assoc, hread, append_splitTrivia]

theorem offset_scan (lexer : Lexer) :
    lexer.scan.2.offset =
      lexer.offset + Text.byteLength ((splitTrivia lexer.rest).1 ++ lexer.scan.1.literal.toList) := by
  simp only [scan, String.toList_ofList, Text.byteLength_append, Nat.add_assoc]

/-- The offset of a place counts the bytes between the start and the text that is left. -/
theorem exists_before_skip (count : Nat) (lexer : Lexer) :
    ∃ before, lexer.rest = before ++ (lexer.skip count).rest ∧
      (lexer.skip count).offset = lexer.offset + Text.byteLength before := by
  induction count with
  | zero => exact ⟨[], rfl, rfl⟩
  | succ count ih =>
    obtain ⟨before, hrest, hoffset⟩ := ih
    refine ⟨before ++ ((splitTrivia (lexer.skip count).rest).1 ++
      (lexer.skip count).scan.1.literal.toList), ?_, ?_⟩
    · rw [skip_succ', List.append_assoc, append_scan, hrest]
    · rw [skip_succ', offset_scan, hoffset, Text.byteLength_append before, Nat.add_assoc]

theorem offset_skip (count : Nat) (h : lexer.pending = none) :
    (lexer.skip count).offset =
      ((lexer.tokens.take count).getLast?.map (·.span.stop)).getD lexer.offset := by
  induction lexer using scan_induction generalizing count with
  | last lexer hlast =>
    cases count with
    | zero => rfl
    | succ count =>
      rw [skip_succ_of_isEof hlast, tokens_of_isEof h hlast, List.take_succ_cons, List.take_nil]
      rfl
  | step lexer hmore ih =>
    cases count with
    | zero => rfl
    | succ count =>
      rw [skip_succ, ih count h, tokens_of_not_isEof h hmore, List.take_succ_cons, List.getLast?_cons]
      cases (lexer.scan.2.tokens.take count).getLast? <;> rfl

/-- The meaning of names at a place is what the tokens before it have made of it. -/
theorem names_skip (count : Nat) (h : lexer.pending = none) :
    (lexer.skip count).names = lexer.names.afterAll (lexer.tokens.take count) := by
  induction lexer using scan_induction generalizing count with
  | last lexer hlast =>
    cases count with
    | zero => rfl
    | succ count =>
      rw [skip_succ_of_isEof hlast, tokens_of_isEof h hlast, List.take_succ_cons, List.take_nil]
      rfl
  | step lexer hmore ih =>
    cases count with
    | zero => rfl
    | succ count =>
      rw [skip_succ, ih count h, tokens_of_not_isEof h hmore, List.take_succ_cons]
      rfl

/-! ### Directions -/

theorem minus_skip (count : Nat) (lexer : Lexer) : (lexer.skip count).minus = lexer.minus := by
  induction count with
  | zero => rfl
  | succ count ih => rw [skip_succ', minus_scan, ih]

end Lexer

/-- The token as it is handed out in the given mode, if it was read while no direction was. -/
def Token.takenAs (minus : MinusMode) (token : Token) : Token :=
  if token.literal = "-" then { token with kind := minus.kind } else token

/-- Whether a direction is read changes the token as `Token.takenAs` says, and not the place behind it. A token
that was pushed back changes neither. -/
theorem Lexer.scan_with {lexer : Lexer} (h : lexer.minus = .refused) (minus : MinusMode)
    (pending : Option Token) :
    ({ lexer with minus, pending } : Lexer).scan =
      (lexer.scan.1.takenAs minus, { lexer.scan.2 with minus, pending }) := by
  obtain ⟨rest, offset, names, mode, slot⟩ := lexer
  obtain rfl : mode = .refused := h
  have hread := Lexeme.read_eq names minus (splitTrivia rest).2
  have hrefused := Lexeme.read_eq names .refused (splitTrivia rest).2
  have hliteral (cs : List Char) : String.ofList cs = "-" ↔ cs = ['-'] := String.ofList_inj
  simp only [Lexer.scan, Token.takenAs, hliteral]
  by_cases hminus : (Lexeme.read names .refused (splitTrivia rest).2).text = ['-']
  · rw [if_pos hminus] at hread hrefused
    rw [if_pos hminus, hread, hrefused]
    cases minus <;> rfl
  · rw [if_neg hminus] at hread
    rw [if_neg hminus, hread]

end ResourceGraph.Query
