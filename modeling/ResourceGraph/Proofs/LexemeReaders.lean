import Mathlib.Data.List.Infix
import Mathlib.Data.List.TakeWhile
import ResourceGraph.Proofs.LexemeLanguage
import ResourceGraph.Proofs.TokenSequence

/-!
# Readers of lexemes

Each reader of `Lexeme` against the form of lexeme it reads. It reads nothing else (`isLexeme_readName` and so
on), and where the text begins with a lexeme of its form it reads that or a longer one (`covers_readWord` and
so on, with `Lexeme.Covers`).
-/

namespace ResourceGraph.Query

/-- The lexeme begins with the text `cs`, and has the given kind if it is `cs`. -/
structure Lexeme.Covers (lexeme : Lexeme) (cs : List Char) (kind : TokenKind) : Prop where
  isPrefix : cs <+: lexeme.text
  kind_eq : lexeme.text = cs → lexeme.kind = kind

/-! ### Words -/

theorem map_toUpper_name (word : Keyword) : word.name.toList.map Char.toUpper = word.name.toList := by
  cases word <;> decide

/-- The reserved words are written in capitals. -/
theorem eqUpToCase_iff {cs : List Char} {name : String} (h : name.toList.map Char.toUpper = name.toList) :
    EqUpToCase cs name.toList ↔ String.ofList (cs.map Char.toUpper) = name := by
  rw [EqUpToCase, h, ← String.toList_inj, String.toList_ofList]

theorem ofWord_of_isReserved {cs : List Char} {kind : TokenKind} (h : IsReserved cs kind) :
    TokenKind.ofWord cs = kind := by
  cases h with
  | keyword word heq =>
    rw [TokenKind.ofWord, (eqUpToCase_iff (map_toUpper_name word)).1 heq]
    cases word <;> rfl
  | boolean hliteral heq =>
    rcases List.mem_pair.1 hliteral with rfl | rfl
    · rw [TokenKind.ofWord, (eqUpToCase_iff (by decide)).1 heq]
      rfl
    · rw [TokenKind.ofWord, (eqUpToCase_iff (by decide)).1 heq]
      rfl
  | null heq =>
    rw [TokenKind.ofWord, (eqUpToCase_iff (by decide)).1 heq]
    rfl

theorem isReserved_ofWord (cs : List Char) :
    IsReserved cs (TokenKind.ofWord cs) ∨ TokenKind.ofWord cs = .ident := by
  unfold TokenKind.ofWord
  dsimp only
  split
  · next word hword =>
    have hname : word.name = String.ofList (cs.map Char.toUpper) := by simpa using List.find?_some hword
    exact .inl (.keyword word ((eqUpToCase_iff (map_toUpper_name word)).2 hname.symm))
  · split_ifs with hboolean hnull
    · rcases hboolean with htrue | hfalse
      · exact .inl (.boolean (List.mem_cons_self ..) ((eqUpToCase_iff (by decide)).2 htrue))
      · have hmem : "FALSE" ∈ ["TRUE", "FALSE"] := List.mem_cons_of_mem _ (List.mem_cons_self ..)
        exact .inl (.boolean hmem ((eqUpToCase_iff (by decide)).2 hfalse))
    · exact .inl (.null ((eqUpToCase_iff (by decide)).2 hnull))
    · exact .inr rfl

/-! ### Names -/

theorem IsName.isNamePart {cs : List Char} (h : IsName cs) : ∀ c ∈ cs, isNamePart c := by
  cases h with
  | cons hstart hpart => exact List.forall_mem_cons.2 ⟨Lexeme.isNamePart_of_isNameStart hstart, hpart⟩

theorem isNamePart_dot : isNamePart '.' = false := by
  rw [isNamePart, Text.isAlphanumeric, Text.isAlphabetic_of_lt (by decide), Text.isNumeric_of_lt (by decide)]
  rfl

theorem IsLabel.exists_cons {cs : List Char} (h : IsLabel cs) : ∃ c more, cs = c :: more ∧ isNameStart c := by
  cases h with
  | name hname => cases hname with | cons hstart _ => exact ⟨_, _, rfl, hstart⟩
  | dotted hname _ => cases hname with | cons hstart _ => exact ⟨_, _, rfl, hstart⟩

theorem IsLabel.head?_append {cs : List Char} (h : IsLabel cs) (rest : List Char) :
    (cs ++ rest).head?.any isNameStart := by
  obtain ⟨c, more, rfl, hstart⟩ := h.exists_cons
  exact hstart

/-- A label does not end in a dot. -/
theorem IsLabel.ne_append_dot {cs : List Char} (h : IsLabel cs) (more : List Char) : cs ≠ more ++ ['.'] := by
  induction h generalizing more with
  | name hname =>
    rintro rfl
    have hdot := hname.isNamePart '.' (by simp)
    rw [isNamePart_dot] at hdot
    cases hdot
  | @dotted cs more' _ hmore ih =>
    intro heq
    obtain ⟨c, cs', rfl, -⟩ := hmore.exists_cons
    rcases List.append_eq_append_iff.1 heq with ⟨as, rfl, has⟩ | ⟨as, rfl, has⟩
    · cases as with
      | nil => cases has
      | cons _ as => exact ih as (List.cons.inj has).2
    · cases as with
      | nil => cases has
      | cons _ as => simp at has

namespace Lexeme

theorem isName_takeWhile {cs : List Char} (h : cs.head?.any isNameStart) :
    IsName (cs.takeWhile isNamePart) := by
  cases cs with
  | nil => cases h
  | cons c cs =>
    have hstart : isNameStart c := h
    rw [List.takeWhile_cons_of_pos (isNamePart_of_isNameStart hstart)]
    exact .cons hstart fun d hd => List.mem_takeWhile_imp hd

/-- A label is read as one, or spoiled by a dot behind it. -/
theorem isLabel_readLabel {cs : List Char} (h : cs.head?.any isNameStart) :
    (readLabel cs).kind = .ident ∧ IsLabel (readLabel cs).text ∨
      (readLabel cs).kind = .illegal ∧ ∃ label, IsLabel label ∧ (readLabel cs).text = label ++ ['.'] := by
  fun_induction readLabel cs with
  | case1 cs word rest hrest hstart _ more ih =>
    rcases ih hstart with ⟨hkind, hlabel⟩ | ⟨hkind, label, hlabel, htext⟩
    · exact .inl ⟨hkind, .dotted (isName_takeWhile h) hlabel⟩
    · refine .inr ⟨hkind, word ++ '.' :: label, .dotted (isName_takeWhile h) hlabel, ?_⟩
      show word ++ '.' :: more.text = word ++ '.' :: label ++ ['.']
      rw [htext, List.append_assoc, List.cons_append]
  | case2 cs word rest hrest hstart => exact .inr ⟨rfl, word, .name (isName_takeWhile h), rfl⟩
  | case3 cs word hrest => exact .inl ⟨rfl, .name (isName_takeWhile h)⟩

theorem takeWhile_prefix_text_readLabel (cs : List Char) :
    cs.takeWhile isNamePart <+: (readLabel cs).text := by
  rw [readLabel]
  split
  · split
    · exact List.prefix_append _ _
    · exact List.prefix_append _ _
  · exact List.prefix_rfl

theorem text_readLabel_append_dot {word : List Char} (h : ∀ c ∈ word, isNamePart c) (rest : List Char) :
    (readLabel (word ++ '.' :: rest)).text =
      word ++ if rest.head?.any isNameStart then '.' :: (readLabel rest).text else ['.'] := by
  have hdot : ∀ c ∈ ('.' :: rest).head?, ¬ isNamePart c := by
    rintro c hc
    cases hc
    simp [isNamePart_dot]
  have hdrop := Text.dropWhile_append_of_head? h hdot
  rw [readLabel]
  split
  · next rest' hrest =>
    obtain rfl : rest = rest' := (List.cons.inj (hdrop.symm.trans hrest)).2
    rw [Text.takeWhile_append_of_head? h hdot]
    split <;> rfl
  · next hrest => exact absurd hdrop (hrest rest)

theorem prefix_text_readLabel {label : List Char} (h : IsLabel label) (rest : List Char) :
    label <+: (readLabel (label ++ rest)).text ∧
      label ++ ['.'] <+: (readLabel (label ++ '.' :: rest)).text := by
  induction h with
  | @name word hname =>
    constructor
    · refine List.IsPrefix.trans ?_ (takeWhile_prefix_text_readLabel _)
      rw [List.takeWhile_append_of_pos hname.isNamePart]
      exact List.prefix_append _ _
    · rw [text_readLabel_append_dot hname.isNamePart, List.prefix_append_right_inj]
      split
      · exact List.prefix_append ['.'] _
      · exact List.prefix_rfl
  | @dotted word more hname hmore ih =>
    simp only [List.append_assoc, List.cons_append, text_readLabel_append_dot hname.isNamePart,
      hmore.head?_append, if_true, List.prefix_append_right_inj, List.prefix_cons_inj]
    exact ih

theorem covers_readLabel {label : List Char} (h : IsLabel label) (rest : List Char) :
    (readLabel (label ++ rest)).Covers label .ident where
  isPrefix := (prefix_text_readLabel h rest).1
  kind_eq htext := by
    rcases isLabel_readLabel (h.head?_append rest) with ⟨hkind, -⟩ | ⟨-, label', hlabel', htext'⟩
    · exact hkind
    · exact absurd (htext.symm.trans htext') (h.ne_append_dot label')

theorem covers_readLabel_dot {label : List Char} (h : IsLabel label) (rest : List Char) :
    (readLabel (label ++ '.' :: rest)).Covers (label ++ ['.']) .illegal where
  isPrefix := (prefix_text_readLabel h rest).2
  kind_eq htext := by
    rcases isLabel_readLabel (h.head?_append ('.' :: rest)) with ⟨-, hlabel⟩ | ⟨hkind, -⟩
    · exact absurd htext (hlabel.ne_append_dot label)
    · exact hkind

theorem covers_readWord {word : List Char} (h : IsName word) (rest : List Char) :
    (readWord (word ++ rest)).Covers word (.ofWord word) where
  isPrefix := by
    show word <+: (word ++ rest).takeWhile isNamePart
    rw [List.takeWhile_append_of_pos h.isNamePart]
    exact List.prefix_append _ _
  kind_eq htext := congrArg TokenKind.ofWord htext

theorem isLexeme_readName {cs : List Char} (h : cs.head?.any isNameStart) (names : NameMode)
    (minus : MinusMode) : IsLexeme names minus (readName names cs).text (readName names cs).kind := by
  cases names with
  | plain =>
    show IsLexeme .plain minus (cs.takeWhile isNamePart) (.ofWord (cs.takeWhile isNamePart))
    have hname := isName_takeWhile h
    by_cases hident : TokenKind.ofWord (cs.takeWhile isNamePart) = .ident
    · rw [hident]
      refine .ident rfl hname fun kind hreserved => ?_
      obtain rfl := (ofWord_of_isReserved hreserved).symm.trans hident
      cases hreserved
    · exact .reserved rfl hname ((isReserved_ofWord _).resolve_right hident)
  | label =>
    show IsLexeme .label minus (readLabel cs).text (readLabel cs).kind
    rcases isLabel_readLabel h with ⟨hkind, hlabel⟩ | ⟨hkind, label, hlabel, htext⟩
    · rw [hkind]
      exact .label rfl hlabel
    · rw [hkind, htext]
      exact .openLabel rfl hlabel

/-! ### Numbers -/

theorem isDigits_takeWhile (cs : List Char) : IsDigits (cs.takeWhile Char.isDigit) :=
  fun _ hmem => List.mem_takeWhile_imp hmem

theorem isFraction_splitFraction (cs : List Char) :
    (splitFraction cs).1 = [] ∨ IsFraction (splitFraction cs).1 := by
  unfold splitFraction
  split
  · exact .inr (.point (isDigits_takeWhile _))
  · exact .inl rfl

theorem mem_signs_splitSign (cs : List Char) : (splitSign cs).1 ∈ [[], ['+'], ['-']] := by
  unfold splitSign
  split <;> simp

theorem isExponent_splitExponent (cs : List Char) :
    (splitExponent cs).1 = [] ∨ IsExponent (splitExponent cs).1 := by
  unfold splitExponent
  split
  · exact .inl rfl
  · next c cs =>
    split
    · next hletter =>
      exact .inr (.letter (by simpa using hletter) (mem_signs_splitSign cs) (isDigits_takeWhile _))
    · exact .inl rfl

theorem isLexeme_readNumber {c : Char} (h : c.isDigit) (cs : List Char) (names : NameMode)
    (minus : MinusMode) :
    IsLexeme names minus (readNumber (c :: cs)).text (readNumber (c :: cs)).kind := by
  have hwhole : (c :: cs).takeWhile Char.isDigit ≠ [] := by simp [h]
  have hdigits := isDigits_takeWhile (c :: cs)
  have hfraction := isFraction_splitFraction ((c :: cs).dropWhile Char.isDigit)
  have hexponent := isExponent_splitExponent (splitFraction ((c :: cs).dropWhile Char.isDigit)).2
  simp only [readNumber]
  split_ifs with hplain
  · rw [hplain.1, hplain.2, List.append_nil, List.append_nil]
    exact .number hwhole hdigits
  · refine .real hwhole hdigits hfraction hexponent fun hnil => hplain ?_
    exact List.append_eq_nil_iff.1 hnil

theorem splitSign_append {sign digits : List Char} (hsign : sign ∈ [[], ['+'], ['-']])
    (hdigits : IsDigits digits) (hne : sign ++ digits ≠ []) (rest : List Char) :
    splitSign (sign ++ (digits ++ rest)) = (sign, digits ++ rest) := by
  simp only [List.mem_cons, List.not_mem_nil, or_false] at hsign
  rcases hsign with rfl | rfl | rfl
  · cases digits with
    | nil => exact absurd rfl hne
    | cons d digits =>
      have hd : d.isDigit := hdigits d (List.mem_cons_self ..)
      show splitSign (d :: (digits ++ rest)) = ([], d :: (digits ++ rest))
      unfold splitSign
      split
      · next heq => cases heq; cases hd
      · next heq => cases heq; cases hd
      · rfl
  · rfl
  · rfl

/-- No exponent goes on behind the one that is split off. -/
theorem prefix_splitExponent {exponent : List Char} (h : IsExponent exponent) (rest : List Char) :
    exponent <+: (splitExponent (exponent ++ rest)).1 := by
  cases h with
  | @letter c sign digits hletter hsign hdigits =>
    have hc : c = 'e' ∨ c = 'E' := by simpa using hletter
    simp only [splitExponent, List.cons_append, List.append_assoc, if_pos hc, List.prefix_cons_inj]
    by_cases hnil : sign ++ digits = []
    · rw [hnil]
      exact List.nil_prefix
    · rw [splitSign_append hsign hdigits hnil, List.prefix_append_right_inj,
        List.takeWhile_append_of_pos hdigits]
      exact List.prefix_append _ _

theorem prefix_splitFraction {fraction : List Char} (h : IsFraction fraction) (rest : List Char) :
    fraction <+: (splitFraction (fraction ++ rest)).1 := by
  cases h with
  | @point digits hdigits =>
    simp only [splitFraction, List.cons_append, List.prefix_cons_inj]
    rw [List.takeWhile_append_of_pos hdigits]
    exact List.prefix_append _ _

theorem not_isDigit_of_letter {c : Char} (h : c ∈ ['e', 'E']) : ¬ c.isDigit := by
  rcases List.mem_pair.1 h with rfl | rfl <;> decide

theorem splitFraction_append {fraction exponent : List Char} (hfraction : fraction = [] ∨ IsFraction fraction)
    (hexponent : IsExponent exponent) (rest : List Char) :
    splitFraction (fraction ++ (exponent ++ rest)) = (fraction, exponent ++ rest) := by
  cases hexponent with
  | @letter c sign digits hletter _ _ =>
    rcases hfraction with rfl | hfraction
    · rcases List.mem_pair.1 hletter with rfl | rfl <;> rfl
    · cases hfraction with
      | point hdigits =>
        have hc := not_isDigit_of_letter hletter
        simp only [splitFraction, List.cons_append, List.takeWhile_append_of_pos hdigits,
          List.dropWhile_append_of_pos hdigits, List.takeWhile_cons_of_neg hc, List.dropWhile_cons_of_neg hc,
          List.append_nil]

theorem readNumber_append {whole rest : List Char} (hwhole : IsDigits whole)
    (hrest : ∀ c ∈ rest.head?, ¬ c.isDigit) :
    (readNumber (whole ++ rest)).text =
        whole ++ (splitFraction rest).1 ++ (splitExponent (splitFraction rest).2).1 ∧
      (readNumber (whole ++ rest)).kind =
        if (splitFraction rest).1 = [] ∧ (splitExponent (splitFraction rest).2).1 = [] then .number
        else .illegal := by
  simp only [readNumber, Text.takeWhile_append_of_head? hwhole hrest,
    Text.dropWhile_append_of_head? hwhole hrest, and_self]

theorem covers_readNumber {cs : List Char} (h : IsDigits cs) (rest : List Char) :
    (readNumber (cs ++ rest)).Covers cs .number where
  isPrefix := by
    simp only [readNumber, List.takeWhile_append_of_pos h, List.append_assoc]
    exact List.prefix_append _ _
  kind_eq htext := by
    simp only [readNumber, List.takeWhile_append_of_pos h, List.append_assoc, List.append_right_eq_self,
      List.append_eq_nil_iff] at htext ⊢
    exact if_pos htext.2

theorem not_isDigit_head?_real {fraction exponent : List Char} (hfraction : fraction = [] ∨ IsFraction fraction)
    (hexponent : exponent = [] ∨ IsExponent exponent) (hne : fraction ++ exponent ≠ []) (rest : List Char) :
    ∀ c ∈ (fraction ++ (exponent ++ rest)).head?, ¬ c.isDigit := by
  intro c hc
  rcases hfraction with rfl | hfraction
  · cases hexponent.resolve_left hne with
    | letter hletter _ _ =>
      obtain rfl := Option.some.inj hc
      exact not_isDigit_of_letter hletter
  · cases hfraction with
    | point _ =>
      obtain rfl := Option.some.inj hc
      decide

/-- No fraction and exponent go on behind those that are split off. -/
theorem prefix_splitReal {fraction exponent : List Char} (hfraction : fraction = [] ∨ IsFraction fraction)
    (hexponent : exponent = [] ∨ IsExponent exponent) (rest : List Char) :
    fraction ++ exponent <+: (splitFraction (fraction ++ (exponent ++ rest))).1 ++
      (splitExponent (splitFraction (fraction ++ (exponent ++ rest))).2).1 := by
  rcases hexponent with rfl | hexponent
  · rw [List.append_nil, List.nil_append]
    rcases hfraction with rfl | hfraction
    · exact List.nil_prefix
    · exact (prefix_splitFraction hfraction rest).trans (List.prefix_append _ _)
  · rw [splitFraction_append hfraction hexponent, List.prefix_append_right_inj]
    exact prefix_splitExponent hexponent rest

theorem covers_readNumber_real {whole fraction exponent : List Char} (hwhole : IsDigits whole)
    (hfraction : fraction = [] ∨ IsFraction fraction) (hexponent : exponent = [] ∨ IsExponent exponent)
    (hne : fraction ++ exponent ≠ []) (rest : List Char) :
    (readNumber (whole ++ fraction ++ exponent ++ rest)).Covers (whole ++ fraction ++ exponent) .illegal := by
  have hbegins := prefix_splitReal hfraction hexponent rest
  obtain ⟨htext, hkind⟩ :=
    readNumber_append hwhole (not_isDigit_head?_real hfraction hexponent hne rest)
  simp only [List.append_assoc] at htext hkind ⊢
  refine ⟨?_, fun _ => ?_⟩
  · rw [htext, List.prefix_append_right_inj]
    exact hbegins
  · rw [hkind, if_neg]
    rintro ⟨hnil, hnil'⟩
    rw [hnil, hnil'] at hbegins
    exact hne (List.prefix_nil.1 hbegins)

/-! ### Strings -/

theorem readQuoted_append {cs : List Char} (h : IsQuotable cs) (rest : List Char) :
    readQuoted (cs ++ rest) = { readQuoted rest with text := cs ++ (readQuoted rest).text } := by
  induction h with
  | nil => rfl
  | @char c cs hc _ ih =>
    simp only [List.mem_cons, List.not_mem_nil, or_false, not_or] at hc
    obtain ⟨hquote, hbackslash, hline⟩ := hc
    rw [List.cons_append, readQuoted, ih]
    · rfl
    · exact hquote
    · exact hline
    · exact fun h => absurd h hbackslash
    · exact fun _ h => absurd h hbackslash
    · exact fun _ _ h => absurd h hbackslash
  | @escape c cs hline _ ih =>
    rw [List.cons_append, List.cons_append, readQuoted, ih]
    · rfl
    · exact hline

/-- What is read behind a quote is quotable text, with a closing quote or without one. -/
theorem exists_quotable_readQuoted (cs : List Char) :
    ∃ body, IsQuotable body ∧
      ((readQuoted cs).kind = .string ∧ (readQuoted cs).text = body ++ ['"'] ∨
        (readQuoted cs).kind = .illegal ∧ ∃ lone ∈ [[], ['\\']], (readQuoted cs).text = body ++ lone) := by
  fun_induction readQuoted cs with
  | case1 => exact ⟨[], .nil, .inr ⟨rfl, [], List.mem_cons_self .., rfl⟩⟩
  | case2 cs => exact ⟨[], .nil, .inl ⟨rfl, rfl⟩⟩
  | case3 cs => exact ⟨[], .nil, .inr ⟨rfl, [], List.mem_cons_self .., rfl⟩⟩
  | case4 => exact ⟨[], .nil, .inr ⟨rfl, ['\\'], List.mem_cons_of_mem _ (List.mem_cons_self ..), rfl⟩⟩
  | case5 cs => exact ⟨[], .nil, .inr ⟨rfl, ['\\'], List.mem_cons_of_mem _ (List.mem_cons_self ..), rfl⟩⟩
  | case6 c cs hline ih =>
    obtain ⟨body, hbody, hends⟩ := ih
    refine ⟨'\\' :: c :: body, .escape hline hbody, ?_⟩
    simpa [cons] using hends
  | case7 c cs hquote hline hlone _ hescape ih =>
    obtain ⟨body, hbody, hends⟩ := ih
    have hbackslash : c ≠ '\\' := by
      intro h
      cases cs with
      | nil => exact hlone h rfl
      | cons d cs => exact hescape d cs h rfl
    have hc : c ∉ ['"', '\\', '\n'] := by simpa using ⟨hquote, hbackslash, hline⟩
    refine ⟨c :: body, .char hc hbody, ?_⟩
    simpa [cons] using hends

theorem isLexeme_readQuoted (cs : List Char) (names : NameMode) (minus : MinusMode) :
    IsLexeme names minus ((readQuoted cs).cons '"').text ((readQuoted cs).cons '"').kind := by
  show IsLexeme names minus ('"' :: (readQuoted cs).text) (readQuoted cs).kind
  obtain ⟨body, hbody, ⟨hkind, htext⟩ | ⟨hkind, lone, hlone, htext⟩⟩ := exists_quotable_readQuoted cs
  · rw [hkind, htext]
    exact .string hbody
  · rw [hkind, htext]
    exact .openString hbody hlone

theorem covers_readQuoted {cs : List Char} (h : IsQuotable cs) (rest : List Char) :
    ((readQuoted (cs ++ '"' :: rest)).cons '"').Covers ('"' :: cs ++ ['"']) .string := by
  have hread : readQuoted (cs ++ '"' :: rest) = ⟨.string, cs ++ ['"'], rest⟩ := by
    rw [readQuoted_append h, readQuoted]
  rw [hread]
  exact ⟨List.prefix_rfl, fun _ => rfl⟩

theorem covers_readQuoted_lone {lone : List Char} (hlone : lone ∈ [[], ['\\']]) (rest : List Char) :
    (readQuoted (lone ++ rest)).Covers lone .illegal where
  isPrefix := by
    rcases List.mem_pair.1 hlone with rfl | rfl
    · exact List.nil_prefix
    · rw [List.singleton_append]
      unfold readQuoted
      split
      · next heq => cases heq
      · next heq => cases heq
      · next heq => cases heq
      · exact List.prefix_rfl
      · exact List.prefix_rfl
      · exact List.prefix_append ['\\'] _
      · next heq =>
        obtain ⟨rfl, -⟩ := List.cons.inj heq
        exact List.prefix_append ['\\'] _
  kind_eq htext := by
    obtain ⟨body, -, ⟨-, htext'⟩ | ⟨hkind, -⟩⟩ := exists_quotable_readQuoted (lone ++ rest)
    · rw [htext] at htext'
      rcases List.mem_pair.1 hlone with rfl | rfl
      · cases body <;> cases htext'
      · cases body with
        | nil => cases htext'
        | cons b body => cases body <;> cases htext'
    · exact hkind

theorem covers_readQuoted_open {cs lone : List Char} (h : IsQuotable cs) (hlone : lone ∈ [[], ['\\']])
    (rest : List Char) :
    ((readQuoted (cs ++ (lone ++ rest))).cons '"').Covers ('"' :: cs ++ lone) .illegal := by
  obtain ⟨hbegins, hkind⟩ := covers_readQuoted_lone hlone rest
  rw [readQuoted_append h]
  refine ⟨?_, fun htext => hkind ?_⟩
  · show '"' :: cs ++ lone <+: '"' :: cs ++ (readQuoted (lone ++ rest)).text
    exact (List.prefix_append_right_inj _).2 hbegins
  · have htext' : '"' :: cs ++ (readQuoted (lone ++ rest)).text = '"' :: cs ++ lone := htext
    exact List.append_cancel_left htext'

/-! ### Operators -/

theorem mem_operators_iff {cs : List Char} {kind : TokenKind} {minus : MinusMode} :
    (cs, kind) ∈ operators minus ↔ (String.ofList cs, kind) ∈ punctuation ∨ cs = ['-'] ∧ kind = minus.kind := by
  have hfixed : ∀ entry ∈ fixedOperators, (String.ofList entry.1, entry.2) ∈ punctuation := by decide
  have hpunctuation : ∀ entry ∈ punctuation, (entry.1.toList, entry.2) ∈ fixedOperators := by decide
  rw [operators_eq, List.mem_append, List.mem_singleton, Prod.mk.injEq]
  refine or_congr ⟨hfixed (cs, kind), fun h => ?_⟩ Iff.rfl
  have hmem := hpunctuation _ h
  rwa [String.toList_ofList] at hmem

theorem isLexeme_of_mem_operators {cs : List Char} {kind : TokenKind} {minus : MinusMode}
    (h : (cs, kind) ∈ operators minus) (names : NameMode) : IsLexeme names minus cs kind := by
  rcases mem_operators_iff.1 h with hmem | ⟨rfl, rfl⟩
  · exact .operator hmem
  · exact .minus

theorem isLexeme_readOperator {c : Char} (hstart : ¬ isNameStart c) (hdigit : ¬ c.isDigit) (hquote : c ≠ '"')
    (cs : List Char) (names : NameMode) (minus : MinusMode) :
    IsLexeme names minus (readOperator minus (c :: cs)).text (readOperator minus (c :: cs)).kind := by
  unfold readOperator
  split
  · next text kind hfind => exact isLexeme_of_mem_operators (List.mem_of_find?_eq_some hfind) names
  · next hfind =>
    have hnone (kind : TokenKind) : ([c], kind) ∉ operators minus := fun hmem =>
      List.find?_eq_none.1 hfind _ hmem (List.isPrefixOf_iff_prefix.2 (List.prefix_append [c] cs))
    refine .char hstart hdigit hquote ?_ fun kind hmem => hnone kind (mem_operators_iff.2 (.inl hmem))
    rintro rfl
    exact hnone _ (mem_operators_iff.2 (.inr ⟨rfl, rfl⟩))

/-- The first operator in the table that a text begins with is the longest. -/
theorem covers_readOperator {cs : List Char} {kind : TokenKind} {minus : MinusMode}
    (h : (cs, kind) ∈ operators minus) (rest : List Char) :
    (readOperator minus (cs ++ rest)).Covers cs kind := by
  have horder : (operators minus).Pairwise fun a b => ¬ a.1 <+: b.1 := by cases minus <;> decide
  have hcs : cs.isPrefixOf (cs ++ rest) := List.isPrefixOf_iff_prefix.2 (List.prefix_append cs rest)
  unfold readOperator
  split
  · next text kind' hfind =>
    obtain ⟨hbegins, before, behind, htable, hbefore⟩ := List.find?_eq_some_iff_append.1 hfind
    rw [htable] at h horder
    rcases List.mem_append.1 h with hmem | hmem
    · have hnot := hbefore _ hmem
      simp [hcs] at hnot
    rcases List.mem_cons.1 hmem with heq | hmem
    · obtain ⟨rfl, rfl⟩ := Prod.mk.inj heq
      exact ⟨List.prefix_rfl, fun _ => rfl⟩
    -- no entry behind the found one continues it, so that one continues this
    have hnot := (List.pairwise_cons.1 (List.pairwise_append.1 horder).2.1).1 _ hmem
    have htext : text <+: cs ++ rest := List.isPrefixOf_iff_prefix.1 hbegins
    rcases List.prefix_or_prefix_of_prefix htext (List.prefix_append cs rest) with hshort | hlong
    · exact absurd hshort hnot
    · exact ⟨hlong, fun heq => absurd (heq ▸ List.prefix_rfl) hnot⟩
  · next hfind => exact absurd hcs (List.find?_eq_none.1 hfind _ h)

end Lexeme

end ResourceGraph.Query
