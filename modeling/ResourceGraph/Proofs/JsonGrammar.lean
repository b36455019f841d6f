import ResourceGraph.Proofs.WrittenJson
import ResourceGraph.Text.Cut

/-!
# The grammar of JSON

Which texts are JSON, with nothing said about how they are read. A string is made of characters as they are and
of escapes; what it denotes is said by `IsLiteral`, and `IsString` leaves out that it denotes anything. The parts
of an array or object are `IsSeparated` by commas, with white space around them.

Literals and numbers are read up to their end and no further (`IsLiteral.exists_readString`, `readNumeral_append`).
-/

namespace ResourceGraph.Json

/-! ### Strings -/

/-- A hexadecimal digit, in either case, and its value. -/
def IsHexDigit (c : Char) (n : Nat) : Prop :=
  n < 16 ∧ (c = Nat.digitChar n ∨ c = (Nat.digitChar n).toUpper)

/-- Four hexadecimal digits and the number they denote. -/
inductive IsCodeUnit : List Char → Nat → Prop
  | digits {a b c d : Char} {i j k l : Nat} : IsHexDigit a i → IsHexDigit b j → IsHexDigit c k →
    IsHexDigit d l → IsCodeUnit [a, b, c, d] (((i * 16 + j) * 16 + k) * 16 + l)

/-- The letters that may follow a backslash, and the characters they denote there. -/
def letterEscapes : List (Char × Char) :=
  [('"', '"'), ('\\', '\\'), ('/', '/'), ('b', '\x08'), ('f', '\x0c'), ('n', '\n'), ('r', '\r'), ('t', '\t')]

/-- A character that may stand in a string as it is. -/
def IsPlain (c : Char) : Prop :=
  c ≠ '"' ∧ c ≠ '\\' ∧ ¬ c < ' '

instance : DecidablePred IsPlain :=
  fun c => inferInstanceAs (Decidable (c ≠ '"' ∧ c ≠ '\\' ∧ ¬ c < ' '))

/-- How a character can be written in a string. One beyond the first 65536 takes two code units. -/
inductive Spells : List Char → Char → Prop
  | plain {c : Char} : IsPlain c → Spells [c] c
  | letter {letter c : Char} : (letter, c) ∈ letterEscapes → Spells ['\\', letter] c
  | unit {digits : List Char} {c : Char} : IsCodeUnit digits c.toNat → Spells ('\\' :: 'u' :: digits) c
  | pair {first second : List Char} {c : Char} : 0x10000 ≤ c.toNat →
    IsCodeUnit first (0xD800 + (c.toNat - 0x10000) / 0x400) →
    IsCodeUnit second (0xDC00 + (c.toNat - 0x10000) % 0x400) →
    Spells ('\\' :: 'u' :: (first ++ '\\' :: 'u' :: second)) c

inductive SpellsAll : List Char → List Char → Prop
  | nil : SpellsAll [] []
  | cons {piece cs text : List Char} {c : Char} : Spells piece c → SpellsAll cs text →
    SpellsAll (piece ++ cs) (c :: text)

/-- A string in quotes and the text that it denotes. -/
inductive IsLiteral : List Char → String → Prop
  | quoted {body : List Char} {s : String} : SpellsAll body s.toList → IsLiteral ('"' :: (body ++ ['"'])) s

/-- Characters and escapes, code units alone or in pairs. -/
inductive IsStringBody : List Char → Prop
  | nil : IsStringBody []
  | plain {c : Char} {cs : List Char} : IsPlain c → IsStringBody cs → IsStringBody (c :: cs)
  | letter {letter c : Char} {cs : List Char} : (letter, c) ∈ letterEscapes → IsStringBody cs →
    IsStringBody ('\\' :: letter :: cs)
  | unit {digits cs : List Char} {n : Nat} : IsCodeUnit digits n → IsStringBody cs →
    IsStringBody ('\\' :: 'u' :: (digits ++ cs))

inductive IsString : List Char → Prop
  | quoted {body : List Char} : IsStringBody body → IsString ('"' :: (body ++ ['"']))

/-- A text in which no character needs an escape is written as it is. -/
theorem isLiteral_plain (s : String) (h : ∀ c ∈ s.toList, IsPlain c) :
    IsLiteral ('"' :: (s.toList ++ ['"'])) s := by
  have hspells : ∀ text : List Char, (∀ c ∈ text, IsPlain c) → SpellsAll text text := by
    intro text htext
    induction text with
    | nil => exact .nil
    | cons c cs ih =>
      rw [List.forall_mem_cons] at htext
      exact .cons (.plain htext.1) (ih htext.2)
  exact .quoted (hspells s.toList h)

theorem hexValue?_of_isHexDigit {c : Char} {n : Nat} (h : IsHexDigit c n) : hexValue? c = some n := by
  have htable : ∀ n < 16, hexValue? (Nat.digitChar n) = some n ∧
      hexValue? (Nat.digitChar n).toUpper = some n := by decide
  obtain ⟨hlt, rfl | rfl⟩ := h
  · exact (htable n hlt).1
  · exact (htable n hlt).2

theorem readCodeUnit_append {digits : List Char} {n : Nat} (h : IsCodeUnit digits n) (rest : List Char) :
    readCodeUnit (digits ++ rest) = .ok n rest := by
  obtain ⟨ha, hb, hc, hd⟩ := h
  simp [readCodeUnit, codeUnit?, hexValue?_of_isHexDigit ha, hexValue?_of_isHexDigit hb,
    hexValue?_of_isHexDigit hc, hexValue?_of_isHexDigit hd]

theorem isSurrogate_eq_false (c : Char) : isTrailing c.toNat = false ∧ isLeading c.toNat = false := by
  have hvalid : c.toNat < 0xD800 ∨ 0xDFFF < c.toNat ∧ c.toNat < 0x110000 := c.valid
  simp only [isTrailing, isLeading, Bool.and_eq_false_iff, decide_eq_false_iff_not]
  omega

theorem readNumbered_unit {digits : List Char} {c : Char} (h : IsCodeUnit digits c.toNat) (rest : List Char) :
    readNumbered (digits ++ rest) = .ok c rest := by
  obtain ⟨htrailing, hleading⟩ := isSurrogate_eq_false c
  simp [readNumbered, readCodeUnit_append h, htrailing, hleading, Char.ofNat_toNat]

/-- The halves of a pair are told apart, and together they denote the character. -/
theorem charOfPair_halves {c : Char} {upper lower : Nat} (hc : 0x10000 ≤ c.toNat)
    (hupper : (c.toNat - 0x10000) / 0x400 = upper) (hlower : (c.toNat - 0x10000) % 0x400 = lower) :
    isTrailing (0xD800 + upper) = false ∧ isLeading (0xD800 + upper) = true ∧
      isTrailing (0xDC00 + lower) = true ∧ charOfPair (0xD800 + upper) (0xDC00 + lower) = c := by
  have hvalid : c.toNat < 0xD800 ∨ 0xDFFF < c.toNat ∧ c.toNat < 0x110000 := c.valid
  have hupper_lt : upper < 0x400 := by omega
  have hlower_lt : lower < 0x400 := by omega
  have hsum : 0x10000 + (0xD800 + upper - 0xD800) * 0x400 + (0xDC00 + lower - 0xDC00) = c.toNat := by omega
  simp only [isTrailing, isLeading, charOfPair, hsum, Char.ofNat_toNat, Bool.and_eq_false_iff,
    Bool.and_eq_true, decide_eq_false_iff_not, decide_eq_true_eq, and_true]
  clear hsum
  omega

theorem readNumbered_pair {first second : List Char} {leading trailing : Nat} {c : Char}
    (hfirst : IsCodeUnit first leading) (hsecond : IsCodeUnit second trailing)
    (h : isTrailing leading = false ∧ isLeading leading = true ∧ isTrailing trailing = true ∧
      charOfPair leading trailing = c) (rest : List Char) :
    readNumbered (first ++ ('\\' :: 'u' :: (second ++ rest))) = .ok c rest := by
  simp [readNumbered, readTrailing, readCodeUnit_append hfirst, readCodeUnit_append hsecond, h]

theorem readChar?_spells {piece : List Char} {c : Char} (h : Spells piece c) (rest : List Char) :
    readChar? (piece ++ rest) = .ok (some c) rest := by
  cases h with
  | plain hc => simp [readChar?, hc.1, hc.2.1, hc.2.2]
  | letter hmem =>
    simp only [letterEscapes, List.mem_cons, List.not_mem_nil, Prod.mk.injEq, or_false] at hmem
    rcases hmem with ⟨rfl, rfl⟩ | ⟨rfl, rfl⟩ | ⟨rfl, rfl⟩ | ⟨rfl, rfl⟩ | ⟨rfl, rfl⟩ | ⟨rfl, rfl⟩ | ⟨rfl, rfl⟩ |
      ⟨rfl, rfl⟩ <;> rfl
  | @unit digits _ hunit =>
    have hescape : readEscape ('u' :: (digits ++ rest)) = .ok c rest := readNumbered_unit hunit rest
    simp [readChar?, hescape]
  | @pair first second _ hc hfirst hsecond =>
    have hescape : readEscape ('u' :: (first ++ ('\\' :: 'u' :: (second ++ rest)))) = .ok c rest :=
      readNumbered_pair hfirst hsecond (charOfPair_halves hc rfl rfl) rest
    simp [readChar?, hescape]

theorem readChars_spellsAll {cs text : List Char} (h : SpellsAll cs text) (rest : List Char) :
    readChars (cs ++ '"' :: rest) = .ok text rest := by
  induction h with
  | nil => exact readChars_quote rest
  | @cons piece cs text c hpiece _ ih =>
    have hchar := readChar?_spells hpiece (cs ++ '"' :: rest)
    rw [List.append_assoc, readChars]
    split <;> simp_all

/-- A literal is read as what it denotes, from behind its opening quote on. -/
theorem IsLiteral.exists_readString {literal : List Char} {s : String} (h : IsLiteral literal s) :
    ∃ body, literal = '"' :: body ∧ ∀ rest, readString (body ++ rest) = .ok s rest := by
  obtain @⟨body, _, hbody⟩ := h
  refine ⟨body ++ ['"'], rfl, fun rest => ?_⟩
  rw [List.append_assoc, List.singleton_append, readString, readChars_spellsAll hbody, Parsed.map_ok,
    String.ofList_toList]

/-! ### Numbers -/

def IsDigitRun (cs : List Char) : Prop :=
  cs ≠ [] ∧ ∀ c ∈ cs, c.isDigit

/-- A zero alone, or digits that do not start with a zero. -/
inductive IsWhole : List Char → Prop
  | zero : IsWhole ['0']
  | digits {c : Char} {cs : List Char} : c ≠ '0' → IsDigitRun (c :: cs) → IsWhole (c :: cs)

inductive IsPoint : List Char → Prop
  | digits {cs : List Char} : IsDigitRun cs → IsPoint ('.' :: cs)

inductive IsPower : List Char → Prop
  | digits {letter : Char} {sign cs : List Char} : letter ∈ ['e', 'E'] → sign ∈ [[], ['+'], ['-']] →
    IsDigitRun cs → IsPower (letter :: (sign ++ cs))

inductive IsNumber : List Char → Prop
  | parts {sign whole point power : List Char} : sign ∈ [[], ['-']] → IsWhole whole →
    (point = [] ∨ IsPoint point) → (power = [] ∨ IsPower power) →
    IsNumber (sign ++ (whole ++ (point ++ power)))

theorem head?_toDigits_ne {n : Nat} (hn : n ≠ 0) : (Nat.toDigits 10 n).head? ≠ some '0' := by
  induction n using Nat.strongRecOn with
  | ind n ih =>
    rcases Nat.lt_or_ge n 10 with hlt | hge
    · rw [Nat.toDigits_of_lt_base hlt]
      simpa using hn
    · rw [Nat.toDigits_of_base_le (by decide) hge, List.head?_append_of_ne_nil _ Nat.toDigits_ne_nil]
      exact ih (n / 10) (by omega) (by omega)

/-- The digits of a natural number are the whole part of a number. -/
theorem isWhole_toDigits (n : Nat) : IsWhole (Nat.toDigits 10 n) := by
  rcases eq_or_ne n 0 with rfl | hn
  · exact .zero
  obtain ⟨c, cs, heq⟩ := List.exists_cons_of_ne_nil (@Nat.toDigits_ne_nil n 10)
  have hfirst := head?_toDigits_ne hn
  have hdigits : ∀ d ∈ Nat.toDigits 10 n, d.isDigit := fun d hd =>
    Nat.isDigit_of_mem_toDigits (by decide) (by decide) hd
  rw [heq] at hfirst hdigits ⊢
  exact .digits (fun hc => hfirst (congrArg some hc)) ⟨List.cons_ne_nil c cs, hdigits⟩

theorem readDigits_append {digits rest : List Char} (h : IsDigitRun digits)
    (hrest : ∀ c ∈ rest.head?, ¬ c.isDigit) : readDigits (digits ++ rest) = .ok digits rest := by
  obtain ⟨c, cs, rfl⟩ := List.exists_cons_of_ne_nil h.1
  rw [readDigits, Text.takeWhile_append_of_head? h.2 hrest, Text.dropWhile_append_of_head? h.2 hrest]

theorem readWhole_append {whole rest : List Char} (h : IsWhole whole) (hrest : ∀ c ∈ rest.head?, ¬ c.isDigit) :
    readWhole (whole ++ rest) = .ok whole rest := by
  cases h with
  | zero =>
    have hnone : rest.head?.any Char.isDigit = false := by
      cases rest with
      | nil => rfl
      | cons c rest => exact Bool.eq_false_iff.2 (hrest c rfl)
    simp [readWhole, hnone]
  | @digits c cs hzero hdigits =>
    have hread := readDigits_append hdigits hrest
    rw [List.cons_append] at hread ⊢
    rw [readWhole]
    · exact hread
    · intro cs' heq
      exact hzero (List.cons.inj heq).1

/-- The part from the point on and its digits. -/
inductive IsFractionOf : Option (List Char) → List Char → Prop
  | none : IsFractionOf none []
  | some {digits : List Char} : IsDigitRun digits → IsFractionOf (some digits) ('.' :: digits)

/-- The part from the letter on and the exponent. -/
inductive IsExponentOf : Option Int → List Char → Prop
  | none : IsExponentOf none []
  | plus {letter : Char} {sign digits : List Char} : letter ∈ ['e', 'E'] → sign ∈ [[], ['+']] →
    IsDigitRun digits → IsExponentOf (some (Nat.ofDigitChars 10 digits 0)) (letter :: (sign ++ digits))
  | minus {letter : Char} {digits : List Char} : letter ∈ ['e', 'E'] → IsDigitRun digits →
    IsExponentOf (some (-Nat.ofDigitChars 10 digits 0)) (letter :: '-' :: digits)

/-- How a numeral is written. -/
inductive IsWritten (numeral : Numeral) : List Char → Prop
  | parts {point power : List Char} : IsWhole numeral.whole → IsFractionOf numeral.fraction point →
    IsExponentOf numeral.exponent power →
    IsWritten numeral ((if numeral.negative then ['-'] else []) ++ (numeral.whole ++ (point ++ power)))

theorem IsNumber.exists_isWritten {number : List Char} (h : IsNumber number) :
    ∃ numeral, IsWritten numeral number := by
  obtain @⟨sign, whole, point, power, hsign, hwhole, hpoint, hpower⟩ := h
  have hnegative : ∃ negative : Bool, sign = if negative then ['-'] else [] := by
    rcases List.mem_pair.1 hsign with rfl | rfl
    · exact ⟨false, rfl⟩
    · exact ⟨true, rfl⟩
  have hfraction : ∃ fraction, IsFractionOf fraction point := by
    rcases hpoint with rfl | @⟨digits, hdigits⟩
    · exact ⟨none, .none⟩
    · exact ⟨some digits, .some hdigits⟩
  have hexponent : ∃ exponent, IsExponentOf exponent power := by
    rcases hpower with rfl | @⟨letter, sign, digits, hletter, hsign, hdigits⟩
    · exact ⟨none, .none⟩
    · simp only [List.mem_cons, List.not_mem_nil, or_false] at hsign
      rcases hsign with rfl | rfl | rfl
      · exact ⟨_, @IsExponentOf.plus _ [] _ hletter (by simp) hdigits⟩
      · exact ⟨_, @IsExponentOf.plus _ ['+'] _ hletter (by simp) hdigits⟩
      · exact ⟨_, .minus hletter hdigits⟩
  obtain ⟨negative, rfl⟩ := hnegative
  obtain ⟨fraction, hfraction⟩ := hfraction
  obtain ⟨exponent, hexponent⟩ := hexponent
  exact ⟨⟨negative, whole, fraction, exponent⟩, .parts hwhole hfraction hexponent⟩

theorem readFraction_append {fraction : Option (List Char)} {point rest : List Char}
    (h : IsFractionOf fraction point) (hrest : ∀ c ∈ rest.head?, ¬ c.isDigit ∧ c ≠ '.') :
    readFraction (point ++ rest) = .ok fraction rest := by
  cases h with
  | none =>
    rw [List.nil_append, readFraction]
    rintro cs rfl
    exact (hrest '.' rfl).2 rfl
  | some hdigits =>
    rw [List.cons_append, readFraction, readDigits_append hdigits fun c hc => (hrest c hc).1]
    rfl

theorem readSigned_append {digits rest : List Char} (hdigits : IsDigitRun digits)
    (hrest : ∀ c ∈ rest.head?, ¬ c.isDigit) :
    readSigned (digits ++ rest) = .ok (Nat.ofDigitChars 10 digits 0) rest ∧
      readSigned ('+' :: (digits ++ rest)) = .ok (Nat.ofDigitChars 10 digits 0) rest ∧
      readSigned ('-' :: (digits ++ rest)) = .ok (-Nat.ofDigitChars 10 digits 0) rest := by
  have hread := readDigits_append hdigits hrest
  have hfirst : ∀ cs c, c ∈ ['-', '+'] → digits ++ rest ≠ c :: cs := by
    intro cs c hc heq
    obtain ⟨d, ds, rfl⟩ := List.exists_cons_of_ne_nil hdigits.1
    obtain rfl : d = c := (List.cons.inj heq).1
    have hdigit := hdigits.2 d (List.mem_cons_self ..)
    rcases List.mem_pair.1 hc with rfl | rfl <;> cases hdigit
  refine ⟨?_, ?_, ?_⟩
  · rw [readSigned, hread]
    · rfl
    · exact fun cs => hfirst cs '-' (by simp)
    · exact fun cs => hfirst cs '+' (by simp)
  · rw [readSigned, hread]
    rfl
  · rw [readSigned, hread]
    rfl

theorem readExponent_letter {letter : Char} (hletter : letter ∈ ['e', 'E']) (cs : List Char) :
    readExponent (letter :: cs) = (readSigned cs).map some := by
  rcases List.mem_pair.1 hletter with rfl | rfl <;> rfl

theorem readExponent_append {exponent : Option Int} {power rest : List Char} (h : IsExponentOf exponent power)
    (hrest : EndsValue rest) : readExponent (power ++ rest) = .ok exponent rest := by
  have hdigit : ∀ c ∈ rest.head?, ¬ c.isDigit := fun c hc => (hrest c hc).1
  cases h with
  | none =>
    rw [List.nil_append, readExponent]
    · rintro cs rfl
      exact (hrest 'e' rfl).2 (by simp)
    · rintro cs rfl
      exact (hrest 'E' rfl).2 (by simp)
  | plus hletter hsign hdigits =>
    rw [List.cons_append, readExponent_letter hletter, List.append_assoc]
    rcases List.mem_pair.1 hsign with rfl | rfl
    · rw [List.nil_append, (readSigned_append hdigits hdigit).1, Parsed.map_ok]
    · rw [List.singleton_append, (readSigned_append hdigits hdigit).2.1, Parsed.map_ok]
  | minus hletter hdigits =>
    rw [List.cons_append, readExponent_letter hletter, List.cons_append, (readSigned_append hdigits hdigit).2.2,
      Parsed.map_ok]

/-- Neither digits nor a point go on behind the digits of a number. -/
theorem head?_power_append {exponent : Option Int} {power rest : List Char} (h : IsExponentOf exponent power)
    (hrest : EndsValue rest) : ∀ c ∈ (power ++ rest).head?, ¬ c.isDigit ∧ c ≠ '.' := by
  have hletters (letter : Char) (h : letter ∈ ['e', 'E']) : ¬ letter.isDigit ∧ letter ≠ '.' := by
    rcases List.mem_pair.1 h with rfl | rfl <;> decide
  intro c hc
  cases h with
  | none =>
    refine ⟨(hrest c hc).1, ?_⟩
    rintro rfl
    exact (hrest '.' hc).2 (by simp)
  | plus hletter =>
    obtain rfl := Option.some.inj hc
    exact hletters _ hletter
  | minus hletter =>
    obtain rfl := Option.some.inj hc
    exact hletters _ hletter

theorem readUnsigned_append {whole point power rest : List Char} {fraction : Option (List Char)}
    {exponent : Option Int} (hwhole : IsWhole whole) (hpoint : IsFractionOf fraction point)
    (hpower : IsExponentOf exponent power) (hrest : EndsValue rest) (negative : Bool) :
    readUnsigned negative (whole ++ (point ++ (power ++ rest))) = .ok ⟨negative, whole, fraction, exponent⟩ rest := by
  have hbehind := head?_power_append hpower hrest
  have hwhole' : ∀ c ∈ (point ++ (power ++ rest)).head?, ¬ c.isDigit := by
    intro c hc
    cases hpoint with
    | none => exact (hbehind c hc).1
    | some =>
      obtain rfl : '.' = c := Option.some.inj hc
      decide
  rw [readUnsigned, readWhole_append hwhole hwhole', Parsed.andThen_ok, readFraction_append hpoint hbehind,
    Parsed.andThen_ok, readExponent_append hpower hrest]
  rfl

/-- A number is read up to its end, as what is written. -/
theorem readNumeral_append {numeral : Numeral} {number rest : List Char} (h : IsWritten numeral number)
    (hrest : EndsValue rest) : readNumeral (number ++ rest) = .ok numeral rest := by
  obtain ⟨negative, whole, fraction, exponent⟩ := numeral
  obtain @⟨point, power, hwhole, hpoint, hpower⟩ := h
  rw [List.append_assoc, List.append_assoc, List.append_assoc]
  cases negative with
  | true => exact readUnsigned_append hwhole hpoint hpower hrest true
  | false =>
    show readNumeral ([] ++ (whole ++ (point ++ (power ++ rest)))) = _
    rw [List.nil_append, readNumeral]
    · exact readUnsigned_append hwhole hpoint hpower hrest false
    · intro cs heq
      cases hwhole with
      | zero => cases heq
      | digits _ hdigits =>
        obtain ⟨rfl, -⟩ := List.cons.inj heq
        cases hdigits.2 '-' (List.mem_cons_self ..)

theorem exists_readNumeral {number rest : List Char} (h : IsNumber number) (hrest : EndsValue rest) :
    ∃ numeral, readNumeral (number ++ rest) = .ok numeral rest := by
  obtain ⟨numeral, h⟩ := h.exists_isWritten
  exact ⟨numeral, readNumeral_append h hrest⟩

/-- A text is not written for two numerals. -/
theorem IsWritten.unique {m n : Numeral} {number : List Char} (hm : IsWritten m number) (hn : IsWritten n number) :
    m = n := by
  have hread := (readNumeral_append hm endsValue_nil).symm.trans (readNumeral_append hn endsValue_nil)
  injection hread

/-! ### Parts between commas -/

/-- The parts, in the given order, with commas between them and white space around them. -/
inductive IsSeparated {ι : Type} (IsPart : ι → List Char → Prop) : List ι → List Char → Prop
  | nil {gap : List Char} : IsGap gap → IsSeparated IsPart [] gap
  | last {x : ι} {before part after : List Char} : IsGap before → IsPart x part → IsGap after →
    IsSeparated IsPart [x] (before ++ (part ++ after))
  | cons {x y : ι} {xs : List ι} {before part after more : List Char} : IsGap before → IsPart x part →
    IsGap after → IsSeparated IsPart (y :: xs) more →
    IsSeparated IsPart (x :: y :: xs) (before ++ (part ++ (after ++ ',' :: more)))

/-- A key and its content, with a colon between them and white space around it. -/
inductive IsMember {ι : Type} (IsKey IsContent : ι → List Char → Prop) (x : ι) : List Char → Prop
  | colon {key before after content : List Char} : IsKey x key → IsGap before → IsGap after →
    IsContent x content → IsMember IsKey IsContent x (key ++ (before ++ ':' :: (after ++ content)))

inductive IsArray {ι : Type} (IsPart : ι → List Char → Prop) (xs : List ι) : List Char → Prop
  | brackets {inner : List Char} : IsSeparated IsPart xs inner → IsArray IsPart xs ('[' :: (inner ++ [']']))

inductive IsObject {ι : Type} (IsKey IsContent : ι → List Char → Prop) (xs : List ι) : List Char → Prop
  | braces {inner : List Char} : IsSeparated (IsMember IsKey IsContent) xs inner →
    IsObject IsKey IsContent xs ('\x7b' :: (inner ++ ['\x7d']))

/-- Any JSON value. The numbers in it may be of any size, and its strings need not denote a text. -/
inductive IsValue : List Char → Prop
  | null : IsValue ['n', 'u', 'l', 'l']
  | true : IsValue ['t', 'r', 'u', 'e']
  | false : IsValue ['f', 'a', 'l', 's', 'e']
  | number {cs : List Char} : IsNumber cs → IsValue cs
  | string {cs : List Char} : IsString cs → IsValue cs
  | array {items : List (List Char)} {cs : List Char} : IsArray (fun item cs => cs = item) items cs →
    (∀ item ∈ items, IsValue item) → IsValue cs
  | object {members : List (List Char × List Char)} {cs : List Char} :
    IsObject (fun member cs => cs = member.1) (fun member cs => cs = member.2) members cs →
    (∀ member ∈ members, IsString member.1) → (∀ member ∈ members, IsValue member.2) → IsValue cs

/-- What an element or an entry of a container begins with. -/
def OpensPart (cs : List Char) : Prop :=
  ∃ c tail, cs = c :: tail ∧ isBlank c = false ∧ c ≠ ']' ∧ c ≠ '\x7d'

theorem IsLiteral.opensPart {cs : List Char} {s : String} (h : IsLiteral cs s) : OpensPart cs := by
  obtain ⟨_⟩ := h
  exact ⟨'"', _, rfl, by decide⟩

theorem IsString.opensPart {cs : List Char} (h : IsString cs) : OpensPart cs := by
  obtain ⟨_⟩ := h
  exact ⟨'"', _, rfl, by decide⟩

theorem IsArray.opensPart {ι : Type} {IsPart : ι → List Char → Prop} {xs : List ι} {cs : List Char}
    (h : IsArray IsPart xs cs) : OpensPart cs := by
  obtain ⟨_⟩ := h
  exact ⟨'[', _, rfl, by decide⟩

theorem IsObject.opensPart {ι : Type} {IsKey IsContent : ι → List Char → Prop} {xs : List ι} {cs : List Char}
    (h : IsObject IsKey IsContent xs cs) : OpensPart cs := by
  obtain ⟨_⟩ := h
  exact ⟨'\x7b', _, rfl, by decide⟩

theorem IsMember.opensPart {ι : Type} {IsKey IsContent : ι → List Char → Prop} {x : ι} {cs : List Char}
    (h : IsMember IsKey IsContent x cs) (hkey : ∀ key, IsKey x key → OpensPart key) : OpensPart cs := by
  obtain ⟨hx, -, -, -⟩ := h
  obtain ⟨c, tail, rfl, hc⟩ := hkey _ hx
  exact ⟨c, _, rfl, hc⟩

/-- Without the white space in front, the parts of a container begin with the first of them. -/
theorem IsSeparated.exists_skipBlank {ι : Type} {IsPart : ι → List Char → Prop} {xs : List ι} {inner : List Char}
    (h : IsSeparated IsPart xs inner) (hne : xs ≠ [])
    (hopens : ∀ x ∈ xs, ∀ part, IsPart x part → OpensPart part) :
    ∃ c tail, IsSeparated IsPart xs (c :: tail) ∧ (c ≠ ']' ∧ c ≠ '\x7d') ∧
      ∀ rest, skipBlank (inner ++ rest) = c :: (tail ++ rest) := by
  cases h with
  | nil => exact absurd rfl hne
  | last hbefore hpart hafter =>
    obtain ⟨c, tail, rfl, hblank, hc⟩ := hopens _ (List.mem_cons_self ..) _ hpart
    refine ⟨c, _, .last isGap_nil hpart hafter, hc, fun rest => ?_⟩
    rw [List.append_assoc, List.cons_append, List.cons_append, skipBlank_gap_cons hbefore hblank]
    rfl
  | cons hbefore hpart hafter hmore =>
    obtain ⟨c, tail, rfl, hblank, hc⟩ := hopens _ (List.mem_cons_self ..) _ hpart
    refine ⟨c, _, .cons isGap_nil hpart hafter hmore, hc, fun rest => ?_⟩
    rw [List.append_assoc, List.cons_append, List.cons_append, skipBlank_gap_cons hbefore hblank]
    rfl

theorem IsSeparated.length_le {ι : Type} {IsPart : ι → List Char → Prop} {xs : List ι} {inner : List Char}
    (h : IsSeparated IsPart xs inner) : xs.length ≤ inner.length + 1 := by
  induction h with
  | nil => exact Nat.zero_le _
  | last => exact Nat.le_add_left 1 _
  | cons _ _ _ _ ih =>
    simp only [List.length_cons, List.length_append] at ih ⊢
    omega

/-- What may follow a part of a container. -/
theorem endsValue_behind {gap : List Char} {c : Char} (hgap : IsGap gap) (hc : c ∈ [',', ']', '\x7d'])
    (rest : List Char) : EndsValue (gap ++ c :: rest) :=
  endsValue_gap_append hgap (endsValue_cons hc rest)

end ResourceGraph.Json
