import Mathlib.Data.List.Induction
import Mathlib.Data.List.TakeWhile
import ResourceGraph.Json.Value
import ResourceGraph.Proofs.ReadingProblems

/-!
# What is read is JSON

Whatever a reader accepts has the form that the grammar gives it, and what it answers is what the form denotes.
`Accepts reader Denotes` says so of one reader: the text in front of what is left is white space and then a text
that denotes the answer. It goes over from the elements to an array (`accepts_readArray`) and from the values of
the entries to an object (`accepts_readObject`).
-/

namespace ResourceGraph.Json

open Parsed (malformed truncated)

/-! ### Words and white space -/

theorem exists_gap_append (cs : List Char) : ∃ gap, IsGap gap ∧ cs = gap ++ skipBlank cs :=
  ⟨cs.takeWhile isBlank, fun _ hc => List.mem_takeWhile_imp hc, List.takeWhile_append_dropWhile.symm⟩

theorem append_of_readWord {word cs rest : List Char} (h : readWord word cs = .ok () rest) : cs = word ++ rest := by
  induction word generalizing cs with
  | nil =>
    rw [readWord] at h
    injection h with _ hrest
  | cons w word ih =>
    cases cs with
    | nil => cases h
    | cons c cs =>
      rw [readWord] at h
      split at h
      · rw [‹c = w›, ih h, List.cons_append]
      · cases h

/-! ### Numbers -/

theorem append_of_readDigits {cs digits rest : List Char} (h : readDigits cs = .ok digits rest) :
    cs = digits ++ rest ∧ IsDigitRun digits := by
  have happend : cs.takeWhile Char.isDigit ++ cs.dropWhile Char.isDigit = cs := List.takeWhile_append_dropWhile
  have hall : ∀ c ∈ cs.takeWhile Char.isDigit, c.isDigit := fun _ hc => List.mem_takeWhile_imp hc
  unfold readDigits at h
  split at h
  · cases h
  · cases h
  · next hne hnone =>
    injection h with hdigits hrest
    subst hdigits hrest
    refine ⟨happend.symm, fun hnil => ?_, hall⟩
    cases hrest : cs.dropWhile Char.isDigit with
    | nil => exact hne hnil hrest
    | cons d rest => exact hnone d rest hnil hrest

theorem append_of_readWhole {cs whole rest : List Char} (h : readWhole cs = .ok whole rest) :
    cs = whole ++ rest ∧ IsWhole whole := by
  unfold readWhole at h
  split at h
  · split at h
    · cases h
    · injection h with hwhole hrest
      subst hwhole hrest
      exact ⟨rfl, .zero⟩
  · next hzero =>
    obtain ⟨rfl, hdigits⟩ := append_of_readDigits h
    obtain ⟨c, cs, rfl⟩ := List.exists_cons_of_ne_nil hdigits.1
    refine ⟨rfl, .digits ?_ hdigits⟩
    rintro rfl
    exact hzero _ rfl

theorem append_of_readFraction {cs rest : List Char} {fraction : Option (List Char)}
    (h : readFraction cs = .ok fraction rest) : ∃ point, cs = point ++ rest ∧ IsFractionOf fraction point := by
  unfold readFraction at h
  split at h
  · obtain ⟨digits, hread, rfl⟩ := Parsed.map_eq_ok_iff.1 h
    obtain ⟨rfl, hdigits⟩ := append_of_readDigits hread
    exact ⟨_, rfl, .some hdigits⟩
  · injection h with hfraction hrest
    subst hfraction hrest
    exact ⟨[], rfl, .none⟩

theorem append_of_readSigned {cs rest : List Char} {exponent : Int} (h : readSigned cs = .ok exponent rest)
    {letter : Char} (hletter : letter ∈ ['e', 'E']) :
    ∃ power, letter :: cs = power ++ rest ∧ IsExponentOf (some exponent) power := by
  unfold readSigned at h
  split at h <;> obtain ⟨digits, hread, rfl⟩ := Parsed.map_eq_ok_iff.1 h <;>
    obtain ⟨rfl, hdigits⟩ := append_of_readDigits hread
  · exact ⟨_, rfl, .minus hletter hdigits⟩
  · exact ⟨_, rfl, @IsExponentOf.plus _ ['+'] _ hletter (by simp) hdigits⟩
  · exact ⟨_, rfl, @IsExponentOf.plus _ [] _ hletter (by simp) hdigits⟩

theorem append_of_readExponent {cs rest : List Char} {exponent : Option Int}
    (h : readExponent cs = .ok exponent rest) : ∃ power, cs = power ++ rest ∧ IsExponentOf exponent power := by
  unfold readExponent at h
  split at h
  · obtain ⟨value, hread, rfl⟩ := Parsed.map_eq_ok_iff.1 h
    exact append_of_readSigned hread (by simp)
  · obtain ⟨value, hread, rfl⟩ := Parsed.map_eq_ok_iff.1 h
    exact append_of_readSigned hread (by simp)
  · injection h with hexponent hrest
    subst hexponent hrest
    exact ⟨[], rfl, .none⟩

theorem append_of_readUnsigned {negative : Bool} {cs rest : List Char} {numeral : Numeral}
    (h : readUnsigned negative cs = .ok numeral rest) :
    ∃ number, (if negative then ['-'] else []) ++ cs = number ++ rest ∧ IsWritten numeral number := by
  obtain ⟨whole, cs₁, hwhole, h⟩ := Parsed.andThen_eq_ok_iff.1 h
  obtain ⟨fraction, cs₂, hfraction, h⟩ := Parsed.andThen_eq_ok_iff.1 h
  obtain ⟨exponent, hexponent, rfl⟩ := Parsed.map_eq_ok_iff.1 h
  obtain ⟨rfl, hwhole'⟩ := append_of_readWhole hwhole
  obtain ⟨point, rfl, hpoint⟩ := append_of_readFraction hfraction
  obtain ⟨power, rfl, hpower⟩ := append_of_readExponent hexponent
  refine ⟨_, ?_, .parts hwhole' hpoint hpower⟩
  simp only [List.append_assoc]

theorem append_of_readNumeral {cs rest : List Char} {numeral : Numeral} (h : readNumeral cs = .ok numeral rest) :
    ∃ number, cs = number ++ rest ∧ IsWritten numeral number := by
  unfold readNumeral at h
  split at h
  · exact append_of_readUnsigned h
  · exact append_of_readUnsigned h

/-! ### Strings -/

theorem isHexDigit_of_hexValue? {c : Char} {n : Nat} (h : hexValue? c = some n) : IsHexDigit c n := by
  have hlower : ∀ k < 16, (Nat.digitChar k).toNat = if k < 10 then 48 + k else 87 + k := by decide
  have hupper : ∀ k < 16, 10 ≤ k → (Nat.digitChar k).toUpper.toNat = 55 + k := by decide
  have hbounds : ∀ low high : Char, low ≤ c ∧ c ≤ high → low.toNat ≤ c.toNat ∧ c.toNat ≤ high.toNat := by
    intro low high h
    exact h
  unfold hexValue? at h
  split_ifs at h with hdigit hsmall hlarge
  · have hrange := hbounds '0' '9' (by simpa [Char.isDigit, Char.le_def] using hdigit)
    have h0 : '0'.toNat = 48 := rfl
    have h9 : '9'.toNat = 57 := rfl
    obtain rfl := Option.some.inj h
    refine ⟨by omega, .inl (Char.toNat_inj.1 ?_)⟩
    rw [hlower _ (by omega), if_pos (by omega)]
    omega
  · have hrange := hbounds 'a' 'f' hsmall
    have ha : 'a'.toNat = 97 := rfl
    have hf : 'f'.toNat = 102 := rfl
    obtain rfl := Option.some.inj h
    refine ⟨by omega, .inl (Char.toNat_inj.1 ?_)⟩
    rw [hlower _ (by omega), if_neg (by omega)]
    omega
  · have hrange := hbounds 'A' 'F' hlarge
    have ha : 'A'.toNat = 65 := rfl
    have hf : 'F'.toNat = 70 := rfl
    obtain rfl := Option.some.inj h
    refine ⟨by omega, .inr (Char.toNat_inj.1 ?_)⟩
    rw [hupper _ (by omega) (by omega)]
    omega

theorem append_of_readCodeUnit {cs rest : List Char} {n : Nat} (h : readCodeUnit cs = .ok n rest) :
    ∃ digits, cs = digits ++ rest ∧ IsCodeUnit digits n := by
  unfold readCodeUnit at h
  split at h
  · next a b c d tail =>
    split at h
    · next unit hunit =>
      injection h with hn hrest
      subst hn hrest
      simp only [codeUnit?, Option.bind_eq_bind, Option.bind_eq_some_iff, Option.pure_def, Option.some.injEq] at hunit
      obtain ⟨i, hi, j, hj, k, hk, l, hl, rfl⟩ := hunit
      exact ⟨[a, b, c, d], rfl, .digits (isHexDigit_of_hexValue? hi) (isHexDigit_of_hexValue? hj)
        (isHexDigit_of_hexValue? hk) (isHexDigit_of_hexValue? hl)⟩
    · cases h
  · split at h <;> cases h

theorem IsCodeUnit.lt {digits : List Char} {n : Nat} (h : IsCodeUnit digits n) : n < 0x10000 := by
  obtain ⟨⟨ha, -⟩, ⟨hb, -⟩, ⟨hc, -⟩, ⟨hd, -⟩⟩ := h
  omega

theorem toNat_ofNat {n : Nat} (h : n < 0xD800 ∨ 0xDFFF < n ∧ n < 0x110000) : (Char.ofNat n).toNat = n := by
  rw [Char.ofNat, dif_pos h]
  rfl

/-- A character beyond the first 65536 and its two code units. -/
theorem toNat_charOfPair {leading trailing : Nat} (hleading : isLeading leading) (htrailing : isTrailing trailing) :
    0x10000 ≤ (charOfPair leading trailing).toNat ∧
      leading = 0xD800 + ((charOfPair leading trailing).toNat - 0x10000) / 0x400 ∧
      trailing = 0xDC00 + ((charOfPair leading trailing).toNat - 0x10000) % 0x400 := by
  simp only [isLeading, isTrailing, Bool.and_eq_true, decide_eq_true_eq] at hleading htrailing
  have hvalue : (charOfPair leading trailing).toNat = 0x10000 + (leading - 0xD800) * 0x400 + (trailing - 0xDC00) :=
    toNat_ofNat (by omega)
  rw [hvalue]
  omega

theorem append_of_readTrailing {leading : Nat} {cs rest : List Char} {c : Char}
    (h : readTrailing leading cs = .ok c rest) : ∃ digits trailing, cs = '\\' :: 'u' :: (digits ++ rest) ∧
      IsCodeUnit digits trailing ∧ isTrailing trailing ∧ c = charOfPair leading trailing := by
  unfold readTrailing at h
  split at h
  · cases h
  · cases h
  · obtain ⟨trailing, mid, hunit, hnext⟩ := Parsed.andThen_eq_ok_iff.1 h
    obtain ⟨digits, rfl, hdigits⟩ := append_of_readCodeUnit hunit
    split at hnext
    · next htrailing =>
      injection hnext with hc hrest
      subst hrest
      exact ⟨digits, trailing, rfl, hdigits, htrailing, hc.symm⟩
    · cases hnext
  · cases h

theorem spells_of_readNumbered {cs rest : List Char} {c : Char} (h : readNumbered cs = .ok c rest) :
    ∃ piece, '\\' :: 'u' :: cs = piece ++ rest ∧ Spells piece c := by
  obtain ⟨unit, mid, hunit, hnext⟩ := Parsed.andThen_eq_ok_iff.1 h
  obtain ⟨first, rfl, hfirst⟩ := append_of_readCodeUnit hunit
  have hlt := hfirst.lt
  split at hnext
  · cases hnext
  · next htrailing =>
    split at hnext
    · next hleading =>
      obtain ⟨second, trailing, rfl, hsecond, hpair, hc⟩ := append_of_readTrailing hnext
      obtain ⟨hlarge, hupper, hlower⟩ := toNat_charOfPair hleading hpair
      rw [← hc] at hlarge hupper hlower
      rw [hupper] at hfirst
      rw [hlower] at hsecond
      refine ⟨_, ?_, .pair hlarge hfirst hsecond⟩
      simp
    · next hleading =>
      injection hnext with hc hrest
      subst hc hrest
      have hvalid : unit < 0xD800 ∨ 0xDFFF < unit ∧ unit < 0x110000 := by
        simp only [isLeading, isTrailing, Bool.and_eq_true, decide_eq_true_eq] at hleading htrailing
        omega
      refine ⟨'\\' :: 'u' :: first, rfl, .unit ?_⟩
      rwa [toNat_ofNat hvalid]

theorem mem_letterEscapes {letter c : Char} (h : escapedChar? letter = some c) : (letter, c) ∈ letterEscapes := by
  unfold escapedChar? at h
  split_ifs at h with hsame hb hf hn hr ht <;> obtain rfl := Option.some.inj h
  · rcases hsame with rfl | rfl | rfl <;> simp [letterEscapes]
  all_goals simp [*, letterEscapes]

theorem spells_of_readEscape {cs rest : List Char} {c : Char} (h : readEscape cs = .ok c rest) :
    ∃ piece, '\\' :: cs = piece ++ rest ∧ Spells piece c := by
  unfold readEscape at h
  split at h
  · cases h
  · next letter tail =>
    split at h
    · next hu =>
      subst hu
      exact spells_of_readNumbered h
    · split at h
      · next char hchar =>
        injection h with hc hrest
        subst hc hrest
        exact ⟨['\\', letter], rfl, .letter (mem_letterEscapes hchar)⟩
      · cases h

theorem spells_of_readChar? {cs rest : List Char} {c : Option Char} (h : readChar? cs = .ok c rest) :
    (c = none ∧ cs = '"' :: rest) ∨ ∃ char piece, c = some char ∧ cs = piece ++ rest ∧ Spells piece char := by
  unfold readChar? at h
  split at h
  · cases h
  · next d tail =>
    split_ifs at h with hquote hbackslash hcontrol
    · injection h with hc hrest
      exact .inl ⟨hc.symm, by rw [hquote, hrest]⟩
    · obtain ⟨char, hread, rfl⟩ := Parsed.map_eq_ok_iff.1 h
      obtain ⟨piece, happend, hspells⟩ := spells_of_readEscape hread
      exact .inr ⟨char, piece, rfl, by rw [hbackslash, happend], hspells⟩
    · cases h
    · injection h with hc hrest
      subst hrest
      exact .inr ⟨d, [d], hc.symm, rfl, .plain ⟨hquote, hbackslash, hcontrol⟩⟩

theorem spellsAll_of_readChars {cs text rest : List Char} (h : readChars cs = .ok text rest) :
    ∃ body, cs = body ++ '"' :: rest ∧ SpellsAll body text := by
  fun_induction readChars cs generalizing text with
  | case1 cs cause hchar => cases h
  | case2 cs tail hchar =>
    injection h with htext hrest
    subst htext hrest
    obtain ⟨-, rfl⟩ | ⟨char, piece, heq, -⟩ := spells_of_readChar? hchar
    · exact ⟨[], rfl, .nil⟩
    · cases heq
  | case3 cs c tail hchar _ ih =>
    obtain ⟨text', hread, rfl⟩ := Parsed.map_eq_ok_iff.1 h
    obtain ⟨body, rfl, hbody⟩ := ih hread
    obtain ⟨heq, -⟩ | ⟨char, piece, heq, rfl, hpiece⟩ := spells_of_readChar? hchar
    · cases heq
    · obtain rfl := Option.some.inj heq
      exact ⟨piece ++ body, by rw [List.append_assoc], .cons hpiece hbody⟩

theorem isLiteral_of_readString {cs rest : List Char} {s : String} (h : readString cs = .ok s rest) :
    ∃ literal, '"' :: cs = literal ++ rest ∧ IsLiteral literal s := by
  obtain ⟨text, hread, rfl⟩ := Parsed.map_eq_ok_iff.1 h
  obtain ⟨body, rfl, hbody⟩ := spellsAll_of_readChars hread
  refine ⟨'"' :: (body ++ ['"']), by simp, .quoted ?_⟩
  rwa [String.toList_ofList]

/-! ### Arrays -/

variable {α : Type} {Denotes : List Char → α → Prop}

/-- In front of what it leaves, the reader has found white space and a text that denotes its answer. -/
def Accepts (read : List Char → Parsed α) (Denotes : List Char → α → Prop) : Prop :=
  ∀ cs value rest, read cs = .ok value rest →
    ∃ gap text, cs = gap ++ (text ++ rest) ∧ IsGap gap ∧ Denotes text value

theorem isGap_append {gap gap' : List Char} (h : IsGap gap) (h' : IsGap gap') : IsGap (gap ++ gap') :=
  fun c hc => (List.mem_append.1 hc).elim (h c) (h' c)

/-- White space in front belongs to what stands before the first part. -/
theorem IsSeparated.gap_append {ι : Type} {IsPart : ι → List Char → Prop} {xs : List ι} {gap inner : List Char}
    (hgap : IsGap gap) (h : IsSeparated IsPart xs inner) : IsSeparated IsPart xs (gap ++ inner) := by
  cases h with
  | nil hbefore => exact .nil (isGap_append hgap hbefore)
  | last hbefore hpart hafter =>
    rw [← List.append_assoc]
    exact .last (isGap_append hgap hbefore) hpart hafter
  | cons hbefore hpart hafter hmore =>
    rw [← List.append_assoc]
    exact .cons (isGap_append hgap hbefore) hpart hafter hmore

/-- The parts may be listed by more than what they stand for. -/
theorem IsSeparated.exists_map {ι κ : Type} {IsPart : ι → List Char → Prop} {IsPart' : κ → List Char → Prop}
    {Good : κ → Prop} {f : κ → ι} (hpart : ∀ x part, IsPart x part → ∃ y, f y = x ∧ Good y ∧ IsPart' y part)
    {xs : List ι} {inner : List Char} (h : IsSeparated IsPart xs inner) :
    ∃ ys, ys.map f = xs ∧ (∀ y ∈ ys, Good y) ∧ IsSeparated IsPart' ys inner := by
  induction h with
  | nil hgap => exact ⟨[], rfl, by simp, .nil hgap⟩
  | last hbefore hx hafter =>
    obtain ⟨y, rfl, hgood, hy⟩ := hpart _ _ hx
    exact ⟨[y], rfl, by simpa using hgood, .last hbefore hy hafter⟩
  | cons hbefore hx hafter _ ih =>
    obtain ⟨y, rfl, hgood, hy⟩ := hpart _ _ hx
    obtain ⟨ys, hmap, hall, hmore⟩ := ih
    obtain ⟨z, zs, rfl, -, -⟩ := List.map_eq_cons_iff.1 hmap
    refine ⟨y :: z :: zs, ?_, List.forall_mem_cons.2 ⟨hgood, hall⟩, .cons hbefore hy hafter hmore⟩
    rw [List.map_cons, hmap]

theorem isSeparated_of_readItems {item : List Char → Parsed α} (hitem : Accepts item Denotes) {bound : Nat}
    {cs rest : List Char} {values : List α} (h : readItems item bound cs = .ok values rest) :
    values ≠ [] ∧ ∃ inner, cs = inner ++ ']' :: rest ∧
      IsSeparated (fun value text => Denotes text value) values inner := by
  induction bound generalizing cs values with
  | zero => cases h
  | succ bound ih =>
    obtain ⟨x, mid, hx, hnext⟩ := Parsed.andThen_eq_ok_iff.1 h
    obtain ⟨before, text, rfl, hbefore, htext⟩ := hitem _ _ _ hx
    obtain ⟨after, hafter, hmid⟩ := exists_gap_append mid
    split at hnext
    · cases hnext
    · next hskip =>
      injection hnext with hvalues hrest
      subst hvalues hrest
      rw [hskip] at hmid
      refine ⟨List.cons_ne_nil _ _, before ++ (text ++ after), ?_, .last hbefore htext hafter⟩
      rw [hmid]
      simp only [List.append_assoc]
    · next more hskip =>
      obtain ⟨others, hothers, rfl⟩ := Parsed.map_eq_ok_iff.1 hnext
      obtain ⟨hne, inner, rfl, hinner⟩ := ih hothers
      obtain ⟨y, ys, rfl⟩ := List.exists_cons_of_ne_nil hne
      rw [hskip] at hmid
      refine ⟨List.cons_ne_nil _ _, before ++ (text ++ (after ++ ',' :: inner)), ?_,
        .cons hbefore htext hafter hinner⟩
      rw [hmid]
      simp only [List.append_assoc, List.cons_append]
    · cases hnext

theorem isArray_of_readArray {item : List Char → Parsed α} (hitem : Accepts item Denotes) {cs rest : List Char}
    {values : List α} (h : readArray item cs = .ok values rest) :
    ∃ text, '[' :: cs = text ++ rest ∧ IsArray (fun value text => Denotes text value) values text := by
  obtain ⟨gap, hgap, hcs⟩ := exists_gap_append cs
  have hinner : ∃ inner, cs = inner ++ ']' :: rest ∧
      IsSeparated (fun value text => Denotes text value) values inner := by
    unfold readArray at h
    split at h
    · cases h
    · next hskip =>
      injection h with hvalues hrest
      subst hvalues hrest
      exact ⟨gap, by rwa [hskip] at hcs, .nil hgap⟩
    · obtain ⟨-, inner, happend, hinner⟩ := isSeparated_of_readItems hitem h
      refine ⟨gap ++ inner, ?_, hinner.gap_append hgap⟩
      rw [List.append_assoc, ← happend]
      exact hcs
  obtain ⟨inner, rfl, hinner⟩ := hinner
  exact ⟨_, by simp, .brackets hinner⟩

/-! ### Objects -/

/-- The entries that remain of the members of an object. -/
def gather (members start : Entries α) : Entries α :=
  members.foldl (fun entries member => entries.insert member.1 member.2) start

/-- Of the members with the same key, the last one counts. -/
theorem get?_gather (key : String) (members : Entries α) :
    Entries.get? key (gather members []) = Entries.get? key members.reverse := by
  induction members using List.reverseRecOn with
  | nil => rfl
  | append_singleton members member ih =>
    rw [gather, List.foldl_append, List.foldl_cons, List.foldl_nil, Entries.get?_insert, List.reverse_append]
    show _ = if member.1 = key then some member.2 else Entries.get? key members.reverse
    rw [← ih]
    rfl

theorem nodup_keys_gather (members : Entries α) : (Entries.keys (gather members [])).Nodup := by
  induction members using List.reverseRecOn with
  | nil => exact List.nodup_nil
  | append_singleton members member ih =>
    rw [gather, List.foldl_append]
    exact Entries.nodup_keys_insert _ _ ih

theorem isLiteral_of_readKey {cs rest : List Char} {key : String} (h : readKey cs = .ok key rest) :
    ∃ gap literal, cs = gap ++ (literal ++ rest) ∧ IsGap gap ∧ IsLiteral literal key := by
  obtain ⟨gap, hgap, hcs⟩ := exists_gap_append cs
  unfold readKey at h
  split at h
  · cases h
  · next hskip =>
    obtain ⟨literal, happend, hliteral⟩ := isLiteral_of_readString h
    exact ⟨gap, literal, by rwa [hskip, happend] at hcs, hgap, hliteral⟩
  · cases h

theorem append_of_readColon {cs rest : List Char} (h : readColon cs = .ok () rest) :
    ∃ gap, cs = gap ++ ':' :: rest ∧ IsGap gap := by
  obtain ⟨gap, hgap, hcs⟩ := exists_gap_append cs
  unfold readColon at h
  split at h
  · cases h
  · next hskip =>
    injection h with _ hrest
    subst hrest
    exact ⟨gap, by rwa [hskip] at hcs, hgap⟩
  · cases h

/-- A key and what `readEntry` reads behind it. -/
theorem isEntry_of_readEntry {value : List Char → Parsed α} (hvalue : Accepts value Denotes)
    {cs mid rest : List Char} {key : String} {start entries : Entries α} (hkey : readKey cs = .ok key mid)
    (h : readEntry value start key mid = .ok entries rest) :
    ∃ gap text x, cs = gap ++ (text ++ rest) ∧ IsGap gap ∧
      IsEntry Prod.fst (fun member text => Denotes text member.2) (key, x) text ∧ entries = start.insert key x := by
  obtain ⟨gap, literal, rfl, hgap, hliteral⟩ := isLiteral_of_readKey hkey
  obtain ⟨_, mid', hcolon, hnext⟩ := Parsed.andThen_eq_ok_iff.1 h
  obtain ⟨before, rfl, hbefore⟩ := append_of_readColon hcolon
  obtain ⟨x, hx, hentries⟩ := Parsed.map_eq_ok_iff.1 hnext
  obtain ⟨after, text, rfl, hafter, htext⟩ := hvalue _ _ _ hx
  refine ⟨gap, _, x, ?_, hgap, .colon hliteral hbefore hafter htext, hentries.symm⟩
  simp only [List.append_assoc, List.cons_append]

theorem isSeparated_of_readMembers {value : List Char → Parsed α} (hvalue : Accepts value Denotes) {bound : Nat}
    {cs rest : List Char} {start entries : Entries α}
    (h : readMembers (readEntry value) bound start cs = .ok entries rest) :
    ∃ members inner, members ≠ [] ∧ cs = inner ++ '\x7d' :: rest ∧ entries = gather members start ∧
      IsSeparated (IsEntry Prod.fst fun member text => Denotes text member.2) members inner := by
  induction bound generalizing cs start with
  | zero => cases h
  | succ bound ih =>
    obtain ⟨key, mid, hkey, hnext⟩ := Parsed.andThen_eq_ok_iff.1 h
    obtain ⟨gathered, mid', hmember, hlast⟩ := Parsed.andThen_eq_ok_iff.1 hnext
    obtain ⟨before, text, x, rfl, hbefore, htext, rfl⟩ := isEntry_of_readEntry hvalue hkey hmember
    obtain ⟨after, hafter, hmid⟩ := exists_gap_append mid'
    split at hlast
    · cases hlast
    · next hskip =>
      injection hlast with hentries hrest
      subst hentries hrest
      rw [hskip] at hmid
      refine ⟨[(key, x)], before ++ (text ++ after), List.cons_ne_nil _ _, ?_, rfl,
        .last hbefore htext hafter⟩
      rw [hmid]
      simp only [List.append_assoc]
    · next more hskip =>
      obtain ⟨others, inner, hne, rfl, rfl, hinner⟩ := ih hlast
      obtain ⟨y, ys, rfl⟩ := List.exists_cons_of_ne_nil hne
      rw [hskip] at hmid
      refine ⟨(key, x) :: y :: ys, before ++ (text ++ (after ++ ',' :: inner)), List.cons_ne_nil _ _, ?_, rfl,
        .cons hbefore htext hafter hinner⟩
      rw [hmid]
      simp only [List.append_assoc, List.cons_append]
    · cases hlast

theorem isObject_of_readObject {value : List Char → Parsed α} (hvalue : Accepts value Denotes)
    {cs rest : List Char} {entries : Entries α} (h : readObject (readEntry value) [] cs = .ok entries rest) :
    ∃ members text, '\x7b' :: cs = text ++ rest ∧ entries = gather members [] ∧
      IsRecord Prod.fst (fun member text => Denotes text member.2) members text := by
  obtain ⟨gap, hgap, hcs⟩ := exists_gap_append cs
  have hinner : ∃ members inner, cs = inner ++ '\x7d' :: rest ∧ entries = gather members [] ∧
      IsSeparated (IsEntry Prod.fst fun member text => Denotes text member.2) members inner := by
    unfold readObject at h
    split at h
    · cases h
    · next hskip =>
      injection h with hentries hrest
      subst hentries hrest
      exact ⟨[], gap, by rwa [hskip] at hcs, rfl, .nil hgap⟩
    · obtain ⟨members, inner, -, happend, hentries, hinner⟩ := isSeparated_of_readMembers hvalue h
      refine ⟨members, gap ++ inner, ?_, hentries, hinner.gap_append hgap⟩
      rw [List.append_assoc, ← happend]
      exact hcs
  obtain ⟨members, inner, rfl, hentries, hinner⟩ := hinner
  exact ⟨members, _, by simp, hentries, .braces hinner⟩

/-! ### Values and texts -/

/-- The forms of values and what they denote, given how elements and entries are read. -/
inductive IsForm (shape : Shape α) (Denotes : List Char → α → Prop) : List Char → α → Prop
  | null : IsForm shape Denotes ['n', 'u', 'l', 'l'] shape.null
  | true : IsForm shape Denotes ['t', 'r', 'u', 'e'] (shape.bool true)
  | false : IsForm shape Denotes ['f', 'a', 'l', 's', 'e'] (shape.bool false)
  | number {cs : List Char} {numeral : Numeral} {value : α} : IsWritten numeral cs →
    shape.numeral numeral = some value → IsForm shape Denotes cs value
  | string {cs : List Char} {s : String} : IsLiteral cs s → IsForm shape Denotes cs (shape.string s)
  | array {cs : List Char} {items : List α} : IsArray (fun item text => Denotes text item) items cs →
    IsForm shape Denotes cs (shape.array items)
  | object {cs : List Char} {members : Entries α} :
    IsRecord Prod.fst (fun member text => Denotes text member.2) members cs →
    IsForm shape Denotes cs (shape.object (gather members []))

/-- One step of the induction on the nesting. -/
theorem accepts_readValue_of_inner {shape : Shape α} {depth : Nat}
    (hforms : ∀ cs value, IsForm shape Denotes cs value → Denotes cs value)
    (hinner : ∀ inner, depth = inner + 1 → Accepts (readValue shape inner) Denotes) :
    Accepts (readValue shape depth) Denotes := by
  intro cs value rest h
  obtain ⟨gap, hgap, hcs⟩ := exists_gap_append cs
  suffices hform : ∃ text, skipBlank cs = text ++ rest ∧ IsForm shape Denotes text value by
    obtain ⟨text, htext, hform⟩ := hform
    exact ⟨gap, text, by rw [← htext]; exact hcs, hgap, hforms _ _ hform⟩
  clear hcs hgap
  rw [readValue] at h
  generalize skipBlank cs = cs at h ⊢
  split at h
  · cases h
  · obtain ⟨_, hword, rfl⟩ := Parsed.map_eq_ok_iff.1 h
    exact ⟨_, by rw [append_of_readWord hword]; rfl, .null⟩
  · obtain ⟨_, hword, rfl⟩ := Parsed.map_eq_ok_iff.1 h
    exact ⟨_, by rw [append_of_readWord hword]; rfl, .true⟩
  · obtain ⟨_, hword, rfl⟩ := Parsed.map_eq_ok_iff.1 h
    exact ⟨_, by rw [append_of_readWord hword]; rfl, .false⟩
  · obtain ⟨s, hstring, rfl⟩ := Parsed.map_eq_ok_iff.1 h
    obtain ⟨literal, happend, hliteral⟩ := isLiteral_of_readString hstring
    exact ⟨literal, happend, .string hliteral⟩
  · split at h
    · cases h
    · next inner =>
      obtain ⟨items, harray, rfl⟩ := Parsed.map_eq_ok_iff.1 h
      obtain ⟨text, happend, htext⟩ := isArray_of_readArray (hinner inner rfl) harray
      exact ⟨text, happend, .array htext⟩
  · split at h
    · cases h
    · next inner =>
      obtain ⟨entries, hobject, rfl⟩ := Parsed.map_eq_ok_iff.1 h
      obtain ⟨members, text, happend, rfl, htext⟩ := isObject_of_readObject (hinner inner rfl) hobject
      exact ⟨text, happend, .object htext⟩
  · split at h
    · obtain ⟨numeral, mid, hnumeral, hshape⟩ := Parsed.andThen_eq_ok_iff.1 h
      obtain ⟨number, happend, hnumber⟩ := append_of_readNumeral hnumeral
      split at hshape
      · next hvalue =>
        injection hshape with hx hrest
        subst hx hrest
        exact ⟨number, happend, .number hnumber hvalue⟩
      · cases hshape
    · cases h

/-- If the forms denote what they are read as, then so do all values. -/
theorem accepts_readValue {shape : Shape α} (hforms : ∀ cs value, IsForm shape Denotes cs value → Denotes cs value)
    (depth : Nat) : Accepts (readValue shape depth) Denotes := by
  induction depth with
  | zero => exact accepts_readValue_of_inner hforms fun inner heq => absurd heq (Nat.succ_ne_zero inner).symm
  | succ depth ih =>
    refine accepts_readValue_of_inner hforms fun inner heq => ?_
    obtain rfl := Nat.succ.inj heq
    exact ih

/-- A text that is read is one value with white space around it. -/
theorem exists_of_readText {reader : Reader α} (hreader : Accepts (reader nestingLimit) Denotes) {text : String}
    {value : α} (h : readText reader text = .ok value) :
    ∃ before body after, text.toList = before ++ (body ++ after) ∧ IsGap before ∧ IsGap after ∧
      Denotes body value := by
  unfold readText at h
  split at h
  · next x rest hread =>
    split at h
    · next hend =>
      obtain rfl := Except.ok.inj h
      obtain ⟨before, body, happend, hbefore, hbody⟩ := hreader _ _ _ hread
      refine ⟨before, body, rest, happend, hbefore, fun c hc => ?_, hbody⟩
      obtain ⟨gap, hgap, hrest⟩ := exists_gap_append rest
      rw [List.isEmpty_iff.1 hend, List.append_nil] at hrest
      exact hgap c (hrest ▸ hc)
    · cases h
  · cases h

end ResourceGraph.Json
