import Mathlib.Data.List.Forall2
import ResourceGraph.Json.Typed
import ResourceGraph.Json.Writer

/-!
# Reading written JSON

`Reads layout reader depth tree value` says that a reader takes the written form of a tree for a value,
whatever white space stands in front of it and whatever follows it. It holds of strings (`reads_string`),
goes over from the elements to an array (`reads_array`) and from the fields to a record (`reads_record`), so
a type whose reader is built from these is read back from its JSON form in every layout.

A record is read field by field into a draft. `Gathers` says what becomes of the draft, entry by entry.
-/

namespace ResourceGraph.Json

/-! ### White space -/

def IsGap (cs : List Char) : Prop :=
  ∀ c ∈ cs, isBlank c

/-- What may follow a value: no number goes on with it. -/
def EndsValue (rest : List Char) : Prop :=
  ∀ c ∈ rest.head?, ¬ c.isDigit ∧ c ∉ ['.', 'e', 'E']

/-- The layout adds nothing but white space. -/
structure Layout.IsBlank (layout : Layout) : Prop where
  lineBreak : ∀ level, IsGap (layout.lineBreak level)
  afterColon : IsGap layout.afterColon

theorem isGap_nil : IsGap [] :=
  fun _ h => absurd h List.not_mem_nil

theorem Layout.isBlank_compact : Layout.compact.IsBlank where
  lineBreak _ := isGap_nil
  afterColon := isGap_nil

theorem Layout.isBlank_pretty : Layout.pretty.IsBlank where
  lineBreak level := by
    intro c hc
    rcases List.mem_cons.1 hc with rfl | hc
    · rfl
    · rw [(List.mem_replicate.1 hc).2]
      rfl
  afterColon := by
    intro c hc
    rw [List.mem_singleton.1 hc]
    rfl

theorem skipBlank_append {gap : List Char} (hgap : IsGap gap) (cs : List Char) :
    skipBlank (gap ++ cs) = skipBlank cs :=
  List.dropWhile_append_of_pos hgap

theorem skipBlank_cons {c : Char} (hc : isBlank c = false) (cs : List Char) : skipBlank (c :: cs) = c :: cs :=
  List.dropWhile_cons_of_neg (Bool.eq_false_iff.1 hc)

theorem skipBlank_gap_cons {gap : List Char} {c : Char} (hgap : IsGap gap) (hc : isBlank c = false)
    (cs : List Char) : skipBlank (gap ++ c :: cs) = c :: cs := by
  rw [skipBlank_append hgap, skipBlank_cons hc]

theorem endsValue_nil : EndsValue [] :=
  fun _ h => absurd h (Option.not_mem_none _)

theorem endsValue_cons {c : Char} (hc : c ∈ [',', ']', '\x7d']) (cs : List Char) : EndsValue (c :: cs) := by
  intro d hd
  obtain rfl : c = d := Option.some.inj hd
  simp only [List.mem_cons, List.not_mem_nil, or_false] at hc
  rcases hc with rfl | rfl | rfl <;> decide

theorem endsValue_gap_append {gap cs : List Char} (hgap : IsGap gap) (h : EndsValue cs) :
    EndsValue (gap ++ cs) := by
  cases gap with
  | nil => exact h
  | cons c gap =>
    intro d hd
    obtain rfl : c = d := Option.some.inj hd
    have hblank : isBlank c := hgap c (List.mem_cons_self ..)
    simp only [isBlank, Bool.or_eq_true, decide_eq_true_eq] at hblank
    rcases hblank with ((rfl | rfl) | rfl) | rfl <;> decide

/-! ### Strings -/

theorem hexValue?_hexDigit : ∀ n < 16, hexValue? (hexDigit n) = some n := by
  decide

theorem readNumbered_control {c : Char} (hc : c < ' ') (cs : List Char) :
    readNumbered ('0' :: '0' :: hexDigit (c.toNat / 16) :: hexDigit (c.toNat % 16) :: cs) = .ok c cs := by
  have hlt : c.toNat < 32 := hc
  have hzero : hexValue? '0' = some 0 := rfl
  have hunit : codeUnit? '0' '0' (hexDigit (c.toNat / 16)) (hexDigit (c.toNat % 16)) = some c.toNat := by
    rw [codeUnit?, hzero, hexValue?_hexDigit _ (by omega), hexValue?_hexDigit _ (by omega)]
    show some (((0 * 16 + 0) * 16 + c.toNat / 16) * 16 + c.toNat % 16) = some c.toNat
    congr 1
    omega
  have htrailing : isTrailing c.toNat = false := by
    simp only [isTrailing, Bool.and_eq_false_iff, decide_eq_false_iff_not]
    omega
  have hleading : isLeading c.toNat = false := by
    simp only [isLeading, Bool.and_eq_false_iff, decide_eq_false_iff_not]
    omega
  simp [readNumbered, readCodeUnit, hunit, htrailing, hleading, Char.ofNat_toNat]

theorem readChar?_writeChar (c : Char) (cs : List Char) : readChar? (writeChar c ++ cs) = .ok (some c) cs := by
  unfold writeChar
  split_ifs with hquote hbackslash hbackspace htab hline hpage hreturn hcontrol
  · rw [hquote]
    rfl
  · rw [hbackslash]
    rfl
  · rw [hbackspace]
    rfl
  · rw [htab]
    rfl
  · rw [hline]
    rfl
  · rw [hpage]
    rfl
  · rw [hreturn]
    rfl
  · have hnumbered := readNumbered_control hcontrol cs
    simp [readChar?, readEscape, hnumbered]
  · simp [readChar?, hquote, hbackslash, hcontrol]

theorem readChars_writeChar (c : Char) (cs : List Char) :
    readChars (writeChar c ++ cs) = (readChars cs).map (c :: ·) := by
  have hchar := readChar?_writeChar c cs
  rw [readChars]
  split <;> simp_all

theorem readChars_quote (rest : List Char) : readChars ('"' :: rest) = .ok [] rest := by
  have hquote : readChar? ('"' :: rest) = .ok none rest := rfl
  rw [readChars]
  split <;> simp_all

theorem readChars_flatMap (cs rest : List Char) :
    readChars (cs.flatMap writeChar ++ '"' :: rest) = .ok cs rest := by
  induction cs with
  | nil => exact readChars_quote rest
  | cons c cs ih =>
    rw [List.flatMap_cons, List.append_assoc, readChars_writeChar, ih]
    rfl

theorem readString_write (s : String) (rest : List Char) :
    readString (s.toList.flatMap writeChar ++ '"' :: rest) = .ok s rest := by
  rw [readString, readChars_flatMap, Parsed.map_ok, String.ofList_toList]

theorem writeString_append (s : String) (rest : List Char) :
    writeString s ++ rest = '"' :: (s.toList.flatMap writeChar ++ '"' :: rest) := by
  simp [writeString]

theorem readKey_write {gap : List Char} (hgap : IsGap gap) (key : String) (rest : List Char) :
    readKey (gap ++ (writeString key ++ rest)) = .ok key rest := by
  rw [readKey, writeString_append, skipBlank_gap_cons hgap rfl]
  exact readString_write key rest

theorem readColon_cons (rest : List Char) : readColon (':' :: rest) = .ok () rest := by
  rw [readColon, skipBlank_cons rfl]
  rfl

/-! ### Values -/

/-- The reader takes the written tree for `value`, whatever white space stands in front, and leaves what
follows. -/
structure Reads {α : Type} (layout : Layout) (reader : Reader α) (depth : Nat) (tree : Json) (value : α) :
    Prop where
  /-- No value begins like the end of an array. -/
  opens : ∀ level, ∃ c cs, write layout level tree = c :: cs ∧ isBlank c = false ∧ c ≠ ']'
  read : ∀ level gap rest, IsGap gap → EndsValue rest →
    reader depth (gap ++ (write layout level tree ++ rest)) = .ok value rest

variable {α : Type} {layout : Layout} {depth : Nat}

theorem Reads.map {β : Type} {reader : Reader α} {tree : Json} {value : α}
    (h : Reads layout reader depth tree value) (f : α → β) :
    Reads layout (fun depth cs => (reader depth cs).map f) depth tree (f value) where
  opens := h.opens
  read level gap rest hgap hrest := by rw [h.read level gap rest hgap hrest, Parsed.map_ok]

theorem readText_write {reader : Reader α} {tree : Json} {value : α}
    (h : Reads layout reader nestingLimit tree value) :
    readText reader (String.ofList (write layout 0 tree)) = .ok value := by
  have hread := h.read 0 [] [] isGap_nil endsValue_nil
  rw [List.nil_append, List.append_nil] at hread
  rw [readText, String.toList_ofList, hread]
  rfl

theorem reads_string (layout : Layout) (depth : Nat) (s : String) :
    Reads layout stringReader depth (.string s) s where
  opens level := ⟨'"', _, rfl, rfl, by decide⟩
  read level gap rest hgap hrest := by
    rw [write, writeString_append, stringReader, skipBlank_gap_cons hgap rfl]
    exact readString_write s rest

/-- A variant that is written as its name alone. -/
theorem reads_variant {variants : List (Variant α)} {variant : Variant α} {name : String} {value : α}
    (hfind : variants.find? (·.name == name) = some variant) (hbare : variant.bare = .ok value)
    (layout : Layout) (depth : Nat) : Reads layout (variantReader variants) depth (.string name) value where
  opens level := ⟨'"', _, rfl, rfl, by decide⟩
  read level gap rest hgap hrest := by
    rw [write, writeString_append, variantReader, skipBlank_gap_cons hgap rfl]
    simp only [readString_write, Parsed.andThen_ok, findVariant, hfind, hbare]

/-! ### Arrays -/

/-- What is written behind an element: the others, from a comma on. -/
def writeOthers (layout : Layout) (level : Nat) : List Json → List Char
  | [] => []
  | item :: items => ',' :: writeItems layout level (item :: items)

theorem writeItems_cons (layout : Layout) (level : Nat) (item : Json) (items : List Json) :
    writeItems layout level (item :: items) =
      layout.lineBreak level ++ (write layout level item ++ writeOthers layout level items) := by
  cases items <;> simp [writeItems, writeOthers]

theorem length_le_writeOthers (layout : Layout) (level : Nat) (items : List Json) :
    items.length ≤ (writeOthers layout level items).length := by
  induction items with
  | nil => exact Nat.le_refl _
  | cons item items ih =>
    rw [writeOthers, writeItems_cons]
    simp only [List.length_cons, List.length_append]
    omega

theorem readItems_close {item : List Char → Parsed α} {cs close rest : List Char} {value : α}
    (h : item cs = .ok value (close ++ ']' :: rest)) (hclose : IsGap close) (bound : Nat) :
    readItems item (bound + 1) cs = .ok [value] rest := by
  rw [readItems, h, Parsed.andThen_ok, skipBlank_gap_cons hclose rfl]
  rfl

theorem readItems_comma {item : List Char → Parsed α} {cs rest : List Char} {value : α}
    (h : item cs = .ok value (',' :: rest)) (bound : Nat) :
    readItems item (bound + 1) cs = (readItems item bound rest).map (value :: ·) := by
  rw [readItems, h, Parsed.andThen_ok, skipBlank_cons rfl]
  rfl

/-- From any element on, the elements are read up to the end of the array. -/
theorem readItems_write {reader : Reader α} (hlayout : layout.IsBlank) {items : List Json} {values : List α}
    (h : List.Forall₂ (Reads layout reader depth) items values) {item : Json} {value : α}
    (hitem : Reads layout reader depth item value) (level : Nat) {bound : Nat} (hbound : items.length ≤ bound)
    {gap close : List Char} (hgap : IsGap gap) (hclose : IsGap close) (rest : List Char) :
    readItems (reader depth) (bound + 1)
      (gap ++ (write layout level item ++ (writeOthers layout level items ++ (close ++ ']' :: rest)))) =
      .ok (value :: values) rest := by
  induction h generalizing item value bound gap with
  | nil =>
    have hend : EndsValue (close ++ ']' :: rest) :=
      endsValue_gap_append hclose (endsValue_cons (by decide) rest)
    exact readItems_close (hitem.read level gap _ hgap hend) hclose bound
  | @cons next nextValue others otherValues hnext hothers ih =>
    obtain ⟨bound, rfl⟩ := Nat.exists_eq_add_one_of_ne_zero (Nat.ne_of_gt (Nat.zero_lt_of_lt hbound))
    have hread := hitem.read level gap _ hgap
      (endsValue_cons (c := ',') (by decide) (writeItems layout level (next :: others) ++ (close ++ ']' :: rest)))
    rw [writeOthers, List.cons_append, readItems_comma hread, writeItems_cons, List.append_assoc,
      List.append_assoc, ih hnext (Nat.le_of_succ_le_succ hbound) (hlayout.lineBreak level)]
    rfl

theorem readArray_of_skipBlank {item : List Char → Parsed α} {cs text : List Char} {c : Char}
    (h : skipBlank cs = c :: text) (hc : c ≠ ']') :
    readArray item cs = readItems item (text.length + 1) (c :: text) := by
  rw [readArray, h]
  split
  · next heq => cases heq
  · next heq => exact absurd (List.cons.inj heq).1 hc
  · rfl

theorem readArray_write {reader : Reader α} (hlayout : layout.IsBlank) {items : List Json} {values : List α}
    (h : List.Forall₂ (Reads layout reader depth) items values) (level : Nat) {close : List Char}
    (hclose : IsGap close) (rest : List Char) :
    readArray (reader depth) (writeItems layout level items ++ (close ++ ']' :: rest)) = .ok values rest := by
  cases h with
  | nil =>
    rw [writeItems, List.nil_append, readArray, skipBlank_gap_cons hclose rfl]
    rfl
  | @cons item value items values hitem hothers =>
    obtain ⟨c, cs, hwrite, hblank, hopens⟩ := hitem.opens level
    have hskip : skipBlank (writeItems layout level (item :: items) ++ (close ++ ']' :: rest)) =
        c :: (cs ++ (writeOthers layout level items ++ (close ++ ']' :: rest))) := by
      rw [writeItems_cons, List.append_assoc, List.append_assoc, hwrite, List.cons_append,
        skipBlank_gap_cons (hlayout.lineBreak level) hblank]
    have hbound : items.length ≤ (cs ++ (writeOthers layout level items ++ (close ++ ']' :: rest))).length := by
      have hothers := length_le_writeOthers layout level items
      simp only [List.length_append]
      omega
    have hread := readItems_write hlayout hothers hitem level hbound isGap_nil hclose rest
    rw [List.nil_append, hwrite, List.cons_append] at hread
    rw [readArray_of_skipBlank hskip hopens, hread]

theorem write_array (layout : Layout) (level : Nat) (items : List Json) :
    ∃ close, (layout.IsBlank → IsGap close) ∧
      write layout level (.array items) = '[' :: (writeItems layout (level + 1) items ++ (close ++ [']'])) := by
  cases items with
  | nil => exact ⟨[], fun _ => isGap_nil, rfl⟩
  | cons item items => exact ⟨layout.lineBreak level, fun h => h.lineBreak level, by simp [write]⟩

/-- An array is read if its elements are. -/
theorem reads_array {reader : Reader α} (hlayout : layout.IsBlank) {items : List Json} {values : List α}
    (h : List.Forall₂ (Reads layout reader depth) items values) :
    Reads layout (listReader reader) (depth + 1) (.array items) values where
  opens level := by
    obtain ⟨close, -, hwrite⟩ := write_array layout level items
    exact ⟨'[', _, hwrite, rfl, by decide⟩
  read level gap rest hgap hrest := by
    obtain ⟨close, hclose, hwrite⟩ := write_array layout level items
    have hread := readArray_write hlayout h (level + 1) (hclose hlayout) rest
    rw [hwrite, List.cons_append, listReader, skipBlank_gap_cons hgap rfl]
    simpa [openContainer] using hread

/-! ### Objects -/

variable {σ : Type}

/-- What is written behind an entry: the others, from a comma on. -/
def writeOtherEntries (layout : Layout) (level : Nat) : List (String × Json) → List Char
  | [] => []
  | entry :: entries => ',' :: writeEntries layout level (entry :: entries)

theorem writeEntries_cons (layout : Layout) (level : Nat) (key : String) (tree : Json)
    (entries : List (String × Json)) :
    writeEntries layout level ((key, tree) :: entries) =
      layout.lineBreak level ++ (writeString key ++ (':' :: (layout.afterColon ++ (write layout level tree ++
        writeOtherEntries layout level entries)))) := by
  cases entries <;> simp [writeEntries, writeOtherEntries]

/-- Behind its key, an entry takes what was gathered from `gathered` to `next`. -/
def ReadsEntry (layout : Layout) (member : σ → String → List Char → Parsed σ) (gathered : σ)
    (entry : String × Json) (next : σ) : Prop :=
  ∀ level rest, EndsValue rest →
    member gathered entry.1 (':' :: (layout.afterColon ++ (write layout level entry.2 ++ rest))) = .ok next rest

/-- Reading the entries one after the other takes what was gathered from `start` to `final`. -/
inductive Gathers (layout : Layout) (member : σ → String → List Char → Parsed σ) :
    σ → List (String × Json) → σ → Prop
  | nil {gathered : σ} : Gathers layout member gathered [] gathered
  | cons {gathered next final : σ} {entry : String × Json} {entries : List (String × Json)} :
    ReadsEntry layout member gathered entry next → Gathers layout member next entries final →
    Gathers layout member gathered (entry :: entries) final

theorem readMembers_close {member : σ → String → List Char → Parsed σ} {cs mid close rest : List Char}
    {key : String} {gathered next : σ} (hkey : readKey cs = .ok key mid)
    (h : member gathered key mid = .ok next (close ++ '}' :: rest)) (hclose : IsGap close) (bound : Nat) :
    readMembers member (bound + 1) gathered cs = .ok next rest := by
  rw [readMembers, hkey, Parsed.andThen_ok, h, Parsed.andThen_ok, skipBlank_gap_cons hclose rfl]
  rfl

theorem readMembers_comma {member : σ → String → List Char → Parsed σ} {cs mid rest : List Char} {key : String}
    {gathered next : σ} (hkey : readKey cs = .ok key mid) (h : member gathered key mid = .ok next (',' :: rest))
    (bound : Nat) : readMembers member (bound + 1) gathered cs = readMembers member bound next rest := by
  rw [readMembers, hkey, Parsed.andThen_ok, h, Parsed.andThen_ok, skipBlank_cons rfl]
  rfl

/-- From any entry on, the entries are gathered up to the end of the object. -/
theorem readMembers_write {member : σ → String → List Char → Parsed σ} (hlayout : layout.IsBlank)
    {gathered next final : σ} {key : String} {tree : Json} {entries : List (String × Json)}
    (hentry : ReadsEntry layout member gathered (key, tree) next) (h : Gathers layout member next entries final)
    (level : Nat) {bound : Nat} (hbound : entries.length ≤ bound) {gap close : List Char} (hgap : IsGap gap)
    (hclose : IsGap close) (rest : List Char) :
    readMembers member (bound + 1) gathered (gap ++ (writeString key ++ (':' :: (layout.afterColon ++
      (write layout level tree ++ (writeOtherEntries layout level entries ++ (close ++ '}' :: rest))))))) =
      .ok final rest := by
  induction h generalizing gathered key tree bound gap with
  | nil =>
    have hend : EndsValue (close ++ '}' :: rest) :=
      endsValue_gap_append hclose (endsValue_cons (by decide) rest)
    exact readMembers_close (readKey_write hgap key _) (hentry level _ hend) hclose bound
  | @cons _ _ _ other others hother _ ih =>
    obtain ⟨bound, rfl⟩ := Nat.exists_eq_add_one_of_ne_zero (Nat.ne_of_gt (Nat.zero_lt_of_lt hbound))
    have hread := hentry level _
      (endsValue_cons (c := ',') (by decide) (writeEntries layout level (other :: others) ++ (close ++ '}' :: rest)))
    have hmore := ih hother (Nat.le_of_succ_le_succ hbound) (hlayout.lineBreak level)
    rw [writeOtherEntries, List.cons_append, readMembers_comma (readKey_write hgap key _) hread, writeEntries_cons]
    simpa using hmore

theorem length_le_writeOtherEntries (layout : Layout) (level : Nat) (entries : List (String × Json)) :
    entries.length ≤ (writeOtherEntries layout level entries).length := by
  induction entries with
  | nil => exact Nat.le_refl _
  | cons entry entries ih =>
    rw [writeOtherEntries, writeEntries_cons]
    simp only [List.length_cons, List.length_append]
    omega

theorem readObject_of_skipBlank {member : σ → String → List Char → Parsed σ} {cs text : List Char} {c : Char}
    (h : skipBlank cs = c :: text) (hc : c ≠ '}') (start : σ) :
    readObject member start cs = readMembers member (text.length + 1) start (c :: text) := by
  rw [readObject, h]
  split
  · next heq => cases heq
  · next heq => exact absurd (List.cons.inj heq).1 hc
  · rfl

theorem readObject_write {member : σ → String → List Char → Parsed σ} (hlayout : layout.IsBlank)
    {start final : σ} {entries : List (String × Json)} (h : Gathers layout member start entries final)
    (level : Nat) {close : List Char} (hclose : IsGap close) (rest : List Char) :
    readObject member start (writeEntries layout level entries ++ (close ++ '}' :: rest)) = .ok final rest := by
  cases h with
  | nil =>
    rw [writeEntries, List.nil_append, readObject, skipBlank_gap_cons hclose rfl]
    rfl
  | @cons _ next _ entry entries hentry hothers =>
    obtain ⟨key, tree⟩ := entry
    have hread (bound : Nat) (hbound : entries.length ≤ bound) :=
      readMembers_write hlayout hentry hothers level hbound isGap_nil hclose rest
    have hskip := skipBlank_gap_cons (c := '"') (hlayout.lineBreak level) rfl
    simp only [writeEntries_cons, writeString_append, List.nil_append, List.append_assoc,
      List.cons_append] at hread ⊢
    rw [readObject_of_skipBlank (hskip _) (by decide)]
    apply hread
    have hlength := length_le_writeOtherEntries layout level entries
    simp only [List.length_append, List.length_cons]
    omega

theorem write_object (layout : Layout) (level : Nat) (entries : List (String × Json)) :
    ∃ close, (layout.IsBlank → IsGap close) ∧
      write layout level (.object entries) =
        '{' :: (writeEntries layout (level + 1) entries ++ (close ++ ['}'])) := by
  cases entries with
  | nil => exact ⟨[], fun _ => isGap_nil, rfl⟩
  | cons entry entries => exact ⟨layout.lineBreak level, fun h => h.lineBreak level, by simp [write]⟩

/-- A variant that is written with its payload behind its name. -/
theorem reads_tagged {β : Type} (hlayout : layout.IsBlank) {variants : List (Variant α)} {name : String}
    {build : β → α} {payload : Reader β}
    (hfind : variants.find? (·.name == name) = some (.tagged name build payload)) {tree : Json} {value : β}
    (h : Reads layout payload depth tree value) :
    Reads layout (variantReader variants) (depth + 1) (.object [(name, tree)]) (build value) where
  opens level := by
    obtain ⟨close, -, hwrite⟩ := write_object layout level [(name, tree)]
    exact ⟨'{', _, hwrite, rfl, by decide⟩
  read level gap rest hgap hrest := by
    obtain ⟨close, hclose, hwrite⟩ := write_object layout level [(name, tree)]
    have hend : EndsValue (close ++ '}' :: rest) :=
      endsValue_gap_append (hclose hlayout) (endsValue_cons (by decide) rest)
    have hkey (cs : List Char) := readKey_write (hlayout.lineBreak (level + 1)) name cs
    have hpayload := h.read (level + 1) layout.afterColon _ hlayout.afterColon hend
    have htagged : readTagged variants depth
        (writeEntries layout (level + 1) [(name, tree)] ++ (close ++ '}' :: rest)) = .ok (build value) rest := by
      simp only [writeEntries_cons, writeOtherEntries, List.append_nil, List.append_assoc, List.cons_append]
      simp only [readTagged, hkey, Parsed.andThen_ok, findVariant, hfind, readColon_cons, Variant.tagged,
        hpayload, Parsed.map_ok, skipBlank_gap_cons (c := '}') (hclose hlayout) rfl]
    rw [hwrite, List.cons_append, variantReader, skipBlank_gap_cons hgap rfl]
    simpa [openContainer] using htagged

/-! ### Records -/

section
variable {ρ β : Type} {record : Record ρ α}

/-- A field that is not set yet is read into the draft. -/
theorem readsEntry_field (hlayout : layout.IsBlank) {key : String} {get : ρ → Option β} {set : ρ → β → ρ}
    {reader : Reader β} (hfind : record.fields.find? (·.key == key) = some (.of key get set reader)) {draft : ρ}
    (hunset : get draft = none) {tree : Json} {value : β} (h : Reads layout reader depth tree value) :
    ReadsEntry layout (record.readMember depth) draft (key, tree) (set draft value) := by
  intro level rest hrest
  have hread := h.read level layout.afterColon rest hlayout.afterColon hrest
  have hset : (Field.of key get set reader).isSet draft = false := by
    show (get draft).isSome = false
    rw [hunset]
    rfl
  simp only [Record.readMember, hfind, hset, readColon_cons, Parsed.andThen_ok]
  simp [Field.of, hread]

/-- A record is read if its entries fill a draft that is complete. -/
theorem reads_record (hlayout : layout.IsBlank) {entries : List (String × Json)} {value : α}
    (h : ∃ final, Gathers layout (record.readMember depth) record.start entries final ∧
      record.finish final = .ok value) :
    Reads layout record.reader (depth + 1) (.object entries) value where
  opens level := by
    obtain ⟨close, -, hwrite⟩ := write_object layout level entries
    exact ⟨'{', _, hwrite, rfl, by decide⟩
  read level gap rest hgap hrest := by
    obtain ⟨final, hgathers, hfinish⟩ := h
    obtain ⟨close, hclose, hwrite⟩ := write_object layout level entries
    have hread := readObject_write hlayout hgathers (level + 1) (hclose hlayout) rest
    rw [hwrite, List.cons_append, Record.reader, skipBlank_gap_cons hgap rfl]
    simp [openContainer, hread, Record.complete, hfinish]

end

end ResourceGraph.Json
