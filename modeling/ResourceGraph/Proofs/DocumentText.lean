import ResourceGraph.Document.Json
import ResourceGraph.Proofs.AcceptedJson
import ResourceGraph.Proofs.AgreeingReadings
import ResourceGraph.Proofs.DecimalSteps

/-!
# The ways to read a document

A text is read as a document directly, by way of a JSON tree, or by trial: the value is read as a `Content` that is
of no type yet, and the kinds of nodes are tried on it in their order, at every node. `readings_agree` states that
the three are the same, errors included, and what is written in a text that is read.
-/

namespace ResourceGraph

open Json (Numeral Forms)

/-! ### Trial -/

/-- A value whose type has not been decided. An object has all members that are written, keys repeated or not. -/
inductive Content
  | null
  | bool (value : Bool)
  | number (value : Json.Number)
  | string (value : String)
  | array (items : List Content)
  | object (members : List (String × Content))

namespace Content

def forms : Forms Content (List (String × Content)) where
  null := .null
  bool := .bool
  numeral numeral := (Json.Number.ofNumeral? numeral).map .number
  string := .string
  array := .array
  start := []
  extend members key value := members ++ [(key, value)]
  object := .object

def ofText? (text : String) : Except Json.ReadError Content :=
  Json.readText (Json.readForms forms) text

def asNull? : Content → Option Document
  | .null => some .null
  | _ => none

def asBool? : Content → Option Document
  | .bool value => some (.bool value)
  | _ => none

/-- Integers that have 64 bits with their sign. -/
def asInt? : Content → Option Document
  | .number (.natural value) =>
    if value.toNat ≤ Int64.maxValue.toInt then some (.int value.toInt64) else none
  | .number (.negative value _) => some (.int value)
  | _ => none

/-- Every number, an integer as the one nearest to it. -/
def asFloat? : Content → Option Document
  | .number (.natural value) => some (.float (.ofInt value.toNat))
  | .number (.negative value _) => some (.float (.ofInt value.toInt))
  | .number (.float value _) => some (.float value)
  | _ => none

def asString? : Content → Option Document
  | .string value => some (.string value)
  | _ => none

mutual

/-- The first kind of node that takes the content. -/
def document? (content : Content) : Option Document :=
  content.asNull? <|> content.asBool? <|> content.asInt? <|> content.asFloat? <|> content.asString? <|>
    content.asList? <|> content.asMap?
termination_by (sizeOf content, 1)

def asList? : Content → Option Document
  | .array items => (documents? items).map .list
  | _ => none
termination_by content => (sizeOf content, 0)

def asMap? : Content → Option Document
  | .object members => (entries? [] members).map .map
  | _ => none
termination_by content => (sizeOf content, 0)

def documents? : List Content → Option (List Document)
  | [] => some []
  | item :: items => do return (← document? item) :: (← documents? items)
termination_by items => (sizeOf items, 0)

/-- Adds the members to the entries gathered so far, each in its turn. -/
def entries? (gathered : Entries Document) : List (String × Content) → Option (Entries Document)
  | [] => some gathered
  | (key, value) :: members => do entries? (gathered.insert key (← document? value)) members
termination_by members => (sizeOf members, 0)

end

end Content

/-- Why reading by trial ends: the text is not JSON, or no kind of node takes it. -/
inductive TrialError
  | reading (cause : Json.ReadError)
  | noKind

/-- Reads a document by trial. -/
def Document.ofTextByTrial? (text : String) : Except TrialError Document := do
  let content ← (Content.ofText? text).mapError .reading
  match content.document? with
  | some document => .ok document
  | none => .error .noKind

/-! ### Numbers -/

/-- The integer in front of the point. -/
def Json.Numeral.toInt (numeral : Numeral) : Int :=
  if numeral.negative then -numeral.magnitude else numeral.magnitude

/-- The numeral is written as an integer that has 64 bits with its sign, and not as a negative zero. -/
structure Json.Numeral.IsInt64 (numeral : Numeral) (value : Int64) : Prop where
  fraction : numeral.fraction = none
  exponent : numeral.exponent = none
  not_negativeZero : ¬(numeral.negative ∧ numeral.magnitude = 0)
  toInt : value.toInt = numeral.toInt

namespace Document

section
variable {numeral : Numeral}

theorem isInteger_iff : numeral.isInteger ↔ numeral.fraction = none ∧ numeral.exponent = none := by
  rw [Numeral.isInteger, Bool.and_eq_true, Option.isNone_iff_eq_none, Option.isNone_iff_eq_none]

/-- The integer is found wherever it has 64 bits. -/
theorem isInt64_ofInt (hinteger : numeral.isInteger) (hzero : ¬(numeral.negative ∧ numeral.magnitude = 0))
    (hmin : -2 ^ 63 ≤ numeral.toInt) (hmax : numeral.toInt < 2 ^ 63) :
    numeral.IsInt64 (Int64.ofInt numeral.toInt) :=
  ⟨(isInteger_iff.1 hinteger).1, (isInteger_iff.1 hinteger).2, hzero, Int64.toInt_ofInt_of_le hmin hmax⟩

theorem ofNumeral?_eq_ite (numeral : Numeral) : ofNumeral? numeral =
    if numeral.isInteger ∧ ¬(numeral.negative ∧ numeral.toInt = 0) ∧
        Int64.minValue.toInt ≤ numeral.toInt ∧ numeral.toInt ≤ Int64.maxValue.toInt then
      some (.int (Int64.ofInt numeral.toInt))
    else numeral.toBinary64?.map .float :=
  rfl

theorem ofNumeral?_of_isInt64 {value : Int64} (h : numeral.IsInt64 value) :
    ofNumeral? numeral = some (.int value) := by
  have hinteger := isInteger_iff.2 ⟨h.fraction, h.exponent⟩
  have hmin : Int64.minValue.toInt ≤ numeral.toInt := by
    rw [← h.toInt]
    exact Int64.le_toInt value
  have hmax : numeral.toInt ≤ Int64.maxValue.toInt := by
    rw [← h.toInt]
    exact Int64.toInt_le value
  have hzero : ¬(numeral.negative ∧ numeral.toInt = 0) := by
    rintro ⟨hnegative, hzero⟩
    rw [Numeral.toInt, if_pos hnegative] at hzero
    exact h.not_negativeZero ⟨hnegative, by omega⟩
  have hvalue : Int64.ofInt numeral.toInt = value := by rw [← h.toInt, Int64.ofInt_toInt]
  rw [ofNumeral?_eq_ite, if_pos ⟨hinteger, hzero, hmin, hmax⟩, hvalue]

theorem ofNumeral?_of_not_isInt64 (h : ∀ value, ¬numeral.IsInt64 value) :
    ofNumeral? numeral = numeral.toBinary64?.map .float := by
  rw [ofNumeral?_eq_ite, if_neg]
  rintro ⟨hinteger, hzero, hmin, hmax⟩
  have hlow : Int64.minValue.toInt = -2 ^ 63 := rfl
  have hhigh : Int64.maxValue.toInt = 2 ^ 63 - 1 := rfl
  refine h _ (isInt64_ofInt hinteger (fun hnegative => hzero ⟨hnegative.1, ?_⟩) (by omega) (by omega))
  rw [Numeral.toInt, if_pos hnegative.1, hnegative.2]
  rfl

/-- The digits of a large integer are taken over as they are, if they have 64 bits. -/
theorem toBinary64?_of_isInteger (hinteger : numeral.isInteger) (hpositive : numeral.negative = false)
    (hpos : numeral.magnitude ≠ 0) (hsmall : numeral.magnitude < UInt64.size) :
    numeral.toBinary64? = some (.ofInt numeral.magnitude) := by
  obtain ⟨hfraction, hexponent⟩ := isInteger_iff.1 hinteger
  have hdigits : numeral.digits = numeral.magnitude := by
    rw [Numeral.digits, hfraction, Option.getD_none, List.append_nil, Numeral.magnitude]
  have hpower : numeral.power = 0 := by
    rw [Numeral.power, hfraction, hexponent]
    rfl
  have hfinite : (Binary64.nearest false numeral.magnitude 1).isFinite :=
    Binary64.isFinite_nearest false numeral.magnitude Nat.one_pos (k := 64) (by decide) (by simpa using hsmall)
  have hnot : ¬(Binary64.maxPowerOfTen : Int) < 0 := by decide
  have hint : Binary64.ofInt numeral.magnitude = Binary64.nearest false numeral.magnitude 1 := by
    rw [Binary64.ofInt, decide_eq_false (Int.not_lt.2 (Int.natCast_nonneg _)), Int.natAbs_natCast]
  rw [Numeral.toBinary64?, Numeral.leading_of_digits_lt (by rwa [hdigits]), hdigits, hpower, hpositive, hint,
    Binary64.ofDecimal?, if_neg hpos, if_neg hnot]
  exact if_pos hfinite

theorem map_ofNumber_ofFraction? :
    (Json.Number.ofFraction? numeral).map ofNumber = numeral.toBinary64?.map .float := by
  unfold Json.Number.ofFraction?
  split <;> simp [*, ofNumber]

/-- An integer that is read by way of the unsigned ones. -/
theorem ofNumber_natural {n : Nat} (hn : n < UInt64.size) : ofNumber (.natural (UInt64.ofNat n)) =
    if (n : Int) ≤ Int64.maxValue.toInt then .int (Int64.ofInt n) else .float (.ofInt n) := by
  rw [ofNumber, UInt64.toNat_ofNat_of_lt' hn, UInt64.toInt64_ofNat', Int64.ofInt_eq_ofNat]

theorem ofNegated?_of_le {n : Nat} (hpos : n ≠ 0) (hmin : -2 ^ 63 ≤ -(n : Int)) :
    ∃ h, Json.Number.ofNegated? n = some (.negative (Int64.ofInt (-n)) h) := by
  have hneg : Int64.ofInt (-n) < 0 := by
    rw [Int64.lt_iff_toInt_lt, Int64.toInt_ofInt_of_le hmin (by omega)]
    show -(n : Int) < 0
    omega
  exact ⟨hneg, dif_pos ⟨hmin, hneg⟩⟩

theorem ofNegated?_eq_none {n : Nat} (h : n = 0 ∨ -(n : Int) < -2 ^ 63) : Json.Number.ofNegated? n = none := by
  refine dif_neg ?_
  rintro ⟨hmin, hneg⟩
  have hlow : Int64.minValue.toInt = -2 ^ 63 := rfl
  rcases h with rfl | hlt
  · exact absurd hneg (by decide)
  · omega

theorem map_ofNumber_of_isInt64 {value : Int64} (h : numeral.IsInt64 value) :
    (Json.Number.ofNumeral? numeral).map ofNumber = some (.int value) := by
  have hinteger := isInteger_iff.2 ⟨h.fraction, h.exponent⟩
  have hmin := Int64.le_toInt value
  have hmax := Int64.toInt_lt value
  have hvalue : Int64.ofInt numeral.toInt = value := by rw [← h.toInt, Int64.ofInt_toInt]
  rw [h.toInt] at hmin hmax
  rw [Json.Number.ofNumeral?, hinteger]
  cases hsign : numeral.negative with
  | false =>
    have hint : numeral.toInt = numeral.magnitude := by rw [Numeral.toInt, hsign]; rfl
    rw [hint] at hmin hmax hvalue
    have hsize : UInt64.size = 2 ^ 64 := rfl
    have hhigh : Int64.maxValue.toInt = 2 ^ 63 - 1 := rfl
    dsimp only
    rw [if_pos (by omega), Option.map_some, ofNumber_natural (by omega), if_pos (by omega), hvalue]
  | true =>
    have hint : numeral.toInt = -numeral.magnitude := by rw [Numeral.toInt, hsign]; rfl
    rw [hint] at hmin hmax hvalue
    obtain ⟨hneg, hnegated⟩ := ofNegated?_of_le (fun hzero => h.not_negativeZero ⟨hsign, hzero⟩) hmin
    dsimp only
    rw [hnegated, ← hvalue]
    rfl

theorem map_ofNumber_of_not_isInt64 (h : ∀ value, ¬numeral.IsInt64 value) :
    (Json.Number.ofNumeral? numeral).map ofNumber = numeral.toBinary64?.map .float := by
  rw [Json.Number.ofNumeral?]
  cases hinteger : numeral.isInteger with
  | false => exact map_ofNumber_ofFraction?
  | true =>
  cases hsign : numeral.negative with
  | false =>
    have hint : numeral.toInt = numeral.magnitude := by rw [Numeral.toInt, hsign]; rfl
    have hlarge : ¬(numeral.magnitude : Int) ≤ Int64.maxValue.toInt := by
      intro hmax
      have hhigh : Int64.maxValue.toInt = 2 ^ 63 - 1 := rfl
      exact h _ (isInt64_ofInt hinteger (by simp [hsign]) (by omega) (by omega))
    dsimp only
    split
    · next hsmall =>
      have hpos : numeral.magnitude ≠ 0 := by
        intro hzero
        rw [hzero] at hlarge
        exact hlarge (by decide)
      rw [Option.map_some, ofNumber_natural hsmall, if_neg hlarge,
        toBinary64?_of_isInteger hinteger hsign hpos hsmall, Option.map_some]
    · exact map_ofNumber_ofFraction?
  | true =>
    have hint : numeral.toInt = -numeral.magnitude := by rw [Numeral.toInt, hsign]; rfl
    have hrange : numeral.magnitude = 0 ∨ -(numeral.magnitude : Int) < -2 ^ 63 := by
      by_contra hcon
      rw [not_or] at hcon
      exact h _ (isInt64_ofInt hinteger (fun hzero => hcon.1 hzero.2) (by omega) (by omega))
    dsimp only
    rw [ofNegated?_eq_none hrange]
    exact map_ofNumber_ofFraction?

/-- The kind of a number does not depend on the way. -/
theorem ofNumeral?_eq (numeral : Numeral) :
    ofNumeral? numeral = (Json.Number.ofNumeral? numeral).map ofNumber := by
  by_cases h : ∃ value, numeral.IsInt64 value
  · obtain ⟨value, h⟩ := h
    rw [ofNumeral?_of_isInt64 h, map_ofNumber_of_isInt64 h]
  · rw [not_exists] at h
    rw [ofNumeral?_of_not_isInt64 h, map_ofNumber_of_not_isInt64 h]

theorem rel_ofNumeral? {α : Type} {R : α → Document → Prop} {f : Json.Number → α}
    (h : ∀ number, R (f number) (ofNumber number)) (numeral : Numeral) :
    Option.Rel R ((Json.Number.ofNumeral? numeral).map f) (ofNumeral? numeral) := by
  rw [ofNumeral?_eq]
  cases Json.Number.ofNumeral? numeral with
  | none => exact .none
  | some number => exact .some (h number)

end

/-! ### By way of a tree -/

theorem agree_tree : Forms.Agree (fun tree document => ofJson tree = document)
    (fun entries entries' => entries.mapValues ofJson = entries') Json.treeShape.forms shape.forms where
  null := rfl
  bool _ := rfl
  numeral := rel_ofNumeral? fun _ => rfl
  string _ := rfl
  array trees documents h := by
    have hmap : trees.map ofJson = documents := by
      induction h with
      | nil => rfl
      | cons hxy _ ih => rw [List.map_cons, hxy, ih]
    show Document.list (ofJsonItems trees) = .list documents
    rw [ofJsonItems_eq_map, hmap]
  start := rfl
  extend entries entries' key x y h hxy := by
    show (Entries.insert key x entries).mapValues ofJson = Entries.insert key y entries'
    rw [Entries.mapValues_insert, h, hxy]
  object entries entries' h := by
    show Document.map (ofJsonEntries entries) = .map entries'
    rw [ofJsonEntries_eq_mapValues, h]

theorem map_ofJson_ofText? (text : String) : (Json.ofText? text).map ofJson = ofText? text := by
  have hagree : (Json.ofText? text).map ofJson = (ofText? text).map id := by
    refine Json.map_readText_eq (fun cs => ?_) text
    rw [Json.readValue_eq_readForms, Json.readValue_eq_readForms]
    exact Json.rel_readForms agree_tree Json.nestingLimit cs
  rw [hagree]
  cases ofText? text <;> rfl

/-! ### By trial -/

theorem document?_null : Content.document? .null = some .null := by
  rw [Content.document?]
  rfl

theorem document?_bool (b : Bool) : Content.document? (.bool b) = some (.bool b) := by
  rw [Content.document?]
  rfl

/-- A number that is no integer of 64 bits is left to the next kind. -/
theorem document?_number (number : Json.Number) : Content.document? (.number number) = some (ofNumber number) := by
  rw [Content.document?]
  cases number with
  | natural value =>
    simp only [Content.asNull?, Content.asBool?, Content.asInt?, Content.asFloat?, ofNumber]
    split <;> rfl
  | negative value h => rfl
  | float value h => rfl

theorem document?_string (s : String) : Content.document? (.string s) = some (.string s) := by
  rw [Content.document?]
  rfl

theorem document?_array (items : List Content) :
    Content.document? (.array items) = (Content.documents? items).map .list := by
  rw [Content.document?, Content.asList?]
  unfold Content.asMap?
  cases Content.documents? items <;> rfl

theorem document?_object (members : List (String × Content)) :
    Content.document? (.object members) = (Content.entries? [] members).map .map := by
  rw [Content.document?, Content.asMap?]
  unfold Content.asList?
  cases Content.entries? [] members <;> rfl

theorem entries?_append (gathered : Entries Document) (members : List (String × Content)) (key : String)
    (value : Content) : Content.entries? gathered (members ++ [(key, value)]) =
      (Content.entries? gathered members).bind fun entries => value.document?.map (entries.insert key ·) := by
  induction members generalizing gathered with
  | nil =>
    rw [List.nil_append, Content.entries?, Content.entries?]
    cases value.document? with
    | none => rfl
    | some document =>
      show Content.entries? (gathered.insert key document) [] = some (gathered.insert key document)
      rw [Content.entries?]
  | cons member members ih =>
    rw [List.cons_append, Content.entries?, Content.entries?]
    cases member.2.document? with
    | none => rfl
    | some document => exact ih (gathered.insert member.1 document)

theorem agree_content : Forms.Agree (fun content document => content.document? = some document)
    (fun members entries => Content.entries? [] members = some entries) Content.forms shape.forms where
  null := document?_null
  bool := document?_bool
  numeral := rel_ofNumeral? document?_number
  string := document?_string
  array contents documents h := by
    have hall : Content.documents? contents = some documents := by
      induction h with
      | nil => rw [Content.documents?]
      | cons hxy _ ih =>
        rw [Content.documents?, hxy, ih]
        rfl
    show Content.document? (.array contents) = some (.list documents)
    rw [document?_array, hall]
    rfl
  start := by
    show Content.entries? [] [] = some []
    rw [Content.entries?]
  extend members entries key content document h hxy := by
    show Content.entries? [] (members ++ [(key, content)]) = some (entries.insert key document)
    rw [entries?_append, h, hxy]
    rfl
  object members entries h := by
    show Content.document? (.object members) = some (.map entries)
    rw [document?_object, h]
    rfl

theorem map_document?_ofText? (text : String) :
    (Content.ofText? text).map Content.document? = (ofText? text).map some := by
  refine Json.map_readText_eq (fun cs => ?_) text
  rw [Json.readValue_eq_readForms]
  exact Json.rel_readForms agree_content Json.nestingLimit cs

theorem ofTextByTrial?_eq (text : String) : ofTextByTrial? text = (ofText? text).mapError .reading := by
  have hagree := map_document?_ofText? text
  unfold ofTextByTrial?
  generalize Content.ofText? text = content at hagree ⊢
  generalize ofText? text = document at hagree ⊢
  cases content with
  | error cause =>
    cases document with
    | error cause' =>
      obtain rfl := Except.error.inj hagree
      rfl
    | ok document => cases hagree
  | ok content =>
    cases document with
    | error cause => cases hagree
    | ok document =>
      have hkind : content.document? = some document := Except.ok.inj hagree
      show (match content.document? with
        | some document => Except.ok document
        | none => Except.error TrialError.noKind) = .ok document
      rw [hkind]

/-! ### What is written -/

/-- The text is an integer that has 64 bits with its sign, and not a negative zero. -/
def WritesInt64 (cs : List Char) (value : Int64) : Prop :=
  ∃ numeral, Json.IsWritten numeral cs ∧ numeral.IsInt64 value

/-- What a value writes. -/
inductive IsWrittenBy : List Char → Document → Prop
  | null : IsWrittenBy ['n', 'u', 'l', 'l'] .null
  | true : IsWrittenBy ['t', 'r', 'u', 'e'] (.bool true)
  | false : IsWrittenBy ['f', 'a', 'l', 's', 'e'] (.bool false)
  | int {cs : List Char} {value : Int64} : WritesInt64 cs value → IsWrittenBy cs (.int value)
  | float {cs : List Char} {numeral : Numeral} {x : Binary64} : (∀ value, ¬WritesInt64 cs value) →
    Json.IsWritten numeral cs → numeral.IsRounded x → IsWrittenBy cs (.float x)
  | string {cs : List Char} {s : String} : Json.IsLiteral cs s → IsWrittenBy cs (.string s)
  | list {cs : List Char} {items : List (List Char × Document)} :
    Json.IsArray (fun item text => text = item.1) items cs → (∀ item ∈ items, IsWrittenBy item.1 item.2) →
    IsWrittenBy cs (.list (items.map Prod.snd))
  | map {cs : List Char} {members : Entries (List Char × Document)} {entries : Entries Document} :
    Json.IsRecord Prod.fst (fun member text => text = member.2.1) members cs →
    (∀ member ∈ members, IsWrittenBy member.2.1 member.2.2) → entries.keys.Nodup →
    (∀ key, entries.get? key = (Entries.get? key members.reverse).map Prod.snd) → IsWrittenBy cs (.map entries)

theorem isWrittenBy_of_isForm {cs : List Char} {document : Document}
    (h : Json.IsForm shape IsWrittenBy cs document) : IsWrittenBy cs document := by
  cases h with
  | null => exact .null
  | true => exact .true
  | false => exact .false
  | @number _ numeral _ hwritten hvalue =>
    by_cases hint : ∃ value, numeral.IsInt64 value
    · obtain ⟨value, hint⟩ := hint
      obtain rfl := Option.some.inj ((ofNumeral?_of_isInt64 hint).symm.trans hvalue)
      exact .int ⟨numeral, hwritten, hint⟩
    · rw [not_exists] at hint
      obtain ⟨x, hx, rfl⟩ := Option.map_eq_some_iff.1 ((ofNumeral?_of_not_isInt64 hint).symm.trans hvalue)
      refine .float ?_ hwritten (Numeral.isRounded_of_toBinary64? hx)
      rintro value ⟨numeral', hwritten', hvalue'⟩
      rw [hwritten'.unique hwritten] at hvalue'
      exact hint value hvalue'
  | string hliteral => exact .string hliteral
  | array harray =>
    obtain ⟨hinner⟩ := harray
    have hpart (item : Document) (text : List Char) (htext : IsWrittenBy text item) :
        ∃ part : List Char × Document, part.2 = item ∧ IsWrittenBy part.1 part.2 ∧ text = part.1 :=
      ⟨(text, item), rfl, htext, rfl⟩
    obtain ⟨items, rfl, hitems, hinner⟩ := hinner.exists_map hpart
    exact .list (.brackets hinner) hitems
  | @object _ members hrecord =>
    obtain ⟨hinner⟩ := hrecord
    have hpart (member : String × Document) (text : List Char)
        (htext : Json.IsEntry Prod.fst (fun member text => IsWrittenBy text member.2) member text) :
        ∃ part : String × List Char × Document, (part.1, part.2.2) = member ∧ IsWrittenBy part.2.1 part.2.2 ∧
          Json.IsEntry Prod.fst (fun part text => text = part.2.1) part text := by
      obtain ⟨hkey, hbefore, hafter, hcontent⟩ := htext
      exact ⟨(member.1, _, member.2), rfl, hcontent, .colon hkey hbefore hafter rfl⟩
    obtain ⟨parts, rfl, hparts, hinner⟩ := hinner.exists_map hpart
    refine .map (.braces hinner) hparts (Json.nodup_keys_gather _) fun key => ?_
    rw [Json.get?_gather, ← List.map_reverse]
    exact Entries.get?_mapValues Prod.snd key parts.reverse

/-- The text of a number alone. -/
theorem ofText?_of_isWritten {text : String} {numeral : Numeral} {document : Document}
    (h : Json.IsWritten numeral text.toList) (hvalue : ofNumeral? numeral = some document) :
    ofText? text = .ok document := by
  have hread := Json.readNumeral_append h Json.endsValue_nil
  obtain ⟨c, tail, htext, hstart⟩ := h.exists_cons
  rw [List.append_nil, htext] at hread
  have hnone := Json.not_mem_of_startsNumber hstart
  simp only [List.mem_cons, not_or] at hnone
  have hblank : Json.isBlank c = false := by simp [Json.isBlank, hnone]
  have hshape : shape.numeral numeral = some document := hvalue
  have hshaped : Json.readShaped shape (c :: tail) = .ok document [] := by
    rw [Json.readShaped, hread, Json.Parsed.andThen_ok, hshape]
  have hall : Json.readValue shape Json.nestingLimit (c :: tail) = .ok document [] := by
    rw [Json.readValue, Json.skipBlank_cons hblank, ← hshaped]
    all_goals simp [hnone, hstart]
  rw [ofText?, Json.readText, htext, hall]
  rfl

/-- The three ways of reading a text give the same document or the same error, and what they give is what is written:
a number is an integer exactly if it is written as one of 64 bits and not as a negative zero, any other is rounded,
and of the members of an object with the same key the last one counts. -/
theorem readings_agree (text : String) :
    ofTextByTrial? text = ((Json.ofText? text).map ofJson).mapError .reading ∧
    ofText? text = (Json.ofText? text).map ofJson ∧
    ∀ document, ofText? text = .ok document → ∃ before body after, text.toList = before ++ (body ++ after) ∧
      Json.IsGap before ∧ Json.IsGap after ∧ IsWrittenBy body document := by
  have htree := map_ofJson_ofText? text
  refine ⟨by rw [htree, ofTextByTrial?_eq], htree.symm, fun document hread => ?_⟩
  have haccepts := Json.accepts_readValue (fun _ _ => isWrittenBy_of_isForm) Json.nestingLimit
  exact Json.exists_of_readText haccepts hread

theorem readings_agree_negativeZero :
    ofText? "-0" = .ok (.float ⟨0x8000000000000000⟩) ∧ ofTextByTrial? "-0" = .ok (.float ⟨0x8000000000000000⟩) ∧
    ∃ before body after, "-0".toList = before ++ (body ++ after) ∧ Json.IsGap before ∧ Json.IsGap after ∧
      IsWrittenBy body (.float ⟨0x8000000000000000⟩) := by
  have hvalue : Numeral.toBinary64? ⟨true, ['0'], none, none⟩ = some ⟨0x8000000000000000⟩ := by decide +kernel
  have hread : ofText? "-0" = .ok (.float ⟨0x8000000000000000⟩) := by
    refine ofText?_of_isWritten (@Json.IsWritten.parts ⟨true, ['0'], none, none⟩ [] [] .zero .none .none) ?_
    rw [ofNumeral?_eq_ite, if_neg (by decide), hvalue, Option.map_some]
  obtain ⟨htrial, htree, hwritten⟩ := readings_agree "-0"
  refine ⟨hread, ?_, hwritten _ hread⟩
  rw [htrial, ← htree, hread]
  rfl

/-- Not every number becomes the nearest one. The powers of ten are rounded by themselves, `7e-23` is rounded twice
more, and in the end the even neighbour of the nearest number is taken. -/
theorem ofText?_not_nearest :
    ofText? "7e-23" = .ok (.float ⟨0x3b5527fcd8105c08⟩) ∧ Binary64.IsNearest ⟨0x3b5527fcd8105c07⟩ (7 / 10 ^ 23) ∧
      ¬Binary64.IsNearest ⟨0x3b5527fcd8105c08⟩ (7 / 10 ^ 23) := by
  have hvalue : Numeral.toBinary64? ⟨false, ['7'], none, some (-23)⟩ = some ⟨0x3b5527fcd8105c08⟩ := by decide +kernel
  have hread : ofText? "7e-23" = .ok (.float ⟨0x3b5527fcd8105c08⟩) := by
    have hpower : Json.IsExponentOf (some (-23)) ['e', '-', '2', '3'] :=
      @Json.IsExponentOf.minus 'e' ['2', '3'] (List.mem_cons_self ..) ⟨by simp, List.all_eq_true.1 rfl⟩
    refine ofText?_of_isWritten (@Json.IsWritten.parts ⟨false, ['7'], none, some (-23)⟩ [] _
      (.digits (by decide) ⟨by simp, List.all_eq_true.1 rfl⟩) .none hpower) ?_
    rw [ofNumeral?_eq_ite, if_neg (by decide), hvalue, Option.map_some]
  have hround : Binary64.nearest false 7 (10 ^ 23) = ⟨0x3b5527fcd8105c07⟩ := by decide +kernel
  have hfinite : Binary64.isFinite ⟨0x3b5527fcd8105c07⟩ := by decide +kernel
  have hfinite' : Binary64.isFinite ⟨0x3b5527fcd8105c08⟩ := by decide +kernel
  have hodd : Binary64.significand ⟨0x3b5527fcd8105c07⟩ % 2 = 1 := by decide +kernel
  have hne : Binary64.toRat ⟨0x3b5527fcd8105c08⟩ ≠ Binary64.toRat ⟨0x3b5527fcd8105c07⟩ := by
    rw [Ne, Binary64.toRat_inj]
    decide +kernel
  have hnearest : Binary64.IsNearest ⟨0x3b5527fcd8105c07⟩ (7 / 10 ^ 23) := by
    have h := @Binary64.isNearest_nearest false 7 (10 ^ 23) (by positivity) (by rwa [hround])
    rw [hround] at h
    exact_mod_cast h
  refine ⟨hread, hnearest, fun hother => ?_⟩
  -- being both as near they are a tie, which goes to an even significand
  have htie := le_antisymm (hother.abs_le _ hfinite) (hnearest.abs_le _ hfinite')
  have heven := hnearest.even_of_tie _ hfinite' htie hne
  omega

end Document

end ResourceGraph
