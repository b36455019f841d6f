import ResourceGraph.Json.Skip

/-!
# Reading values of a known type

Readers for strings, array positions, lists, records and variants. A value of another form is read as far as
it takes to name it, so its own faults are reported first.

A record is written as an object, with its fields in any order and others skipped, or as the array of its
fields in their order. A variant is written as its name alone, or as an object whose one key is its name and
whose value is its payload.
-/

namespace ResourceGraph.Json

open Parsed (malformed truncated mismatched)

/-! ### What was found -/

/-- Reads what stands in the place of another form: a scalar whole, of a container the bracket only. -/
def readFound (cs : List Char) : Parsed Found :=
  match skipBlank cs with
  | [] => truncated
  | 'n' :: rest => (readWord ['u', 'l', 'l'] rest).map fun _ => .null
  | 't' :: rest => (readWord ['r', 'u', 'e'] rest).map fun _ => .bool true
  | 'f' :: rest => (readWord ['a', 'l', 's', 'e'] rest).map fun _ => .bool false
  | '"' :: rest => (readString rest).map .string
  | '[' :: rest => .ok .array rest
  | '{' :: rest => .ok .object rest
  | c :: rest => if startsNumber c then (readNumber (c :: rest)).map .number else malformed

/-- Refuses what stands in the place of `expected`. -/
def refuse {α : Type} (expected : Expected) (cs : List Char) : Parsed α :=
  (readFound cs).andThen fun found _ => mismatched (.invalidType found expected)

/-! ### Scalars and lists -/

/-- Reads a string. -/
def stringReader : Reader String :=
  fun _ cs => match skipBlank cs with
  | '"' :: rest => readString rest
  | cs => refuse .string cs

/-- Reads a null. -/
def readNull (cs : List Char) : Parsed Unit :=
  match skipBlank cs with
  | 'n' :: rest => readWord ['u', 'l', 'l'] rest
  | cs => refuse .null cs

/-- Takes a number for a position in an array. -/
def indexOfNumber (rest : List Char) : Number → Parsed UInt64
  | .natural value => .ok value rest
  | .negative value _ => mismatched (.negativeIndex value)
  | .float value h => mismatched (.invalidType (.number (.float value h)) .index)

/-- Reads a position in an array. -/
def indexReader : Reader UInt64 :=
  fun _ cs => match skipBlank cs with
  | [] => truncated
  | c :: rest =>
    if startsNumber c then (readNumber (c :: rest)).andThen fun value rest => indexOfNumber rest value
    else refuse .index (c :: rest)

/-- Reads a list. -/
def listReader {α : Type} (item : Reader α) : Reader (List α) :=
  fun depth cs => match skipBlank cs with
  | '[' :: rest => openContainer (fun depth rest => readArray (item depth) rest) depth rest
  | cs => refuse .array cs

/-! ### Records -/

/-- A field of a record, whose fields are gathered in a draft of type `ρ`. -/
structure Field (ρ : Type) where
  key : String
  /-- Whether the draft has a value for this field. -/
  isSet : ρ → Bool
  /-- Reads a value into the draft. -/
  read : ρ → Reader ρ

/-- A field that is read by `reader` and stored by `set`. -/
def Field.of {ρ α : Type} (key : String) (get : ρ → Option α) (set : ρ → α → ρ) (reader : Reader α) :
    Field ρ where
  key
  isSet draft := (get draft).isSome
  read draft depth cs := (reader depth cs).map (set draft)

/-- How records of type `α` are read. `finish` turns a draft into a record, and names the first field in
order that the draft lacks. -/
structure Record (ρ α : Type) where
  name : String
  fields : List (Field ρ)
  start : ρ
  finish : ρ → Except Mismatch α

/-- The value of a field, or the complaint that it is missing. -/
def requireField {α : Type} (key : String) : Option α → Except Mismatch α
  | some value => .ok value
  | none => .error (.missingField key)

namespace Record
variable {ρ α : Type}

/-- Reads what follows a key: a field's value into the draft, or an unknown value to be forgotten. -/
def readMember (record : Record ρ α) (depth : Nat) (draft : ρ) (key : String) (cs : List Char) : Parsed ρ :=
  match record.fields.find? (·.key == key) with
  | some field =>
    if field.isSet draft then mismatched (.duplicateField key)
    else (readColon cs).andThen fun _ cs => field.read draft depth cs
  | none => (readColon cs).andThen fun _ cs => (skipValue cs).map fun _ => draft

/-- Reads the remaining fields of a record that is written as an array, `count` of them being read. -/
def readPositional (record : Record ρ α) (depth : Nat) :
    List (Field ρ) → (count : Nat) → ρ → List Char → Parsed ρ
  | [], _, draft, cs =>
    match skipBlank cs with
    | [] => truncated
    | ']' :: rest => .ok draft rest
    | _ :: _ => malformed
  | field :: fields, count, draft, cs =>
    match skipBlank cs with
    | [] => truncated
    | ']' :: _ => mismatched (.missingElement count record.name record.fields.length)
    | c :: rest =>
      if count = 0 then
        (field.read draft depth (c :: rest)).andThen (record.readPositional depth fields (count + 1))
      else if c = ',' then
        (field.read draft depth rest).andThen (record.readPositional depth fields (count + 1))
      else malformed

/-- Turns the draft that was read into a record. -/
def complete (record : Record ρ α) (draft : ρ) (rest : List Char) : Parsed α :=
  match record.finish draft with
  | .ok value => .ok value rest
  | .error cause => mismatched cause

def reader (record : Record ρ α) : Reader α :=
  fun depth cs => match skipBlank cs with
  | '{' :: rest =>
    openContainer (fun depth rest =>
      (readObject (record.readMember depth) record.start rest).andThen record.complete) depth rest
  | '[' :: rest =>
    openContainer (fun depth rest =>
      (record.readPositional depth record.fields 0 record.start rest).andThen record.complete) depth rest
  | cs => refuse (.record record.name) cs

end Record

/-! ### Variants -/

/-- One of the variants of a type. -/
structure Variant (α : Type) where
  name : String
  /-- What the name alone stands for. -/
  bare : Except Mismatch α
  /-- Reads the value behind the name. -/
  payload : Reader α

/-- A variant without a payload; a null may stand in its place. -/
def Variant.plain {α : Type} (name : String) (value : α) : Variant α where
  name
  bare := .ok value
  payload _ cs := (readNull cs).map fun _ => value

/-- A variant that needs its payload. -/
def Variant.tagged {α β : Type} (name : String) (build : β → α) (payload : Reader β) : Variant α where
  name
  bare := .error (.invalidType .bareVariant .payload)
  payload depth cs := (payload depth cs).map build

/-- Finds the variant that a text names. -/
def findVariant {α : Type} (variants : List (Variant α)) (name : String) (rest : List Char) :
    Parsed (Variant α) :=
  match variants.find? (·.name == name) with
  | some variant => .ok variant rest
  | none => mismatched (.unknownVariant name (variants.map Variant.name))

/-- Reads the one entry of an object that holds a variant with its payload. The name of the variant is the key
of the entry, so anything but a string in its place is malformed. -/
def readTagged {α : Type} (variants : List (Variant α)) : Reader α :=
  fun depth cs =>
    (readKey cs).andThen fun name cs =>
    (findVariant variants name cs).andThen fun variant cs =>
    (readColon cs).andThen fun _ cs =>
    (variant.payload depth cs).andThen fun value cs =>
    match skipBlank cs with
    | [] => truncated
    | '}' :: rest => .ok value rest
    | _ :: _ => malformed

/-- Reads a value of a type with these variants; no other form of JSON comes into question. -/
def variantReader {α : Type} (variants : List (Variant α)) : Reader α :=
  fun depth cs => match skipBlank cs with
  | [] => truncated
  | '"' :: rest =>
    (readString rest).andThen fun name rest =>
    (findVariant variants name rest).andThen fun variant rest =>
    match variant.bare with
    | .ok value => .ok value rest
    | .error cause => mismatched cause
  | '{' :: rest => openContainer (readTagged variants) depth rest
  | _ :: _ => malformed

end ResourceGraph.Json
