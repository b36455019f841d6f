import ResourceGraph.Json.Basic
import ResourceGraph.Number.Format
import ResourceGraph.Text.Quoted

/-!
# Why a JSON text is refused

A text is `malformed` where it breaks the rules of JSON, `truncated` where it ends too early, and
`mismatched` where it is good JSON so far but not of the type that is read. Reading goes from left to right
and the first problem is the one reported.
-/

namespace ResourceGraph.Json

/-- What stood in the text. A string, number or word is read whole, an array or object only opened. -/
inductive Found
  | null
  | bool (value : Bool)
  | number (value : Number)
  | string (value : String)
  | array
  | object
  | bareVariant

/-- What the type asked for instead. -/
inductive Expected
  | string
  | array
  | record (name : String)
  | index
  | null
  | payload

/-- A way for good JSON to be wrong for a type. -/
inductive Mismatch
  | invalidType (found : Found) (expected : Expected)
  | negativeIndex (value : Int64)
  | missingElement (count : Nat) (record : String) (size : Nat)
  | missingField (field : String)
  | duplicateField (field : String)
  | unknownVariant (name : String) (options : List String)

/-- Why reading a text stopped. -/
inductive ReadError
  | malformed
  | truncated
  | mismatched (cause : Mismatch)

/-- `text` between grave accents. -/
def ticked (text : String) : String :=
  "`" ++ text ++ "`"

def Found.message : Found → String
  | .null => "null"
  | .bool value => "boolean " ++ ticked (if value then "true" else "false")
  | .number (.natural value) => "integer " ++ ticked (Nat.repr value.toNat)
  | .number (.negative value _) => "integer " ++ ticked (Int.repr value.toInt)
  | .number (.float value _) => "floating point " ++ ticked (String.ofList (NumberFormat.json.write value))
  | .string value => "string " ++ Text.quoted value
  | .array => "sequence"
  | .object => "map"
  | .bareVariant => "unit variant"

def Expected.message : Expected → String
  | .string => "a string"
  | .array => "a sequence"
  | .record name => "struct " ++ name
  | .index => "usize"
  | .null => "unit"
  | .payload => "newtype variant"

/-- The names to choose from. -/
def optionsMessage : List String → String
  | [] => "there are no variants"
  | [a] => "expected " ++ ticked a
  | [a, b] => "expected " ++ ticked a ++ " or " ++ ticked b
  | names => "expected one of " ++ ", ".intercalate (names.map ticked)

def Mismatch.message : Mismatch → String
  | .invalidType found expected => "invalid type: " ++ found.message ++ ", expected " ++ expected.message
  | .negativeIndex value =>
    "invalid value: integer " ++ ticked (Int.repr value.toInt) ++ ", expected " ++ Expected.index.message
  | .missingElement count record size =>
    "invalid length " ++ Nat.repr count ++ ", expected " ++ (Expected.record record).message ++ " with "
      ++ Nat.repr size ++ (if size = 1 then " element" else " elements")
  | .missingField field => "missing field " ++ ticked field
  | .duplicateField field => "duplicate field " ++ ticked field
  | .unknownVariant name options => "unknown variant " ++ ticked name ++ ", " ++ optionsMessage options

end ResourceGraph.Json
