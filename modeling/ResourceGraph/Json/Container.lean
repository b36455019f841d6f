import ResourceGraph.Json.Lexical

/-!
# Arrays and objects

The brackets, commas and colons of JSON, apart from what stands between them: `readArray` is told how to
read an element and `readObject` how to go on after a key. How deep containers nest is the concern of
`openContainer`, which is given the number of levels that may still be opened.
-/

namespace ResourceGraph.Json

open Parsed (malformed truncated)

/-- Reads a value of some type, given how many levels of arrays and objects may still be opened. -/
abbrev Reader (α : Type) := (depth : Nat) → List Char → Parsed α

/-- How many levels of arrays and objects a text may nest. -/
def nestingLimit : Nat := 127

/-- Reads what follows an opening bracket with one level less, unless no level is left. -/
def openContainer {α : Type} (inside : Reader α) : Reader α
  | 0, _ => malformed
  | depth + 1, cs => inside depth cs

/-- Reads elements up to the closing bracket of an array that has at least one more. Each takes a character
at least, so there are no more of them than `bound` characters. -/
def readItems {α : Type} (item : List Char → Parsed α) : (bound : Nat) → List Char → Parsed (List α)
  | 0, _ => truncated
  | bound + 1, cs =>
    (item cs).andThen fun x cs =>
    match skipBlank cs with
    | [] => truncated
    | ']' :: rest => .ok [x] rest
    | ',' :: rest => (readItems item bound rest).map (x :: ·)
    | _ :: _ => malformed

/-- Reads an array from behind its opening bracket on. -/
def readArray {α : Type} (item : List Char → Parsed α) (cs : List Char) : Parsed (List α) :=
  match skipBlank cs with
  | [] => truncated
  | ']' :: rest => .ok [] rest
  | cs => readItems item cs.length cs

/-- Reads the key of an entry. -/
def readKey (cs : List Char) : Parsed String :=
  match skipBlank cs with
  | [] => truncated
  | '"' :: rest => readString rest
  | _ :: _ => malformed

/-- Reads the colon between a key and its value. -/
def readColon (cs : List Char) : Parsed Unit :=
  match skipBlank cs with
  | [] => truncated
  | ':' :: rest => .ok () rest
  | _ :: _ => malformed

/-- Reads entries up to the closing brace of an object that has at least one more, `member` adding an entry
to what has been gathered so far. -/
def readMembers {σ : Type} (member : σ → String → List Char → Parsed σ) :
    (bound : Nat) → σ → List Char → Parsed σ
  | 0, _, _ => truncated
  | bound + 1, gathered, cs =>
    (readKey cs).andThen fun key cs =>
    (member gathered key cs).andThen fun gathered cs =>
    match skipBlank cs with
    | [] => truncated
    | '}' :: rest => .ok gathered rest
    | ',' :: rest => readMembers member bound gathered rest
    | _ :: _ => malformed

/-- Reads an object from behind its opening brace on. -/
def readObject {σ : Type} (member : σ → String → List Char → Parsed σ) (start : σ) (cs : List Char) :
    Parsed σ :=
  match skipBlank cs with
  | [] => truncated
  | '}' :: rest => .ok start rest
  | cs => readMembers member cs.length start cs

/-- Reads a whole text: one value, then nothing but white space. -/
def readText {α : Type} (read : Reader α) (text : String) : Except ReadError α :=
  match read nestingLimit text.toList with
  | .ok value rest => if (skipBlank rest).isEmpty then .ok value else .error .malformed
  | .error cause => .error cause

end ResourceGraph.Json
