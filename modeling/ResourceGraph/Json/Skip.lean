import ResourceGraph.Json.Container

/-!
# Skipping a value

A value that nobody asked for is checked for its form and forgotten. Its numbers have no range, its strings
may name halves of pairs alone, and it may nest to any depth; the open brackets are kept in a list.
-/

namespace ResourceGraph.Json

open Parsed (malformed truncated)

/-- Skips a number; one that the text ends in is malformed. -/
def skipNumber (cs : List Char) : Parsed Unit :=
  match readNumeral cs with
  | .ok _ rest => .ok () rest
  | .error _ => malformed

/-- Skips a string from behind its opening quote on. The digits of an escape are checked where it begins,
and pass as plain characters after that. -/
def skipString : List Char → Parsed Unit
  | [] => truncated
  | '"' :: rest => .ok () rest
  | ['\\'] => truncated
  | '\\' :: c :: rest =>
    if c = 'u' then
      match readCodeUnit rest with
      | .ok _ _ => skipString rest
      | .error cause => .error cause
    else if (escapedChar? c).isSome then skipString rest
    else malformed
  | c :: rest => if c < ' ' then malformed else skipString rest

/-- Skips a value that is neither an array nor an object. -/
def skipScalar : List Char → Parsed Unit
  | [] => truncated
  | 'n' :: rest => readWord ['u', 'l', 'l'] rest
  | 't' :: rest => readWord ['r', 'u', 'e'] rest
  | 'f' :: rest => readWord ['a', 'l', 's', 'e'] rest
  | '"' :: rest => skipString rest
  | c :: rest => if startsNumber c then skipNumber (c :: rest) else malformed

/-- Skips the key of an entry and its colon. -/
def skipKey (cs : List Char) : Parsed Unit :=
  match skipBlank cs with
  | [] => truncated
  | '"' :: rest => (skipString rest).andThen fun _ rest => readColon rest
  | _ :: _ => malformed

/-- A container whose end has not been reached. -/
inductive Bracket
  | array
  | object

/-- Where skipping stands: in front of a value, or behind one. -/
inductive SkipPoint
  | before
  | behind

/-- Skips up to the end of the outermost container in `opened`, or to the end of one value if there is none.
Every step but the last takes a character at least, so `bound` is not reached if it exceeds the length. -/
def skipFrom : (bound : Nat) → SkipPoint → (opened : List Bracket) → List Char → Parsed Unit
  | 0, _, _, _ => truncated
  | _ + 1, .behind, [], cs => .ok () cs
  | bound + 1, .behind, bracket :: opened, cs =>
    match bracket, skipBlank cs with
    | _, [] => truncated
    | .array, ']' :: rest => skipFrom bound .behind opened rest
    | .object, '}' :: rest => skipFrom bound .behind opened rest
    | .array, ',' :: rest => skipFrom bound .before (.array :: opened) rest
    | .object, ',' :: rest =>
      (skipKey rest).andThen fun _ rest => skipFrom bound .before (.object :: opened) rest
    | _, _ :: _ => malformed
  | bound + 1, .before, opened, cs =>
    match skipBlank cs with
    | '[' :: rest =>
      match skipBlank rest with
      | [] => truncated
      | ']' :: rest => skipFrom bound .behind opened rest
      | rest => skipFrom bound .before (.array :: opened) rest
    | '{' :: rest =>
      match skipBlank rest with
      | [] => truncated
      | '}' :: rest => skipFrom bound .behind opened rest
      | rest => (skipKey rest).andThen fun _ rest => skipFrom bound .before (.object :: opened) rest
    | cs => (skipScalar cs).andThen fun _ rest => skipFrom bound .behind opened rest

/-- Skips one value. -/
def skipValue (cs : List Char) : Parsed Unit :=
  skipFrom (cs.length + 1) .before [] cs

end ResourceGraph.Json
