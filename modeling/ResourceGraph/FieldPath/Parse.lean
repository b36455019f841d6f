import ResourceGraph.FieldPath.Basic
import ResourceGraph.Text.Blank
import ResourceGraph.Text.Cut

/-!
# Parsing field paths

An expression is an optional `$`, an optional dot, and keys separated by dots. A key may be followed by
brackets: `[n]` is a position, `[]` and `[*]` select every element and mean nothing, because a key is
looked up in every element of a list anyway. Dots separate before brackets bind, so a bracket never spans a
dot.
-/

namespace ResourceGraph.FieldPath

open ResourceGraph.Text (trim dropLeading)

/-- What is wrong with an expression. -/
inductive Defect
  | emptyKey
  | unclosedBracket
  | textAfterBracket
  | badIndex
deriving DecidableEq

def Defect.message : Defect → String
  | .emptyKey => "empty key"
  | .unclosedBracket => "unclosed '['"
  | .textAfterBracket => "unexpected text after ']'"
  | .badIndex => "bad index"

/-- An expression that is no path. -/
structure ParseError where
  expression : String
  defect : Defect
deriving DecidableEq

def ParseError.message (error : ParseError) : String :=
  "Invalid path '" ++ error.expression ++ "': " ++ error.defect.message

/-- A position: one or more digits behind an optional plus, of less than 64 bits. -/
def parseIndex? (content : List Char) : Option UInt64 :=
  let digits := dropLeading '+' content
  let value := Nat.ofDigitChars 10 digits 0
  if !digits.isEmpty && digits.all Char.isDigit && value < UInt64.size then some (UInt64.ofNat value) else none

/-- The positions that the content of one pair of brackets stands for. -/
def parseBracket (content : List Char) : Except Defect (List UInt64) :=
  if content = [] ∨ content = ['*'] then .ok []
  else match parseIndex? content with
    | some position => .ok [position]
    | none => .error .badIndex

/-- The positions in the brackets behind a key. -/
def parseBrackets : List Char → Except Defect (List UInt64)
  | [] => .ok []
  | c :: cs =>
    match h : (c :: cs).dropWhile (· ≠ ']') with
    | [] => .error .unclosedBracket
    | _ :: rest =>
      if c = '[' then do
        let first ← parseBracket (cs.takeWhile (· ≠ ']'))
        have := Text.length_of_dropWhile_eq_cons h
        let others ← parseBrackets rest
        .ok (first ++ others)
      else .error .textAfterBracket
termination_by cs => cs.length
decreasing_by exact this

/-- A key with the brackets behind it. -/
def parsePart (part : List Char) : Except Defect (List Segment) :=
  let key := part.takeWhile (· ≠ '[')
  if key = [] then .error .emptyKey
  else do
    let positions ← parseBrackets (part.dropWhile (· ≠ '['))
    .ok (.key (String.ofList key) :: positions.map .index)

/-- The parts of a path, from left to right. -/
def parseParts : List (List Char) → Except Defect (List Segment)
  | [] => .ok []
  | part :: parts => do
    let first ← parsePart part
    let others ← parseParts parts
    .ok (first ++ others)

/-- An expression without the blanks around it, its root and the dot behind the root. -/
def body (expression : List Char) : List Char :=
  dropLeading '.' (dropLeading '$' (trim expression))

/-- The steps of a path from its body. -/
def parseBody (body : List Char) : Except Defect (List Segment) :=
  if body = [] then .ok [] else parseParts (body.splitOn '.')

/-- The path that an expression denotes. -/
def parse (expression : String) : Except ParseError FieldPath :=
  match parseBody (body expression.toList) with
  | .ok segments => .ok { segments }
  | .error defect => .error { expression, defect }

/-- The path that an expression denotes, if it is one. -/
def parse? (expression : String) : Option FieldPath :=
  (parse expression).toOption

end ResourceGraph.FieldPath
