import ResourceGraph.Text.Invisible

/-!
# Quotations

How a message shows a text that it found: between double quotes, on one line, with every character that
could not be told apart on the page written by its number.
-/

namespace ResourceGraph.Text

/-- A character by its number: `\u`, then the code point in hexadecimal between braces. -/
def numbered (c : Char) : List Char :=
  ['\\', 'u', '\x7b'] ++ Nat.toDigits 16 c.toNat ++ ['\x7d']

/-- One character of a quotation. -/
def quotedChar (c : Char) : List Char :=
  if c = '\x00' then ['\\', '0']
  else if c = '\t' then ['\\', 't']
  else if c = '\r' then ['\\', 'r']
  else if c = '\n' then ['\\', 'n']
  else if c = '"' || c = '\\' then ['\\', c]
  else if isCombining c || isInvisible c then numbered c
  else [c]

/-- `s` as a message shows it. -/
def quoted (s : String) : String :=
  String.ofList ('"' :: s.toList.flatMap quotedChar ++ ['"'])

end ResourceGraph.Text
