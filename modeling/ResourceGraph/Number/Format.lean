import ResourceGraph.Number.Shortest

/-!
# The text of a binary64 number

A `NumberFormat` says how the shortest digits of a number are laid out. Documents are displayed in
`NumberFormat.display`; JSON text, and messages about JSON text, use `NumberFormat.json`.
-/

namespace ResourceGraph

/-- How a number is written. -/
structure NumberFormat where
  /-- The least and the greatest exponent of a leading digit that is written without an exponent part;
  `none` if every number is. -/
  positional : Option (Int × Int)
  /-- What follows the digits of a whole number. -/
  wholeEnding : List Char
  tie : TieRule
deriving DecidableEq

namespace NumberFormat

/-- Displayed numbers never have an exponent part, and whole ones no point; of two equally near candidates
the larger is taken. -/
def display : NumberFormat := { positional := none, wholeEnding := [], tie := .up }

/-- Numbers in JSON text always have a point or an exponent part; of two equally near candidates the even
one is taken. -/
def json : NumberFormat := { positional := some (-5, 15), wholeEnding := ['.', '0'], tie := .toEven }

/-- Digits with the decimal point after `exponent` powers of ten, zeros filling the gaps. -/
def layoutPositional (format : NumberFormat) (digits : List Char) (exponent : Int) : List Char :=
  let point := digits.length + exponent
  if 0 ≤ exponent then digits ++ List.replicate exponent.toNat '0' ++ format.wholeEnding
  else if 0 < point then digits.take point.toNat ++ '.' :: digits.drop point.toNat
  else ['0', '.'] ++ List.replicate (-point).toNat '0' ++ digits

/-- One digit, the others after a point, and the power of ten with its sign. -/
def layoutScientific (digits : List Char) (leading : Int) : List Char :=
  let mantissa := if digits.length = 1 then digits else digits.take 1 ++ '.' :: digits.drop 1
  mantissa ++ ['e', if leading < 0 then '-' else '+'] ++ Nat.toDigits 10 leading.natAbs

/-- The digits of a decimal number in this format. -/
def layout (format : NumberFormat) (number : Decimal) : List Char :=
  let all := Nat.toDigits 10 number.digits
  let digits := (all.reverse.dropWhile (· = '0')).reverse
  let exponent := number.exponent + (all.length - digits.length : Nat)
  let leading := digits.length + exponent - 1
  match format.positional with
  | none => format.layoutPositional digits exponent
  | some (least, greatest) =>
    if least ≤ leading ∧ leading ≤ greatest then format.layoutPositional digits exponent
    else layoutScientific digits leading

/-- A number as text. -/
def write (format : NumberFormat) (x : Binary64) : List Char :=
  if x.isNaN then ['N', 'a', 'N']
  else
    let sign := if x.isNegative then ['-'] else []
    if !x.isFinite then sign ++ ['i', 'n', 'f']
    else if x.magnitude = 0 then sign ++ '0' :: format.wholeEnding
    else sign ++ format.layout (x.shortest format.tie)

end NumberFormat

end ResourceGraph
