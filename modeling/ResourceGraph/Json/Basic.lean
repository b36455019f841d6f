import ResourceGraph.Entries
import ResourceGraph.Number.Scaling

/-!
# JSON trees

A JSON number is a natural number of 64 bits, a negative integer of 64 bits, or a finite binary64 number;
the three kinds are kept apart. `Numeral` is a number as it is written, before its kind and its range are
decided, and `Number.ofNumeral?` decides them.
-/

namespace ResourceGraph

namespace Json

/-- A number as written: its sign, the digits in front of the point, those behind it if there is a point, and
the exponent if there is one. -/
structure Numeral where
  negative : Bool
  whole : List Char
  fraction : Option (List Char)
  exponent : Option Int
deriving DecidableEq

/-- Appends digits to a number while it has 64 bits, and gives back the digits that are left over. -/
def appendDigits (number : Nat) : List Char → Nat × List Char
  | [] => (number, [])
  | c :: cs =>
    let longer := Nat.ofDigitChars 10 [c] number
    if longer < UInt64.size then appendDigits longer cs else (number, c :: cs)

namespace Numeral

/-- Whether neither a fraction nor an exponent is written. -/
def isInteger (numeral : Numeral) : Bool :=
  numeral.fraction.isNone && numeral.exponent.isNone

/-- The digits in front of the point as a number. -/
def magnitude (numeral : Numeral) : Nat :=
  Nat.ofDigitChars 10 numeral.whole 0

/-- The decimal number that stands for a numeral in calculations. It has 64 bits of digits: whole digits beyond
them only count as places, and digits of the fraction beyond them are ignored. -/
def leading (numeral : Numeral) : Decimal :=
  let (whole, dropped) := appendDigits 0 numeral.whole
  let fraction := numeral.fraction.getD []
  let (digits, ignored) := appendDigits whole fraction
  { digits, exponent := numeral.exponent.getD 0 + dropped.length - (fraction.length - ignored.length : Nat) }

/-- A numeral as a binary64 number, `none` if it is too large. -/
def toBinary64? (numeral : Numeral) : Option Binary64 :=
  Binary64.ofDecimal? numeral.negative numeral.leading

end Numeral

/-- A JSON number. -/
inductive Number
  | natural (value : UInt64)
  | negative (value : Int64) (isNegative : value < 0)
  | float (value : Binary64) (isFinite : value.isFinite)
deriving DecidableEq

/-- The binary64 number of a numeral. -/
def Number.ofFraction? (numeral : Numeral) : Option Number :=
  match h : numeral.toBinary64? with
  | some x => some (.float x (Binary64.isFinite_of_ofDecimal? h))
  | none => none

/-- The integer `-magnitude`, if it is negative and has 64 bits. -/
def Number.ofNegated? (magnitude : Nat) : Option Number :=
  let value := Int64.ofInt (-magnitude)
  if h : Int64.minValue.toInt ≤ -magnitude ∧ value < 0 then some (.negative value h.2) else none

/-- The number that a numeral stands for, `none` if it is too large. An integer without a fraction and an
exponent is kept exactly if it has 64 bits; a negative zero is a binary64 number. -/
def Number.ofNumeral? (numeral : Numeral) : Option Number :=
  match numeral.isInteger, numeral.negative with
  | false, _ => Number.ofFraction? numeral
  | true, false =>
    if numeral.magnitude < UInt64.size then some (.natural (UInt64.ofNat numeral.magnitude))
    else Number.ofFraction? numeral
  | true, true =>
    match Number.ofNegated? numeral.magnitude with
    | some number => some number
    | none => Number.ofFraction? numeral

end Json

/-- A JSON value. -/
inductive Json
  | null
  | bool (value : Bool)
  | number (value : Json.Number)
  | string (value : String)
  | array (items : List Json)
  | object (entries : List (String × Json))

end ResourceGraph
