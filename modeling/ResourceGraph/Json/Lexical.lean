import ResourceGraph.Json.Parsed
import ResourceGraph.Text.Bytes

/-!
# The words, numbers and strings of JSON

Each reader takes the text from the first character of its form on and gives back what follows the form.
A text that ends inside a form is truncated, any other departure from the form is malformed.
-/

namespace ResourceGraph.Json

open Parsed (malformed truncated)

/-- White space between the parts of a JSON text. -/
def isBlank (c : Char) : Bool :=
  c = ' ' || c = '\t' || c = '\n' || c = '\r'

def skipBlank (cs : List Char) : List Char :=
  cs.dropWhile isBlank

/-! ### Words -/

/-- Reads exactly the characters of `word`. -/
def readWord : (word : List Char) → List Char → Parsed Unit
  | [], cs => .ok () cs
  | _ :: _, [] => truncated
  | w :: word, c :: cs => if c = w then readWord word cs else malformed

/-! ### Numbers -/

/-- Reads one or more digits. -/
def readDigits (cs : List Char) : Parsed (List Char) :=
  match cs.takeWhile Char.isDigit, cs.dropWhile Char.isDigit with
  | [], [] => truncated
  | [], _ :: _ => malformed
  | digits, rest => .ok digits rest

/-- Reads the whole part of a number: a zero alone, or digits that do not start with a zero. -/
def readWhole : List Char → Parsed (List Char)
  | '0' :: cs => if cs.head?.any Char.isDigit then malformed else .ok ['0'] cs
  | cs => readDigits cs

/-- Reads the digits after the decimal point, if there is a point. -/
def readFraction : List Char → Parsed (Option (List Char))
  | '.' :: cs => (readDigits cs).map some
  | cs => .ok none cs

/-- Reads the digits of an exponent and their sign. -/
def readSigned : List Char → Parsed Int
  | '-' :: cs => (readDigits cs).map fun digits => -(Nat.ofDigitChars 10 digits 0 : Int)
  | '+' :: cs => (readDigits cs).map fun digits => (Nat.ofDigitChars 10 digits 0 : Int)
  | cs => (readDigits cs).map fun digits => (Nat.ofDigitChars 10 digits 0 : Int)

/-- Reads the exponent part, if there is one. -/
def readExponent : List Char → Parsed (Option Int)
  | 'e' :: cs => (readSigned cs).map some
  | 'E' :: cs => (readSigned cs).map some
  | cs => .ok none cs

/-- Reads a number without its sign. -/
def readUnsigned (negative : Bool) (cs : List Char) : Parsed Numeral :=
  (readWhole cs).andThen fun whole cs =>
  (readFraction cs).andThen fun fraction cs =>
  (readExponent cs).map fun exponent => { negative, whole, fraction, exponent }

def readNumeral : List Char → Parsed Numeral
  | '-' :: cs => readUnsigned true cs
  | cs => readUnsigned false cs

/-- Whether a number begins with `c`. -/
def startsNumber (c : Char) : Bool :=
  c = '-' || c.isDigit

/-- Reads a number; one that is too large is malformed. -/
def readNumber (cs : List Char) : Parsed Number :=
  (readNumeral cs).andThen fun numeral rest =>
  match Number.ofNumeral? numeral with
  | some value => .ok value rest
  | none => malformed

/-! ### Strings -/

/-- The value of a hexadecimal digit. -/
def hexValue? (c : Char) : Option Nat :=
  if c.isDigit then some (c.toNat - 48)
  else if 'a' ≤ c ∧ c ≤ 'f' then some (c.toNat - 87)
  else if 'A' ≤ c ∧ c ≤ 'F' then some (c.toNat - 55)
  else none

/-- The number that four hexadecimal digits denote. -/
def codeUnit? (a b c d : Char) : Option Nat := do
  let a ← hexValue? a
  let b ← hexValue? b
  let c ← hexValue? c
  let d ← hexValue? d
  return ((a * 16 + b) * 16 + c) * 16 + d

/-- Reads four hexadecimal digits; the text is truncated if less than four bytes are left of it. -/
def readCodeUnit : List Char → Parsed Nat
  | a :: b :: c :: d :: rest =>
    match codeUnit? a b c d with
    | some unit => .ok unit rest
    | none => malformed
  | cs => if Text.byteLength cs < 4 then truncated else malformed

/-- Whether a code unit is the first half of a pair. -/
def isLeading (unit : Nat) : Bool :=
  0xD800 ≤ unit && unit ≤ 0xDBFF

/-- Whether a code unit is the second half of a pair. -/
def isTrailing (unit : Nat) : Bool :=
  0xDC00 ≤ unit && unit ≤ 0xDFFF

/-- The character that the two halves of a pair denote. -/
def charOfPair (leading trailing : Nat) : Char :=
  Char.ofNat (0x10000 + (leading - 0xD800) * 0x400 + (trailing - 0xDC00))

/-- Reads the second half of a pair, with its own escape. -/
def readTrailing (leading : Nat) : List Char → Parsed Char
  | [] => truncated
  | ['\\'] => truncated
  | '\\' :: 'u' :: cs =>
    (readCodeUnit cs).andThen fun unit rest =>
    if isTrailing unit then .ok (charOfPair leading unit) rest else malformed
  | _ => malformed

/-- Reads the character that is written by its code units, from the first digit on. -/
def readNumbered (cs : List Char) : Parsed Char :=
  (readCodeUnit cs).andThen fun unit rest =>
  if isTrailing unit then malformed
  else if isLeading unit then readTrailing unit rest
  else .ok (Char.ofNat unit) rest

/-- The character that a one-letter escape denotes. -/
def escapedChar? (c : Char) : Option Char :=
  if c = '"' ∨ c = '\\' ∨ c = '/' then some c
  else if c = 'b' then some '\x08'
  else if c = 'f' then some '\x0c'
  else if c = 'n' then some '\n'
  else if c = 'r' then some '\r'
  else if c = 't' then some '\t'
  else none

/-- Reads what follows the backslash of an escape. -/
def readEscape : List Char → Parsed Char
  | [] => truncated
  | c :: cs =>
    if c = 'u' then readNumbered cs
    else match escapedChar? c with
      | some char => .ok char cs
      | none => malformed

/-- Reads one character of a string, `none` at its closing quote. Control characters must be escaped. -/
def readChar? : List Char → Parsed (Option Char)
  | [] => truncated
  | c :: cs =>
    if c = '"' then .ok none cs
    else if c = '\\' then (readEscape cs).map some
    else if c < ' ' then malformed
    else .ok (some c) cs

theorem length_of_readCodeUnit {cs rest : List Char} {unit : Nat} (h : readCodeUnit cs = .ok unit rest) :
    rest.length < cs.length := by
  unfold readCodeUnit at h
  split at h
  · split at h <;> simp_all [malformed]
    omega
  · split at h <;> simp [malformed, truncated] at h

theorem length_of_readTrailing {leading : Nat} {cs rest : List Char} {char : Char}
    (h : readTrailing leading cs = .ok char rest) : rest.length < cs.length := by
  unfold readTrailing at h
  split at h <;> try simp [malformed, truncated] at h
  obtain ⟨unit, mid, hunit, h⟩ := Parsed.andThen_eq_ok_iff.1 h
  have := length_of_readCodeUnit hunit
  split at h <;> simp_all
  omega

theorem length_of_readNumbered {cs rest : List Char} {char : Char} (h : readNumbered cs = .ok char rest) :
    rest.length < cs.length := by
  obtain ⟨unit, mid, hunit, h⟩ := Parsed.andThen_eq_ok_iff.1 h
  have := length_of_readCodeUnit hunit
  split at h
  · simp [malformed] at h
  · split at h
    · have := length_of_readTrailing h
      omega
    · simp_all

theorem length_of_readEscape {cs rest : List Char} {char : Char} (h : readEscape cs = .ok char rest) :
    rest.length < cs.length := by
  unfold readEscape at h
  split at h
  · simp [truncated] at h
  · split at h
    · have := length_of_readNumbered h
      simp only [List.length_cons]
      omega
    · split at h <;> simp_all [malformed]

theorem length_of_readChar? {cs rest : List Char} {char : Option Char} (h : readChar? cs = .ok char rest) :
    rest.length < cs.length := by
  unfold readChar? at h
  split at h
  · simp [truncated] at h
  · split at h
    · simp_all
    · split at h
      · obtain ⟨c, hc, -⟩ := Parsed.map_eq_ok_iff.1 h
        have := length_of_readEscape hc
        simp only [List.length_cons]
        omega
      · split at h <;> simp_all [malformed]

/-- Reads a string from behind its opening quote on. -/
def readChars (cs : List Char) : Parsed (List Char) :=
  match h : readChar? cs with
  | .error cause => .error cause
  | .ok none rest => .ok [] rest
  | .ok (some c) rest =>
    have := length_of_readChar? h
    (readChars rest).map (c :: ·)
termination_by cs.length

def readString (cs : List Char) : Parsed String :=
  (readChars cs).map String.ofList

end ResourceGraph.Json
