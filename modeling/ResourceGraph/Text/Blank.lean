import ResourceGraph.Text.CharRanges

/-!
# White space at the ends of a text

`isBlank` is the Unicode property White_Space; `trim` removes the blank characters at both ends of a text
and keeps those inside it.
-/

namespace ResourceGraph.Text

/-- The characters with the Unicode property White_Space, ASCII apart. -/
def blankRanges : CharRanges :=
  [(0x85, 0x85), (0xA0, 0xA0), (0x1680, 0x1680), (0x2000, 0x200A), (0x2028, 0x2029), (0x202F, 0x202F),
    (0x205F, 0x205F), (0x3000, 0x3000)]

/-- A character with the Unicode property White_Space. -/
def isBlank (c : Char) : Bool :=
  c = ' ' || (0x09 ≤ c.toNat && c.toNat ≤ 0x0D) || blankRanges.contains c

/-- `cs` without the blank characters at its end. -/
def trimRight (cs : List Char) : List Char :=
  (cs.reverse.dropWhile isBlank).reverse

/-- `cs` without the blank characters at either end. -/
def trim (cs : List Char) : List Char :=
  trimRight (cs.dropWhile isBlank)

/-- `cs` without its first character if that is `c`. -/
def dropLeading (c : Char) : List Char → List Char
  | [] => []
  | x :: cs => if x = c then cs else x :: cs

@[simp] theorem trim_nil : trim [] = [] := rfl

@[simp] theorem dropLeading_nil (c : Char) : dropLeading c [] = [] := rfl

@[simp] theorem dropLeading_cons_self (c : Char) (cs : List Char) : dropLeading c (c :: cs) = cs := by
  simp [dropLeading]

theorem dropLeading_cons_of_ne {c x : Char} (h : x ≠ c) (cs : List Char) :
    dropLeading c (x :: cs) = x :: cs := by
  simp [dropLeading, h]

theorem trim_eq_self {cs : List Char} (hfirst : ∀ c ∈ cs.head?, ¬ isBlank c)
    (hlast : ∀ c ∈ cs.getLast?, ¬ isBlank c) : trim cs = cs := by
  have hdrop : cs.dropWhile isBlank = cs := by
    cases cs with
    | nil => rfl
    | cons c cs => simp_all
  have hend : cs.reverse.dropWhile isBlank = cs.reverse := by
    cases hr : cs.reverse with
    | nil => rfl
    | cons c rs =>
      have : ¬ isBlank c := hlast c (by simp [List.getLast?_eq_head?_reverse, hr])
      simp_all
  simp [trim, trimRight, hdrop, hend]

end ResourceGraph.Text
