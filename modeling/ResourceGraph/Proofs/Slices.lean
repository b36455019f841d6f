import Mathlib.Data.String.Basic
import ResourceGraph.Query.Token
import ResourceGraph.Text.Bytes

/-!
# Slices of a text

`slice?` cuts the bytes of a span out of a text. It gives nothing where the span leaves the text or an end of
it falls inside a character. Positions that are counted along the characters of a text always make a slice
(`slice?_of_append`).
-/

namespace ResourceGraph

open Text (byteLength)

namespace Text

theorem utf8Len_eq_byteLength (cs : List Char) : String.utf8Len cs = byteLength cs := by
  induction cs with
  | nil => rfl
  | cons c cs ih => rw [String.utf8Len_cons, byteLength_cons, ih, Nat.add_comm]

theorem byteLength_toList (text : String) : byteLength text.toList = text.utf8ByteSize := by
  rw [← utf8Len_eq_byteLength, String.utf8Len_toList]

theorem get?_byteLength {text : String} {before after : List Char} (h : text.toList = before ++ after) :
    String.Pos.Raw.get? text ⟨byteLength before⟩ = after.head? := by
  rw [← String.ofList_toList (s := text), h, ← utf8Len_eq_byteLength]
  exact String.get?_of_valid before after

theorem isValid_byteLength {text : String} {before after : List Char} (h : text.toList = before ++ after) :
    String.Pos.Raw.IsValid text ⟨byteLength before⟩ := by
  refine String.Pos.Raw.isValid_iff_exists_append.2 ⟨String.ofList before, String.ofList after, ?_, ?_⟩
  · rw [← String.ofList_append, ← h, String.ofList_toList]
  · rw [String.rawEndPos_ofList, utf8Len_eq_byteLength]

end Text

namespace Query

/-- The text at a span, if the span lies inside the text and both its ends between characters. -/
def slice? (text : String) (span : Span) : Option String :=
  if span.start ≤ span.stop ∧ String.Pos.Raw.IsValid text ⟨span.start⟩ ∧ String.Pos.Raw.IsValid text ⟨span.stop⟩
  then some (String.Pos.Raw.extract text ⟨span.start⟩ ⟨span.stop⟩)
  else none

theorem slice?_of_append {text : String} {before piece after : List Char}
    (h : text.toList = before ++ piece ++ after) :
    slice? text ⟨byteLength before, byteLength before + byteLength piece⟩ = some (String.ofList piece) := by
  have hstart : String.Pos.Raw.IsValid text ⟨byteLength before⟩ :=
    Text.isValid_byteLength (h.trans (List.append_assoc _ _ _))
  have hstop : String.Pos.Raw.IsValid text ⟨byteLength before + byteLength piece⟩ := by
    rw [← Text.byteLength_append]
    exact Text.isValid_byteLength h
  rw [slice?, if_pos ⟨Nat.le_add_right _ _, hstart, hstop⟩]
  rw [← String.ofList_toList (s := text), h, ← Text.utf8Len_eq_byteLength, ← Text.utf8Len_eq_byteLength,
    String.extract_of_valid]

theorem slice?_to_end {text : String} {before after : List Char} (h : text.toList = before ++ after) :
    slice? text ⟨byteLength before, text.utf8ByteSize⟩ = some (String.ofList after) := by
  rw [← Text.byteLength_toList, h, Text.byteLength_append]
  exact slice?_of_append (h.trans (List.append_nil _).symm)

end Query

end ResourceGraph
