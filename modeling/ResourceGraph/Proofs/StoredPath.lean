import ResourceGraph.FieldPath.Json
import ResourceGraph.FieldPath.Lookup
import ResourceGraph.Proofs.SkippedJson

/-!
# Stored paths

A field path that is written as JSON is read back as it was (`FieldPath.ofText?_toText_lookup`), whatever its keys hold
and wherever its positions stand, so it finds in every document what the written path finds, or fails with the same
message. A step is a variant behind its name: a key is read back because strings are, and a position because
its digits are the whole part of a number of 64 bits (`reads_index`).
-/

namespace ResourceGraph

open Json (Layout Reads)

variable {layout : Layout}

namespace Json

/-- A position as it is written. -/
def Numeral.ofIndex (position : UInt64) : Numeral where
  negative := false
  whole := Nat.toDigits 10 position.toNat
  fraction := none
  exponent := none

theorem isWritten_ofIndex (position : UInt64) :
    IsWritten (.ofIndex position) (Nat.toDigits 10 position.toNat) := by
  have hwritten := @IsWritten.parts (.ofIndex position) [] [] (isWhole_toDigits position.toNat) .none .none
  simpa [Numeral.ofIndex] using hwritten

theorem ofNumeral?_ofIndex (position : UInt64) :
    Number.ofNumeral? (.ofIndex position) = some (.natural position) := by
  have hmagnitude : (Numeral.ofIndex position).magnitude = position.toNat := Nat.ofDigitChars_ten_toDigits
  have hinteger : (Numeral.ofIndex position).isInteger = true := rfl
  have hsign : (Numeral.ofIndex position).negative = false := rfl
  have hlt : position.toNat < UInt64.size := position.toNat_lt
  simp [Number.ofNumeral?, hinteger, hsign, hmagnitude, hlt]

theorem reads_index (layout : Layout) (depth : Nat) (position : UInt64) :
    Reads layout indexReader depth (.number (.natural position)) position := by
  have hwritten := isWritten_ofIndex position
  obtain ⟨c, digits, hdigits, hstart⟩ := hwritten.exists_cons
  have hnone := not_mem_of_startsNumber hstart
  simp only [List.mem_cons, not_or] at hnone
  have hblank : isBlank c = false := by simp [isBlank, hnone]
  have hwrite (level : Nat) : write layout level (.number (.natural position)) = c :: digits := by
    rw [write, Number.write, hdigits]
  refine ⟨fun level => ⟨c, digits, hwrite level, hblank, by simp [hnone]⟩, fun level gap rest hgap hrest => ?_⟩
  have hread : readNumber (c :: (digits ++ rest)) = .ok (.natural position) rest := by
    rw [← List.cons_append, ← hdigits, readNumber, readNumeral_append hwritten hrest, Parsed.andThen_ok,
      ofNumeral?_ofIndex]
  rw [hwrite, List.cons_append, indexReader, skipBlank_gap_cons hgap hblank]
  simp [hstart, hread, indexOfNumber]

end Json

namespace FieldPath

theorem Segment.reads_toJson (hlayout : layout.IsBlank) (depth : Nat) (segment : Segment) :
    Reads layout (Json.variantReader segmentVariants) (depth + 1) segment.toJson segment := by
  cases segment with
  | key name => exact Json.reads_tagged hlayout rfl (Json.reads_string layout depth name)
  | index position => exact Json.reads_tagged hlayout rfl (Json.reads_index layout depth position)

theorem reads_toJson (hlayout : layout.IsBlank) (depth : Nat) (path : FieldPath) :
    Reads layout record.reader (depth + 3) path.toJson path := by
  have hsegments : Reads layout (Json.listReader (Json.variantReader segmentVariants)) (depth + 2)
      (.array (path.segments.map Segment.toJson)) path.segments :=
    Json.reads_array hlayout (List.forall₂_map_left_iff.2 (List.forall₂_same.2 fun segment _ =>
      segment.reads_toJson hlayout depth))
  refine Json.reads_record hlayout ⟨⟨some path.segments⟩, ?_, rfl⟩
  exact .cons (Json.readsEntry_field hlayout rfl rfl hsegments) .nil

/-- A path is read back from its JSON text, on one line or laid out, and what is read back answers every lookup
as the path does, with the same message where it fails. -/
theorem ofText?_toText_lookup (path : FieldPath) :
    ofText? path.toText = .ok path ∧ ofText? path.toJson.pretty = .ok path ∧
      ∀ document, (ofText? path.toText).map (fun read => (read.lookup document).mapError LookupError.message) =
        .ok ((path.lookup document).mapError LookupError.message) := by
  have hcompact : ofText? path.toText = .ok path :=
    Json.readText_write (path.reads_toJson Layout.isBlank_compact 124)
  have hpretty : ofText? path.toJson.pretty = .ok path :=
    Json.readText_write (path.reads_toJson Layout.isBlank_pretty 124)
  refine ⟨hcompact, hpretty, fun document => ?_⟩
  rw [hcompact]
  rfl

end FieldPath

end ResourceGraph
