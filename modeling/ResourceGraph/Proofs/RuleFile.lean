import ResourceGraph.Proofs.WrittenJson
import ResourceGraph.Rule.Json

/-!
# Rule files

A rule table that is written as a file is read back as it was (`RuleTable.ofText?_toText`): every rule and every
criterion in its place, and every text character by character, whatever it holds. Rules and criteria are
records with all their fields, so each is read back once its fields are.
-/

namespace ResourceGraph

open Json (Layout Reads listReader reads_array reads_record reads_string reads_variant readsEntry_field)

variable {layout : Layout}

theorem Comparison.reads_name (layout : Layout) (depth : Nat) (comparison : Comparison) :
    Reads layout Comparison.reader depth (.string comparison.name) comparison := by
  cases comparison with
  | containsAll => exact reads_variant rfl rfl layout depth
  | exactMatch => exact reads_variant rfl rfl layout depth

theorem Criterion.reads_toJson (hlayout : layout.IsBlank) (depth : Nat) (criterion : Criterion) :
    Reads layout Criterion.record.reader (depth + 1) criterion.toJson criterion := by
  have hfieldA := reads_string layout depth criterion.fieldA
  have hfieldB := reads_string layout depth criterion.fieldB
  have hcomparison := Comparison.reads_name layout depth criterion.comparison
  refine reads_record hlayout ⟨⟨some criterion.fieldA, some criterion.fieldB, some criterion.comparison⟩, ?_, rfl⟩
  refine .cons (readsEntry_field hlayout rfl rfl hfieldA) ?_
  refine .cons (readsEntry_field hlayout rfl rfl hfieldB) ?_
  exact .cons (readsEntry_field hlayout rfl rfl hcomparison) .nil

theorem Rule.reads_toJson (hlayout : layout.IsBlank) (depth : Nat) (rule : Rule) :
    Reads layout Rule.record.reader (depth + 3) rule.toJson rule := by
  have hkindA := reads_string layout (depth + 2) rule.kindA
  have hkindB := reads_string layout (depth + 2) rule.kindB
  have hrelationship := reads_string layout (depth + 2) rule.relationship.name
  have hcriteria : Reads layout (listReader Criterion.record.reader) (depth + 2)
      (.array (rule.criteria.map Criterion.toJson)) rule.criteria :=
    reads_array hlayout (List.forall₂_map_left_iff.2 (List.forall₂_same.2 fun criterion _ =>
      criterion.reads_toJson hlayout depth))
  refine reads_record hlayout
    ⟨⟨some rule.kindA, some rule.kindB, some rule.relationship.name, some rule.criteria⟩, ?_, rfl⟩
  refine .cons (readsEntry_field hlayout rfl rfl hkindA) ?_
  refine .cons (readsEntry_field hlayout rfl rfl hkindB) ?_
  refine .cons (readsEntry_field hlayout rfl rfl hrelationship) ?_
  exact .cons (readsEntry_field hlayout rfl rfl hcriteria) .nil

theorem RuleTable.reads_toJson (hlayout : layout.IsBlank) (depth : Nat) (table : RuleTable) :
    Reads layout RuleTable.reader (depth + 4) table.toJson table := by
  have hrules : Reads layout (listReader Rule.record.reader) (depth + 4)
      (.array (table.rules.map Rule.toJson)) table.rules :=
    reads_array hlayout (List.forall₂_map_left_iff.2 (List.forall₂_same.2 fun rule _ =>
      rule.reads_toJson hlayout depth))
  exact hrules.map RuleTable.mk

/-- A rule table is read back from its own file. -/
theorem RuleTable.ofText?_toText (table : RuleTable) : RuleTable.ofText? table.toText = .ok table :=
  Json.readText_write (table.reads_toJson Json.Layout.isBlank_pretty 123)

end ResourceGraph
