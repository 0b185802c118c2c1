import Microcode.Proofs.Outputs

/-!
The names that a header defines. A layout holds each stem once and a builder each label once, but a
field is named by its short name, which two stems may have in common. A header therefore defines
each name once exactly if no two stems of its layout can be taken for each other; the labels never
get in the way.
-/
namespace Microcode

structure Definition where
  name : String
  body : String

def Definition.text (d : Definition) : String := s!"`define {d.name} {d.body}\n"

/-- Stems that differ at most in the case of their letters and in one underscore at the end. -/
def Confusable (s t : String) : Prop :=
  s.toList.map Char.toLower = t.toList.map Char.toLower ∨
  (s.toList.map Char.toLower = t.toList.map Char.toLower ++ ['_'] ∧
    t.toList.getLast? ≠ some '_') ∨
  (t.toList.map Char.toLower = s.toList.map Char.toLower ++ ['_'] ∧
    s.toList.getLast? ≠ some '_')

def Field.defined (f : Field) : Definition :=
  ⟨"MICRO_DATA_" ++ f.shortName, s!"micro_data[{f.last.text}:{f.first.text}]"⟩

def Builder.definedLabels (b : Builder) (width : Datum) : List Definition :=
  b.exports.map fun entry => ⟨entry.1, s!"{width.plainText}'d{entry.2}"⟩

/-! Short names. -/

theorem toLower_eq_underscore {c : Char} : c.toLower = '_' ↔ c = '_' := by
  constructor
  · intro lowered
    unfold Char.toLower at lowered
    split at lowered
    · rename_i upper
      have least : 65 ≤ c.val.toNat := UInt32.le_iff_toNat_le.mp upper.1
      have most : c.val.toNat ≤ 90 := UInt32.le_iff_toNat_le.mp upper.2
      have step : ('a'.val - 'A'.val).toNat = 32 := rfl
      have mark : '_'.val.toNat = 95 := rfl
      have code := congrArg (fun d : Char => d.val.toNat) lowered
      simp only [UInt32.toNat_add] at code
      omega
    · exact lowered
  · rintro rfl
    rfl

theorem Field.shortName_cases (f : Field) :
    (f.stem.toList.getLast? = some '_' ∧
      f.stem.toList.map Char.toLower = f.shortName.toList ++ ['_']) ∨
    (f.stem.toList.getLast? ≠ some '_' ∧ f.stem.toList.map Char.toLower = f.shortName.toList) := by
  unfold Field.shortName
  by_cases last : f.stem.toList.getLast? = some '_'
  · refine .inl ⟨last, ?_⟩
    obtain ⟨front, split⟩ := List.getLast?_eq_some_iff.mp last
    simp [split]
  · exact .inr ⟨last, by simp [last]⟩

theorem toLower_not_ending {chars front : List Char} (other : chars.getLast? ≠ some '_') :
    chars.map Char.toLower ≠ front ++ ['_'] := by
  intro same
  have last := congrArg List.getLast? same
  rw [List.getLast?_map, List.getLast?_concat, Option.map_eq_some_iff] at last
  obtain ⟨c, here, lowered⟩ := last
  exact other (toLower_eq_underscore.mp lowered ▸ here)

theorem Field.shortName_eq_iff {f g : Field} :
    f.shortName = g.shortName ↔ Confusable f.stem g.stem := by
  rw [← String.toList_inj]
  unfold Confusable
  rcases f.shortName_cases with ⟨last, low⟩ | ⟨last, low⟩ <;>
    rcases g.shortName_cases with ⟨last', low'⟩ | ⟨last', low'⟩
  · simp [low, low', last, last']
  · have other := fun front => low' ▸ @toLower_not_ending _ front last'
    simp [low, low', last, last', (other _).symm]
  · have other := fun front => low ▸ @toLower_not_ending _ front last
    simp [low, low', last, last', other, eq_comm]
  · have other := fun front => low ▸ @toLower_not_ending _ front last
    have other' := fun front => low' ▸ @toLower_not_ending _ front last'
    simp [low, low', other, other']

/-! Names of fields and labels. -/

section

variable {layout : Layout} {b : Builder}

theorem Field.defined_text (f : Field) : f.defined.text = f.definition := by
  unfold Field.defined Definition.text Field.definition
  generalize f.shortName = name
  generalize f.last.text = high
  generalize f.first.text = low
  apply String.toList_inj.mp
  simp [toString]

theorem definedLabels_text (width : Datum) :
    (b.definedLabels width).map Definition.text = b.exports.map (exportText width) := by
  rw [Builder.definedLabels, List.map_map]
  apply List.map_congr_left
  intro entry _
  simp only [Function.comp_apply, Definition.text, exportText, toString, String.append_assoc]

theorem definedLabels_names (width : Datum) :
    (b.definedLabels width).map Definition.name =
      (Assoc.keys b.labels).filter (Text.startsWith exportMarker) := by
  simp only [Builder.definedLabels, Builder.exports, Builder.exportedLabels, List.map_map,
    Assoc.keys, List.filter_map]
  rfl

theorem fieldNames_once :
    (layout.fields.map fun f => f.defined.name).Nodup ↔
      layout.fields.Pairwise fun f g => ¬ Confusable f.stem g.stem := by
  rw [List.Nodup, List.pairwise_map]
  apply List.Pairwise.iff
  intro f g
  rw [← Field.shortName_eq_iff]
  simp [Field.defined]

/-- The name of a field parts from every exported label at its sixth character. -/
theorem defined_ne_label (f : Field) {label : String}
    (marked : Text.startsWith exportMarker label = true) : f.defined.name ≠ label := by
  rintro rfl
  simp [Text.startsWith, exportMarker, Field.defined] at marked

end

/-- A header defines the fields of the layout, and after them the exported labels, in the order of
their declarations. It defines each name once exactly if no two stems of the layout can be taken for
each other, whatever labels have been declared. -/
theorem header_names [Machine] {layout : Layout} (symbols : SymbolTable) (debug : Bool)
    (calls : List Call) (width : Datum) :
    let b := (Builder.fresh (some layout) symbols debug).afterCalls calls
    let fields := layout.fields.map Field.defined
    let labels := b.definedLabels width
    (∀ text, b.header width = .ok text →
      text = headerComment ++ String.join (fields.map Definition.text) ++ "\n" ++
        String.join (labels.map Definition.text)) ∧
    labels.map Definition.name = (Assoc.keys b.labels).filter (Text.startsWith exportMarker) ∧
    (((fields ++ labels).map Definition.name).Nodup ↔
      layout.fields.Pairwise fun f g => ¬ Confusable f.stem g.stem) := by
  intro b fields labels
  have sound : b.Sound layout := Builder.Sound.afterCalls layout symbols debug calls
  have names : labels.map Definition.name = _ := definedLabels_names width
  refine ⟨?_, names, ?_⟩
  · intro text made
    rw [header_text sound.layout_given sound.labels_placed made, definedLabels_text, List.map_map]
    simp only [Function.comp_def, Field.defined_text]
  · rw [List.map_append, names, List.nodup_append', List.map_map, ← fieldNames_once]
    constructor
    · exact And.left
    · intro once
      refine ⟨once, sound.labels_once.filter _, ?_⟩
      intro name field label
      obtain ⟨f, _, rfl⟩ := List.mem_map.mp field
      exact defined_ne_label f (List.mem_filter.mp label).2 rfl

/-- A layout of two fields with an exported label and another one. -/
theorem header_names_one_label :
    let calls : List Call := [.declareLabel "MICROPC_GO", .declareLabel "a"]
    let b := (Builder.fresh (some Layout.small) [] false).afterCalls calls
    b.header (.value (.int 9)) = .ok (headerComment ++ "`define MICRO_DATA_op micro_data[2:0]\n" ++
      "`define MICRO_DATA_procedure micro_data[6:3]\n" ++ "\n" ++ "`define MICROPC_GO 9'd0\n") ∧
    ((Layout.small.fields.map Field.defined ++ b.definedLabels (.value (.int 9))).map
      Definition.name).Nodup := by
  intro calls b
  obtain ⟨text, _, once⟩ :=
    @header_names _ Layout.small [] false calls (.value (.int 9))
  have made : (b.header (.value (.int 9))).toOption.isSome = true := by decide +kernel
  obtain ⟨header, found⟩ := Option.isSome_iff_exists.mp made
  have accepted := toOption_eq_some.mp found
  refine ⟨?_, once.mpr (by unfold Confusable; decide)⟩
  rw [accepted, text header accepted]
  decide +kernel

/-- Two fields of one layout may be defined under the same name. -/
theorem header_defines_twice :
    let ranges : Assoc (Value × Value) := [("OP_", .int 0, .int 2), ("op", .int 3, .int 4)]
    ∃ layout, (Assoc.keys ranges).Nodup ∧ (Layout.build ranges none).result = .ok layout ∧
      (Builder.fresh (some layout) [] false).header (.value (.int 9)) = .ok
        (headerComment ++ "`define MICRO_DATA_op micro_data[2:0]\n" ++
          "`define MICRO_DATA_op micro_data[4:3]\n" ++ "\n") := by
  refine ⟨⟨[⟨0, "OP_", .int 0, .int 2, by decide⟩, ⟨1, "op", .int 3, .int 4, by decide⟩], .int 5⟩,
    by decide, by decide +kernel, by decide +kernel⟩

end Microcode
