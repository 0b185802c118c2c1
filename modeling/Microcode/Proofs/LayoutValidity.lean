import Microcode.Proofs.DeclarationOrder

/-!
Which layouts can be built. A layout is described by its declared ranges alone, bit by bit, and the
checks accept exactly the valid ones: the test of neighbours finds any two fields that share a bit,
and comparing the width with the highest bit compares it with all of them. There is one limit more.
The offsets that the branch field can tell apart are counted in order to judge it, so a branch field
may be too wide for the machine although nothing is wrong with it.
-/
namespace Microcode

namespace Layout

/-- The width of the word: the one that is given, or one more than the highest bit. -/
def wordWidth (ranges : Assoc (Value × Value)) : Option Value → Int
  | some width => width.toInt
  | none => (ranges.map fun range => range.2.2.toInt).foldl max (-1) + 1

structure Valid (ranges : Assoc (Value × Value)) (width : Option Value) : Prop where
  named : ∀ range ∈ ranges, range.1 ≠ ""
  ascii : ∀ range ∈ ranges, Text.isAscii range.1 = true
  ordered : ∀ range ∈ ranges, 0 ≤ range.2.1.toInt ∧ range.2.1.toInt ≤ range.2.2.toInt
  apart : ranges.Pairwise fun one other => ¬ Share one other
  wide : ∀ range ∈ ranges, range.2.2.toInt < wordWidth ranges width
  nonneg : 0 ≤ wordWidth ranges width

def Countable [Machine] (ranges : Assoc (Value × Value)) : Prop :=
  ∀ low high : Value, (branchStem, low, high) ∈ ranges →
    Capacity.powerOfTwo (high.toInt - low.toInt + 1).toNat = .ok ()

/-! The checks one by one. -/

theorem overlap_found_iff (fields : List Field) :
    (neighboursSharing (sortByLow fields)).isSome = true ↔
      ∃ (i j : Nat) (f g : Field), i < j ∧ fields[i]? = some f ∧ fields[j]? = some g ∧
        Share f.entry g.entry := by
  have clear := @neighboursSharing_none_iff fields
  rw [List.pairwise_iff_getElem] at clear
  rw [Option.isSome_iff_ne_none, ne_eq, clear]
  push Not
  constructor
  · rintro ⟨i, j, inside, inside', before, close⟩
    refine ⟨i, j, fields[i], fields[j], before, List.getElem?_eq_getElem inside,
      List.getElem?_eq_getElem inside', ?_⟩
    by_contra parted
    exact close parted
  · rintro ⟨i, j, f, g, before, here, there, shared⟩
    obtain ⟨inside, rfl⟩ := List.getElem?_eq_some_iff.mp here
    obtain ⟨inside', rfl⟩ := List.getElem?_eq_some_iff.mp there
    exact ⟨i, j, inside, inside', before, fun parted => parted shared⟩

theorem topBit_lt_iff (fields : List Field) (width : Int) :
    (topBit fields).toInt < width ↔ 0 ≤ width ∧ ∀ f ∈ fields, f.last.toInt < width := by
  have run : ∀ (tops : List Int) (top : Int),
      tops.foldl max top < width ↔ top < width ∧ ∀ n ∈ tops, n < width := by
    intro tops
    induction tops with
    | nil => simp
    | cons n rest ih =>
      intro top
      rw [List.foldl_cons, ih, List.forall_mem_cons, Int.max_lt, and_assoc]
  rw [topBit_toInt, run, List.forall_mem_map]
  exact and_congr_left' ⟨fun below => by omega, fun above => by omega⟩

theorem numberFields_index {ranges : Assoc (Value × Value)} {index : Nat} {fields : List Field}
    (numbered : numberFields index ranges = .ok fields) {i : Nat} {f : Field}
    (here : fields[i]? = some f) : f.index = index + i := by
  induction ranges generalizing index fields i with
  | nil =>
    cases numbered
    cases here
  | cons range rest ih =>
    obtain ⟨stem, low, high⟩ := range
    simp only [numberFields] at numbered
    split at numbered
    · cases numbered
    · split at numbered
      · cases numbered
      · split at numbered
        · cases later : numberFields (index + 1) rest with
          | error e =>
            rw [later] at numbered
            cases numbered
          | ok others =>
            rw [later] at numbered
            cases numbered
            cases i with
            | zero =>
              cases here
              rfl
            | succ i =>
              have next := ih later here
              omega
        · cases numbered

theorem field?_some_iff {layout : Layout} (once : (layout.fields.map Field.stem).Nodup)
    {stem : String} {f : Field} :
    layout.field? stem = some f ↔ f ∈ layout.fields ∧ f.stem = stem := by
  constructor
  · exact field?_some
  · rintro ⟨member, rfl⟩
    obtain ⟨g, found⟩ := Option.isSome_iff_exists.mp
      (field?_isSome_iff.mpr ⟨f, member, rfl⟩)
    obtain ⟨member', same⟩ := field?_some found
    rw [found, List.inj_on_of_nodup_map once member' member same]

/-! Building. -/

section

variable {ranges : Assoc (Value × Value)} {width : Option Value} {layout : Layout}

theorem size_eq_wordWidth (entries : layout.fields.map Field.entry = ranges)
    (size : layout.size = width.getD (.int ((topBit layout.fields).toInt + 1))) :
    layout.size.toInt = wordWidth ranges width := by
  rw [size]
  cases width with
  | some w => rfl
  | none =>
    rw [Option.getD_none, Value.toInt, wordWidth, topBit_toInt, ← entries, List.map_map]
    rfl

/-- The checks of a layout accept exactly the valid ranges. -/
theorem ofRanges_valid_iff : (∃ layout, ofRanges ranges width = .ok layout) ↔
    Valid ranges width := by
  simp only [ofRanges_ok_iff, topBit_lt_iff, Field.pairwise_apart_iff]
  constructor
  · rintro ⟨layout, numbered, size, ⟨above, wide⟩, apart⟩
    obtain ⟨entries, usable⟩ := numberFields_ok numbered
    have same := size_eq_wordWidth entries size
    rw [same] at above wide
    rw [entries] at apart
    refine ⟨fun range member => (usable range member).1,
      fun range member => (usable range member).2.1, fun range member => (usable range member).2.2,
      apart, ?_, above⟩
    intro range member
    rw [← entries] at member
    obtain ⟨f, held, rfl⟩ := List.mem_map.mp member
    exact wide f held
  · intro valid
    have usable : ∀ range ∈ ranges, Usable range := fun range member =>
      ⟨valid.named range member, valid.ascii range member, valid.ordered range member⟩
    obtain ⟨fields, numbered⟩ := numberFields_of_usable usable 0
    have entries := (numberFields_ok numbered).1
    let layout : Layout := ⟨fields, width.getD (.int ((topBit fields).toInt + 1))⟩
    have same : layout.size.toInt = wordWidth ranges width := size_eq_wordWidth entries rfl
    refine ⟨layout, numbered, rfl, ⟨same ▸ valid.nonneg, ?_⟩, entries.symm ▸ valid.apart⟩
    intro f member
    rw [same]
    exact valid.wide f.entry (entries ▸ List.mem_map_of_mem member)

theorem build_judged [Machine] {e : Error} (accepted : ofRanges ranges width = .ok layout)
    (failed : (build ranges width).result = .error e) : layout.judgeable = .error e := by
  simp only [build, bind, Logged.bind, Logged.ofExcept, Logged.tell, accepted] at failed
  cases judged : layout.judgeable with
  | error e' =>
    rw [judged] at failed
    cases failed
    rfl
  | ok u =>
    rw [judged] at failed
    cases failed

theorem judgeable_iff [Machine] (once : (Assoc.keys ranges).Nodup)
    (accepted : ofRanges ranges width = .ok layout) :
    layout.judgeable = .ok () ↔ Countable ranges := by
  obtain ⟨numbered, _⟩ := ofRanges_ok_iff.mp accepted
  have entries := (numberFields_ok numbered).1
  have stems : (layout.fields.map Field.stem).Nodup := numberFields_stems numbered ▸ once
  have count : ∀ f : Field, f.width = (f.last.toInt - f.first.toInt + 1).toNat := by
    intro f
    have ordered := f.first_le_last
    unfold Field.width Field.high Field.low
    omega
  unfold judgeable Countable
  constructor
  · intro counted low high member
    rw [← entries] at member
    obtain ⟨f, held, same⟩ := List.mem_map.mp member
    obtain ⟨named, ends⟩ := Prod.mk.inj same
    obtain ⟨rfl, rfl⟩ := Prod.mk.inj ends
    rw [(field?_some_iff stems).mpr ⟨held, named⟩] at counted
    rw [← count]
    exact counted
  · intro counted
    split
    · rename_i f found
      obtain ⟨held, named⟩ := field?_some found
      rw [count]
      exact counted f.first f.last (named ▸ entries ▸ List.mem_map_of_mem held)
    · rfl

end

end Layout

theorem Capacity.powerOfTwo_error [Machine] {exponent : Nat} {e : Error}
    (failed : powerOfTwo exponent = .error e) : e = .integerTooLarge ∨ e = .outOfMemory := by
  unfold powerOfTwo fitsBytes at failed
  split at failed
  · exact .inl (Except.error.inj failed).symm
  · split at failed
    · exact .inr (Except.error.inj failed).symm
    · cases failed

/-- A layout is built exactly from valid ranges, unless its branch field is too wide to be judged;
nothing but the size of the machine refuses valid ranges. Neighbours that share a bit are found
exactly if any two fields share one. The fields of a layout are the ranges in their order, each with
its number, and a stem leads to its own field. -/
theorem valid_layouts_built [Machine] {ranges : Assoc (Value × Value)}
    (once : (Assoc.keys ranges).Nodup) (width : Option Value) :
    ((∃ layout, (Layout.build ranges width).result = .ok layout) ↔
      Layout.Valid ranges width ∧ Layout.Countable ranges) ∧
    (Layout.Valid ranges width → ∀ e, (Layout.build ranges width).result = .error e →
      e = .integerTooLarge ∨ e = .outOfMemory) ∧
    (∀ fields, (Layout.neighboursSharing (Layout.sortByLow fields)).isSome = true ↔
      ∃ (i j : Nat) (f g : Field), i < j ∧ fields[i]? = some f ∧ fields[j]? = some g ∧
        Layout.Share f.entry g.entry) ∧
    ∀ layout, (Layout.build ranges width).result = .ok layout →
      (∀ (i : Nat) (f : Field), layout.fields[i]? = some f → f.index = i) ∧
      layout.fields.map Field.entry = ranges ∧
      (∀ stem f, layout.field? stem = some f ↔ f ∈ layout.fields ∧ f.stem = stem) ∧
      layout.size.toInt = Layout.wordWidth ranges width := by
  refine ⟨?_, ?_, Layout.overlap_found_iff, ?_⟩
  · simp only [Layout.build_ok_iff, ← Layout.ofRanges_valid_iff]
    constructor
    · rintro ⟨layout, accepted, judged⟩
      exact ⟨⟨layout, accepted⟩, (Layout.judgeable_iff once accepted).mp judged⟩
    · rintro ⟨⟨layout, accepted⟩, counted⟩
      exact ⟨layout, accepted, (Layout.judgeable_iff once accepted).mpr counted⟩
  · intro valid e failed
    obtain ⟨layout, accepted⟩ := Layout.ofRanges_valid_iff.mpr valid
    have judged := Layout.build_judged accepted failed
    unfold Layout.judgeable at judged
    split at judged
    · exact Capacity.powerOfTwo_error judged
    · cases judged
  · intro layout built
    obtain ⟨numbered, size, _⟩ := Layout.ofRanges_ok_iff.mp (Layout.build_ok built).1
    have entries := (Layout.numberFields_ok numbered).1
    refine ⟨?_, entries, ?_, Layout.size_eq_wordWidth entries size⟩
    · intro i f here
      have index := Layout.numberFields_index numbered here
      omega
    · intro stem f
      exact Layout.field?_some_iff (Layout.numberFields_stems numbered ▸ once)

/-- Fields that are declared from the middle of the word, with the branch at its bottom. -/
theorem valid_layouts_built_out_of_order :
    let ranges : Assoc (Value × Value) :=
      [("B_", .int 4, .int 5), ("PROCEDURE_", .int 0, .int 3), ("A_", .int 6, .int 6)]
    (Assoc.keys ranges).Nodup ∧ Layout.Valid ranges none ∧
      ∃ layout, (Layout.build ranges none).result = .ok layout ∧
        layout.fields.map Field.entry = ranges ∧ layout.size.toInt = 7 := by
  intro ranges
  have once : (Assoc.keys ranges).Nodup := by decide
  obtain ⟨iff, _, _, each⟩ := valid_layouts_built once none
  have built : (Layout.build ranges none).result.toOption.isSome = true := by decide +kernel
  obtain ⟨layout, found⟩ := Option.isSome_iff_exists.mp built
  have accepted := toOption_eq_some.mp found
  obtain ⟨_, entries, _, size⟩ := each layout accepted
  exact ⟨once, (iff.mp ⟨layout, accepted⟩).1, layout, accepted, entries, size⟩

/-- Nothing is wrong with a branch field of more than 2 ^ 65 bits, but the offsets that it can tell
apart are too many to be counted. -/
theorem wide_branch_refused :
    let ranges : Assoc (Value × Value) := [("PROCEDURE_", .int 0, .int 0x3bfffffffffffff10)]
    (Assoc.keys ranges).Nodup ∧ Layout.Valid ranges none ∧
      (Layout.build ranges none).result = .error .integerTooLarge := by
  refine ⟨by decide, ⟨?_, ?_, ?_, List.pairwise_singleton _ _, ?_, by decide⟩, by decide +kernel⟩
  all_goals exact List.forall_mem_singleton.mpr (by decide)

end Microcode
