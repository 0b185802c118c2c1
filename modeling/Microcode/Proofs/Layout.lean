import Microcode.Layout
import Microcode.Proofs.Assoc
import Microcode.Proofs.Checks
import Mathlib.Data.List.Perm.Basic

/-!
Layouts that can be built, and the field that owns a name. The overlap check compares only
neighbours by their lowest bit; since no field ends before it begins, that keeps any two fields
apart.
-/
namespace Microcode

namespace Layout

def Covers (range : String × Value × Value) (bit : Int) : Prop :=
  range.2.1.toInt ≤ bit ∧ bit ≤ range.2.2.toInt

def Share (one other : String × Value × Value) : Prop :=
  ∃ bit, Covers one bit ∧ Covers other bit

theorem Share.symm {one other : String × Value × Value} (shared : Share one other) :
    Share other one := by
  obtain ⟨bit, here, there⟩ := shared
  exact ⟨bit, there, here⟩

end Layout

namespace Field

def entry (f : Field) : String × Value × Value := (f.stem, f.first, f.last)

def Apart (f g : Field) : Prop := ¬ Layout.Share f.entry g.entry

theorem Apart.symm {f g : Field} (apart : f.Apart g) : g.Apart f :=
  fun shared => apart shared.symm

theorem apart_iff {f g : Field} : f.Apart g ↔ f.high < g.low ∨ g.high < f.low := by
  have one := f.first_le_last
  have other := g.first_le_last
  simp only [Apart, low, high, Layout.Share, Layout.Covers, entry]
  constructor
  · intro clear
    -- fields of which none ends below the other share the higher of their lowest bits
    by_contra close
    exact clear ⟨max f.first.toInt g.first.toInt, by omega, by omega⟩
  · rintro parted ⟨bit, here, there⟩
    omega

theorem pairwise_apart_iff {fields : List Field} :
    fields.Pairwise Apart ↔
      (fields.map entry).Pairwise fun one other => ¬ Layout.Share one other := by
  rw [List.pairwise_map]
  rfl

end Field

/-- A stem of the layout that begins the name and is longer than every other one that does. -/
structure LongestStem (layout : Layout) (name stem : String) : Prop where
  declared : ∃ field ∈ layout.fields, field.stem = stem
  begins : Text.startsWith stem name = true
  longest : ∀ field ∈ layout.fields, Text.startsWith field.stem name = true →
    field.stem = stem ∨ field.stem.toList.length < stem.toList.length

theorem LongestStem.unique {layout : Layout} {name s t : String} (first : LongestStem layout name s)
    (second : LongestStem layout name t) : s = t := by
  obtain ⟨f, held, rfl⟩ := first.declared
  obtain ⟨g, held', rfl⟩ := second.declared
  rcases second.longest f held first.begins with same | shorter
  · exact same
  · rcases first.longest g held' second.begins with same | shorter'
    · exact same.symm
    · omega

namespace Layout

/-- The layouts that can be built; bit ranges are given once for each stem. -/
def Built [Machine] (layout : Layout) : Prop :=
  ∃ ranges width, (Assoc.keys ranges).Nodup ∧ (build ranges width).result = .ok layout

structure Sound (layout : Layout) : Prop where
  stems_once : (layout.fields.map Field.stem).Nodup
  fits : ∀ field ∈ layout.fields, field.high < layout.width
  apart : layout.fields.Pairwise Field.Apart

theorem field?_some {layout : Layout} {stem : String} {field : Field}
    (found : layout.field? stem = some field) : field ∈ layout.fields ∧ field.stem = stem := by
  unfold field? at found
  exact ⟨List.mem_of_find?_eq_some found, by simpa using List.find?_some found⟩

theorem field?_isSome_iff {layout : Layout} {stem : String} :
    (layout.field? stem).isSome ↔ ∃ field ∈ layout.fields, field.stem = stem := by
  simp [field?, List.find?_isSome]

theorem lookup_entries (layout : Layout) (stem : String) :
    (layout.fields.map Field.entry).lookup stem =
      (layout.field? stem).map fun f => (f.first, f.last) := by
  unfold field?
  induction layout.fields with
  | nil => rfl
  | cons f rest ih =>
    rw [List.map_cons, Field.entry, List.lookup_cons, List.find?_cons, Bool.beq_comm]
    cases f.stem == stem with
    | true => rfl
    | false => exact ih

/-! The owner of a name. -/

theorem startsWith_same_length {s t name : String} (first : Text.startsWith s name = true)
    (second : Text.startsWith t name = true) (same : s.toList.length = t.toList.length) :
    s = t := by
  unfold Text.startsWith at first second
  rw [List.isPrefixOf_iff_prefix] at first second
  have nested := List.prefix_of_prefix_length_le first second (Nat.le_of_eq same)
  exact String.toList_inj.mp (nested.eq_of_length same)

def Best (name : String) (seen : List Field) : Option Field → Prop
  | none => ∀ field ∈ seen, Text.startsWith field.stem name = false
  | some best => best ∈ seen ∧ Text.startsWith best.stem name = true ∧
      ∀ field ∈ seen, Text.startsWith field.stem name = true →
        field.stem.toList.length ≤ best.stem.toList.length

theorem better_best {name : String} {seen : List Field} {best : Option Field}
    (sofar : Best name seen best) (f : Field) : Best name (seen ++ [f]) (better name best f) := by
  unfold better
  split
  · rename_i begins
    cases best with
    | none =>
      refine ⟨by simp, begins, ?_⟩
      intro g member begins'
      rcases List.mem_append.mp member with old | new
      · rw [sofar g old] at begins'
        cases begins'
      · exact Nat.le_of_eq (by rw [List.mem_singleton.mp new])
    | some b =>
      obtain ⟨held, start, most⟩ := sofar
      dsimp only
      split
      · rename_i longer
        refine ⟨by simp, begins, ?_⟩
        intro g member begins'
        rcases List.mem_append.mp member with old | new
        · exact Nat.le_trans (most g old begins') (Nat.le_of_lt longer)
        · exact Nat.le_of_eq (by rw [List.mem_singleton.mp new])
      · rename_i shorter
        refine ⟨List.mem_append_left _ held, start, ?_⟩
        intro g member begins'
        rcases List.mem_append.mp member with old | new
        · exact most g old begins'
        · rw [List.mem_singleton.mp new]
          exact Nat.le_of_not_lt shorter
  · rename_i other
    have other' : Text.startsWith f.stem name = false := by simpa using other
    cases best with
    | none =>
      intro g member
      rcases List.mem_append.mp member with old | new
      · exact sofar g old
      · rw [List.mem_singleton.mp new, other']
    | some b =>
      obtain ⟨held, start, most⟩ := sofar
      refine ⟨List.mem_append_left _ held, start, ?_⟩
      intro g member begins
      rcases List.mem_append.mp member with old | new
      · exact most g old begins
      · rw [List.mem_singleton.mp new, other'] at begins
        cases begins

theorem owner?_best (layout : Layout) (name : String) :
    Best name layout.fields (layout.owner? name) := by
  have run : ∀ (fields seen : List Field) (best : Option Field), Best name seen best →
      Best name (seen ++ fields) (fields.foldl (better name) best) := by
    intro fields
    induction fields with
    | nil => simp
    | cons f rest ih =>
      intro seen best sofar
      have step := ih (seen ++ [f]) (better name best f) (better_best sofar f)
      rwa [List.append_assoc] at step
  exact run layout.fields [] none (by simp [Best])

theorem owner?_longest {layout : Layout} {name : String} {field : Field}
    (owned : layout.owner? name = some field) : LongestStem layout name field.stem := by
  have best := owner?_best layout name
  rw [owned] at best
  obtain ⟨held, begins, most⟩ := best
  refine ⟨⟨field, held, rfl⟩, begins, ?_⟩
  intro g member begins'
  rcases Nat.lt_or_eq_of_le (most g member begins') with shorter | same
  · exact .inr shorter
  · exact .inl (startsWith_same_length begins' begins same)

theorem owner?_none_iff {layout : Layout} {name : String} :
    layout.owner? name = none ↔
      ∀ field ∈ layout.fields, Text.startsWith field.stem name = false := by
  have best := owner?_best layout name
  constructor
  · intro none
    rwa [none] at best
  · intro absent
    cases owned : layout.owner? name with
    | none => rfl
    | some field =>
      rw [owned] at best
      have begins := best.2.1
      rw [absent field best.1] at begins
      cases begins

theorem owner?_of_longest {layout : Layout} {name stem : String}
    (longest : LongestStem layout name stem) :
    ∃ field, layout.owner? name = some field ∧ field.stem = stem := by
  cases owned : layout.owner? name with
  | none =>
    obtain ⟨f, held, rfl⟩ := longest.declared
    cases longest.begins.symm.trans (owner?_none_iff.mp owned f held)
  | some field => exact ⟨field, rfl, (owner?_longest owned).unique longest⟩

/-! Built layouts. -/

def Usable (range : String × Value × Value) : Prop :=
  range.1 ≠ "" ∧ Text.isAscii range.1 = true ∧
    0 ≤ range.2.1.toInt ∧ range.2.1.toInt ≤ range.2.2.toInt

theorem numberFields_ok {ranges : Assoc (Value × Value)} {index : Nat} {fields : List Field}
    (numbered : numberFields index ranges = .ok fields) :
    fields.map Field.entry = ranges ∧ ∀ range ∈ ranges, Usable range := by
  induction ranges generalizing index fields with
  | nil =>
    cases numbered
    exact ⟨rfl, by simp⟩
  | cons range rest ih =>
    obtain ⟨stem, low, high⟩ := range
    unfold numberFields at numbered
    split at numbered
    · cases numbered
    · rename_i named
      split at numbered
      · cases numbered
      · rename_i ascii
        split at numbered
        · rename_i order
          cases later : numberFields (index + 1) rest with
          | error e =>
            rw [later] at numbered
            cases numbered
          | ok others =>
            rw [later] at numbered
            cases numbered
            obtain ⟨entries, usable⟩ := ih later
            refine ⟨congrArg ((stem, low, high) :: ·) entries, ?_⟩
            refine List.forall_mem_cons.mpr ⟨⟨named, by simpa using ascii, order⟩, usable⟩
        · cases numbered

theorem numberFields_of_usable {ranges : Assoc (Value × Value)}
    (usable : ∀ range ∈ ranges, Usable range) (index : Nat) :
    ∃ fields, numberFields index ranges = .ok fields := by
  induction ranges generalizing index with
  | nil => exact ⟨[], rfl⟩
  | cons range rest ih =>
    obtain ⟨⟨named, ascii, order⟩, later⟩ := List.forall_mem_cons.mp usable
    obtain ⟨others, numbered⟩ := ih later (index + 1)
    refine ⟨⟨index, range.1, range.2.1, range.2.2, order⟩ :: others, ?_⟩
    rw [numberFields, if_neg named, if_neg (by simp [ascii]), dif_pos order, numbered]
    rfl

theorem numberFields_stems {ranges : Assoc (Value × Value)} {index : Nat} {fields : List Field}
    (numbered : numberFields index ranges = .ok fields) :
    fields.map Field.stem = Assoc.keys ranges := by
  rw [← (numberFields_ok numbered).1, Assoc.keys, List.map_map]
  rfl

theorem last_le_topBit (fields : List Field) :
    ∀ f ∈ fields, f.last.toInt ≤ (topBit fields).toInt := by
  have run : ∀ (fields : List Field) (top : Value),
      top.toInt ≤ (fields.foldl (fun top f => if top.toInt < f.last.toInt then f.last else top)
        top).toInt ∧
      ∀ f ∈ fields, f.last.toInt ≤ (fields.foldl
        (fun top f => if top.toInt < f.last.toInt then f.last else top) top).toInt := by
    intro fields
    induction fields with
    | nil => simp
    | cons g rest ih =>
      intro top
      have here : top.toInt ≤ (if top.toInt < g.last.toInt then g.last else top).toInt ∧
          g.last.toInt ≤ (if top.toInt < g.last.toInt then g.last else top).toInt := by
        split <;> omega
      obtain ⟨above, each⟩ := ih (if top.toInt < g.last.toInt then g.last else top)
      rw [List.foldl_cons, List.forall_mem_cons]
      exact ⟨Int.le_trans here.1 above, Int.le_trans here.2 above, each⟩
  exact (run fields (.int (-1))).2

theorem insertByLow_perm (f : Field) (fields : List Field) :
    (insertByLow f fields).Perm (f :: fields) := by
  induction fields with
  | nil => exact .refl _
  | cons g rest ih =>
    unfold insertByLow
    split
    · exact .refl _
    · exact (ih.cons g).trans (.swap f g rest)

theorem sortByLow_perm (fields : List Field) : (sortByLow fields).Perm fields := by
  induction fields with
  | nil => exact .refl _
  | cons f rest ih => exact (insertByLow_perm f _).trans (ih.cons f)

/-- Neighbours that share no bit keep every two fields of a list apart. -/
theorem pairwise_of_neighbours {fields : List Field} (clear : neighboursSharing fields = none) :
    fields.Pairwise fun f g => f.high < g.low := by
  fun_induction neighboursSharing fields with
  | case1 f g rest shared => cases clear
  | case2 f g rest parted ih =>
    have later := ih clear
    refine List.pairwise_cons.mpr ⟨?_, later⟩
    intro h member
    rcases List.mem_cons.mp member with rfl | beyond
    · omega
    · have order := g.low_le_high
      have next := (List.pairwise_cons.mp later).1 h beyond
      omega
  | case3 fields short =>
    match fields, short with
    | [], _ => exact .nil
    | [f], _ => exact List.pairwise_singleton _ f
    | f :: g :: rest, short => exact absurd rfl (short f g rest)

theorem insertByLow_sorted (f : Field) {fields : List Field}
    (sorted : fields.Pairwise fun g h => g.low ≤ h.low) :
    (insertByLow f fields).Pairwise fun g h => g.low ≤ h.low := by
  induction fields with
  | nil => exact List.pairwise_singleton _ f
  | cons g rest ih =>
    obtain ⟨first, later⟩ := List.pairwise_cons.mp sorted
    unfold insertByLow
    split
    · rename_i low
      refine List.pairwise_cons.mpr ⟨?_, sorted⟩
      exact List.forall_mem_cons.mpr ⟨low, fun h member => Nat.le_trans low (first h member)⟩
    · rename_i high
      refine List.pairwise_cons.mpr ⟨?_, ih later⟩
      intro h member
      rcases List.mem_cons.mp ((insertByLow_perm f rest).subset member) with rfl | old
      · omega
      · exact first h old

theorem sortByLow_sorted (fields : List Field) :
    (sortByLow fields).Pairwise fun g h => g.low ≤ h.low := by
  induction fields with
  | nil => exact .nil
  | cons f rest ih => exact insertByLow_sorted f ih

theorem neighbours_of_pairwise {fields : List Field}
    (sorted : fields.Pairwise fun g h => g.low ≤ h.low) (apart : fields.Pairwise Field.Apart) :
    neighboursSharing fields = none := by
  fun_induction neighboursSharing fields with
  | case1 f g rest shared =>
    have parted := (List.pairwise_cons.mp apart).1 g List.mem_cons_self
    have order := (List.pairwise_cons.mp sorted).1 g List.mem_cons_self
    have proper := g.low_le_high
    rw [Field.apart_iff] at parted
    omega
  | case2 f g rest parted ih =>
    exact ih (List.pairwise_cons.mp sorted).2 (List.pairwise_cons.mp apart).2
  | case3 => rfl

theorem neighboursSharing_none_iff {fields : List Field} :
    neighboursSharing (sortByLow fields) = none ↔ fields.Pairwise Field.Apart := by
  have perm := sortByLow_perm fields
  constructor
  · intro clear
    have parted := (pairwise_of_neighbours clear).imp fun below => Field.apart_iff.mpr (.inl below)
    exact perm.pairwise parted Field.Apart.symm
  · intro apart
    exact neighbours_of_pairwise (sortByLow_sorted fields)
      (perm.symm.pairwise apart Field.Apart.symm)

theorem ofRanges_ok_iff {ranges : Assoc (Value × Value)} {width : Option Value} {layout : Layout} :
    ofRanges ranges width = .ok layout ↔
      numberFields 0 ranges = .ok layout.fields ∧
      layout.size = width.getD (.int ((topBit layout.fields).toInt + 1)) ∧
      (topBit layout.fields).toInt < layout.size.toInt ∧
      layout.fields.Pairwise Field.Apart := by
  unfold ofRanges
  rw [bind_ok_iff]
  constructor
  · rintro ⟨fields, numbered, accepted⟩
    dsimp only at accepted
    split at accepted
    · cases accepted
    · rename_i wide
      split at accepted
      · cases accepted
      · rename_i clear
        cases accepted
        exact ⟨numbered, rfl, Int.not_le.mp wide, neighboursSharing_none_iff.mp clear⟩
  · rintro ⟨numbered, size, wide, apart⟩
    refine ⟨layout.fields, numbered, ?_⟩
    dsimp only
    rw [← size, if_neg (by omega), neighboursSharing_none_iff.mpr apart]
    rfl

theorem ofRanges_sound {ranges : Assoc (Value × Value)} {width : Option Value} {layout : Layout}
    (once : (Assoc.keys ranges).Nodup) (accepted : ofRanges ranges width = .ok layout) :
    layout.Sound := by
  obtain ⟨numbered, _, wide, apart⟩ := ofRanges_ok_iff.mp accepted
  refine ⟨?_, ?_, apart⟩
  · rw [numberFields_stems numbered]
    exact once
  · intro f member
    have below := last_le_topBit layout.fields f member
    have order := f.first_le_last
    simp only [Field.high, Layout.width]
    omega

theorem build_ok [Machine] {ranges : Assoc (Value × Value)} {width : Option Value} {layout : Layout}
    (built : (build ranges width).result = .ok layout) :
    ofRanges ranges width = .ok layout ∧ (build ranges width).events = layout.warnings := by
  unfold build at built ⊢
  simp only [bind, Logged.bind, Logged.ofExcept, Logged.tell] at built ⊢
  cases accepted : ofRanges ranges width with
  | error e =>
    rw [accepted] at built
    cases built
  | ok l =>
    simp only [accepted] at built ⊢
    cases judged : l.judgeable with
    | error e =>
      rw [judged] at built
      cases built
    | ok u =>
      simp only [judged] at built ⊢
      cases built
      exact ⟨rfl, by simp [pure, Logged.pure]⟩

theorem build_ok_iff [Machine] {ranges : Assoc (Value × Value)} {width : Option Value}
    {layout : Layout} :
    (build ranges width).result = .ok layout ↔
      ofRanges ranges width = .ok layout ∧ layout.judgeable = .ok () := by
  unfold build
  simp only [Logged.bind_ok_iff, Logged.ofExcept_result, Logged.tell_result, Logged.pure_result,
    Except.ok.injEq]
  constructor
  · rintro ⟨_, accepted, ⟨⟩, judged, _, _, rfl⟩
    exact ⟨accepted, judged⟩
  · rintro ⟨accepted, judged⟩
    exact ⟨layout, accepted, (), judged, (), trivial, rfl⟩

theorem Built.sound [Machine] {layout : Layout} (built : layout.Built) : layout.Sound := by
  obtain ⟨ranges, width, once, accepted⟩ := built
  exact ofRanges_sound once (build_ok accepted).1

theorem Built.stems_ascii [Machine] {layout : Layout} (built : layout.Built) {f : Field}
    (member : f ∈ layout.fields) : Text.isAscii f.stem = true := by
  obtain ⟨ranges, width, _, accepted⟩ := built
  obtain ⟨entries, usable⟩ := numberFields_ok (ofRanges_ok_iff.mp (build_ok accepted).1).1
  have held : f.entry ∈ ranges := entries ▸ List.mem_map_of_mem member
  exact (usable f.entry held).2.1

theorem Built.size_nonneg [Machine] {layout : Layout} (built : layout.Built) :
    0 ≤ layout.size.toInt := by
  obtain ⟨ranges, width, _, accepted⟩ := built
  obtain ⟨_, _, wide, _⟩ := ofRanges_ok_iff.mp (build_ok accepted).1
  have bottom : -1 ≤ (topBit layout.fields).toInt := by
    cases layout.fields with
    | nil => decide
    | cons f rest =>
      have top := last_le_topBit (f :: rest) f List.mem_cons_self
      have ordered := f.first_le_last
      omega
  omega

/-- A small layout: an operation of three bits, and a branch of four bits above it. -/
def small : Layout where
  fields := [⟨0, "OP_", .int 0, .int 2, by decide⟩, ⟨1, "PROCEDURE_", .int 3, .int 6, by decide⟩]
  size := .int 7

theorem small_built : small.Built :=
  ⟨[("OP_", .int 0, .int 2), ("PROCEDURE_", .int 3, .int 6)], none, by decide, by decide⟩

end Layout

end Microcode
