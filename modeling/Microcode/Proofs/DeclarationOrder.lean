import Microcode.Proofs.Declarations
import Microcode.Proofs.Packing

/-!
The order of the declarations in a layout file. Two layouts with the same fields in another order
give every name the same owner and pack every line into the same word, and reading a file in another
order gives such a layout as long as the same line sets the width last.
-/
namespace Microcode

namespace Layout

theorem topBit_toInt (fields : List Field) :
    (topBit fields).toInt = (fields.map fun f => f.last.toInt).foldl max (-1) := by
  have run : ∀ (fields : List Field) (top : Value),
      (fields.foldl (fun top f => if top.toInt < f.last.toInt then f.last else top) top).toInt =
        (fields.map fun f => f.last.toInt).foldl max top.toInt := by
    intro fields
    induction fields with
    | nil => exact fun _ => rfl
    | cons f rest ih =>
      intro top
      rw [List.foldl_cons, ih, List.map_cons, List.foldl_cons]
      congr 1
      split <;> omega
  exact run fields (.int (-1))

/-- Layouts of one width with the same fields, in any order. -/
structure Reorders (layout layout' : Layout) : Prop where
  fields : (layout.fields.map Field.entry).Perm (layout'.fields.map Field.entry)
  size : layout.size = layout'.size

theorem ofRanges_perm {ranges ranges' : Assoc (Value × Value)} (perm : ranges.Perm ranges')
    {width : Option Value} {layout : Layout} (accepted : ofRanges ranges width = .ok layout) :
    ∃ layout', ofRanges ranges' width = .ok layout' ∧ layout.Reorders layout' := by
  obtain ⟨numbered, size, wide, apart⟩ := ofRanges_ok_iff.mp accepted
  obtain ⟨entries, usable⟩ := numberFields_ok numbered
  obtain ⟨fields, numbered'⟩ := @numberFields_of_usable ranges'
    (fun range member => usable range (perm.symm.subset member)) 0
  obtain ⟨entries', _⟩ := numberFields_ok numbered'
  have same : (layout.fields.map Field.entry).Perm (fields.map Field.entry) := by
    rw [entries, entries']
    exact perm
  have top : (topBit fields).toInt = (topBit layout.fields).toInt := by
    have lasts : ∀ fs : List Field, (fs.map fun f => f.last.toInt) =
        (fs.map Field.entry).map fun r => r.2.2.toInt := fun fs => by
      rw [List.map_map]
      rfl
    rw [topBit_toInt, topBit_toInt, lasts, lasts]
    exact List.Perm.foldl_op_eq (same.map fun r => r.2.2.toInt).symm
  have apart' : fields.Pairwise Field.Apart :=
    Field.pairwise_apart_iff.mpr
      (same.pairwise (Field.pairwise_apart_iff.mp apart) fun clear shared => clear shared.symm)
  refine ⟨⟨fields, layout.size⟩, ofRanges_ok_iff.mpr ⟨numbered', ?_, ?_, apart'⟩, same, rfl⟩
  · rw [size]
    simp only [top]
  · simp only [top]
    exact wide

namespace Reorders

variable {layout layout' : Layout}

theorem symm (same : layout.Reorders layout') : layout'.Reorders layout :=
  ⟨same.fields.symm, same.size.symm⟩

theorem mem {f : Field} (same : layout.Reorders layout') (member : f ∈ layout.fields) :
    ∃ g ∈ layout'.fields, g.entry = f.entry :=
  List.mem_map.mp (same.fields.subset (List.mem_map_of_mem member))

theorem range_eq (same : layout.Reorders layout') (once : (layout.fields.map Field.stem).Nodup)
    (stem : String) :
    (layout.field? stem).map (fun f => (f.first, f.last)) =
      (layout'.field? stem).map fun f => (f.first, f.last) := by
  rw [← lookup_entries, ← lookup_entries]
  refine Assoc.lookup_perm same.fields ?_ stem
  rw [Assoc.keys, List.map_map]
  exact once

theorem judgeable_eq [Machine] (same : layout.Reorders layout')
    (once : (layout.fields.map Field.stem).Nodup) :
    layout.judgeable = layout'.judgeable := by
  have range := same.range_eq once branchStem
  unfold judgeable
  cases first : layout.field? branchStem with
  | none =>
    cases second : layout'.field? branchStem with
    | none => rfl
    | some g => simp [first, second] at range
  | some f =>
    cases second : layout'.field? branchStem with
    | none => simp [first, second] at range
    | some g =>
      simp only [first, second, Option.map_some, Option.some.injEq, Prod.mk.injEq] at range
      simp only [Field.width, Field.low, Field.high, range]

theorem longest {name stem : String} (same : layout.Reorders layout')
    (longest : LongestStem layout name stem) : LongestStem layout' name stem := by
  obtain ⟨⟨f, member, rfl⟩, begins, most⟩ := longest
  obtain ⟨g, member', entry⟩ := same.mem member
  refine ⟨⟨g, member', congrArg Prod.fst entry⟩, begins, ?_⟩
  intro h held start
  obtain ⟨k, held', entry'⟩ := same.symm.mem held
  have stem : k.stem = h.stem := congrArg Prod.fst entry'
  rw [← stem] at start ⊢
  exact most k held' start

theorem owner_eq (same : layout.Reorders layout') (name : String) :
    (layout.owner? name).map Field.stem = (layout'.owner? name).map Field.stem := by
  cases owned : layout.owner? name with
  | some f =>
    obtain ⟨g, owned', stem⟩ := owner?_of_longest (same.longest (owner?_longest owned))
    simp [owned', stem]
  | none =>
    cases owned' : layout'.owner? name with
    | none => rfl
    | some g =>
      obtain ⟨f, owned'', _⟩ := owner?_of_longest (same.symm.longest (owner?_longest owned'))
      cases owned.symm.trans owned''

end Reorders

end Layout

/-! Packing in another order. -/

section

variable {layout layout' : Layout} {symbols symbols' : SymbolTable} {line : Line}

theorem Token.number_congr (values : ∀ name, symbols.value? name = symbols'.value? name)
    (line : Line) (stem : String) (token : Token) :
    token.number symbols line stem = token.number symbols' line stem := by
  cases token with
  | symbol name => simp only [Token.number, values]
  | _ => rfl

theorem Packed.reorder {bits after : Bits} (same : layout.Reorders layout')
    (values : ∀ name, symbols.value? name = symbols'.value? name)
    (packed : Packed symbols line layout.fields bits after) :
    Packed symbols' line layout'.fields bits after := by
  have place : ∀ {f g : Field}, f.entry = g.entry →
      f.stem = g.stem ∧ f.low = g.low ∧ f.high = g.high := by
    intro f g entry
    simp only [Field.entry, Prod.mk.injEq] at entry
    simp only [Field.low, Field.high, entry, and_self]
  refine ⟨packed.size, ?_, ?_⟩
  · intro f member token held
    obtain ⟨g, member', entry⟩ := same.symm.mem member
    obtain ⟨stem, low, high⟩ := place entry
    rw [← stem, ← low, ← high, ← Token.number_congr values]
    exact packed.written g member' token (stem ▸ held)
  · intro i clear
    apply packed.kept
    intro f member above below
    obtain ⟨g, member', entry⟩ := same.mem member
    obtain ⟨stem, low, high⟩ := place entry
    rw [← stem]
    exact clear g member' (low ▸ above) (high ▸ below)

theorem Packs.reorder {word : String} (same : layout.Reorders layout')
    (values : ∀ name, symbols.value? name = symbols'.value? name)
    (packs : Packs layout symbols line word) : Packs layout' symbols' line word := by
  obtain ⟨after, packed, rfl⟩ := packs
  have width : layout'.width = layout.width := by rw [Layout.width, Layout.width, same.size]
  refine ⟨after, ?_, rfl⟩
  rw [width]
  exact packed.reorder same values

theorem packLines_reorder [Machine] (sound : layout.Sound) (sound' : layout'.Sound)
    (same : layout.Reorders layout')
    (values : ∀ name, symbols.value? name = symbols'.value? name) {lines : List Line}
    {words : List String} (packed : packLines layout symbols lines = .ok words) :
    packLines layout' symbols' lines = .ok words := by
  obtain ⟨room, all⟩ := (packLines_ok_iff sound).mp packed
  refine (packLines_ok_iff sound').mpr ⟨?_, all.imp fun _ _ packs => packs.reorder same values⟩
  rwa [Layout.width, ← same.size]

end

/-! Reading in another order. -/

theorem Declaration.Consistent.perm {ds ds' : List Declaration} (perm : ds.Perm ds')
    (consistent : Consistent ds) : Consistent ds' where
  fields_once := (((perm.filterMap range?).map Prod.fst).nodup_iff).mp consistent.fields_once
  values_agree name n m first second :=
    consistent.values_agree name n m (perm.symm.subset first) (perm.symm.subset second)

def setsWidth (raw : String) : Bool :=
  (Text.wordsOf (Text.stripComment raw)).head? == some "#width"

/-- The line of a layout file whose width counts. -/
def lastWidthLine? (lines : List String) : Option String := (lines.filter setsWidth).getLast?

theorem width?_isSome {raw : String} {d : Declaration} (text : Declaration.ofText? raw = some d) :
    d.width?.isSome = setsWidth raw := by
  unfold Declaration.ofText? Declaration.ofWords? at text
  unfold setsWidth
  split at text
  · rename_i arguments words
    rw [words]
    split at text
    · simp only [Option.bind_eq_bind, Option.bind_eq_some_iff, Option.pure_def, Option.some.injEq]
        at text
      obtain ⟨_, _, _, _, rfl⟩ := text
      rfl
    · cases text
  · rename_i arguments words
    rw [words]
    split at text
    · obtain ⟨_, _, rfl⟩ := Option.map_eq_some_iff.mp text
      rfl
    · cases text
  · rename_i arguments words
    rw [words]
    split at text
    · obtain ⟨_, _, rfl⟩ := Option.map_eq_some_iff.mp text
      rfl
    · cases text
  · cases text
  · rename_i words
    cases text
    rw [words]
    rfl

/-- The width that counts is the one on the last line that sets it. -/
theorem Declared.width {lines : List String} {ds : List Declaration}
    (declared : Declared lines ds) :
    (ds.filterMap Declaration.width?).getLast? =
      (lastWidthLine? lines).bind fun raw => (Declaration.ofText? raw).bind Declaration.width? := by
  have texts : ds.filterMap Declaration.width? =
      lines.filterMap fun raw => (Declaration.ofText? raw).bind Declaration.width? := by
    induction declared with
    | nil => rfl
    | cons text _ ih => simp only [List.filterMap_cons, text, Option.bind_some, ih]
  rw [texts]
  apply getLast?_filterMap
  intro raw member
  obtain ⟨i, here⟩ := List.mem_iff_getElem?.mp member
  obtain ⟨d, _, text⟩ := along_at declared.flip here
  rw [text]
  exact width?_isSome text

theorem readLayout_perm [Machine] {lines lines' : List String} (perm : lines.Perm lines')
    (last : lastWidthLine? lines = lastWidthLine? lines') {verbose : Bool} {layout : Layout}
    {symbols : SymbolTable} (read : (readLayout lines verbose).result = .ok (layout, symbols)) :
    ∃ layout' symbols', (readLayout lines' verbose).result = .ok (layout', symbols') ∧
      layout.Reorders layout' ∧ ∀ name, symbols.value? name = symbols'.value? name := by
  have laid := (readLayout_built read).sound
  obtain ⟨draft, drafted, built, shown, rfl⟩ := readLayout_ok_iff.mp read
  obtain ⟨ds, declared, holds, consistent⟩ :=
    LayoutDraft.readFrom_holds LayoutDraft.empty_holds Declaration.Consistent.nil drafted
  rw [List.nil_append] at holds consistent
  obtain ⟨ds', declared', perm'⟩ := List.perm_comp_forall₂ perm.symm declared
  obtain ⟨draft', drafted', holds'⟩ := LayoutDraft.readFrom_ok LayoutDraft.empty_holds declared'
    (consistent.perm perm'.symm) 1
  rw [List.nil_append] at holds'
  have ranges : draft.ranges.Perm draft'.ranges := by
    rw [holds.ranges, holds'.ranges]
    exact perm'.symm.filterMap Declaration.range?
  have width : draft.width = draft'.width := by
    rw [holds.width, holds'.width, Declared.width declared, Declared.width declared', last]
  obtain ⟨accepted, judged⟩ := Layout.build_ok_iff.mp built
  obtain ⟨layout', accepted', same⟩ := Layout.ofRanges_perm ranges accepted
  have built' : (Layout.build draft'.ranges draft'.width).result = .ok layout' := by
    refine Layout.build_ok_iff.mpr ⟨width ▸ accepted', ?_⟩
    rwa [← same.judgeable_eq laid.stems_once]
  refine ⟨layout', draft'.symbols, readLayout_ok_iff.mpr ?_, same, ?_⟩
  · exact ⟨draft', drafted', built', same.size ▸ shown, rfl⟩
  · intro name
    apply Option.ext
    intro v
    rw [holds.values, holds'.values]
    exact exists_congr fun n => and_congr_right fun _ => perm'.symm.mem_iff

/-- Two layout files with the same declarations in any order, as long as the same width comes last,
are both read or both refused. What is read from them places every field, values every name and
packs every line alike. -/
theorem declaration_order [Machine] {lines lines' : List String} (perm : lines.Perm lines')
    (last : lastWidthLine? lines = lastWidthLine? lines') (verbose : Bool) :
    ((∃ made, (readLayout lines verbose).result = .ok made) ↔
      ∃ made, (readLayout lines' verbose).result = .ok made) ∧
    ∀ layout symbols layout' symbols',
      (readLayout lines verbose).result = .ok (layout, symbols) →
      (readLayout lines' verbose).result = .ok (layout', symbols') →
      layout.size = layout'.size ∧
      (∀ stem, (layout.field? stem).map (fun f => (f.first, f.last)) =
        (layout'.field? stem).map fun f => (f.first, f.last)) ∧
      (∀ name, symbols.value? name = symbols'.value? name) ∧
      (∀ name, (layout.owner? name).map Field.stem = (layout'.owner? name).map Field.stem) ∧
      ∀ program : List Line, (packLines layout symbols program).toOption =
        (packLines layout' symbols' program).toOption := by
  refine ⟨⟨?_, ?_⟩, ?_⟩
  · rintro ⟨⟨layout, symbols⟩, read⟩
    obtain ⟨layout', symbols', read', _⟩ := readLayout_perm perm last read
    exact ⟨_, read'⟩
  · rintro ⟨⟨layout', symbols'⟩, read'⟩
    obtain ⟨layout, symbols, read, _⟩ := readLayout_perm perm.symm last.symm read'
    exact ⟨_, read⟩
  · intro layout symbols layout' symbols' read read'
    have laid := (readLayout_built read).sound
    have laid' := (readLayout_built read').sound
    obtain ⟨_, _, read'', same, values⟩ := readLayout_perm perm last read
    cases read'.symm.trans read''
    refine ⟨same.size, same.range_eq laid.stems_once, values, same.owner_eq, ?_⟩
    intro program
    apply Option.ext
    intro words
    rw [toOption_eq_some, toOption_eq_some]
    exact ⟨packLines_reorder laid laid' same values,
      packLines_reorder laid' laid same.symm fun name => (values name).symm⟩

/-- Two orders of one file, with a width that is overruled in both: the fields get other numbers,
and a line with two tokens the same word. -/
theorem declaration_order_two_widths :
    let lines := ["#width 9", "#field OP_ 0 2", "#value OP_ADD 5 // five", "#field PROCEDURE_ 3 6",
      "#width 8"]
    let lines' := ["#value OP_ADD 5 // five", "#field PROCEDURE_ 3 6", "#width 9", "#width 8",
      "#field OP_ 0 2"]
    let line : Line :=
      ⟨.int 0, none, [("OP_", .symbol "OP_ADD"), ("PROCEDURE_", .literal (.int 9))], none⟩
    lines.Perm lines' ∧ lastWidthLine? lines = lastWidthLine? lines' ∧
    ∃ layout symbols layout' symbols',
      (readLayout lines false).result = .ok (layout, symbols) ∧
      (readLayout lines' false).result = .ok (layout', symbols') ∧
      layout.fields.map Field.stem ≠ layout'.fields.map Field.stem ∧
      layout.size = layout'.size ∧
      packLines layout symbols [line] = .ok ["01001101"] ∧
      (packLines layout symbols [line]).toOption =
        (packLines layout' symbols' [line]).toOption := by
  intro lines lines' line
  have perm : lines.Perm lines' := by decide
  have last : lastWidthLine? lines = lastWidthLine? lines' := by decide +kernel
  let layout : Layout := ⟨[⟨0, "OP_", .int 0, .int 2, by decide⟩,
    ⟨1, "PROCEDURE_", .int 3, .int 6, by decide⟩], .int 8⟩
  let layout' : Layout := ⟨[⟨0, "PROCEDURE_", .int 3, .int 6, by decide⟩,
    ⟨1, "OP_", .int 0, .int 2, by decide⟩], .int 8⟩
  let symbols : SymbolTable := [("OP_ADD", some (.int 5))]
  have read : (readLayout lines false).result = .ok (layout, symbols) := by decide +kernel
  have read' : (readLayout lines' false).result = .ok (layout', symbols) := by decide +kernel
  obtain ⟨size, _, _, _, packed⟩ :=
    (declaration_order perm last false).2 layout symbols layout' symbols read read'
  exact ⟨perm, last, layout, symbols, layout', symbols, read, read', by decide, size,
    by decide +kernel, packed [line]⟩

end Microcode
