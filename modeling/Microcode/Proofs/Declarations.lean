import Microcode.Layout.Reader
import Microcode.Proofs.Layout

/-!
Layout files as lists of declarations. A line of text makes a declaration or is refused on its own,
and a declaration is refused only for a field that is already declared or a name that has another
value. So a file is read exactly if its declarations are consistent, whatever their order, and the
draft then holds what they say.
-/
namespace Microcode

inductive Declaration where
  | nothing
  | field (stem : String) (low high : Int)
  | value (name : String) (n : Int)
  | width (n : Int)

namespace Declaration

def ofWords? : List String → Option Declaration
  | "#field" :: arguments =>
    match arguments with
    | [stem, low, high] => do
      let low ← (Numeral.read low).toOption
      let high ← (Numeral.read high).toOption
      return .field stem low high
    | _ => none
  | "#value" :: arguments =>
    match arguments with
    | [name, text] => (Numeral.read text).toOption.map (.value name)
    | _ => none
  | "#width" :: arguments =>
    match arguments with
    | [text] => (Numeral.read text).toOption.map .width
    | _ => none
  | _ :: _ => none
  | [] => some .nothing

def ofText? (raw : String) : Option Declaration :=
  ofWords? (Text.wordsOf (Text.stripComment raw))

def range? : Declaration → Option (String × Value × Value)
  | field stem low high => some (stem, .int low, .int high)
  | _ => none

def width? : Declaration → Option Value
  | width n => some (.int n)
  | _ => none

def ranges (ds : List Declaration) : Assoc (Value × Value) := ds.filterMap range?

/-- No field is declared twice, and no name has two values. -/
structure Consistent (ds : List Declaration) : Prop where
  fields_once : (Assoc.keys (ranges ds)).Nodup
  values_agree : ∀ name n m, value name n ∈ ds → value name m ∈ ds → n = m

end Declaration

namespace LayoutDraft

inductive Joins (draft : LayoutDraft) : Declaration → LayoutDraft → Prop where
  | nothing : Joins draft .nothing draft
  | field {stem : String} {low high : Int} (new : draft.ranges.lookup stem = none) :
      Joins draft (.field stem low high)
        { draft with ranges := draft.ranges ++ [(stem, .int low, .int high)] }
  | define {name : String} {n : Int} (new : draft.symbols.value? name = none) :
      Joins draft (.value name n)
        { draft with symbols := draft.symbols.put name (some (.int n)) }
  | confirm {name : String} {n : Int} {old : Value} (known : draft.symbols.value? name = some old)
      (agrees : old.toInt = n) : Joins draft (.value name n) draft
  | width {n : Int} : Joins draft (.width n) { draft with width := some (.int n) }

theorem number_ok_iff {lineNumber : Nat} {line text : String} {n : Int} :
    number lineNumber line text = .ok n ↔ Numeral.read text = .ok n := by
  unfold number
  exact mapError_ok

theorem define_ok_iff {table after : SymbolTable} {name : String} {n : Int} {line : Option Value} :
    (table.define name (some (.int n)) line).result = .ok after ↔
      (table.value? name = none ∧ table.put name (some (.int n)) = after) ∨
      ∃ old, table.value? name = some old ∧ old.toInt = n ∧ table = after := by
  unfold SymbolTable.define
  cases known : table.value? name with
  | none => simp
  | some old =>
    by_cases same : old.toInt = n
    · have agree : old.same (.int n) = true := beq_iff_eq.mpr same
      simp [agree, same, Logged.bind_ok_iff]
    · have differ : old.same (.int n) = false := beq_eq_false_iff_ne.mpr same
      simp [differ, same]

theorem declare_ok_iff {draft next : LayoutDraft} {lineNumber : Nat} {line : String}
    {words : List String} :
    (draft.declare lineNumber line words).result = .ok next ↔
      ∃ d, Declaration.ofWords? words = some d ∧ draft.Joins d next := by
  unfold declare Declaration.ofWords?
  split
  · split
    · rename_i stem low high
      simp only [Option.bind_eq_bind, Option.bind_eq_some_iff, Option.pure_def, Option.some.injEq,
        toOption_eq_some]
      by_cases known : draft.ranges.has stem = true
      · obtain ⟨range, held⟩ := Option.isSome_iff_exists.mp known
        rw [if_pos known]
        constructor
        · intro impossible
          cases impossible
        · rintro ⟨_, ⟨a, _, b, _, rfl⟩, joined⟩
          cases joined with
          | field new => cases new.symm.trans held
      · have absent : draft.ranges.lookup stem = none := Option.not_isSome_iff_eq_none.mp known
        simp only [if_neg known, Logged.bind_ok_iff, Logged.ofExcept_result, number_ok_iff,
          Logged.pure_result, Except.ok.injEq, Assoc.put_new _ absent]
        constructor
        · rintro ⟨a, first, b, second, rfl⟩
          exact ⟨_, ⟨a, first, b, second, rfl⟩, .field absent⟩
        · rintro ⟨_, ⟨a, first, b, second, rfl⟩, joined⟩
          cases joined
          exact ⟨a, first, b, second, rfl⟩
    · simp [refuse]
  · split
    · rename_i name text
      simp only [Logged.bind_ok_iff, Logged.ofExcept_result, number_ok_iff, define_ok_iff,
          Logged.pure_result, Except.ok.injEq, Option.map_eq_some_iff, toOption_eq_some]
      constructor
      · rintro ⟨n, read, symbols, ⟨absent, rfl⟩ | ⟨old, known, agrees, rfl⟩, rfl⟩
        · exact ⟨_, ⟨n, read, rfl⟩, .define absent⟩
        · exact ⟨_, ⟨n, read, rfl⟩, .confirm known agrees⟩
      · rintro ⟨_, ⟨n, read, rfl⟩, joined⟩
        cases joined with
        | define new => exact ⟨n, read, _, .inl ⟨new, rfl⟩, rfl⟩
        | confirm known agrees => exact ⟨n, read, _, .inr ⟨_, known, agrees, rfl⟩, rfl⟩
    · simp [refuse]
  · split
    · rename_i text
      simp only [Logged.bind_ok_iff, Logged.ofExcept_result, number_ok_iff, Logged.pure_result,
        Except.ok.injEq, Option.map_eq_some_iff, toOption_eq_some]
      constructor
      · rintro ⟨n, read, rfl⟩
        exact ⟨_, ⟨n, read, rfl⟩, .width⟩
      · rintro ⟨_, ⟨n, read, rfl⟩, joined⟩
        cases joined
        exact ⟨n, read, rfl⟩
    · simp [refuse]
  · simp [refuse]
  · simp only [Logged.pure_result, Except.ok.injEq, Option.some.injEq, exists_eq_left']
    constructor
    · rintro rfl
      exact .nothing
    · intro joined
      cases joined
      rfl

/-- A draft that holds what declarations say, and nothing else. -/
structure Holds (draft : LayoutDraft) (ds : List Declaration) : Prop where
  ranges : draft.ranges = Declaration.ranges ds
  width : draft.width = (ds.filterMap Declaration.width?).getLast?
  values : ∀ name v, draft.symbols.value? name = some v ↔ ∃ n, v = .int n ∧ .value name n ∈ ds

variable {draft next : LayoutDraft} {ds : List Declaration} {d : Declaration}

theorem Joins.ranges_eq (joins : draft.Joins d next) :
    next.ranges = draft.ranges ++ d.range?.toList := by
  cases joins <;> simp [Declaration.range?]

theorem Joins.width_eq (joins : draft.Joins d next) :
    next.width = d.width?.or draft.width := by
  cases joins <;> rfl

theorem Joins.value_iff (joins : draft.Joins d next) (holds : draft.Holds ds) (name : String)
    (v : Value) :
    next.symbols.value? name = some v ↔
      draft.symbols.value? name = some v ∨ ∃ n, v = .int n ∧ d = .value name n := by
  cases joins with
  | @define other n new =>
    by_cases same : name = other
    · subst same
      simp [SymbolTable.value?, Assoc.lookup_put] at new ⊢
      simp [new, eq_comm]
    · simp [SymbolTable.value?, Assoc.lookup_put, same, Ne.symm same]
  | @confirm other n old known agrees =>
    constructor
    · exact Or.inl
    · rintro (held | ⟨m, rfl, same⟩)
      · exact held
      · cases same
        obtain ⟨m, rfl, _⟩ := (holds.values name old).mp known
        rw [known]
        exact congrArg (fun k => some (Value.int k)) agrees
  | _ => simp

theorem Joins.holds (joins : draft.Joins d next) (holds : draft.Holds ds) :
    next.Holds (ds ++ [d]) where
  ranges := by
    rw [joins.ranges_eq, holds.ranges, Declaration.ranges, Declaration.ranges,
      List.filterMap_append]
    cases known : d.range? <;> simp [known]
  width := by
    rw [joins.width_eq, holds.width, List.filterMap_append, List.getLast?_append]
    cases known : d.width? <;> simp [known]
  values := by
    intro name v
    rw [joins.value_iff holds, holds.values]
    constructor
    · rintro (⟨n, rfl, old⟩ | ⟨n, rfl, rfl⟩)
      · exact ⟨n, rfl, List.mem_append_left _ old⟩
      · exact ⟨n, rfl, List.mem_append_right _ List.mem_cons_self⟩
    · rintro ⟨n, rfl, member⟩
      rcases List.mem_append.mp member with old | last
      · exact .inl ⟨n, rfl, old⟩
      · exact .inr ⟨n, rfl, (List.mem_singleton.mp last).symm⟩

theorem keys_ranges_concat (ds : List Declaration) (d : Declaration) :
    Assoc.keys (Declaration.ranges (ds ++ [d])) =
      Assoc.keys (Declaration.ranges ds) ++ d.range?.toList.map Prod.fst := by
  unfold Declaration.ranges
  rw [List.filterMap_append, Assoc.keys, List.map_append]
  cases known : d.range? <;> simp [known, Assoc.keys]

theorem Joins.consistent (joins : draft.Joins d next) (holds : draft.Holds ds)
    (consistent : Declaration.Consistent ds) : Declaration.Consistent (ds ++ [d]) where
  fields_once := by
    rw [keys_ranges_concat]
    cases joins with
    | @field stem low high new =>
      rw [holds.ranges, Assoc.lookup_none_iff] at new
      refine List.nodup_append.mpr ⟨consistent.fields_once, List.nodup_singleton stem, ?_⟩
      rintro k old _ here rfl
      have named : k = stem := List.mem_singleton.mp here
      exact new (named ▸ old)
    | _ => simpa [Declaration.range?] using consistent.fields_once
  values_agree := by
    -- what is declared anew is the value that the draft holds, if it holds one
    have fresh : ∀ name n m, d = .value name n → .value name m ∈ ds → n = m := by
      rintro name n m rfl member
      have held := (holds.values name (.int m)).mpr ⟨m, rfl, member⟩
      cases joins with
      | define new => cases new.symm.trans held
      | confirm known agrees =>
        cases known.symm.trans held
        exact agrees.symm
    intro name n m first second
    rcases List.mem_append.mp first with old | last
    · rcases List.mem_append.mp second with old' | last'
      · exact consistent.values_agree name n m old old'
      · exact (fresh name m n (List.mem_singleton.mp last').symm old).symm
    · rcases List.mem_append.mp second with old' | last'
      · exact fresh name n m (List.mem_singleton.mp last).symm old'
      · cases (List.mem_singleton.mp last).trans (List.mem_singleton.mp last').symm
        rfl

theorem Holds.joins (holds : draft.Holds ds) (consistent : Declaration.Consistent (ds ++ [d])) :
    ∃ next, draft.Joins d next := by
  cases d with
  | nothing => exact ⟨_, .nothing⟩
  | field stem low high =>
    have once := consistent.fields_once
    rw [keys_ranges_concat, List.nodup_append] at once
    refine ⟨_, .field ?_⟩
    rw [holds.ranges, Assoc.lookup_none_iff]
    intro old
    exact once.2.2 stem old stem List.mem_cons_self rfl
  | value name n =>
    cases known : draft.symbols.value? name with
    | none => exact ⟨_, .define known⟩
    | some old =>
      obtain ⟨m, rfl, member⟩ := (holds.values name old).mp known
      refine ⟨_, .confirm known ?_⟩
      exact consistent.values_agree name m n (List.mem_append_left _ member)
        (List.mem_append_right _ List.mem_cons_self)
  | width n => exact ⟨_, .width⟩

end LayoutDraft

def Declared (lines : List String) (ds : List Declaration) : Prop :=
  List.Forall₂ (fun raw d => Declaration.ofText? raw = some d) lines ds

theorem Declaration.Consistent.nil : Consistent [] where
  fields_once := List.nodup_nil
  values_agree := by simp

theorem Declaration.Consistent.left {ds rest : List Declaration}
    (consistent : Consistent (ds ++ rest)) : Consistent ds where
  fields_once := by
    have once := consistent.fields_once
    rw [ranges, List.filterMap_append, Assoc.keys, List.map_append] at once
    exact (List.nodup_append.mp once).1
  values_agree name n m first second :=
    consistent.values_agree name n m (List.mem_append_left _ first) (List.mem_append_left _ second)

namespace LayoutDraft

theorem readFrom_holds {draft final : LayoutDraft} {before : List Declaration} {lineNumber : Nat}
    {lines : List String} (holds : draft.Holds before)
    (consistent : Declaration.Consistent before)
    (read : (draft.readFrom lineNumber lines).result = .ok final) :
    ∃ ds, Declared lines ds ∧ final.Holds (before ++ ds) ∧
      Declaration.Consistent (before ++ ds) := by
  induction lines generalizing draft before lineNumber with
  | nil =>
    cases read
    exact ⟨[], .nil, by simpa using holds, by simpa using consistent⟩
  | cons raw rest ih =>
    rw [readFrom] at read
    obtain ⟨next, here, later⟩ := Logged.bind_ok_iff.mp read
    obtain ⟨d, text, joins⟩ := declare_ok_iff.mp here
    obtain ⟨ds, declared, whole⟩ := ih (joins.holds holds) (joins.consistent holds consistent) later
    refine ⟨d :: ds, .cons text declared, ?_⟩
    rwa [List.append_assoc, List.singleton_append] at whole

theorem readFrom_ok {draft : LayoutDraft} {before ds : List Declaration} {lines : List String}
    (holds : draft.Holds before) (declared : Declared lines ds)
    (consistent : Declaration.Consistent (before ++ ds)) (lineNumber : Nat) :
    ∃ final, (draft.readFrom lineNumber lines).result = .ok final ∧
      final.Holds (before ++ ds) := by
  induction declared generalizing draft before lineNumber with
  | nil => exact ⟨draft, rfl, by simpa using holds⟩
  | @cons raw d rest ds text _ ih =>
    rw [List.append_cons] at consistent ⊢
    obtain ⟨next, joins⟩ := holds.joins consistent.left
    obtain ⟨final, later, whole⟩ := ih (joins.holds holds) consistent (lineNumber + 1)
    have here := @declare_ok_iff draft next lineNumber (Text.stripComment raw)
      (Text.wordsOf (Text.stripComment raw))
    rw [readFrom]
    exact ⟨final, Logged.bind_ok_iff.mpr ⟨next, here.mpr ⟨d, text, joins⟩, later⟩, whole⟩

theorem empty_holds : empty.Holds [] where
  ranges := rfl
  width := rfl
  values := by simp [empty, SymbolTable.value?]

end LayoutDraft

/-- A layout file is read exactly if its declarations are consistent and make a layout. A verbose
reader also prints the width. -/
theorem readLayout_ok_iff [Machine] {lines : List String} {verbose : Bool} {layout : Layout}
    {symbols : SymbolTable} :
    (readLayout lines verbose).result = .ok (layout, symbols) ↔
      ∃ draft, (LayoutDraft.empty.readFrom 1 lines).result = .ok draft ∧
        (Layout.build draft.ranges draft.width).result = .ok layout ∧
        (verbose = true → printable layout.size.numbers = .ok ()) ∧ draft.symbols = symbols := by
  unfold readLayout
  simp only [Logged.bind_ok_iff]
  constructor
  · rintro ⟨draft, read, made, built, told⟩
    cases verbose with
    | false =>
      cases told
      exact ⟨draft, read, built, by simp, rfl⟩
    | true =>
      simp only [↓reduceIte, Logged.bind_ok_iff, Logged.ofExcept_result, Logged.pure_result,
        Except.ok.injEq, Prod.mk.injEq] at told
      obtain ⟨⟨⟩, shown, _, _, rfl, rfl⟩ := told
      exact ⟨draft, read, built, fun _ => shown, rfl⟩
  · rintro ⟨draft, read, built, shown, rfl⟩
    refine ⟨draft, read, layout, built, ?_⟩
    cases verbose with
    | false => rfl
    | true =>
      simp only [↓reduceIte, Logged.bind_ok_iff]
      exact ⟨(), shown rfl, (), rfl, rfl⟩

theorem readLayout_built [Machine] {lines : List String} {verbose : Bool} {layout : Layout}
    {symbols : SymbolTable} (read : (readLayout lines verbose).result = .ok (layout, symbols)) :
    layout.Built := by
  obtain ⟨draft, drafted, built, _⟩ := readLayout_ok_iff.mp read
  obtain ⟨ds, _, holds, consistent⟩ :=
    LayoutDraft.readFrom_holds LayoutDraft.empty_holds Declaration.Consistent.nil drafted
  refine ⟨draft.ranges, draft.width, ?_, built⟩
  rw [holds.ranges]
  exact consistent.fields_once

end Microcode
