import Microcode.Proofs.Finalize

/-!
Symbols are written once. A name takes the first value it is given, a later definition of it changes
nothing whether it is let pass or refused, and so whatever could be packed once is packed to the
same words ever after. An entry without a value holds a place in the table but counts as undefined;
the first value takes this place.
-/
namespace Microcode

/-- A definition as it is asked for; `line` is the source line it stands on. -/
structure SymbolDefinition where
  name : String
  value : Option Value
  line : Option Value

def SymbolDefinition.valueFor (name : String) (d : SymbolDefinition) : Option Value :=
  if d.name = name then d.value else none

namespace SymbolTable

def afterDefinition (table : SymbolTable) (d : SymbolDefinition) : SymbolTable :=
  match (table.define d.name d.value d.line).result with
  | .ok after => after
  | .error _ => table

/-- The table after definitions one after the other, whatever becomes of each. -/
def afterDefinitions (table : SymbolTable) (ds : List SymbolDefinition) : SymbolTable :=
  ds.foldl afterDefinition table

def Keeps (table later : SymbolTable) : Prop :=
  ∀ name v, table.value? name = some v → later.value? name = some v

variable {table later : SymbolTable}

theorem value?_put (key name : String) (value : Option Value) :
    SymbolTable.value? (Assoc.put key value table) name =
      if name = key then value else table.value? name := by
  unfold value?
  rw [Assoc.lookup_put]
  split <;> rfl

/-! One definition. -/

theorem define_new {name : String} (absent : table.value? name = none) (value line : Option Value) :
    table.define name value line = ⟨[], .ok (table.put name value)⟩ := by
  unfold define
  rw [absent]
  rfl

theorem define_same {name : String} {old new : Value} (held : table.value? name = some old)
    (same : old.toInt = new.toInt) (line : Option Value) :
    table.define name (some new) line = ⟨[.notice (.sameValue name new)], .ok table⟩ := by
  have agree : old.same new = true := beq_iff_eq.mpr same
  unfold define
  simp only [held, agree, if_true]
  rfl

theorem define_other {name : String} {old new : Value} (held : table.value? name = some old)
    (other : old.toInt ≠ new.toInt) (line : Option Value) :
    table.define name (some new) line =
      ⟨[], .error (Fault.report ⟨.valueRedefined name old new, none, line⟩)⟩ := by
  have differ : old.same new = false := beq_eq_false_iff_ne.mpr other
  unfold define
  simp only [held, differ]
  rfl

theorem afterDefinition_held {d : SymbolDefinition} {old : Value}
    (held : table.value? d.name = some old) : table.afterDefinition d = table := by
  unfold afterDefinition
  cases given : d.value with
  | none =>
    have failed : (table.define d.name none d.line).result = .error .absentInHex := by
      unfold define
      rw [held]
      rfl
    rw [failed]
  | some new =>
    by_cases same : old.toInt = new.toInt
    · rw [define_same held same]
    · rw [define_other held same]

theorem afterDefinition_value (d : SymbolDefinition) (name : String) :
    (table.afterDefinition d).value? name = (table.value? name).or (d.valueFor name) := by
  unfold SymbolDefinition.valueFor
  cases held : table.value? d.name with
  | none =>
    unfold afterDefinition
    rw [define_new held]
    dsimp only
    rw [value?_put]
    by_cases here : d.name = name
    · rw [if_pos here, if_pos here.symm, ← here, held, Option.none_or]
    · rw [if_neg here, if_neg (Ne.symm here), Option.or_none]
  | some old =>
    rw [afterDefinition_held held]
    by_cases here : d.name = name
    · rw [← here, held, Option.some_or]
    · rw [if_neg here, Option.or_none]

/-! Definitions one after the other. -/

/-- A name has the value it had, or else the first one it was given. -/
theorem afterDefinitions_value (ds : List SymbolDefinition) (name : String) :
    (table.afterDefinitions ds).value? name =
      (table.value? name).or (ds.findSome? (SymbolDefinition.valueFor name)) := by
  induction ds generalizing table with
  | nil => exact (Option.or_none).symm
  | cons d rest ih =>
    have first : (d :: rest).findSome? (SymbolDefinition.valueFor name) =
        (d.valueFor name).or (rest.findSome? (SymbolDefinition.valueFor name)) := by
      rw [List.findSome?_cons]
      cases d.valueFor name <;> rfl
    rw [first, ← Option.or_assoc, ← afterDefinition_value]
    exact ih

theorem keeps_afterDefinitions (table : SymbolTable) (ds : List SymbolDefinition) :
    table.Keeps (table.afterDefinitions ds) := by
  intro name v held
  rw [afterDefinitions_value, held, Option.some_or]

end SymbolTable

theorem findSome_valueFor {ds : List SymbolDefinition} (valued : ∀ d ∈ ds, d.value.isSome = true)
    (name : String) :
    ds.findSome? (SymbolDefinition.valueFor name) =
      (ds.find? (·.name == name)).bind (·.value) := by
  induction ds with
  | nil => rfl
  | cons d rest ih =>
    obtain ⟨here, later⟩ := List.forall_mem_cons.mp valued
    obtain ⟨v, given⟩ := Option.isSome_iff_exists.mp here
    by_cases named : d.name = name
    · simp [SymbolDefinition.valueFor, named, given]
    · simp [SymbolDefinition.valueFor, named, ih later]

/-! Packing. -/

section

variable {table later : SymbolTable}

theorem Token.number_keeps (keeps : table.Keeps later) {line : Line} {token : Token} {stem : String}
    {v : Int} (number : token.number table line stem = .ok v) :
    token.number later line stem = .ok v := by
  cases token with
  | literal w => exact number
  | symbol name =>
    simp only [Token.number] at number ⊢
    cases held : table.value? name with
    | some w =>
      rw [held] at number
      rw [keeps name w held]
      exact number
    | none =>
      rw [held] at number
      cases number
  | label name => cases number

/-- Lines that could be packed are packed to the same words by a table that keeps the values. -/
theorem packLines_keeps [Machine] (keeps : table.Keeps later) {layout : Layout} {lines : List Line}
    {words : List String} (packed : packLines layout table lines = .ok words) :
    packLines layout later lines = .ok words := by
  obtain ⟨room, all⟩ := packLines_each.mp packed
  refine packLines_each.mpr ⟨room, all.imp ?_⟩
  intro line word packs
  exact Line.word_carry (fun _ => rfl) (fun _ _ _ => Token.number_keeps keeps) packs

end

theorem Value.numbers_fit (v : Value) : v.numbers.all Numeral.fits = Numeral.fits v.toInt := by
  cases v with
  | int n => exact Bool.and_true _
  | flag b => cases b <;> exact (fits_of_small (by decide)).symm

/-- The refusal of a second value names the symbol and both values, if the number of its line can be
written. -/
theorem valueRedefined_report (name : String) (old new : Value) {line : Option Value}
    (short : ∀ v ∈ line, Numeral.fits v.toInt = true) :
    Fault.report ⟨.valueRedefined name old new, none, line⟩ =
      .fault ⟨.valueRedefined name old new, none, line⟩ := by
  have numbers : Fault.numbers ⟨.valueRedefined name old new, none, line⟩ =
      line.toList.flatMap Value.numbers := List.append_nil _
  apply report_of_fits
  rw [numbers]
  intro n member
  obtain ⟨v, held, here⟩ := List.mem_flatMap.mp member
  have fits := short v (Option.mem_toList.mp held)
  rw [← Value.numbers_fit] at fits
  exact List.all_eq_true.mp fits n here

/-- Symbols are written once. A name has the value it had, or else the one of the first definition
that names it; a second definition is only reported if its value is the same, and refused if it is
another one, by a fault that names it if the number of its line can be written; it leaves the table
as it is in both cases; and lines that can be packed are packed to the same words after any further
definitions, with or without a value. -/
theorem symbols_written_once [Machine] :
    (∀ (table : SymbolTable) (ds : List SymbolDefinition), (∀ d ∈ ds, d.value.isSome = true) →
      ∀ name, (table.afterDefinitions ds).value? name =
        (table.value? name).or ((ds.find? (·.name == name)).bind (·.value))) ∧
    (∀ (table : SymbolTable) (name : String) (old new : Value) (line : Option Value),
      table.value? name = some old →
      (old.toInt = new.toInt → table.define name (some new) line =
        ⟨[.notice (.sameValue name new)], .ok table⟩) ∧
      (old.toInt ≠ new.toInt →
        ((∀ v ∈ line, Numeral.fits v.toInt = true) →
          table.define name (some new) line =
            ⟨[], .error (.fault ⟨.valueRedefined name old new, none, line⟩)⟩) ∧
        (Cause.valueRedefined name old new).kind = .parse ∧
        table.afterDefinition ⟨name, some new, line⟩ = table)) ∧
    ∀ (layout : Layout) (table : SymbolTable) (lines : List Line) (words : List String)
      (ds : List SymbolDefinition), packLines layout table lines = .ok words →
      packLines layout (table.afterDefinitions ds) lines = .ok words := by
  refine ⟨?_, ?_, ?_⟩
  · intro table ds valued name
    rw [SymbolTable.afterDefinitions_value, findSome_valueFor valued]
  · intro table name old new line held
    refine ⟨fun same => SymbolTable.define_same held same line, ?_⟩
    intro other
    refine ⟨?_, rfl, SymbolTable.afterDefinition_held held⟩
    intro short
    rw [SymbolTable.define_other held other, valueRedefined_report name old new short]
  · intro layout table lines words ds packed
    exact packLines_keeps (table.keeps_afterDefinitions ds) packed

/-- An entry without a value is filled, a truth value is confirmed by the number it counts as, and a
second value is refused; the word of a line stays as it was. -/
theorem symbols_written_once_after_conflict :
    let table : SymbolTable := [("OP_A", none), ("OP_B", some (.int 6))]
    let ds : List SymbolDefinition :=
      [⟨"OP_A", some (.flag true), none⟩, ⟨"OP_A", some (.int 1), some (.int 3)⟩,
        ⟨"OP_B", some (.int 5), some (.int 4)⟩, ⟨"OP_A", some (.int 0), none⟩]
    let line : Line := ⟨.int 0, none, [("OP_", .symbol "OP_B")], none⟩
    (table.afterDefinitions ds).value? "OP_A" = some (.flag true) ∧
      (table.define "OP_B" (some (.int 5)) (some (.int 4))).result =
        .error (.fault ⟨.valueRedefined "OP_B" (.int 6) (.int 5), none, some (.int 4)⟩) ∧
      packLines Layout.small table [line] = .ok ["0000110"] ∧
      packLines Layout.small (table.afterDefinitions ds) [line] = .ok ["0000110"] := by
  intro table ds line
  obtain ⟨first, second, packing⟩ := symbols_written_once
  have packed : packLines Layout.small table [line] = .ok ["0000110"] := by decide +kernel
  refine ⟨?_, ?_, packed, packing Layout.small table [line] ["0000110"] ds packed⟩
  · rw [first table ds (by decide +kernel)]
    decide +kernel
  · rw [((second table "OP_B" (.int 6) (.int 5) (some (.int 4)) rfl).2 (by decide)).1]
    rintro _ ⟨⟩
    decide +kernel

end Microcode
