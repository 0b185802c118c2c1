import Microcode.Proofs.Consistency

/-!
Closed builders. Every call that adds to a program asks, somewhere on its way, whether the builder
is still open. A closed builder lets symbols be defined, text without words be read, and branches be
resolved, of which none is left: the program stays as it is.
-/
namespace Microcode

def Act.Builds : Act → Prop
  | .mark _ | .unreadable _ _ _ _ | .resolve | .define _ _ => False
  | _ => True

/-- The calls that only an open builder carries out; text is read by a closed one as well, as long
as there is no word in it. -/
def Call.Builds : Call → Prop
  | .readStream lines _ => ∃ raw ∈ lines, Text.stripComment raw ≠ ""
  | .resolveBranches | .defineValue _ _ => False
  | _ => True

namespace Act

theorem ofName_builds (name : String) : (ofName name).Builds := by
  unfold ofName
  split
  · trivial
  · split <;> trivial

theorem ofLines_builds {lines : List String} {raw : String} (member : raw ∈ lines)
    (worded : Text.stripComment raw ≠ "") (lineNumber : Nat) :
    ∃ a ∈ ofLines lineNumber lines, a.Builds := by
  induction lines generalizing lineNumber with
  | nil => cases member
  | cons first rest ih =>
    rcases List.mem_cons.mp member with rfl | later
    · refine ⟨.endLine, ?_, trivial⟩
      simp [ofLines, ofLine, worded]
    · obtain ⟨a, held, builds⟩ := ih later (lineNumber + 1)
      exact ⟨a, List.mem_append_right _ held, builds⟩

end Act

theorem Call.Builds.acts {call : Call} (builds : call.Builds) : ∃ a ∈ call.acts, a.Builds := by
  cases call with
  | entry newline name =>
    refine ⟨.ofName name, ?_, Act.ofName_builds name⟩
    cases newline <;> simp [Call.acts]
  | readStream lines verbose =>
    obtain ⟨raw, member, worded⟩ := builds
    obtain ⟨a, held, builds⟩ := Act.ofLines_builds member worded 1
    exact ⟨a, List.mem_append_left _ held, builds⟩
  | resolveBranches => exact builds.elim
  | defineValue name value => exact builds.elim
  | _ => exact ⟨_, List.mem_singleton_self _, trivial⟩

namespace Builder

variable {layout : Layout} {b c : Builder}

theorem check_refused {α : Type} {check : Except Error α} (closed : b.resolved = true)
    (opened : ∀ a, check = .ok a → b.resolved = false) : ∃ e, check = .error e := by
  cases done : check with
  | error e => exact ⟨e, rfl⟩
  | ok a =>
    rw [opened a done] at closed
    cases closed

theorem act_refused [Machine] {a : Act} (given : b.layout = some layout)
    (closed : b.resolved = true) (builds : a.Builds) : ∃ e, b.act a = b.done (.error e) := by
  cases a with
  | declare label =>
    obtain ⟨e, failed⟩ :=
      check_refused closed fun _ passed => ((checkDeclaration_ok_iff given).mp passed).1
    exact ⟨e, by rw [act, declareLabel, failed]⟩
  | branch label =>
    obtain ⟨e, failed⟩ :=
      check_refused closed fun _ passed => ((checkReference_ok_iff given).mp passed).2.2.2.1
    exact ⟨e, by rw [act, referenceLabel, failed]⟩
  | assign name =>
    obtain ⟨e, failed⟩ :=
      check_refused closed fun _ passed => ((checkName_ok_iff given).mp passed).2.1
    exact ⟨e, by rw [act, assign, failed]⟩
  | value stem datum =>
    obtain ⟨e, failed⟩ :=
      check_refused closed fun _ passed => ((checkValue_ok_iff given).mp passed).2.2.1
    exact ⟨e, by rw [act, assignValue, failed]⟩
  | endLine =>
    obtain ⟨e, failed⟩ := check_refused closed fun _ passed => (checkOpen_ok_iff given).mp passed
    exact ⟨e, by rw [act, endLine, failed]⟩
  | finalize =>
    obtain ⟨e, failed⟩ :=
      check_refused closed fun _ passed => ((checkFinalize_ok_iff given).mp passed).2
    exact ⟨e, by rw [act, finalize, failed]; rfl⟩
  | _ => exact builds.elim

theorem forget_map {α β : Type} (result : Except Error α) (f : α → β) :
    (result.map f).map (fun _ => ()) = result.map fun _ => () := by
  cases result <;> rfl

theorem forget_unit (result : Except Error Unit) : result.map (fun _ => ()) = result := by
  cases result <;> rfl

theorem perform_result [Machine] (given : b.layout = some layout) (call : Call) :
    (b.perform call).result.map (fun _ => ()) = (b.acts call.acts).result := by
  cases call with
  | entry newline name =>
    simp only [perform, entry_eq_acts given, Outcome.map, forget_map, forget_unit]
  | readStream lines verbose =>
    simp only [perform, Outcome.map, readStream, Call.acts, readFrom_eq_acts given, acts_append,
      forget_map]
    cases result : (b.acts (Act.ofLines 1 lines)).result with
    | error e =>
      rw [(Outcome.andThen_error result _).1, (Outcome.andThen_error result _).1]
      rfl
    | ok u =>
      rw [(Outcome.andThen_ok result _).1, (Outcome.andThen_ok result _).1, acts_single]
      rfl
  | _ => simp only [Call.acts, acts_single, perform, act, Outcome.map, forget_map, forget_unit]

end Builder

theorem resolve_settled {labels : Labels} {lines : List Line}
    (settled : ∀ line ∈ lines, line.pendingLabel? = none) :
    resolve labels lines = (lines, .ok 0) := by
  induction lines with
  | nil => rfl
  | cons line rest ih =>
    obtain ⟨here, later⟩ := List.forall_mem_cons.mp settled
    simp only [resolve, here, ih later]

/-- A closed builder that holds the program of another one. -/
structure Builder.Keeps (layout : Layout) (b c : Builder) : Prop where
  layout : c.layout = some layout
  resolved : c.resolved = true
  settled : ∀ line ∈ c.lines, line.pendingLabel? = none
  lines : c.lines = b.lines
  labels : c.labels = b.labels
  current : c.current = b.current

namespace Builder.Keeps

variable {layout : Layout} {b c : Builder}

theorem resolve (kept : b.Keeps layout c) : b.Keeps layout c.resolveBranches.builder := by
  have same : c.resolveBranches.builder = c := by
    simp only [Builder.resolveBranches, resolve_settled kept.settled]
  rw [same]
  exact kept

theorem act [Machine] (kept : b.Keeps layout c) (a : Act) : b.Keeps layout (c.act a).builder := by
  by_cases builds : a.Builds
  · obtain ⟨e, refused⟩ := act_refused kept.layout kept.resolved builds
    rw [refused]
    exact kept
  · cases a with
    | mark line => exact { kept with }
    | unreadable lineNumber word stem text => exact kept
    | resolve => exact kept.resolve
    | define name value =>
      rw [Builder.act, Builder.defineValue]
      split
      · exact { kept with }
      · exact kept
    | _ => exact absurd trivial builds

theorem acts [Machine] (kept : b.Keeps layout c) (acts : List Act) :
    b.Keeps layout (c.acts acts).builder ∧
      ((∃ a ∈ acts, a.Builds) → ∃ e, (c.acts acts).result = .error e) := by
  induction acts generalizing c with
  | nil => exact ⟨kept, by simp⟩
  | cons a rest ih =>
    rw [Builder.acts]
    cases result : (c.act a).result with
    | error e =>
      rw [(Outcome.andThen_error result _).1, (Outcome.andThen_error result _).2]
      exact ⟨kept.act a, fun _ => ⟨e, rfl⟩⟩
    | ok u =>
      rw [(Outcome.andThen_ok result _).1, (Outcome.andThen_ok result _).2]
      obtain ⟨left, refused⟩ := ih (kept.act a)
      refine ⟨left, ?_⟩
      rintro ⟨a', member, builds⟩
      rcases List.mem_cons.mp member with rfl | later
      · obtain ⟨e, failed⟩ := act_refused kept.layout kept.resolved builds
        rw [failed] at result
        cases result
      · exact refused ⟨a', later, builds⟩

theorem perform [Machine] (kept : b.Keeps layout c) (call : Call) :
    b.Keeps layout (c.perform call).builder ∧
      (call.Builds → ∃ e, (c.perform call).result = .error e) := by
  obtain ⟨left, refused⟩ := kept.acts call.acts
  rw [perform_builder kept.layout]
  refine ⟨left, fun builds => ?_⟩
  obtain ⟨e, failed⟩ := refused builds.acts
  rw [← perform_result kept.layout] at failed
  cases done : (c.perform call).result with
  | error e' => exact ⟨e', rfl⟩
  | ok reply =>
    rw [done] at failed
    cases failed

theorem afterCalls [Machine] (kept : b.Keeps layout c) (calls : List Call) :
    b.Keeps layout (c.afterCalls calls) := by
  induction calls generalizing c with
  | nil => exact kept
  | cons call rest ih => exact ih (kept.perform call).1

end Builder.Keeps

/-- Once a builder is closed, whether its lines could be packed or not, its program stays as it is
whatever is called, and every call that would add to it fails. -/
theorem closed_builder_frozen [Machine] {layout : Layout} (symbols : SymbolTable) (debug : Bool)
    (calls : List Call)
    (closed : ((Builder.fresh (some layout) symbols debug).afterCalls calls).resolved = true)
    (later : List Call) :
    let b := (Builder.fresh (some layout) symbols debug).afterCalls calls
    let c := b.afterCalls later
    c.resolved = true ∧ c.lines = b.lines ∧ c.labels = b.labels ∧ c.current = b.current ∧
      ∀ call : Call, call.Builds → ∃ e, (c.perform call).result = .error e := by
  intro b c
  have sound : b.Sound layout := Builder.Sound.afterCalls layout symbols debug calls
  have start : b.Keeps layout b :=
    ⟨sound.layout_given, closed, (sound.closed closed).2, rfl, rfl, rfl⟩
  have kept : b.Keeps layout c := start.afterCalls later
  exact ⟨kept.resolved, kept.lines, kept.labels, kept.current,
    fun call => (kept.perform call).2⟩

/-- A symbol that is defined too late does not open the builder again. -/
theorem closed_builder_frozen_late_symbol :
    let calls : List Call := [.assign "OP_ADD", .declareLabel "a", .finalize]
    let later : List Call := [.defineValue "OP_ADD" (some (.int 5)), .finalize]
    let b := (Builder.fresh (some Layout.small) [] false).afterCalls calls
    let c := b.afterCalls later
    b.resolved = true ∧ c.resolved = true ∧ c.symbols ≠ b.symbols ∧ c.lines = b.lines ∧
      c.labels = b.labels ∧ (Call.readStream ["", " x"] false).Builds ∧
      ∃ e, (c.perform (.readStream ["", " x"] false)).result = .error e := by
  intro calls later b c
  have closed : b.resolved = true := by decide +kernel
  have worded : (Call.readStream ["", " x"] false).Builds := ⟨" x", by decide, by decide +kernel⟩
  obtain ⟨resolved, lines, labels, _, refused⟩ :=
    closed_builder_frozen [] false calls closed later
  exact ⟨closed, resolved, by decide +kernel, lines, labels, worded, refused _ worded⟩

end Microcode
