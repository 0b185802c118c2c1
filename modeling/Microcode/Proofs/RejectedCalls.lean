import Microcode.Proofs.Evolution
import Microcode.Proofs.Layout

/-!
Rejected calls. Every call makes its checks before its changes, so a call that ends in a fault has
changed nothing. A call that begins a new line is two calls, and the first of them stands even if
the second is rejected. What may fail after a change is the debug message about it, and this is no
fault.
-/
namespace Microcode

/-- The calls that build lines and make one change at most. -/
def Call.Single : Call → Prop
  | .entry newline _ => newline = false
  | .declareLabel _ | .referenceLabel _ | .assign _ | .assignValue _ _ | .endLine => True
  | .readStream _ _ | .finalize | .resolveBranches | .defineValue _ _ => False

def Outcome.Traceless {α : Type} (b : Builder) (outcome : Outcome α) : Prop :=
  ∀ f, outcome.result = .error (.fault f) → outcome = b.done (.error (.fault f))

theorem Outcome.error_of_map {α β : Type} {outcome : Outcome α} {g : α → β} {e : Error}
    (failed : (outcome.map g).result = .error e) : outcome.result = .error e := by
  unfold map at failed
  cases result : outcome.result with
  | ok a =>
    rw [result] at failed
    cases failed
  | error e' =>
    rw [result] at failed
    cases failed
    rfl

theorem Outcome.Traceless.map {α β : Type} {b : Builder} {outcome : Outcome α}
    (traceless : outcome.Traceless b) (g : α → β) : (outcome.map g).Traceless b := by
  intro f failed
  rw [traceless f (error_of_map failed)]
  rfl

namespace Builder

variable {b : Builder}

theorem traceless_of_check {α β : Type} (check : Except Error α) {outcome : Outcome β}
    (rejected : ∀ e, check = .error e → outcome = b.done (.error e))
    (passed : ∀ a, check = .ok a → ∀ f, outcome.result ≠ .error (.fault f)) :
    outcome.Traceless b := by
  intro f failed
  cases done : check with
  | error e =>
    have left := rejected e done
    rw [left] at failed ⊢
    exact congrArg b.done failed
  | ok a => exact absurd failed (passed a done f)

theorem store_no_fault (b : Builder) (stem : String) (token : Token) (f : Fault) :
    (b.store stem token).result ≠ .error (.fault f) := by
  unfold store
  dsimp only
  split
  · split <;> simp
  · simp

theorem declareLabel_traceless (b : Builder) (label : String) :
    (b.declareLabel label).Traceless b := by
  apply traceless_of_check (b.checkDeclaration label)
  · intro e failed
    rw [declareLabel, failed]
  · intro _ passed f
    rw [declareLabel, passed]
    simp

theorem referenceLabel_traceless (b : Builder) (label : String) :
    (b.referenceLabel label).Traceless b := by
  apply traceless_of_check (b.checkReference label)
  · intro e failed
    rw [referenceLabel, failed]
  · intro _ passed f
    rw [(referenceLabel_ok passed).1]
    simp

theorem assign_traceless (b : Builder) (name : String) : (b.assign name).Traceless b := by
  apply traceless_of_check (b.checkName name)
  · intro e failed
    rw [assign, failed]
  · intro stem passed f
    rw [assign, passed]
    exact b.store_no_fault stem (.symbol name) f

theorem assignValue_traceless (b : Builder) (stem : String) (datum : Datum) :
    (b.assignValue stem datum).Traceless b := by
  apply traceless_of_check (b.checkValue stem datum)
  · intro e failed
    rw [assignValue, failed]
  · intro v passed f
    rw [assignValue, passed]
    exact b.store_no_fault stem (.literal v) f

theorem endLine_traceless (b : Builder) : b.endLine.Traceless b := by
  apply traceless_of_check b.checkOpen
  · intro e failed
    rw [endLine, failed]
  · intro _ passed f
    rw [endLine, passed]
    simp [done]

theorem dispatch_traceless (b : Builder) (name : String) : (b.dispatch name).Traceless b := by
  unfold dispatch
  split
  · exact b.declareLabel_traceless _
  · split
    · exact b.referenceLabel_traceless _
    · exact b.assign_traceless name

theorem perform_traceless [Machine] {call : Call} (single : call.Single) :
    (b.perform call).Traceless b := by
  cases call with
  | entry newline name =>
    cases single
    apply Outcome.Traceless.map
    unfold entry
    split
    · rename_i e _
      intro f failed
      exact congrArg b.done failed
    · exact b.dispatch_traceless name
  | declareLabel label => exact (b.declareLabel_traceless label).map _
  | referenceLabel label => exact (b.referenceLabel_traceless label).map _
  | assign name => exact (b.assign_traceless name).map _
  | assignValue stem datum => exact (b.assignValue_traceless stem datum).map _
  | endLine => exact b.endLine_traceless.map _
  | readStream lines verbose => exact single.elim
  | finalize => exact single.elim
  | resolveBranches => exact single.elim
  | defineValue name value => exact single.elim

theorem endLine_refused {e : Error} (failed : b.endLine.result = .error e) :
    b.endLine = b.done (.error e) := by
  unfold endLine at failed ⊢
  split at failed
  · exact congrArg b.done failed
  · cases failed

theorem endLine_silent (b : Builder) : b.endLine.events = [] := by
  unfold endLine
  split <;> rfl

/-- A call that begins a new line and is rejected has ended the line before. -/
theorem entry_newline_rejected {name : String} {f : Fault}
    (failed : (b.entry true name).result = .error (.fault f)) :
    (b.entry true name).builder = b.endLine.builder ∧ (b.entry true name).events = [] := by
  cases given : b.layout with
  | none =>
    have absent : ∀ call, b.needLayout call = .error (Cause.layoutNeeded call).report := by
      intro call
      rw [needLayout, given]
    have unended : b.checkOpen = .error (Cause.layoutNeeded "end_line").report := by
      rw [checkOpen, absent, error_bind]
    rw [entry, absent, endLine, unended]
    exact ⟨rfl, rfl⟩
  | some layout =>
    rw [entry, needLayout_some given] at failed ⊢
    simp only [↓reduceIte] at failed ⊢
    cases ended : b.endLine.result with
    | error e =>
      have stopped : b.endLine.andThen (fun _ after => after.dispatch name) =
          ⟨.error e, b.endLine.builder, b.endLine.events⟩ := by
        simp only [Outcome.andThen, ended]
      rw [stopped]
      exact ⟨rfl, b.endLine_silent⟩
    | ok u =>
      have goes_on : b.endLine.andThen (fun _ after => after.dispatch name) =
          ⟨(b.endLine.builder.dispatch name).result, (b.endLine.builder.dispatch name).builder,
            b.endLine.events ++ (b.endLine.builder.dispatch name).events⟩ := by
        simp only [Outcome.andThen, ended]
      rw [goes_on] at failed ⊢
      rw [b.endLine.builder.dispatch_traceless name f failed, b.endLine_silent]
      exact ⟨rfl, rfl⟩

end Builder

/-- Calls that are rejected leave no trace: a single call leaves the builder as it was, and a call
that begins a new line leaves what ending the line before leaves. -/
theorem rejected_calls_leave_no_trace [Machine] (b : Builder) (f : Fault) :
    (∀ call : Call, call.Single → (b.perform call).result = .error (.fault f) →
      (b.perform call).builder = b ∧ (b.perform call).events = []) ∧
    ∀ name : String, (b.perform (.entry true name)).result = .error (.fault f) →
      (b.perform (.entry true name)).builder = (b.perform .endLine).builder ∧
      (b.perform (.entry true name)).events = [] ∧
      ∀ e, (b.perform .endLine).result = .error e → (b.perform .endLine).builder = b := by
  constructor
  · intro call single failed
    rw [Builder.perform_traceless single f failed]
    exact ⟨rfl, rfl⟩
  · intro name failed
    obtain ⟨left, silent⟩ := Builder.entry_newline_rejected (Outcome.error_of_map failed)
    refine ⟨left, silent, ?_⟩
    intro e unended
    exact congrArg Outcome.builder (Builder.endLine_refused (Outcome.error_of_map unended))

/-- In debug mode, with a line pending: a branch without a target is rejected as it comes, and a
label that begins a new line is rejected after the line before was ended. -/
theorem rejected_calls_leave_no_trace_in_debug_mode :
    let b := (Builder.fresh (some Layout.small) [] true).afterCalls
      [.assign "OP_ADD", .declareLabel "a"]
    (b.perform (.entry false "offset_")).result =
      .error (.fault ⟨.emptyTarget, some (.int 0), none⟩) ∧
    (b.perform (.entry false "offset_")).builder = b ∧
    (b.perform (.entry true "label_a")).result =
      .error (.fault ⟨.labelTwice "a" (.int 0), some (.int 1), none⟩) ∧
    (b.perform (.entry true "label_a")).builder = (b.perform .endLine).builder ∧
    (b.perform .endLine).builder ≠ b := by
  intro b
  have rejected : (b.perform (.entry false "offset_")).result =
    .error (.fault ⟨.emptyTarget, some (.int 0), none⟩) := by decide +kernel
  have rejected' : (b.perform (.entry true "label_a")).result =
    .error (.fault ⟨.labelTwice "a" (.int 0), some (.int 1), none⟩) := by decide +kernel
  obtain ⟨unchanged, _⟩ :=
    (rejected_calls_leave_no_trace b _).1 (.entry false "offset_") rfl rejected
  obtain ⟨ended, _⟩ := (rejected_calls_leave_no_trace b _).2 "label_a" rejected'
  exact ⟨rejected, unchanged, rejected', ended, by decide +kernel⟩

end Microcode
