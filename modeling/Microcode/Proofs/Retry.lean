import Microcode.Proofs.Lockstep

/-!
Closing a builder again after a branch could not be resolved. The failed attempt has resolved the
branches before the one that stopped it and left the others alone. From then on the builder behaves
as if nothing but the end of the line had been asked for, so the missing label can be declared and
the builder closed.
-/
namespace Microcode

/-- What a session shows call by call: what each call gives, and the labels after it. -/
def Builder.transcript [Machine] (b : Builder) : List Call → List (Except Error Reply × Labels)
  | [] => []
  | call :: rest =>
    ((b.perform call).result, (b.perform call).builder.labels) ::
      (b.perform call).builder.transcript rest

/-! Builders that are behind with the same source lines. -/

theorem Line.Matches.eq {line line' : Line} (alike : line.Matches Eq line') : line = line' := by
  obtain ⟨index, tokens, branch, source⟩ := alike
  cases line
  cases line'
  simp_all

theorem Builder.Behind.eq {b c : Builder} (behind : b.Behind Eq c)
    (lines : List.Forall₂ (Line.Matches Eq) b.lines c.lines) : b = c := by
  have same : b.lines = c.lines :=
    List.forall₂_eq_eq_eq ▸ lines.imp fun _ _ alike => alike.eq
  have current := behind.current.eq
  obtain ⟨layout, symbols, debug, resolved, labels, _, _, sourceLine⟩ := behind
  cases b
  cases c
  simp_all

namespace Builder

variable {b c : Builder}

/-- The number of branches that are resolved apart, every call gives the same. -/
theorem perform_behind [Machine] {call : Call} (behind : b.Behind Eq c)
    (counted : call ≠ .resolveBranches) : (b.perform call).Matches Eq (c.perform call) :=
  (Outcome.Matches.parallel rfl).perform behind call
    (fun _ => (Outcome.Matches.finalize behind rfl).1) fun same => absurd same counted

theorem afterCalls_behind [Machine] {calls : List Call} (behind : b.Behind Eq c)
    (plain : ∀ call ∈ calls, call ≠ .resolveBranches) :
    b.transcript calls = c.transcript calls ∧
      (b.afterCalls calls).Behind Eq (c.afterCalls calls) := by
  induction calls generalizing b c with
  | nil => exact ⟨rfl, behind⟩
  | cons call rest ih =>
    obtain ⟨here, later⟩ := List.forall_mem_cons.mp plain
    have step := perform_behind behind here
    obtain ⟨shown, left⟩ := ih step.builder later
    rw [transcript, transcript, step.result.eq, step.builder.labels, shown]
    exact ⟨rfl, left⟩

end Builder

/-! A builder whose closing was stopped by a branch. -/

def Fault.OfBranch (fault : Fault) : Prop :=
  fault.cause.kind = .unresolvedLabel ∨ fault.cause.kind = .labelOutOfRange

variable {layout : Layout} {b : Builder} {fault : Fault}

theorem unresolved_of_branch_fault [Machine] (given : b.layout = some layout)
    (failed : b.finalize.result = .error (.fault fault)) (branch : fault.OfBranch) :
    b.resolved = false := by
  cases closed : b.resolved with
  | false => rfl
  | true =>
    have refused : b.checkFinalize = .error Cause.alreadyResolved.report := by
      simp only [Builder.checkFinalize, Builder.needLayout, given, closed]
      rfl
    rw [Builder.finalize, refused] at failed
    have same := Fault.eq_of_report (Except.error.inj failed)
    subst same
    rcases branch with kind | kind <;> cases kind

/-- Once every branch is resolved, what still goes wrong is not to be blamed on a branch. -/
theorem resolution_of_branch_fault [Machine] (laid : layout.Sound) (sound : b.Sound layout)
    (failed : b.finalize.result = .error (.fault fault)) (branch : fault.OfBranch) :
    ∃ e, resolution b.committed.labels b.committed.lines = .error e := by
  have unresolved := unresolved_of_branch_fault sound.layout_given failed branch
  have outcome := finalize_finalized laid sound unresolved
  rw [failed] at outcome
  rw [Builder.committed_labels, committed_lines, resolution]
  rcases resolve_result b.labels b.flushed with ⟨count, _, clear, _⟩ | ⟨_, fault', _, _, stuck⟩
  · exfalso
    generalize packed : Except.error (Error.fault fault) = result at outcome
    cases outcome with
    | badBranch first why =>
      have bad := (flushed_sound sound unresolved _ first.mem).branchFault?_iff.mpr why
      cases (clear _ first.mem).symm.trans bad
    | noMemory reached full why =>
      cases packed
      rcases Capacity.buffer_error why with same | same <;> cases same
    | missingSymbol reached room first field why =>
      have same := Fault.eq_of_report (Except.error.inj packed).symm
      subst same
      cases why
      rcases branch with kind | kind <;> cases kind
    | packed => cases packed
  · exact ⟨fault'.report, by rw [stuck]; rfl⟩

/-- The lines that the failed attempt has resolved are the only difference that it makes. -/
theorem endLine_behind_finalize [Machine] (laid : layout.Sound) (sound : b.Sound layout)
    (failed : b.finalize.result = .error (.fault fault)) (branch : fault.OfBranch) :
    b.endLine.builder.Behind Eq b.finalize.builder := by
  have unresolved := unresolved_of_branch_fault sound.layout_given failed branch
  have allowed := (Builder.checkFinalize_ok_iff sound.layout_given).mpr ⟨rfl, unresolved⟩
  obtain ⟨e, stuck⟩ := resolution_of_branch_fault laid sound failed branch
  rw [endLine_open sound.layout_given unresolved, finalize_closes allowed, stuck]
  have settles := resolve_settles b.committed.labels b.committed.lines
  exact {
    layout := rfl
    symbols := rfl
    debug := rfl
    resolved := rfl
    labels := rfl
    lines := settles.imp fun _ settled step => ⟨settled, step, rfl, rfl, rfl, rfl⟩
    current := ⟨rfl, rfl, rfl, rfl⟩
    sourceLine := rfl }

/-- A builder that could not be closed for a branch goes on as one whose line was ended, whatever is
called next: every call gives the same and leaves the same labels, and once one of the two is
closed with an image, so is the other, and nothing tells them apart any more. -/
theorem failed_finalize_repairable [Machine] {layout : Layout} (built : layout.Built)
    (symbols : SymbolTable) (debug : Bool) (calls : List Call) {fault : Fault}
    (failed : ((Builder.fresh (some layout) symbols debug).afterCalls calls).finalize.result =
      .error (.fault fault))
    (branch : fault.OfBranch) {later : List Call}
    (plain : ∀ call ∈ later, call ≠ .resolveBranches) :
    let b := (Builder.fresh (some layout) symbols debug).afterCalls calls
    let retried := b.finalize.builder
    let ended := b.endLine.builder
    retried.labels = ended.labels ∧ retried.transcript later = ended.transcript later ∧
      (retried.afterCalls later).finalize.result = (ended.afterCalls later).finalize.result ∧
      ∀ image, (retried.afterCalls later).finalize.result = .ok image →
        (retried.afterCalls later).finalize.builder =
          (ended.afterCalls later).finalize.builder := by
  intro b retried ended
  have sound : b.Sound layout := Builder.Sound.afterCalls layout symbols debug calls
  have behind : ended.Behind Eq retried := endLine_behind_finalize built.sound sound failed branch
  obtain ⟨shown, left⟩ := Builder.afterCalls_behind behind plain
  obtain ⟨closing, caught⟩ := Outcome.Matches.finalize left rfl
  refine ⟨behind.labels.symm, shown.symm, closing.result.eq.symm, ?_⟩
  intro image accepted
  rw [← closing.result.eq] at accepted
  exact (closing.builder.eq (caught image accepted)).symm

/-- Of two branches only the first can be resolved at the first attempt. -/
theorem failed_finalize_repairable_second_branch :
    let calls : List Call :=
      [.referenceLabel "a", .endLine, .declareLabel "a", .referenceLabel "b"]
    let b := (Builder.fresh (some Layout.small) [] false).afterCalls calls
    let fault : Fault := ⟨.unresolvedLabel "b", some (.int 1), none⟩
    let later : List Call := [.finalize, .declareLabel "b", .assignValue "OP_" (.value (.int 3))]
    let image : Image := ⟨.int 4, .int 7, ["0001000", "0001000", "0000011"]⟩
    Layout.small.Built ∧ b.finalize.result = .error (.fault fault) ∧ fault.OfBranch ∧
      (∀ call ∈ later, call ≠ .resolveBranches) ∧
      b.finalize.builder.lines ≠ b.endLine.builder.lines ∧
      b.finalize.builder.transcript later = b.endLine.builder.transcript later ∧
      (b.endLine.builder.afterCalls later).finalize.result = .ok image ∧
      (b.finalize.builder.afterCalls later).finalize.builder =
        (b.endLine.builder.afterCalls later).finalize.builder := by
  intro calls b fault later image
  have failed : b.finalize.result = .error (.fault fault) := by decide +kernel
  have plain : ∀ call ∈ later, call ≠ .resolveBranches := by simp [later]
  have accepted : (b.finalize.builder.afterCalls later).finalize.result = .ok image := by
    decide +kernel
  have repaired :=
    failed_finalize_repairable Layout.small_built [] false calls failed (.inl rfl) plain
  exact ⟨Layout.small_built, failed, .inl rfl, plain, by decide +kernel, repaired.2.1,
    repaired.2.2.1 ▸ accepted, repaired.2.2.2 image accepted⟩

end Microcode
