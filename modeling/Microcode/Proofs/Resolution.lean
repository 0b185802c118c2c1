import Microcode.Branch
import Microcode.Proofs.Assoc
import Microcode.Proofs.Lists

/-!
Resolving branches, line by line. What becomes of one line is a relation of its own (`Settles`), so
that whatever it keeps is kept by every run of `resolve`, also by one that stops halfway.
-/
namespace Microcode

namespace Line

def branchFault? (labels : Labels) (line : Line) : Option Fault :=
  match line.pendingLabel? with
  | none => none
  | some label =>
    match labels.lookup label with
    | none => some ⟨.unresolvedLabel label, line.index, line.source⟩
    | some target =>
      let d := target.toInt - line.index.toInt
      if d < 0 ∨ maxBranch < d then
        some ⟨.labelOutOfRange label d target, line.index, line.source⟩
      else none

theorem pendingLabel_eq_some {line : Line} {label : String} :
    line.pendingLabel? = some label ↔ line.tokens.lookup branchStem = some (.label label) := by
  unfold pendingLabel?
  split
  · rename_i name held
    simp [held]
  · rename_i other
    constructor
    · intro impossible
      cases impossible
    · intro held
      exact absurd held (other label)

theorem distance_ok {labels : Labels} {line : Line} {label : String} {d : Int}
    (reached : line.distance labels label = .ok d) :
    ∃ target, labels.lookup label = some target ∧ d = target.toInt - line.index.toInt ∧
      0 ≤ d ∧ d ≤ maxBranch := by
  unfold distance at reached
  split at reached
  · cases reached
  · rename_i target declared
    dsimp only at reached
    split at reached
    · cases reached
    · rename_i within
      cases reached
      exact ⟨target, declared, rfl, by omega, by omega⟩

theorem distance_of_no_fault {labels : Labels} {line : Line} {label : String}
    (pending : line.pendingLabel? = some label) (clear : line.branchFault? labels = none) :
    ∃ d, line.distance labels label = .ok d := by
  unfold branchFault? at clear
  rw [pending] at clear
  unfold distance
  cases declared : labels.lookup label with
  | none => simp [declared] at clear
  | some target =>
    simp only [declared] at clear
    split at clear
    · cases clear
    · rename_i within
      exact ⟨_, if_neg within⟩

theorem distance_of_fault {labels : Labels} {line : Line} {fault : Fault}
    (bad : line.branchFault? labels = some fault) :
    ∃ label, line.pendingLabel? = some label ∧
      line.distance labels label = .error fault.report := by
  unfold branchFault? at bad
  split at bad
  · cases bad
  · rename_i label pending
    refine ⟨label, pending, ?_⟩
    unfold distance
    cases declared : labels.lookup label with
    | none =>
      rw [declared] at bad
      cases bad
      rfl
    | some target =>
      rw [declared] at bad
      by_cases far : target.toInt - line.index.toInt < 0 ∨
          maxBranch < target.toInt - line.index.toInt
      · have fault_eq := (if_pos far).symm.trans bad
        cases fault_eq
        exact if_pos far
      · have no_fault := (if_neg far).symm.trans bad
        cases no_fault

/-- What resolving does to one line: nothing, or a pending label becomes its distance. -/
inductive Settles (labels : Labels) (line : Line) : Line → Prop where
  | same : Settles labels line line
  | branch {label : String} {d : Int} (pending : line.pendingLabel? = some label)
      (reached : line.distance labels label = .ok d) :
      Settles labels line (line.setBranch label d)

theorem Settles.index_eq {labels : Labels} {line line' : Line} (step : line.Settles labels line') :
    line'.index = line.index := by
  cases step <;> rfl

theorem Settles.filled {labels : Labels} {line line' : Line} (step : line.Settles labels line')
    (filled : line.tokens ≠ []) : line'.tokens ≠ [] := by
  cases step with
  | same => exact filled
  | branch pending reached => exact Assoc.put_ne_nil line.tokens _ _

theorem Settles.eq_of_settled {labels : Labels} {line line' : Line}
    (step : line.Settles labels line') (settled : line.pendingLabel? = none) : line' = line := by
  cases step with
  | same => rfl
  | branch pending reached => cases settled.symm.trans pending

theorem Settles.source_eq {labels : Labels} {line line' : Line}
    (step : line.Settles labels line') : line'.source = line.source := by
  cases step <;> rfl

theorem pendingLabel_setBranch (line : Line) (label : String) (d : Int) :
    (line.setBranch label d).pendingLabel? = none := by
  simp [pendingLabel?, setBranch, Assoc.lookup_put]

end Line

theorem resolve_settles (labels : Labels) (lines : List Line) :
    List.Forall₂ (Line.Settles labels) lines (resolve labels lines).1 := by
  induction lines with
  | nil => exact .nil
  | cons line rest ih =>
    unfold resolve
    split
    · exact .cons .same ih
    · rename_i label pending
      split
      · exact List.forall₂_same.mpr fun _ _ => .same
      · rename_i d reached
        exact .cons (.branch pending reached) ih

theorem resolve_line_at {labels : Labels} {lines : List Line} {i : Nat} {line' : Line}
    (after : (resolve labels lines).1[i]? = some line') :
    ∃ line, lines[i]? = some line ∧ line.Settles labels line' :=
  along_at (resolve_settles labels lines) after

/-- A run either resolves every line, or stops at the first one that cannot be resolved. -/
theorem resolve_result (labels : Labels) (lines : List Line) :
    (∃ count, (resolve labels lines).2 = .ok count ∧
      (∀ line ∈ lines, line.branchFault? labels = none) ∧
      ∀ line ∈ (resolve labels lines).1, line.pendingLabel? = none) ∨
    ∃ line fault, First (fun l => (l.branchFault? labels).isSome) lines line ∧
      line.branchFault? labels = some fault ∧
      (resolve labels lines).2 = .error fault.report := by
  induction lines with
  | nil => exact .inl ⟨0, rfl, by simp, by simp [resolve]⟩
  | cons line rest ih =>
    cases bad : line.branchFault? labels with
    | some fault =>
      obtain ⟨label, pending, failed⟩ := Line.distance_of_fault bad
      refine .inr ⟨line, fault, First.head rest (by simp [bad]), bad, ?_⟩
      simp only [resolve, pending, failed]
    | none =>
      have passed : ¬ (line.branchFault? labels).isSome := by simp [bad]
      rcases ih with ⟨count, done, clear, settled⟩ | ⟨stop, fault, first, why, failed⟩
      · left
        have clear' : ∀ l ∈ line :: rest, l.branchFault? labels = none :=
          List.forall_mem_cons.mpr ⟨bad, clear⟩
        cases pending : line.pendingLabel? with
        | none =>
          refine ⟨count, by simp only [resolve, pending, done], clear', ?_⟩
          simp only [resolve, pending]
          exact List.forall_mem_cons.mpr ⟨pending, settled⟩
        | some label =>
          obtain ⟨d, reached⟩ := Line.distance_of_no_fault pending bad
          refine ⟨count + 1, by simp only [resolve, pending, reached, done]; rfl, clear', ?_⟩
          simp only [resolve, pending, reached]
          exact List.forall_mem_cons.mpr ⟨Line.pendingLabel_setBranch line label d, settled⟩
      · right
        refine ⟨stop, fault, First.later passed first, why, ?_⟩
        cases pending : line.pendingLabel? with
        | none => simp only [resolve, pending, failed]
        | some label =>
          obtain ⟨d, reached⟩ := Line.distance_of_no_fault pending bad
          simp only [resolve, pending, reached, failed]
          rfl

end Microcode
