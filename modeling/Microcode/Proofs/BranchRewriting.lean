import Microcode.Proofs.StreamAssembly

/-!
Resolving branches in place. A run rewrites the lines one after the other, so the state it leaves is
known exactly also if it stops: the lines before the one that cannot be resolved are rewritten, and
that line and those after it are as they were. A second run therefore has nothing left to do, or
stops at the same line. Nothing is asked of the lines: their indices may be in any order, and labels
may stand in any field.
-/
namespace Microcode

namespace Assoc

variable {α : Type}

theorem lookup_split {map : Assoc α} {key : String} {value : α}
    (found : map.lookup key = some value) :
    ∃ before after, map = before ++ (key, value) :: after ∧ ∀ entry ∈ before, entry.1 ≠ key := by
  obtain ⟨before, after, split, clear⟩ := List.lookup_eq_some_iff.mp found
  refine ⟨before, after, split, ?_⟩
  intro entry earlier same
  exact absurd (clear entry earlier) (by simp [same])

theorem put_split {before : Assoc α} {key : String} (clear : ∀ entry ∈ before, entry.1 ≠ key)
    (old new : α) (after : Assoc α) :
    Assoc.put key new (before ++ (key, old) :: after) = before ++ (key, new) :: after := by
  induction before with
  | nil => exact if_pos rfl
  | cons entry rest ih =>
    obtain ⟨here, later⟩ := List.forall_mem_cons.mp clear
    rw [List.cons_append, put, if_neg here, ih later, List.cons_append]

end Assoc

namespace Line

/-- What becomes of a line that can be resolved. A label in its branch field gives way, in its
place, to the distance, and the line remembers it; every other line stays as it is. -/
inductive Rewritten (labels : Labels) (line : Line) : Line → Prop where
  | kept (unpending : ∀ label, line.tokens.lookup branchStem ≠ some (.label label)) :
      Rewritten labels line line
  | branch {before after : Assoc Token} {label : String} {target : Value} {d : Int}
      (held : line.tokens = before ++ (branchStem, .label label) :: after)
      (first : ∀ entry ∈ before, entry.1 ≠ branchStem)
      (declared : labels.lookup label = some target)
      (distance : d = target.toInt - line.index.toInt) (forward : 0 ≤ d) (near : d ≤ 15) :
      Rewritten labels line
        { line with
          tokens := before ++ (branchStem, .literal (.int d)) :: after
          branch := some label }

inductive Unreachable (labels : Labels) (line : Line) : Fault → Prop where
  | undeclared {label : String} (held : line.tokens.lookup branchStem = some (.label label))
      (absent : labels.lookup label = none) :
      Unreachable labels line ⟨.unresolvedLabel label, line.index, line.source⟩
  | outOfReach {label : String} {target : Value} {d : Int}
      (held : line.tokens.lookup branchStem = some (.label label))
      (declared : labels.lookup label = some target)
      (distance : d = target.toInt - line.index.toInt) (far : d < 0 ∨ 15 < d) :
      Unreachable labels line ⟨.labelOutOfRange label d target, line.index, line.source⟩

variable {labels : Labels} {line line' : Line}

theorem Resolves.rewritten (resolves : line.Resolves labels line') :
    line.Rewritten labels line' := by
  cases resolves with
  | plain settled =>
    apply Rewritten.kept
    intro label held
    cases settled.symm.trans (pendingLabel_eq_some.mpr held)
  | @branch label d pending reached =>
    obtain ⟨before, after, split, first⟩ := Assoc.lookup_split (pendingLabel_eq_some.mp pending)
    obtain ⟨target, declared, distance, forward, near⟩ := distance_ok reached
    have placed : line.setBranch label d =
        { line with
          tokens := before ++ (branchStem, .literal (.int d)) :: after
          branch := some label } := by
      rw [setBranch, split, Assoc.put_split first]
    rw [placed]
    exact .branch split first declared distance forward near

theorem Resolves.settled (resolves : line.Resolves labels line') : line'.pendingLabel? = none := by
  cases resolves with
  | plain settled => exact settled
  | branch pending reached => exact pendingLabel_setBranch line _ _

theorem resolves_of_no_fault (clear : line.branchFault? labels = none) :
    ∃ line', line.Resolves labels line' := by
  cases pending : line.pendingLabel? with
  | none => exact ⟨line, .plain pending⟩
  | some label =>
    obtain ⟨d, reached⟩ := distance_of_no_fault pending clear
    exact ⟨_, .branch pending reached⟩

theorem unreachable_of_fault {fault : Fault} (bad : line.branchFault? labels = some fault) :
    line.Unreachable labels fault := by
  unfold branchFault? at bad
  split at bad
  · cases bad
  · rename_i label pending
    have held := pendingLabel_eq_some.mp pending
    split at bad
    · rename_i absent
      cases bad
      exact .undeclared held absent
    · rename_i target declared
      dsimp only at bad
      split at bad
      · rename_i far
        cases bad
        exact .outOfReach held declared rfl far
      · cases bad

end Line

/-- Lines that can be resolved are rewritten and counted, and what becomes of those after them does
not depend on them. -/
theorem resolve_append {labels : Labels} {before before' : List Line}
    (all : List.Forall₂ (Line.Resolves labels) before before') (rest : List Line) :
    resolve labels (before ++ rest) =
      (before' ++ (resolve labels rest).1,
        (resolve labels rest).2.map (before.countP (·.pendingLabel?.isSome) + ·)) := by
  induction all with
  | nil =>
    cases same : (resolve labels rest).2 <;> simp [Except.map, ← same]
  | @cons line line' lines lines' here _ ih =>
    cases here with
    | plain settled =>
      simp only [List.cons_append, resolve, settled, ih, List.countP_cons, Option.isSome_none,
        Bool.false_eq_true, ↓reduceIte, Nat.add_zero]
    | branch pending reached =>
      simp only [List.cons_append, resolve, pending, reached, ih, List.countP_cons,
        Option.isSome_some, ↓reduceIte]
      cases (resolve labels rest).2 <;> simp [Except.map]
      omega

/-- A run gets through all lines, or to the first that cannot be resolved. -/
theorem resolves_or_stops (labels : Labels) (lines : List Line) :
    (∃ lines', List.Forall₂ (Line.Resolves labels) lines lines') ∨
    ∃ before before' stop after fault, lines = before ++ stop :: after ∧
      List.Forall₂ (Line.Resolves labels) before before' ∧
      stop.branchFault? labels = some fault := by
  induction lines with
  | nil => exact .inl ⟨[], .nil⟩
  | cons line rest ih =>
    cases bad : line.branchFault? labels with
    | some fault => exact .inr ⟨[], [], line, rest, fault, rfl, .nil, bad⟩
    | none =>
      obtain ⟨line', here⟩ := Line.resolves_of_no_fault bad
      rcases ih with ⟨rest', later⟩ | ⟨before, before', stop, after, fault, rfl, later, why⟩
      · exact .inl ⟨line' :: rest', .cons here later⟩
      · exact .inr ⟨line :: before, line' :: before', stop, after, fault, rfl, .cons here later,
          why⟩

theorem resolves_again {labels : Labels} {lines lines' : List Line}
    (all : List.Forall₂ (Line.Resolves labels) lines lines') :
    List.Forall₂ (Line.Resolves labels) lines' lines' ∧
      lines'.countP (·.pendingLabel?.isSome) = 0 := by
  have settled : ∀ line' ∈ lines', line'.pendingLabel? = none := by
    intro line' member
    obtain ⟨line, _, here⟩ := along_mem all member
    exact here.settled
  refine ⟨List.forall₂_same.mpr fun line' member => .plain (settled line' member), ?_⟩
  rw [List.countP_eq_zero]
  intro line' member
  simp [settled line' member]

theorem resolve_stop {labels : Labels} {stop : Line} {fault : Fault}
    (bad : stop.branchFault? labels = some fault) (after : List Line) :
    resolve labels (stop :: after) = (stop :: after, .error fault.report) := by
  obtain ⟨label, pending, failed⟩ := Line.distance_of_fault bad
  simp only [resolve, pending, failed]

/-- A run of `resolve` rewrites all lines and counts the branches, or it stops at the first line
that cannot be resolved, with the lines before it rewritten and the others as they were. A second
run finds no branch, or stops at the same line for the same reason; it changes nothing. -/
theorem branches_rewritten_in_place (labels : Labels) (lines : List Line) :
    (∃ lines', List.Forall₂ (Line.Rewritten labels) lines lines' ∧
      resolve labels lines = (lines', .ok (lines.countP (·.pendingLabel?.isSome))) ∧
      resolve labels lines' = (lines', .ok 0)) ∨
    ∃ before before' stop after fault, lines = before ++ stop :: after ∧
      List.Forall₂ (Line.Rewritten labels) before before' ∧ stop.Unreachable labels fault ∧
      resolve labels lines = (before' ++ stop :: after, .error fault.report) ∧
      resolve labels (before' ++ stop :: after) =
        (before' ++ stop :: after, .error fault.report) := by
  rcases resolves_or_stops labels lines with
    ⟨lines', all⟩ | ⟨before, before', stop, after, fault, rfl, all, bad⟩
  · obtain ⟨again, none_left⟩ := resolves_again all
    refine .inl ⟨lines', all.imp fun _ _ => Line.Resolves.rewritten, ?_, ?_⟩
    · simpa [resolve, Except.map] using resolve_append all []
    · simpa [resolve, Except.map, none_left] using resolve_append again []
  · obtain ⟨again, _⟩ := resolves_again all
    refine .inr ⟨before, before', stop, after, fault, rfl,
      all.imp fun _ _ => Line.Resolves.rewritten, Line.unreachable_of_fault bad, ?_, ?_⟩
    · rw [resolve_append all, resolve_stop bad]
      rfl
    · rw [resolve_append again, resolve_stop bad]
      rfl

end Microcode
