import Microcode.Proofs.Checks
import Microcode.Proofs.Resolution
import Mathlib.Logic.Relation

/-!
What can happen to a builder. Every call, whether it succeeds or fails, comes down to a few kinds of
changes, each with what the checks made sure of before it. Invariants are proved against these
changes and never against the calls.
-/
namespace Microcode

/-- The tokens that may be stored under a stem, branches apart. -/
def Token.Fits (layout : Layout) (stem : String) : Token → Prop
  | .literal _ => (layout.field? stem).isSome
  | .symbol name => ∃ field, layout.owner? name = some field ∧ field.stem = stem
  | .label _ => False

/-- One change. Only source lines in `marks` are ever read. -/
inductive Change (layout : Layout) (marks : Value → Prop) (b : Builder) : Builder → Prop where
  | source (line : Option Value) (known : ∀ v, line = some v → marks v) :
      Change layout marks b { b with sourceLine := line }
  | symbols (table : SymbolTable) : Change layout marks b { b with symbols := table }
  | label (name : String) (unresolved : b.resolved = false) (named : name ≠ "")
      (ascii : Text.isAscii name = true) (new : b.labels.lookup name = none) :
      Change layout marks b { b with labels := b.labels.put name b.lines.length }
  | token (stem : String) (token : Token) (unresolved : b.resolved = false)
      (fits : token.Fits layout stem) (free : b.current.tokens.lookup stem = none) :
      Change layout marks b (b.withToken stem token)
  | branch (label : String) (unresolved : b.resolved = false)
      (field : (layout.field? branchStem).isSome)
      (free : b.current.tokens.lookup branchStem = none) :
      Change layout marks b ((b.withToken branchStem (.label label)).withBranch label)
  | commit (unresolved : b.resolved = false) : Change layout marks b b.committed
  | resolve : Change layout marks b b.resolveBranches.builder
  | close (empty : b.current.tokens = []) (settled : ∀ line ∈ b.lines, line.pendingLabel? = none) :
      Change layout marks b { b with resolved := true }

def Evolves (layout : Layout) (marks : Value → Prop) : Builder → Builder → Prop :=
  Relation.ReflTransGen (Change layout marks)

namespace Evolves

variable {layout : Layout} {marks : Value → Prop} {b c d : Builder}

theorem refl (b : Builder) : Evolves layout marks b b := Relation.ReflTransGen.refl

theorem single (change : Change layout marks b c) : Evolves layout marks b c :=
  Relation.ReflTransGen.single change

theorem trans (first : Evolves layout marks b c) (second : Evolves layout marks c d) :
    Evolves layout marks b d :=
  Relation.ReflTransGen.trans first second

/-- What every change keeps is kept for ever. -/
theorem invariant {P : Builder → Prop} (step : ∀ {b c}, Change layout marks b c → P b → P c)
    (run : Evolves layout marks b c) (start : P b) : P c := by
  induction run with
  | refl => exact start
  | tail _ change ih => exact step change ih

end Evolves

theorem Change.layout_eq {layout : Layout} {marks : Value → Prop} {b c : Builder}
    (change : Change layout marks b c) :
    c.layout = b.layout := by
  cases change with
  | commit => unfold Builder.committed; split <;> rfl
  | _ => rfl

theorem Evolves.layout_eq {layout : Layout} {marks : Value → Prop} {b c : Builder}
    (run : Evolves layout marks b c) :
    c.layout = b.layout :=
  run.invariant (P := fun d => d.layout = b.layout) (fun change h => change.layout_eq.trans h) rfl

namespace Builder

variable {layout : Layout} {marks : Value → Prop} {b : Builder}

theorem store_builder (b : Builder) (stem : String) (token : Token) :
    (b.store stem token).builder = b.withToken stem token := by
  simp only [store]
  split
  · split <;> rfl
  · rfl

theorem store_ok_iff {stem : String} {token : Token} :
    (b.store stem token).result = .ok () ↔
      (b.debug = true → token.numbers.all Numeral.fits = true) := by
  unfold store
  cases b.debug <;> cases token.numbers.all Numeral.fits <;> simp

theorem store_label_ok (b : Builder) (label : String) :
    (b.store branchStem (.label label)).result = .ok () := by
  simp only [store]
  split
  · simp [Token.numbers]
  · rfl

theorem declareLabel_evolves (given : b.layout = some layout) (label : String) :
    Evolves layout marks b (b.declareLabel label).builder := by
  unfold declareLabel
  split
  · exact .refl b
  · rename_i allowed
    obtain ⟨unresolved, named, ascii, new⟩ := (checkDeclaration_ok_iff given).mp allowed
    exact .single (.label label unresolved named ascii new)

theorem referenceLabel_ok {label : String} (allowed : b.checkReference label = .ok ()) :
    (b.referenceLabel label).result = .ok () ∧
      (b.referenceLabel label).builder =
        (b.withToken branchStem (.label label)).withBranch label := by
  unfold referenceLabel
  simp only [allowed, Outcome.andThen, store_label_ok, store_builder, done, and_self]

theorem referenceLabel_evolves (given : b.layout = some layout) (label : String) :
    Evolves layout marks b (b.referenceLabel label).builder := by
  cases check : b.checkReference label with
  | error e =>
    simp only [referenceLabel, check]
    exact .refl b
  | ok u =>
    obtain ⟨_, _, field, unresolved, free⟩ := (checkReference_ok_iff given).mp check
    rw [(referenceLabel_ok check).2]
    exact .single (.branch label unresolved field free)

theorem assign_evolves (given : b.layout = some layout) (name : String) :
    Evolves layout marks b (b.assign name).builder := by
  unfold assign
  split
  · exact .refl b
  · rename_i stem allowed
    obtain ⟨owned, unresolved, free⟩ := (checkName_ok_iff given).mp allowed
    rw [store_builder]
    exact .single (.token stem (.symbol name) unresolved owned free)

theorem assignValue_evolves (given : b.layout = some layout) (stem : String) (datum : Datum) :
    Evolves layout marks b (b.assignValue stem datum).builder := by
  unfold assignValue
  split
  · exact .refl b
  · rename_i v allowed
    obtain ⟨declared, _, unresolved, free⟩ := (checkValue_ok_iff given).mp allowed
    rw [store_builder]
    exact .single (.token stem (.literal v) unresolved declared free)

theorem endLine_evolves (given : b.layout = some layout) :
    Evolves layout marks b b.endLine.builder := by
  unfold endLine
  split
  · exact .refl b
  · rename_i allowed
    exact .single (.commit ((checkOpen_ok_iff given).mp allowed))

theorem committed_current (b : Builder) : b.committed.current.tokens = [] := by
  unfold committed
  split
  · rename_i empty
    exact List.isEmpty_iff.mp empty
  · rfl

theorem defineValue_evolves (b : Builder) (name : String) (value : Option Value) :
    Evolves layout marks b (b.defineValue name value).builder := by
  unfold defineValue
  dsimp only
  split
  · exact .single (.symbols _)
  · exact .refl b

/-- Closing a builder is the last of three changes, and a failed run makes only the first two. -/
theorem finalize_evolves [Machine] (given : b.layout = some layout) :
    Evolves layout marks b b.finalize.builder := by
  cases check : b.checkFinalize with
  | error e =>
    simp only [finalize, check]
    exact .refl b
  | ok l =>
    obtain ⟨_, unresolved⟩ := (checkFinalize_ok_iff given).mp check
    have flushed : Evolves layout marks b b.committed := .single (.commit unresolved)
    have run := flushed.trans (.single .resolve)
    simp only [finalize, check]
    rcases resolve_result b.committed.labels b.committed.lines with
      ⟨count, done, _, settled⟩ | ⟨_, fault, _, _, failed⟩
    · have result : b.committed.resolveBranches.result = .ok count := done
      simp only [Outcome.andThen, result]
      exact run.trans (.single (.close (committed_current b) settled))
    · have result : b.committed.resolveBranches.result = .error fault.report := failed
      simp only [Outcome.andThen, result]
      exact run

end Builder

end Microcode
