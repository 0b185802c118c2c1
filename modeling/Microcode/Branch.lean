import Microcode.Line

/-!
Resolving branches. A label in the branch field of a line becomes the distance from the line to
the label, which has to lie between zero and `maxBranch`. Lines are resolved in order, and those
before the first one that cannot be resolved stay resolved.
-/
namespace Microcode

namespace Line

def pendingLabel? (line : Line) : Option String :=
  match line.tokens.lookup branchStem with
  | some (.label name) => some name
  | _ => none

def distance (labels : Labels) (line : Line) (label : String) : Except Error Int :=
  match labels.lookup label with
  | none => .error (Fault.report ⟨.unresolvedLabel label, line.index, line.source⟩)
  | some target =>
    let d := target.toInt - line.index.toInt
    if d < 0 ∨ maxBranch < d then
      .error (Fault.report ⟨.labelOutOfRange label d target, line.index, line.source⟩)
    else .ok d

def setBranch (line : Line) (label : String) (d : Int) : Line :=
  { line with
    tokens := line.tokens.put branchStem (.literal (.int d))
    branch := some label }

end Line

/-- Resolves the branches of lines; tells how many were resolved. -/
def resolve (labels : Labels) : List Line → List Line × Except Error Nat
  | [] => ([], .ok 0)
  | line :: rest =>
    match line.pendingLabel? with
    | none =>
      let (after, count) := resolve labels rest
      (line :: after, count)
    | some label =>
      match line.distance labels label with
      | .error e => (line :: rest, .error e)
      | .ok d =>
        let (after, count) := resolve labels rest
        (line.setBranch label d :: after, count.map (· + 1))

end Microcode
