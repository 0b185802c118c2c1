import Microcode.Stream

/-!
Sessions: calls of the builder as data, so that one can speak of any sequence of them. A call that
fails does not end a session; the next one works on the builder it leaves.
-/
namespace Microcode

inductive Call where
  | entry (newline : Bool) (name : String)
  | declareLabel (label : String)
  | referenceLabel (label : String)
  | assign (name : String)
  | assignValue (stem : String) (datum : Datum)
  | endLine
  | readStream (lines : List String) (verbose : Bool)
  | finalize
  | resolveBranches
  | defineValue (name : String) (value : Option Value)

inductive Reply where
  | done
  | count (n : Nat)
  | image (i : Image)
  deriving DecidableEq, Repr

namespace Builder

def perform [Machine] (b : Builder) : Call → Outcome Reply
  | .entry newline name => (b.entry newline name).map fun _ => .done
  | .declareLabel label => (b.declareLabel label).map fun _ => .done
  | .referenceLabel label => (b.referenceLabel label).map fun _ => .done
  | .assign name => (b.assign name).map fun _ => .done
  | .assignValue stem datum => (b.assignValue stem datum).map fun _ => .done
  | .endLine => b.endLine.map fun _ => .done
  | .readStream lines verbose => (b.readStream lines verbose).map .count
  | .finalize => b.finalize.map .image
  | .resolveBranches => b.resolveBranches.map .count
  | .defineValue name value => (b.defineValue name value).map fun _ => .done

/-- The builder after a sequence of calls, whatever becomes of each. -/
def afterCalls [Machine] (b : Builder) (calls : List Call) : Builder :=
  calls.foldl (fun b call => (b.perform call).builder) b

end Builder

end Microcode
