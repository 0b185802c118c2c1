import Microcode.Branch
import Microcode.Rom
import Microcode.Word

/-!
The line builder. A producer assigns fields one call at a time; lines are committed in address
order, and labels remember how many lines were committed when they were declared. Every call
checks everything before it changes anything. `finalize` resolves the branches, closes the builder
and packs the lines.
-/
namespace Microcode

def labelMarker : String := "label_"

def offsetMarker : String := "offset_"

def exportMarker : String := "MICROPC_"

structure Builder where
  layout : Option Layout
  symbols : SymbolTable
  debug : Bool
  lines : List Line
  labels : Labels
  /-- The line being assembled. -/
  current : Line
  /-- The source line being read. -/
  sourceLine : Option Value
  /-- Set once the branches are resolved; the builder is closed from then on. -/
  resolved : Bool
  deriving DecidableEq, Repr

/-- What a call gives: a result, the builder after it, and what was logged. A call that fails may
still have changed the builder. -/
structure Outcome (α : Type) where
  result : Except Error α
  builder : Builder
  events : List Event

namespace Outcome

variable {α β : Type}

def map (f : α → β) (outcome : Outcome α) : Outcome β :=
  ⟨outcome.result.map f, outcome.builder, outcome.events⟩

def andThen (first : Outcome α) (next : α → Builder → Outcome β) : Outcome β :=
  match first.result with
  | .ok a =>
    let second := next a first.builder
    ⟨second.result, second.builder, first.events ++ second.events⟩
  | .error e => ⟨.error e, first.builder, first.events⟩

end Outcome

namespace Builder

variable {α : Type}

def fresh (layout : Option Layout) (symbols : SymbolTable) (debug : Bool) : Builder :=
  ⟨layout, symbols, debug, [], [], Line.fresh (.int 0), none, false⟩

def done (b : Builder) (result : Except Error α) : Outcome α := ⟨result, b, []⟩

def faultHere (b : Builder) (cause : Cause) : Error :=
  Fault.report ⟨cause, some (b.lines.length : Nat), b.sourceLine⟩

def needLayout (b : Builder) (call : String) : Except Error Layout :=
  match b.layout with
  | some layout => .ok layout
  | none => .error (Cause.layoutNeeded call).report

def checkDeclaration (b : Builder) (label : String) : Except Error Unit := do
  let _ ← b.needLayout "declare_label"
  if b.resolved then throw (b.faultHere (.declaredTooLate label))
  if label = "" then throw (b.faultHere .emptyLabel)
  if !Text.isAscii label then throw (b.faultHere (.labelNotAscii label))
  match b.labels.lookup label with
  | some first => throw (b.faultHere (.labelTwice label first))
  | none => return ()

def declareLabel (b : Builder) (label : String) : Outcome Unit :=
  match b.checkDeclaration label with
  | .error e => b.done (.error e)
  | .ok () =>
    ⟨.ok (), { b with labels := b.labels.put label b.lines.length },
      if b.debug then [.notice (.labelDeclared label b.lines.length)] else []⟩

def checkStore (b : Builder) (stem : String) (token : Token) : Except Error Unit := do
  if b.resolved then throw (b.faultHere .builderClosed)
  match b.current.tokens.lookup stem with
  | some held => throw (b.faultHere (.fieldTwice stem held token))
  | none => return ()

/-- The builder with a token stored in the line being assembled. The first token of a line also
sets the source line it comes from. -/
def withToken (b : Builder) (stem : String) (token : Token) : Builder :=
  { b with current :=
      { b.current with
        source := if b.current.tokens.isEmpty then b.sourceLine else b.current.source
        tokens := b.current.tokens.put stem token } }

/-- Stores a token; in debug mode it is logged after it was stored. -/
def store (b : Builder) (stem : String) (token : Token) : Outcome Unit :=
  let after := b.withToken stem token
  if b.debug then
    if token.numbers.all Numeral.fits then
      ⟨.ok (), after, [.notice (.tokenStored b.lines.length stem token)]⟩
    else ⟨.error .tooLongToPrint, after, []⟩
  else ⟨.ok (), after, []⟩

def checkReference (b : Builder) (label : String) : Except Error Unit := do
  let layout ← b.needLayout "reference_label"
  if label = "" then throw (b.faultHere .emptyTarget)
  if !Text.isAscii label then throw (b.faultHere (.targetNotAscii label))
  match layout.field? branchStem with
  | none => throw (b.faultHere (.noBranchField label))
  | some _ => b.checkStore branchStem (.label label)

def withBranch (b : Builder) (label : String) : Builder :=
  { b with current := { b.current with branch := some label } }

def referenceLabel (b : Builder) (label : String) : Outcome Unit :=
  match b.checkReference label with
  | .error e => b.done (.error e)
  | .ok () =>
    (b.store branchStem (.label label)).andThen fun _ after =>
      (after.withBranch label).done (.ok ())

/-- The stem under which a name is stored. -/
def checkName (b : Builder) (name : String) : Except Error String := do
  let layout ← b.needLayout "assign"
  match layout.owner? name with
  | none => throw (b.faultHere (.unknownName name))
  | some field => do
    b.checkStore field.stem (.symbol name)
    return field.stem

/-- Assigns a symbolic value to the field whose stem begins its name. -/
def assign (b : Builder) (name : String) : Outcome Unit :=
  match b.checkName name with
  | .error e => b.done (.error e)
  | .ok stem => b.store stem (.symbol name)

def checkValue (b : Builder) (stem : String) (datum : Datum) : Except Error Value := do
  let layout ← b.needLayout "assign_value"
  match layout.field? stem with
  | none => throw (b.faultHere (.unknownStem stem))
  | some _ =>
    match datum with
    | .value v => do
      b.checkStore stem (.literal v)
      return v
    | other => do
      printable other.numbers
      throw (b.faultHere (.notAnInteger stem other.shown))

def assignValue (b : Builder) (stem : String) (datum : Datum) : Outcome Unit :=
  match b.checkValue stem datum with
  | .error e => b.done (.error e)
  | .ok v => b.store stem (.literal v)

/-- The builder with the line being assembled committed; a line without tokens is left as it
is. -/
def committed (b : Builder) : Builder :=
  if b.current.tokens.isEmpty then b
  else { b with lines := b.lines ++ [b.current], current := Line.fresh (.int (b.lines.length + 1)) }

def checkOpen (b : Builder) : Except Error Unit := do
  let _ ← b.needLayout "end_line"
  if b.resolved then throw (b.faultHere .builderClosed)

def endLine (b : Builder) : Outcome Unit :=
  match b.checkOpen with
  | .error e => b.done (.error e)
  | .ok () => b.committed.done (.ok ())

/-- A name of the instruction stream: a label, a branch or a symbolic value. -/
def dispatch (b : Builder) (name : String) : Outcome Unit :=
  if Text.startsWith labelMarker name then b.declareLabel (Text.dropStart labelMarker name)
  else if Text.startsWith offsetMarker name then b.referenceLabel (Text.dropStart offsetMarker name)
  else b.assign name

/-- One call of the instruction stream; `newline` ends the previous line first. -/
def entry (b : Builder) (newline : Bool) (name : String) : Outcome Unit :=
  match b.needLayout "entry" with
  | .error e => b.done (.error e)
  | .ok _ =>
    if newline then b.endLine.andThen fun _ after => after.dispatch name else b.dispatch name

def resolveBranches (b : Builder) : Outcome Nat :=
  let (lines, count) := resolve b.labels b.lines
  ⟨count, { b with lines }, []⟩

def words [Machine] (b : Builder) : Except Error (List String) :=
  match b.layout with
  | some layout => packLines layout b.symbols b.lines
  | none => .error (.layoutAbsent .width)

def checkFinalize (b : Builder) : Except Error Layout := do
  let layout ← b.needLayout "finalize"
  if b.resolved then throw Cause.alreadyResolved.report
  return layout

/-- Ends the last line, resolves the branches, closes the builder and packs the lines. -/
def finalize [Machine] (b : Builder) : Outcome Image :=
  match b.checkFinalize with
  | .error e => b.done (.error e)
  | .ok layout =>
    b.committed.resolveBranches.andThen fun _ after =>
      { after with resolved := true }.done
        ((packLines layout after.symbols after.lines).map (Image.ofWords layout.size))

def exportedLabels (b : Builder) : Labels :=
  b.labels.filter fun entry => Text.startsWith exportMarker entry.1

def defineValue (b : Builder) (name : String) (value : Option Value) : Outcome Unit :=
  let step := b.symbols.define name value none
  match step.result with
  | .ok symbols => ⟨.ok (), { b with symbols }, step.events⟩
  | .error e => ⟨.error e, b, step.events⟩

end Builder

end Microcode
