import Microcode.Error
import Microcode.Markup

/-!
What is told on the way. A notice says what happened; its level and its wording are in
`Notice.level` and `Notice.message` alone.
-/
namespace Microcode

inductive Level where
  | debug
  | info
  | warning
  | error
  | critical
  deriving DecidableEq, Repr

def Level.name : Level → String
  | debug => "DEBUG"
  | info => "INFO"
  | warning => "WARNING"
  | error => "ERROR"
  | critical => "CRITICAL"

inductive Notice where
  /-- The branch field is too narrow for the longest branch. -/
  | narrowBranch (width : Nat)
  /-- A name was defined again, with the value it has. -/
  | sameValue (name : String) (value : Value)
  | labelDeclared (label : String) (line : Nat)
  | tokenStored (line : Nat) (stem : String) (token : Token)
  | layoutLoaded (fields values : Nat) (size : Value)
  | streamRead (lines labels : Nat)
  | loadingLayout (path : String)
  | parsingInput (path : String)
  | resolving
  | assembled
  | emitting
  | imageWritten (path : String) (depth width : Value)
  | headerWritten (path : String)
  | listingWritten (path : String)
  /-- The program being assembled is at fault. -/
  | refused (fault : Fault)
  /-- Something else went wrong. -/
  | failed (reason : String)
  deriving DecidableEq, Repr

namespace Notice

def level : Notice → Level
  | narrowBranch _ | sameValue _ _ => .warning
  | labelDeclared _ _ | tokenStored _ _ _ => .debug
  | refused _ => .error
  | failed _ => .critical
  | _ => .info

def message : Notice → String
  | narrowBranch width =>
    s!"Branch field '{branchStem}' is only {Numeral.decimal width} bits wide; " ++
      s!"offsets up to {Numeral.decimal maxBranch} will be truncated."
  | sameValue name value =>
    s!"Value '{name}' redefined with the same value 0x{value.hex}. Ignoring."
  | labelDeclared label line => s!"Label '{label}' => line {Numeral.decimal line}"
  | tokenStored line stem token => s!"line {Numeral.decimal line}: {stem} <= {token.text}"
  | layoutLoaded fields values size =>
    s!"Loaded {Numeral.decimal fields} fields, {Numeral.decimal values} values, width {size.text}"
  | streamRead lines labels =>
    s!"Read {Numeral.decimal lines} microcode lines, {Numeral.decimal labels} labels"
  | loadingLayout path => s!"Loading layout => {Markup.magenta path}"
  | parsingInput path => s!"Parsing input => {Markup.magenta path}"
  | resolving => "Resolving labels and packing lines..."
  | assembled => "Assembly complete."
  | emitting => "Emitting output files..."
  | imageWritten path depth width =>
    s!"Wrote MIF file => {path}, depth={depth.text}, width={width.text}"
  | headerWritten path => s!"Wrote defines file => {path}"
  | listingWritten path => s!"Wrote readable text file => {path}"
  | refused fault => fault.message
  | failed reason => reason

end Notice

end Microcode
