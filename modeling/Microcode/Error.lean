import Microcode.Token

/-!
Why something was refused. A fault names its cause and, where they are known, the microcode line
and the source line it was met on; the wording is in `Cause.text` and `Fault.message` alone. A
fault whose text would need a decimal number of more than `Numeral.maxDigits` digits cannot be
reported: `Fault.report` turns it into `Error.tooLongToPrint`.
-/
namespace Microcode

def branchStem : String := "PROCEDURE_"

/-- The farthest line a branch can reach, counted from its own line. -/
def maxBranch : Int := 15

inductive ErrorKind where
  | general
  | notInitialized
  | unknownPrefix
  | duplicateField
  | duplicateLabel
  | unresolvedLabel
  | labelOutOfRange
  | unknownSymbol
  | parse
  deriving DecidableEq, Repr

def ErrorKind.name : ErrorKind → String
  | general => "AsmError"
  | notInitialized => "NotInitializedError"
  | unknownPrefix => "UnknownPrefixError"
  | duplicateField => "DuplicateFieldError"
  | duplicateLabel => "DuplicateLabelError"
  | unresolvedLabel => "UnresolvedLabelError"
  | labelOutOfRange => "LabelOutOfRangeError"
  | unknownSymbol => "UnknownSymbolError"
  | parse => "ParseError"

inductive Cause where
  | emptyStem
  | stemNotAscii (stem : String)
  | invalidRange (stem : String) (low high : Value)
  | widthTooSmall (width top : Value)
  | overlap (stem : String) (low high : Value) (other : String) (otherLow otherHigh : Value)
  | valueRedefined (name : String) (old new : Value)
  | layoutNeeded (call : String)
  | headerWithoutLayout
  | declaredTooLate (label : String)
  | emptyLabel
  | labelNotAscii (label : String)
  | labelTwice (label : String) (first : Value)
  | emptyTarget
  | targetNotAscii (label : String)
  | noBranchField (label : String)
  | unknownName (name : String)
  | unknownStem (stem : String)
  | notAnInteger (stem shown : String)
  | builderClosed
  | fieldTwice (stem : String) (held now : Token)
  | alreadyResolved
  | unresolvedLabel (label : String)
  | labelOutOfRange (label : String) (distance : Int) (target : Value)
  | unknownSymbol (name : String)
  | labelLeft (label stem : String)
  | noBinaryDigits
  | noHexDigits
  | emptyNumber
  | badFieldLine
  | fieldRedefined (stem : String)
  | badValueLine
  | badWidthLine
  | unknownDirective (word : String)
  | invalidNumber (line : String)
  | invalidImmediate (token stem : String)
  | layoutNotFound (path : String)
  | inputNotFound (path : String)
  deriving DecidableEq, Repr

namespace Cause

def kind : Cause → ErrorKind
  | layoutNeeded _ | headerWithoutLayout => .notInitialized
  | declaredTooLate _ | builderClosed | alreadyResolved => .general
  | labelTwice _ _ => .duplicateLabel
  | noBranchField _ | unknownName _ | unknownStem _ => .unknownPrefix
  | fieldTwice _ _ _ => .duplicateField
  | unresolvedLabel _ | labelLeft _ _ => .unresolvedLabel
  | labelOutOfRange _ _ _ => .labelOutOfRange
  | unknownSymbol _ => .unknownSymbol
  | _ => .parse

def subject? : Cause → Option String
  | stemNotAscii stem | invalidRange stem _ _ | unknownStem stem | notAnInteger stem _
  | fieldTwice stem _ _ | fieldRedefined stem | invalidImmediate _ stem => some stem
  | overlap _ _ _ other _ _ => some other
  | declaredTooLate label | labelNotAscii label | labelTwice label _ | targetNotAscii label
  | unresolvedLabel label | labelOutOfRange label _ _ | labelLeft label _ => some label
  | noBranchField _ => some branchStem
  | valueRedefined name _ _ | unknownName name | unknownSymbol name => some name
  | unknownDirective word => some word
  | _ => none

/-- The numbers that stand in decimal in the text of a cause. -/
def numbers : Cause → List Int
  | invalidRange _ low high => low.numbers ++ high.numbers
  | widthTooSmall width top => width.numbers ++ top.numbers
  | overlap _ low high _ otherLow otherHigh =>
    low.numbers ++ high.numbers ++ otherLow.numbers ++ otherHigh.numbers
  | labelTwice _ first => first.numbers
  | fieldTwice _ held now => held.numbers ++ now.numbers
  | labelOutOfRange _ distance target => distance :: target.numbers
  | _ => []

def text : Cause → String
  | emptyStem => "Empty field prefix."
  | stemNotAscii stem => s!"Field prefix '{stem}' is not ASCII."
  | invalidRange stem low high =>
    s!"Field '{stem}' has invalid range [{low.text},{high.text}]."
  | widthTooSmall width top =>
    s!"Line width {width.text} too small for bit {top.text}."
  | overlap stem low high other otherLow otherHigh =>
    s!"Field '{stem}' [{low.text},{high.text}] overlaps with " ++
      s!"'{other}' [{otherLow.text},{otherHigh.text}]"
  | valueRedefined name old new => s!"Value '{name}' redefined: old=0x{old.hex}, new=0x{new.hex}"
  | layoutNeeded call => s!"{call}: field layout not initialized."
  | headerWithoutLayout => "No field layout set."
  | declaredTooLate _ => "Label declared after labels were resolved."
  | emptyLabel => "Empty label name."
  | labelNotAscii label => s!"Label '{label}' is not ASCII."
  | labelTwice label first =>
    s!"Double label declaration: {label} (first at line {first.text})"
  | emptyTarget => "Empty branch target."
  | targetNotAscii label => s!"Branch target '{label}' is not ASCII."
  | noBranchField label => s!"Branch to '{label}' but no '{branchStem}' field in layout"
  | unknownName name => s!"Unknown prefix for name: {name}"
  | unknownStem stem => s!"Unknown prefix: {stem}"
  | notAnInteger stem shown => s!"Immediate for {stem} must be an integer, got {shown}"
  | builderClosed => "Line builder used after labels were resolved."
  | fieldTwice stem held now =>
    s!"Double prefix call: {stem} (already {held.text}, now {now.text})"
  | alreadyResolved => "Labels already resolved, finalize() runs once per assembler."
  | unresolvedLabel label => s!"Unresolved label: {label}"
  | labelOutOfRange label distance target =>
    s!"Label: {label} out of bounds: {Numeral.decimal distance} (target line {target.text})"
  | unknownSymbol name => s!"Unknown value: {name}"
  | labelLeft label stem => s!"Label '{label}' in field {stem} was never resolved"
  | noBinaryDigits => "'0b' but no digits"
  | noHexDigits => "'0x' but no digits"
  | emptyNumber => "empty string for parse_any_int"
  | badFieldLine => "Invalid field definition, expected '#field PREFIX start end'"
  | fieldRedefined stem => s!"Field '{stem}' redefined"
  | badValueLine => "Invalid value definition, expected '#value NAME value'"
  | badWidthLine => "Invalid width definition, expected '#width N'"
  | unknownDirective word => s!"Unknown directive '{word}'"
  | invalidNumber line => s!"Invalid number in '{line}'"
  | invalidImmediate token _ => s!"Invalid immediate '{token}'"
  | layoutNotFound path => s!"Layout file '{path}' not found."
  | inputNotFound path => s!"Input file '{path}' not found."

end Cause

/-- A cause with the microcode line and the source line it belongs to. -/
structure Fault where
  cause : Cause
  lineIndex : Option Value := none
  sourceLine : Option Value := none
  deriving DecidableEq, Repr

namespace Fault

def numbers (f : Fault) : List Int :=
  (f.lineIndex.toList ++ f.sourceLine.toList).flatMap Value.numbers ++ f.cause.numbers

def message (f : Fault) : String :=
  let located :=
    match f.lineIndex with
    | some index => s!"line {index.text}: {f.cause.text}"
    | none => f.cause.text
  match f.sourceLine with
  | some line => s!"{located} (source line {line.text})"
  | none => located

end Fault

/-- What a call without a field layout was about to look at. -/
inductive LayoutUse where
  | width
  | fields
  deriving DecidableEq, Repr

inductive Error where
  | fault (f : Fault)
  | invalidLiteral (base : Nat) (literal : String)
  | tooManyDigits (count : Nat)
  | tooLongToPrint
  | bitOutOfRange
  | bitTooFar
  | wordOutOfRange
  | absentInHex
  | layoutAbsent (use : LayoutUse)
  | countTooLarge
  | integerTooLarge
  | outOfMemory
  deriving DecidableEq, Repr

namespace Error

/-- The text of an error. A literal is shown in quotes, cut after two hundred characters. -/
def message : Error → String
  | fault f => f.message
  | invalidLiteral base literal =>
    s!"invalid literal for int() with base {base}: " ++
      String.ofList ((Text.quote literal).toList.take 200)
  | tooManyDigits count =>
    s!"Exceeds the limit ({Numeral.maxDigits} digits) for integer string conversion: value has " ++
      s!"{count} digits; use sys.set_int_max_str_digits() to increase the limit"
  | tooLongToPrint =>
    s!"Exceeds the limit ({Numeral.maxDigits} digits) for integer string conversion; " ++
      "use sys.set_int_max_str_digits() to increase the limit"
  | bitOutOfRange => "list assignment index out of range"
  | bitTooFar => "cannot fit 'int' into an index-sized integer"
  | wordOutOfRange => "list index out of range"
  | absentInHex => "unsupported format string passed to NoneType.__format__"
  | layoutAbsent .width => "'NoneType' object has no attribute 'width'"
  | layoutAbsent .fields => "'NoneType' object is not iterable"
  | countTooLarge => "cannot fit 'int' into an index-sized integer"
  | integerTooLarge => "too many digits in integer"
  | outOfMemory => ""

/-- Numerals that cannot be read as numbers; readers of text lines report these in their own
words. -/
def isBadNumeral : Error → Bool
  | invalidLiteral _ _ | tooManyDigits _ => true
  | _ => false

end Error

def Fault.report (f : Fault) : Error :=
  if f.numbers.all Numeral.fits then .fault f else .tooLongToPrint

def Cause.report (c : Cause) : Error := Fault.report ⟨c, none, none⟩

/-- Goes on only if every number about to be printed in decimal has a decimal text. -/
def printable (numbers : List Int) : Except Error Unit :=
  if numbers.all Numeral.fits then .ok () else .error .tooLongToPrint

end Microcode
