import Microcode.Numeral.Reader

/-!
The options of the command line. An option has a long name, which may be cut as long as it stays
unique, and mostly a short one. The value of an option is the next argument, or follows an equals
sign, or follows the short name directly; two dashes as a value stand for no value at all. Short
names of flags can be joined, also by an equals sign after the first. All arguments are recognized
first, then they are carried out from left to right; the last occurrence of an option counts.
-/
namespace Microcode

def programName : String := "microasm"

inductive OptionName where
  | help
  | input
  | layout
  | output
  | defines
  | readable
  | fill
  | pcWidth
  | verbose
  | log
  | debug
  deriving DecidableEq, Repr

namespace OptionName

def all : List OptionName :=
  [help, input, layout, output, defines, readable, fill, pcWidth, verbose, log, debug]

def short? : OptionName → Option Char
  | help => some 'h'
  | input => some 'i'
  | layout => some 'L'
  | output => some 'o'
  | defines => some 'D'
  | readable => some 'r'
  | fill => none
  | pcWidth => none
  | verbose => some 'v'
  | log => some 'l'
  | debug => some 'd'

def long : OptionName → String
  | help => "--help"
  | input => "--input"
  | layout => "--layout"
  | output => "--output"
  | defines => "--defines"
  | readable => "--readable"
  | fill => "--fill"
  | pcWidth => "--pc-width"
  | verbose => "--verbose"
  | log => "--log"
  | debug => "--debug"

def takesValue : OptionName → Bool
  | input | layout | output | defines | pcWidth => true
  | _ => false

def text (o : OptionName) : String :=
  match o.short? with
  | some c => String.ofList ['-', c, '/'] ++ o.long
  | none => o.long

def ofShort? (c : Char) : Option OptionName := all.find? fun o => o.short? == some c

def ofLong? (name : String) : Option OptionName := all.find? fun o => o.long == name

def beginning (name : String) : List OptionName := all.filter fun o => Text.startsWith name o.long

end OptionName

/-- What a run is asked to do. A path or a width is `none` if its option was given without a
value. -/
structure Settings where
  input : Option String
  layout : Option String
  output : Option String
  defines : Option String
  readable : Bool
  fill : Bool
  pcWidth : Option Int
  verbose : Bool
  log : Bool
  debug : Bool
  deriving DecidableEq, Repr

/-- The width of the address constants as a datum; a width without a value is an empty list. -/
def Settings.pcWidthDatum (settings : Settings) : Datum :=
  match settings.pcWidth with
  | some n => .value (.int n)
  | none => .list []

inductive OptionFault where
  | help
  | ambiguous (argument : String) (candidates : List OptionName)
  | expectedValue (option : OptionName)
  | ignoredValue (option : OptionName) (value : String)
  | invalidInt (option : OptionName) (value : String)
  | required (options : List OptionName)
  | unrecognized (arguments : List String)
  deriving DecidableEq, Repr

namespace OptionFault

def exitCode : OptionFault → Nat
  | help => 0
  | _ => 2

def text : OptionFault → String
  | help => ""
  | ambiguous argument candidates =>
    s!"ambiguous option: {argument} could match " ++
      Text.joinWith ", " (candidates.map OptionName.long)
  | expectedValue option => s!"argument {option.text}: expected one argument"
  | ignoredValue option value =>
    s!"argument {option.text}: ignored explicit argument {Text.quote value}"
  | invalidInt option value => s!"argument {option.text}: invalid int value: {Text.quote value}"
  | required options =>
    "the following arguments are required: " ++ Text.joinWith ", " (options.map OptionName.text)
  | unrecognized arguments => "unrecognized arguments: " ++ Text.joinWith " " arguments

/-- The complaint that follows the usage, nothing after a request for help. -/
def complaint : OptionFault → String
  | help => ""
  | fault => s!"{programName}: error: {fault.text}"

end OptionFault

/-- What an argument is; an option may have a value in the same argument. -/
inductive Argument where
  | plain
  | dashes
  | unknown
  | option (name : OptionName) (byShort : Bool) (attached : Option String)
  deriving DecidableEq, Repr

namespace Argument

def cutAtFirst (s : List Char) : List Char × Option (List Char) :=
  (s.takeWhile (· != '='), if s.contains '=' then some ((s.dropWhile (· != '=')).drop 1) else none)

def isDigit (c : Char) : Bool := (Text.decimalDigit? c).isSome

/-- Digits after a minus sign, with a point before the last of them at most. A line feed at the
end is overlooked. -/
def isNegativeNumber (s : List Char) : Bool :=
  match s with
  | '-' :: body =>
    let body := if body.getLast? = some '\n' then body.dropLast else body
    let whole := body.takeWhile isDigit
    match body.dropWhile isDigit with
    | [] => !whole.isEmpty
    | '.' :: places => !places.isEmpty && places.all isDigit
    | _ => false
  | _ => false

def recognizeLong (argument : String) : Except OptionFault Argument :=
  let (name, value) := cutAtFirst argument.toList
  let attached := value.map String.ofList
  match OptionName.ofLong? (String.ofList name) with
  | some o => .ok (.option o false attached)
  | none =>
    match OptionName.beginning (String.ofList name) with
    | [] => .ok (if argument.toList.contains ' ' then .plain else .unknown)
    | [o] => .ok (.option o false attached)
    | several => .error (.ambiguous argument several)

def recognizeShort (c : Char) (rest : List Char) : Argument :=
  match OptionName.ofShort? c, rest with
  | some o, [] => .option o true none
  | some o, '=' :: value => .option o true (some (String.ofList value))
  | some o, value => .option o true (some (String.ofList value))
  | none, _ =>
    if isNegativeNumber ('-' :: c :: rest) || (c :: rest).contains ' ' then .plain else .unknown

/-- Recognizes an argument that stands before any lone pair of dashes. -/
def recognize (argument : String) : Except OptionFault Argument :=
  match argument.toList with
  | ['-', '-'] => .ok .dashes
  | '-' :: '-' :: _ => recognizeLong argument
  | '-' :: c :: rest => .ok (recognizeShort c rest)
  | _ => .ok .plain

/-- Recognizes all arguments; everything after a lone pair of dashes is plain. -/
def recognizeAll : List String → Except OptionFault (List (String × Argument))
  | [] => .ok []
  | argument :: rest => do
    match ← recognize argument with
    | .dashes => return (argument, .dashes) :: rest.map fun other => (other, .plain)
    | kind => return (argument, kind) :: (← recognizeAll rest)

end Argument

/-- The options seen so far; the outer `none` of a path means that its option was not given. -/
structure OptionDraft where
  input : Option (Option String)
  layout : Option (Option String)
  output : Option (Option String)
  defines : Option String
  readable : Bool
  fill : Bool
  pcWidth : Option Int
  verbose : Bool
  log : Bool
  debug : Bool
  /-- Arguments that mean nothing. -/
  extras : List String
  deriving DecidableEq, Repr

namespace OptionDraft

def start : OptionDraft :=
  { input := none, layout := none, output := none, defines := some "microcode_locations.v"
    readable := false, fill := false, pcWidth := some 9, verbose := false, log := false
    debug := false, extras := [] }

def addExtra (draft : OptionDraft) (argument : String) : OptionDraft :=
  { draft with extras := draft.extras ++ [argument] }

def meaning (text : String) : Option String := if text = "--" then none else some text

def readWidth (text : String) : Except OptionFault (Option Int) :=
  match meaning text with
  | none => .ok none
  | some digits =>
    match Numeral.readGrouped? digits with
    | some n => .ok (some n)
    | none => .error (.invalidInt .pcWidth digits)

/-- Carries out an option with the text of its value; the text of a flag is not looked at. -/
def carryOut (draft : OptionDraft) (option : OptionName) (text : String) :
    Except OptionFault OptionDraft :=
  match option with
  | .help => .error .help
  | .input => .ok { draft with input := some (meaning text) }
  | .layout => .ok { draft with layout := some (meaning text) }
  | .output => .ok { draft with output := some (meaning text) }
  | .defines => .ok { draft with defines := meaning text }
  | .readable => .ok { draft with readable := true }
  | .fill => .ok { draft with fill := true }
  | .pcWidth => (readWidth text).map fun width => { draft with pcWidth := width }
  | .verbose => .ok { draft with verbose := true }
  | .log => .ok { draft with log := true }
  | .debug => .ok { draft with debug := true }

def carryOutAll (draft : OptionDraft) : List (OptionName × String) → Except OptionFault OptionDraft
  | [] => .ok draft
  | (option, text) :: rest => do
    let next ← draft.carryOut option text
    next.carryOutAll rest

structure Request where
  /-- Options with the texts of their values, in order. -/
  ready : List (OptionName × String)
  /-- An option whose value is the next argument. -/
  waiting : Option OptionName

def Request.after (option : OptionName) (request : Request) : Request :=
  { request with ready := (option, "") :: request.ready }

def Request.alone (option : OptionName) : Request :=
  if option.takesValue then ⟨[], some option⟩ else ⟨[(option, "")], none⟩

/-- An option given by its short name with characters after it: those after a flag are short names
of their own, up to one that takes the rest as its value. -/
def joined (option : OptionName) : List Char → Except OptionFault Request
  | [] => .ok (Request.alone option)
  | c :: rest =>
    if option.takesValue then .ok ⟨[(option, String.ofList (c :: rest))], none⟩
    else
      match OptionName.ofShort? c with
      | some next => (joined next rest).map (Request.after option)
      | none => .error (.ignoredValue option (String.ofList (c :: rest)))

def request (option : OptionName) (byShort : Bool) : Option String → Except OptionFault Request
  | none => .ok (Request.alone option)
  | some text =>
    if option.takesValue then .ok ⟨[(option, text)], none⟩
    else if byShort && text != "" then joined option text.toList
    else .error (.ignoredValue option text)

/-- Carries out recognized arguments from left to right. -/
def follow (draft : OptionDraft) : List (String × Argument) → Except OptionFault OptionDraft
  | [] => .ok draft
  | (_, .option option byShort attached) :: rest => do
    let asked ← request option byShort attached
    match asked.waiting, rest with
    | some last, (value, .plain) :: rest => do
      let next ← draft.carryOutAll (asked.ready ++ [(last, value)])
      next.follow rest
    | some last, _ => throw (.expectedValue last)
    | none, rest => do
      let next ← draft.carryOutAll asked.ready
      next.follow rest
  | (argument, _) :: rest => (draft.addExtra argument).follow rest

def missing (draft : OptionDraft) : List OptionName :=
  (if draft.input.isNone then [.input] else []) ++
    (if draft.layout.isNone then [.layout] else []) ++
    (if draft.output.isNone then [.output] else [])

def settings (draft : OptionDraft) : Except OptionFault Settings :=
  match draft.input, draft.layout, draft.output with
  | some input, some layout, some output =>
    if draft.extras.isEmpty then
      .ok
        { input, layout, output, defines := draft.defines, readable := draft.readable
          fill := draft.fill, pcWidth := draft.pcWidth, verbose := draft.verbose, log := draft.log
          debug := draft.debug }
    else .error (.unrecognized draft.extras)
  | _, _, _ => .error (.required draft.missing)

end OptionDraft

def Settings.ofArguments (arguments : List String) : Except OptionFault Settings := do
  let recognized ← Argument.recognizeAll arguments
  let draft ← OptionDraft.start.follow recognized
  draft.settings

end Microcode
