import Microcode.Options
import Microcode.Report

/-!
What a terminal shows of a run: log entries with their level, panels without their colours, and a
reminder of the options.
-/
namespace Microcode.Console

def beginsMark (rest : List Char) : Bool :=
  "bold ".toList.isPrefixOf rest || "/bold ".toList.isPrefixOf rest

/-- A text without its style marks; `inMark` tells whether it begins inside one. -/
def plainChars (inMark : Bool) : List Char → List Char
  | [] => []
  | c :: rest =>
    if inMark then plainChars (c != ']') rest
    else if c = '[' && beginsMark rest then plainChars true rest
    else c :: plainChars false rest

def plain (s : String) : String := String.ofList (plainChars false s.toList)

def tableText (t : Table) : String :=
  Text.joinWith "\n"
    (plain t.title :: Text.joinWith " | " t.columns :: t.rows.map (Text.joinWith " | "))

def itemText : PanelItem → String
  | .text s => plain s
  | .table t => tableText t

def panelText (p : Panel) : String :=
  Text.joinWith "\n\n" ([s!"== {plain p.title} =="] ++ p.items.map itemText ++
    (p.subtitle.map fun s => s!"-- {s} --").toList)

def eventText : Event → String
  | .notice n => s!"{n.level.name}: {plain n.message}"
  | .panel p => panelText p

def optionText (o : OptionName) : String :=
  if o.takesValue then s!"[{o.text} VALUE]" else s!"[{o.text}]"

def usage : String := s!"usage: {programName} " ++ Text.joinWith " " (OptionName.all.map optionText)

end Microcode.Console
