import Microcode.Layout
import Microcode.Numeral.Reader
import Microcode.Symbols

/-!
Layout files. A line declares the width of the word (`#width 40`), a field (`#field OP_ 0 2`) or a
symbolic value (`#value OP_ADD 5`); blanks separate the words of a line, and two slashes begin a
comment. The last width counts; fields and values are declared once.
-/
namespace Microcode

structure LayoutDraft where
  ranges : Assoc (Value × Value)
  width : Option Value
  symbols : SymbolTable
  deriving DecidableEq, Repr

namespace LayoutDraft

def empty : LayoutDraft := ⟨[], none, []⟩

def number (lineNumber : Nat) (line text : String) : Except Error Int :=
  (Numeral.read text).mapError fun e =>
    if e.isBadNumeral then Fault.report ⟨.invalidNumber line, none, some lineNumber⟩ else e

def refuse (lineNumber : Nat) (cause : Cause) : Logged Error LayoutDraft :=
  Logged.fail (Fault.report ⟨cause, none, some lineNumber⟩)

def declare (draft : LayoutDraft) (lineNumber : Nat) (line : String) :
    List String → Logged Error LayoutDraft
  | "#field" :: arguments =>
    match arguments with
    | [stem, low, high] =>
      if draft.ranges.has stem then refuse lineNumber (.fieldRedefined stem)
      else do
        let low ← Logged.ofExcept (number lineNumber line low)
        let high ← Logged.ofExcept (number lineNumber line high)
        return { draft with ranges := draft.ranges.put stem (.int low, .int high) }
    | _ => refuse lineNumber .badFieldLine
  | "#value" :: arguments =>
    match arguments with
    | [name, value] => do
      let value ← Logged.ofExcept (number lineNumber line value)
      let symbols ← draft.symbols.define name (some (.int value)) (some lineNumber)
      return { draft with symbols }
    | _ => refuse lineNumber .badValueLine
  | "#width" :: arguments =>
    match arguments with
    | [width] => do
      let width ← Logged.ofExcept (number lineNumber line width)
      return { draft with width := some (.int width) }
    | _ => refuse lineNumber .badWidthLine
  | word :: _ => refuse lineNumber (.unknownDirective word)
  | [] => return draft

/-- Reads lines of text, the first of which has the given number. -/
def readFrom (draft : LayoutDraft) (lineNumber : Nat) : List String → Logged Error LayoutDraft
  | [] => return draft
  | raw :: rest => do
    let line := Text.stripComment raw
    let next ← draft.declare lineNumber line (Text.wordsOf line)
    next.readFrom (lineNumber + 1) rest

end LayoutDraft

def readLayout [Machine] (lines : List String) (verbose : Bool) : Logged Error
    (Layout × SymbolTable) := do
  let draft ← LayoutDraft.empty.readFrom 1 lines
  let layout ← Layout.build draft.ranges draft.width
  if verbose then
    Logged.ofExcept (printable layout.size.numbers)
    Logged.tell [.notice (.layoutLoaded layout.fields.length draft.symbols.length layout.size)]
  return (layout, draft.symbols)

end Microcode
