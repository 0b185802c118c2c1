import Microcode.Assoc
import Microcode.Error
import Microcode.Report

/-!
Symbol tables. A name is defined once: defining it again with the same value changes nothing and
is reported, with another value it is an error. An entry without a value counts as undefined, and
a later definition takes its place.
-/
namespace Microcode

abbrev SymbolTable := Assoc (Option Value)

namespace SymbolTable

def value? (table : SymbolTable) (name : String) : Option Value := (table.lookup name).join

/-- Defines a name; `line` is the source line the definition stands on. -/
def define (table : SymbolTable) (name : String) (value : Option Value) (line : Option Value) :
    Logged Error SymbolTable :=
  match table.value? name, value with
  | none, _ => return table.put name value
  | some _, none => Logged.fail .absentInHex
  | some old, some new =>
    if old.same new then do
      Logged.tell [.notice (.sameValue name new)]
      return table
    else Logged.fail (Fault.report ⟨.valueRedefined name old new, none, line⟩)

def ofPairs (pairs : List (String × Option Value)) : Logged Error SymbolTable :=
  pairs.foldlM (fun table pair => define table pair.1 pair.2 none) []

end SymbolTable

end Microcode
