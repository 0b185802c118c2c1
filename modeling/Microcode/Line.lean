import Microcode.Assoc
import Microcode.Error

/-!
Microcode lines: the tokens of one control word by the stems of their fields, in the order they
were assigned, with the address of the line and where it came from.
-/
namespace Microcode

structure Line where
  /-- The address of the line. -/
  index : Value
  /-- The source line it was read from. -/
  source : Option Value
  tokens : Assoc Token
  /-- The label it branches to. -/
  branch : Option String
  deriving DecidableEq, Repr

/-- Where each label was declared, in the order of declaration. -/
abbrev Labels := Assoc Value

namespace Line

def fresh (index : Value) : Line := ⟨index, none, [], none⟩

def numbers (line : Line) : List Int := line.tokens.flatMap (fun entry => entry.2.numbers)

def fieldsText (line : Line) : String :=
  Text.joinWith " " (line.tokens.map fun entry => s!"{entry.1}={entry.2.text}")

def describe (line : Line) : Except Error String := do
  printable (line.index.numbers ++ line.numbers)
  return s!"Line({line.index.text}: {line.fieldsText})"

end Line

end Microcode
