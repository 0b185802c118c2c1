import Microcode.Value

/-!
Tokens: what a line says about one field. A literal is a value at hand, a symbol is a name whose
value the symbol table gives, and a label is a branch target that is still to be resolved.
-/
namespace Microcode

inductive Token where
  | literal (v : Value)
  | symbol (name : String)
  | label (name : String)
  deriving DecidableEq, Repr

namespace Token

def text : Token → String
  | literal v => v.text
  | symbol name => name
  | label name => "@" ++ name

/-- The text of a token that also tells its kind. -/
def describe : Token → String
  | literal v => "Token(0, " ++ v.text ++ ")"
  | symbol name => "Token(1, " ++ Text.quote name ++ ")"
  | label name => "Token(2, " ++ Text.quote name ++ ")"

/-- Tokens of one kind are the same when their values or names are. -/
def same : Token → Token → Bool
  | literal a, literal b => a.same b
  | symbol a, symbol b => a == b
  | label a, label b => a == b
  | _, _ => false

def numbers : Token → List Int
  | literal v => v.numbers
  | _ => []

end Token

end Microcode
