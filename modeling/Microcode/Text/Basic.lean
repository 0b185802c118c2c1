/-!
Small operations on text that the other modules share.
-/
namespace Microcode.Text

def isAscii (s : String) : Bool := s.toList.all (fun c => c.toNat < 128)

def startsWith (start name : String) : Bool := start.toList.isPrefixOf name.toList

/-- What is left of a name after as many characters as the given text has. -/
def dropStart (start name : String) : String := String.ofList (name.toList.drop start.toList.length)

def joinWith (separator : String) (texts : List String) : String := separator.intercalate texts

def padLeft (fill : Char) (length : Nat) (s : String) : String :=
  String.ofList (List.replicate (length - s.toList.length) fill) ++ s

end Microcode.Text
