import Microcode.Builder

/-!
The listing: one row per line with its address, its word, its fields in the order of the layout,
and the labels declared there.
-/
namespace Microcode

/-- A field of a line in the listing; a branch also shows its label. -/
def Line.listedField (line : Line) (stem : String) (token : Token) : String :=
  match stem == branchStem, line.branch with
  | true, some label => s!"{stem}={token.text}(@{label})"
  | _, _ => s!"{stem}={token.text}"

def Line.tokensIn (line : Line) (fields : List Field) : List (String × Token) :=
  fields.filterMap fun f => (line.tokens.lookup f.stem).map fun token => (f.stem, token)

def labelsAt (labels : Labels) (address : Value) : List String :=
  (labels.filter fun entry => entry.2.same address).map (·.1)

def Line.row (line : Line) (fields : List Field) (labels : Labels) (word : String) :
    Except Error String := do
  let tokens := line.tokensIn fields
  printable (tokens.flatMap fun entry => entry.2.numbers)
  let shown := Text.joinWith " " (tokens.map fun entry => line.listedField entry.1 entry.2)
  let here := labelsAt labels line.index
  let suffix := if here.isEmpty then "" else " <- label: " ++ Text.joinWith ", " here
  return s!"{Numeral.paddedHex 5 line.index.toInt} | {word} | {shown}{suffix}\n"

/-- The rows of lines and their words, as long as there are both. -/
def listingRows (fields : List Field) (labels : Labels) (lines : List Line) (words : List String) :
    Except Error (List String) :=
  (lines.zip words).mapM fun pair => pair.1.row fields labels pair.2

def Builder.listing (b : Builder) (image : Image) : Except Error String :=
  let fields := (b.layout.map Layout.fields).getD []
  (listingRows fields b.labels b.lines image.words).map String.join

end Microcode
