import Microcode.Builder

/-!
Tables of what a builder holds: its lines, its labels and its fields.
-/
namespace Microcode

def wordCell (image : Option Image) (line : Line) : Except Error String :=
  match image with
  | none => .ok "-"
  | some image =>
    match (Bits.place? image.words.length line.index.toInt).bind (image.words[·]?) with
    | some word => .ok word
    | none => .error .wordOutOfRange

def sourceCell (line : Line) : String :=
  match line.source with
  | none => "-"
  | some n => if n.toInt = 0 then "-" else n.text

def lineRow (image : Option Image) (line : Line) : Except Error (List String) := do
  printable line.numbers
  let word ← wordCell image line
  printable (line.index.numbers ++ line.source.toList.flatMap Value.numbers)
  return [line.index.text, line.fieldsText, word, sourceCell line]

def Builder.linesTable (b : Builder) (image : Option Image) (title : String) :
    Except Error Table := do
  let rows ← b.lines.mapM (lineRow image)
  return ⟨title, ["Addr", "Fields", "Bits", "Source"], rows⟩

def Builder.labelsTable (b : Builder) : Table :=
  ⟨"Labels", ["Label", "Line"], b.labels.map fun entry => [entry.1, entry.2.text]⟩

def Field.row (f : Field) : List String :=
  [f.stem, s!"[{f.last.text}:{f.first.text}]", Numeral.decimal f.width]

def Layout.table (layout : Layout) : Except Error Table := do
  printable (layout.fields.flatMap fun f => f.numbers ++ [(f.width : Int)])
  return ⟨"Fields", ["Prefix", "Range", "Width"], layout.fields.map Field.row⟩

def Builder.fieldsTable (b : Builder) : Except Error Table :=
  match b.layout with
  | some layout => layout.table
  | none => .error (.layoutAbsent .fields)

end Microcode
