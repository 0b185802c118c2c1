import Microcode.Builder

/-!
The Verilog header: one definition for the bits of every field, and one for the address of every
exported label.
-/
namespace Microcode

def headerComment : String :=
  "/*! \\file microcode_locations.v\n * \\brief Definitions of microcode locations.\n */\n"

def Field.definition (f : Field) : String :=
  s!"`define MICRO_DATA_{f.shortName} " ++
    s!"micro_data[{f.last.text}:{f.first.text}]\n"

def labelDefinition (width : Datum) (label : String) (address : Value) : String :=
  s!"`define {label} {width.plainText}'d{address.text}\n"

/-- The header of a builder; `width` is the width of the address constants, which is copied as it
was given. -/
def Builder.header (b : Builder) (width : Datum) : Except Error String :=
  match b.layout with
  | none => .error Cause.headerWithoutLayout.report
  | some layout => do
    let exported := b.exportedLabels
    printable (layout.fields.flatMap Field.numbers)
    printable (exported.flatMap fun entry => width.numbers ++ entry.2.numbers)
    return headerComment ++ String.join (layout.fields.map Field.definition) ++ "\n" ++
      String.join (exported.map fun entry => labelDefinition width entry.1 entry.2)

end Microcode
