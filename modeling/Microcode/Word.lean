import Microcode.Capacity
import Microcode.Layout
import Microcode.Line
import Microcode.Symbols

/-!
Packing lines into control words. A buffer holds one number per bit, the lowest bit first; a word
is the text of its bits, the highest first. A negative position counts from the end of a buffer.
-/
namespace Microcode

abbrev Bits := Array Value

namespace Bits

def place? (length : Nat) (position : Int) : Option Nat :=
  if 0 ≤ position then
    if position < length then some position.toNat else none
  else if 0 ≤ position + length then some (position + length).toNat
  else none

/-- The error of a position outside a buffer; one that no machine word can hold has a text of its
own. -/
def misplaced (position : Int) : Error :=
  if -Capacity.countLimit ≤ position ∧ position < Capacity.countLimit then .bitOutOfRange
  else .bitTooFar

/-- Writes the lowest bits of a number to as many neighbouring positions, lowest first, up to the
first position outside the buffer. -/
def fillFrom : Nat → Int → Int → Bits → Bits × Except Error Unit
  | 0, _, _, bits => (bits, .ok ())
  | count + 1, position, value, bits =>
    match place? bits.size position with
    | none => (bits, .error (misplaced position))
    | some i => fillFrom count (position + 1) (value / 2) (bits.setIfInBounds i (.int (value % 2)))

/-- Writes a number to the positions from `first` to `last`; higher bits are dropped. -/
def fill (bits : Bits) (first last value : Int) : Bits × Except Error Unit :=
  fillFrom (last - first + 1).toNat first value bits

def zeros (length : Nat) : Bits := Array.replicate length (.int 0)

/-- The text of a buffer, highest bit first. -/
def text (bits : Bits) : String := String.join (bits.toList.reverse.map Value.text)

end Bits

def Token.number (symbols : SymbolTable) (line : Line) (stem : String) : Token → Except Error Int
  | .literal v => .ok v.toInt
  | .symbol name =>
    match symbols.value? name with
    | some v => .ok v.toInt
    | none => .error (Fault.report ⟨.unknownSymbol name, line.index, line.source⟩)
  | .label name => .error (Fault.report ⟨.labelLeft name stem, line.index, line.source⟩)

/-- Packs the tokens of a line field by field, up to the first one that cannot be packed. -/
def packFields (symbols : SymbolTable) (line : Line) : List Field → Bits → Bits × Except Error Unit
  | [], bits => (bits, .ok ())
  | field :: rest, bits =>
    match line.tokens.lookup field.stem with
    | none => packFields symbols line rest bits
    | some token =>
      match token.number symbols line field.stem with
      | .error e => (bits, .error e)
      | .ok value =>
        match bits.fill field.low field.high value with
        | (after, .ok ()) => packFields symbols line rest after
        | (after, .error e) => (after, .error e)

/-- Packs a line into a buffer, which is cleared first. -/
def packLine (layout : Layout) (symbols : SymbolTable) (line : Line) (bits : Bits) :
    Bits × Except Error String :=
  let (after, outcome) := packFields symbols line layout.fields (Bits.zeros bits.size)
  (after, outcome.map fun _ => after.text)

/-- Packs lines one after the other into the same buffer, whatever becomes of each. -/
def packEach (layout : Layout) (symbols : SymbolTable) :
    List Line → Bits → Bits × List (Except Error String)
  | [], bits => (bits, [])
  | line :: rest, bits =>
    let (after, word) := packLine layout symbols line bits
    let (last, words) := packEach layout symbols rest after
    (last, word :: words)

/-- Packs lines into one shared buffer, up to the first one that cannot be packed. -/
def packFrom (layout : Layout) (symbols : SymbolTable) :
    List Line → Bits → Except Error (List String)
  | [], _ => .ok []
  | line :: rest, bits =>
    match packLine layout symbols line bits with
    | (_, .error e) => .error e
    | (after, .ok word) => (packFrom layout symbols rest after).map (word :: ·)

/-- The words of lines in a layout, if a buffer as wide as the layout can be made. -/
def packLines [Machine] (layout : Layout) (symbols : SymbolTable) (lines : List Line) :
    Except Error (List String) := do
  Capacity.buffer layout.width
  packFrom layout symbols lines (Bits.zeros layout.width)

end Microcode
