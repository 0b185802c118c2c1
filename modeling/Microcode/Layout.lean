import Microcode.Assoc
import Microcode.Capacity
import Microcode.Error
import Microcode.Report

/-!
Field layouts. A field owns a run of bits of the control word and is known by its stem, the text
that the names of its values begin with. A layout is a list of such fields, in the order they were
declared, together with the width of the word.
-/
namespace Microcode

structure Field where
  index : Nat
  stem : String
  /-- The lowest bit, as it was declared. -/
  first : Value
  /-- The highest bit, as it was declared. -/
  last : Value
  first_le_last : 0 ≤ first.toInt ∧ first.toInt ≤ last.toInt
  deriving DecidableEq, Repr

namespace Field

def low (f : Field) : Nat := f.first.toInt.toNat

def high (f : Field) : Nat := f.last.toInt.toNat

theorem low_le_high (f : Field) : f.low ≤ f.high := by
  have h := f.first_le_last
  unfold low high
  omega

def width (f : Field) : Nat := f.high - f.low + 1

/-- The stem in small letters, without one underscore at its end. -/
def shortName (f : Field) : String :=
  let name := if f.stem.toList.getLast? = some '_' then f.stem.toList.dropLast else f.stem.toList
  String.ofList (name.map Char.toLower)

def numbers (f : Field) : List Int := f.first.numbers ++ f.last.numbers

def describe (f : Field) : Except Error String := do
  printable f.numbers
  return s!"Field({Text.quote f.stem}, [{f.first.text},{f.last.text}])"

end Field

structure Layout where
  fields : List Field
  /-- The width of the word, as it was declared. -/
  size : Value
  deriving DecidableEq, Repr

namespace Layout

def width (layout : Layout) : Nat := layout.size.toInt.toNat

/-- Numbers the fields from `index` on, and refuses the first one that has no usable stem or
range. -/
def numberFields (index : Nat) : Assoc (Value × Value) → Except Error (List Field)
  | [] => .ok []
  | (stem, low, high) :: rest =>
    if stem = "" then .error Cause.emptyStem.report
    else if !Text.isAscii stem then .error (Cause.stemNotAscii stem).report
    else if h : 0 ≤ low.toInt ∧ low.toInt ≤ high.toInt then
      let field : Field := ⟨index, stem, low, high, h⟩
      (numberFields (index + 1) rest).map (field :: ·)
    else .error (Cause.invalidRange stem low high).report

/-- The highest bit of any field, and `-1` without fields. -/
def topBit (fields : List Field) : Value :=
  fields.foldl (fun top f => if top.toInt < f.last.toInt then f.last else top) (.int (-1))

def insertByLow (f : Field) : List Field → List Field
  | [] => [f]
  | g :: rest => if f.low ≤ g.low then f :: g :: rest else g :: insertByLow f rest

/-- The fields by their lowest bit; fields with the same lowest bit keep their order. -/
def sortByLow (fields : List Field) : List Field := fields.foldr insertByLow []

def neighboursSharing : List Field → Option (Field × Field)
  | f :: g :: rest => if g.low ≤ f.high then some (f, g) else neighboursSharing (g :: rest)
  | _ => none

/-- Builds a layout from bit ranges and the width of the word; the width defaults to the smallest
one that holds every field. -/
def ofRanges (ranges : Assoc (Value × Value)) (width : Option Value) : Except Error Layout := do
  let fields ← numberFields 0 ranges
  let top := topBit fields
  let size := width.getD (.int (top.toInt + 1))
  if size.toInt ≤ top.toInt then throw (Cause.widthTooSmall size top).report
  match neighboursSharing (sortByLow fields) with
  | some (f, g) => throw (Cause.overlap f.stem f.first f.last g.stem g.first g.last).report
  | none => return ⟨fields, size⟩

def field? (layout : Layout) (stem : String) : Option Field :=
  layout.fields.find? (fun f => f.stem == stem)

/-- The longer-stemmed of the best field so far and a field whose stem begins the name. -/
def better (name : String) (best : Option Field) (f : Field) : Option Field :=
  if Text.startsWith f.stem name then
    match best with
    | none => some f
    | some b => if b.stem.toList.length < f.stem.toList.length then some f else some b
  else best

/-- The field whose stem begins the name; of several, the one with the longest stem. -/
def owner? (layout : Layout) (name : String) : Option Field :=
  layout.fields.foldl (better name) none

/-- What has to be made in order to judge the branch field: the number of offsets it can tell
apart. -/
def judgeable [Machine] (layout : Layout) : Except Error Unit :=
  match layout.field? branchStem with
  | some f => Capacity.powerOfTwo f.width
  | none => .ok ()

/-- A branch field of fewer than four bits cannot hold every branch offset. -/
def warnings (layout : Layout) : List Event :=
  match layout.field? branchStem with
  | some f =>
    if f.width < 4 then
      [.notice (.narrowBranch f.width)]
    else []
  | none => []

def build [Machine] (ranges : Assoc (Value × Value)) (width : Option Value) :
    Logged Error Layout := do
  let layout ← Logged.ofExcept (ofRanges ranges width)
  Logged.ofExcept layout.judgeable
  Logged.tell layout.warnings
  return layout

end Layout

end Microcode
