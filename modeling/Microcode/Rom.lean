import Microcode.Capacity
import Std.Data.HashSet

/-!
ROM images and their text: a head with the depth and the width, then one record per word with its
address in decimal, right-aligned with its colon and a blank in eight columns.
-/
namespace Microcode

def doubleUntil (count depth : Nat) (positive : 0 < depth) : Nat :=
  if depth < count then doubleUntil count (depth * 2) (by omega) else depth
termination_by count - depth

/-- The least power of two that is not below the count. -/
def romDepth (count : Int) : Nat := doubleUntil count.toNat 1 (by decide)

structure Image where
  depth : Value
  width : Value
  words : List String
  deriving DecidableEq, Repr

namespace Image

def ofWords (width : Value) (words : List String) : Image := ⟨romDepth words.length, width, words⟩

def uniqueWords (image : Image) : Nat := (Std.HashSet.ofList image.words).size

def zeroWord (image : Image) : String := String.ofList (List.replicate image.width.toInt.toNat '0')

def padded (image : Image) : Image :=
  let missing := (image.depth.toInt - image.words.length).toNat
  if missing = 0 then image
  else { image with words := image.words ++ List.replicate missing image.zeroWord }

def addressText (address : Value) : String := Text.padLeft ' ' 8 (address.text ++ ": ")

def records (address : Nat) : List String → List String
  | [] => []
  | word :: rest => (addressText address ++ word ++ ";\n") :: records (address + 1) rest

def head (image : Image) : String :=
  s!"DEPTH = {image.depth.text};\nWIDTH = {image.width.text};\n" ++
    "ADDRESS_RADIX = DEC;\nDATA_RADIX = BIN;\nCONTENT\nBEGIN\n"

/-- The text of an image; `fill` writes zero words up to the depth. -/
def text [Machine] (image : Image) (fill : Bool) : Except Error String := do
  printable (image.depth.numbers ++ image.width.numbers)
  if fill then Capacity.word image.width.toInt
  let shown := if fill then image.padded else image
  return image.head ++ String.join (records 0 shown.words) ++ "END;\n"

end Image

def formatAddress (address : Value) : Except Error String := do
  printable address.numbers
  return Image.addressText address

end Microcode
