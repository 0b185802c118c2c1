import Microcode.Header
import Microcode.Options
import Microcode.Proofs.Packing
import Microcode.Rom

/-!
Seven-bit output, piece by piece. The image is made of decimal numbers and binary digits, the header
of decimal numbers, stems and labels, and the latter two are checked when they are declared. Symbols
are not, which is why nothing of the kind is said of the listing.
-/
namespace Microcode

namespace Text

theorem isAscii_iff {s : String} : isAscii s = true ↔ ∀ c ∈ s.toList, c.toNat < 128 := by
  simp [isAscii]

theorem isAscii_append {s t : String} :
    isAscii (s ++ t) = true ↔ isAscii s = true ∧ isAscii t = true := by
  simp only [isAscii_iff, String.toList_append, List.forall_mem_append]

theorem isAscii_join {texts : List String} :
    isAscii (String.join texts) = true ↔ ∀ s ∈ texts, isAscii s = true := by
  simp only [isAscii_iff, String.toList_join, List.mem_flatMap]
  constructor
  · intro all s member c held
    exact all c ⟨s, member, held⟩
  · rintro all c ⟨s, member, held⟩
    exact all s member c held

theorem isAscii_of_bits {word : String} (bits : ∀ c ∈ word.toList, c = '0' ∨ c = '1') :
    isAscii word = true := by
  rw [isAscii_iff]
  intro c held
  rcases bits c held with rfl | rfl <;> decide

end Text

theorem Numeral.decimal_ascii (n : Int) : Text.isAscii (Numeral.decimal n) = true := by
  rw [Text.isAscii_iff, Numeral.decimal, String.toList_ofList]
  have digits : ∀ c ∈ Nat.toDigits 10 n.natAbs, c.toNat < 128 := by
    intro c held
    have digit := Nat.isDigit_of_mem_toDigits (by decide) (by decide) held
    simp only [Char.isDigit, Bool.and_eq_true, decide_eq_true_eq] at digit
    exact Nat.lt_of_le_of_lt (UInt32.le_iff_toNat_le.mp digit.2) (by decide)
  unfold Numeral.decimalChars Numeral.signed
  split
  · exact List.forall_mem_cons.mpr ⟨by decide, digits⟩
  · exact digits

theorem Text.toLower_ascii {c : Char} (ascii : c.toNat < 128) : c.toLower.toNat < 128 := by
  unfold Char.toLower
  split
  · rename_i upper
    have small : c.val.toNat ≤ 90 := UInt32.le_iff_toNat_le.mp upper.2
    have step : ('a'.val - 'A'.val).toNat = 32 := rfl
    have sum := UInt32.toNat_add c.val ('a'.val - 'A'.val)
    change (c.val + ('a'.val - 'A'.val)).toNat < 128
    omega
  · exact ascii

theorem Value.text_ascii (v : Value) : Text.isAscii v.text = true := by
  cases v with
  | int n => exact Numeral.decimal_ascii n
  | flag b => cases b <;> decide

theorem Text.padLeft_ascii {length : Nat} {s : String} (ascii : Text.isAscii s = true) :
    Text.isAscii (Text.padLeft ' ' length s) = true := by
  refine Text.isAscii_append.mpr ⟨?_, ascii⟩
  rw [Text.isAscii_iff, String.toList_ofList]
  intro c held
  rw [List.eq_of_mem_replicate held]
  decide

namespace Image

theorem addressText_ascii (address : Value) : Text.isAscii (addressText address) = true :=
  Text.padLeft_ascii (Text.isAscii_append.mpr ⟨Value.text_ascii address, by decide⟩)

theorem head_ascii (image : Image) : Text.isAscii image.head = true := by
  simp only [head, Text.isAscii_append, toString, Value.text_ascii, and_true]
  decide

theorem records_ascii {words : List String} (ascii : ∀ word ∈ words, Text.isAscii word = true)
    (address : Nat) : ∀ record ∈ records address words, Text.isAscii record = true := by
  induction words generalizing address with
  | nil =>
    intro record impossible
    cases impossible
  | cons word rest ih =>
    obtain ⟨here, later⟩ := List.forall_mem_cons.mp ascii
    refine List.forall_mem_cons.mpr ⟨?_, ih later (address + 1)⟩
    simp only [Text.isAscii_append, addressText_ascii, here, true_and]
    decide

theorem padded_ascii {image : Image} (ascii : ∀ word ∈ image.words, Text.isAscii word = true) :
    ∀ word ∈ image.padded.words, Text.isAscii word = true := by
  unfold padded
  dsimp only
  split
  · exact ascii
  · refine List.forall_mem_append.mpr ⟨ascii, ?_⟩
    intro word held
    rw [List.eq_of_mem_replicate held, Text.isAscii_iff, zeroWord, String.toList_ofList]
    intro c zero
    rw [List.eq_of_mem_replicate zero]
    decide

def pieces (image : Image) (fill : Bool) : List String :=
  image.head :: (records 0 (if fill then image.padded else image).words ++ ["END;\n"])

theorem pieces_ascii {image : Image} (fill : Bool)
    (words : ∀ word ∈ image.words, Text.isAscii word = true) :
    ∀ piece ∈ image.pieces fill, Text.isAscii piece = true := by
  have shown : ∀ word ∈ (if fill then image.padded else image).words,
      Text.isAscii word = true := by
    cases fill with
    | false => exact words
    | true => exact padded_ascii words
  simp only [pieces, List.forall_mem_cons, List.forall_mem_append]
  exact ⟨head_ascii image, records_ascii shown 0, by decide, by simp⟩

theorem text_eq_join [Machine] {image : Image} {fill : Bool} {text : String}
    (made : image.text fill = .ok text) : text = String.join (image.pieces fill) := by
  have joined : ∀ words : List String,
      image.head ++ String.join (records 0 words) ++ "END;\n" =
        String.join (image.head :: (records 0 words ++ ["END;\n"])) := by
    intro words
    apply String.toList_inj.mp
    simp [String.toList_join]
  unfold Image.text at made
  obtain ⟨_, _, made⟩ := bind_ok_iff.mp made
  cases fill with
  | false => exact (Except.ok.inj made).symm.trans (joined _)
  | true =>
    obtain ⟨_, _, made⟩ := bind_ok_iff.mp made
    exact (Except.ok.inj made).symm.trans (joined _)

theorem text_ascii [Machine] {image : Image} {fill : Bool} {text : String}
    (words : ∀ word ∈ image.words, Text.isAscii word = true) (made : image.text fill = .ok text) :
    Text.isAscii text = true := by
  rw [text_eq_join made]
  exact Text.isAscii_join.mpr (pieces_ascii fill words)

end Image

theorem Field.shortName_ascii {f : Field} (ascii : Text.isAscii f.stem = true) :
    Text.isAscii f.shortName = true := by
  rw [Text.isAscii_iff] at ascii
  rw [Text.isAscii_iff, Field.shortName, String.toList_ofList]
  intro c held
  obtain ⟨d, held', rfl⟩ := List.mem_map.mp held
  refine Text.toLower_ascii (ascii d ?_)
  split at held'
  · exact List.dropLast_subset _ held'
  · exact held'

theorem Field.definition_ascii {f : Field} (ascii : Text.isAscii f.stem = true) :
    Text.isAscii f.definition = true := by
  have name := Field.shortName_ascii ascii
  unfold Field.definition
  generalize f.shortName = short at name ⊢
  simp only [Text.isAscii_append, toString, Value.text_ascii, name, and_true]
  decide

theorem labelDefinition_ascii {width : Datum} {label : String} (address : Value)
    (ascii : Text.isAscii label = true) (ascii' : Text.isAscii width.plainText = true) :
    Text.isAscii (labelDefinition width label address) = true := by
  simp only [labelDefinition, Text.isAscii_append, toString, Value.text_ascii, ascii, ascii',
    and_true]
  decide

theorem Settings.pcWidth_ascii (settings : Settings) :
    Text.isAscii settings.pcWidthDatum.plainText = true := by
  unfold Settings.pcWidthDatum
  split
  · exact Value.text_ascii _
  · decide

namespace Builder

variable {layout : Layout} {b : Builder} {width : Datum} {text : String}

def headerPieces (b : Builder) (layout : Layout) (width : Datum) : List String :=
  headerComment :: (layout.fields.map Field.definition ++
    "\n" :: b.exportedLabels.map fun entry => labelDefinition width entry.1 entry.2)

theorem headerPieces_ascii (stems : ∀ f ∈ layout.fields, Text.isAscii f.stem = true)
    (labels : ∀ entry ∈ b.labels, Text.isAscii entry.1 = true)
    (number : Text.isAscii width.plainText = true) :
    ∀ piece ∈ b.headerPieces layout width, Text.isAscii piece = true := by
  simp only [headerPieces, List.forall_mem_cons, List.forall_mem_append, List.forall_mem_map]
  refine ⟨by decide, fun f held => Field.definition_ascii (stems f held), by decide, ?_⟩
  intro entry held
  exact labelDefinition_ascii entry.2 (labels entry (List.mem_filter.mp held).1) number

theorem header_eq_join (given : b.layout = some layout) (made : b.header width = .ok text) :
    text = String.join (b.headerPieces layout width) := by
  simp only [header, given, bind_ok_iff] at made
  obtain ⟨_, _, _, _, rest⟩ := made
  cases rest
  apply String.toList_inj.mp
  simp [headerPieces, String.toList_join]

theorem header_ascii (given : b.layout = some layout)
    (stems : ∀ f ∈ layout.fields, Text.isAscii f.stem = true)
    (labels : ∀ entry ∈ b.labels, Text.isAscii entry.1 = true)
    (number : Text.isAscii width.plainText = true) (made : b.header width = .ok text) :
    Text.isAscii text = true := by
  rw [header_eq_join given made]
  exact Text.isAscii_join.mpr (headerPieces_ascii stems labels number)

end Builder

theorem Packs.ascii {layout : Layout} {symbols : SymbolTable} {line : Line} {word : String}
    (packs : Packs layout symbols line word) : Text.isAscii word = true :=
  Text.isAscii_of_bits packs.digits.2

end Microcode
