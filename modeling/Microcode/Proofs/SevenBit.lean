import Microcode.Proofs.Ascii
import Microcode.Proofs.Filling
import Microcode.Text.Utf8

/-!
Files of seven-bit text. The image and the header are written piece by piece into files that take
nothing else, and a piece that cannot be encoded would leave a file cut off behind the pieces before
it. No such piece is ever made: stems are checked by the layout and labels when they are declared,
and these checks hold through every session. The names of symbols are not checked, but only their
values reach a word.
-/
namespace Microcode

namespace Text

/-- The bytes of seven-bit text; any other text has none. -/
def asciiBytes? : List Char → Option (List UInt8)
  | [] => some []
  | c :: rest => if c.toNat < 128 then (asciiBytes? rest).map (c.toUInt8 :: ·) else none

/-- Text that a seven-bit file takes, as it would be written to any other file. -/
structure SevenBit (s : String) : Prop where
  ascii : ∀ c ∈ s.toList, c.toNat < 128
  encoded : asciiBytes? s.toList = some (encode s)

theorem encode_eq_flatMap (s : String) : encode s = s.toList.flatMap String.utf8EncodeChar := by
  have bytes : (String.ofList s.toList).toByteArray = s.toList.utf8Encode :=
    String.toByteArray_ofList
  rw [String.ofList_toList] at bytes
  simp [encode, bytes, List.utf8Encode]

theorem utf8EncodeChar_ascii {c : Char} (low : c.toNat < 128) :
    String.utf8EncodeChar c = [c.toUInt8] := by
  have one : c.utf8Size = 1 :=
    Char.utf8Size_eq_one_iff.mpr (UInt32.le_iff_toNat_le.mpr (Nat.le_of_lt_succ low))
  simp [String.utf8EncodeChar_eq_singleton one]

theorem asciiBytes?_of_ascii {chars : List Char} (low : ∀ c ∈ chars, c.toNat < 128) :
    asciiBytes? chars = some (chars.flatMap String.utf8EncodeChar) := by
  induction chars with
  | nil => rfl
  | cons c rest ih =>
    obtain ⟨here, later⟩ := List.forall_mem_cons.mp low
    simp [asciiBytes?, here, ih later, utf8EncodeChar_ascii here]

theorem SevenBit.of_isAscii {s : String} (ascii : isAscii s = true) : SevenBit s := by
  have low := isAscii_iff.mp ascii
  refine ⟨low, ?_⟩
  simp only [asciiBytes?_of_ascii low, encode_eq_flatMap]

theorem SevenBit.join {pieces : List String} (ascii : ∀ piece ∈ pieces, isAscii piece = true) :
    SevenBit (String.join pieces) :=
  .of_isAscii (isAscii_join.mpr ascii)

end Text

/-! Labels. -/

namespace Builder

variable {layout : Layout} {marks : Value → Prop} {b c : Builder}

theorem labels_ascii_change (step : Change layout marks b c)
    (ascii : ∀ entry ∈ b.labels, Text.isAscii entry.1 = true) :
    ∀ entry ∈ c.labels, Text.isAscii entry.1 = true := by
  cases step with
  | label name unresolved named low new =>
    intro entry held
    rcases Assoc.mem_put held with rfl | old
    · exact low
    · exact ascii entry old
  | commit => simpa only [committed_labels] using ascii
  | _ => exact ascii

theorem labels_ascii [Machine] (layout : Layout) (symbols : SymbolTable) (debug : Bool)
    (calls : List Call) :
    ∀ entry ∈ ((fresh (some layout) symbols debug).afterCalls calls).labels,
      Text.isAscii entry.1 = true := by
  apply (afterCalls_reached rfl calls).invariant labels_ascii_change
  intro entry held
  cases held

/-! Texts that can be made. -/

def headerNumbers (b : Builder) (layout : Layout) (width : Datum) : List Int :=
  layout.fields.flatMap Field.numbers ++
    b.exportedLabels.flatMap fun entry => width.numbers ++ entry.2.numbers

theorem header_made {width : Datum} (given : b.layout = some layout)
    (short : ∀ n ∈ b.headerNumbers layout width, Numeral.fits n = true) :
    ∃ text, b.header width = .ok text := by
  obtain ⟨ranges, addresses⟩ := List.forall_mem_append.mp short
  simp only [header, given, printable_ok_iff.mpr ranges, printable_ok_iff.mpr addresses, ok_bind]
  exact ⟨_, rfl⟩

end Builder

namespace Image

theorem text_made [Machine] {image : Image} (fill : Bool)
    (deep : Numeral.fits image.depth.toInt = true) (wide : Numeral.fits image.width.toInt = true)
    (room : Capacity.word image.width.toInt = .ok ()) : ∃ text, image.text fill = .ok text := by
  cases fill with
  | false => exact ⟨_, text_of_printable ⟨deep, wide⟩⟩
  | true =>
    have head : image.extended.Printable := ⟨deep, wide⟩
    exact ⟨_, (text_extended room).trans (text_of_printable head)⟩

end Image

section

variable {layout : Layout} {b : Builder} {image : Image}

theorem finalize_words_ascii [Machine] (laid : layout.Sound) (given : b.layout = some layout)
    (accepted : b.finalize.result = .ok image) :
    ∀ word ∈ image.words, Text.isAscii word = true := by
  obtain ⟨_, _, _, digits⟩ := finalize_words laid given accepted
  exact fun word held => Text.isAscii_of_bits (digits word held).2

theorem finalize_width [Machine] (built : layout.Built) (given : b.layout = some layout)
    (accepted : b.finalize.result = .ok image) :
    Numeral.fits image.width.toInt = true ∧ Capacity.word image.width.toInt = .ok () := by
  -- the words were packed in a buffer of that width
  obtain ⟨width, room, _⟩ := finalize_words built.sound given accepted
  have bytes := Machine.memoryLimit_lt
  have positive := built.size_nonneg
  unfold Layout.width at room
  rw [width]
  exact ⟨fits_of_small (by omega), Capacity.word_ok positive room⟩

end

/-- Seven-bit output. In whatever state a session leaves a builder, every piece of its header, with
address constants of any width, and every piece of the image that it is closed with, filled or not,
is text that a seven-bit file takes, and so is the whole text that the pieces make. -/
theorem outputs_seven_bit [Machine] {layout : Layout} (built : layout.Built) (symbols : SymbolTable)
    (debug : Bool) (calls : List Call) :
    let b := (Builder.fresh (some layout) symbols debug).afterCalls calls
    (∀ width : Value,
      (∀ piece ∈ b.headerPieces layout (.value width), Text.SevenBit piece) ∧
      ((∀ n ∈ b.headerNumbers layout (.value width), Numeral.fits n = true) →
        ∃ text, b.header (.value width) = .ok text) ∧
      ∀ text, b.header (.value width) = .ok text →
        text = String.join (b.headerPieces layout (.value width)) ∧ Text.SevenBit text) ∧
    ∀ image, b.finalize.result = .ok image → ∀ fill : Bool,
      (∀ piece ∈ image.pieces fill, Text.SevenBit piece) ∧
      (Numeral.fits image.depth.toInt = true → ∃ text, image.text fill = .ok text) ∧
      ∀ text, image.text fill = .ok text →
        text = String.join (image.pieces fill) ∧ Text.SevenBit text := by
  intro b
  have given : b.layout = some layout :=
    (Builder.Sound.afterCalls layout symbols debug calls).layout_given
  have labels := Builder.labels_ascii layout symbols debug calls
  refine ⟨?_, ?_⟩
  · intro width
    have pieces : ∀ piece ∈ b.headerPieces layout (.value width), Text.isAscii piece = true :=
      Builder.headerPieces_ascii (fun f held => built.stems_ascii held) labels width.text_ascii
    refine ⟨fun piece held => .of_isAscii (pieces piece held), Builder.header_made given, ?_⟩
    intro text made
    have joined := Builder.header_eq_join given made
    exact ⟨joined, joined ▸ .join pieces⟩
  · intro image accepted fill
    have pieces := Image.pieces_ascii fill (finalize_words_ascii built.sound given accepted)
    obtain ⟨wide, room⟩ := finalize_width built given accepted
    refine ⟨fun piece held => .of_isAscii (pieces piece held),
      fun deep => Image.text_made fill deep wide room, ?_⟩
    intro text made
    have joined := Image.text_eq_join made
    exact ⟨joined, joined ▸ .join pieces⟩

/-- A symbol beyond seven bits, a label that was refused for that reason, and an exported one. -/
theorem outputs_seven_bit_foreign_names :
    let calls : List Call :=
      [.defineValue "OP_é" (some (.int 5)), .declareLabel "MICROPC_é", .declareLabel "MICROPC_GO",
        .assign "OP_é"]
    let b := (Builder.fresh (some Layout.small) [] false).afterCalls calls
    let image : Image := ⟨.int 1, .int 7, ["0000101"]⟩
    Layout.small.Built ∧ b.finalize.result = .ok image ∧
      Numeral.fits image.depth.toInt = true ∧
      (∃ text, image.text true = .ok text ∧ Text.SevenBit text) ∧
      (∀ n ∈ b.headerNumbers Layout.small (.value (.int 9)), Numeral.fits n = true) ∧
      ∃ text, b.header (.value (.int 9)) = .ok text ∧ Text.SevenBit text := by
  intro calls b image
  have accepted : b.finalize.result = .ok image := by decide +kernel
  have short : Numeral.fits image.depth.toInt = true := by decide +kernel
  have numbers : ∀ n ∈ b.headerNumbers Layout.small (.value (.int 9)), Numeral.fits n = true := by
    decide +kernel
  obtain ⟨headers, images⟩ := outputs_seven_bit Layout.small_built [] false calls
  obtain ⟨_, made, sevenBit⟩ := headers (.int 9)
  obtain ⟨_, made', sevenBit'⟩ := images image accepted true
  obtain ⟨header, written⟩ := made numbers
  obtain ⟨text, written'⟩ := made' short
  exact ⟨Layout.small_built, accepted, short, ⟨text, written', (sevenBit' text written').2⟩,
    numbers, header, written, (sevenBit header written).2⟩

end Microcode
