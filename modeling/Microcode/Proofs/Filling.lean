import Microcode.Proofs.Finalize
import Microcode.Proofs.ImageReading

/-!
Filling a memory. The records of the words and those of the zero words behind them are written one
after the other, and the addresses of the second ones go on where those of the first ones end. So
a filled image is written as the image with the missing words would be, and the image of a program,
whose depth is a power of two that its words do not exceed, has one word at every address.
-/
namespace Microcode

namespace Image

def missing (image : Image) : Nat := (image.depth.toInt - image.words.length).toNat

def extended (image : Image) : Image :=
  { image with words := image.words ++ List.replicate image.missing image.zeroWord }

/-- The record of a word: the address in decimal with a colon and a blank, right-aligned in eight
columns, and the word with a semicolon. -/
def record (word : String) (address : Nat) : String :=
  String.ofList ((Nat.toDigits 10 address ++ [':', ' ']).leftpad 8 ' ') ++ word ++ ";\n"

theorem addressText_record (word : String) (address : Nat) :
    addressText address ++ word ++ ";\n" = record word address := by
  have natural : ¬ (address : Int) < 0 := Int.not_lt.mpr (Int.natCast_nonneg address)
  apply String.toList_inj.mp
  simp [addressText, record, Text.padLeft, Value.text, Numeral.decimal, Numeral.decimalChars,
    Numeral.signed, natural, List.leftpad]

theorem padded_eq_extended (image : Image) : image.padded = image.extended := by
  unfold padded extended missing
  dsimp only
  split
  · rename_i none
    rw [none, List.replicate_zero, List.append_nil]
  · rfl

theorem records_append (address : Nat) (words later : List String) :
    records address (words ++ later) =
      records address words ++ records (address + words.length) later := by
  induction words generalizing address with
  | nil => rfl
  | cons word rest ih =>
    have next : address + 1 + rest.length = address + (rest.length + 1) := by omega
    rw [List.cons_append, records, records, ih, next]
    rfl

theorem records_replicate (address count : Nat) (word : String) :
    records address (List.replicate count word) =
      (List.range' address count).map (record word) := by
  induction count generalizing address with
  | zero => rfl
  | succ count ih =>
    rw [List.replicate_succ, records, ih, List.range'_succ, addressText_record]
    rfl

section

variable {image : Image}

theorem text_extended [Machine] (room : Capacity.word image.width.toInt = .ok ()) :
    image.text true = image.extended.text false := by
  simp only [text, room, padded_eq_extended, ok_bind, if_true]
  rfl

theorem text_filled [Machine] {text : String} (filled : image.text true = .ok text) :
    text = image.head ++ String.join (records 0 image.words) ++
      String.join ((List.range' image.words.length image.missing).map (record image.zeroWord)) ++
      "END;\n" := by
  unfold Image.text at filled
  obtain ⟨_, _, filled⟩ := bind_ok_iff.mp filled
  obtain ⟨_, _, filled⟩ := bind_ok_iff.mp filled
  have words := records_append 0 image.words (List.replicate image.missing image.zeroWord)
  rw [Nat.zero_add, records_replicate] at words
  rw [← Except.ok.inj filled, if_pos rfl, padded_eq_extended, extended, words, String.join_append]
  simp only [String.append_assoc]

theorem extended_length {depth : Nat} (deep : image.depth.toInt = depth)
    (enough : image.words.length ≤ depth) : image.extended.words.length = depth := by
  rw [extended, List.length_append, List.length_replicate, missing, deep]
  omega

theorem forall_mem_extended {P : String → Prop} (words : ∀ word ∈ image.words, P word)
    (zero : P image.zeroWord) : ∀ word ∈ image.extended.words, P word := by
  refine List.forall_mem_append.mpr ⟨words, ?_⟩
  intro word held
  rw [List.eq_of_mem_replicate held]
  exact zero

theorem zeroWord_digits (image : Image) :
    image.zeroWord.toList.length = image.width.toInt.toNat ∧
      ∀ c ∈ image.zeroWord.toList, c = '0' ∨ c = '1' := by
  rw [zeroWord, String.toList_ofList]
  exact ⟨List.length_replicate, fun c held => .inl (List.eq_of_mem_replicate held)⟩

end

end Image

theorem finalize_words [Machine] {layout : Layout} {b : Builder} {image : Image}
    (laid : layout.Sound) (given : b.layout = some layout)
    (accepted : b.finalize.result = .ok image) :
    image.width = layout.size ∧ layout.width * 8 ≤ Machine.memoryLimit ∧
      LeastPower image.words.length image.depth ∧ ∀ word ∈ image.words,
        word.toList.length = layout.width ∧ ∀ c ∈ word.toList, c = '0' ∨ c = '1' := by
  obtain ⟨_, _, words, packed, rfl⟩ := finalize_image given accepted
  obtain ⟨room, all⟩ := (packLines_ok_iff laid).mp packed
  refine ⟨rfl, Capacity.buffer_ok_iff.mp room, romDepth_least words.length, ?_⟩
  intro word held
  obtain ⟨line, _, packs⟩ := along_mem all held
  exact packs.digits

/-- Filling is padding. A filled image is written as the image with the missing zero words, if
there is room for one of these; the zero words stand behind the others, at the addresses from there
up to the depth. And the filled text of a program's image has a record for every address below the
depth, a power of two, in ascending order, each with a word of the full width. -/
theorem filling_is_padding [Machine] :
    (∀ image : Image, Capacity.word image.width.toInt = .ok () →
      image.text true = image.extended.text false) ∧
    (∀ (image : Image) (text : String), image.text true = .ok text →
      text = image.head ++ String.join (Image.records 0 image.words) ++
        String.join ((List.range' image.words.length image.missing).map
          (Image.record image.zeroWord)) ++ "END;\n") ∧
    ∀ (layout : Layout) (b : Builder) (image : Image), layout.Built → b.layout = some layout →
      b.finalize.result = .ok image →
      ∃ k : Nat, image.depth = .int (2 ^ k : Nat) ∧ image.extended.words.length = 2 ^ k ∧
        (∀ word ∈ image.extended.words, (word.toList.length : Int) = image.width.toInt) ∧
        (Numeral.fits image.depth.toInt = true → ∃ text, image.text true = .ok text ∧
          MemoryFile.read? text = some
            ⟨image.depth, image.width, (List.range (2 ^ k)).zip image.extended.words⟩) := by
  refine ⟨fun image => Image.text_extended, fun image text => Image.text_filled, ?_⟩
  intro layout b image built given accepted
  obtain ⟨width, room, ⟨k, deep, enough, _⟩, digits⟩ := finalize_words built.sound given accepted
  have positive : 0 ≤ image.width.toInt := width ▸ built.size_nonneg
  have wide : layout.width = image.width.toInt.toNat := by rw [width, Layout.width]
  rw [wide] at room digits
  have full := Image.forall_mem_extended digits image.zeroWord_digits
  have count : image.extended.words.length = 2 ^ k :=
    Image.extended_length (congrArg Value.toInt deep) enough
  refine ⟨k, deep, count, fun word held => ?_, fun printed => ?_⟩
  · have length := (full word held).1
    omega
  · have short : Numeral.fits image.width.toInt = true := by
      have bytes := Machine.memoryLimit_lt
      exact fits_of_small (by omega)
    have head : image.extended.Printable := ⟨printed, short⟩
    have binary : image.extended.Binary := fun word held => (full word held).2
    have written := Image.text_extended (Capacity.word_ok positive room)
    have read := MemoryFile.read?_text image.extended binary.oneLine
    rw [Image.text_of_printable head] at written
    rw [count] at read
    exact ⟨_, written, read⟩

/-- Three lines in a memory of four words. -/
theorem filling_is_padding_three_lines :
    let calls : List Call :=
      [.assignValue "OP_" (.value (.int 3)), .endLine,
        .assignValue "OP_" (.value (.int 0)), .endLine,
        .assignValue "OP_" (.value (.int 5)), .endLine]
    let b := (Builder.fresh (some Layout.small) [] false).afterCalls calls
    let image : Image := ⟨.int 4, .int 7, ["0000011", "0000000", "0000101"]⟩
    Layout.small.Built ∧ b.layout = some Layout.small ∧ b.finalize.result = .ok image ∧
      Numeral.fits image.depth.toInt = true ∧ Capacity.word image.width.toInt = .ok () ∧
      image.text true = image.extended.text false ∧
      ∃ text, image.text true = .ok text ∧ MemoryFile.read? text = some
        ⟨.int 4, .int 7, [(0, "0000011"), (1, "0000000"), (2, "0000101"), (3, "0000000")]⟩ := by
  intro calls b image
  have accepted : b.finalize.result = .ok image := by decide +kernel
  have room : Capacity.word image.width.toInt = .ok () := by decide
  have short : Numeral.fits image.depth.toInt = true := by decide +kernel
  obtain ⟨pads, _, programs⟩ := filling_is_padding
  obtain ⟨k, deep, _, _, written⟩ := programs Layout.small b image Layout.small_built rfl accepted
  obtain ⟨text, shown, read⟩ := written short
  have power : 2 ^ k = 4 := (Int.ofNat.inj (Value.int.inj deep)).symm
  rw [power] at read
  exact ⟨Layout.small_built, rfl, accepted, short, room, pads image room, text, shown, read⟩

/-- A word that is too wide for the memory keeps an image from being filled, though no word is
missing in it. -/
theorem full_image_not_filled :
    let image : Image := ⟨.int 1, .int (2 ^ 63), ["0"]⟩
    image.missing = 0 ∧ image.extended = image ∧ image.text true = .error .countTooLarge ∧
      image.extended.text false =
        .ok ("DEPTH = 1;\nWIDTH = 9223372036854775808;\nADDRESS_RADIX = DEC;\n" ++
          "DATA_RADIX = BIN;\nCONTENT\nBEGIN\n     0: 0;\nEND;\n") := by
  decide +kernel

end Microcode
