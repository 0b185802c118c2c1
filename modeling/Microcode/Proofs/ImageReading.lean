import Microcode.Proofs.Checks
import Mathlib.Data.List.Basic

/-!
Reading an image back from its text. The reader takes the text line by line and knows nothing of how
it was written: an address ends where its digits end, so it does not matter how wide its column is,
and a word is what stands between the colon and the semicolon. What it reads from the text of an
image is the image, and so two images with the same text are the same.
-/
namespace Microcode

structure MemoryFile where
  depth : Value
  width : Value
  /-- The words with their addresses, as they follow one another. -/
  records : List (Nat × String)
  deriving DecidableEq

namespace MemoryFile

def natural? (s : List Char) : Option Nat :=
  if s ≠ [] ∧ s.all Char.isDigit then some (Nat.ofDigitChars 10 s 0) else none

def integer? : List Char → Option Int
  | '-' :: digits => (natural? digits).map fun n : Nat => -(n : Int)
  | digits => (natural? digits).map fun n : Nat => (n : Int)

def value? (s : List Char) : Option Value :=
  if s = "True".toList then some (.flag true)
  else if s = "False".toList then some (.flag false)
  else (integer? s).map .int

def between? (before after : String) (line : List Char) : Option (List Char) :=
  (line.dropPrefix? before.toList).bind (·.dropSuffix? after.toList)

def record? (line : List Char) : Option (Nat × String) := do
  let shown := line.dropWhile (· == ' ')
  let address ← natural? (shown.takeWhile Char.isDigit)
  let word ← between? ": " ";" (shown.dropWhile Char.isDigit)
  return (address, String.ofList word)

/-- The records up to the line that ends them; nothing may follow it. -/
def records? : List (List Char) → Option (List (Nat × String))
  | [] => none
  | line :: rest =>
    if line = "END;".toList then if rest = [[]] then some [] else none
    else do
      let record ← record? line
      let later ← records? rest
      return record :: later

def read? (text : String) : Option MemoryFile :=
  match Text.pieces (· == '\n') text.toList with
  | depth :: width :: addressRadix :: dataRadix :: content :: start :: rest =>
    if [addressRadix, dataRadix, content, start] =
        ["ADDRESS_RADIX = DEC;", "DATA_RADIX = BIN;", "CONTENT", "BEGIN"].map String.toList then do
      let depth ← (between? "DEPTH = " ";" depth).bind value?
      let width ← (between? "WIDTH = " ";" width).bind value?
      let records ← records? rest
      return ⟨depth, width, records⟩
    else none
  | _ => none

/-- The image in a file whose addresses count up from zero. -/
def image? (file : MemoryFile) : Option Image :=
  if file.records.map Prod.fst = List.range file.records.length then
    some ⟨file.depth, file.width, file.records.map Prod.snd⟩
  else none

/-! Numbers. -/

theorem natural?_toDigits (n : Nat) : natural? (Nat.toDigits 10 n) = some n := by
  have digits : (Nat.toDigits 10 n).all Char.isDigit = true :=
    List.all_eq_true.mpr fun c => Nat.isDigit_of_mem_toDigits (by decide) (by decide)
  unfold natural?
  rw [if_pos ⟨Nat.toDigits_ne_nil, digits⟩, Nat.ofDigitChars_ten_toDigits]

theorem integer?_decimalChars (n : Int) : integer? (Numeral.decimalChars n) = some n := by
  unfold Numeral.decimalChars Numeral.signed
  split
  · rename_i negative
    have back : -(n.natAbs : Int) = n := by omega
    rw [integer?, natural?_toDigits, Option.map_some, back]
  · rename_i positive
    have back : (n.natAbs : Int) = n := by omega
    unfold integer?
    split
    · rename_i digits minus
      have digit : Char.isDigit '-' = true :=
        Nat.isDigit_of_mem_toDigits (b := 10) (n := n.natAbs) (by decide) (by decide)
          (by simp [minus])
      exact absurd digit (by decide)
    · rw [natural?_toDigits, Option.map_some, back]

theorem value?_text (v : Value) : value? v.text.toList = some v := by
  cases v with
  | int n =>
    have read := integer?_decimalChars n
    have plain : ∀ s : String, integer? s.toList = none → Numeral.decimalChars n ≠ s.toList := by
      intro s unread same
      rw [same, unread] at read
      cases read
    rw [Value.text, Numeral.decimal, String.toList_ofList, value?,
      if_neg (plain "True" (by decide)), if_neg (plain "False" (by decide)), read, Option.map_some]
  | flag b => cases b <;> decide

/-! Lines. -/

theorem between?_around (before after : String) (s : List Char) :
    between? before after (before.toList ++ (s ++ after.toList)) = some s := by
  refine Option.bind_eq_some_iff.mpr ⟨s ++ after.toList, ?_, ?_⟩
  · exact List.dropPrefix?_eq_some_iff.mpr ⟨before.toList, rfl, beq_self_eq_true _⟩
  · exact List.dropSuffix?_eq_some_iff.mpr ⟨after.toList, rfl, beq_self_eq_true _⟩

def recordLine (address : Nat) (word : String) : List Char :=
  (Image.addressText address).toList ++ (word.toList ++ ";".toList)

theorem addressText_toList (address : Nat) :
    ∃ blanks, (Image.addressText address).toList =
      List.replicate blanks ' ' ++ (Nat.toDigits 10 address ++ ": ".toList) := by
  have positive : ¬ (address : Int) < 0 := by omega
  refine ⟨8 - ((Value.int address).text ++ ": ").toList.length, ?_⟩
  simp only [Image.addressText, Text.padLeft, Value.text, Numeral.decimal, Numeral.decimalChars,
    Numeral.signed, if_neg positive, Int.natAbs_natCast, String.toList_append, String.toList_ofList]

theorem record?_recordLine (address : Nat) (word : String) :
    record? (recordLine address word) = some (address, word) := by
  obtain ⟨blanks, shown⟩ := addressText_toList address
  have digits : ∀ c ∈ Nat.toDigits 10 address, c.isDigit = true :=
    fun c => Nat.isDigit_of_mem_toDigits (by decide) (by decide)
  have line : recordLine address word = List.replicate blanks ' ' ++
      (Nat.toDigits 10 address ++ (": ".toList ++ (word.toList ++ ";".toList))) := by
    rw [recordLine, shown]
    simp only [List.append_assoc]
  -- the blanks end where the digits begin
  have unpadded : (recordLine address word).dropWhile (· == ' ') =
      Nat.toDigits 10 address ++ (": ".toList ++ (word.toList ++ ";".toList)) := by
    rw [line, List.dropWhile_append_of_pos (by simp)]
    cases first : Nat.toDigits 10 address with
    | nil => exact absurd first Nat.toDigits_ne_nil
    | cons c rest =>
      have digit : c.isDigit = true := digits c (by rw [first]; exact List.mem_cons_self)
      have solid : ¬ (c == ' ') = true := by
        intro blank
        rw [beq_iff_eq.mp blank] at digit
        cases digit
      exact List.dropWhile_cons_of_neg solid
  have number : (Nat.toDigits 10 address ++ (": ".toList ++ (word.toList ++ ";".toList))).takeWhile
      Char.isDigit = Nat.toDigits 10 address := by
    rw [List.takeWhile_append_of_pos digits]
    exact List.append_nil _
  have rest : (Nat.toDigits 10 address ++ (": ".toList ++ (word.toList ++ ";".toList))).dropWhile
      Char.isDigit = ": ".toList ++ (word.toList ++ ";".toList) :=
    List.dropWhile_append_of_pos digits
  simp only [record?, unpadded, number, rest, natural?_toDigits, between?_around,
    String.ofList_toList, Option.bind_eq_bind, Option.bind_some, Option.pure_def]

theorem records?_cons {line : List Char} {rest : List (List Char)} {record : Nat × String}
    (read : record? line = some record) :
    records? (line :: rest) = (records? rest).map (record :: ·) := by
  have apart : line ≠ "END;".toList := by
    rintro rfl
    have unread : record? "END;".toList = none := by decide
    cases unread.symm.trans read
  rw [records?, if_neg apart, read]
  cases records? rest <;> rfl

/-! Texts. -/

def OneLine (s : List Char) : Prop := ∀ c ∈ s, (c == '\n') = false

instance (s : List Char) : Decidable (OneLine s) :=
  List.decidableBAll (fun c => (c == '\n') = false) s

theorem OneLine.append {s t : List Char} (first : OneLine s) (second : OneLine t) :
    OneLine (s ++ t) :=
  List.forall_mem_append.mpr ⟨first, second⟩

theorem toDigits_oneLine (n : Nat) : OneLine (Nat.toDigits 10 n) := by
  intro c member
  have digit := Nat.isDigit_of_mem_toDigits (by decide) (by decide) member
  apply beq_eq_false_iff_ne.mpr
  rintro rfl
  cases digit

theorem text_oneLine (v : Value) : OneLine v.text.toList := by
  cases v with
  | int n =>
    rw [Value.text, Numeral.decimal, String.toList_ofList, Numeral.decimalChars, Numeral.signed]
    split
    · exact List.forall_mem_cons.mpr ⟨rfl, toDigits_oneLine _⟩
    · exact toDigits_oneLine _
  | flag b => cases b <;> decide

theorem recordLine_oneLine (address : Nat) {word : String} (oneLine : OneLine word.toList) :
    OneLine (recordLine address word) := by
  obtain ⟨blanks, shown⟩ := addressText_toList address
  have column : OneLine (List.replicate blanks ' ') := by
    intro c member
    rw [List.eq_of_mem_replicate member]
    rfl
  have colon : OneLine ": ".toList := by decide
  have stop : OneLine ";".toList := by decide
  rw [recordLine, shown]
  exact (column.append ((toDigits_oneLine address).append colon)).append (oneLine.append stop)

theorem records?_text {words : List String} (oneLine : ∀ word ∈ words, OneLine word.toList)
    (address : Nat) :
    records? (Text.pieces (· == '\n')
        ((String.join (Image.records address words)).toList ++ "END;\n".toList)) =
      some ((List.range' address words.length).zip words) := by
  induction words generalizing address with
  | nil =>
    have ended : records? (Text.pieces (· == '\n') "END;\n".toList) = some [] := by decide
    exact ended
  | cons word rest ih =>
    obtain ⟨here, later⟩ := List.forall_mem_cons.mp oneLine
    have text : (String.join (Image.records address (word :: rest))).toList ++ "END;\n".toList =
        recordLine address word ++ '\n' ::
          ((String.join (Image.records (address + 1) rest)).toList ++ "END;\n".toList) := by
      simp only [Image.records, String.toList_join, List.flatMap_cons, String.toList_append,
        recordLine, List.append_assoc]
      rfl
    rw [text, Text.pieces_append (recordLine_oneLine address here) rfl,
      records?_cons (record?_recordLine address word), ih later]
    rfl

theorem head_toList (image : Image) (rest : List Char) :
    image.head.toList ++ rest =
      ("DEPTH = ".toList ++ (image.depth.text.toList ++ ";".toList)) ++ '\n' ::
        (("WIDTH = ".toList ++ (image.width.text.toList ++ ";".toList)) ++ '\n' ::
          ("ADDRESS_RADIX = DEC;".toList ++ '\n' :: ("DATA_RADIX = BIN;".toList ++ '\n' ::
            ("CONTENT".toList ++ '\n' :: ("BEGIN".toList ++ '\n' :: rest))))) := by
  simp only [Image.head, toString, String.toList_append, List.append_assoc]
  rfl

theorem read?_text (image : Image) {words : List String}
    (oneLine : ∀ word ∈ words, OneLine word.toList) :
    read? (image.head ++ String.join (Image.records 0 words) ++ "END;\n") =
      some ⟨image.depth, image.width, (List.range words.length).zip words⟩ := by
  have line : ∀ (before : String) (v : Value), OneLine before.toList →
      OneLine (before.toList ++ (v.text.toList ++ ";".toList)) := by
    intro before v first
    exact first.append ((text_oneLine v).append (by decide))
  have addresses : OneLine "ADDRESS_RADIX = DEC;".toList := by decide
  have data : OneLine "DATA_RADIX = BIN;".toList := by decide
  have content : OneLine "CONTENT".toList := by decide
  have start : OneLine "BEGIN".toList := by decide
  unfold read?
  rw [String.toList_append, String.toList_append, List.append_assoc, head_toList,
    Text.pieces_append (line "DEPTH = " image.depth (by decide)) rfl,
    Text.pieces_append (line "WIDTH = " image.width (by decide)) rfl,
    Text.pieces_append addresses rfl, Text.pieces_append data rfl, Text.pieces_append content rfl,
    Text.pieces_append start rfl]
  simp only [between?_around, Option.bind_some, value?_text, records?_text oneLine,
    List.range_eq_range']
  rfl

end MemoryFile

def readImage? (text : String) : Option Image := (MemoryFile.read? text).bind MemoryFile.image?

namespace Image

def Binary (image : Image) : Prop :=
  ∀ word ∈ image.words, ∀ c ∈ word.toList, c = '0' ∨ c = '1'

instance (image : Image) : Decidable image.Binary :=
  @List.decidableBAll String (fun word => ∀ c ∈ word.toList, c = '0' ∨ c = '1')
    (fun word => List.decidableBAll (fun c => c = '0' ∨ c = '1') word.toList) image.words

def Printable (image : Image) : Prop :=
  Numeral.fits image.depth.toInt = true ∧ Numeral.fits image.width.toInt = true

theorem Binary.oneLine {image : Image} (binary : image.Binary) :
    ∀ word ∈ image.words, MemoryFile.OneLine word.toList := by
  intro word held c member
  rcases binary word held c member with rfl | rfl <;> rfl

theorem text_of_printable [Machine] {image : Image} (printed : image.Printable) :
    image.text false = .ok (image.head ++ String.join (records 0 image.words) ++ "END;\n") := by
  simp only [text, Value.printable_pair printed.1 printed.2, ok_bind]
  rfl

theorem text_read [Machine] {image : Image} (binary : image.Binary) (printed : image.Printable) :
    ∃ text, image.text false = .ok text ∧ readImage? text = some image := by
  refine ⟨_, text_of_printable printed, ?_⟩
  have counted : (List.range image.words.length).length = image.words.length := List.length_range
  rw [readImage?, MemoryFile.read?_text image binary.oneLine, Option.bind_some, MemoryFile.image?]
  simp only [List.map_fst_zip (Nat.le_of_eq counted), List.map_snd_zip (Nat.le_of_eq counted.symm),
    List.length_zip, counted, Nat.min_self, if_true]

end Image

/-- The text of an image determines it. The image is read back from its text, whatever the number
and the length of its words and however long its addresses get; so two images with the same text
have the same depth, width and words. -/
theorem image_text_determines_image [Machine] :
    (∀ image : Image, image.Binary → image.Printable →
      ∃ text, image.text false = .ok text ∧ readImage? text = some image) ∧
    ∀ image image' : Image, image.Binary → image.Printable → image'.Binary → image'.Printable →
      image.text false = image'.text false →
      image.depth = image'.depth ∧ image.width = image'.width ∧ image.words = image'.words := by
  refine ⟨fun image => Image.text_read, ?_⟩
  intro image image' binary printed binary' printed' same
  obtain ⟨text, written, read⟩ := Image.text_read binary printed
  obtain ⟨text', written', read'⟩ := Image.text_read binary' printed'
  rw [written, written'] at same
  cases same
  cases read.symm.trans read'
  exact ⟨rfl, rfl, rfl⟩

/-- Words of uneven length in a memory of negative width. -/
theorem image_text_determines_image_uneven_words :
    let image : Image := ⟨.int 4, .int (-3), ["101", "", "0"]⟩
    image.Binary ∧ image.Printable ∧
      readImage? ("DEPTH = 4;\nWIDTH = -3;\nADDRESS_RADIX = DEC;\nDATA_RADIX = BIN;\nCONTENT\n" ++
        "BEGIN\n     0: 101;\n     1: ;\n     2: 0;\nEND;\n") = some image ∧
      ∀ other : Image, other.Binary → other.Printable →
        image.text false = other.text false → image.words = other.words := by
  intro image
  have binary : image.Binary := by decide +kernel
  have printed : image.Printable := by unfold Image.Printable; decide +kernel
  obtain ⟨reads, determines⟩ := image_text_determines_image
  obtain ⟨text, written, read⟩ := reads image binary printed
  have shown : image.text false = .ok ("DEPTH = 4;\nWIDTH = -3;\nADDRESS_RADIX = DEC;\n" ++
      "DATA_RADIX = BIN;\nCONTENT\nBEGIN\n     0: 101;\n     1: ;\n     2: 0;\nEND;\n") := by
    decide +kernel
  cases shown.symm.trans written
  refine ⟨binary, printed, read, ?_⟩
  intro other binary' printed' same
  exact (determines image other binary printed binary' printed' same).2.2

end Microcode
