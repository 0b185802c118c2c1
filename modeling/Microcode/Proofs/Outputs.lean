import Microcode.Proofs.FailedRun
import Microcode.Proofs.Filling
import Microcode.Proofs.Lockstep

/-!
The three outputs of a program. The listing walks the lines and the words, the image the words alone
and the header the table of labels; all of them give a line the same address. A row of the listing
is described by its parts, so that one can say where each part comes from.
-/
namespace Microcode

structure Row where
  address : Nat
  word : String
  fields : List String
  labels : List String

namespace Row

def suffix : List String → String
  | [] => ""
  | labels => " <- label: " ++ Text.joinWith ", " labels

def text (row : Row) : String :=
  let address := String.ofList ((Nat.toDigits 16 row.address).leftpad 5 '0')
  let fields := Text.joinWith " " row.fields
  s!"{address} | {row.word} | {fields}{suffix row.labels}\n"

end Row

/-- What is shown of a field of a line: a branch that was set by a label is followed by the label,
and leads there. -/
inductive Line.Shows (labels : Labels) (line : Line) (f : Field) : String → Prop where
  | branch {label : String} {i d : Nat} (stem : f.stem = branchStem)
      (set : line.branch = some label) (held : line.tokens.lookup f.stem = some (.literal (.int d)))
      (address : line.index = .int i) (target : labels.lookup label = some (.int (i + d : Nat))) :
      Shows labels line f s!"{branchStem}={d}(@{label})"
  | plain {token : Token} (other : f.stem = branchStem → line.branch = none)
      (held : line.tokens.lookup f.stem = some token) :
      Shows labels line f s!"{f.stem}={token.text}"

/-- A row tells of a line where it stands, what it holds and how it can be reached. -/
structure Row.Of (layout : Layout) (labels : Labels) (line : Line) (row : Row) : Prop where
  address : line.index = .int row.address
  fields : List.Forall₂ (line.Shows labels)
    (layout.fields.filter fun f => (line.tokens.lookup f.stem).isSome) row.fields
  ordered : row.labels.Sublist (Assoc.keys labels)
  labels : ∀ label, label ∈ row.labels ↔ labels.lookup label = some (.int row.address)

/-- The listing of a program: a row for every line, and a label in the row of its line. -/
structure Listed (layout : Layout) (b : Builder) (image : Image) (rows : List Row) : Prop where
  text : b.listing image = .ok (String.join (rows.map Row.text))
  count : rows.length = b.lines.length
  each : ∀ (i : Nat) (row : Row), rows[i]? = some row →
    row.address = i ∧ image.words[i]? = some row.word ∧
      ∃ line, b.lines[i]? = some line ∧ row.Of layout b.labels line
  once : ∀ (label : String) (n : Nat), b.labels.lookup label = some (.int n) →
    n < b.lines.length → ∃! i : Nat, ∃ row : Row, rows[i]? = some row ∧ label ∈ row.labels

/-- The labels that a header defines, with their addresses. -/
structure Exports (labels : Labels) (exported : List (String × Nat)) : Prop where
  ordered : (exported.map Prod.fst).Sublist (Assoc.keys labels)
  once : (exported.map Prod.fst).Nodup
  marked : ∀ label n, (label, n) ∈ exported ↔
    Text.startsWith exportMarker label = true ∧ labels.lookup label = some (.int n)

def exportText (width : Datum) (entry : String × Nat) : String :=
  s!"`define {entry.1} {width.plainText}'d{entry.2}\n"

/-! Numbers as texts. -/

theorem Numeral.decimal_natCast (n : Nat) : Numeral.decimal n = toString n := by
  have positive : ¬ (n : Int) < 0 := by omega
  simp only [Numeral.decimal, Numeral.decimalChars, Numeral.signed, if_neg positive,
    Int.natAbs_natCast]
  rfl

theorem Numeral.paddedHex_natCast (length n : Nat) :
    Numeral.paddedHex length n = String.ofList ((Nat.toDigits 16 n).leftpad length '0') := by
  have positive : ¬ (n : Int) < 0 := by omega
  simp only [Numeral.paddedHex, Numeral.signed, if_neg positive, Int.natAbs_natCast, List.leftpad]

theorem mapM_along {ε α β γ : Type} {f : α → Except ε β} {g : γ → β} {P : α → γ → Prop}
    {xs : List α} (each : ∀ x ∈ xs, ∃ c, f x = .ok (g c) ∧ P x c) :
    ∃ cs, xs.mapM f = .ok (cs.map g) ∧ List.Forall₂ P xs cs := by
  induction xs with
  | nil => exact ⟨[], rfl, .nil⟩
  | cons x rest ih =>
    obtain ⟨⟨c, here, related⟩, later⟩ := List.forall_mem_cons.mp each
    obtain ⟨cs, done, along⟩ := ih later
    refine ⟨c :: cs, ?_, .cons related along⟩
    rw [List.mapM_cons, here, ok_bind, done]
    rfl

theorem Builder.Sound.labels_placed {layout : Layout} {b : Builder} (sound : b.Sound layout) :
    ∀ entry ∈ b.labels, ∃ n : Nat, entry.2 = .int n := by
  intro entry held
  obtain ⟨n, _, value⟩ := sound.labels_within entry held
  exact ⟨n, value⟩

section Rows

variable {layout : Layout} {labels : Labels} {line : Line} {i : Nat}

theorem tokensIn_along (line : Line) (fields : List Field) :
    List.Forall₂ (fun f entry => entry.1 = f.stem ∧ line.tokens.lookup f.stem = some entry.2)
      (fields.filter fun f => (line.tokens.lookup f.stem).isSome) (line.tokensIn fields) := by
  induction fields with
  | nil => exact .nil
  | cons f rest ih =>
    unfold Line.tokensIn at ih ⊢
    cases held : line.tokens.lookup f.stem with
    | none => simpa [List.filter_cons, List.filterMap_cons, held] using ih
    | some token => simpa [List.filter_cons, List.filterMap_cons, held] using ih

theorem tokensIn_numbers {fields : List Field} {n : Int}
    (member : n ∈ (line.tokensIn fields).flatMap fun entry => entry.2.numbers) :
    n ∈ line.numbers := by
  obtain ⟨entry, shown, here⟩ := List.mem_flatMap.mp member
  obtain ⟨f, _, stem, held⟩ := along_mem (tokensIn_along line fields) shown
  exact List.mem_flatMap.mpr ⟨(f.stem, entry.2), Assoc.mem_of_lookup held, here⟩

theorem labelsAt_ordered (labels : Labels) (address : Value) :
    (labelsAt labels address).Sublist (Assoc.keys labels) :=
  List.filter_sublist.map Prod.fst

theorem mem_labelsAt_iff (once : (Assoc.keys labels).Nodup)
    (placed : ∀ entry ∈ labels, ∃ n : Nat, entry.2 = .int n) {label : String} :
    label ∈ labelsAt labels (.int i) ↔ labels.lookup label = some (.int i) := by
  simp only [labelsAt, List.mem_map, List.mem_filter, Value.same, beq_iff_eq]
  constructor
  · rintro ⟨⟨label, address⟩, ⟨held, same⟩, rfl⟩
    obtain ⟨n, value⟩ := placed _ held
    cases (value : address = .int n)
    cases (same : (n : Int) = i)
    exact Assoc.lookup_of_mem once held
  · intro found
    exact ⟨(label, .int i), ⟨Assoc.mem_of_lookup found, rfl⟩, rfl⟩

theorem listedField_shows (sound : line.Sound layout labels) (index : line.index = .int i)
    (settled : line.pendingLabel? = none) (placed : ∀ entry ∈ labels, ∃ n : Nat, entry.2 = .int n)
    {f : Field} {token : Token} (held : line.tokens.lookup f.stem = some token) :
    line.Shows labels f (line.listedField f.stem token) := by
  unfold Line.listedField
  split
  · rename_i label stem set
    have stem : f.stem = branchStem := beq_iff_eq.mp stem
    rcases sound.branch_token label set with pending | ⟨target, declared, ahead, _, reached⟩
    · cases settled.symm.trans (Line.pendingLabel_eq_some.mpr pending)
    · obtain ⟨n, value⟩ := placed _ (Assoc.mem_of_lookup declared)
      cases (value : target = .int n)
      rw [index] at ahead reached
      have forward : (i : Int) ≤ n := Int.sub_nonneg.mp ahead
      obtain ⟨d, rfl⟩ := Nat.le.dest (Int.ofNat_le.mp forward)
      have distance : ((i + d : Nat) : Int) - i = d := by omega
      have same : token = .literal (.int d) := by
        rw [stem, reached] at held
        rw [← Option.some.inj held]
        exact congrArg (fun k : Int => Token.literal (.int k)) distance
      subst same
      have text : (Token.literal (.int d)).text = toString d := Numeral.decimal_natCast d
      rw [stem, text]
      exact .branch stem set held index declared
  · rename_i apart
    refine .plain ?_ held
    intro stem
    cases set : line.branch with
    | none => rfl
    | some label => exact (apart label (beq_iff_eq.mpr stem) set).elim

theorem row_of (sound : line.Sound layout labels) (index : line.index = .int i)
    (settled : line.pendingLabel? = none) (short : ∀ n ∈ line.numbers, Numeral.fits n = true)
    (once : (Assoc.keys labels).Nodup) (placed : ∀ entry ∈ labels, ∃ n : Nat, entry.2 = .int n)
    (word : String) :
    ∃ row : Row, line.row layout.fields labels word = .ok row.text ∧ row.word = word ∧
      row.Of layout labels line := by
  let tokens := line.tokensIn layout.fields
  let shown := tokens.map fun entry => line.listedField entry.1 entry.2
  refine ⟨⟨i, word, shown, labelsAt labels (.int i)⟩, ?_, rfl, index, ?_,
    labelsAt_ordered labels _, fun label => mem_labelsAt_iff once placed⟩
  · have printed : printable (tokens.flatMap fun entry => entry.2.numbers) = .ok () :=
      printable_ok_iff.mpr fun n member => short n (tokensIn_numbers member)
    have suffix : ∀ here : List String,
        (if here.isEmpty then "" else " <- label: " ++ Text.joinWith ", " here) =
          Row.suffix here := by
      intro here
      cases here <;> rfl
    simp only [Line.row, printed, index, suffix, Row.text, ok_bind, Value.toInt,
      Numeral.paddedHex_natCast, tokens]
    rfl
  · apply List.forall₂_map_right_iff.mpr
    refine (tokensIn_along line layout.fields).imp ?_
    rintro f ⟨stem, token⟩ ⟨rfl, held⟩
    exact listedField_shows sound index settled placed held

end Rows

/-! The image. -/

theorem Image.records_at (address : Nat) {words : List String} {i : Nat} {word : String}
    (here : words[i]? = some word) :
    (Image.records address words)[i]? = some (Image.record word (address + i)) := by
  induction words generalizing address i with
  | nil => cases here
  | cons first rest ih =>
    cases i with
    | zero =>
      cases here
      rw [Image.records, List.getElem?_cons_zero, Image.addressText_record]
      rfl
    | succ i =>
      have next : address + 1 + i = address + (i + 1) := by omega
      rw [Image.records, List.getElem?_cons_succ, ih (address + 1) here, next]

theorem Image.text_records [Machine] {image : Image} (depth : Numeral.fits image.depth.toInt = true)
    (positive : 0 ≤ image.width.toInt)
    (room : image.width.toInt.toNat * 8 ≤ Machine.memoryLimit) (fill : Bool) :
    ∃ records, image.text fill = .ok (image.head ++ String.join records ++ "END;\n") ∧
      ∀ (i : Nat) (word : String), image.words[i]? = some word →
        records[i]? = some (Image.record word i) := by
  have bytes := Machine.memoryLimit_lt
  have width : Numeral.fits image.width.toInt = true := fits_of_small (by omega)
  have records : ∀ (words : List String) (i : Nat) (word : String), words[i]? = some word →
      (Image.records 0 words)[i]? = some (Image.record word i) := by
    intro words i word here
    rw [Image.records_at 0 here, Nat.zero_add]
  cases fill with
  | false => exact ⟨_, Image.text_of_printable ⟨depth, width⟩, records image.words⟩
  | true =>
    have written := Image.text_extended (Capacity.word_ok positive room)
    have shown : image.extended.Printable := ⟨depth, width⟩
    refine ⟨_, written.trans (Image.text_of_printable shown), ?_⟩
    intro i word here
    have inside := (List.getElem?_eq_some_iff.mp here).1
    exact records _ i word ((List.getElem?_append_left inside).trans here)

/-! The header. -/

section Header

variable {layout : Layout} {b : Builder}

def Builder.exports (b : Builder) : List (String × Nat) :=
  b.exportedLabels.map fun entry => (entry.1, entry.2.toInt.toNat)

theorem exports_of (once : (Assoc.keys b.labels).Nodup)
    (placed : ∀ entry ∈ b.labels, ∃ n : Nat, entry.2 = .int n) :
    Exports b.labels b.exports := by
  have ordered : (b.exports.map Prod.fst).Sublist (Assoc.keys b.labels) := by
    rw [Builder.exports, List.map_map]
    exact List.filter_sublist.map Prod.fst
  refine ⟨ordered, ordered.nodup once, ?_⟩
  intro label n
  simp only [Builder.exports, Builder.exportedLabels, List.mem_map, List.mem_filter]
  constructor
  · rintro ⟨⟨label, address⟩, ⟨held, marked⟩, same⟩
    obtain ⟨k, value⟩ := placed _ held
    cases (value : address = .int k)
    cases same
    exact ⟨marked, Assoc.lookup_of_mem once held⟩
  · rintro ⟨marked, found⟩
    exact ⟨(label, .int n), ⟨Assoc.mem_of_lookup found, marked⟩, rfl⟩

theorem header_text (given : b.layout = some layout)
    (placed : ∀ entry ∈ b.labels, ∃ n : Nat, entry.2 = .int n) {width : Datum} {text : String}
    (made : b.header width = .ok text) :
    text = headerComment ++ String.join (layout.fields.map Field.definition) ++ "\n" ++
      String.join (b.exports.map (exportText width)) := by
  have same : b.exportedLabels.map (fun entry => labelDefinition width entry.1 entry.2) =
      b.exports.map (exportText width) := by
    rw [Builder.exports, List.map_map]
    apply List.map_congr_left
    rintro ⟨label, address⟩ held
    obtain ⟨n, value⟩ := placed _ (List.mem_filter.mp held).1
    cases (value : address = .int n)
    have address : (Value.int n).text = toString n := Numeral.decimal_natCast n
    simp only [labelDefinition, address]
    rfl
  simp only [Builder.header, given, bind_ok_iff] at made
  obtain ⟨_, _, _, _, rest⟩ := made
  cases rest
  rw [same]

theorem header_ok [Machine] (laid : layout.Sound) (given : b.layout = some layout)
    (room : layout.width * 8 ≤ Machine.memoryLimit)
    (within : ∀ entry ∈ b.labels, ∃ n : Nat, n ≤ b.lines.length ∧ entry.2 = .int n)
    {width : Datum} (number : ∀ n ∈ width.numbers, Numeral.fits n = true)
    (short : b.lines.length < 10 ^ Numeral.maxDigits) : ∃ text, b.header width = .ok text := by
  have ranges : printable (layout.fields.flatMap Field.numbers) = .ok () := by
    apply printable_ok_iff.mpr
    intro n member
    obtain ⟨f, held, here⟩ := List.mem_flatMap.mp member
    -- both ends of a field lie in a word that fits in memory
    have inside := laid.fits f held
    have ordered := f.first_le_last
    have bytes := Machine.memoryLimit_lt
    unfold Field.high at inside
    apply fits_of_small
    rcases List.mem_append.mp here with first | last
    · have same := Value.mem_numbers first
      omega
    · have same := Value.mem_numbers last
      omega
  have addresses : printable (b.exportedLabels.flatMap fun entry =>
      width.numbers ++ entry.2.numbers) = .ok () := by
    apply printable_ok_iff.mpr
    intro n member
    obtain ⟨entry, exported, here⟩ := List.mem_flatMap.mp member
    rcases List.mem_append.mp here with given | address
    · exact number n given
    · obtain ⟨k, below, value⟩ := within entry (List.mem_filter.mp exported).1
      have same := Value.mem_numbers address
      rw [value] at same
      apply fits_iff.mpr
      have small : n.natAbs ≤ b.lines.length := by
        rw [← same]
        exact below
      exact Nat.lt_of_le_of_lt small short
  simp only [Builder.header, given, ranges, addresses, ok_bind]
  exact ⟨_, rfl⟩

end Header

section Listing

variable {layout : Layout} {b : Builder} {image : Image}

theorem listing_rows (sound : b.Sound layout)
    (settled : ∀ line ∈ b.lines, line.pendingLabel? = none)
    (short : ∀ line ∈ b.lines, ∀ n ∈ line.numbers, Numeral.fits n = true)
    (count : image.words.length = b.lines.length) :
    ∃ rows : List Row, b.listing image = .ok (String.join (rows.map Row.text)) ∧
      rows.length = b.lines.length ∧
      ∀ (i : Nat) (row : Row), rows[i]? = some row →
        row.address = i ∧ image.words[i]? = some row.word ∧
          ∃ line, b.lines[i]? = some line ∧ row.Of layout b.labels line := by
  have each : ∀ pair ∈ b.lines.zip image.words, ∃ row : Row,
      pair.1.row layout.fields b.labels pair.2 = .ok row.text ∧
        row.word = pair.2 ∧ row.Of layout b.labels pair.1 := by
    rintro ⟨line, word⟩ member
    have held : line ∈ b.lines := (List.of_mem_zip member).1
    obtain ⟨i, here⟩ := List.mem_iff_getElem?.mp held
    exact row_of (sound.lines_sound line held) (sound.numbered i line here) (settled line held)
      (short line held) sound.labels_once sound.labels_placed word
  obtain ⟨rows, listed, along⟩ := mapM_along each
  refine ⟨rows, ?_, ?_, ?_⟩
  · simp only [Builder.listing, listingRows, sound.layout_given, Option.map_some, Option.getD_some,
      listed]
    rfl
  · rw [← along.length_eq, List.length_zip, count, Nat.min_self]
  · intro i row here
    obtain ⟨⟨line, word⟩, there, word_eq, of⟩ := along_at along here
    obtain ⟨line_at, word_at⟩ := List.getElem?_zip_eq_some.mp there
    have place : Value.int row.address = .int i :=
      of.address.symm.trans (sound.numbered i line line_at)
    cases word_eq
    exact ⟨Int.ofNat.inj (Value.int.inj place), word_at, line, line_at, of⟩

theorem listing_listed (sound : b.Sound layout)
    (settled : ∀ line ∈ b.lines, line.pendingLabel? = none)
    (short : ∀ line ∈ b.lines, ∀ n ∈ line.numbers, Numeral.fits n = true)
    (words : image.words.length = b.lines.length) : ∃ rows, Listed layout b image rows := by
  obtain ⟨rows, text, count, each⟩ := listing_rows sound settled short words
  refine ⟨rows, text, count, each, ?_⟩
  intro label n declared inside
  have labelled : ∀ (i : Nat) (row : Row), rows[i]? = some row →
      (label ∈ row.labels ↔ b.labels.lookup label = some (.int i)) := by
    intro i row here
    obtain ⟨rfl, _, line, _, of⟩ := each i row here
    exact of.labels label
  have bound : n < rows.length := by omega
  refine ⟨n, ⟨rows[n], List.getElem?_eq_getElem bound, ?_⟩, ?_⟩
  · exact (labelled n _ (List.getElem?_eq_getElem bound)).mpr declared
  · rintro i ⟨row, here, held⟩
    have other := (labelled i row here).mp held
    rw [declared] at other
    exact (Int.ofNat.inj (Value.int.inj (Option.some.inj other))).symm

theorem finalize_accepted [Machine] (sound : b.Sound layout) (unresolved : b.resolved = false)
    (accepted : b.finalize.result = .ok image) :
    b.finalize.builder.lines = b.settled ∧ image.width = layout.size := by
  have allowed := (Builder.checkFinalize_ok_iff sound.layout_given).mpr ⟨rfl, unresolved⟩
  obtain ⟨_, _, words, _, rfl⟩ := finalize_image sound.layout_given accepted
  refine ⟨?_, rfl⟩
  cases stop : resolution b.committed.labels b.committed.lines with
  | error e =>
    rw [finalize_closes allowed, stop] at accepted
    cases accepted
  | ok u =>
    rw [finalize_closes allowed, stop]
    exact settled_eq b

end Listing

/-- All outputs of an accepted program agree on its addresses. The listing has a row for every line,
with the word that the image has at its address and the labels that were declared there; a branch in
it leads to its label; and the header defines the exported labels, and only these, with the
addresses they have in the listing. -/
theorem outputs_agree [Machine] {layout : Layout} (built : layout.Built) (symbols : SymbolTable)
    (debug : Bool) (calls : List Call) {image : Image}
    (accepted : ((Builder.fresh (some layout) symbols debug).afterCalls calls).finalize.result =
      .ok image)
    (short : ∀ line ∈
      ((Builder.fresh (some layout) symbols debug).afterCalls calls).finalize.builder.lines,
      ∀ n ∈ line.numbers, Numeral.fits n = true) :
    let closed := ((Builder.fresh (some layout) symbols debug).afterCalls calls).finalize.builder
    (∃ rows, Listed layout closed image rows ∧
      ∀ fill, Numeral.fits image.depth.toInt = true → ∃ records,
        image.text fill = .ok (image.head ++ String.join records ++ "END;\n") ∧
        ∀ (i : Nat) (row : Row), rows[i]? = some row →
          records[i]? = some (Image.record row.word i)) ∧
    ∃ exported, Exports closed.labels exported ∧ ∀ width,
      (∀ text, closed.header width = .ok text →
        text = headerComment ++ String.join (layout.fields.map Field.definition) ++ "\n" ++
          String.join (exported.map (exportText width))) ∧
      ((∀ n ∈ width.numbers, Numeral.fits n = true) →
        closed.lines.length < 10 ^ Numeral.maxDigits → ∃ text, closed.header width = .ok text) := by
  intro closed
  have start := Builder.Sound.afterCalls layout symbols debug calls
  have run : Evolves layout (fun _ => True) _ closed :=
    Builder.finalize_evolves start.layout_given
  have sound : closed.Sound layout := start.evolves run
  obtain ⟨unresolved, room, settled, packs⟩ := finalize_packs built.sound start accepted
  obtain ⟨lines, size⟩ := finalize_accepted start unresolved accepted
  rw [← lines] at settled packs
  constructor
  · obtain ⟨rows, listed⟩ := listing_listed sound settled short packs.length_eq.symm
    refine ⟨rows, listed, ?_⟩
    intro fill depth
    obtain ⟨records, text, each⟩ := Image.text_records depth (size ▸ built.size_nonneg)
      (size ▸ room) fill
    refine ⟨records, text, ?_⟩
    intro i row here
    exact each i row.word (listed.each i row here).2.1
  · refine ⟨closed.exports, exports_of sound.labels_once sound.labels_placed, ?_⟩
    intro width
    exact ⟨fun text made => header_text sound.layout_given sound.labels_placed made,
      header_ok built.sound sound.layout_given room sound.labels_within⟩

/-- A branch to the second of two lines, and exported labels at the first line and past the last. -/
theorem outputs_agree_two_lines :
    let calls : List Call :=
      [.declareLabel "MICROPC_GO", .referenceLabel "a", .endLine, .declareLabel "a",
        .declareLabel "b", .assignValue "OP_" (.value (.int 3)), .endLine,
        .declareLabel "MICROPC_END"]
    let b := (Builder.fresh (some Layout.small) [] false).afterCalls calls
    let closed := b.finalize.builder
    let image : Image := ⟨.int 2, .int 7, ["0001000", "0000011"]⟩
    Layout.small.Built ∧ b.finalize.result = .ok image ∧
      (∀ line ∈ closed.lines, ∀ n ∈ line.numbers, Numeral.fits n = true) ∧
      (∃ rows, Listed Layout.small closed image rows) ∧
      closed.listing image = .ok
        ("00000 | 0001000 | PROCEDURE_=1(@a) <- label: MICROPC_GO\n" ++
          "00001 | 0000011 | OP_=3 <- label: a, b\n") ∧
      image.text false = .ok
        ("DEPTH = 2;\nWIDTH = 7;\nADDRESS_RADIX = DEC;\nDATA_RADIX = BIN;\nCONTENT\nBEGIN\n" ++
          "     0: 0001000;\n     1: 0000011;\nEND;\n") ∧
      ∃ exported, Exports closed.labels exported ∧
        ("MICROPC_END", 2) ∈ exported ∧ ("a", 1) ∉ exported := by
  intro calls b closed image
  have accepted : b.finalize.result = .ok image := by decide +kernel
  have short : ∀ line ∈ closed.lines, ∀ n ∈ line.numbers, Numeral.fits n = true := by
    decide +kernel
  obtain ⟨⟨rows, listed, _⟩, exported, exports, _⟩ :=
    outputs_agree Layout.small_built [] false calls accepted short
  have last : ("MICROPC_END", 2) ∈ exported := (exports.marked _ _).mpr (by decide +kernel)
  have unmarked : ("a", 1) ∉ exported := fun held =>
    absurd ((exports.marked _ _).mp held).1 (by decide +kernel)
  exact ⟨Layout.small_built, accepted, short, ⟨rows, listed⟩, by decide +kernel, by decide +kernel,
    exported, exports, last, unmarked⟩

end Microcode
