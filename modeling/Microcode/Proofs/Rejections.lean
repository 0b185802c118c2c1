import Microcode.Proofs.Comments
import Microcode.Proofs.Positions
import Microcode.Proofs.StreamAssembly
import Mathlib.Data.List.TakeWhile

/-!
How files are rejected. What is wrong with a layout file, a stream file or the lines read from it
is a fault, and a fault is told as such. There are two limits to this: a number of more than
`maxDigits` digits has no decimal text, so a message that shows it cannot be made, and a word or a
branch field may be too wide for the machine.
-/
namespace Microcode

/-! Layout files. -/

def Declaration.numbers : Declaration → List Int
  | field _ low high => [low, high]
  | width n => [n]
  | _ => []

/-- Whether every number that a layout file gives for its layout has a decimal text. -/
def PrintableDeclarations (lines : List String) : Prop :=
  ∀ raw ∈ lines, ∀ d, Declaration.ofText? raw = some d → ∀ n ∈ d.numbers, Numeral.fits n = true

namespace Layout

inductive Uses (ranges : Assoc (Value × Value)) (width : Option Value) : Int → Prop where
  | low {range : String × Value × Value} {n : Int} (given : range ∈ ranges)
      (shown : n ∈ range.2.1.numbers) : Uses ranges width n
  | high {range : String × Value × Value} {n : Int} (given : range ∈ ranges)
      (shown : n ∈ range.2.2.numbers) : Uses ranges width n
  | width {w : Value} {n : Int} (given : width = some w) (shown : n ∈ w.numbers) :
      Uses ranges width n
  | bottom : Uses ranges width (-1)

structure Unbuildable (ranges : Assoc (Value × Value)) (width : Option Value) (cause : Cause) :
    Prop where
  kind : cause.kind = .parse
  uses : ∀ n ∈ cause.numbers, Uses ranges width n

variable {ranges : Assoc (Value × Value)} {width : Option Value} {fields : List Field} {e : Error}

theorem numberFields_error {index : Nat} (failed : numberFields index ranges = .error e) :
    ∃ cause, Unbuildable ranges width cause ∧ e = cause.report := by
  induction ranges generalizing index e with
  | nil => cases failed
  | cons range rest ih =>
    obtain ⟨stem, low, high⟩ := range
    unfold numberFields at failed
    split at failed
    · exact ⟨.emptyStem, ⟨rfl, by simp [Cause.numbers]⟩, (Except.error.inj failed).symm⟩
    · split at failed
      · exact ⟨.stemNotAscii stem, ⟨rfl, by simp [Cause.numbers]⟩, (Except.error.inj failed).symm⟩
      · split at failed
        · cases later : numberFields (index + 1) rest with
          | ok fields =>
            rw [later] at failed
            cases failed
          | error e' =>
            rw [later] at failed
            obtain ⟨cause, ⟨kind, uses⟩, told⟩ := ih later
            refine ⟨cause, ⟨kind, ?_⟩, (Except.error.inj failed).symm.trans told⟩
            intro n shown
            cases uses n shown with
            | low given shown => exact .low (List.mem_cons_of_mem _ given) shown
            | high given shown => exact .high (List.mem_cons_of_mem _ given) shown
            | width given shown => exact .width given shown
            | bottom => exact .bottom
        · refine ⟨.invalidRange stem low high, ⟨rfl, ?_⟩, (Except.error.inj failed).symm⟩
          intro n shown
          rcases List.mem_append.mp shown with shown | shown
          · exact .low List.mem_cons_self shown
          · exact .high List.mem_cons_self shown

theorem Uses.of_field {f : Field} {index : Nat} {n : Int}
    (numbered : numberFields index ranges = .ok fields) (member : f ∈ fields)
    (shown : n ∈ f.first.numbers ∨ n ∈ f.last.numbers) : Uses ranges width n := by
  have given : f.entry ∈ ranges := (numberFields_ok numbered).1 ▸ List.mem_map_of_mem member
  rcases shown with shown | shown
  · exact .low given shown
  · exact .high given shown

theorem topBit_cases (fields : List Field) :
    topBit fields = .int (-1) ∨ ∃ f ∈ fields, topBit fields = f.last := by
  unfold topBit
  -- the highest bit so far is kept or replaced by the one of the next field
  generalize Value.int (-1) = start
  induction fields generalizing start with
  | nil => exact .inl rfl
  | cons f rest ih =>
    rw [List.foldl_cons]
    rcases ih (if start.toInt < f.last.toInt then f.last else start) with same | ⟨g, member, same⟩
    · rw [same]
      split
      · exact .inr ⟨f, List.mem_cons_self, rfl⟩
      · exact .inl rfl
    · exact .inr ⟨g, List.mem_cons_of_mem _ member, same⟩

theorem neighboursSharing_mem {f g : Field} (shared : neighboursSharing fields = some (f, g)) :
    f ∈ fields ∧ g ∈ fields := by
  fun_induction neighboursSharing fields with
  | case1 first second rest close =>
    cases shared
    simp
  | case2 first second rest apart ih =>
    obtain ⟨one, other⟩ := ih shared
    exact ⟨List.mem_cons_of_mem _ one, List.mem_cons_of_mem _ other⟩
  | case3 => cases shared

theorem ofRanges_error (failed : ofRanges ranges width = .error e) :
    ∃ cause, Unbuildable ranges width cause ∧ e = cause.report := by
  unfold ofRanges at failed
  rcases bind_error_iff.mp failed with early | ⟨fields, numbered, late⟩
  · exact numberFields_error early
  · simp only [throw_eq_error, error_bind] at late
    split at late
    · rename_i narrow
      refine ⟨_, ⟨rfl, ?_⟩, (Except.error.inj late).symm⟩
      intro n shown
      rcases List.mem_append.mp shown with shown | shown
      · cases width with
        | none =>
          rw [Option.getD_none, Value.toInt] at narrow
          omega
        | some w => exact .width rfl shown
      · rcases topBit_cases fields with bottom | ⟨f, member, same⟩
        · rw [bottom] at shown
          cases List.mem_singleton.mp shown
          exact .bottom
        · exact .of_field numbered member (.inr (same ▸ shown))
    · split at late
      · rename_i f g shared
        obtain ⟨one, other⟩ := neighboursSharing_mem shared
        have perm := sortByLow_perm fields
        refine ⟨_, ⟨rfl, ?_⟩, (Except.error.inj late).symm⟩
        intro n shown
        simp only [Cause.numbers, List.mem_append, or_assoc] at shown
        rcases shown with shown | shown | shown | shown
        · exact .of_field numbered (perm.mem_iff.mp one) (.inl shown)
        · exact .of_field numbered (perm.mem_iff.mp one) (.inr shown)
        · exact .of_field numbered (perm.mem_iff.mp other) (.inl shown)
        · exact .of_field numbered (perm.mem_iff.mp other) (.inr shown)
      · cases late

theorem build_error [Machine] (failed : (build ranges width).result = .error e) :
    (∃ cause, Unbuildable ranges width cause ∧ e = cause.report) ∨
      ∃ low high : Value, (branchStem, low, high) ∈ ranges ∧
        Capacity.powerOfTwo (high.toInt.toNat - low.toInt.toNat + 1) = .error e := by
  unfold build at failed
  rcases Logged.bind_error_iff.mp failed with early | ⟨layout, made, late⟩
  · exact .inl (ofRanges_error early)
  · rcases Logged.bind_error_iff.mp late with wide | ⟨_, _, impossible⟩
    · have numbered := (ofRanges_ok_iff.mp made).1
      rw [Logged.ofExcept_result, judgeable] at wide
      split at wide
      · rename_i f found
        obtain ⟨member, named⟩ := field?_some found
        have given : f.entry ∈ ranges := (numberFields_ok numbered).1 ▸ List.mem_map_of_mem member
        exact .inr ⟨f.first, f.last, named ▸ given, wide⟩
      · cases wide
    · cases impossible

end Layout

theorem Numeral.Digitless.told {s : List Char} {cause : Cause} (bare : Digitless s cause) :
    cause.kind = .parse ∧
      Fault.report ⟨cause, none, none⟩ = .fault ⟨cause, none, none⟩ := by
  cases bare <;> exact ⟨rfl, rfl⟩

theorem LayoutDraft.Refuses.told {lineNumber : Nat} {words : List String} {e : Error}
    (refused : LayoutDraft.Refuses lineNumber words e)
    (short : lineNumber < 10 ^ Numeral.maxDigits) :
    ∃ f : Fault, f.cause.kind = .parse ∧ e = f.report ∧ f.report = .fault f := by
  cases refused with
  | placed silent kind =>
    refine ⟨_, kind, rfl, report_of_fits ?_⟩
    intro n shown
    rw [Fault.numbers, silent] at shown
    cases (by simpa [Value.numbers] using shown : n = lineNumber)
    exact fits_iff.mpr short
  | digitless among bare => exact ⟨_, bare.told.1, bare.told.2.symm, bare.told.2⟩

theorem Declaration.mem_ranges {ds : List Declaration} {range : String × Value × Value}
    (given : range ∈ Declaration.ranges ds) :
    ∃ stem low high, .field stem low high ∈ ds ∧ range = (stem, .int low, .int high) := by
  obtain ⟨d, member, ranged⟩ := List.mem_filterMap.mp given
  cases d with
  | field stem low high => exact ⟨stem, low, high, member, (Option.some.inj ranged).symm⟩
  | _ => cases ranged

theorem Layout.Uses.declared {ds : List Declaration} {draft : LayoutDraft} {n : Int}
    (uses : Layout.Uses draft.ranges draft.width n) (holds : draft.Holds ds) :
    n = -1 ∨ ∃ d ∈ ds, n ∈ d.numbers := by
  cases uses with
  | low given shown =>
    obtain ⟨stem, low, high, member, rfl⟩ := Declaration.mem_ranges (holds.ranges ▸ given)
    cases List.mem_singleton.mp shown
    exact .inr ⟨_, member, by simp [Declaration.numbers]⟩
  | high given shown =>
    obtain ⟨stem, low, high, member, rfl⟩ := Declaration.mem_ranges (holds.ranges ▸ given)
    cases List.mem_singleton.mp shown
    exact .inr ⟨_, member, by simp [Declaration.numbers]⟩
  | @width w _ given shown =>
    have last := List.mem_of_getLast? (holds.width.symm.trans given)
    obtain ⟨d, member, wide⟩ := List.mem_filterMap.mp last
    cases d with
    | width m =>
      cases wide
      exact .inr ⟨_, member, shown⟩
    | _ => cases wide
  | bottom => exact .inl rfl

theorem readLayout_error [Machine] {lines : List String} {e : Error}
    (short : lines.length < 10 ^ Numeral.maxDigits)
    (failed : (readLayout lines false).result = .error e) :
    (∃ f : Fault, f.cause.kind = .parse ∧ e = f.report ∧
      (PrintableDeclarations lines → e = .fault f)) ∨
    ∃ raw ∈ lines, ∃ low high, Declaration.ofText? raw = some (.field branchStem low high) ∧
      Capacity.powerOfTwo (high.toNat - low.toNat + 1) = .error e := by
  unfold readLayout at failed
  rcases Logged.bind_error_iff.mp failed with stopped | ⟨draft, drafted, failed⟩
  · obtain ⟨before, raw, after, _, split, _, here⟩ := LayoutDraft.readFrom_error stopped
    have early : 1 + before.length < 10 ^ Numeral.maxDigits := by
      rw [split, List.length_append, List.length_cons] at short
      omega
    obtain ⟨f, kind, same, told⟩ := (LayoutDraft.declare_refuses here).told early
    exact .inl ⟨f, kind, same, fun _ => same.trans told⟩
  · obtain ⟨ds, declared, holds, _⟩ :=
      LayoutDraft.readFrom_holds LayoutDraft.empty_holds Declaration.Consistent.nil drafted
    rw [List.nil_append] at holds
    rcases Logged.bind_error_iff.mp failed with unbuilt | ⟨_, _, impossible⟩
    · rcases Layout.build_error unbuilt with ⟨cause, ⟨kind, uses⟩, told⟩ | ⟨low, high, given, wide⟩
      · refine .inl ⟨⟨cause, none, none⟩, kind, told, ?_⟩
        intro printable
        rw [told]
        apply report_of_fits
        intro n shown
        rcases (uses n shown).declared holds with rfl | ⟨d, member, given⟩
        · exact fits_of_small (by decide)
        · obtain ⟨raw, there, spelt⟩ := along_mem declared member
          exact printable raw there d spelt n given
      · obtain ⟨stem, low, high, member, same⟩ := Declaration.mem_ranges (holds.ranges ▸ given)
        cases same
        obtain ⟨raw, there, spelt⟩ := along_mem declared member
        exact .inr ⟨raw, there, low, high, spelt, wide⟩
    · cases impossible

/-! Stream files. -/

inductive Rejected (layout : Layout) (phrases : List Phrase) : Cause → Prop where
  | defect {p : Phrase} {cause : Cause} (among : p ∈ phrases) (why : p.Defect layout cause) :
      Rejected layout phrases cause
  | digitless {stem text : String} {cause : Cause} (among : .immediate stem text ∈ phrases)
      (bare : Numeral.Digitless (Numeral.bare text.toList) cause) : Rejected layout phrases cause
  | labelTwice {label : String} {first : Value} (among : .label label ∈ phrases) :
      Rejected layout phrases (.labelTwice label first)
  | fieldTwice {p q : Phrase} {stem : String} {held now : Token} (among : p ∈ phrases)
      (among' : q ∈ phrases) (assigns : p.Assigns layout (stem, held))
      (assigns' : q.Assigns layout (stem, now)) :
      Rejected layout phrases (.fieldTwice stem held now)

theorem Phrase.Assigns.fits {layout : Layout} {p : Phrase} {stem : String} {token : Token}
    (assigns : p.Assigns layout (stem, token)) (printable : p.Printable) :
    ∀ n ∈ token.numbers, Numeral.fits n = true := by
  intro n shown
  cases assigns with
  | immediate _ read =>
    cases List.mem_singleton.mp shown
    exact printable n read
  | branch _ _ _ => cases shown
  | symbol _ => cases shown

/-- A builder in the middle of a file: it is open, its numbers are small, and its pending line holds
what the line of text assigns. -/
structure Builder.Reading (layout : Layout) (phrases : List Phrase) (limit : Nat) (b : Builder) :
    Prop where
  unresolved : b.resolved = false
  quiet : b.debug = false
  length : b.lines.length ≤ limit
  source : ∃ k : Nat, k ≤ limit ∧ b.sourceLine = some (k : Value)
  targets : ∀ entry ∈ b.labels, ∃ n : Nat, n ≤ limit ∧ entry.2 = .int n
  held : ∀ stem token, b.current.tokens.lookup stem = some token →
    ∃ p ∈ phrases, p.Assigns layout (stem, token)

namespace Builder.Reading

variable {layout : Layout} {phrases : List Phrase} {limit : Nat} {b : Builder}

theorem faultHere_told (reading : b.Reading layout phrases limit)
    (short : limit < 10 ^ Numeral.maxDigits) {cause : Cause}
    (fit : ∀ n ∈ cause.numbers, Numeral.fits n = true) :
    b.faultHere cause = .fault ⟨cause, some (b.lines.length : Nat), b.sourceLine⟩ := by
  apply report_of_fits
  intro n shown
  rcases List.mem_append.mp shown with place | said
  · obtain ⟨k, small, marked⟩ := reading.source
    have length := reading.length
    rw [marked] at place
    have either : n = b.lines.length ∨ n = k := by simpa [Value.numbers] using place
    apply fits_iff.mpr
    omega
  · exact fit n said

theorem rejected (reading : b.Reading layout phrases limit)
    (short : limit < 10 ^ Numeral.maxDigits) {e : Error} (refused : b.Refuses layout phrases e) :
    ∃ f : Fault, Rejected layout phrases f.cause ∧ e = f.report ∧
      ((f.cause.kind = .duplicateField → ∀ p ∈ phrases, p.Printable) → e = .fault f) := by
  cases refused with
  | closed late => cases reading.unresolved.symm.trans late
  | untellable on => cases reading.quiet.symm.trans on
  | defect among why =>
    refine ⟨_, .defect among why, rfl, fun _ => reading.faultHere_told short ?_⟩
    simp [why.silent]
  | @digitless stem text cause among bare =>
    exact ⟨⟨cause, none, none⟩, .digitless among bare, bare.told.2.symm, fun _ => rfl⟩
  | labelTwice among declared =>
    refine ⟨_, .labelTwice among, rfl, fun _ => reading.faultHere_told short ?_⟩
    obtain ⟨first, small, same⟩ := reading.targets _ (Assoc.mem_of_lookup declared)
    intro n shown
    cases same
    cases List.mem_singleton.mp shown
    apply fits_iff.mpr
    omega
  | @fieldTwice p stem held now among assigns there =>
    obtain ⟨q, among', assigns'⟩ := reading.held stem held there
    refine ⟨_, .fieldTwice among' among assigns' assigns, rfl, ?_⟩
    intro printable
    apply reading.faultHere_told short
    intro n shown
    rcases List.mem_append.mp shown with shown | shown
    · exact assigns'.fits (printable rfl q among') n shown
    · exact assigns.fits (printable rfl p among) n shown

end Builder.Reading

section

variable {layout : Layout} {symbols : SymbolTable} {texts : List String} {e : Error}

theorem readStream_sound (layout : Layout) (symbols : SymbolTable) (texts : List String) :
    let b := ((Builder.fresh (some layout) symbols false).readStream texts false).builder
    b.Sound layout ∧ b.lines.length ≤ texts.length ∧
      b.SourcedBy fun v => ∃ k : Nat, k ≤ texts.length ∧ v = .int k := by
  have size : sessionSize [.readStream texts false] = texts.length := by
    simp [sessionSize, Call.size]
  have length := Builder.afterCalls_length_le (b := .fresh (some layout) symbols false) rfl
    [.readStream texts false]
  rw [size, Builder.fresh, List.length_nil, Nat.zero_add] at length
  exact ⟨.afterCalls layout symbols false [.readStream texts false], length,
    .afterCalls layout symbols false (Nat.le_of_eq size)⟩

theorem readStream_stops
    (failed : ((Builder.fresh (some layout) symbols false).readStream texts false).result =
      .error e) :
    ∃ raw ∈ texts, ∃ b : Builder,
      ((Builder.fresh (some layout) symbols false).readStream texts false).builder = b ∧
      b.Reading layout (Phrase.ofText raw) texts.length ∧
      b.Refuses layout (Phrase.ofText raw) e := by
  obtain ⟨stopped, left⟩ := Builder.readStream_error failed
  obtain ⟨before, raw, after, split, read, here, leaves⟩ := Builder.readFrom_error stopped
  -- the line of text is met by a builder that has nothing pending
  obtain ⟨lines, labels, source, met, _⟩ := readFrom_fresh.2 read
  rw [met] at here leaves
  have reads := Builder.readLine_reads rfl here
  have last := left.trans leaves
  obtain ⟨sound, length, _⟩ := readStream_sound layout symbols texts
  rw [last] at sound length
  refine ⟨raw, by simp [split], _, last, ?_, reads.refused e here⟩
  constructor
  · exact reads.continues.resolved
  · exact reads.continues.debug
  · exact length
  · refine ⟨1 + before.length, ?_, reads.continues.sourceLine⟩
    rw [split, List.length_append, List.length_cons]
    omega
  · intro entry member
    obtain ⟨n, within, same⟩ := sound.labels_within entry member
    exact ⟨n, Nat.le_trans within length, same⟩
  · intro stem token there
    rcases reads.held stem token there with impossible | assigned
    · cases impossible
    · exact assigned

/-- A stream file that a new builder does not read is rejected for one of its lines, with a fault
if the message can be made; only the message about a field that is assigned twice may fail. -/
theorem readStream_rejected (short : texts.length < 10 ^ Numeral.maxDigits)
    (failed : ((Builder.fresh (some layout) symbols false).readStream texts false).result =
      .error e) :
    ∃ raw ∈ texts, ∃ f : Fault, Rejected layout (Phrase.ofText raw) f.cause ∧ e = f.report ∧
      ((f.cause.kind = .duplicateField → ∀ p ∈ Phrase.ofText raw, p.Printable) → e = .fault f) := by
  obtain ⟨raw, member, b, _, reading, refused⟩ := readStream_stops failed
  exact ⟨raw, member, reading.rejected short refused⟩

theorem readStream_unresolved (layout : Layout) (symbols : SymbolTable) (texts : List String) :
    ((Builder.fresh (some layout) symbols false).readStream texts false).builder.resolved =
      false := by
  cases result : ((Builder.fresh (some layout) symbols false).readStream texts false).result with
  | error e =>
    obtain ⟨_, _, b, left, reading, _⟩ := readStream_stops result
    rw [left]
    exact reading.unresolved
  | ok n =>
    obtain ⟨lines, labels, left, _⟩ := (readStream_result false).2 n result
    rw [left]
    rfl

theorem finalize_rejected [Machine] (built : layout.Built)
    (short : texts.length < 10 ^ Numeral.maxDigits) {b : Builder}
    (left : ((Builder.fresh (some layout) symbols false).readStream texts false).builder = b)
    (failed : b.finalize.result = .error e) :
    (∃ f, e = .fault f ∧ ∃ line ∈ b.flushed, BadBranch b.labels line f ∨
      ∃ field ∈ layout.fields, MissingSymbol b.symbols line field f) ∨
    (Machine.memoryLimit < layout.width * 8 ∧ Capacity.buffer layout.width = .error e) := by
  obtain ⟨sound, length, sourced⟩ := readStream_sound layout symbols texts
  have unresolved := readStream_unresolved layout symbols texts
  rw [left] at sound length sourced unresolved
  have below := flushed_below sound sourced length
  have targets : ∀ entry ∈ b.labels, ∃ n : Nat, n ≤ texts.length ∧ entry.2 = .int n := by
    intro entry member
    obtain ⟨n, within, same⟩ := sound.labels_within entry member
    exact ⟨n, Nat.le_trans within length, same⟩
  have outcome := finalize_finalized built.sound sound unresolved
  generalize b.finalize.result = result at failed outcome
  cases outcome with
  | @badBranch line fault first why =>
    have told := report_of_small (why.small (below line first.mem) targets) short
    exact .inl ⟨fault, (Except.error.inj failed).symm.trans told, line, first.mem, .inl why⟩
  | noMemory reached full why =>
    cases failed
    exact .inr ⟨full, why⟩
  | @missingSymbol line field fault reached room first owner why =>
    have told := report_of_small (why.small (below line first.mem)) short
    exact .inl ⟨fault, (Except.error.inj failed).symm.trans told, line, first.mem,
      .inr ⟨field, owner.mem, why⟩⟩
  | packed => cases failed

end

/-- Files are rejected with faults. A message about the ranges or the width of a layout, or about a
field that is assigned twice, fails if a number in it is too long to print, and a branch field or a
word may be too wide for the machine; nothing else is no fault. -/
theorem rejections_are_faults [Machine] (layoutTexts texts : List String)
    (short : layoutTexts.length < 10 ^ Numeral.maxDigits)
    (short' : texts.length < 10 ^ Numeral.maxDigits) :
    (∀ e, (readLayout layoutTexts false).result = .error e →
      (∃ f : Fault, f.cause.kind = .parse ∧ e = f.report ∧
        (PrintableDeclarations layoutTexts → e = .fault f)) ∨
      ∃ raw ∈ layoutTexts, ∃ low high,
        Declaration.ofText? raw = some (.field branchStem low high) ∧
        Capacity.powerOfTwo (high.toNat - low.toNat + 1) = .error e) ∧
    ∀ layout symbols, (readLayout layoutTexts false).result = .ok (layout, symbols) →
      let read := (Builder.fresh (some layout) symbols false).readStream texts false
      (∀ e, read.result = .error e →
        ∃ raw ∈ texts, ∃ f : Fault, Rejected layout (Phrase.ofText raw) f.cause ∧ e = f.report ∧
          ((f.cause.kind = .duplicateField → ∀ p ∈ Phrase.ofText raw, p.Printable) →
            e = .fault f)) ∧
      ∀ e, read.builder.finalize.result = .error e →
        (∃ f, e = .fault f ∧ ∃ line ∈ read.builder.flushed,
          BadBranch read.builder.labels line f ∨
          ∃ field ∈ layout.fields, MissingSymbol read.builder.symbols line field f) ∨
        (Machine.memoryLimit < layout.width * 8 ∧ Capacity.buffer layout.width = .error e) := by
  refine ⟨fun e failed => readLayout_error short failed, ?_⟩
  intro layout symbols laid read
  constructor
  · intro e failed
    exact readStream_rejected short' failed
  · intro e failed
    exact finalize_rejected (readLayout_built laid) short' rfl failed

/-- A layout declares a field twice; a line of text assigns a field twice, and the line before it
has a symbol that nothing defines. -/
theorem rejections_are_faults_met :
    let files := ["#field OP_ 0 2", "#field OP_ 3 4"]
    let texts := ["OP_ADD", "OP_SUB OP_=1"]
    let layout : Layout := ⟨[⟨0, "OP_", .int 0, .int 2, by decide⟩], .int 3⟩
    let read := (Builder.fresh (some layout) [] false).readStream texts false
    (readLayout (files.take 1) false).result = .ok (layout, []) ∧
    (∃ e, (readLayout files false).result = .error e ∧
      ((∃ f : Fault, f.cause.kind = .parse ∧ e = f.report ∧
        (PrintableDeclarations files → e = .fault f)) ∨
      ∃ raw ∈ files, ∃ low high, Declaration.ofText? raw = some (.field branchStem low high) ∧
        Capacity.powerOfTwo (high.toNat - low.toNat + 1) = .error e)) ∧
    (∃ raw ∈ texts, ∃ f : Fault, Rejected layout (Phrase.ofText raw) f.cause ∧
      read.result = .error f.report) ∧
    ∃ f, read.builder.finalize.result = .error (.fault f) ∧ ∃ line ∈ read.builder.flushed,
      BadBranch read.builder.labels line f ∨
      ∃ field ∈ layout.fields, MissingSymbol read.builder.symbols line field f := by
  intro files texts layout read
  have short : ∀ xs : List String, xs.length ≤ 2 → xs.length < 10 ^ Numeral.maxDigits :=
    fun xs few => Nat.lt_of_le_of_lt few (by decide +kernel)
  have laid : (readLayout (files.take 1) false).result = .ok (layout, []) := by decide +kernel
  have unlaid : (readLayout files false).result =
    .error (.fault ⟨.fieldRedefined "OP_", none, some (.int 2)⟩) := by decide +kernel
  have unread : read.result = .error (.fault ⟨.fieldTwice "OP_" (.symbol "OP_SUB")
    (.literal (.int 1)), some (.int 1), some (.int 2)⟩) := by decide +kernel
  have unpacked : read.builder.finalize.result =
    .error (.fault ⟨.unknownSymbol "OP_ADD", some (.int 0), some (.int 1)⟩) := by decide +kernel
  obtain ⟨layouts, _⟩ := rejections_are_faults files texts (short _ (by decide))
    (short _ (by decide))
  obtain ⟨_, streams⟩ := rejections_are_faults (files.take 1) texts (short _ (by decide))
    (short _ (by decide))
  obtain ⟨reads, finalizes⟩ := streams layout [] laid
  refine ⟨laid, ⟨_, unlaid, layouts _ unlaid⟩, ?_, ?_⟩
  · obtain ⟨raw, member, f, rejected, same, _⟩ := reads _ unread
    exact ⟨raw, member, f, rejected, unread.trans (congrArg Except.error same)⟩
  · rcases finalizes _ unpacked with ⟨f, same, about⟩ | ⟨full, _⟩
    · exact ⟨f, unpacked.trans (congrArg Except.error same), about⟩
    · exact absurd full (by decide)

/-! A width that no message can show. -/

namespace Text

theorem trimRight_concat {last : Char} (visible : isBlank last = false) (s : List Char) :
    trimRight (s ++ [last]) = s ++ [last] := by
  rw [trimRight, List.reverse_concat, List.dropWhile_cons_of_neg (by simp [visible]),
    List.reverse_cons, List.reverse_reverse]

theorem trim_between {first last : Char} (visible : isBlank first = false)
    (visible' : isBlank last = false) (s : List Char) :
    trim (first :: (s ++ [last])) = first :: (s ++ [last]) := by
  rw [trim, trimLeft, List.dropWhile_cons_of_neg (by simp [visible])]
  exact trimRight_concat visible' (first :: s)

theorem pieces_word {word : List Char} (visible : ∀ c ∈ word, isBlank c = false) :
    pieces isBlank word = [word] := by
  induction word with
  | nil => rfl
  | cons c later ih =>
    obtain ⟨here, there⟩ := List.forall_mem_cons.mp visible
    rw [pieces, ih there, here]
    rfl

theorem words_pair {first second : List Char} (visible : ∀ c ∈ first, isBlank c = false)
    (visible' : ∀ c ∈ second, isBlank c = false) (full : first ≠ []) (full' : second ≠ []) :
    words (first ++ ' ' :: second) = [first, second] := by
  rw [words, pieces_append visible rfl, pieces_word visible']
  simp [full, full']

end Text

theorem digitsValue_zeros (n k : Nat) :
    (List.replicate k '0').foldl (fun n c => n * 16 + (Numeral.digitValue? c).getD 0) n =
      n * 16 ^ k := by
  induction k generalizing n with
  | zero => simp
  | succ k ih =>
    rw [List.replicate_succ, List.foldl_cons, ih, Nat.pow_succ', ← Nat.mul_assoc]
    rfl

def minusPower (k : Nat) : List Char := '-' :: '0' :: 'x' :: '1' :: List.replicate (k + 1) '0'

theorem minusPower_plain (k : Nat) :
    ∀ c ∈ minusPower k, Text.isBlank c = false ∧ c ≠ '_' ∧ c ≠ '/' := by
  intro c member
  simp only [minusPower, List.mem_cons, List.mem_replicate] at member
  rcases member with rfl | rfl | rfl | rfl | ⟨_, rfl⟩ <;> decide

theorem ofDigits_power (k : Nat) :
    Numeral.ofDigits 16 ('0' :: 'x' :: '1' :: List.replicate k '0') = .ok (16 ^ k : Nat) := by
  have plain : ('0' :: 'x' :: '1' :: List.replicate k '0').map Numeral.plainChar =
      '0' :: 'x' :: '1' :: List.replicate k '0' := by
    rw [List.map_cons, List.map_cons, List.map_cons, List.map_replicate]
    rfl
  have digits : ∀ c ∈ '1' :: List.replicate k '0', Numeral.isDigitOf 16 c = true := by
    intro c member
    rcases List.mem_cons.mp member with rfl | zero
    · decide
    · rw [(List.mem_replicate.mp zero).2]
      decide
  have body : Numeral.dropBaseMark 16 ('0' :: 'x' :: '1' :: List.replicate k '0') =
      '1' :: List.replicate k '0' := rfl
  have value : Numeral.digitsValue 16 ('1' :: List.replicate k '0') = 16 ^ k := by
    rw [Numeral.digitsValue, List.foldl_cons, digitsValue_zeros]
    exact Nat.one_mul _
  have sign : Numeral.takeSign ('0' :: 'x' :: '1' :: List.replicate k '0') =
      (false, '0' :: 'x' :: '1' :: List.replicate k '0') := rfl
  unfold Numeral.ofDigits
  rw [plain, List.dropWhile_cons_of_neg (by decide), sign]
  dsimp only
  rw [body, List.takeWhile_eq_self_iff.mpr digits, List.dropWhile_eq_nil_iff.mpr digits, value]
  rfl

theorem read_minusPower (k : Nat) :
    Numeral.read (String.ofList (minusPower k)) = .ok (-(16 ^ (k + 1) : Nat)) := by
  have trimmed : Text.trim (minusPower k) = minusPower k := by
    rw [minusPower, List.replicate_succ']
    exact Text.trim_between (by decide) (by decide) ('0' :: 'x' :: '1' :: List.replicate k '0')
  have bare : (minusPower k).filter (· != '_') = minusPower k := by
    apply List.filter_eq_self.mpr
    intro c member
    exact bne_iff_ne.mpr (minusPower_plain k c member).2.1
  have power : Numeral.unsigned ('0' :: 'x' :: '1' :: List.replicate (k + 1) '0') =
      .ok (16 ^ (k + 1) : Nat) := ofDigits_power (k + 1)
  rw [Numeral.read, String.toList_ofList, Numeral.readChars, Numeral.compact, trimmed, bare,
    minusPower]
  simp only [power, Except.map]

theorem width_minusPower (k : Nat) :
    Declaration.ofText? (String.ofList ("#width ".toList ++ minusPower k)) =
      some (.width (-(16 ^ (k + 1) : Nat))) := by
  have line : "#width ".toList ++ minusPower k =
      '#' :: ("width -0x1".toList ++ List.replicate k '0' ++ ['0']) := by
    rw [minusPower, List.replicate_succ']
    rfl
  have plain : '/' ∉ "#width ".toList ++ minusPower k := by
    intro member
    rcases List.mem_append.mp member with first | second
    · revert first
      decide
    · exact (minusPower_plain k _ second).2.2 rfl
  have visible : ∀ c ∈ minusPower k, Text.isBlank c = false :=
    fun c member => (minusPower_plain k c member).1
  have stripped : Text.stripComment (String.ofList ("#width ".toList ++ minusPower k)) =
      String.ofList ("#width ".toList ++ minusPower k) := by
    rw [Text.stripComment, String.toList_ofList, Text.stripCommentChars]
    rw [line, Text.trim_between (by decide) (by decide), ← line, Text.beforeComment_plain plain,
      line]
    exact congrArg String.ofList (Text.trimRight_concat (by decide) ('#' :: _))
  have split : Text.wordsOf (String.ofList ("#width ".toList ++ minusPower k)) =
      ["#width", String.ofList (minusPower k)] := by
    have directive : "#width".toList.all (fun c => !Text.isBlank c) = true := by decide
    have words : Text.words ("#width ".toList ++ minusPower k) = ["#width".toList, minusPower k] :=
      @Text.words_pair "#width".toList (minusPower k)
        (fun c member => by simpa using List.all_eq_true.mp directive c member) visible (by simp)
        (by simp [minusPower])
    rw [Text.wordsOf, String.toList_ofList, words]
    rfl
  rw [Declaration.ofText?, stripped, split]
  simp only [Declaration.ofWords?, read_minusPower, Except.toOption, Option.map_some]

theorem readLayout_negative [Machine] {raw : String} {n : Int}
    (declared : Declaration.ofText? raw = some (.width n)) (negative : n < 0) :
    (readLayout [raw] false).result =
      .error (Cause.widthTooSmall (.int n) (.int (-1))).report := by
  have consistent : Declaration.Consistent ([] ++ [.width n]) :=
    ⟨List.nodup_nil, by simp⟩
  obtain ⟨draft, read, holds⟩ :=
    LayoutDraft.readFrom_ok LayoutDraft.empty_holds (.cons declared .nil) consistent 1
  have narrow : Layout.ofRanges [] (some (.int n)) =
      .error (Cause.widthTooSmall (.int n) (.int (-1))).report := by
    have small : (Value.int n).toInt ≤ (Layout.topBit []).toInt := by
      change n ≤ -1
      omega
    simp only [Layout.ofRanges, Layout.numberFields, ok_bind, Option.getD_some, if_pos small,
      throw_eq_error, error_bind]
    rfl
  apply Logged.bind_error_iff.mpr
  refine .inr ⟨draft, read, ?_⟩
  apply Logged.bind_error_iff.mpr
  rw [holds.ranges, holds.width]
  exact .inl (Logged.bind_error_iff.mpr (.inl narrow))

/-- The width is refused, since it is below zero, but the message about it cannot be made. -/
theorem width_too_long_to_refuse :
    (readLayout [String.ofList ("#width -0x1".toList ++ List.replicate 3600 '0')] false).result =
      .error .tooLongToPrint := by
  have declared := width_minusPower 3599
  have refused := readLayout_negative declared (by decide +kernel)
  have long : Cause.report (.widthTooSmall (.int (-(16 ^ (3599 + 1) : Nat))) (.int (-1))) =
    .tooLongToPrint := by decide +kernel
  exact refused.trans (congrArg Except.error long)

end Microcode
