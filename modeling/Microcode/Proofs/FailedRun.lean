import Microcode.Command
import Microcode.Proofs.Ascii
import Microcode.Proofs.Declarations
import Microcode.Proofs.StreamAssembly

/-!
Runs that fail. Nothing is written before everything is rendered, and nothing that is shown
afterwards can fail: whatever it prints was printed before, or is small. What is left are the files
themselves: an output file that cannot be opened or has no room for its text, and a log file that
has no room for what was told. A run that fails for any other reason leaves all files as they were,
apart from its log.
-/
namespace Microcode

def Occasion.logText (occasion : Occasion) (told : List Notice) : String :=
  LogFile.text ⟨"", occasion, 0⟩ told

namespace Command

/-- The disk on which a run starts: with its log file open, if it was asked for. -/
def opening (settings : Settings) (occasion : Occasion) (fs : FileSystem) : Except FileFault Disk :=
  if settings.log then
    (fs.create (logPath settings)).map fun made => ⟨made.1, some ⟨made.2, occasion, 0⟩⟩
  else .ok ⟨fs, none⟩

/-- The file that the log goes to, if one is asked for: where the absolute form of its path
leads. -/
def logFile? (settings : Settings) (fs : FileSystem) : Option String :=
  if settings.log then
    match fs.follow [] (fs.absoluteNames (logPath settings)) with
    | .ok (.file key _) | .ok (.free key) => some key
    | _ => none
  else none

/-- Whether a run gets as far as its output files, and cannot open one of them or has no room for
it. -/
def OutputRefused [Machine] (settings : Settings) (occasion : Occasion) (fs : FileSystem) : Prop :=
  ∃ disk made before output after failure,
    opening settings occasion fs = .ok disk ∧ (prepare settings disk).result = .ok made ∧
    outputs settings made = before ++ output :: after ∧
    (writeOutput (writeOutputs (disk.record (prepare settings disk).events) before).1.files
      output).2 = .error failure

/-- Whether a run gets as far as its output files, and has no room in its log for what it tells. -/
def LogRefused [Machine] (settings : Settings) (occasion : Occasion) (fs : FileSystem) : Prop :=
  ∃ disk made key most,
    opening settings occasion fs = .ok disk ∧ (prepare settings disk).result = .ok made ∧
    logFile? settings fs = some key ∧ fs.room.lookup key = some most ∧
    most < (occasion.logText
      (notices (perform settings occasion.elapsed disk).2.events)).utf8ByteSize

end Command

/-! Files. -/

theorem FileSystem.setContent_lookup {fs : FileSystem} {key other : String} (content : List UInt8)
    (apart : key ≠ other) :
    (fs.setContent key content).nodes.lookup other = fs.nodes.lookup other := by
  unfold setContent
  split
  · rfl
  · rw [Assoc.lookup_put, if_neg fun same => apart same.symm]

/-- A disk whose files are as they were, apart from the one that its log is. -/
structure Disk.Keeps (fs : FileSystem) (spared : Option String) (disk : Disk) : Prop where
  log : disk.log.map LogFile.key = spared
  files : ∀ key, spared ≠ some key → disk.files.nodes.lookup key = fs.nodes.lookup key

theorem Disk.Keeps.record {fs : FileSystem} {spared : Option String} {disk : Disk}
    (keeps : disk.Keeps fs spared) (events : List Event) :
    (disk.record events).Keeps fs spared := by
  unfold Disk.record
  split
  · exact keeps
  · rename_i log opened
    have known : some log.key = spared := by
      rw [← keeps.log, opened]
      rfl
    refine ⟨known, ?_⟩
    intro key apart
    refine Eq.trans ?_ (keeps.files key apart)
    dsimp only [FileSystem.writeAt]
    split
    · rfl
    · exact FileSystem.setContent_lookup _ fun same => apart (known ▸ congrArg some same)

theorem create_ok {fs fs' : FileSystem} {path key : String}
    (created : fs.create path = .ok (fs', key)) :
    fs' = fs.setContent key [] ∧
      ((∃ content, fs.follow [] (fs.absoluteNames path) = .ok (.file key content)) ∨
        fs.follow [] (fs.absoluteNames path) = .ok (.free key)) := by
  unfold FileSystem.create at created
  dsimp only at created
  obtain ⟨_, _, created⟩ := bind_ok_iff.mp created
  split at created
  · cases created
  · obtain ⟨place, found, created⟩ := bind_ok_iff.mp created
    cases place with
    | directory => cases created
    | file key' content =>
      cases created
      exact ⟨rfl, .inl ⟨content, found⟩⟩
    | free key' =>
      cases created
      exact ⟨rfl, .inr found⟩

theorem opening_keeps {settings : Settings} {occasion : Occasion} {fs : FileSystem} {disk : Disk}
    (opened : Command.opening settings occasion fs = .ok disk) :
    disk.Keeps fs (Command.logFile? settings fs) := by
  unfold Command.opening at opened
  unfold Command.logFile?
  split at opened
  · rename_i asked
    rw [if_pos asked]
    cases created : fs.create (Command.logPath settings) with
    | error fault =>
      rw [created] at opened
      cases opened
    | ok made =>
      obtain ⟨fs', key⟩ := made
      rw [created] at opened
      cases opened
      obtain ⟨rfl, found⟩ := create_ok created
      have file : (match fs.follow [] (fs.absoluteNames (Command.logPath settings)) with
          | .ok (.file key _) | .ok (.free key) => some key
          | _ => none) = some key := by
        rcases found with ⟨content, found⟩ | found <;> rw [found]
      rw [file]
      refine ⟨rfl, ?_⟩
      intro other apart
      exact FileSystem.setContent_lookup [] fun same => apart (congrArg some same)
  · rename_i unasked
    rw [if_neg unasked]
    cases opened
    exact ⟨rfl, fun _ _ => rfl⟩

theorem writeOutputs_error_iff {disk : Disk} {outputs : List Command.Output} :
    (∃ failure, (Command.writeOutputs disk outputs).2.result = .error failure) ↔
      ∃ before output after failure, outputs = before ++ output :: after ∧
        (Command.writeOutput (Command.writeOutputs disk before).1.files output).2 =
          .error failure := by
  induction outputs generalizing disk with
  | nil =>
    constructor
    · rintro ⟨failure, impossible⟩
      cases impossible
    · rintro ⟨before, output, after, failure, impossible, _⟩
      simp at impossible
  | cons first rest ih =>
    rw [Command.writeOutputs]
    rcases wrote : Command.writeOutput disk.files first with ⟨files, failure | _⟩
    · have failed : (Command.writeOutput disk.files first).2 = .error failure := by rw [wrote]
      exact ⟨fun _ => ⟨[], first, rest, failure, rfl, failed⟩, fun _ => ⟨failure, rfl⟩⟩
    · have next : ∀ before, (Command.writeOutputs disk (first :: before)).1 =
          (Command.writeOutputs ({ disk with files }.record first.events) before).1 := by
        intro before
        simp only [Command.writeOutputs, wrote]
      dsimp only
      rw [ih]
      constructor
      · rintro ⟨before, output, after, failure, rfl, failed⟩
        exact ⟨first :: before, output, after, failure, rfl, next before ▸ failed⟩
      · rintro ⟨before, output, after, failure, split, failed⟩
        cases before with
        | nil =>
          cases split
          rw [Command.writeOutputs, wrote] at failed
          cases failed
        | cons _ before =>
          cases split
          exact ⟨before, output, after, failure, rfl, next before ▸ failed⟩

/-! Logs. What is told is counted whether or not there is room for it. -/

theorem encode_append (s t : String) : Text.encode (s ++ t) = Text.encode s ++ Text.encode t := by
  simp [Text.encode]

@[simp] theorem encode_length (s : String) : (Text.encode s).length = s.utf8ByteSize := by
  simp [Text.encode]

theorem notices_append (events events' : List Event) :
    notices (events ++ events') = notices events ++ notices events' :=
  List.filterMap_append

theorem logText_append (occasion : Occasion) (told told' : List Notice) :
    occasion.logText (told ++ told') = occasion.logText told ++ occasion.logText told' := by
  simp [Occasion.logText, LogFile.text, String.join_append]

namespace FileSystem

@[simp] theorem setContent_room (fs : FileSystem) (key : String) (content : List UInt8) :
    (fs.setContent key content).room = fs.room := by
  unfold setContent
  split <;> rfl

@[simp] theorem writeAt_room (fs : FileSystem) (key : String) (position : Nat)
    (bytes : List UInt8) : (fs.writeAt key position bytes).room = fs.room := by
  unfold writeAt
  split
  · rfl
  · exact setContent_room ..

theorem hasRoom_eq_false {fs : FileSystem} {key : String} {bytes : Nat} :
    fs.hasRoom key bytes = false ↔ ∃ most, fs.room.lookup key = some most ∧ most < bytes := by
  unfold hasRoom
  cases fs.room.lookup key <;> simp

end FileSystem

theorem writeOutput_room (fs : FileSystem) (output : Command.Output) :
    (Command.writeOutput fs output).1.room = fs.room := by
  unfold Command.writeOutput FileSystem.write
  split
  · rfl
  · dsimp only
    split
    · rfl
    · exact FileSystem.setContent_room ..

structure Disk.Told (fs : FileSystem) (occasion : Occasion) (spared : Option String)
    (told : List Notice) (disk : Disk) : Prop where
  log : disk.log = spared.map fun key => ⟨key, occasion, (occasion.logText told).utf8ByteSize⟩
  room : disk.files.room = fs.room

section

variable {fs : FileSystem} {occasion : Occasion} {spared : Option String} {told : List Notice}
  {disk : Disk}

theorem Disk.Told.record (sofar : disk.Told fs occasion spared told) (events : List Event) :
    (disk.record events).Told fs occasion spared (told ++ notices events) := by
  obtain ⟨log, room⟩ := sofar
  unfold Disk.record
  cases spared with
  | none => rw [log]; exact ⟨log, room⟩
  | some key =>
    rw [log]
    refine ⟨?_, (FileSystem.writeAt_room ..).trans room⟩
    simp only [Option.map_some, logText_append, encode_length, String.utf8ByteSize_append]
    rfl

theorem Disk.Told.close_error (sofar : disk.Told fs occasion spared told) :
    (∃ failure, disk.close = .error failure) ↔ ∃ key most, spared = some key ∧
      fs.room.lookup key = some most ∧ most < (occasion.logText told).utf8ByteSize := by
  unfold Disk.close
  rw [sofar.log]
  cases spared with
  | none => simp
  | some key =>
    simp only [Option.map_some, Option.some.injEq, exists_and_left, exists_eq_left',
      ← sofar.room, ← FileSystem.hasRoom_eq_false]
    split <;> simp_all

theorem Disk.Told.close_ok (sofar : disk.Told fs occasion spared told)
    (room : ∀ key, spared = some key →
      fs.hasRoom key (occasion.logText told).utf8ByteSize = true) : disk.close = .ok () := by
  cases closed : disk.close with
  | ok u => rfl
  | error failure =>
    obtain ⟨key, most, log, limit, exceeds⟩ := sofar.close_error.mp ⟨failure, closed⟩
    cases (room key log).symm.trans (FileSystem.hasRoom_eq_false.mpr ⟨most, limit, exceeds⟩)

theorem writeOutputs_told {outputs : List Command.Output}
    (sofar : disk.Told fs occasion spared told) :
    (Command.writeOutputs disk outputs).1.Told fs occasion spared
      (told ++ notices (Command.writeOutputs disk outputs).2.events) := by
  induction outputs generalizing disk told with
  | nil => exact (List.append_nil told).symm ▸ sofar
  | cons output rest ih =>
    have room := (writeOutput_room disk.files output).trans sofar.room
    rw [Command.writeOutputs]
    rcases wrote : Command.writeOutput disk.files output with ⟨files, failure | _⟩
    · rw [wrote] at room
      exact (List.append_nil told).symm ▸ ⟨sofar.log, room⟩
    · rw [wrote] at room
      have stored : { disk with files }.Told fs occasion spared told := ⟨sofar.log, room⟩
      dsimp only
      rw [notices_append, ← List.append_assoc]
      exact ih (stored.record output.events)

end

/-! Preparing. -/

theorem toLogged_ok {α : Type} {outcome : Outcome α} {a : α} {b : Builder} :
    outcome.toLogged.result = .ok (a, b) ↔ outcome.result = .ok a ∧ outcome.builder = b := by
  unfold Outcome.toLogged
  cases outcome.result <;> simp [Except.map]

/-- Everything that succeeded before a run writes its output files. -/
structure Prepared [Machine] (settings : Settings) (layoutTexts texts : List String)
    (layout : Layout) (symbols : SymbolTable) (made : Assembly) : Prop where
  laid : (readLayout layoutTexts settings.verbose).result = .ok (layout, symbols)
  read : ((Builder.fresh (some layout) symbols settings.debug).readStream texts
    settings.verbose).result = .ok made.count
  parsed : settings.debug = true → ∃ table,
    ((Builder.fresh (some layout) symbols settings.debug).readStream texts
      settings.verbose).builder.linesTable none "Parsed Lines" = .ok table
  closed : ((Builder.fresh (some layout) symbols settings.debug).readStream texts
    settings.verbose).builder.finalize.result = .ok made.image
  builder : made.builder = ((Builder.fresh (some layout) symbols settings.debug).readStream texts
    settings.verbose).builder.finalize.builder
  imageText : made.image.text settings.fill = .ok made.imageText
  header : made.builder.header settings.pcWidthDatum = .ok made.header
  listing : settings.readable = true → made.builder.listing made.image = .ok made.listing

theorem needPath_ok_iff {path : Option String} {found : String} :
    Command.needPath path = .ok found ↔ path = some found := by
  cases path <;> simp [Command.needPath]

theorem openLayout_ok [Machine] {settings : Settings} {fs : FileSystem} {layout : Layout}
    {symbols : SymbolTable}
    (opened : (Command.openLayout settings fs).result = .ok (layout, symbols)) :
    ∃ path texts, settings.layout = some path ∧
      Command.readLines fs path (.layoutNotFound path) = .ok texts ∧
      (readLayout texts settings.verbose).result = .ok (layout, symbols) := by
  unfold Command.openLayout at opened
  simp only [Logged.bind_ok_iff, Logged.ofExcept_result, Logged.mapError_result, mapError_ok,
    needPath_ok_iff] at opened
  obtain ⟨path, given, texts, lines, _, _, laid⟩ := opened
  exact ⟨path, texts, given, lines, laid⟩

theorem prepare_reads [Machine] {settings : Settings} {disk : Disk} {made : Assembly}
    (done : (Command.prepare settings disk).result = .ok made) :
    ∃ layoutTexts texts layout symbols,
      Prepared settings layoutTexts texts layout symbols made ∧
      (∃ path, settings.layout = some path ∧
        Command.readLines disk.files path (.layoutNotFound path) = .ok layoutTexts) ∧
      ∃ path events, settings.input = some path ∧
        Command.readLines (disk.record events).files path (.inputNotFound path) = .ok texts := by
  unfold Command.prepare at done
  simp only [Logged.bind_ok_iff, Logged.ofExcept_result, Logged.mapError_result, mapError_ok,
    Prod.exists, toLogged_ok, needPath_ok_iff] at done
  obtain ⟨layout, symbols, opened, input, given, texts, lines, _, _, count, _, ⟨read, rfl⟩, done⟩ :=
    done
  obtain ⟨path, layoutTexts, laidOut, layoutLines, laid⟩ := openLayout_ok opened
  obtain ⟨parsed, done⟩ := Logged.optional_ok done
  simp only [Logged.bind_ok_iff, Logged.ofExcept_result, Logged.mapError_result, mapError_ok,
    Prod.exists, toLogged_ok, Logged.pure_result] at parsed done
  obtain ⟨_, _, image, _, ⟨closed, rfl⟩, _, _, imageText, rendered, header, headed, listing, listed,
    _, _, finished⟩ := done
  cases finished
  refine ⟨layoutTexts, texts, layout, symbols,
    ⟨laid, read, parsed, closed, rfl, rendered, headed, ?_⟩,
    ⟨path, laidOut, layoutLines⟩, input, _, given, lines⟩
  intro asked
  rwa [if_pos asked] at listed

theorem prepare_ok [Machine] {settings : Settings} {disk : Disk} {made : Assembly}
    (done : (Command.prepare settings disk).result = .ok made) :
    ∃ layoutTexts texts layout symbols,
      Prepared settings layoutTexts texts layout symbols made := by
  obtain ⟨layoutTexts, texts, layout, symbols, prepared, _⟩ := prepare_reads done
  exact ⟨layoutTexts, texts, layout, symbols, prepared⟩

/-! Tables. -/

theorem linesTable_ok_iff {b : Builder} {image : Option Image} {title : String} :
    (∃ table, b.linesTable image title = .ok table) ↔
      ∀ line ∈ b.lines, ∃ row, lineRow image line = .ok row := by
  rw [← mapM_ok_iff]
  simp only [Builder.linesTable, bind_ok_iff]
  constructor
  · rintro ⟨_, rows, made, _⟩
    exact ⟨rows, made⟩
  · rintro ⟨rows, made⟩
    exact ⟨_, rows, made, rfl⟩

theorem lineRow_ok_iff {image : Option Image} {line : Line} :
    (∃ row, lineRow image line = .ok row) ↔
      (∀ n ∈ line.numbers, Numeral.fits n = true) ∧ (∃ word, wordCell image line = .ok word) ∧
      ∀ n ∈ line.index.numbers ++ line.source.toList.flatMap Value.numbers,
        Numeral.fits n = true := by
  rw [← printable_ok_iff, ← printable_ok_iff]
  simp only [lineRow, bind_ok_iff]
  constructor
  · rintro ⟨_, ⟨⟩, shown, word, cell, ⟨⟩, placed, _⟩
    exact ⟨shown, ⟨word, cell⟩, placed⟩
  · rintro ⟨shown, ⟨word, cell⟩, placed⟩
    exact ⟨_, (), shown, word, cell, (), placed, rfl⟩

/-- The program behind an assembly: its file assembles, and in debug mode its lines were shown as
they were read. -/
theorem Prepared.assembles [Machine] {settings : Settings} {layoutTexts texts : List String}
    {layout : Layout} {symbols : SymbolTable} {made : Assembly}
    (prepared : Prepared settings layoutTexts texts layout symbols made) :
    ∃ before words,
      Assembles layout symbols settings.debug texts before made.builder.labels made.builder.lines
        words ∧
      made.image = Image.ofWords layout.size words ∧ made.builder.layout = some layout ∧
      (settings.debug = true → ∀ line ∈ before, ∃ row, lineRow none line = .ok row) := by
  obtain ⟨iff, left⟩ :=
    @readStream_result layout symbols settings.debug texts settings.verbose
  obtain ⟨readable, printable⟩ := iff.mp ⟨_, prepared.read⟩
  obtain ⟨before, labels, builder, read⟩ := left _ prepared.read
  obtain ⟨_, _, parsed, closed, made_builder, _, _⟩ := prepared
  rw [builder] at parsed closed made_builder
  obtain ⟨resolved, kept, given, words, packed, shape⟩ := finalize_readBuilder_ok closed
  rw [← made_builder] at resolved kept given packed
  subst kept
  refine ⟨before, words, ⟨readable, printable, read, resolved, packed⟩, shape, given, ?_⟩
  intro on
  exact linesTable_ok_iff.mp (parsed on)

theorem Line.Resolves.row {labels : Labels} {line after : Line} {image : Image} {word : String}
    (resolves : line.Resolves labels after) (row : ∃ row, lineRow none line = .ok row)
    (cell : wordCell (some image) after = .ok word) :
    ∃ row, lineRow (some image) after = .ok row := by
  obtain ⟨shown, _, placed⟩ := lineRow_ok_iff.mp row
  refine lineRow_ok_iff.mpr ⟨?_, ⟨word, cell⟩, ?_⟩
  · cases resolves with
    | plain => exact shown
    | @branch label d pending reached =>
      obtain ⟨_, _, _, ahead, near⟩ := distance_ok reached
      intro n member
      obtain ⟨entry, held, here⟩ := List.mem_flatMap.mp member
      rcases Assoc.mem_put held with rfl | old
      · -- the only number that was not shown before
        have same : n = d := List.mem_singleton.mp here
        unfold maxBranch at near
        exact fits_of_small (by omega)
      · exact shown n (List.mem_flatMap.mpr ⟨entry, old, here⟩)
  · cases resolves <;> exact placed

section

variable {settings : Settings} {layoutTexts texts : List String} {layout : Layout}
  {symbols : SymbolTable} {made : Assembly} {debug : Bool} {before lines : List Line}
  {labels : Labels} {words : List String}

theorem Assembles.wordCell_ok [Machine]
    (assembles : Assembles layout symbols debug texts before labels lines words) {i : Nat}
    {line : Line} (here : lines[i]? = some line) (width : Value) :
    ∃ word, wordCell (some (Image.ofWords width words)) line = .ok word := by
  obtain ⟨line', here', resolves⟩ := along_at assembles.resolved here
  have index : line.index = .int i := by
    have place := assembles.read.numbered i line' here'
    cases resolves <;> exact place
  obtain ⟨_, all⟩ := packLines_each.mp assembles.packed
  obtain ⟨word, there, _⟩ := along_at all.flip here
  have inside := (List.getElem?_eq_some_iff.mp there).1
  refine ⟨word, ?_⟩
  have place : Bits.place? words.length (i : Int) = some i := Bits.place?_inside inside
  simp only [wordCell, Image.ofWords, index, Value.toInt, place, Option.bind_some, there]

/-- Once the lines were shown as they were read, they can be shown as they are packed. -/
theorem Assembles.linesTable_ok [Machine]
    (assembles : Assembles layout symbols debug texts before labels lines words)
    (shown : ∀ line ∈ before, ∃ row, lineRow none line = .ok row) (width : Value) :
    ∀ line ∈ lines, ∃ row, lineRow (some (Image.ofWords width words)) line = .ok row := by
  intro line member
  obtain ⟨i, here⟩ := List.mem_iff_getElem?.mp member
  obtain ⟨line', here', resolves⟩ := along_at assembles.resolved here
  obtain ⟨word, cell⟩ := assembles.wordCell_ok here width
  exact resolves.row (shown line' (List.mem_of_getElem? here')) cell

/-- Once the ranges of the fields were written to the header, the fields can be shown: their widths
are those of a word that fits in memory. -/
theorem fieldsTable_ok [Machine] {b : Builder} {width : Datum} {header : String}
    (laid : layout.Sound) (given : b.layout = some layout) (headed : b.header width = .ok header)
    (room : layout.width * 8 ≤ Machine.memoryLimit) : ∃ table, b.fieldsTable = .ok table := by
  simp only [Builder.header, given, bind_ok_iff] at headed
  obtain ⟨⟨⟩, ranges, _⟩ := headed
  have numbers : printable (layout.fields.flatMap fun f => f.numbers ++ [(f.width : Int)]) =
      .ok () := by
    rw [printable_ok_iff] at ranges ⊢
    intro n member
    obtain ⟨f, held, here⟩ := List.mem_flatMap.mp member
    rcases List.mem_append.mp here with bound | width
    · exact ranges n (List.mem_flatMap.mpr ⟨f, held, bound⟩)
    · -- no field is wider than the word, of which there was room for a buffer
      rw [List.mem_singleton.mp width]
      have inside := laid.fits f held
      have limit := Machine.memoryLimit_lt
      refine fits_of_small ?_
      unfold Field.width
      omega
  simp only [Builder.fieldsTable, given, Layout.table, numbers]
  exact ⟨_, rfl⟩

/-- Nothing that is shown after the output files were written can fail. -/
theorem Prepared.conclude_ok [Machine]
    (prepared : Prepared settings layoutTexts texts layout symbols made) (elapsed : String) :
    (Command.conclude settings elapsed made).result = .ok () := by
  have laid := (readLayout_built prepared.laid).sound
  obtain ⟨before, words, assembles, image, given, shown⟩ := prepared.assembles
  have room := Capacity.buffer_ok_iff.mp (packLines_each.mp assembles.packed).1
  unfold Command.conclude
  split
  · rename_i on
    have packed := assembles.linesTable_ok (shown on) layout.size
    rw [← image] at packed
    obtain ⟨lines, linesTable⟩ :
        ∃ table, made.builder.linesTable (some made.image) "Packed Lines" = .ok table :=
      linesTable_ok_iff.mpr packed
    obtain ⟨fields, fieldsTable⟩ := fieldsTable_ok laid given prepared.header room
    rw [linesTable, fieldsTable]
    rfl
  · rfl

theorem Prepared.ascii [Machine]
    (prepared : Prepared settings layoutTexts texts layout symbols made) :
    Text.isAscii made.imageText = true ∧ Text.isAscii made.header = true := by
  have built := readLayout_built prepared.laid
  obtain ⟨before, words, assembles, image, given, _⟩ := prepared.assembles
  obtain ⟨_, all⟩ := (packLines_ok_iff built.sound).mp assembles.packed
  constructor
  · refine Image.text_ascii ?_ prepared.imageText
    rw [image]
    intro word member
    obtain ⟨line, _, packs⟩ := along_mem all member
    exact packs.ascii
  · refine Builder.header_ascii given (fun f member => built.stems_ascii member) ?_
      (Settings.pcWidth_ascii settings) prepared.header
    intro entry member
    have held : entry.1 ∈ Assoc.keys made.builder.labels := List.mem_map_of_mem member
    rw [assembles.read.declared] at held
    obtain ⟨raw, written, declares⟩ := List.mem_flatMap.mp held
    obtain ⟨p, said, name⟩ := List.mem_filterMap.mp declares
    have accepted := assembles.readable.accepted raw written p said
    rw [Phrase.label?_eq_some.mp name] at accepted
    exact accepted.2

end

/-! Running. -/

section

variable {settings : Settings} {occasion : Occasion} {fs : FileSystem} {disk : Disk}
  {made : Assembly}

theorem report_files (step : Logged Failure Unit) : (Command.report fs step).files = fs := by
  unfold Command.report
  split <;> rfl

theorem report_failed_iff {step : Logged Failure Unit} :
    (Command.report fs step).ending = .returned 1 ↔ ∃ failure, step.result = .error failure := by
  unfold Command.report
  split <;> simp_all

theorem runWith_opening [Machine] (settings : Settings) (occasion : Occasion) (fs : FileSystem) :
    Command.runWith settings occasion fs =
      match Command.opening settings occasion fs with
      | .error fault =>
        Command.report fs (Logged.fail (.file fault (fs.absolutePath (Command.logPath settings))))
      | .ok disk => Command.runOn settings occasion.elapsed disk := by
  unfold Command.runWith Command.opening
  split
  · dsimp only
    cases fs.create (Command.logPath settings) <;> rfl
  · rfl

theorem perform_unprepared [Machine] {spared : Option String} {failure : Failure}
    (keeps : disk.Keeps fs spared)
    (failed : (Command.prepare settings disk).result = .error failure) (elapsed : String) :
    (Command.perform settings elapsed disk).1.Keeps fs spared := by
  unfold Command.perform
  simp only [failed]
  exact (keeps.record _).record _

theorem perform_prepared [Machine] (done : (Command.prepare settings disk).result = .ok made)
    (elapsed : String) :
    (∃ failure, (Command.perform settings elapsed disk).2.result = .error failure) ↔
      ∃ failure, (Command.writeOutputs (disk.record (Command.prepare settings disk).events)
        (Command.outputs settings made)).2.result = .error failure := by
  obtain ⟨_, _, _, _, prepared⟩ := prepare_ok done
  have concluded := prepared.conclude_ok elapsed
  unfold Command.perform
  simp only [done]
  cases wrote : (Command.writeOutputs (disk.record (Command.prepare settings disk).events)
      (Command.outputs settings made)).2.result with
  | error failure => simp [bind, Logged.bind, wrote]
  | ok u => simp [bind, Logged.bind, wrote, Logged.mapError, concluded]

theorem runOn_files [Machine] (settings : Settings) (elapsed : String) (disk : Disk) :
    (Command.runOn settings elapsed disk).files =
      (Command.perform settings elapsed disk).1.files :=
  report_files _

theorem runOn_failed_iff [Machine] {elapsed : String} :
    (Command.runOn settings elapsed disk).ending = .returned 1 ↔
      (∃ failure, (Command.perform settings elapsed disk).2.result = .error failure) ∨
        ∃ failure, (Command.perform settings elapsed disk).1.close = .error failure := by
  unfold Command.runOn
  dsimp only
  rw [report_failed_iff]
  cases (Command.perform settings elapsed disk).1.close with
  | ok u => simp
  | error failure => simp

theorem conclude_panels (settings : Settings) (elapsed : String) (made : Assembly) :
    notices (Command.conclude settings elapsed made).events = [] := by
  unfold Command.conclude
  split
  · cases made.builder.linesTable (some made.image) "Packed Lines" with
    | error e => rfl
    | ok lines =>
      cases made.builder.fieldsTable with
      | error e => rfl
      | ok fields => rfl
  · rfl

theorem opening_told (opened : Command.opening settings occasion fs = .ok disk) :
    disk.Told fs occasion (Command.logFile? settings fs) [] := by
  have log := (opening_keeps opened).log
  unfold Command.opening at opened
  split at opened
  · cases created : fs.create (Command.logPath settings) with
    | error fault =>
      rw [created] at opened
      cases opened
    | ok made =>
      obtain ⟨fs', key⟩ := made
      rw [created] at opened
      cases opened
      obtain ⟨rfl, _⟩ := create_ok created
      rw [← log]
      exact ⟨rfl, FileSystem.setContent_room ..⟩
  · cases opened
    rw [← log]
    exact ⟨rfl, rfl⟩

theorem perform_told [Machine] (opened : Command.opening settings occasion fs = .ok disk)
    (elapsed : String) :
    (Command.perform settings elapsed disk).1.Told fs occasion (Command.logFile? settings fs)
      (notices (Command.perform settings elapsed disk).2.events) := by
  have prepared := (opening_told opened).record (Command.prepare settings disk).events
  unfold Command.perform
  dsimp only
  simp only [notices_append]
  refine Disk.Told.record ?_ _
  cases (Command.prepare settings disk).result with
  | error failure => exact (List.append_nil _).symm ▸ prepared
  | ok made =>
    have wrote := @writeOutputs_told _ _ _ _ _ (Command.outputs settings made) prepared
    have rest : ∀ first : Logged Failure Unit, notices (first >>= fun _ =>
        (Command.conclude settings elapsed made).mapError .error).events =
          notices first.events := by
      intro first
      obtain ⟨events, failure | u⟩ := first
      · rfl
      · simp only [bind, Logged.bind, Logged.mapError, notices_append, conclude_panels,
          List.append_nil]
    rw [List.nil_append] at wrote
    dsimp only
    rw [rest]
    exact wrote

theorem logRefused_iff [Machine] (opened : Command.opening settings occasion fs = .ok disk)
    (done : (Command.prepare settings disk).result = .ok made) :
    (∃ failure, (Command.perform settings occasion.elapsed disk).1.close = .error failure) ↔
      Command.LogRefused settings occasion fs := by
  rw [(perform_told opened occasion.elapsed).close_error]
  constructor
  · rintro ⟨key, most, log, limit, exceeds⟩
    exact ⟨disk, made, key, most, opened, done, log, limit, exceeds⟩
  · rintro ⟨disk', made', key, most, opened', done', log, limit, exceeds⟩
    cases opened.symm.trans opened'
    exact ⟨key, most, log, limit, exceeds⟩

theorem prepared_failed_iff [Machine] (opened : Command.opening settings occasion fs = .ok disk)
    (done : (Command.prepare settings disk).result = .ok made) :
    (Command.runWith settings occasion fs).ending = .returned 1 ↔
      Command.OutputRefused settings occasion fs ∨ Command.LogRefused settings occasion fs := by
  rw [runWith_opening, opened]
  dsimp only
  rw [runOn_failed_iff, perform_prepared done, writeOutputs_error_iff, logRefused_iff opened done]
  apply or_congr_left
  constructor
  · rintro ⟨before, output, after, failure, split, failed⟩
    exact ⟨disk, made, before, output, after, failure, opened, done, split, failed⟩
  · rintro ⟨disk', made', before, output, after, failure, opened', done', split, failed⟩
    cases opened.symm.trans opened'
    cases done.symm.trans done'
    exact ⟨before, output, after, failure, split, failed⟩

end

/-- A run that fails, other than by an output file that cannot be opened or written or by a log that
cannot be, leaves every file as it was but for its log, if it has one. Once the output is prepared
nothing else can fail, and what goes to the image and the header is seven-bit text. -/
theorem failed_run_keeps_files [Machine] {arguments : List String} {settings : Settings}
    (accepted : Settings.ofArguments arguments = .ok settings) (occasion : Occasion)
    (fs : FileSystem) :
    let report := Command.run arguments occasion fs
    (report.ending = .returned 1 → ¬ Command.OutputRefused settings occasion fs →
      ¬ Command.LogRefused settings occasion fs →
      ∀ key, Command.logFile? settings fs ≠ some key →
        report.files.nodes.lookup key = fs.nodes.lookup key) ∧
    ∀ disk made, Command.opening settings occasion fs = .ok disk →
      (Command.prepare settings disk).result = .ok made →
      Text.isAscii made.imageText = true ∧ Text.isAscii made.header = true ∧
      (Command.conclude settings occasion.elapsed made).result = .ok () ∧
      (report.ending = .returned 1 ↔
        Command.OutputRefused settings occasion fs ∨ Command.LogRefused settings occasion fs) := by
  intro report
  have ran : report = Command.runWith settings occasion fs := by
    simp only [report, Command.run, accepted]
  rw [ran]
  constructor
  · intro failed wrote logged key apart
    cases opened : Command.opening settings occasion fs with
    | error fault =>
      rw [runWith_opening, opened]
      dsimp only
      rw [report_files]
    | ok disk =>
      -- a prepared run fails only at its files, and any other one has not touched them
      cases done : (Command.prepare settings disk).result with
      | ok made =>
        rcases (prepared_failed_iff opened done).mp failed with output | log
        · exact absurd output wrote
        · exact absurd log logged
      | error failure =>
        rw [runWith_opening, opened]
        dsimp only
        rw [runOn_files]
        exact (perform_unprepared (opening_keeps opened) done _).files key apart
  · intro disk made opened done
    obtain ⟨_, _, _, _, prepared⟩ := prepare_ok done
    obtain ⟨image, header⟩ := prepared.ascii
    exact ⟨image, header, prepared.conclude_ok _, prepared_failed_iff opened done⟩

/-- A symbol without a value: the old image stays and only the log is written. -/
theorem failed_run_keeps_files_unknown_symbol :
    let fs : FileSystem := ⟨[("w", .directory),
      ("w/fields", .file (Text.encode "#field OP_ 0 2\n")),
      ("w/stream", .file (Text.encode "OP_ADD\n")), ("w/rom", .file [79])], ["w"], []⟩
    let report := Command.run ["-i", "stream", "-L", "fields", "-o", "rom", "-l"]
      ⟨"", fun _ => "", ""⟩ fs
    report.ending = .returned 1 ∧ report.files.nodes.lookup "w/rom" = some (.file [79]) ∧
      (report.files.nodes.lookup "w/rom.log").isSome = true := by
  intro fs report
  let settings : Settings :=
    ⟨some "stream", some "fields", some "rom", some "microcode_locations.v", false, false, some 9,
      false, true, false⟩
  have accepted :
      Settings.ofArguments ["-i", "stream", "-L", "fields", "-o", "rom", "-l"] = .ok settings := by
    decide +kernel
  have ending : report.ending = .returned 1 := by decide +kernel
  have created : fs.create (Command.logPath settings) =
      .ok (fs.setContent "w/rom.log" [], "w/rom.log") := by decide +kernel
  have refused : ∀ disk made,
      Command.opening settings ⟨"", fun _ => "", ""⟩ fs = .ok disk →
      (Command.prepare settings disk).result ≠ .ok made := by
    intro disk made opened done
    rw [Command.opening, if_pos rfl, created] at opened
    cases opened
    have failed : (Command.prepare settings ⟨fs.setContent "w/rom.log" [],
        some ⟨"w/rom.log", ⟨"", fun _ => "", ""⟩, 0⟩⟩).result =
        .error (.error (.fault ⟨.unknownSymbol "OP_ADD", some (.int 0), some (.int 1)⟩)) := by
      decide +kernel
    cases failed.symm.trans done
  have wrote : ¬ Command.OutputRefused settings ⟨"", fun _ => "", ""⟩ fs := by
    rintro ⟨disk, made, _, _, _, _, opened, done, _⟩
    exact refused disk made opened done
  have logged : ¬ Command.LogRefused settings ⟨"", fun _ => "", ""⟩ fs := by
    rintro ⟨disk, made, _, _, opened, done, _⟩
    exact refused disk made opened done
  have apart : Command.logFile? settings fs ≠ some "w/rom" := by decide +kernel
  obtain ⟨kept, _⟩ := failed_run_keeps_files accepted ⟨"", fun _ => "", ""⟩ fs
  exact ⟨ending, kept ending wrote logged "w/rom" apart, by decide +kernel⟩

/-- The listing shows symbols as they are, and these may hold any character. -/
theorem listing_beyond_ascii :
    let fs : FileSystem := ⟨[("w", .directory),
      ("w/fields", .file (Text.encode "#field OP_ 0 2\n#value OP_é 1\n")),
      ("w/stream", .file (Text.encode "OP_é\n"))], ["w"], []⟩
    let report := Command.run ["-i", "stream", "-L", "fields", "-o", "rom", "-r"]
      ⟨"", fun _ => "", ""⟩ fs
    report.ending = .returned 0 ∧
      ∃ content, report.files.nodes.lookup "w/rom_readable.txt" = some (.file content) ∧
        ∃ byte ∈ content, 128 ≤ byte :=
  ⟨by decide +kernel,
    Text.encode "00000 | 001 | OP_=OP_é\n", by decide +kernel, 195, by decide +kernel, by decide⟩

end Microcode
