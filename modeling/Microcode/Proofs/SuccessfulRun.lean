import Microcode.Proofs.RunLog
import Microcode.Proofs.Sources
import Mathlib.Data.List.TakeWhile

/-!
Runs that succeed. What they write is told by their two source files alone; how much a run tells
about it, and where, makes no difference. A run that keeps its files apart from each other leaves
its sources as they were, so that it can be made again: it writes the same, and its log tells the
same at another time.
-/
namespace Microcode

/-- What the lines of a layout file and of a stream file come to: the image, and the builder that
is closed. -/
def translate [Machine] (layoutTexts texts : List String) : Except Error (Image × Builder) := do
  let (layout, symbols) ← (readLayout layoutTexts false).result
  let outcome := assembleStream layout symbols false false texts
  let image ← outcome.result
  return (image, outcome.builder)

/-- Settings that ask for the same files; they may differ in what is told and in whether there is a
listing or a log. -/
structure Settings.SameWork (settings settings' : Settings) : Prop where
  input : settings'.input = settings.input
  layout : settings'.layout = settings.layout
  output : settings'.output = settings.output
  defines : settings'.defines = settings.defines
  fill : settings'.fill = settings.fill
  pcWidth : settings'.pcWidth = settings.pcWidth

/-! One run. -/

namespace Command

def outputPaths (settings : Settings) : List (Option String) :=
  [settings.output, settings.defines] ++
    if settings.readable then [some (listingPath settings)] else []

def targets (settings : Settings) (fs : FileSystem) : List String :=
  ((outputPaths settings).filterMap fun path =>
    path.bind fun name => (fs.writable name).toOption) ++ (logFile? settings fs).toList

def sources (settings : Settings) (fs : FileSystem) : List String :=
  [settings.layout, settings.input].filterMap fun path => path.bind fs.source?

structure Separate (settings : Settings) (fs : FileSystem) : Prop where
  once : (targets settings fs).Nodup
  apart : ∀ key ∈ sources settings fs, key ∉ targets settings fs

def announced [Machine] (settings : Settings) (disk : Disk) (made : Assembly) : List Notice :=
  notices (prepare settings disk).events ++ notices ((outputs settings made).flatMap Output.events)

structure Succeeds [Machine] (settings : Settings) (occasion : Occasion) (fs : FileSystem)
    (disk : Disk) (made : Assembly) : Prop where
  opened : opening settings occasion fs = .ok disk
  done : (prepare settings disk).result = .ok made
  goes : ∀ output ∈ outputs settings made, output.fits fs = true
  room : ∀ key, logFile? settings fs = some key →
    fs.hasRoom key (occasion.logText (announced settings disk made)).utf8ByteSize = true

structure Ran (settings : Settings) (occasion : Occasion) (fs : FileSystem) (made : Assembly)
    (told : List Notice) (report : RunReport) : Prop where
  ending : report.ending = .returned 0
  tells : notices report.events = told
  shape : fs.SameShape report.files
  untouched : ∀ key, key ∉ targets settings fs →
    report.files.nodes.lookup key = fs.nodes.lookup key
  stored : ∀ output ∈ outputs settings made, ∃ key, output.key? fs = some key ∧
    fs.Stored report.files key output.text
  logged : ∀ key, logFile? settings fs = some key →
    fs.Stored report.files key (occasion.logText told)

end Command

section

variable {settings : Settings} {occasion : Occasion} {fs fs' : FileSystem} {disk : Disk}
  {made : Assembly}

theorem outputs_keys (settings : Settings) (made : Assembly) (fs : FileSystem) :
    Command.targets settings fs =
      (Command.outputs settings made).filterMap (Command.Output.key? fs) ++
        (Command.logFile? settings fs).toList := by
  have paths : Command.outputPaths settings =
      (Command.outputs settings made).map Command.Output.path := by
    unfold Command.outputPaths Command.outputs
    split <;> rfl
  rw [Command.targets, paths, List.filterMap_map]
  rfl

theorem unlogged_of_free {key : String} (free : key ∉ Command.targets settings fs) :
    Command.logFile? settings fs ≠ some key := by
  intro log
  exact free (List.mem_append_right _ (Option.mem_toList.mpr log))

theorem report_ok {step : Logged Failure Unit} (ok : step.result = .ok ()) :
    Command.report fs step = ⟨.returned 0, step.events, fs⟩ := by
  simp only [Command.report, ok]

theorem record_nothing (disk : Disk) : disk.record [] = disk := by
  obtain ⟨files, log⟩ := disk
  cases log <;> rfl

theorem perform_succeeds [Machine] (done : (Command.prepare settings disk).result = .ok made)
    (wrote : (Command.writeOutputs (disk.record (Command.prepare settings disk).events)
      (Command.outputs settings made)).2.result = .ok ()) (elapsed : String) :
    let last := Command.writeOutputs (disk.record (Command.prepare settings disk).events)
      (Command.outputs settings made)
    (Command.perform settings elapsed disk).1 = last.1 ∧
    (Command.perform settings elapsed disk).2.result = .ok () ∧
    notices (Command.perform settings elapsed disk).2.events =
      notices (Command.prepare settings disk).events ++ notices last.2.events := by
  intro last
  obtain ⟨_, _, _, _, prepared⟩ := prepare_ok done
  have concluded := prepared.conclude_ok elapsed
  have shown := conclude_panels settings elapsed made
  unfold Command.perform
  simp only [done, bind, Logged.bind, wrote, Logged.mapError, concluded, ok_mapError,
    record_nothing, notices_append, shown, List.append_nil]
  exact ⟨rfl, trivial, rfl⟩

theorem later_elsewhere {outputs before after : List Command.Output} {output : Command.Output}
    {key : String} (once : (outputs.filterMap (Command.Output.key? fs)).Nodup)
    (split : outputs = before ++ output :: after) (here : output.key? fs = some key) :
    ∀ later ∈ after, later.key? fs ≠ some key := by
  intro later member there
  rw [split, List.filterMap_append, List.filterMap_cons_some here] at once
  have fresh := (List.nodup_cons.mp (List.nodup_append'.mp once).2.1).1
  exact fresh (List.mem_filterMap.mpr ⟨later, member, there⟩)

theorem opened_all {outputs : List Command.Output}
    (goes : ∀ output ∈ outputs, output.fits fs = true) : Command.opened fs outputs = outputs := by
  induction outputs with
  | nil => rfl
  | cons output rest ih =>
    obtain ⟨here, later⟩ := List.forall_mem_cons.mp goes
    rw [Command.opened, if_pos here, ih later]

theorem writeOutputs_all {spared : Option String} {outputs : List Command.Output}
    (writing : disk.Writing fs spared)
    (goes : ∀ output ∈ outputs, output.fits fs = true) :
    (Command.writeOutputs disk outputs).2.result = .ok () ∧
    (Command.writeOutputs disk outputs).1.Writing fs spared ∧
    Command.Wrote fs spared outputs disk.files.nodes
      (Command.writeOutputs disk outputs).1.files.nodes := by
  obtain ⟨last, wrote, iff⟩ := @writeOutputs_wrote fs spared disk outputs writing
  rw [opened_all goes] at wrote
  refine ⟨?_, last, wrote⟩
  cases result : (Command.writeOutputs disk outputs).2.result with
  | ok u => rfl
  | error failure =>
    obtain ⟨output, member, refused⟩ := iff.mp ⟨failure, result⟩
    cases (goes output member).symm.trans refused

theorem Command.Separate.outputs_once (separate : Command.Separate settings fs) (made : Assembly) :
    ((Command.outputs settings made).filterMap (Command.Output.key? fs)).Nodup := by
  have once := separate.once
  rw [outputs_keys settings made] at once
  exact (List.nodup_append'.mp once).1

theorem Command.Separate.unlogged (separate : Command.Separate settings fs)
    {output : Command.Output} (member : output ∈ Command.outputs settings made) {key : String}
    (here : output.key? fs = some key) : Command.logFile? settings fs ≠ some key := by
  have once := separate.once
  rw [outputs_keys settings made] at once
  intro log
  exact (List.nodup_append'.mp once).2.2 (List.mem_filterMap.mpr ⟨output, member, here⟩)
    (Option.mem_toList.mpr log)

theorem runWith_ran [Machine] (separate : Command.Separate settings fs)
    (succeeds : Command.Succeeds settings occasion fs disk made) :
    Command.Ran settings occasion fs made (Command.announced settings disk made)
      (Command.runWith settings occasion fs) := by
  obtain ⟨opened, done, goes, room⟩ := succeeds
  have unlogged : ∀ output ∈ Command.outputs settings made, ∀ key,
      output.key? fs = some key → Command.logFile? settings fs ≠ some key :=
    fun output member key here => separate.unlogged member here
  have writing := opening_writing opened
  have ready := writing.record (Command.prepare settings disk).events
  have logging := (opening_logs opened).record (Command.prepare settings disk).events
  obtain ⟨written, last, wrote⟩ := writeOutputs_all ready goes
  obtain ⟨logs, events⟩ := writeOutputs_logs ready logging goes unlogged
  obtain ⟨files, result, told⟩ := perform_succeeds done written occasion.elapsed
  have closed := logs.toTold.close_ok room
  have ran := runWith_opening settings occasion fs
  rw [opened] at ran
  simp only [Command.runOn, files, closed, result, ok_bind, report_ok] at ran
  rw [ran]
  refine ⟨rfl, ?_, last.shape, ?_, ?_, fun key log => logs.stored key log (room key log)⟩
  · rw [told, events]
    rfl
  · intro key free
    have unlogged := unlogged_of_free free
    rw [wrote.untouched key unlogged, writing.record_lookup _ unlogged]
    · exact (opening_keeps opened).files key unlogged
    · intro output member here
      apply free
      rw [outputs_keys settings made]
      exact List.mem_append_left _ (List.mem_filterMap.mpr ⟨output, member, here⟩)
  · intro output member
    obtain ⟨key, here⟩ := Command.Output.key_of_fits (goes output member)
    obtain ⟨before, after, split⟩ := List.append_of_mem member
    refine ⟨key, here, ?_⟩
    unfold FileSystem.Stored
    split
    · rename_i sink
      exact (last.shape.sinks key).mpr sink
    · rename_i device
      rw [← Command.Output.kept_of_fits here (goes output member)]
      exact wrote.landed before output after key split here
        (later_elsewhere (separate.outputs_once made) split here) (unlogged output member key here)
        device

theorem runWith_returned [Machine] (separate : Command.Separate settings fs)
    (ended : (Command.runWith settings occasion fs).ending = .returned 0) :
    ∃ disk made, Command.Succeeds settings occasion fs disk made := by
  rw [runWith_opening] at ended
  cases opened : Command.opening settings occasion fs with
  | error fault =>
    rw [opened] at ended
    cases ended
  | ok disk =>
    rw [opened] at ended
    have fine : ¬ ((∃ failure, (Command.perform settings occasion.elapsed disk).2.result =
          .error failure) ∨
        ∃ failure, (Command.perform settings occasion.elapsed disk).1.close = .error failure) := by
      intro failed
      cases (runOn_failed_iff.mpr failed).symm.trans ended
    obtain ⟨ran, closed⟩ := not_or.mp fine
    cases done : (Command.prepare settings disk).result with
    | error failure =>
      refine absurd ⟨failure, ?_⟩ ran
      simp only [Command.perform, done]
      rfl
    | ok made =>
      have ready := (opening_writing opened).record (Command.prepare settings disk).events
      have goes : ∀ output ∈ Command.outputs settings made, output.fits fs = true := by
        intro output member
        by_contra refused
        have stuck := (@writeOutputs_wrote fs _ _ (Command.outputs settings made) ready).2.2.mpr
          ⟨output, member, by simpa using refused⟩
        exact ran ((perform_prepared done occasion.elapsed).mpr stuck)
      refine ⟨disk, made, opened, done, goes, ?_⟩
      intro key log
      by_contra full
      obtain ⟨most, limit, exceeds⟩ := FileSystem.hasRoom_eq_false.mp (by simpa using full)
      have logging := (opening_logs opened).record (Command.prepare settings disk).events
      obtain ⟨_, events⟩ := writeOutputs_logs ready logging goes
        fun output member key here => separate.unlogged member here
      obtain ⟨_, _, told⟩ :=
        perform_succeeds done (writeOutputs_all ready goes).1 occasion.elapsed
      rw [events] at told
      apply closed
      rw [(perform_told opened occasion.elapsed).close_error, told]
      exact ⟨key, most, log, limit, exceeds⟩

theorem Command.Separate.holds (separate : Command.Separate settings fs) (same : fs.SameShape fs')
    (kept : ∀ key, key ∉ Command.targets settings fs →
      fs'.nodes.lookup key = fs.nodes.lookup key)
    {path : Option String} (member : path ∈ [settings.layout, settings.input])
    {lines : List String} : fs'.Holds path lines ↔ fs.Holds path lines := by
  apply same.holds
  intro key leads
  exact kept key (separate.apart key (List.mem_filterMap.mpr ⟨path, member, leads⟩))

theorem Command.Separate.holds_opened (separate : Command.Separate settings fs)
    (opened : Command.opening settings occasion fs = .ok disk) (events : List Event)
    {path : Option String} (member : path ∈ [settings.layout, settings.input])
    {lines : List String} :
    (disk.record events).files.Holds path lines ↔ fs.Holds path lines := by
  have writing := opening_writing opened
  apply separate.holds (writing.record events).shape _ member
  intro key free
  rw [writing.record_lookup events (unlogged_of_free free)]
  exact (opening_keeps opened).files key (unlogged_of_free free)

theorem prepare_sources [Machine] (separate : Command.Separate settings fs)
    (opened : Command.opening settings occasion fs = .ok disk)
    (done : (Command.prepare settings disk).result = .ok made) :
    ∃ layoutTexts texts layout symbols, Prepared settings layoutTexts texts layout symbols made ∧
      fs.Holds settings.layout layoutTexts ∧ fs.Holds settings.input texts := by
  obtain ⟨layoutTexts, texts, layout, symbols, prepared, ⟨path, laid, lines⟩,
    input, events, given, lines'⟩ := prepare_reads done
  have first := FileSystem.readLines_ok_iff.mp lines
  have second := FileSystem.readLines_ok_iff.mp lines'
  rw [← laid, ← record_nothing disk] at first
  rw [← given] at second
  exact ⟨layoutTexts, texts, layout, symbols, prepared,
    (separate.holds_opened opened [] (by simp)).mp first,
    (separate.holds_opened opened events (by simp)).mp second⟩

theorem prepare_same [Machine] {occasion' : Occasion} {disk' : Disk}
    {layoutTexts texts : List String} (separate : Command.Separate settings fs)
    (separate' : Command.Separate settings fs')
    (opened : Command.opening settings occasion fs = .ok disk)
    (opened' : Command.opening settings occasion' fs' = .ok disk')
    (laid : fs.Holds settings.layout layoutTexts) (laid' : fs'.Holds settings.layout layoutTexts)
    (given : fs.Holds settings.input texts) (given' : fs'.Holds settings.input texts) :
    Command.prepare settings disk = Command.prepare settings disk' := by
  have first := (separate.holds_opened opened [] (by simp)).mpr laid
  have first' := (separate'.holds_opened opened' [] (by simp)).mpr laid'
  rw [record_nothing] at first first'
  apply prepare_lines first first'
  · intro events
    exact (separate.holds_opened opened events (by simp)).mpr given
  · intro events
    exact (separate'.holds_opened opened' events (by simp)).mpr given'

/-! The same run again. -/

theorem logFile_sameShape (same : fs.SameShape fs') (settings : Settings) :
    Command.logFile? settings fs' = Command.logFile? settings fs := by
  have leads : ∀ files : FileSystem, Command.logFile? settings files =
      if settings.log then FileSystem.reach files.isDirectory []
        (files.absoluteNames (Command.logPath settings)) else none := by
    intro files
    rw [← FileSystem.follow_key, Command.logFile?]
    cases files.follow [] (files.absoluteNames (Command.logPath settings)) with
    | error fault => rfl
    | ok place => cases place <;> rfl
  rw [leads, leads, funext same.directories, FileSystem.absoluteNames, same.home]
  rfl

theorem targets_sameShape (same : fs.SameShape fs') (settings : Settings) :
    Command.targets settings fs' = Command.targets settings fs := by
  unfold Command.targets
  rw [logFile_sameShape same, funext same.writable]

theorem Command.Separate.sameShape (separate : Command.Separate settings fs)
    (same : fs.SameShape fs') : Command.Separate settings fs' := by
  refine ⟨targets_sameShape same settings ▸ separate.once, ?_⟩
  rw [Command.sources, funext same.source, targets_sameShape same]
  exact separate.apart

theorem opening_again (same : fs.SameShape fs')
    (opened : Command.opening settings occasion fs = .ok disk) (occasion' : Occasion) :
    ∃ disk', Command.opening settings occasion' fs' = .ok disk' := by
  unfold Command.opening at opened ⊢
  split at opened
  · rename_i asked
    rw [if_pos asked]
    cases created : fs.create (Command.logPath settings) with
    | error fault =>
      rw [created] at opened
      cases opened
    | ok made =>
      rw [same.create created]
      exact ⟨_, rfl⟩
  · rename_i unasked
    rw [if_neg unasked]
    exact ⟨_, rfl⟩

/-- Occasions on which the entries of a log are as long. -/
structure Occasion.AsWide (occasion occasion' : Occasion) : Prop where
  stamp : occasion'.stamp.utf8ByteSize = occasion.stamp.utf8ByteSize
  place : ∀ n, (occasion'.place n).utf8ByteSize = (occasion.place n).utf8ByteSize

theorem Occasion.AsWide.logText {occasion' : Occasion} (wide : occasion.AsWide occasion')
    (told : List Notice) :
    (occasion'.logText told).utf8ByteSize = (occasion.logText told).utf8ByteSize := by
  induction told with
  | nil => rfl
  | cons n rest ih =>
    have entry : (occasion'.logText [n]).utf8ByteSize = (occasion.logText [n]).utf8ByteSize := by
      simp [Occasion.logText, LogFile.text, toString, wide.stamp, wide.place]
    rw [← List.singleton_append, logText_append, logText_append, String.utf8ByteSize_append,
      String.utf8ByteSize_append, entry, ih]

/-- Whether a run that had room for its log has room for it on another occasion, too. -/
def Command.LogsAlike (settings : Settings) (fs : FileSystem) (occasion occasion' : Occasion) :
    Prop :=
  occasion.AsWide occasion' ∨
    ∀ key, Command.logFile? settings fs = some key → fs.room.lookup key = none

theorem Command.LogsAlike.room {occasion' : Occasion} {told : List Notice}
    (alike : Command.LogsAlike settings fs occasion occasion') {key : String}
    (log : Command.logFile? settings fs = some key)
    (room : fs.hasRoom key (occasion.logText told).utf8ByteSize = true) :
    fs.hasRoom key (occasion'.logText told).utf8ByteSize = true := by
  rcases alike with wide | unlimited
  · rw [wide.logText]
    exact room
  · rw [FileSystem.hasRoom, unlimited key log]

theorem runWith_again [Machine] {occasion' : Occasion} {told : List Notice} {report : RunReport}
    (separate : Command.Separate settings fs)
    (succeeds : Command.Succeeds settings occasion fs disk made)
    (ran : Command.Ran settings occasion fs made told report)
    (alike : Command.LogsAlike settings fs occasion occasion') :
    Command.Ran settings occasion' report.files made (Command.announced settings disk made)
      (Command.runWith settings occasion' report.files) := by
  obtain ⟨opened, done, goes, room⟩ := succeeds
  obtain ⟨layoutTexts, texts, _, _, _, laid, given⟩ := prepare_sources separate opened done
  have separate' := separate.sameShape ran.shape
  obtain ⟨disk', opened'⟩ := opening_again ran.shape opened occasion'
  have laid' := (separate.holds ran.shape ran.untouched (by simp)).mpr laid
  have given' := (separate.holds ran.shape ran.untouched (by simp)).mpr given
  have same := prepare_same separate separate' opened opened' laid laid' given given'
  unfold Command.announced at room ⊢
  rw [same] at done room ⊢
  refine runWith_ran separate' ⟨opened', done, ?_, ?_⟩
  · intro output member
    rw [Command.Output.fits_sameShape ran.shape]
    exact goes output member
  · intro key log
    rw [logFile_sameShape ran.shape] at log
    rw [FileSystem.hasRoom, ran.shape.room]
    exact alike.room log (room key log)

end

/-! What is written. -/

theorem readLayout_quiet [Machine] {lines : List String} {verbose : Bool} {layout : Layout}
    {symbols : SymbolTable} (read : (readLayout lines verbose).result = .ok (layout, symbols)) :
    (readLayout lines false).result = .ok (layout, symbols) := by
  obtain ⟨draft, drafted, built, _, given⟩ := readLayout_ok_iff.mp read
  exact readLayout_ok_iff.mpr ⟨draft, drafted, built, by rintro ⟨⟩, given⟩

/-- The builder of a run is the one of the translation, but for debug mode. -/
theorem Prepared.translate [Machine] {settings : Settings} {layoutTexts texts : List String}
    {layout : Layout} {symbols : SymbolTable} {made : Assembly}
    (prepared : Prepared settings layoutTexts texts layout symbols made) :
    translate layoutTexts texts = .ok (made.image, made.builder.quiet) := by
  obtain ⟨iff, left⟩ := @readStream_result layout symbols settings.debug texts settings.verbose
  obtain ⟨lines, labels, builder, read⟩ := left _ prepared.read
  have readable := (iff.mp ⟨_, prepared.read⟩).1
  obtain ⟨iff', left'⟩ := @readStream_result layout symbols false texts false
  obtain ⟨n, done⟩ := iff'.mpr ⟨readable, by rintro ⟨⟩⟩
  obtain ⟨lines', labels', builder', read'⟩ := left' n done
  obtain ⟨rfl, rfl⟩ := read.unique readable read'
  have quiet : (readBuilder layout symbols false lines labels).finalize =
      let closed := (readBuilder layout symbols settings.debug lines labels).finalize
      { closed with builder := closed.builder.quiet } :=
    Builder.finalize_debug (readBuilder layout symbols settings.debug lines labels) false
  have closed := prepared.closed
  have last := prepared.builder
  rw [builder] at closed last
  obtain ⟨outcome, outcome'⟩ := Outcome.andThen_ok done fun _ next => next.finalize
  rw [builder', quiet] at outcome outcome'
  dsimp only at outcome outcome'
  rw [closed] at outcome
  rw [← last] at outcome'
  simp only [Microcode.translate, readLayout_quiet prepared.laid, ok_bind, assembleStream, outcome,
    outcome']
  rfl

/-- A file that a run writes holds the text that belongs there. -/
def Command.Leaves (fs after : FileSystem) (path : Option String) (text : Except Error String) :
    Prop :=
  ∃ name key s, path = some name ∧ fs.writable name = .ok key ∧ text = .ok s ∧
    fs.Stored after key s

/-- What a run has to write, told by what its sources hold. -/
structure Command.Translates [Machine] (settings : Settings) (fs after : FileSystem) (image : Image)
    (closed : Builder) : Prop where
  sources : ∃ layoutTexts texts, fs.Holds settings.layout layoutTexts ∧
    fs.Holds settings.input texts ∧ translate layoutTexts texts = .ok (image, closed)
  rom : Leaves fs after settings.output (image.text settings.fill)
  defines : Leaves fs after settings.defines (closed.header settings.pcWidthDatum)
  listing : settings.readable = true →
    Leaves fs after (some (listingPath settings)) (closed.listing image)

section

variable {settings : Settings} {occasion : Occasion} {fs : FileSystem} {made : Assembly}
  {told : List Notice} {report : RunReport}

theorem Command.Ran.leaves (ran : Command.Ran settings occasion fs made told report)
    {output : Command.Output} (member : output ∈ Command.outputs settings made)
    {text : Except Error String} (rendered : text = .ok output.text) :
    Command.Leaves fs report.files output.path text := by
  obtain ⟨key, here, stored⟩ := ran.stored output member
  obtain ⟨name, path, found⟩ := Option.bind_eq_some_iff.mp here
  exact ⟨name, key, output.text, path, toOption_eq_some.mp found, rendered, stored⟩

theorem Command.Leaves.unique {after after' : FileSystem} {path : Option String}
    {text : Except Error String} (one : Command.Leaves fs after path text)
    (other : Command.Leaves fs after' path text) {name key : String} (given : path = some name)
    (found : fs.writable name = .ok key) :
    after'.nodes.lookup key = after.nodes.lookup key := by
  obtain ⟨_, _, s, rfl, here, rfl, stored⟩ := one
  obtain ⟨_, _, _, ⟨⟩, there, ⟨⟩, stored'⟩ := other
  cases given
  cases here.symm.trans found
  cases there.symm.trans found
  exact stored'.trans stored.symm

theorem Command.Ran.translates [Machine] {layoutTexts texts : List String} {layout : Layout}
    {symbols : SymbolTable} (ran : Command.Ran settings occasion fs made told report)
    (prepared : Prepared settings layoutTexts texts layout symbols made)
    (laid : fs.Holds settings.layout layoutTexts) (given : fs.Holds settings.input texts) :
    Command.Translates settings fs report.files made.image made.builder.quiet := by
  refine ⟨⟨layoutTexts, texts, laid, given, prepared.translate⟩, ?_, ?_, ?_⟩
  · exact ran.leaves (List.mem_append_left _ List.mem_cons_self) prepared.imageText
  · exact ran.leaves (List.mem_append_left _ (List.mem_cons_of_mem _ List.mem_cons_self))
      prepared.header
  · intro asked
    have member : ⟨some (Command.listingPath settings), made.listing,
        Command.told settings (.listingWritten (Command.listingPath settings))⟩ ∈
          Command.outputs settings made := by
      apply List.mem_append_right
      rw [if_pos asked]
      exact List.mem_singleton_self _
    exact ran.leaves member (prepared.listing asked)

theorem Command.Translates.sameWork [Machine] {settings' : Settings} {after after' : FileSystem}
    {image image' : Image} {closed closed' : Builder}
    (one : Command.Translates settings fs after image closed)
    (other : Command.Translates settings' fs after' image' closed')
    (same : settings.SameWork settings') {path : Option String}
    (member : path ∈ [settings.output, settings.defines]) {name key : String}
    (named : path = some name) (found : fs.writable name = .ok key) :
    after'.nodes.lookup key = after.nodes.lookup key := by
  obtain ⟨⟨_, _, laid, given, translated⟩, imageLeft, headerLeft, _⟩ := one
  obtain ⟨⟨_, _, laid', given', translated'⟩, imageLeft', headerLeft', _⟩ := other
  have width : settings'.pcWidthDatum = settings.pcWidthDatum := by
    unfold Settings.pcWidthDatum
    rw [same.pcWidth]
  rw [same.layout] at laid'
  rw [same.input] at given'
  cases laid.unique laid'
  cases given.unique given'
  cases translated.symm.trans translated'
  rw [same.output, same.fill] at imageLeft'
  rw [same.defines, width] at headerLeft'
  simp only [List.mem_cons, List.not_mem_nil, or_false] at member
  rcases member with rfl | rfl
  · exact imageLeft.unique imageLeft' named found
  · exact headerLeft.unique headerLeft' named found

theorem Command.Ran.again {occasion' : Occasion} {report' : RunReport} {told' : List Notice}
    (ran : Command.Ran settings occasion fs made told report)
    (ran' : Command.Ran settings occasion' report.files made told' report') {key : String}
    (unlogged : Command.logFile? settings fs ≠ some key) :
    report'.files.nodes.lookup key = report.files.nodes.lookup key := by
  by_cases free : key ∈ Command.targets settings fs
  · rw [outputs_keys settings made, List.mem_append] at free
    rcases free with output | log
    · obtain ⟨output, member, here⟩ := List.mem_filterMap.mp output
      obtain ⟨_, there, stored⟩ := ran.stored output member
      cases here.symm.trans there
      obtain ⟨_, there', stored'⟩ := ran'.stored output member
      rw [Command.Output.key?_sameShape ran.shape] at there'
      cases here.symm.trans there'
      exact (stored'.sameShape ran.shape).trans stored.symm
    · exact absurd (Option.mem_toList.mp log) unlogged
  · rw [← targets_sameShape ran.shape] at free
    exact ran'.untouched key free

end

theorem runWith_translates [Machine] {settings : Settings} {occasion : Occasion} {fs : FileSystem}
    (separate : Command.Separate settings fs)
    (ended : (Command.runWith settings occasion fs).ending = .returned 0) :
    ∃ image closed, Command.Translates settings fs
      (Command.runWith settings occasion fs).files image closed := by
  obtain ⟨disk, made, succeeds⟩ := runWith_returned separate ended
  obtain ⟨_, _, _, _, prepared, laid, given⟩ :=
    prepare_sources separate succeeds.opened succeeds.done
  exact ⟨_, _, (runWith_ran separate succeeds).translates prepared laid given⟩

theorem run_settings [Machine] {arguments : List String} {settings : Settings}
    (accepted : Settings.ofArguments arguments = .ok settings) (occasion : Occasion)
    (fs : FileSystem) :
    Command.run arguments occasion fs = Command.runWith settings occasion fs := by
  simp only [Command.run, accepted]

end Microcode
