import Microcode.Proofs.FailedRun
import Mathlib.Data.List.TakeWhile

/-!
Runs that cannot write one of their output files. Files are written one after the other, so a run
stops at the first one that cannot be opened or has no room for its text: the ones before it are
there in full, that one is cut off if it could be opened, and everything else but the log is as it
was. Writing a file makes no directory and removes none, so which of the files can be written is
decided by the files that the run starts with.
-/
namespace Microcode

def Place.key? : Place → Option String
  | .directory => none
  | .file key _ | .free key => some key

namespace FileSystem

def isDirectory (fs : FileSystem) (key : String) : Bool :=
  match fs.node? key with
  | some .directory => true
  | _ => false

/-- The key to which names lead from a directory, if they lead to something else than a directory;
only directories count on the way. -/
def reach (isDirectory : String → Bool) (here : List String) : List String → Option String
  | [] => none
  | name :: rest =>
    if name = "." then reach isDirectory here rest
    else if name = ".." then reach isDirectory here.dropLast rest
    else if 255 < name.utf8ByteSize then none
    else if isDirectory (key (here ++ [name])) then reach isDirectory (here ++ [name]) rest
    else if rest.isEmpty then some (key (here ++ [name]))
    else none

variable {fs fs' : FileSystem} {key : String}

theorem follow_key (fs : FileSystem) (here way : List String) :
    (fs.follow here way).toOption.bind Place.key? = reach fs.isDirectory here way := by
  induction way generalizing here with
  | nil => rfl
  | cons name rest ih =>
    unfold follow reach
    split
    · exact ih here
    · split
      · exact ih here.dropLast
      · split
        · rfl
        · dsimp only
          have judged : ∀ {node}, fs.node? (FileSystem.key (here ++ [name])) = node →
              fs.isDirectory (FileSystem.key (here ++ [name])) =
                match node with
                | some .directory => true
                | _ => false := by
            rintro _ rfl
            rfl
          cases met : fs.node? (FileSystem.key (here ++ [name])) with
          | none =>
            rw [judged met]
            cases rest <;> rfl
          | some node =>
            rw [judged met]
            cases node with
            | directory => exact ih (here ++ [name])
            | file content => cases rest <;> rfl
            | sink => cases rest <;> rfl

theorem reach_plain {isDirectory : String → Bool} {here way : List String}
    (found : reach isDirectory here way = some key) : isDirectory key = false := by
  fun_induction reach isDirectory here way with
  | case1 => cases found
  | case2 here rest ih => exact ih found
  | case3 here rest _ ih => exact ih found
  | case4 => cases found
  | case5 here name rest _ _ _ _ ih => exact ih found
  | case6 here name rest _ _ _ plain =>
    cases found
    simpa using plain
  | case7 => cases found

theorem writable_reach (path : String) :
    (∀ fs : FileSystem, (fs.writable path).toOption = none) ∨
      ∀ fs : FileSystem, (fs.writable path).toOption =
        reach fs.isDirectory (if isAbsolute path then [] else fs.home) (writingWay path) := by
  have place : ∀ found : Except FileFault Place, (found >>= fun place => match place with
      | .directory => throw .isDirectory
      | .file key _ | .free key => return key).toOption = found.toOption.bind Place.key? := by
    intro found
    cases found with
    | error fault => rfl
    | ok place => cases place <;> rfl
  unfold writable locate
  cases checkText path with
  | error fault => exact .inl fun _ => rfl
  | ok u =>
    simp only [ok_bind, throw_eq_error, error_bind]
    split
    · exact .inl fun _ => rfl
    · split
      · exact .inl fun _ => rfl
      · refine .inr fun fs => ?_
        rw [← follow_key]
        exact place _

/-- Files that differ in their contents only: the directories, the devices and the room are the
same. -/
structure SameShape (fs fs' : FileSystem) : Prop where
  home : fs'.home = fs.home
  room : fs'.room = fs.room
  directories : ∀ key, fs'.isDirectory key = fs.isDirectory key
  sinks : ∀ key, fs'.nodes.lookup key = some .sink ↔ fs.nodes.lookup key = some .sink

namespace SameShape

theorem refl (fs : FileSystem) : fs.SameShape fs :=
  ⟨rfl, rfl, fun _ => rfl, fun _ => Iff.rfl⟩

theorem writable (same : fs.SameShape fs') (path : String) :
    (fs'.writable path).toOption = (fs.writable path).toOption := by
  rcases writable_reach path with nowhere | reached
  · rw [nowhere, nowhere]
  · rw [reached, reached, same.home, funext same.directories]

end SameShape

theorem writable_plain {path : String} (found : (fs.writable path).toOption = some key) :
    fs.isDirectory key = false := by
  rcases writable_reach path with nowhere | reached
  · cases (nowhere fs).symm.trans found
  · exact reach_plain ((reached fs).symm.trans found)

theorem setContent_here (content : List UInt8) (device : fs.nodes.lookup key ≠ some .sink) :
    (fs.setContent key content).nodes.lookup key = some (.file (fs.fitted key content)) := by
  unfold setContent
  split
  · rename_i sink
    exact absurd sink device
  · rw [Assoc.lookup_put, if_pos rfl]

theorem SameShape.setContent (same : fs.SameShape fs') (content : List UInt8)
    (plain : fs.isDirectory key = false) : fs.SameShape (fs'.setContent key content) := by
  by_cases device : fs'.nodes.lookup key = some .sink
  · have kept : fs'.setContent key content = fs' := by
      unfold FileSystem.setContent
      rw [device]
    rwa [kept]
  · have here := setContent_here content device
    constructor
    · unfold FileSystem.setContent
      split <;> exact same.home
    · exact (setContent_room ..).trans same.room
    · intro other
      by_cases there : key = other
      · subst there
        rw [plain]
        have named : key ≠ "" := by
          rintro rfl
          cases plain
        rw [isDirectory, node?, if_neg named, here]
      · rw [← same.directories, isDirectory, isDirectory, node?, node?,
          setContent_lookup content there]
    · intro other
      by_cases there : key = other
      · subst there
        rw [← same.sinks, here]
        constructor
        · rintro ⟨⟩
        · intro impossible
          exact absurd impossible device
      · rw [setContent_lookup content there]
        exact same.sinks other

end FileSystem

namespace Command

def Output.key? (fs : FileSystem) (output : Output) : Option String :=
  output.path.bind fun path => (fs.writable path).toOption

def Output.fits (fs : FileSystem) (output : Output) : Bool :=
  (output.key? fs).any fun key => fs.hasRoom key output.text.utf8ByteSize

/-- What a file holds once an output was written to it, by the bytes that there is room for. -/
def Output.kept (output : Output) : Option Nat → List UInt8
  | none => output.text.toUTF8.data.toList
  | some most => output.text.toUTF8.data.toList.take most

/-- The output files that are opened: those that fit, up to the first one that does not, and that
one if it can be opened. -/
def opened (fs : FileSystem) : List Output → List Output
  | [] => []
  | output :: rest =>
    if output.fits fs then output :: opened fs rest
    else if (output.key? fs).isSome then [output]
    else []

/-- What files hold after outputs were written one after the other: the text of the last one that
goes there, as far as there is room, and what they held before if none does. Devices keep
nothing. -/
structure Wrote (fs : FileSystem) (spared : Option String) (outputs : List Output)
    (old new : Assoc Node) : Prop where
  untouched : ∀ key, spared ≠ some key → (∀ output ∈ outputs, output.key? fs ≠ some key) →
    new.lookup key = old.lookup key
  landed : ∀ before output after key, outputs = before ++ output :: after →
    output.key? fs = some key → (∀ later ∈ after, later.key? fs ≠ some key) →
    spared ≠ some key → fs.nodes.lookup key ≠ some .sink →
    new.lookup key = some (.file (output.kept (fs.room.lookup key)))

variable {fs : FileSystem} {spared : Option String} {output : Output} {outputs : List Output}
  {old middle new : Assoc Node}

theorem Output.kept_of_fits {key : String} (goes : output.key? fs = some key)
    (fits : output.fits fs = true) :
    output.kept (fs.room.lookup key) = output.text.toUTF8.data.toList := by
  rw [Output.fits, goes, Option.any_some, FileSystem.hasRoom] at fits
  cases limit : fs.room.lookup key with
  | none => rfl
  | some most =>
    rw [limit] at fits
    apply List.take_of_length_le
    simpa using fits

theorem Output.key_of_fits (fits : output.fits fs = true) : ∃ key, output.key? fs = some key := by
  unfold Output.fits at fits
  cases goes : output.key? fs with
  | none =>
    rw [goes] at fits
    cases fits
  | some key => exact ⟨key, rfl⟩

theorem Wrote.nothing (same : ∀ key, spared ≠ some key → new.lookup key = old.lookup key) :
    Wrote fs spared [] old new where
  untouched key apart _ := same key apart
  landed before output after key impossible := by simp at impossible

theorem Wrote.cons {key : String} (goes : output.key? fs = some key)
    (elsewhere : ∀ other, spared ≠ some other → key ≠ other →
      middle.lookup other = old.lookup other)
    (here : spared ≠ some key → fs.nodes.lookup key ≠ some .sink →
      middle.lookup key = some (.file (output.kept (fs.room.lookup key))))
    (rest : Wrote fs spared outputs middle new) : Wrote fs spared (output :: outputs) old new where
  untouched other apart none := by
    obtain ⟨first, later⟩ := List.forall_mem_cons.mp none
    rw [rest.untouched other apart later]
    apply elsewhere other apart
    rintro rfl
    exact first goes
  landed before last after other split there final apart device := by
    cases before with
    | nil =>
      cases split
      cases goes.symm.trans there
      rw [rest.untouched key apart final]
      exact here apart device
    | cons _ before =>
      cases split
      exact rest.landed before last after other rfl there final apart device

theorem writeOutput_key (fs : FileSystem) (output : Output) :
    (writeOutput fs output).1 =
      ((output.key? fs).map fun key => fs.setContent key (Text.encode output.text)).getD fs ∧
    ((writeOutput fs output).2 = .ok () ↔ output.fits fs = true) := by
  unfold writeOutput Output.fits Output.key?
  cases output.path with
  | none => exact ⟨rfl, by simp [needPath]⟩
  | some path =>
    dsimp only [needPath, FileSystem.write, Option.bind_some]
    cases fs.writable path with
    | error fault => exact ⟨rfl, by simp [Except.mapError, Except.toOption]⟩
    | ok key =>
      refine ⟨rfl, ?_⟩
      rw [encode_length, Except.toOption, Option.any_some]
      cases room : fs.hasRoom key output.text.utf8ByteSize <;>
        simp [Except.mapError, room]

theorem Output.key?_sameShape {fs' : FileSystem} (same : fs.SameShape fs') (output : Output) :
    output.key? fs' = output.key? fs := by
  unfold Output.key?
  cases output.path with
  | none => rfl
  | some path => exact same.writable path

theorem Output.fits_sameShape {fs' : FileSystem} (same : fs.SameShape fs') (output : Output) :
    output.fits fs' = output.fits fs := by
  unfold Output.fits FileSystem.hasRoom
  rw [output.key?_sameShape same, same.room]

theorem Output.key?_plain {key : String} (goes : output.key? fs = some key) :
    fs.isDirectory key = false := by
  obtain ⟨path, _, found⟩ := Option.bind_eq_some_iff.mp goes
  exact FileSystem.writable_plain found

end Command

structure Disk.Writing (fs : FileSystem) (spared : Option String) (disk : Disk) : Prop where
  log : disk.log.map LogFile.key = spared
  plain : ∀ key, spared = some key → fs.isDirectory key = false
  shape : fs.SameShape disk.files

namespace Disk.Writing

variable {fs : FileSystem} {spared : Option String} {disk : Disk}

theorem record (writing : disk.Writing fs spared) (events : List Event) :
    (disk.record events).Writing fs spared := by
  unfold Disk.record
  split
  · exact writing
  · rename_i log opened
    have known : some log.key = spared := by
      rw [← writing.log, opened]
      rfl
    refine ⟨known, writing.plain, ?_⟩
    dsimp only [FileSystem.writeAt]
    split
    · exact writing.shape
    · exact writing.shape.setContent _ (writing.plain log.key known.symm)

theorem record_lookup (writing : disk.Writing fs spared) (events : List Event) {key : String}
    (apart : spared ≠ some key) :
    (disk.record events).files.nodes.lookup key = disk.files.nodes.lookup key := by
  have keeps : disk.Keeps disk.files spared := ⟨writing.log, fun _ _ => rfl⟩
  exact (keeps.record events).files key apart

theorem setContent (writing : disk.Writing fs spared) {key : String} (content : List UInt8)
    (plain : fs.isDirectory key = false) :
    { disk with files := disk.files.setContent key content }.Writing fs spared :=
  ⟨writing.log, writing.plain, writing.shape.setContent content plain⟩

end Disk.Writing

theorem FileSystem.SameShape.keeps_output {fs disk : FileSystem} (same : fs.SameShape disk)
    (output : Command.Output) {key : String} (device : fs.nodes.lookup key ≠ some .sink) :
    (disk.setContent key (Text.encode output.text)).nodes.lookup key =
      some (.file (output.kept (fs.room.lookup key))) := by
  have fitted : disk.fitted key (Text.encode output.text) = output.kept (fs.room.lookup key) := by
    unfold FileSystem.fitted Command.Output.kept
    rw [same.room]
    cases fs.room.lookup key <;> rfl
  rw [← fitted]
  exact FileSystem.setContent_here _ fun sink => device ((same.sinks key).mp sink)

/-- Writing stops at the first file that cannot be written, and everything before it is written. -/
theorem writeOutputs_wrote {fs : FileSystem} {spared : Option String} {disk : Disk}
    {outputs : List Command.Output} (writing : disk.Writing fs spared) :
    (Command.writeOutputs disk outputs).1.Writing fs spared ∧
    Command.Wrote fs spared (Command.opened fs outputs) disk.files.nodes
      (Command.writeOutputs disk outputs).1.files.nodes ∧
    ((∃ failure, (Command.writeOutputs disk outputs).2.result = .error failure) ↔
      ∃ output ∈ outputs, output.fits fs = false) := by
  induction outputs generalizing disk with
  | nil => exact ⟨writing, .nothing fun _ _ => rfl, by simp [Command.writeOutputs]⟩
  | cons output rest ih =>
    obtain ⟨files, fits⟩ := Command.writeOutput_key disk.files output
    rw [output.key?_sameShape writing.shape] at files
    rw [output.fits_sameShape writing.shape] at fits
    rw [Command.writeOutputs, Command.opened]
    rcases wrote : Command.writeOutput disk.files output with ⟨after, failure | _⟩
    · rw [wrote] at files fits
      have refused : output.fits fs = false := by simpa using fits
      have iff : (∃ failure', (Except.error failure : Except Failure Unit) = .error failure') ↔
          ∃ output' ∈ output :: rest, output'.fits fs = false :=
        ⟨fun _ => ⟨output, List.mem_cons_self, refused⟩, fun _ => ⟨failure, rfl⟩⟩
      rw [if_neg (by simp [refused])]
      cases goes : output.key? fs with
      | none =>
        rw [goes] at files
        cases files
        exact ⟨writing, .nothing fun _ _ => rfl, iff⟩
      | some key =>
        rw [goes] at files
        obtain rfl : after = disk.files.setContent key (Text.encode output.text) := files
        have stored := writing.setContent (Text.encode output.text) (Command.Output.key?_plain goes)
        refine ⟨stored, .cons goes ?_ ?_ (.nothing fun _ _ => rfl), iff⟩
        · intro other _ elsewhere
          exact FileSystem.setContent_lookup _ elsewhere
        · intro _ device
          exact writing.shape.keeps_output output device
    · rw [wrote] at files fits
      have accepted : output.fits fs = true := fits.mp rfl
      obtain ⟨key, goes⟩ := Command.Output.key_of_fits accepted
      rw [goes] at files
      obtain rfl : after = disk.files.setContent key (Text.encode output.text) := files
      rw [if_pos accepted]
      have stored := writing.setContent (Text.encode output.text) (Command.Output.key?_plain goes)
      have next := stored.record output.events
      obtain ⟨still, later, iff⟩ := ih next
      refine ⟨still, .cons goes ?_ ?_ later, ?_⟩
      · intro other apart elsewhere
        rw [stored.record_lookup output.events apart]
        exact FileSystem.setContent_lookup _ elsewhere
      · intro apart device
        rw [stored.record_lookup output.events apart]
        exact writing.shape.keeps_output output device
      · simp [accepted, iff]

theorem opening_writing {settings : Settings} {occasion : Occasion} {fs : FileSystem} {disk : Disk}
    (opened : Command.opening settings occasion fs = .ok disk) :
    disk.Writing fs (Command.logFile? settings fs) := by
  have log := (opening_keeps opened).log
  unfold Command.opening at opened
  split at opened
  · cases created : fs.create (Command.logPath settings) with
    | error fault =>
      rw [created] at opened
      cases opened
    | ok made =>
      obtain ⟨fs', key⟩ := made
      rw [created] at opened
      cases opened
      obtain ⟨rfl, found⟩ := create_ok created
      have reached : FileSystem.reach fs.isDirectory []
          (fs.absoluteNames (Command.logPath settings)) = some key := by
        rw [← FileSystem.follow_key]
        rcases found with ⟨content, found⟩ | found <;> rw [found] <;> rfl
      have plain := FileSystem.reach_plain reached
      rw [← log]
      refine ⟨rfl, ?_, (FileSystem.SameShape.refl fs).setContent [] plain⟩
      rintro _ ⟨⟩
      exact plain
  · cases opened
    rw [← log]
    exact ⟨rfl, by rintro key ⟨⟩, .refl fs⟩

theorem perform_disk [Machine] {settings : Settings} {disk : Disk} {made : Assembly}
    (done : (Command.prepare settings disk).result = .ok made) (elapsed : String) :
    ∃ events, (Command.perform settings elapsed disk).1 =
      (Command.writeOutputs (disk.record (Command.prepare settings disk).events)
        (Command.outputs settings made)).1.record events := by
  unfold Command.perform
  simp only [done]
  exact ⟨_, rfl⟩

/-- Once the output is prepared, a run fails exactly if one of the output files cannot be opened or
has no room for its text, or the log has no room. The image, the header and the listing are written
in this order: in full up to the first one that fails, and that one as far as there is room, if it
can be opened. Nothing else is changed but the log, and nothing at all if the image cannot be
opened. -/
theorem outputs_written_in_order [Machine] {arguments : List String} {settings : Settings}
    (accepted : Settings.ofArguments arguments = .ok settings) (occasion : Occasion)
    (fs : FileSystem) {disk : Disk} {made : Assembly}
    (opened : Command.opening settings occasion fs = .ok disk)
    (done : (Command.prepare settings disk).result = .ok made) :
    let report := Command.run arguments occasion fs
    let outputs := Command.outputs settings made
    (report.ending = .returned 1 ↔
      (∃ output ∈ outputs, output.fits fs = false) ∨ Command.LogRefused settings occasion fs) ∧
    Command.Wrote fs (Command.logFile? settings fs) (Command.opened fs outputs) fs.nodes
      report.files.nodes ∧
    (∀ output ∈ outputs.takeWhile (Command.Output.fits fs), ∀ key, output.key? fs = some key →
      output.kept (fs.room.lookup key) = output.text.toUTF8.data.toList) ∧
    ((settings.output.bind fun path => (fs.writable path).toOption) = none →
      ∀ key, Command.logFile? settings fs ≠ some key →
        report.files.nodes.lookup key = fs.nodes.lookup key) := by
  intro report outputs
  have ran : report = Command.runOn settings occasion.elapsed disk := by
    simp only [report, Command.run, accepted, runWith_opening, opened]
  obtain ⟨events, left⟩ := perform_disk done occasion.elapsed
  have writing := opening_writing opened
  obtain ⟨last, wrote, iff⟩ := @writeOutputs_wrote fs _ _ outputs
    (writing.record (Command.prepare settings disk).events)
  have ends : ∀ key, Command.logFile? settings fs ≠ some key →
      report.files.nodes.lookup key = (Command.writeOutputs
        (disk.record (Command.prepare settings disk).events) outputs).1.files.nodes.lookup key := by
    intro key apart
    rw [ran, runOn_files, left]
    exact last.record_lookup events apart
  have starts : ∀ key, Command.logFile? settings fs ≠ some key →
      (disk.record (Command.prepare settings disk).events).files.nodes.lookup key =
        fs.nodes.lookup key := by
    intro key apart
    rw [writing.record_lookup _ apart]
    exact (opening_keeps opened).files key apart
  have untouched : ∀ key, Command.logFile? settings fs ≠ some key →
      (∀ output ∈ Command.opened fs outputs, output.key? fs ≠ some key) →
      report.files.nodes.lookup key = fs.nodes.lookup key := by
    intro key apart none
    rw [ends key apart, wrote.untouched key apart none, starts key apart]
  refine ⟨?_, ⟨untouched, ?_⟩, ?_, ?_⟩
  · rw [ran, runOn_failed_iff, perform_prepared done, iff, logRefused_iff opened done]
  · intro before output after key split goes final apart device
    rw [ends key apart]
    exact wrote.landed before output after key split goes final apart device
  · intro output member key goes
    exact Command.Output.kept_of_fits goes (List.mem_takeWhile_imp member)
  · intro nowhere key apart
    have none : Command.opened fs outputs = [] := by
      have first : ∀ events,
          Command.Output.key? fs ⟨settings.output, made.imageText, events⟩ = none :=
        fun _ => nowhere
      rw [show outputs = _ :: _ from rfl, Command.opened, Command.Output.fits, first]
      rfl
    apply untouched key apart
    rw [none]
    intro output impossible
    cases impossible

/-- The header goes to a device without room: the image is new, and there is no listing. -/
theorem outputs_written_in_order_header_refused :
    let fs : FileSystem := ⟨[("w", .directory),
      ("w/fields", .file (Text.encode "#field OP_ 0 2\n")),
      ("w/stream", .file (Text.encode "OP_=5\n")), ("w/rom", .file [79]), ("dev", .directory),
      ("dev/full", .sink)], ["w"], [("dev/full", 0)]⟩
    let report := Command.run ["-i", "stream", "-L", "fields", "-o", "rom", "-D", "/dev/full", "-r"]
      ⟨"", fun _ => "", ""⟩ fs
    report.ending = .returned 1 ∧
      report.files.nodes.lookup "w/rom" = some (.file (String.toUTF8
        ("DEPTH = 1;\nWIDTH = 3;\nADDRESS_RADIX = DEC;\nDATA_RADIX = BIN;\nCONTENT\nBEGIN\n" ++
          "     0: 101;\nEND;\n")).data.toList) ∧
      report.files.nodes.lookup "w/rom_readable.txt" = none := by
  intro fs report
  let settings : Settings :=
    ⟨some "stream", some "fields", some "rom", some "/dev/full", true, false, some 9,
      false, false, false⟩
  have accepted : Settings.ofArguments
      ["-i", "stream", "-L", "fields", "-o", "rom", "-D", "/dev/full", "-r"] = .ok settings := by
    decide +kernel
  have prepared : (Command.prepare settings ⟨fs, none⟩).result.toOption.map (fun made =>
      (made.imageText, Command.Output.fits fs ⟨some "/dev/full", made.header, []⟩)) =
      some ("DEPTH = 1;\nWIDTH = 3;\nADDRESS_RADIX = DEC;\nDATA_RADIX = BIN;\nCONTENT\nBEGIN\n" ++
        "     0: 101;\nEND;\n", false) := by
    decide +kernel
  obtain ⟨made, found, shown⟩ := Option.map_eq_some_iff.mp prepared
  obtain ⟨text, refused⟩ := Prod.mk.inj shown
  have image : Command.Output.key? fs ⟨some "rom", made.imageText, []⟩ = some "w/rom" := by
    rw [text]
    decide +kernel
  have fits : Command.Output.fits fs ⟨some "rom", made.imageText, []⟩ = true := by
    rw [text]
    decide +kernel
  have header : Command.Output.key? fs ⟨some "/dev/full", made.header, []⟩ = some "dev/full" := by
    have leads : (fs.writable "/dev/full").toOption = some "dev/full" := by decide +kernel
    exact leads
  obtain ⟨iff, wrote, _, _⟩ := outputs_written_in_order accepted ⟨"", fun _ => "", ""⟩ fs rfl
    (toOption_eq_some.mp found)
  have opened : Command.opened fs (Command.outputs settings made) =
      [⟨some "rom", made.imageText, []⟩, ⟨some "/dev/full", made.header, []⟩] := by
    rw [show Command.outputs settings made =
      ⟨some "rom", made.imageText, []⟩ :: ⟨some "/dev/full", made.header, []⟩ :: _ from rfl,
      Command.opened, if_pos fits, Command.opened, refused, header]
    rfl
  rw [opened] at wrote
  refine ⟨iff.mpr (.inl ⟨⟨some "/dev/full", made.header, []⟩, ?_, refused⟩), ?_, ?_⟩
  · exact List.mem_cons_of_mem _ List.mem_cons_self
  · rw [wrote.landed [] _ _ "w/rom" rfl image ?_ (by decide +kernel) (by decide +kernel)]
    · rw [← text]
      rfl
    · intro later member
      rw [List.mem_singleton.mp member, header]
      decide
  · rw [wrote.untouched "w/rom_readable.txt" (by decide +kernel)]
    · decide +kernel
    · simp only [List.forall_mem_cons, image, header]
      decide

/-- A run that fails since its header cannot be opened has made its image all the same. -/
theorem image_without_header :
    let fs : FileSystem := ⟨[("w", .directory),
      ("w/fields", .file (Text.encode "#field OP_ 0 2\n")),
      ("w/stream", .file (Text.encode "OP_=5\n")),
      ("w/microcode_locations.v", .directory)], ["w"], []⟩
    let report := Command.run ["-i", "stream", "-L", "fields", "-o", "rom"]
      ⟨"", fun _ => "", ""⟩ fs
    report.ending = .returned 1 ∧ fs.nodes.lookup "w/rom" = none ∧
      (report.files.nodes.lookup "w/rom").isSome = true := by
  decide +kernel

end Microcode
