import Microcode.Proofs.InterruptedRun

/-!
The log of a run. A log file is empty when it is opened, and whatever is told later is written
behind what was told before, while output files are written elsewhere. So as long as there is room
it holds the notices told so far, one after the other.
-/
namespace Microcode

/-- A text is stored under a key; a device keeps nothing. -/
def FileSystem.Stored (fs after : FileSystem) (key text : String) : Prop :=
  after.nodes.lookup key =
    if fs.nodes.lookup key = some .sink then some .sink
    else some (.file text.toUTF8.data.toList)

theorem overlay_end (content bytes : List UInt8) :
    FileSystem.overlay content content.length bytes = content ++ bytes := by
  simp [FileSystem.overlay]

namespace FileSystem

variable {fs fs' : FileSystem} {key other text : String}

theorem fitted_of_hasRoom {content : List UInt8} (room : fs.hasRoom key content.length = true) :
    fs.fitted key content = content := by
  unfold hasRoom at room
  unfold fitted
  cases limit : fs.room.lookup key with
  | none => rfl
  | some most =>
    rw [limit] at room
    exact List.take_of_length_le (by simpa using room)

theorem hasRoom_mono {bytes more : Nat} (room : fs.hasRoom key more = true) (fewer : bytes ≤ more) :
    fs.hasRoom key bytes = true := by
  unfold hasRoom at room ⊢
  cases limit : fs.room.lookup key with
  | none => rfl
  | some most =>
    rw [limit] at room
    simp only [decide_eq_true_eq] at room ⊢
    omega

theorem Stored.setContent
    (device : fs'.nodes.lookup key = some .sink ↔ fs.nodes.lookup key = some .sink)
    (room : fs'.hasRoom key text.utf8ByteSize = true) :
    fs.Stored (fs'.setContent key (Text.encode text)) key text := by
  unfold Stored
  split
  · rename_i sink
    simp only [FileSystem.setContent, device.mpr sink]
  · rename_i plain
    rw [setContent_here _ fun sink => plain (device.mp sink),
      fitted_of_hasRoom (by rwa [encode_length])]
    rfl

theorem Stored.elsewhere {content : List UInt8} (stored : fs.Stored fs' key text)
    (apart : other ≠ key) : fs.Stored (fs'.setContent other content) key text :=
  (setContent_lookup content apart).trans stored

theorem Stored.device (stored : fs.Stored fs' key text) :
    fs'.nodes.lookup key = some .sink ↔ fs.nodes.lookup key = some .sink := by
  unfold Stored at stored
  split at stored <;> simp_all

theorem Stored.sameShape {after : FileSystem} (stored : fs'.Stored after key text)
    (same : fs.SameShape fs') : fs.Stored after key text := by
  unfold Stored at stored ⊢
  simp only [stored, same.sinks]

theorem Stored.append (stored : fs.Stored fs' key text) (more : String)
    (room : fs'.hasRoom key (text ++ more).utf8ByteSize = true) :
    fs.Stored (fs'.writeAt key text.utf8ByteSize (Text.encode more)) key (text ++ more) := by
  unfold writeAt
  split
  · rename_i nothing
    have same : text ++ more = text := by
      have size : more.utf8ByteSize = 0 := by
        rw [← encode_length, List.isEmpty_iff.mp nothing, List.length_nil]
      rw [String.utf8ByteSize_eq_zero_iff.mp size, String.append_empty]
    rwa [same]
  · by_cases sink : fs.nodes.lookup key = some .sink
    · have kept : ∀ content, fs'.setContent key content = fs' := by
        intro content
        simp only [FileSystem.setContent, stored.device.mpr sink]
      unfold Stored at stored ⊢
      rw [kept, stored, if_pos sink, if_pos sink]
    · have held : fs'.contentAt key = Text.encode text := by
        unfold Stored at stored
        rw [contentAt, stored, if_neg sink]
        rfl
      rw [held, ← encode_length, overlay_end, ← encode_append]
      exact .setContent stored.device room

end FileSystem

/-- A disk whose log file holds the notices told so far, if there is room for them. -/
structure Disk.Logs (fs : FileSystem) (occasion : Occasion) (spared : Option String)
    (told : List Notice) (disk : Disk) : Prop extends Disk.Told fs occasion spared told disk where
  stored : ∀ key, spared = some key → fs.hasRoom key (occasion.logText told).utf8ByteSize = true →
    fs.Stored disk.files key (occasion.logText told)

namespace Disk.Logs

variable {fs : FileSystem} {occasion : Occasion} {spared : Option String} {told : List Notice}
  {disk : Disk}

theorem record (logs : disk.Logs fs occasion spared told) (events : List Event) :
    (disk.record events).Logs fs occasion spared (told ++ notices events) := by
  refine ⟨logs.toTold.record events, ?_⟩
  rintro key rfl room
  have longer := logText_append occasion told (notices events)
  rw [longer] at room ⊢
  have sofar := logs.stored key rfl (FileSystem.hasRoom_mono room (by
    rw [String.utf8ByteSize_append]
    omega))
  have room' : disk.files.hasRoom key
      (occasion.logText told ++ occasion.logText (notices events)).utf8ByteSize = true := by
    rw [FileSystem.hasRoom, logs.room]
    exact room
  unfold Disk.record
  rw [logs.log]
  exact sofar.append _ room'

theorem setContent (logs : disk.Logs fs occasion spared told) {key : String}
    (content : List UInt8) (apart : spared ≠ some key) :
    { disk with files := disk.files.setContent key content }.Logs fs occasion spared told := by
  refine ⟨⟨logs.log, (FileSystem.setContent_room ..).trans logs.room⟩, ?_⟩
  intro other here room
  apply (logs.stored other here room).elsewhere
  rintro rfl
  exact apart here

end Disk.Logs

theorem opening_logs {settings : Settings} {occasion : Occasion} {fs : FileSystem} {disk : Disk}
    (opened : Command.opening settings occasion fs = .ok disk) :
    disk.Logs fs occasion (Command.logFile? settings fs) [] := by
  refine ⟨opening_told opened, ?_⟩
  have log := (opening_keeps opened).log
  unfold Command.opening at opened
  split at opened
  · cases created : fs.create (Command.logPath settings) with
    | error fault =>
      rw [created] at opened
      cases opened
    | ok made =>
      obtain ⟨fs', key⟩ := made
      rw [created] at opened
      cases opened
      obtain ⟨rfl, _⟩ := create_ok created
      rw [← log]
      rintro _ ⟨⟩ room
      have empty : fs.Stored (fs.setContent key (Text.encode "")) key "" :=
        .setContent Iff.rfl room
      exact empty
  · cases opened
    rw [← log]
    rintro key ⟨⟩

theorem writeOutputs_logs {fs : FileSystem} {occasion : Occasion} {spared : Option String}
    {told : List Notice} {disk : Disk} {outputs : List Command.Output}
    (writing : disk.Writing fs spared) (logs : disk.Logs fs occasion spared told)
    (fits : ∀ output ∈ outputs, output.fits fs = true)
    (apart : ∀ output ∈ outputs, ∀ key, output.key? fs = some key → spared ≠ some key) :
    (Command.writeOutputs disk outputs).1.Logs fs occasion spared
      (told ++ notices (outputs.flatMap Command.Output.events)) ∧
    (Command.writeOutputs disk outputs).2.events = outputs.flatMap Command.Output.events := by
  induction outputs generalizing disk told with
  | nil =>
    refine ⟨?_, rfl⟩
    rw [List.flatMap_nil, notices, List.filterMap_nil, List.append_nil]
    exact logs
  | cons output rest ih =>
    obtain ⟨here, later⟩ := List.forall_mem_cons.mp fits
    obtain ⟨elsewhere, apart⟩ := List.forall_mem_cons.mp apart
    obtain ⟨key, goes⟩ := Command.Output.key_of_fits here
    obtain ⟨files, wrote⟩ := Command.writeOutput_key disk.files output
    rw [output.key?_sameShape writing.shape, goes] at files
    have accepted := wrote.mpr ((output.fits_sameShape writing.shape).trans here)
    have stored := writing.setContent (Text.encode output.text) (Command.Output.key?_plain goes)
    have logged :=
      (logs.setContent (Text.encode output.text) (elsewhere key goes)).record output.events
    obtain ⟨logs', events⟩ := ih (stored.record output.events) logged later apart
    have written : Command.writeOutput disk.files output =
        (disk.files.setContent key (Text.encode output.text), .ok ()) := Prod.ext files accepted
    rw [Command.writeOutputs, written]
    refine ⟨?_, by rw [List.flatMap_cons, ← events]⟩
    rw [List.flatMap_cons, notices_append, ← List.append_assoc]
    exact logs'

end Microcode
