import Microcode.Proofs.InterruptedRun

/-!
The files that a run reads. A path leads to the same file as long as no directory comes or goes and
the file itself stays, and what a run prepares depends on nothing but the lines of its two source
files. So what was prepared once is prepared again from any files that hold the same sources.
-/
namespace Microcode

namespace FileSystem

variable {fs fs' : FileSystem} {key path : String}

def source? (fs : FileSystem) (path : String) : Option String :=
  (fs.locate path (names path)).toOption.bind Place.key?

def placeAt (fs : FileSystem) (key : String) : Place :=
  match fs.node? key with
  | some (.file content) => .file key content
  | some .sink => .file key []
  | _ => .free key

theorem SameShape.symm (same : fs.SameShape fs') : fs'.SameShape fs :=
  ⟨same.home.symm, same.room.symm, fun key => (same.directories key).symm,
    fun key => (same.sinks key).symm⟩

theorem locate_ok_iff {way : List String} {place : Place} :
    fs.locate path way = .ok place ↔
      (checkText path = .ok () ∧ path ≠ "" ∧ path.utf8ByteSize ≤ maxPathBytes) ∧
        fs.follow (if isAbsolute path then [] else fs.home) way = .ok place := by
  unfold locate
  cases checkText path with
  | error fault => simp
  | ok u =>
    by_cases empty : path = ""
    · simp [empty]
    · by_cases long : maxPathBytes < path.utf8ByteSize
      · simp [empty, long]
      · simp [empty, long, Nat.le_of_not_lt long]

theorem follow_placeAt {here way : List String} {place : Place}
    (found : fs.follow here way = .ok place) (named : place.key? = some key) :
    place = fs.placeAt key := by
  induction way generalizing here with
  | nil =>
    cases found
    cases named
  | cons name rest ih =>
    unfold follow at found
    split at found
    · exact ih found
    · split at found
      · exact ih found
      · split at found
        · cases found
        · dsimp only at found
          split at found
          · exact ih found
          all_goals
            split at found
            · cases found
              cases named
              simp only [placeAt, *]
            · cases found

theorem follow_place_iff {here way : List String} {place : Place} (named : place.key? = some key) :
    fs.follow here way = .ok place ↔
      reach fs.isDirectory here way = some key ∧ place = fs.placeAt key := by
  have reached := fs.follow_key here way
  constructor
  · intro found
    rw [found] at reached
    exact ⟨reached.symm.trans named, follow_placeAt found named⟩
  · rintro ⟨leads, rfl⟩
    rw [leads, Option.bind_eq_some_iff] at reached
    obtain ⟨place, found, named'⟩ := reached
    have found := toOption_eq_some.mp found
    rw [found, follow_placeAt found named']

theorem SameShape.locate (same : fs.SameShape fs') {way : List String} {place : Place}
    (found : fs.locate path way = .ok place) (named : place.key? = some key)
    (kept : fs'.nodes.lookup key = fs.nodes.lookup key) : fs'.locate path way = .ok place := by
  obtain ⟨fine, followed⟩ := locate_ok_iff.mp found
  refine locate_ok_iff.mpr ⟨fine, ?_⟩
  rw [follow_place_iff named] at followed ⊢
  obtain ⟨leads, rfl⟩ := followed
  refine ⟨?_, ?_⟩
  · rw [same.home, funext same.directories]
    exact leads
  · simp only [placeAt, node?, kept]

theorem read_ok_iff {content : List UInt8} :
    fs.read path = .ok content ↔
      endsInSlash path = false ∧ ∃ key, fs.locate path (names path) = .ok (.file key content) := by
  unfold read
  rw [bind_ok_iff]
  constructor
  · rintro ⟨place, found, content⟩
    cases place with
    | directory => cases content
    | free key => cases content
    | file key stored =>
      simp only at content
      split at content
      · cases content
      · rename_i plain
        cases content
        exact ⟨by simpa using plain, key, found⟩
  · rintro ⟨plain, key, found⟩
    exact ⟨.file key content, found, by simp [plain]⟩

theorem SameShape.read (same : fs.SameShape fs') {content : List UInt8}
    (done : fs.read path = .ok content)
    (kept : ∀ key, fs.source? path = some key → fs'.nodes.lookup key = fs.nodes.lookup key) :
    fs'.read path = .ok content := by
  obtain ⟨plain, key, found⟩ := read_ok_iff.mp done
  refine read_ok_iff.mpr ⟨plain, key, same.locate found rfl (kept key ?_)⟩
  simp [source?, found, Except.toOption, Place.key?]

theorem source_eq_some {path : String} :
    fs.source? path = some key ↔
      (checkText path = .ok () ∧ path ≠ "" ∧ path.utf8ByteSize ≤ maxPathBytes) ∧
        reach fs.isDirectory (if isAbsolute path then [] else fs.home) (names path) = some key := by
  rw [source?, ← follow_key, Option.bind_eq_some_iff, Option.bind_eq_some_iff]
  simp only [toOption_eq_some, locate_ok_iff, and_assoc, exists_and_left]

theorem SameShape.source (same : fs.SameShape fs') (path : String) :
    fs'.source? path = fs.source? path := by
  apply Option.ext
  intro key
  rw [source_eq_some, source_eq_some, same.home, funext same.directories]

def Holds (fs : FileSystem) (path : Option String) (lines : List String) : Prop :=
  ∃ name bytes chars, path = some name ∧ fs.read name = .ok bytes ∧
    Text.decode bytes = .ok chars ∧ lines = Text.linesOf chars

theorem SameShape.holds (same : fs.SameShape fs') {path : Option String} {lines : List String}
    (kept : ∀ key, path.bind fs.source? = some key →
      fs'.nodes.lookup key = fs.nodes.lookup key) :
    fs'.Holds path lines ↔ fs.Holds path lines := by
  constructor
  · rintro ⟨name, bytes, chars, rfl, read, decoded, rfl⟩
    refine ⟨name, bytes, chars, rfl, same.symm.read read ?_, decoded, rfl⟩
    intro key leads
    exact (kept key ((same.source name).symm.trans leads)).symm
  · rintro ⟨name, bytes, chars, rfl, read, decoded, rfl⟩
    exact ⟨name, bytes, chars, rfl, same.read read kept, decoded, rfl⟩

theorem Holds.unique {path : Option String} {lines lines' : List String}
    (one : fs.Holds path lines) (other : fs.Holds path lines') : lines = lines' := by
  obtain ⟨name, bytes, chars, rfl, read, decoded, rfl⟩ := one
  obtain ⟨_, _, _, ⟨⟩, read', decoded', rfl⟩ := other
  cases read.symm.trans read'
  cases decoded.symm.trans decoded'
  rfl

theorem readLines_ok_iff {lines : List String} {absent : Cause} :
    Command.readLines fs path absent = .ok lines ↔ fs.Holds (some path) lines := by
  unfold Command.readLines Holds
  constructor
  · intro done
    split at done
    · cases done
    · cases done
    · rename_i bytes read
      split at done
      · cases done
      · rename_i chars decoded
        cases done
        exact ⟨path, bytes, chars, rfl, read, decoded, rfl⟩
  · rintro ⟨_, bytes, chars, ⟨⟩, read, decoded, rfl⟩
    simp only [read, decoded]

theorem create_ok_iff {fs'' : FileSystem} :
    fs.create path = .ok (fs'', key) ↔
      (checkText (fs.absolutePath path) = .ok () ∧
        (fs.absolutePath path).utf8ByteSize ≤ maxPathBytes) ∧
      reach fs.isDirectory [] (fs.absoluteNames path) = some key ∧
      fs'' = fs.setContent key [] := by
  rw [← follow_key]
  unfold create
  dsimp only
  cases checkText (fs.absolutePath path) with
  | error fault => simp
  | ok u =>
    by_cases long : maxPathBytes < (fs.absolutePath path).utf8ByteSize
    · simp [long]
    · cases fs.follow [] (fs.absoluteNames path) with
      | error fault => simp [long, Except.toOption]
      | ok place =>
        cases place <;>
          simp [long, Nat.le_of_not_lt long, Except.toOption, Place.key?, and_comm, eq_comm]
        all_goals
          rintro rfl
          rfl

theorem SameShape.create (same : fs.SameShape fs') {made : FileSystem}
    (created : fs.create path = .ok (made, key)) :
    fs'.create path = .ok (fs'.setContent key [], key) := by
  have names : fs'.absoluteNames path = fs.absoluteNames path := by
    unfold absoluteNames
    rw [same.home]
  have text : fs'.absolutePath path = fs.absolutePath path := by
    unfold absolutePath
    rw [names]
  obtain ⟨fine, leads, _⟩ := create_ok_iff.mp created
  rw [create_ok_iff, text, names, funext same.directories]
  exact ⟨fine, leads, rfl⟩

end FileSystem

@[simp] theorem Logged.ofExcept_ok_bind {ε α β : Type} (a : α) (next : α → Logged ε β) :
    (Logged.ofExcept (.ok a) >>= next) = next a := rfl

section

variable {settings : Settings} {disk disk' : Disk} {layoutTexts texts : List String}

theorem openLayout_lines [Machine] {fs fs' : FileSystem}
    (one : fs.Holds settings.layout layoutTexts) (other : fs'.Holds settings.layout layoutTexts) :
    Command.openLayout settings fs = Command.openLayout settings fs' := by
  cases given : settings.layout with
  | none =>
    rw [given] at one
    obtain ⟨_, _, _, ⟨⟩, _⟩ := one
  | some path =>
    rw [given] at one other
    simp only [Command.openLayout, given, Command.needPath, Logged.ofExcept_ok_bind,
      FileSystem.readLines_ok_iff.mpr one, FileSystem.readLines_ok_iff.mpr other]

theorem prepare_lines [Machine] (laid : disk.files.Holds settings.layout layoutTexts)
    (laid' : disk'.files.Holds settings.layout layoutTexts)
    (given : ∀ events, (disk.record events).files.Holds settings.input texts)
    (given' : ∀ events, (disk'.record events).files.Holds settings.input texts) :
    Command.prepare settings disk = Command.prepare settings disk' := by
  cases input : settings.input with
  | none =>
    rw [input] at given
    obtain ⟨_, _, _, ⟨⟩, _⟩ := given []
  | some path =>
    rw [input] at given given'
    have lines := fun events absent =>
      (@FileSystem.readLines_ok_iff _ path texts absent).mpr (given events)
    have lines' := fun events absent =>
      (@FileSystem.readLines_ok_iff _ path texts absent).mpr (given' events)
    simp only [Command.prepare, input, openLayout_lines laid laid', Command.needPath,
      Logged.ofExcept_ok_bind, lines, lines']

end

end Microcode
