import Microcode.Assembly
import Microcode.FileSystem
import Microcode.Options
import Microcode.Tables
import Microcode.Text.Utf8

/-!
The command: reads a layout file and a stream file, assembles them and writes the image, the
header and, if asked for, the listing and a log. Everything is rendered before the first file is
written; the files are then written one after the other.
-/
namespace Microcode

def version : String := "1.0.0"

inductive Failure where
  | error (e : Error)
  | file (fault : FileFault) (path : String)
  | undecodable (fault : Text.Utf8Fault)
  deriving DecidableEq, Repr

namespace Failure

def message : Failure → String
  | error e => e.message
  | file fault path => fault.message path
  | undecodable fault => fault.message

def fault? : Failure → Option Fault
  | error (.fault f) => some f
  | _ => none

end Failure

/-- How a run ends: with a status of its own, or with the exit code and the complaint of the
options. -/
inductive Ending where
  | returned (status : Nat)
  | stopped (code : Nat) (complaint : String)
  deriving DecidableEq, Repr

structure RunReport where
  ending : Ending
  events : List Event
  files : FileSystem
  deriving DecidableEq, Repr

structure Occasion where
  /-- The time in front of every entry of the log file. -/
  stamp : String
  /-- What the log file shows after a notice: the place it comes from. -/
  place : Notice → String
  /-- The running time shown in the summary. -/
  elapsed : String

structure LogFile where
  key : String
  occasion : Occasion
  /-- How many bytes were told so far; the next ones follow them. -/
  written : Nat

def LogFile.text (log : LogFile) (notices : List Notice) : String :=
  String.join (notices.map fun n =>
    s!"{log.occasion.stamp} [{n.level.name}] {n.message}{log.occasion.place n}\n")

/-- The files, and the log file that is open among them. -/
structure Disk where
  files : FileSystem
  log : Option LogFile

def Disk.record (disk : Disk) (events : List Event) : Disk :=
  match disk.log with
  | none => disk
  | some log =>
    let bytes := Text.encode (log.text (notices events))
    { files := disk.files.writeAt log.key log.written bytes
      log := some { log with written := log.written + bytes.length } }

/-- Closes the log file, if there is one: whatever was told has to be in it by then. -/
def Disk.close (disk : Disk) : Except Failure Unit :=
  match disk.log with
  | none => .ok ()
  | some log =>
    if disk.files.hasRoom log.key log.written then .ok () else .error (.file .noRoom log.key)

namespace Command

open Markup

def subtitle : String := s!"MicroASM v{version}"

/-- The lines of a text file; a file that is not there is reported as the given cause. -/
def readLines (fs : FileSystem) (path : String) (absent : Cause) : Except Failure (List String) :=
  match fs.read path with
  | .error .missing => .error (.error absent.report)
  | .error fault => .error (.file fault path)
  | .ok bytes =>
    match Text.decode bytes with
    | .error fault => .error (.undecodable fault)
    | .ok s => .ok (Text.linesOf s)

def needPath : Option String → Except Failure String
  | some path => .ok path
  | none => .error (.file .noPath "")

def debugPanel (tables : List Table) : Event :=
  .panel ⟨green "[DEBUG]" ++ " " ++ white "Information", none, tables.map .table⟩

/-- What only a verbose run tells. -/
def told (settings : Settings) (notice : Notice) : List Event :=
  if settings.verbose then [.notice notice] else []

def openLayout [Machine] (settings : Settings) (fs : FileSystem) : Logged Failure
    (Layout × SymbolTable) := do
  let path ← Logged.ofExcept (needPath settings.layout)
  let lines ← Logged.ofExcept (readLines fs path (.layoutNotFound path))
  Logged.tell [.notice (.loadingLayout path)]
  (readLayout lines settings.verbose).mapError .error

/-- Reads both files and assembles them, with every output text but nothing written. The log is
open all the time: whoever reads it as the stream file finds what was told about the layout. -/
def prepare [Machine] (settings : Settings) (disk : Disk) : Logged Failure Assembly := do
  let opened := openLayout settings disk.files
  let (layout, symbols) ← opened
  let path ← Logged.ofExcept (needPath settings.input)
  let streamLines ← Logged.ofExcept
    (readLines (disk.record opened.events).files path (.inputNotFound path))
  Logged.tell [.notice (.parsingInput path)]
  let fresh := Builder.fresh (some layout) symbols settings.debug
  let (count, builder) ← (fresh.readStream streamLines settings.verbose).toLogged.mapError .error
  if settings.debug then
    let table ← Logged.ofExcept ((builder.linesTable none "Parsed Lines").mapError .error)
    Logged.tell [debugPanel [table]]
  Logged.tell (told settings .resolving)
  let (image, builder) ← builder.finalize.toLogged.mapError .error
  Logged.tell [.notice .assembled]
  let imageText ← Logged.ofExcept ((image.text settings.fill).mapError .error)
  let header ← Logged.ofExcept ((builder.header settings.pcWidthDatum).mapError .error)
  let listing ← Logged.ofExcept
    ((if settings.readable then builder.listing image else .ok "").mapError .error)
  Logged.tell [.notice .emitting]
  return { count, builder, image, imageText, header, listing }

/-- A file to write, and what is told once it is written. -/
structure Output where
  path : Option String
  text : String
  events : List Event
  deriving DecidableEq, Repr

/-- A path in the names and texts made from it; empty brackets stand for none. -/
def pathText (path : Option String) : String := path.getD "[]"

def listingPath (settings : Settings) : String := pathText settings.output ++ "_readable.txt"

def logPath (settings : Settings) : String := pathText settings.output ++ ".log"

/-- The files of a run in the order in which they are written. -/
def outputs (settings : Settings) (made : Assembly) : List Output :=
  [⟨settings.output, made.imageText,
      told settings
        (.imageWritten (pathText settings.output) made.image.depth made.image.width)⟩,
    ⟨settings.defines, made.header, told settings (.headerWritten (pathText settings.defines))⟩] ++
  if settings.readable then
    [⟨some (listingPath settings), made.listing,
      told settings (.listingWritten (listingPath settings))⟩]
  else []

def writeOutput (fs : FileSystem) (output : Output) : FileSystem × Except Failure Unit :=
  match needPath output.path with
  | .error failure => (fs, .error failure)
  | .ok path =>
    let (files, wrote) := fs.write path (Text.encode output.text)
    (files, wrote.mapError (.file · path))

/-- Writes files one after the other, up to the first one that cannot be written. -/
def writeOutputs (disk : Disk) : List Output → Disk × Logged Failure Unit
  | [] => (disk, return ())
  | output :: rest =>
    match writeOutput disk.files output with
    | (files, .error failure) => ({ disk with files }, Logged.fail failure)
    | (files, .ok ()) =>
      let (last, step) := writeOutputs ({ disk with files }.record output.events) rest
      (last, ⟨output.events ++ step.events, step.result⟩)

def outputTable (settings : Settings) : Table :=
  ⟨white "Output File:", ["Type", "File"],
    [["ROM Image(MIF)", pathText settings.output],
      ["Verilog Defines", pathText settings.defines]] ++
      if settings.readable then [["Readable File(Text)", listingPath settings]] else []⟩

def sizeText (image : Image) : String :=
  white "Microcode Lines" ++ s!": {blue (Numeral.decimal image.words.length)} / " ++
    s!"DEPTH {blue image.depth.text}, WIDTH {blue image.width.text}\n"

def countText (title : String) (count : Nat) : String :=
  s!"{white title} {green (Numeral.decimal count)}"

def summary (settings : Settings) (elapsed : String) (made : Assembly) : String :=
  let inputText := white "Input File:" ++ s!"\t{magenta (pathText settings.input)}"
  if settings.verbose || settings.debug then
    let fields := (made.builder.layout.map Layout.fields).getD []
    white "Elapsed Time: " ++ s!": {green elapsed} seconds\n\n" ++ sizeText made.image ++
      countText "Unique Words:" made.image.uniqueWords ++ "\n\n" ++
      countText "Total Fields:" fields.length ++ "\n" ++
      countText "Total Values:" made.builder.symbols.length ++ "\n" ++
      countText "Total Labels:" made.builder.labels.length ++
      s!" ({made.builder.exportedLabels.length} exported)\n\n" ++
      inputText ++ "\n" ++ white "Layout File:" ++ s!"\t{magenta (pathText settings.layout)}"
  else sizeText made.image ++ "\n" ++ inputText

def conclude (settings : Settings) (elapsed : String) (made : Assembly) : Logged Error Unit := do
  if settings.debug then
    let lines ← Logged.ofExcept (made.builder.linesTable (some made.image) "Packed Lines")
    let fields ← Logged.ofExcept made.builder.fieldsTable
    Logged.tell [debugPanel [lines, fields, made.builder.labelsTable]]
  Logged.tell [.panel ⟨blue "[INFO]" ++ " Assembly Summary", some subtitle,
    [.text (summary settings elapsed made), .table (outputTable settings)]⟩]

/-- The panel of a failed run; a fault of the program is named by its kind. -/
def failurePanel (failure : Failure) : Event :=
  let name :=
    match failure.fault? with
    | some f => f.cause.kind.name
    | none => "Exception"
  let text :=
    red s!"Assembly Failed with {name}" ++ s!"\n\nCheck:\n{white failure.message}"
  .panel ⟨"Assembly Summary", some subtitle, [.text text]⟩

/-- Everything a run does while its log file is open. A fault of the program is logged there. -/
def perform [Machine] (settings : Settings) (elapsed : String) (disk : Disk) :
    Disk × Logged Failure Unit :=
  let made := prepare settings disk
  let disk := disk.record made.events
  let (disk, rest) : Disk × Logged Failure Unit :=
    match made.result with
    | .error failure => (disk, Logged.fail failure)
    | .ok assembly =>
      let (disk, wrote) := writeOutputs disk (outputs settings assembly)
      (disk, do wrote; (conclude settings elapsed assembly).mapError .error)
  let faults :=
    match rest.result with
    | .error failure => (failure.fault?.map fun fault => Event.notice (.refused fault)).toList
    | .ok () => []
  (disk.record faults, ⟨made.events ++ rest.events ++ faults, rest.result⟩)

def report (fs : FileSystem) (step : Logged Failure Unit) : RunReport :=
  match step.result with
  | .ok () => ⟨.returned 0, step.events, fs⟩
  | .error failure =>
    let critical :=
      if failure.fault?.isSome then [] else [Event.notice (.failed failure.message)]
    ⟨.returned 1, step.events ++ critical ++ [failurePanel failure], fs⟩

/-- Runs on a disk and closes its log file. A log file that cannot be closed is what failed then,
however the run went. -/
def runOn [Machine] (settings : Settings) (elapsed : String) (disk : Disk) : RunReport :=
  let (disk, step) := perform settings elapsed disk
  report disk.files ⟨step.events, do disk.close; step.result⟩

def runWith [Machine] (settings : Settings) (occasion : Occasion) (fs : FileSystem) : RunReport :=
  if settings.log then
    let path := logPath settings
    match fs.create path with
    | .error fault => report fs (Logged.fail (.file fault (fs.absolutePath path)))
    | .ok (fs, key) => runOn settings occasion.elapsed ⟨fs, some ⟨key, occasion, 0⟩⟩
  else runOn settings occasion.elapsed ⟨fs, none⟩

def run [Machine] (arguments : List String) (occasion : Occasion) (fs : FileSystem) : RunReport :=
  match Settings.ofArguments arguments with
  | .error fault => ⟨.stopped fault.exitCode fault.complaint, [], fs⟩
  | .ok settings => runWith settings occasion fs

end Command

end Microcode
