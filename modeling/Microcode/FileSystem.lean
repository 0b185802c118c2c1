import Microcode.Assoc
import Microcode.Text.Basic
import Microcode.Text.Blank
import Microcode.Text.Quoted

/-!
File systems as values. A node is stored under the names on the way to it from the root, joined by
slashes; the root is stored under the empty text and is always a directory. Paths are followed
name by name, so that every fault on the way is found in the order of the names. Some files have
room for so many bytes only: they can be opened, and writing more leaves the first of them and
fails.
-/
namespace Microcode

inductive Node where
  | directory
  | file (content : List UInt8)
  /-- A device that reads as empty and keeps nothing. -/
  | sink
  deriving DecidableEq, Repr

inductive FileFault where
  | missing
  | notDirectory
  | isDirectory
  | nameTooLong
  | nullInPath
  /-- There is no path at all. -/
  | noPath
  | noRoom
  deriving DecidableEq, Repr

def FileFault.message (fault : FileFault) (path : String) : String :=
  match fault with
  | missing => s!"[Errno 2] No such file or directory: {Text.quote path}"
  | notDirectory => s!"[Errno 20] Not a directory: {Text.quote path}"
  | isDirectory => s!"[Errno 21] Is a directory: {Text.quote path}"
  | nameTooLong => s!"[Errno 36] File name too long: {Text.quote path}"
  | nullInPath => "embedded null byte"
  | noPath => "expected str, bytes or os.PathLike object, not list"
  | noRoom => "[Errno 28] No space left on device"

structure FileSystem where
  nodes : Assoc Node
  /-- The names on the way from the root to the working directory. -/
  home : List String
  /-- How many bytes there is room for under some keys; the others have no limit. -/
  room : Assoc Nat := []
  deriving DecidableEq, Repr

inductive Place where
  | directory
  | file (key : String) (content : List UInt8)
  | free (key : String)
  deriving DecidableEq, Repr

namespace FileSystem

def key (names : List String) : String := Text.joinWith "/" names

def node? (fs : FileSystem) (key : String) : Option Node :=
  if key = "" then some .directory else fs.nodes.lookup key

/-- The names in a path; neighbouring slashes count as one. -/
def names (path : String) : List String :=
  ((Text.pieces (· == '/') path.toList).filter fun name => !name.isEmpty).map String.ofList

def follow (fs : FileSystem) (here : List String) : List String → Except FileFault Place
  | [] => .ok .directory
  | name :: rest =>
    if name = "." then fs.follow here rest
    else if name = ".." then fs.follow here.dropLast rest
    else if 255 < name.utf8ByteSize then .error .nameTooLong
    else
      let there := here ++ [name]
      match fs.node? (key there) with
      | some .directory => fs.follow there rest
      | some (.file content) =>
        if rest.isEmpty then .ok (.file (key there) content) else .error .notDirectory
      | some .sink => if rest.isEmpty then .ok (.file (key there) []) else .error .notDirectory
      | none => if rest.isEmpty then .ok (.free (key there)) else .error .missing

def maxPathBytes : Nat := 4095

/-- Refuses a path whose text no file can have as its path. -/
def checkText (path : String) : Except FileFault Unit :=
  if path.toList.contains (Char.ofNat 0) then .error .nullInPath else .ok ()

def isAbsolute (path : String) : Bool := path.toList.head? = some '/'

/-- Follows names from where a path begins, the working directory or the root. -/
def locate (fs : FileSystem) (path : String) (way : List String) : Except FileFault Place := do
  checkText path
  if path = "" then throw .missing
  if maxPathBytes < path.utf8ByteSize then throw .nameTooLong
  fs.follow (if isAbsolute path then [] else fs.home) way

def endsInSlash (path : String) : Bool := path.toList.getLast? = some '/'

def read (fs : FileSystem) (path : String) : Except FileFault (List UInt8) := do
  match ← fs.locate path (names path) with
  | .directory => throw .isDirectory
  | .file _ content => if endsInSlash path then throw .notDirectory else return content
  | .free _ => throw .missing

/-- The names to follow in order to write a file. A path that ends in a slash can only lead to a
directory: its last name is not looked at. -/
def writingWay (path : String) : List String :=
  if endsInSlash path then (names path).dropLast ++ ["."] else names path

def writable (fs : FileSystem) (path : String) : Except FileFault String := do
  match ← fs.locate path (writingWay path) with
  | .directory => throw .isDirectory
  | .file key _ | .free key => return key

def hasRoom (fs : FileSystem) (key : String) (bytes : Nat) : Bool :=
  match fs.room.lookup key with
  | some most => bytes ≤ most
  | none => true

def fitted (fs : FileSystem) (key : String) (content : List UInt8) : List UInt8 :=
  match fs.room.lookup key with
  | some most => content.take most
  | none => content

def setContent (fs : FileSystem) (key : String) (content : List UInt8) : FileSystem :=
  match fs.nodes.lookup key with
  | some .sink => fs
  | _ => { fs with nodes := fs.nodes.put key (.file (fs.fitted key content)) }

/-- A file that can be opened is changed even if there is no room for all of it. -/
def write (fs : FileSystem) (path : String) (content : List UInt8) :
    FileSystem × Except FileFault Unit :=
  match fs.writable path with
  | .error fault => (fs, .error fault)
  | .ok key =>
    (fs.setContent key content,
      if fs.hasRoom key content.length then .ok () else .error .noRoom)

def contentAt (fs : FileSystem) (key : String) : List UInt8 :=
  match fs.nodes.lookup key with
  | some (.file content) => content
  | _ => []

/-- Bytes put into a content at a position; a gap before them is filled with zeros. -/
def overlay (content : List UInt8) (position : Nat) (bytes : List UInt8) : List UInt8 :=
  content.take position ++ List.replicate (position - content.length) 0 ++ bytes ++
    content.drop (position + bytes.length)

/-- Writes bytes into the file under a key, from a position on. Writing nothing leaves no gap. -/
def writeAt (fs : FileSystem) (key : String) (position : Nat) (bytes : List UInt8) : FileSystem :=
  if bytes.isEmpty then fs else fs.setContent key (overlay (fs.contentAt key) position bytes)

/-- The names of a path from the root, with one and two dots worked out by the text alone. -/
def absoluteNames (fs : FileSystem) (path : String) : List String :=
  (names path).foldl
    (fun here name =>
      if name = "." then here else if name = ".." then here.dropLast else here ++ [name])
    (if isAbsolute path then [] else fs.home)

/-- The slashes an absolute path begins with: two are kept, any other number becomes one. -/
def rootText (path : String) : String :=
  if (path.toList.takeWhile (· == '/')).length = 2 then "//" else "/"

def absolutePath (fs : FileSystem) (path : String) : String :=
  rootText path ++ key (fs.absoluteNames path)

/-- Creates an empty file under the absolute form of a path; gives its key. -/
def create (fs : FileSystem) (path : String) : Except FileFault (FileSystem × String) := do
  let absolute := fs.absolutePath path
  checkText absolute
  if maxPathBytes < absolute.utf8ByteSize then throw .nameTooLong
  match ← fs.follow [] (fs.absoluteNames path) with
  | .directory => throw .isDirectory
  | .file key _ | .free key => return (fs.setContent key [], key)

end FileSystem

end Microcode
