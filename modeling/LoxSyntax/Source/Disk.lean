import LoxSyntax.Source.Path
import LoxSyntax.Text.Blank

/-!
# Files

A disk lists files and directories under the places that paths lead to: below the working
directory, above it, and below the root.  Where the working directory stands is not known, so
that a file which can be reached in several of these ways is listed in each.

A path is refused as a whole if it holds a NUL character or has too many bytes.  A part with
too many bytes is refused when the directory that should hold it is searched, so that what is
wrong with an earlier part comes first.

A source file is read as text in UTF-8 with every line end as a line feed.
-/

namespace LoxSyntax

/-- Why a source file cannot be read. -/
inductive FileFault where
  | notFound
  /-- A part in the middle of the path is a file. -/
  | notDirectory
  | isDirectory
  | notText
  /-- The path, or a part of it, has more bytes than a name may have. -/
  | tooLong
  /-- The path holds a NUL character, which no name does. -/
  | nulInPath
deriving DecidableEq, Repr

inductive DiskEntry where
  | file (bytes : ByteArray)
  | directory

/-- The files and directories, each under its place.  The directories on the way need not be
listed. -/
structure Disk where
  entries : List (List String × DiskEntry)

/-- How many bytes a part of a path may have. -/
def Path.maxPartBytes : Nat := 255

/-- How many bytes a path may have as a whole. -/
def Path.maxBytes : Nat := 4095

/-- What is wrong with a path whatever stands on the disk. -/
def Path.fault? (path : Path) : Option FileFault :=
  if path.text.toList.contains '\x00' then some .nulInPath
  else if Path.maxBytes < path.text.utf8ByteSize then some .tooLong
  else none

namespace Disk

/-- A place on a disk: the parts that lead to it from the working directory, where steps to the
parent directory stand in front of all others; or those from the root, behind a slash. -/
abbrev Place := List String

/-- Where a path starts: in the working directory, or at the root. -/
def start (path : Path) : Place :=
  if path.root = "" then [] else ["/"]

/-- Where one more part of a path leads.  A step to the parent directory takes back the part in
front of it, and leads above the working directory where there is none.  The root is its own
parent. -/
def step (place : Place) (part : String) : Place :=
  if part = ".." then
    match place.getLast? with
    | none | some ".." => place ++ [".."]
    | some "/" => place
    | some _ => place.dropLast
  else place ++ [part]

/-- Whether a place is a directory on every disk: the root, the working directory and those above
it. -/
def isKnown (place : Place) : Bool :=
  place = ["/"] || place.all (· = "..")

def find? (disk : Disk) (place : Place) : Option DiskEntry :=
  if isKnown place then some .directory
  else
    match disk.entries.lookup place with
    | some entry => some entry
    | none =>
        if disk.entries.any fun entry => place.isPrefixOf entry.1 then some .directory else none

/-- What stands at the end of a path that starts from a place.  Every place on the way must be
a directory. -/
def walk (disk : Disk) (place : Place) : List String → Except FileFault DiskEntry
  | [] =>
      match disk.find? place with
      | some entry => .ok entry
      | none => .error .notFound
  | part :: parts =>
      match disk.find? place with
      | some .directory =>
          if Path.maxPartBytes < part.utf8ByteSize then .error .tooLong
          else walk disk (step place part) parts
      | some (.file _) => .error .notDirectory
      | none => .error .notFound

/-- The text that the bytes of a file hold. -/
def decode (bytes : ByteArray) : Except FileFault String :=
  match String.fromUTF8? bytes with
  | some text => .ok (String.ofList (Text.unifyLineEnds text.toList))
  | none => .error .notText

def read (disk : Disk) (path : Path) : Except FileFault String :=
  match path.fault? with
  | some fault => .error fault
  | none => do
      match ← disk.walk (start path) path.parts with
      | .directory => .error .isDirectory
      | .file bytes => decode bytes

end Disk

end LoxSyntax
