import Montage.Fault
import Montage.Text.PathBytes

/-!
# A disk with a working directory

A location is a list of names relative to the working directory; locations above
it begin with `..` and absolute ones with `/`. Paths are followed name by name
through directories that exist, so a path through a file leads nowhere. Writing
to a path makes the directories it passes through first, and those stay when
the file itself cannot be written.
-/

namespace Montage

/-- A name on the disk. -/
abbrev FileName := Bytes

/-- The names that lead to a location from the working directory. -/
abbrev Location := List FileName

namespace Location

/-- The name of the directory itself. -/
def here : FileName := [0x2e]

/-- The name of the directory around. -/
def above : FileName := [0x2e, 0x2e]

/-- The root of all absolute locations. -/
def root : Location := [[0x2f]]

/-- Whether a location is the working directory, a directory around it or the
root. Those always exist. -/
def isAnchor (location : Location) : Bool := location.all (· = above) || location = root

/-- The directory that a location is in. -/
def parent (location : Location) : Location :=
  if location = root then root
  else if location.isAnchor then location ++ [above]
  else location.dropLast

/-- The location that a path starts from. -/
def start (path : Text) : Location := if path.beginsWith '/' then root else []

end Location

/-- What stands at a location. -/
inductive Entry where
  /-- A directory. -/
  | directory
  /-- A file with its text. -/
  | file (text : Text)
deriving DecidableEq

/-- The entries of a disk, each at its location. -/
structure Disk where
  /-- The entries. -/
  entries : List (Location × Entry)

/-- Why a file is not written, or not as a whole. -/
inductive Obstacle where
  /-- A directory stands at the location. -/
  | directory
  /-- A file stands where a directory is needed, or a name cannot be used. -/
  | path
  /-- Too many directories are missing. -/
  | depth
  /-- A part of the text cannot be stored. -/
  | content

namespace Disk

/-- A disk without entries. -/
def empty : Disk := ⟨[]⟩

/-- What stands at a location, if anything. -/
def entry? (disk : Disk) (location : Location) : Option Entry :=
  if location.isAnchor then some .directory
  else (disk.entries.find? fun entry => entry.1 = location).map (·.2)

/-- Puts an entry at a location, and removes what was there. -/
def put (disk : Disk) (location : Location) (entry : Entry) : Disk :=
  ⟨disk.entries.filter (fun other => other.1 ≠ location) ++ [(location, entry)]⟩

/-- Whether a directory stands at a location. -/
def isDirectory (disk : Disk) (location : Location) : Bool :=
  disk.entry? location = some .directory

/-- The most bytes a name may have. -/
def longestName : Nat := 255

/-- The most bytes a path may have. -/
def longestPath : Nat := 4095

/-- The most directories that can be missing from a path to be made. -/
def mostMissing : Nat := 985

/-- Whether something can have a name. -/
def isName (name : FileName) : Bool := name.length ≤ longestName && !name.contains 0

/-- The location that a name leads to from a directory. -/
def step (disk : Disk) (location : Location) (name : Text) : Option Location := do
  let bytes ← name.pathBytes?
  if !disk.isDirectory location then none
  else if bytes = [] || bytes = Location.here then some location
  else if bytes = Location.above then some location.parent
  else if isName bytes then some (location ++ [bytes])
  else none

/-- The names of a path. -/
def names (path : Text) : List Text := path.split '/'

/-- The number of bytes of a text. -/
def sizeOf (t : Text) : Nat := (t.pathBytes?.getD []).length

/-- The location that a path leads to, which may be vacant. -/
def locate? (disk : Disk) (path : Text) : Option Location :=
  if path.isEmpty || longestPath < sizeOf path then none
  else (names path).foldlM disk.step (Location.start path)

/-- What a path leads to, if anything. -/
def find? (disk : Disk) (path : Text) : Option Entry := (disk.locate? path).bind disk.entry?

/-- Whether a path leads to something. -/
def reaches (disk : Disk) (path : Text) : Bool := (disk.find? path).isSome

/-- The first and the last of the numbers of the streams that are always open;
such a number can stand for a path. -/
def openStreams : Int × Int := (0, 2)

/-- The largest number of a stream. -/
def largestStream : Int := Int.pow 2 31 - 1

/-- Whether a value leads to something: a text as a path, a whole number as an
open stream. -/
def holds (disk : Disk) (path : Value) : Outcome Bool :=
  match path with
  | .text path => .ok (disk.reaches path)
  | .bool _ => .ok true
  | .number (.int n) =>
    if n < -largestStream - 1 ∨ largestStream < n then .error .tooLarge
    else .ok (openStreams.1 ≤ n ∧ n ≤ openStreams.2)
  | _ => .error .illTyped

/-! ## Writing -/

/-- Makes a vacant location into a directory. -/
def occupy (disk : Disk) (location : Location) : Disk :=
  if (disk.entry? location).isSome then disk else disk.put location .directory

/-- The number of names that are left when a path first leads to nothing. Of the
path `used` bytes were followed. -/
def missing (disk : Disk) (location : Location) (used : Nat) : List Text → Nat
  | [] => 0
  | name :: names =>
    let used := used + sizeOf name
    match (disk.step location name).filter fun next =>
      used ≤ longestPath && (disk.entry? next).isSome with
    | some next => missing disk next (used + 1) names
    | none => ((name :: names).filter fun name => !name.isEmpty).length

/-- Follows names from a location and makes every directory on the way. Without a
location at the end, a name could not be followed. -/
def makeDirectories (disk : Disk) (location : Location) (used : Nat) :
    List Text → Disk × Option Location
  | [] => (disk, some location)
  | name :: names =>
    let used := used + sizeOf name
    match (disk.step location name).filter fun _ => used ≤ longestPath with
    | none => (disk, none)
    | some next =>
      let disk := disk.occupy next
      if disk.isDirectory next then makeDirectories disk next (used + 1) names else (disk, none)

/-- Makes the directories that a path passes through before its last name, and
gives the last of them. -/
def makeParents (disk : Disk) (path : Text) : Disk × Except Obstacle Location :=
  let start := Location.start path
  let names := (names path).dropLast
  if mostMissing < disk.missing start 0 names then (disk, .error .depth)
  else
    match disk.makeDirectories start 0 names with
    | (disk, some directory) => (disk, .ok directory)
    | (disk, none) => (disk, .error .path)

/-- Writes a file into a directory piece by piece, up to one that cannot be
stored. -/
def writeIn (disk : Disk) (directory : Location) (name : Text) (pieces : List Text) :
    Disk × Option Obstacle :=
  match disk.step directory name with
  | none => (disk, some .path)
  | some location =>
    if disk.isDirectory location then (disk, some .directory)
    else
      let stored := pieces.takeWhile Text.isStorable
      (disk.put location (.file (Text.join stored)),
        if stored.length < pieces.length then some .content else none)

/-- Writes a file and the directories that its path passes through. -/
def write (disk : Disk) (path : Text) (pieces : List Text) : Disk × Option Obstacle :=
  match disk.makeParents path with
  | (disk, .error obstacle) => (disk, some obstacle)
  | (disk, .ok directory) =>
    if longestPath < sizeOf path then (disk, some .path)
    else disk.writeIn directory ((names path).getLastD "") pieces

/-- A disk with the given files. -/
def ofFiles (files : List (Text × Text)) : Disk :=
  files.foldl (fun disk file => (disk.write file.1 [file.2]).1) empty

end Disk

end Montage
