import Logbook.Error
import Logbook.NameMap
import Logbook.Tape

/-!
# Files

A working directory with files and directories below it, and one device on which every transfer fails. Paths
are texts with slashes. They are walked segment by segment: empty segments and single dots stay where they are,
two dots go up, and every other segment has to be a directory unless it is the last.
-/

namespace Logbook

/-- What an open file writes to. -/
inductive FileTarget where
  /-- A file, by the key of its place. -/
  | file (key : String)
  /-- A device that has no space left. -/
  | fullDevice
  deriving DecidableEq, Repr

/-- Why a path leads nowhere. -/
inductive Obstacle where
  /-- A segment is not there. -/
  | missing
  /-- A segment is no directory, or a name cannot be used. -/
  | unusable
  deriving DecidableEq, Repr

/-- A place in the tree, by its segments from the working directory, or from the root if a slash is the
first. Places above the working directory start with two dots. -/
abbrev Place := List String

namespace Place

def root : Place := ["/"]

/-- The device that has no space left. -/
def fullDevice : Place := ["/", "dev", "full"]

/-- Directories that are there from the start, besides the working directory and those above it. -/
def standing : List Place := [root, ["/", "dev"]]

def isAbove (p : Place) : Bool := p.all (· == "..")

def up (p : Place) : Place :=
  if p = root then root else if p.isAbove then p ++ [".."] else p.dropLast

def key (p : Place) : String := "/".intercalate p

end Place

structure Disk where
  files : NameMap Tape
  directories : NameMap Unit

namespace Disk

def empty : Disk := ⟨.empty, .empty⟩

/-! ### Paths as they are written -/

/-- The longest segment and the longest path, in octets. -/
def maxSegment : Nat := 255

def maxPath : Nat := 4095

def isAbsolute (path : String) : Bool := path.toList.head? == some '/'

/-- Can the system not even look at this path? -/
def isUnusable (path : String) : Bool :=
  path.toList.contains '\x00' || maxPath < path.utf8ByteSize

/-- Does a segment stay where it is? -/
def isBlank (segment : String) : Bool := segment == "" || segment == "."

/-- Is this the name of something in a directory? -/
def isName (segment : String) : Bool := !isBlank segment && segment != ".."

/-- Leave out segments at the end that stay where they are; the first segment remains. The segments are given
in reverse. -/
def trimmed : List String → List String
  | [] => []
  | [first] => [first]
  | s :: rest => if isBlank s then trimmed rest else s :: rest

/-- A path from its segments in reverse. -/
def ofReverse (segments : List String) : String := "/".intercalate segments.reverse

/-- The directory that a path lies in, as far as it is written; none if the path is empty or the root. -/
def parent? (path : String) : Option String :=
  match trimmed (path.splitOn "/").reverse with
  | [] => none
  | [""] => none
  | [_] => some ""
  | _ :: rest =>
    match trimmed rest with
    | [""] => some "/"
    | rest => some (ofReverse rest)

/-! ### Walking -/

def isDirectory (d : Disk) (p : Place) : Bool :=
  p.isAbove || Place.standing.contains p || d.directories.contains p.key

def isFile (d : Disk) (p : Place) : Bool := p == Place.fullDevice || d.files.contains p.key

/-- Go on from a directory by one segment. -/
def enter (d : Disk) (p : Place) (segment : String) : Except Obstacle Place :=
  if isBlank segment then .ok p
  else if segment = ".." then .ok p.up
  else if maxSegment < segment.utf8ByteSize then .error .unusable
  else
    let next := p ++ [segment]
    if d.isDirectory next then .ok next
    else if d.isFile next then .error .unusable
    else .error .missing

/-- Where the walk along a path starts. -/
def startOf (path : String) : Place := if isAbsolute path then Place.root else []

/-- The place of a file that a path names, whether it is there or not. The last segment has to be a name. -/
def placeOf (d : Disk) (path : String) : Except Obstacle Place :=
  if isUnusable path then .error .unusable
  else
    match (path.splitOn "/").reverse with
    | [] => .error .missing
    | last :: before => do
      let p ← before.reverse.foldlM d.enter (startOf path)
      if !isName last || maxSegment < last.utf8ByteSize then throw .unusable
      return p ++ [last]

/-! ### Directories -/

def addDirectory (d : Disk) (p : Place) : Disk :=
  { d with directories := d.directories.insert p.key () }

/-- Go on from a directory by segments, making the directories that are missing. Gives whether the end was
reached; what was made on the way stays. -/
def descend (d : Disk) (p : Place) : List String → Bool × Disk
  | [] => (true, d)
  | segment :: rest =>
    match d.enter p segment with
    | .ok p => descend d p rest
    | .error .missing => descend (d.addDirectory (p ++ [segment])) (p ++ [segment]) rest
    | .error .unusable => (false, d)

/-- Make a directory with all directories above it. -/
def makeDirectories (d : Disk) (path : String) : Bool × Disk :=
  if isUnusable path then (false, d) else d.descend (startOf path) (path.splitOn "/")

/-! ### Files -/

/-- Open a path for appending; none if that fails. A missing file is made. -/
def openAppend (d : Disk) (path : String) : Option (FileTarget × Disk) :=
  match d.placeOf path with
  | .error _ => none
  | .ok p =>
    if d.isDirectory p then none
    else if p = Place.fullDevice then some (.fullDevice, d)
    else if d.isFile p then some (.file p.key, d)
    else some (.file p.key, { d with files := d.files.insert p.key .empty })

/-- Open a log file: make the directory it lies in, then open it. -/
def openLog (d : Disk) (path : String) : Except Error FileTarget × Disk :=
  let opened (d : Disk) : Except Error FileTarget × Disk :=
    match d.openAppend path with
    | some (target, d) => (.ok target, d)
    | none => (.error (.whileDoing "opening log file" path), d)
  match parent? path with
  | none => opened d
  | some "" => opened d
  | some directory =>
    match d.makeDirectories directory with
    | (true, d) => opened d
    | (false, d) => (.error (.whileDoing "creating log directory" directory), d)

/-- Put octets at the end of an open file. -/
def append (d : Disk) (target : FileTarget) (bs : Bytes) : Disk :=
  match target with
  | .fullDevice => d
  | .file k => { d with files := d.files.insert k (((d.files.find? k).getD .empty).push bs) }

/-- Give a file new contents. It is made if it is missing, with its directory. -/
def put (d : Disk) (path : String) (bs : Bytes) : Disk :=
  let d := (d.makeDirectories ((parent? path).getD "")).2
  match d.openAppend path with
  | some (.file k, d) => { d with files := d.files.insert k (.ofBytes bs) }
  | _ => d

/-- The contents of a file. -/
def read? (d : Disk) (path : String) : Option Bytes :=
  match d.placeOf path with
  | .ok p => (d.files.find? p.key).map (·.bytes)
  | .error _ => none

end Disk

end Logbook
