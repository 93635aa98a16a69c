import Bindery.Path
import Bindery.Text.Encoding

/-!
# The file system

A `FileSystem` is a tree of files, directories and symbolic links below a mount
point.  The directories above the mount point exist.  What else lies beside
them is not part of the tree: a path that climbs out of the mount point finds
no name there.

`walk` follows the names of a path the way a process does when it opens a file
or enters a directory.  Links are followed, forty at most, and every fault has
its own cause.  The recursion is structural: one name at a time, and within it
one link at a time.

Not all of a tree can be seen.  No name is looked up in a directory that is
closed to the process, and a medium may be damaged.  A file can be seen and still
not be opened or read.

A path whose text is no run of bytes, or holds the byte 0, is not followed at
all.  `PathFault` is what is wrong with it.
-/

namespace Bindery

/-! ## Faults of the system -/

/-- Why the system does not do what it is asked for. -/
inductive SystemFault where
  /-- The operation is not permitted. -/
  | notPermitted
  /-- Something does not exist. -/
  | missing
  /-- The medium cannot be read. -/
  | inputOutput
  /-- The arguments are too long. -/
  | argumentsTooLong
  /-- The file is no program. -/
  | noProgram
  /-- There is no memory left. -/
  | noMemory
  /-- The access is denied. -/
  | accessDenied
  /-- A path leads through something that is no directory. -/
  | notDirectory
  /-- A directory stands where a file is needed. -/
  | isDirectory
  /-- A name is too long. -/
  | nameTooLong
  /-- A path has too many links. -/
  | linkLoop
deriving DecidableEq, Repr

namespace SystemFault

/-- The number of a fault. -/
def number : SystemFault → Nat
  | notPermitted => 1
  | missing => 2
  | inputOutput => 5
  | argumentsTooLong => 7
  | noProgram => 8
  | noMemory => 12
  | accessDenied => 13
  | notDirectory => 20
  | isDirectory => 21
  | nameTooLong => 36
  | linkLoop => 40

/-- The words for a fault. -/
def words : SystemFault → String
  | notPermitted => "Operation not permitted"
  | missing => "No such file or directory"
  | inputOutput => "Input/output error"
  | argumentsTooLong => "Argument list too long"
  | noProgram => "Exec format error"
  | noMemory => "Cannot allocate memory"
  | accessDenied => "Permission denied"
  | notDirectory => "Not a directory"
  | isDirectory => "Is a directory"
  | nameTooLong => "File name too long"
  | linkLoop => "Too many levels of symbolic links"

/-- The report of a fault, with the thing it is about if that has a name. -/
def message (fault : SystemFault) (thing : Option String) : String :=
  let behind := (thing.map fun name => ": " ++ name).getD ""
  "[Errno " ++ toString fault.number ++ "] " ++ fault.words ++ behind

end SystemFault

/-- Why the bytes of a file cannot be had. -/
inductive FileFault where
  /-- The file cannot be opened. -/
  | opening (fault : SystemFault)
  /-- The file can be opened, but not be read. -/
  | reading (fault : SystemFault)
deriving DecidableEq, Repr

/-- The report of a fault.  Only a file that is being opened is named. -/
def FileFault.message (p : Path) : FileFault → String
  | .opening fault => fault.message (some (Text.quoted p.text))
  | .reading fault => fault.message none

/-! ## Trees -/

/-- What a name stands for. -/
inductive Entry where
  /-- A file with its bytes. -/
  | file (bytes : List UInt8)
  /-- A file whose bytes cannot be had. -/
  | guarded (fault : FileFault)
  /-- A directory. -/
  | directory
  /-- A directory in which the process may not look up a name. -/
  | closed
  /-- A symbolic link with its target. -/
  | link (target : Text)
  /-- Something that the system cannot even look at, as the medium is damaged. -/
  | damaged
deriving DecidableEq, Repr

/-- A tree of entries below a mount point. -/
structure FileSystem where
  /-- The names of the mount point. -/
  mount : List Text
  /-- The entries, each with the names that lead to it from the root directory. -/
  entries : List (List Text × Entry)
deriving Repr

namespace FileSystem

/-- The entry at a place, without following a link. -/
def entry? (fs : FileSystem) (place : List Text) : Option Entry :=
  if place.isPrefixOf fs.mount then some .directory else fs.entries.lookup place

/-- No name may be looked up in the directory at a place. -/
def isClosed (fs : FileSystem) (place : List Text) : Bool := fs.entry? place == some .closed

/-- The number of symbolic links. -/
def linkCount (fs : FileSystem) : Nat :=
  (fs.entries.filter fun e => match e.2 with | .link _ => true | _ => false).length

/-- Directories at all places that lead to a place. -/
def makeParents (fs : FileSystem) (place : List Text) : FileSystem :=
  let parents := (List.range place.length).map place.take
  { fs with
    entries := fs.entries ++
      ((parents.filter fun p => (fs.entry? p).isNone).map fun p => (p, .directory)) }

/-- The tree with an entry put at a place and the directories that lead to it. -/
def create (fs : FileSystem) (place : List Text) (entry : Entry) : FileSystem :=
  let fs := fs.makeParents place
  { fs with entries := (place, entry) :: fs.entries }

/-! ## Names -/

/-- Why the system does not take the text of a path. -/
inductive PathFault where
  /-- The text has no bytes. -/
  | unencodable (fault : Text.EncodeFault)
  /-- The text holds the character U+0000. -/
  | nul
deriving DecidableEq, Repr

/-- What is wrong with the text of a path, if anything is. -/
def pathFault? (s : Text) : Option PathFault :=
  match Text.encodeFault? s with
  | some fault => some (.unencodable fault)
  | none => if s.contains '\x00' then some .nul else none

/-- The words for a text that is not taken. -/
def PathFault.message : PathFault → String
  | .unencodable fault => fault.message
  | .nul => "embedded null byte"

/-- The longest name, in bytes. -/
def longestName : Nat := 255

/-- A name is longer than any a directory can hold. -/
def isTooLong (name : Text) : Bool := longestName < Text.byteCount name

/-- The longest path, in bytes. -/
def longestPath : Nat := 4095

/-- A path is longer than any the system takes. -/
def isPathTooLong (p : Path) : Bool := longestPath < Text.byteCount p.text

/-- The names of the target of a link.  A slash at its end asks for a directory, and
stands for an empty name behind the others. -/
def targetNames (target : Text) : List Text :=
  let pieces := Path.pieces target
  let names := pieces.filter fun piece => !piece.isEmpty
  if pieces.getLast? == some [] then names ++ [[]] else names

/-- The target of a link starts from the root directory. -/
def isRooted (target : Text) : Bool := Path.rootOf target != .relative

/-! ## Walking -/

/-- Why a path leads nowhere. -/
inductive WalkFault where
  /-- A name does not exist. -/
  | missing
  /-- A name is looked up in something that is no directory. -/
  | notDirectory
  /-- More links than a walk follows. -/
  | linkLoop
  /-- A name or the path as a whole is too long. -/
  | nameTooLong
  /-- A name is looked up in a directory that is closed. -/
  | accessDenied
  /-- The medium is damaged where a name is. -/
  | inputOutput
deriving DecidableEq, Repr

/-- The fault of the system that a walk ends with. -/
def WalkFault.toSystem : WalkFault → SystemFault
  | missing => .missing
  | notDirectory => .notDirectory
  | linkLoop => .linkLoop
  | nameTooLong => .nameTooLong
  | accessDenied => .accessDenied
  | inputOutput => .inputOutput

/-- What a path leads to. -/
inductive Target where
  /-- A file with its bytes. -/
  | file (bytes : List UInt8)
  /-- A file whose bytes cannot be had. -/
  | guarded (fault : FileFault)
  /-- A directory of the tree. -/
  | directory (place : List Text)
  /-- A directory outside the mount point. -/
  | outside
deriving DecidableEq, Repr

/-- Outside the mount point one can only climb. -/
def walkOutside : List Text → Except WalkFault Target
  | [] => .ok .outside
  | name :: names =>
      if name == "" || name == "." || name == ".." then walkOutside names
      else if isTooLong name then .error .nameTooLong
      else .error .missing

/-- Follows names from a directory.  `follow` goes on from the directory of a link
with the names of its target and the names behind it.  An empty name asks for a
directory and is not looked up. -/
def walkNames (fs : FileSystem) (follow : List Text → List Text → Except WalkFault Target) :
    (place : List Text) → (names : List Text) → Except WalkFault Target
  | place, [] => .ok (.directory place)
  | place, name :: names =>
      if name == "" then walkNames fs follow place names
      else if fs.isClosed place then .error .accessDenied
      else if name == "." then walkNames fs follow place names
      else if name == ".." then
        if place == fs.mount then walkOutside names else walkNames fs follow place.dropLast names
      else if isTooLong name then .error .nameTooLong
      else
        match fs.entry? (place ++ [name]) with
        | none => .error .missing
        | some .damaged => .error .inputOutput
        | some .directory | some .closed => walkNames fs follow (place ++ [name]) names
        | some (.file bytes) => if names.isEmpty then .ok (.file bytes) else .error .notDirectory
        | some (.guarded fault) =>
            if names.isEmpty then .ok (.guarded fault) else .error .notDirectory
        | some (.link target) =>
            follow (if isRooted target then [] else place) (targetNames target ++ names)

/-- Follows names from a directory and at most the given number of links. -/
def walkLinks (fs : FileSystem) :
    (links : Nat) → (place : List Text) → (names : List Text) → Except WalkFault Target
  | 0 => walkNames fs fun _ _ => .error .linkLoop
  | links + 1 => walkNames fs (walkLinks fs links)

/-- The most links a walk follows. -/
def mostLinks : Nat := 40

/-- What a path leads to, for a process in a directory. -/
def walk (fs : FileSystem) (current : List Text) (p : Path) : Except WalkFault Target :=
  if isPathTooLong p then .error .nameTooLong
  else fs.walkLinks mostLinks (if p.isAbsolute then [] else current) p.parts

/-! ## Questions about a path -/

/-- The path leads to a file.  A name or a path that is too long is a fault, and so is a
place that cannot be seen.  Any other fault means no. -/
def isFile (fs : FileSystem) (current : List Text) (p : Path) : Except WalkFault Bool :=
  if (pathFault? p.text).isSome then .ok false
  else
    match fs.walk current p with
    | .ok (.file _) | .ok (.guarded _) => .ok true
    | .ok _ => .ok false
    | .error .nameTooLong => .error .nameTooLong
    | .error .accessDenied => .error .accessDenied
    | .error .inputOutput => .error .inputOutput
    | .error _ => .ok false

/-- The bytes of the file a path leads to. -/
def read (fs : FileSystem) (current : List Text) (p : Path) : Except FileFault (List UInt8) :=
  match fs.walk current p with
  | .ok (.file bytes) => .ok bytes
  | .ok (.guarded fault) => .error fault
  | .ok _ => .error (.opening .isDirectory)
  | .error fault => .error (.opening fault.toSystem)

/-- The fault of entering a directory, if there is one. -/
def enter (fs : FileSystem) (current : List Text) (p : Path) : Except WalkFault Unit :=
  match fs.walk current p with
  | .ok (.file _) | .ok (.guarded _) => .error .notDirectory
  | .ok (.directory place) => if fs.isClosed place then .error .accessDenied else .ok ()
  | .ok .outside => .ok ()
  | .error fault => .error fault

end FileSystem
end Bindery
