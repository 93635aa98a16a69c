import Bindery.FileSystem.Basic

/-!
# Resolved paths

`resolve` turns a path into one from the root directory without links, `.` and
`..`.  Links are followed one name at a time.  The name `..` goes to the parent
of what is resolved so far, also where that is a plain file or does not exist.
A name that does not exist stays, and so does a link that the system cannot look
at, as the way to it is too long or goes through a directory that is closed.

A link met again while it is itself being resolved has no resolution.  Then the
path is what is resolved so far with the names behind it.  In the end the system
looks at the path.  If a walk to it finds a loop, the path is reported.  If not,
the path is the answer: `loop/..` is the directory that holds the loop.

Two rules of loops show only in rare ones.  The names behind the link in the
target of another one start again from the root directory if more than one
slash is in front of them.  And a link is known by the way that led to it: one met from
the directory of the process is another one than the same met from the root.

A way from the directory of the process climbs some of its names or none, so
there are two ways to a link more than the directory has names.  Nested links
are bounded by this number for each link, as none is resolved again on the same
way.
-/

namespace Bindery
namespace FileSystem

/-! ## Ways -/

/-- A way that a resolution has come, with the place it leads to. -/
structure Way where
  /-- It starts from the root directory, and not from the directory of the process. -/
  rooted : Bool
  /-- Its names, last one first. -/
  back : List Text
  /-- The names that lead to the place from the root directory, last one first. -/
  place : List Text
  /-- The names that lead to where it starts from the root directory, last one first. -/
  origin : List Text
deriving DecidableEq, Repr

namespace Way

/-- The way that stays in the root directory. -/
def root : Way := ⟨true, [], [], []⟩

/-- The way that stays in the directory of the process. -/
def here (current : List Text) : Way := ⟨false, [], current.reverse, current.reverse⟩

/-- The way to the parent. -/
def up (way : Way) : Way :=
  let back :=
    if way.rooted || !(way.back.isEmpty || way.back.head? == some "..") then way.back.drop 1
    else ".." :: way.back
  { way with back, place := way.place.drop 1 }

/-- The way to something in a directory. -/
def down (way : Way) (name : Text) : Way :=
  { way with back := name :: way.back, place := name :: way.place }

/-- A way as a path. -/
def path (way : Way) : Path := ⟨if way.rooted then .single else .relative, way.back.reverse⟩

/-- The names with a slash in front of each have more bytes than there is room. -/
def exceeds : (room : Nat) → List Text → Bool
  | _, [] => false
  | room, name :: names =>
      let width := Text.byteCount name + 1
      room < width || exceeds (room - width) names

/-- A way is longer than any path the system takes. -/
def isTooLong (way : Way) : Bool :=
  exceeds (if way.rooted then longestPath else longestPath + 1) way.back

end Way

/-- A directory in which one of the names is looked up is closed.  The names lead from a
place, which has its last name first. -/
def isBarred (fs : FileSystem) : (place names : List Text) → Bool
  | _, [] => false
  | place, name :: names =>
      fs.isClosed place.reverse ||
        isBarred fs (if name == ".." then place.drop 1 else name :: place) names

/-- The system cannot look at the end of a way.  The directories on the way are checked only
if the tree has one that is closed. -/
def isHidden (fs : FileSystem) (way : Way) : Bool :=
  way.isTooLong ||
    ((fs.entries.any fun e => e.2 == .closed) && fs.isBarred way.origin way.back.reverse)

/-- The pieces of the target of a link between its slashes.  The slash of the root
directory is no piece. -/
def targetPieces (target : Text) : List Text :=
  if isRooted target then (Path.pieces target).drop 1 else Path.pieces target

/-! ## Faults -/

/-- Why a path has no resolution. -/
inductive ResolveFault where
  /-- It leads into a loop of links.  The path is resolved up to the loop. -/
  | linkLoop (path : Path)
  /-- The system does not take its text. -/
  | refused (fault : PathFault)
deriving DecidableEq, Repr

/-- The words for a fault. -/
def ResolveFault.message : ResolveFault → String
  | .linkLoop path => "Symlink loop from " ++ Text.quoted path.text
  | .refused fault => fault.message

/-- Why names are not resolved. -/
inductive Obstacle where
  /-- A loop of links, with the names behind it. -/
  | loop (path : Path)
  /-- A name that the system does not take. -/
  | refused (fault : PathFault)
deriving DecidableEq, Repr

/-- An obstacle with names behind it.  Names behind a slash start from a root of
their own. -/
def Obstacle.behind (names : List Text) : Obstacle → Obstacle
  | .loop p =>
      match Path.rootOf (List.intercalate "/" names) with
      | .relative => .loop { p with parts := p.parts ++ names }
      | root => .loop ⟨root, names⟩
  | .refused fault => .refused fault

/-! ## Links -/

/-- Resolves names from a way.  `follow` resolves the target of the link at the end
of a way.  A loop is reported with all the names behind it. -/
def resolveNames (fs : FileSystem)
    (follow : (above : Way) → (link : Way) → (target : Text) → Except Obstacle Way) :
    (way : Way) → (names : List Text) → Except Obstacle Way
  | way, [] => .ok way
  | way, name :: names =>
      if name == "" || name == "." then resolveNames fs follow way names
      else if name == ".." then resolveNames fs follow way.up names
      else
        let next := way.down name
        match if (Text.encodeFault? name).isSome || name.contains '\x00' then
            pathFault? next.path.text else none with
        | some fault => .error (.refused fault)
        | none =>
            match if fs.isHidden next then none else fs.entry? next.place.reverse with
            | some (.link target) =>
                match follow way next target with
                | .ok way => resolveNames fs follow way names
                | .error obstacle => .error (obstacle.behind names)
            | _ => resolveNames fs follow next names

/-- Resolves the target of a link below a way.  `active` are the links being
resolved, and `depth` is how many more may nest. -/
def resolveLink (fs : FileSystem) :
    (depth : Nat) → (active : List Way) → (above : Way) → (link : Way) → (target : Text) →
      Except Obstacle Way
  | 0, _, _, link, _ => .error (.loop link.path)
  | depth + 1, active, above, link, target =>
      if active.contains link then .error (.loop link.path)
      else
        resolveNames fs (resolveLink fs depth (link :: active))
          (if isRooted target then .root else above) (targetPieces target)

/-! ## Paths -/

/-- The place of names below another place.  Empty names and `.` do not count, and
`..` takes back the name before it.  Both places have the last name first. -/
def placeBelow (place names : List Text) : List Text :=
  names.foldl (fun place (name : Text) =>
    if name == "" || name == "." then place
    else if name == ".." then place.drop 1
    else name :: place) place

/-- A path without `.` and `..` from the root directory, for a process in a
directory, where each `..` takes back the name before it. -/
def settled (current : List Text) (p : Path) : Path :=
  let start := if p.isAbsolute then [] else current.reverse
  ⟨if p.root = .double then .double else .single, (placeBelow start p.parts).reverse⟩

/-- A path that a resolution ended with, unless a walk to it finds a loop. -/
def inspected (fs : FileSystem) (current : List Text) (path : Path) : Except ResolveFault Path :=
  match fs.walk current path with
  | .error .linkLoop => .error (.linkLoop path)
  | _ => .ok path

/-- A path from the root directory without links, for a process in a directory. -/
def resolve (fs : FileSystem) (current : List Text) (p : Path) : Except ResolveFault Path :=
  let start : Way := if p.isAbsolute then .root else .here current
  let depth := (current.length + 2) * fs.linkCount + 1
  match resolveNames fs (resolveLink fs depth []) start p.parts with
  | .ok way => fs.inspected current (.ofNames way.place.reverse)
  | .error (.refused fault) => .error (.refused fault)
  | .error (.loop loop) =>
      let path := settled current loop
      match pathFault? path.text with
      | some fault => .error (.refused fault)
      | none => fs.inspected current path

/-! ## Tests -/

/-- A link that leads to itself. -/
def loopTree : FileSystem :=
  ⟨[], [([Text.ofString "a"], .directory), ([Text.ofString "a", Text.ofString "l"], .link "l/x")]⟩

example : (resolve loopTree [] (Path.parse "/a/../b")).toOption = some (Path.parse "/b") := by
  decide +kernel
example : (resolve loopTree [] (Path.parse "/a/l/..")).toOption = none := by decide +kernel
example : (resolve loopTree [] (Path.parse "/a/l/../..")).toOption = some (Path.parse "/a") := by
  decide +kernel
example : (resolve loopTree [] ⟨.single, ["a", [.half 0]]⟩).toOption = none := by decide +kernel

/-- A link in a directory that is closed, and below it the directory of the process. -/
def closedTree : FileSystem :=
  ⟨[], [([Text.ofString "a"], .closed), ([Text.ofString "a", Text.ofString "b"], .directory),
    ([Text.ofString "a", Text.ofString "b", Text.ofString "l"], .link "/c")]⟩

example : (resolve closedTree ["a", "b"] (Path.parse "/a/b/l")).toOption =
    some (Path.parse "/a/b/l") := by decide +kernel
example : (resolve closedTree ["a", "b"] (Path.parse "l")).toOption = some (Path.parse "/c") := by
  decide +kernel

end FileSystem
end Bindery
