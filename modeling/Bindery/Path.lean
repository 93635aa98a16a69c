import Bindery.Text.Quoted

/-!
# Paths

A path is a root and the names below it.  Reading a path drops the empty names
and the names `.` between its slashes, so `a//b/./` is `a/b`.  The name `..`
stays, since what it leads to is for the file system to say.  Exactly two
slashes at the front are a root of their own, and any other number of them is
one slash.

`Path.join` puts a path below another one.  A path with a root stands for
itself wherever it is put.
-/

namespace Bindery

/-- What a path starts from. -/
inductive Root where
  /-- The directory the path is used in. -/
  | relative
  /-- The root directory. -/
  | single
  /-- The root directory, written with two slashes. -/
  | double
deriving DecidableEq, Repr

/-- A path. -/
structure Path where
  /-- What it starts from. -/
  root : Root
  /-- The names below the root. -/
  parts : List Text
deriving DecidableEq, Repr

namespace Path

/-! ## Reading -/

/-- The pieces of a text between its slashes, empty ones included. -/
def pieces : Text → List Text
  | [] => [[]]
  | x :: xs =>
      match pieces xs with
      | [] => [[]]
      | piece :: rest => if x == '/' then [] :: piece :: rest else (x :: piece) :: rest

/-- The root of a text. -/
def rootOf : Text → Root
  | .char '/' :: .char '/' :: .char '/' :: _ => .single
  | .char '/' :: .char '/' :: _ => .double
  | .char '/' :: _ => .single
  | _ => .relative

/-- The piece of a text names something. -/
def isName (piece : Text) : Bool := !(piece == [] || piece == ".")

/-- The path of a text. -/
def parse (s : Text) : Path := ⟨rootOf s, (pieces s).filter isName⟩

/-! ## Writing -/

/-- The text of a root. -/
def Root.text : Root → String
  | .relative => ""
  | .single => "/"
  | .double => "//"

/-- The text of a path.  The path without root and names is `.`. -/
def text (p : Path) : Text :=
  let s : Text := Root.text p.root ++ List.intercalate "/" p.parts
  if s.isEmpty then "." else s

/-- The report of a path as a value. -/
def literal (p : Path) : String := "PosixPath(" ++ Text.quoted p.text ++ ")"

/-! ## Operations -/

/-- The path has a root. -/
def isAbsolute (p : Path) : Bool := p.root != .relative

/-- A path below another one. -/
def join (base p : Path) : Path :=
  if p.isAbsolute then p else { base with parts := base.parts ++ p.parts }

instance : Div Path := ⟨join⟩

/-- The path of a list of names below the root directory. -/
def ofNames (names : List Text) : Path := ⟨.single, names⟩

/-! ## Tests -/

example : (parse "a//b/./").text = "a/b" := by decide
example : (parse "//srv/../x").text = "//srv/../x" := by decide
example : (parse "///").text = "/" := by decide
example : (parse "").text = "." := by decide
example : (parse "/opt" / parse "lib/.").text = "/opt/lib" := by decide

end Path
end Bindery
