import Bindery.Text.Digit
import Bindery.Text.Quoted

/-!
# Options of a command line

A `Grammar` is a list of switches, each with its names and what it does.  The
words of a command line are told apart first, all of them.  A word is an option
if it starts with a hyphen and is not a number.  The name of a switch may be cut
short as long as it stays the only one.  After `--` no word is an option.

Then the switches take effect one after the other.  `Grammar.read` collects what
they give and the words that are left over.  If a command is expected, the first
word that is no option is taken as its name, with all words behind it.

A value of `--` behind an equality sign is dropped, and then the switch is given
without a value.
-/

namespace Bindery.CommandLine

/-! ## Grammars -/

/-- What a switch does. -/
inductive Effect where
  /-- Shows the help. -/
  | help
  /-- Shows the version. -/
  | version
  /-- Is given or not. -/
  | flag
  /-- Has a value, one of some choices if there are any. -/
  | value (choices : List String)
deriving DecidableEq, Repr

/-- A switch. -/
structure Switch where
  /-- Its names. -/
  names : List String
  /-- What it does. -/
  effect : Effect
deriving DecidableEq, Repr

/-- The switches of a command line. -/
structure Grammar where
  /-- The switches. -/
  switches : List Switch
  /-- The names of switches of which at most one may be given. -/
  exclusive : List String := []

namespace Switch

/-- The switch needs a value. -/
def needsValue (s : Switch) : Bool :=
  match s.effect with
  | .value _ => true
  | _ => false

/-- The name of a switch in messages. -/
def title (s : Switch) : String := "/".intercalate s.names

end Switch

/-- What is wrong with a command line. -/
inductive Fault where
  /-- A word may stand for several options. -/
  | ambiguous (word : Text) (names : List String)
  /-- A value is missing. -/
  | noValue (title : String)
  /-- A value is given where none is needed. -/
  | unusedValue (title : String) (value : Text)
  /-- Two options exclude each other. -/
  | notTogether (title other : String)
  /-- A value is none of the choices. -/
  | notAChoice (title : String) (value : Text) (choices : List String)
  /-- The command is missing. -/
  | noCommand (title : String)
  /-- Words are left over. -/
  | leftOver (words : List Text)
deriving DecidableEq, Repr

/-- Why a command line is not followed. -/
inductive Stop where
  /-- The help is asked for. -/
  | help
  /-- The version is asked for. -/
  | version
  /-- Something is wrong. -/
  | fault (f : Fault)
deriving DecidableEq, Repr

/-- The words for a fault. -/
def Fault.message : Fault → Text
  | .ambiguous word names =>
      let matched := " could match " ++ ", ".intercalate names
      "ambiguous option: " ++ word ++ matched
  | .noValue title => ("argument " ++ title ++ ": expected one argument" : String)
  | .unusedValue title value =>
      ("argument " ++ title ++ ": ignored explicit argument " ++ Text.quoted value : String)
  | .notTogether title other =>
      ("argument " ++ title ++ ": not allowed with argument " ++ other : String)
  | .notAChoice title value choices =>
      let choices := ", ".intercalate (choices.map fun choice : String => Text.quoted choice)
      ("argument " ++ title ++ ": invalid choice: " ++ Text.quoted value ++ " (choose from " ++
        choices ++ ")" : String)
  | .noCommand title => ("the following arguments are required: " ++ title : String)
  | .leftOver words => "unrecognized arguments: " ++ List.intercalate " " words

/-! ## Words -/

/-- What a word is. -/
inductive Role where
  /-- No option. -/
  | argument
  /-- Two hyphens. -/
  | separator
  /-- An option that the grammar does not know. -/
  | unknown
  /-- A switch by one of its names, with a value if the word holds one. -/
  | option (s : Switch) (name : String) (value : Option Text)
deriving DecidableEq, Repr

/-- A word. -/
structure Word where
  /-- The word as it is written. -/
  text : Text
  /-- What it is. -/
  role : Role
deriving DecidableEq, Repr

/-- A text without one newline at its end. -/
def withoutNewline (s : Text) : Text := if s.getLast? = some (.char '\n') then s.dropLast else s

/-- The code point is a digit. -/
def isDigit (x : CodePoint) : Bool := x.is Text.isDigit

/-- The text behind a hyphen is a number. -/
def isNumber (s : Text) : Bool :=
  let rest := s.dropWhile isDigit
  if rest.isEmpty then !s.isEmpty
  else rest.head? = some (.char '.') && 1 < rest.length && (rest.drop 1).all isDigit

/-- The word for two hyphens, which ends the options. -/
def separator : Text := "--"

/-- The text before the first equality sign, and the one behind it if there is a sign. -/
def splitValue (s : Text) : Text × Option Text :=
  let front := s.takeWhile fun x => x != .char '='
  match s.drop front.length with
  | [] => (s, none)
  | _ :: value => (front, some value)

/-- The text starts with two hyphens. -/
def isLong (s : Text) : Bool := separator.isPrefixOf s

namespace Grammar

/-- All names with their switches. -/
def named (g : Grammar) : List (String × Switch) :=
  g.switches.flatMap fun s => s.names.map fun name => (name, s)

/-- The switch with a name, and the name. -/
def find? (g : Grammar) (name : Text) : Option (String × Switch) :=
  g.named.find? fun entry => name == entry.1

/-- The options that a word may be short for.  A name with two hyphens may be cut
short.  A name with one hyphen may have its value behind it. -/
def candidates (g : Grammar) (word : Text) : List (Switch × String × Option Text) :=
  if isLong word then
    let (front, value) := splitValue word
    g.named.filterMap fun (name, s) => if front.isPrefixOf name then some (s, name, value) else none
  else
    g.named.filterMap fun (name, s) =>
      if word.take 2 == name then some (s, name, some (word.drop 2))
      else if word.isPrefixOf name then some (s, name, none)
      else none

/-- What a word is that starts with a hyphen and is no name itself. -/
def longRole (g : Grammar) (word : Text) : Except Fault Role :=
  let (front, value) := splitValue word
  match value, g.find? front with
  | some value, some (name, s) => .ok (.option s name (some value))
  | _, _ =>
      match g.candidates word with
      | [] =>
          if isNumber (withoutNewline (word.drop 1)) || word.contains ' ' then .ok .argument
          else .ok .unknown
      | [(s, name, value)] => .ok (.option s name value)
      | several => .error (.ambiguous word (several.map fun candidate => candidate.2.1))

/-- What a word in front of all separators is. -/
def role (g : Grammar) (word : Text) : Except Fault Role :=
  if word.head? = some (.char '-') && 1 < word.length then
    match g.find? word with
    | some (name, s) => .ok (.option s name none)
    | none => g.longRole word
  else .ok .argument

/-- The words of a command line. -/
def words (g : Grammar) : List Text → Except Fault (List Word)
  | [] => .ok []
  | text :: texts =>
      if text = separator then .ok (⟨text, .separator⟩ :: texts.map fun text => ⟨text, .argument⟩)
      else do
        let role ← g.role text
        return ⟨text, role⟩ :: (← g.words texts)

/-! ## Effects -/

end Grammar

/-- What a command line gives. -/
structure Given where
  /-- The switches, each with its value if it has one. -/
  switches : List (Switch × Option Text) := []
  /-- The words left over. -/
  extra : List Text := []
  /-- The name of the command and the words behind it. -/
  command : Option (Text × List Text) := none
deriving Repr

namespace Given

/-- A switch is given. -/
def has (r : Given) (name : String) : Bool := r.switches.any fun s => s.1.names.contains name

/-- How a switch is given last, if it is: with a value, or without one. -/
def last? (r : Given) (name : String) : Option (Option Text) :=
  (r.switches.reverse.find? fun s => s.1.names.contains name).map Prod.snd

/-- The value that a switch is given last. -/
def value? (r : Given) (name : String) : Option Text := (r.last? name).join

/-- A word that is left over. -/
def addExtra (r : Given) (text : Text) : Given := { r with extra := r.extra ++ [text] }

end Given

namespace Grammar

/-- The effect of a switch with its value. -/
def apply (g : Grammar) (r : Given) (s : Switch) (value : Option Text) : Except Stop Given := do
  match s.effect, value with
  | .value choices, some v =>
      if !choices.isEmpty && !choices.any fun choice => v == choice then
        throw (.fault (.notAChoice s.title v choices))
  | _, _ => pure ()
  let excludes (other : Switch) : Bool :=
    other ≠ s && [s, other].all fun t => t.names.any g.exclusive.contains
  match g.switches.find? fun other => excludes other && r.switches.any fun t => t.1 = other with
  | some other => throw (.fault (.notTogether s.title other.title))
  | none => pure ()
  match s.effect with
  | .help => throw .help
  | .version => throw .version
  | _ => return { r with switches := r.switches ++ [(s, value)] }

/-- The value that a word holds behind the name of a switch, if it counts. -/
def heldValue (value : Text) : Option Text := if value = separator then none else some value

/-- The switches of a word that holds a value, and the one that waits for its value.
Behind a switch with one hyphen that needs no value, other such switches may
follow. -/
def expand (g : Grammar) : (s : Switch) → (name : String) → (value : Text) →
    Except Stop (List (Switch × Option Text) × Option Switch)
  | s, _, [] =>
      if s.needsValue then .ok ([(s, some [])], none)
      else .error (.fault (.unusedValue s.title []))
  | s, name, x :: xs =>
      if s.needsValue then .ok ([(s, heldValue (x :: xs))], none)
      else
        match if isLong name then none else g.find? ['-', x] with
        | none => .error (.fault (.unusedValue s.title (x :: xs)))
        | some (next, t) =>
            if !xs.isEmpty then do
              let (more, pending) ← g.expand t next xs
              return ((s, none) :: more, pending)
            else if t.needsValue then .ok ([(s, none)], some t)
            else .ok ([(s, none), (t, none)], none)

/-- Takes a word, and gives the switch that waits for its value if there is one. -/
def takeWord (g : Grammar) (r : Given) (w : Word) : Except Stop (Given × Option Switch) :=
  match w.role with
  | .option s name (some value) => do
      let (switches, pending) ← g.expand s name value
      return (← switches.foldlM (fun r (s, value) => g.apply r s value) r, pending)
  | .option s _ none =>
      if s.needsValue then .ok (r, some s) else return (← g.apply r s none, none)
  | _ => .ok (r.addExtra w.text, none)

/-- Takes the words of a command line.  `pending` is the switch that waits for its
value, and `expected` says that a command is expected. -/
def takeWords (g : Grammar) (expected : Bool) :
    (pending : Option Switch) → (r : Given) → List Word → Except Stop Given
  | some s, _, [] => .error (.fault (.noValue s.title))
  | none, r, [] => .ok r
  | some s, r, w :: ws =>
      if w.role = .argument then do g.takeWords expected none (← g.apply r s (some w.text)) ws
      else .error (.fault (.noValue s.title))
  | none, r, w :: ws =>
      let isCommand := expected &&
        (w.role = .argument || (w.role = .separator && !ws.isEmpty))
      if isCommand then .ok { r with command := some (w.text, ws.map Word.text) }
      else do
        let (r, pending) ← g.takeWord r w
        g.takeWords expected pending r ws

/-- What a command line gives. -/
def read (g : Grammar) (expected : Bool) (argv : List Text) : Except Stop Given := do
  let words ← (g.words argv).mapError .fault
  g.takeWords expected none {} words

end Grammar
end Bindery.CommandLine
