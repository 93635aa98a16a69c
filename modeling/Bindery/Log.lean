import Bindery.Context
import Bindery.Json.Printer
import Bindery.Value.Text

/-!
# The log

A run logs events.  An `Event` has a level, a component, an action, and fields
of its own.  The log has one line for each event that is shown, as text or as
JSON.  Quiet runs show no information, and events for debugging are shown only
if that is asked for.

A text line starts with the same five parts for every event, and the fields
follow in the order of their names.  A JSON line is an object with sorted
members, where a field of the event wins over a part of the same name.

An event with an integer that is too long to be written cannot be logged if it is
shown.
-/

namespace Bindery

/-- Something that happens during a run. -/
structure Event where
  /-- How important it is. -/
  level : Text
  /-- The part of the program. -/
  component : Text
  /-- What happens. -/
  action : Text
  /-- More about it. -/
  fields : List (Text × Json) := []
deriving Repr

namespace Event

/-- The names that a field may not have. -/
def reserved : List Text := ["ctx", "level", "component", "action"]

/-- An event whose fields have names of their own. -/
def make? (level component action : Text) (fields : List (Text × Json)) : Option Event :=
  if fields.any fun field => reserved.contains field.1 then none
  else some ⟨level, component, action, fields⟩

/-- The event is shown in a run. -/
def isShown (ctx : Context) (e : Event) : Bool :=
  !(e.level == "debug" && !ctx.verbose) &&
    !(ctx.quiet && (e.level == "debug" || e.level == "info"))

/-- An event at a time as a JSON object. -/
def toJson (now : Timestamp) (ctx : Context) (e : Event) : Json :=
  .object (Json.putAll
    [("ts", .text (now.iso "T")), ("level", .text e.level), ("run_id", .text ctx.runId),
      ("component", .text e.component), ("action", .text e.action)] e.fields)

/-- A JSON value as plain text. -/
def plain (v : Json) : Text := (Value.ofJson v).plain

/-- The time that a text line shows.  A field may give another one. -/
def shownTime (now : Timestamp) (e : Event) : Text :=
  ((Json.valueOf? "ts" e.fields).map plain).getD (now.iso "T")

/-- A name with its value. -/
def pair (name value : Text) : Text := name ++ "=" ++ value

/-- The line of an event in a log of text. -/
def textLine (now : Timestamp) (ctx : Context) (e : Event) : Text :=
  let parts := [pair "ts" (e.shownTime now), pair "level" e.level, pair "run_id" ctx.runId,
    pair "component" e.component, pair "action" e.action]
  let fields := (Text.sortOn (fun field => field.1) e.fields).map fun field =>
    pair field.1 (plain field.2)
  List.intercalate " " (parts ++ fields)

/-- The line of an event. -/
def line (now : Timestamp) (ctx : Context) (e : Event) : Text :=
  if ctx.logJson then (e.toJson now ctx).render .line else e.textLine now ctx

/-- No field of the event holds an integer that is too long to be written. -/
def isWritable (e : Event) : Bool := e.fields.all fun field => (Value.ofJson field.2).isWritable

/-- What an event adds to the log, if it can be logged: its line if it is shown. -/
def written? (now : Timestamp) (ctx : Context) (e : Event) : Option Text :=
  if !e.isShown ctx then some []
  else if e.isWritable then some (e.line now ctx ++ "\n")
  else none

end Event

/-- The log of events. -/
def log (now : Timestamp) (ctx : Context) (events : List Event) : Text :=
  (events.filter (Event.isShown ctx)).flatMap fun e => e.line now ctx ++ "\n"

end Bindery
