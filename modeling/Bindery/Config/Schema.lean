import Bindery.Config.Rule

/-!
# Checked configurations

`Config.ofEntries` reads a configuration from the entries of a mapping.  Keys
that are none of the configuration are reported first, all together, and then
the key with the greatest name whose value breaks its rule.  What is not given
keeps its default.

All that is wrong is put in words before one of it is reported.  So where one of
the reports cannot be written, none is given.

The entries come as the list of their keys and a function to their values, so
that a value is only built if its key is one of the configuration.
-/

namespace Bindery

/-- A broken rule and where it is broken. -/
structure Violation where
  /-- The key with the value, or none for the mapping as a whole. -/
  key : Option Key
  /-- What is wrong. -/
  problem : Rule.Problem
deriving Repr

/-- The report of a violation. -/
def Violation.message (v : Violation) : String :=
  "invalid config at " ++ (v.key.map Key.name).getD "<root>" ++ ": " ++ v.problem.message

/-- Why a value is no configuration. -/
inductive Refusal where
  /-- It breaks a rule. -/
  | violation (v : Violation)
  /-- It breaks rules, and a report about that cannot be written. -/
  | unwritable
deriving Repr

/-- The refusal of a value for all that is wrong with it. -/
def Refusal.of (first : Violation) (others : List Violation) : Refusal :=
  if (first :: others).all fun v => v.problem.isWritable then .violation first else .unwritable

namespace Config

/-- The value is the name of a key. -/
def isKey : Value → Bool
  | .text s => (Key.ofName? s).isSome
  | _ => false

/-- What is wrong with keys that are none of the configuration, if there are any. -/
def rootViolation? (keys : List Value) : Option Violation :=
  match keys.filter fun key => !isKey key with
  | [] => none
  | unexpected => some ⟨none, .unexpected unexpected⟩

/-- What is wrong with the value of a key, if it has one. -/
def violation? (value? : Key → Option Value) (k : Key) : Option Violation := do
  let problem ← k.rule.problem? (← value? k)
  return ⟨some k, problem⟩

/-- All that is wrong with the entries of a mapping, what is reported first in front. -/
def violations (keys : List Value) (value? : Key → Option Value) : List Violation :=
  (rootViolation? keys).toList ++ Key.fromGreatest.filterMap (violation? value?)

/-- The configuration with each key set that has a value. -/
def putAll (c : Config) (value? : Key → Option Value) : Config :=
  Key.all.foldl (fun c k => ((value? k).map (c.put k)).getD c) c

/-- The configuration that the entries of a mapping ask for. -/
def ofEntries (keys : List Value) (value? : Key → Option Value) : Except Refusal Config :=
  match violations keys value? with
  | [] => .ok (({} : Config).putAll value?)
  | first :: others => .error (.of first others)

/-- The configuration that a value asks for. -/
def ofValue : Value → Except Refusal Config
  | .mapping entries => ofEntries (entries.map Prod.fst) fun k => Value.lookup k.name entries
  | v => .error (.of ⟨none, .wrongKind v .mapping⟩ [])

end Config

/-! ## The schema as JSON -/

/-- A rule as a JSON schema. -/
def Rule.toJson : Rule → Json
  | .nonEmpty => .object [("type", .text "string"), ("minLength", .int 1)]
  | .matching p => .object [("type", .text "string"), ("pattern", .text p.text)]
  | .natural => .object [("type", .text "integer"), ("minimum", .int 0)]

/-- The rules for all keys as a JSON schema. -/
def Config.schema : Json :=
  .object [("$schema", .text "https://json-schema.org/draft/2020-12/schema"),
    ("title", .text "butler-book configuration"),
    ("type", .text "object"),
    ("additionalProperties", .bool false),
    ("properties", .object (Key.all.map fun k => (k.name, k.rule.toJson)))]

end Bindery
