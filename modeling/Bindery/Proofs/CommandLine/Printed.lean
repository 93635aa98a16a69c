import Bindery.Proofs.CommandLine.Run
import Bindery.Proofs.Pipeline.DryRun

/-!
# Printed results

A result of JSON is printed on one line, which is read back as an object with the members of the
result (`PrintsObject`).  All results can be read, as their names are distinct (`isLegible_result`).

The result of a plan holds its commands.  They are read back one by one, with their words and their
directories (`printsCommands_result`).
-/

namespace Bindery.CommandLine

open Json (isLegible_of_names isLegible_list isLegible_textOrNull)
open Text (joined)

/-! ## Objects -/

/-- A text is one line, which is read as an object with some members in some order.  Halves of
surrogate pairs in its texts are joined when they are read, and else only the order of the
members of objects changes. -/
structure PrintsObject (stdout : Text) (members : List (Text × Json)) : Prop where
  /-- No member has the name of another. -/
  nodup : (members.map Prod.fst).Nodup
  /-- The line is read as the object. -/
  line : ∃ line read, stdout = line ++ "\n" ∧ CodePoint.char '\n' ∉ line ∧
    IsJsonLine line (.object read) ∧
    read.Perm (members.map fun m => (joined m.1, m.2.reread)) ∧
    ((∀ t ∈ (Json.object members).strings, t.IsSettled) →
      read.Perm (members.map fun m => (m.1, m.2.ordered)))

/-- A legible object that is written on one line is printed with all its members. -/
theorem printsObject_of_isLegible {members : List (Text × Json)}
    (h : (Json.object members).IsLegible) :
    PrintsObject (Text.ofLines [((Json.object members).render .line : String)]) members := by
  obtain ⟨read, hread, hperm⟩ := Json.reread_object members
  have hline := h.isJsonLine
  rw [hread] at hline
  cases h with
  | object hnodup hvalues =>
      refine ⟨List.Nodup.of_map joined (by rwa [List.map_map]), _, read,
        Text.ofLines_singleton _, hline.not_mem, hline, hperm, fun hsettled => ?_⟩
      have hsame : (members.map fun m => (joined m.1, m.2.reread)) =
          members.map fun m => (m.1, m.2.ordered) := by
        refine List.map_congr_left fun m hm => ?_
        have htexts := Json.strings_subset_object hm
        rw [(hvalues m hm).reread_eq fun t ht => hsettled t (htexts (.tail _ ht))]
        exact congrArg (·, _) (hsettled m.1 (htexts (.head _)))
      exact hsame ▸ hperm

/-! ## Results -/

/-- The names of the members that all results have. -/
def baseNames : List Text := ["schema_version", "tool", "status", "run_id", "ci", "ref_name"]

/-- The members that all results have come first, under names of their own. -/
theorem isLegible_result {members : List (Text × Json)} (ctx : Context) (names : List Text)
    (hnames : members.map Prod.fst = names)
    (hdistinct : ((baseNames ++ names).map joined).Nodup)
    (hvalues : ∀ v ∈ members.map Prod.snd, v.IsLegible) :
    (Json.object (base ctx ++ members)).IsLegible := by
  refine isLegible_of_names (baseNames ++ names) (by rw [List.map_append, hnames]; rfl) hdistinct
    fun v hv => ?_
  rw [List.map_append, List.mem_append] at hv
  rcases hv with hv | hv
  · simp only [base, List.map_cons, List.map_nil, List.mem_cons, List.not_mem_nil, or_false] at hv
    rcases hv with rfl | rfl | rfl | rfl | rfl | rfl
    · exact .number trivial
    · exact .text _
    · exact .text _
    · exact .text _
    · exact .bool _
    · exact isLegible_textOrNull _
  · exact hvalues v hv

/-! ## Commands of a plan -/

/-- A command of a plan as JSON. -/
def keyJson (k : List Text × Path) : Json :=
  .object [("cwd", .text k.2.text), ("argv", .texts k.1)]

theorem isLegible_keyJson (k : List Text × Path) : (keyJson k).IsLegible :=
  isLegible_of_names ["cwd", "argv"] rfl (by decide)
    (by simpa using ⟨.text _, isLegible_list fun s _ => .text s⟩)

/-- The member of the result of a plan with its commands. -/
def commandsMember (keys : List (List Text × Path)) : Text × Json :=
  ("commands", .list (keys.map keyJson))

theorem isLegible_commands (ctx : Context) (keys : List (List Text × Path)) :
    (Json.object (base ctx ++ [commandsMember keys])).IsLegible := by
  refine isLegible_result ctx ["commands"] rfl (by decide) ?_
  simpa [commandsMember] using isLegible_list fun k _ => isLegible_keyJson k

/-- A text is one line, which is read as an object with some commands, each with its words and its
directory. -/
def PrintsCommands (stdout : Text) (entries : List (List Text × Text)) : Prop :=
  ∃ line v, stdout = line ++ "\n" ∧ IsJsonLine line v ∧
    v.member? "commands" = some (.list (entries.map fun entry =>
      .object [("argv", .texts entry.1), ("cwd", .text entry.2)]))

/-- A command as it is read back, with the halves in its texts joined. -/
def readEntry (k : List Text × Path) : List Text × Text := (k.1.map joined, joined k.2.text)

theorem reread_keyJson (k : List Text × Path) : (keyJson k).reread =
    .object [("argv", .texts (readEntry k).1), ("cwd", .text (readEntry k).2)] := by
  let argv : Text × Json := ("argv", .texts k.1)
  let cwd : Text × Json := ("cwd", .text k.2.text)
  have hsorted : Text.sortOn (fun m : Text × Json => m.1) [cwd, argv] = [argv, cwd] := rfl
  have hwords : (Json.texts k.1).reread = .texts (k.1.map joined) := by
    rw [Json.reread, Json.texts, Json.orderedWith_list, List.map_map, Json.texts, List.map_map]
    rfl
  have hargv : joined "argv" = "argv" := Text.isSettled_ofString _
  have hcwd : joined "cwd" = "cwd" := Text.isSettled_ofString _
  rw [Json.reread, keyJson, Json.orderedWith_object, hsorted, List.map_cons, List.map_singleton,
    hargv, hcwd]
  exact congrArg (fun words => Json.object [("argv", words), _]) hwords

/-- The commands of a plan are read back. -/
theorem printsCommands_result (ctx : Context) (keys : List (List Text × Path)) :
    PrintsCommands (Text.ofLines [result .line ctx [commandsMember keys]])
      (keys.map readEntry) := by
  have hlegible := isLegible_commands ctx keys
  refine ⟨_, _, Text.ofLines_singleton _, hlegible.isJsonLine, ?_⟩
  have hread : (Json.object (base ctx ++ [commandsMember keys])).reread.member? "commands" =
      some (commandsMember keys).2.reread :=
    hlegible.member?_reread (List.mem_append_right _ (.head _)) (Text.isSettled_ofString _)
  have hitems : (commandsMember keys).2.reread =
      .list (keys.map fun k => (keyJson k).reread) := by
    rw [commandsMember, Json.reread, Json.orderedWith_list, List.map_map]
    rfl
  rw [hread, hitems, List.map_map]
  simp only [reread_keyJson]
  rfl

/-- A command whose words and whose directory are settled is read back as it is. -/
theorem readEntry_eq {k : List Text × Path} (hargv : ∀ t ∈ k.1, t.IsSettled)
    (hcwd : k.2.text.IsSettled) : readEntry k = (k.1, k.2.text) := by
  rw [readEntry, hcwd, List.map_congr_left hargv, List.map_id']

end Bindery.CommandLine
