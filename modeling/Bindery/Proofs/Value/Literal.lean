import Bindery.Proofs.Json.Decimal
import Bindery.Value.Text

/-!
# Literals are unbroken

A string is unbroken if it has no line end in it.  Quotes escape the line ends of a text, and
numbers, days and times have none, so the literal of every value is unbroken
(`unbroken_literal`).  A value that is shown plainly has the line ends of a text if it is that
text, and else none (`mem_plain_iff`).
-/

namespace Bindery

/-- The string has no line end in it. -/
def Unbroken (s : String) : Prop := '\n' ∉ s.toList

section

variable {s t : String}

theorem Unbroken.append (hs : Unbroken s) (ht : Unbroken t) : Unbroken (s ++ t) := by
  rw [Unbroken, String.toList_append, List.mem_append, not_or]
  exact ⟨hs, ht⟩

theorem unbroken_of_isVisible (h : ∀ c ∈ s.toList, Json.IsVisible c) : Unbroken s :=
  fun hmem => absurd (h _ hmem) (by decide)

theorem unbroken_intercalate (hs : Unbroken s) {items : List String}
    (h : ∀ item ∈ items, Unbroken item) : Unbroken (s.intercalate items) := by
  rw [Unbroken, String.toList_intercalate]
  induction items with
  | nil => simp
  | cons item items ih =>
      obtain ⟨hitem, hitems⟩ := List.forall_mem_cons.1 h
      cases items with
      | nil => simpa [Unbroken] using hitem
      | cons next items =>
          rw [List.map_cons, List.map_cons, List.intercalate_cons_cons, List.mem_append,
            List.mem_append, not_or, not_or]
          exact ⟨⟨hitem, hs⟩, ih hitems⟩

theorem unbroken_int (n : Int) : Unbroken (toString n) :=
  unbroken_of_isVisible (Json.isVisible_renderNumber_int n)

theorem unbroken_nat (n : Nat) : Unbroken (toString n) := unbroken_int (n : Int)

theorem unbroken_map_nat (ns : List Nat) : ∀ item ∈ ns.map toString, Unbroken item :=
  List.forall_mem_map.2 fun n _ => unbroken_nat n

end

/-! ## Quotes -/

namespace Text

theorem newline_not_mem_hexDigits (width n : Nat) : '\n' ∉ hexDigits width n := by
  induction width generalizing n with
  | zero => simp [hexDigits]
  | succ width ih =>
      have hdigit : ∀ d < 16, '\n' ≠ Nat.digitChar d := by decide
      rw [hexDigits, List.mem_append, List.mem_singleton, not_or]
      exact ⟨ih _, hdigit _ (Nat.mod_lt n (by decide))⟩

theorem newline_not_mem_escapeCode (n : Nat) : '\n' ∉ escapeCode n := by
  unfold escapeCode
  split
  · simpa using newline_not_mem_hexDigits 2 n
  · split
    · simpa using newline_not_mem_hexDigits 4 n
    · simpa using newline_not_mem_hexDigits 8 n

variable {quote : Char}

/-- Only a quote that is a line end itself would let one stand. -/
theorem newline_not_mem_quoteChar (hquote : quote ≠ '\n') (c : Char) :
    '\n' ∉ quoteChar quote c := by
  unfold quoteChar
  split
  next hescaped =>
    have hc : '\n' ≠ c := by
      rintro rfl
      simp [hquote.symm] at hescaped
    simpa using hc
  · split
    · decide
    · next hnewline =>
      have hc : '\n' ≠ c := by
        rintro rfl
        exact hnewline rfl
      split
      · decide
      · split
        · decide
        · split
          · simpa using hc
          · exact newline_not_mem_escapeCode _

theorem quoteFor_ne_newline (a b : Bool) : quoteFor a b ≠ '\n' := by cases a <;> cases b <;> decide

theorem unbroken_quoted (s : Text) : Unbroken (quoted s) := by
  have hquote := quoteFor_ne_newline (s.contains apostrophe) (s.contains doubleQuote)
  have hpoint (x : CodePoint) :
      '\n' ∉ quotePoint (quoteFor (s.contains apostrophe) (s.contains doubleQuote)) x := by
    cases x with
    | char c => exact newline_not_mem_quoteChar hquote c
    | half index => exact newline_not_mem_escapeCode _
  simp only [Unbroken, quoted, String.toList_ofList, List.cons_append, List.mem_cons,
    List.mem_append, List.mem_flatMap, List.not_mem_nil, or_false, not_or, not_exists, not_and]
  exact ⟨hquote.symm, fun x _ => hpoint x, hquote.symm⟩

theorem unbroken_quotedBytes (bytes : List UInt8) : Unbroken (quotedBytes bytes) := by
  have hquote := quoteFor_ne_newline (bytes.contains 0x27) (bytes.contains 0x22)
  have hbyte (b : UInt8) :
      '\n' ∉ quoteByte (quoteFor (bytes.contains 0x27) (bytes.contains 0x22)) b := by
    unfold quoteByte
    split
    · exact newline_not_mem_quoteChar hquote _
    · exact newline_not_mem_escapeCode _
  simp only [Unbroken, quotedBytes, String.toList_ofList, List.cons_append, List.mem_cons,
    List.mem_append, List.mem_flatMap, List.not_mem_nil, or_false, not_or, not_exists, not_and]
  exact ⟨by decide, hquote.symm, fun b _ => hbyte b, hquote.symm⟩

end Text

/-! ## Numbers, days and times -/

theorem Number.unbroken_text (n : Number) : Unbroken n.text := by
  cases n with
  | int n => exact unbroken_int n
  | float x =>
      cases hparts : Parts.ofFloat x with
      | nan =>
          rw [text, hparts]
          simp [Unbroken, Parts.render]
      | infinite negative =>
          rw [text, hparts]
          cases negative <;> simp [Unbroken, Parts.render]
      | finite negative m e =>
          have htext : (Number.float x).text = Json.renderNumber (.float x) := by
            rw [text, Json.renderNumber, hparts]
          rw [htext]
          exact unbroken_of_isVisible (Json.isVisible_renderNumber ⟨negative, m, e, hparts⟩)

theorem unbroken_padded (width n : Nat) : Unbroken (padded width n) := by
  have hzeros : Unbroken (String.ofList (List.replicate (width - (toString n).length) '0')) := by
    simp [Unbroken]
  exact hzeros.append (unbroken_nat n)

theorem unbroken_commas {items : List String} (h : ∀ item ∈ items, Unbroken item) :
    Unbroken (", ".intercalate items) := unbroken_intercalate (by simp [Unbroken]) h

theorem Date.unbroken_iso (d : Date) : Unbroken d.iso := by
  have hhyphen : Unbroken "-" := by simp [Unbroken]
  have hmonth := ((unbroken_padded 4 d.year).append hhyphen).append (unbroken_padded 2 d.month)
  exact (hmonth.append hhyphen).append (unbroken_padded 2 d.day)

theorem Date.unbroken_literal (d : Date) : Unbroken d.literal := by
  have hparts := unbroken_commas (unbroken_map_nat [d.year, d.month, d.day])
  have hfront : Unbroken "datetime.date(" := by simp [Unbroken]
  have hback : Unbroken ")" := by simp [Unbroken]
  exact (hfront.append hparts).append hback

namespace Timestamp

theorem unbroken_zoneText (minutes : Int) : Unbroken (zoneText minutes) := by
  have hsign : Unbroken (if minutes < 0 then "-" else "+") := by split <;> simp [Unbroken]
  have hcolon : Unbroken ":" := by simp [Unbroken]
  exact ((hsign.append (unbroken_padded _ _)).append hcolon).append (unbroken_padded _ _)

/-- A time has no line end unless there is one between the day and the time of the day. -/
theorem unbroken_iso (t : Timestamp) {between : String} (h : Unbroken between) :
    Unbroken (t.iso between) := by
  have hcolon : Unbroken ":" := by simp [Unbroken]
  have hempty : Unbroken "" := by simp [Unbroken]
  have hpoint : Unbroken "." := by simp [Unbroken]
  have hmicro : Unbroken (if t.micro == 0 then "" else "." ++ padded 6 t.micro) := by
    split
    · exact hempty
    · exact hpoint.append (unbroken_padded _ _)
  have hzone : Unbroken ((t.zone.map zoneText).getD "") := by
    cases t.zone with
    | none => exact hempty
    | some z => exact unbroken_zoneText z
  have hhour := ((t.toDate.unbroken_iso.append h).append (unbroken_padded 2 t.hour)).append hcolon
  have hminute := (hhour.append (unbroken_padded 2 t.minute)).append hcolon
  exact ((hminute.append (unbroken_padded 2 t.second)).append hmicro).append hzone

theorem unbroken_spanLiteral (minutes : Int) : Unbroken (spanLiteral minutes) := by
  have hfront : Unbroken "datetime.timedelta(" := by simp [Unbroken]
  have hnone : Unbroken "0" := by simp [Unbroken]
  have hback : Unbroken ")" := by simp [Unbroken]
  have hdays : Unbroken "days=" := by simp [Unbroken]
  have hseconds : Unbroken "seconds=" := by simp [Unbroken]
  have hparts : ∀ item ∈ (if minutes / 1440 == 0 then []
      else ["days=" ++ toString (minutes / 1440)]) ++
      (if minutes % 1440 * 60 == 0 then [] else ["seconds=" ++ toString (minutes % 1440 * 60)]),
      Unbroken item := by
    intro item hitem
    rcases List.mem_append.1 hitem with hitem | hitem
    · split at hitem
      · cases hitem
      · rw [List.mem_singleton.1 hitem]
        exact hdays.append (unbroken_int _)
    · split at hitem
      · cases hitem
      · rw [List.mem_singleton.1 hitem]
        exact hseconds.append (unbroken_int _)
  unfold spanLiteral
  refine (hfront.append ?_).append hback
  generalize (if minutes / 1440 == 0 then [] else ["days=" ++ toString (minutes / 1440)]) ++
    (if minutes % 1440 * 60 == 0 then []
      else ["seconds=" ++ toString (minutes % 1440 * 60)]) = parts at *
  split
  · exact hnone
  · exact unbroken_commas hparts

theorem unbroken_zoneLiteral (minutes : Int) : Unbroken (zoneLiteral minutes) := by
  have hfront : Unbroken "datetime.timezone(" := by simp [Unbroken]
  have hback : Unbroken ")" := by simp [Unbroken]
  unfold zoneLiteral
  split
  · simp [Unbroken]
  · exact (hfront.append (unbroken_spanLiteral _)).append hback

theorem unbroken_literal (t : Timestamp) : Unbroken t.literal := by
  have hfront : Unbroken "datetime.datetime(" := by simp [Unbroken]
  have hback : Unbroken ")" := by simp [Unbroken]
  unfold literal
  refine (hfront.append (unbroken_commas fun item hitem => ?_)).append hback
  rcases List.mem_append.1 hitem with hitem | hitem
  · exact unbroken_map_nat _ item hitem
  · cases hzone : t.zone with
    | none => simp [hzone] at hitem
    | some z =>
        have heq : item = "tzinfo=" ++ zoneLiteral z := by simpa [hzone] using hitem
        have hname : Unbroken "tzinfo=" := by simp [Unbroken]
        rw [heq]
        exact hname.append (unbroken_zoneLiteral z)

end Timestamp

/-! ## Values -/

namespace Value

theorem unbroken_enclose {opening closing : String}
    (hbrackets : Unbroken opening ∧ Unbroken closing) {items : List String}
    (h : ∀ item ∈ items, Unbroken item) : Unbroken (enclose opening closing items) :=
  (hbrackets.1.append (unbroken_commas h)).append hbrackets.2

theorem unbroken_leafLiteral (v : Value) : Unbroken (leafLiteral v) := by
  cases v with
  | bool b => cases b <;> simp [Unbroken, leafLiteral]
  | number n => exact n.unbroken_text
  | text s => exact Text.unbroken_quoted s
  | bytes bs => exact Text.unbroken_quotedBytes bs
  | date d => exact d.unbroken_literal
  | time t => exact t.unbroken_literal
  | again kind => cases kind <;> simp [Unbroken, leafLiteral]
  | null | list | pair | mapping | set => simp [Unbroken, leafLiteral]

mutual

/-- The literal of a value has no line end in it. -/
theorem unbroken_literal : ∀ v : Value, Unbroken (literal v)
  | .list items => by
      rw [literal]
      exact unbroken_enclose (by simp [Unbroken]) (unbroken_literals items)
  | .pair first second => by
      rw [literal]
      refine unbroken_enclose (by simp [Unbroken]) ?_
      simp [unbroken_literal first, unbroken_literal second]
  | .mapping entries => by
      rw [literal]
      exact unbroken_enclose (by simp [Unbroken]) (unbroken_entryLiterals entries)
  | .set items => by
      rw [literal]
      split
      · simp [Unbroken]
      · exact unbroken_enclose (by simp [Unbroken]) (unbroken_literals items)
  | .null => unbroken_leafLiteral .null
  | .bool b => unbroken_leafLiteral (.bool b)
  | .number n => unbroken_leafLiteral (.number n)
  | .text s => unbroken_leafLiteral (.text s)
  | .bytes bs => unbroken_leafLiteral (.bytes bs)
  | .date d => unbroken_leafLiteral (.date d)
  | .time t => unbroken_leafLiteral (.time t)
  | .again kind => unbroken_leafLiteral (.again kind)

theorem unbroken_literals : ∀ vs : List Value, ∀ item ∈ literals vs, Unbroken item
  | [] => by simp [literals]
  | v :: vs => by
      rw [literals, List.forall_mem_cons]
      exact ⟨unbroken_literal v, unbroken_literals vs⟩

theorem unbroken_entryLiterals :
    ∀ entries : List (Value × Value), ∀ item ∈ entryLiterals entries, Unbroken item
  | [] => by simp [entryLiterals]
  | (k, v) :: entries => by
      have hcolon : Unbroken ": " := by simp [Unbroken]
      rw [entryLiterals, List.forall_mem_cons]
      exact ⟨((unbroken_literal k).append hcolon).append (unbroken_literal v),
        unbroken_entryLiterals entries⟩

end

/-- A string stands for a text without line ends if it is unbroken. -/
theorem newline_mem_ofString {s : String} : .char '\n' ∈ Text.ofString s ↔ ¬Unbroken s := by
  simp [Unbroken, Text.ofString, Text.ofChars]

/-- A plain value has a line end only if it is a text with one. -/
theorem mem_plain_iff (v : Value) : .char '\n' ∈ v.plain ↔ ∃ s, v = .text s ∧ .char '\n' ∈ s := by
  have hblank : Unbroken " " := by simp [Unbroken]
  cases v with
  | text s => simp [plain]
  | date d =>
      simp only [plain, newline_mem_ofString, d.unbroken_iso, not_true, reduceCtorEq, false_and,
        exists_false]
  | time t =>
      simp only [plain, newline_mem_ofString, t.unbroken_iso hblank, not_true, reduceCtorEq,
        false_and, exists_false]
  | _ =>
      simp only [plain, newline_mem_ofString, unbroken_literal, not_true, reduceCtorEq, false_and,
        exists_false]

end Value
end Bindery
