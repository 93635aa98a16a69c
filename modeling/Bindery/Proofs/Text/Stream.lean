import Bindery.Proofs.Text.Utf8
import Bindery.Text.Stream

/-!
# Chunks do not matter

A file that is read in chunks reads as if it were decoded at once and its line ends were
replaced then (`Stream.read_of_text`), and it has a fault if and only if its bytes are those
of no text (`Stream.read_fault_iff`).  The invariant of the loop is that what a chunk leaves
for the next one is nothing, or begins with bytes that are no character yet (`Leftover`).
-/

namespace Bindery.Text

namespace Utf8

variable {bytes held : List UInt8} {cs : List Char} {reason : Reason} {front : List UInt8}
  {ps : List Piece}

/-- The bytes are none, or begin with some that are no character. -/
def Leftover (held : List UInt8) : Prop :=
  held = [] ∨ ∃ reason front ps, pieces held = .fault reason front :: ps

theorem pieces_ne_nil (h : bytes ≠ []) : pieces bytes ≠ [] := by
  intro hnil
  cases firstPiece bytes with
  | none hbytes => exact h hbytes
  | scalar front rest n hfront hbytes =>
      rw [hbytes, hfront.pieces_append] at hnil
      cases hnil
  | unfinished _ hpieces =>
      rw [hpieces] at hnil
      cases hnil
  | fault reason front rest _ _ hbytes hpieces =>
      have hfault := hpieces []
      rw [List.append_nil, ← hbytes, hnil] at hfault
      cases hfault

/-- A lone fault at the start of a character is all there is. -/
theorem eq_of_pieces_eq {b : UInt8} (h : pieces bytes = [.fault .invalidStart [b]]) :
    bytes = [b] := by
  cases firstPiece bytes with
  | none hbytes =>
      subst hbytes
      cases h
  | scalar front rest n hfront hbytes =>
      rw [hbytes, hfront.pieces_append] at h
      cases h
  | unfinished _ hpieces =>
      rw [hpieces] at h
      cases h
  | fault reason front rest _ _ hbytes hpieces =>
      have hfault := hpieces []
      rw [List.append_nil, List.append_nil, ← hbytes, h] at hfault
      injection hfault with hpiece hrest
      injection hpiece with _ hfront
      have hnil : rest = [] := by
        by_contra hne
        exact pieces_ne_nil hne hrest.symm
      rw [hbytes, ← hfront, hnil, List.append_nil]

theorem eq_of_isHalfSurrogate (h : isHalfSurrogate (.fault reason front :: ps) = true) :
    ∃ b, front = [0xED] ∧ ps = [.fault .invalidStart [b]] := by
  unfold isHalfSurrogate at h
  split at h
  case h_1 b heq =>
    cases heq
    exact ⟨b, rfl, rfl⟩
  case h_2 => cases h

/-- What a chunk comes to: characters and what is left for the next one, or a fault that no
next chunk mends. -/
theorem readPieces_cases (position : Nat) (bytes : List UInt8) :
    (∃ cs held, readPieces position (pieces bytes) = .ok (cs, held) ∧ Leftover held ∧
      ∀ b, text? (bytes ++ b) = (text? (held ++ b)).map (cs ++ ·)) ∨
    (∃ fault, readPieces position (pieces bytes) = .error fault ∧
      ∀ b, text? (bytes ++ b) = none) := by
  induction hlen : bytes.length using Nat.strongRecOn generalizing bytes position with
  | ind len ih =>
      cases firstPiece bytes with
      | none hnil =>
          subst hnil
          exact .inl ⟨[], [], rfl, .inl rfl, by simp⟩
      | scalar front rest n hfront hbytes =>
          subst hbytes
          have hpos := List.length_pos_iff.2 hfront.ne_nil
          have hshort : rest.length < len := by
            rw [List.length_append] at hlen
            omega
          simp only [hfront.pieces_append, readPieces, List.append_assoc, hfront.text?_append]
          rcases ih _ hshort (position + front.length) rest rfl with
            ⟨cs, held, hread, hheld, htext⟩ | ⟨fault, hread, htext⟩
          · refine .inl ⟨Char.ofNat n :: cs, held, by rw [hread]; rfl, hheld, fun b => ?_⟩
            rw [htext, Option.map_map]
            rfl
          · refine .inr ⟨fault, by rw [hread]; rfl, fun b => ?_⟩
            rw [htext, Option.map_none]
      | unfinished _ hpieces =>
          refine .inl ⟨[], bytes, by rw [hpieces, readPieces], .inr ⟨_, _, _, hpieces⟩, ?_⟩
          simp
      | fault reason front rest hreason _ hbytes hpieces =>
          subst hbytes
          have hfault := hpieces []
          rw [List.append_nil, List.append_nil] at hfault
          rw [hfault, readPieces]
          swap
          · exact hreason
          by_cases hhalf : isHalfSurrogate (.fault reason front :: pieces rest) = true
          · obtain ⟨b, hfront, hrest⟩ := eq_of_isHalfSurrogate hhalf
            -- The pieces end here, so the two bytes that are held are all that is left.
            have heq : rest = [b] := eq_of_pieces_eq hrest
            subst heq
            rw [if_pos hhalf, hrest]
            exact .inl ⟨[], front ++ [b], rfl, .inr ⟨_, _, _, hfault⟩, by simp⟩
          · rw [if_neg hhalf]
            exact .inr ⟨_, rfl, fun b => text?_of_fault (hpieces b)⟩

end Utf8

/-! ## Line ends -/

theorem newlines_return {cs : List Char} (h : cs.head? ≠ some '\n') :
    newlines ('\r' :: cs) = '\n' :: newlines cs := by
  rw [newlines]
  rintro rest rfl
  exact h rfl

theorem newlines_cons {c : Char} (h : c ≠ '\r') (cs : List Char) :
    newlines (c :: cs) = c :: newlines cs := by
  rw [newlines]
  · rintro rest rfl
    exact absurd rfl h
  · rintro rfl
    exact h rfl

/-- Line ends may be replaced part by part, unless a part ends inside one. -/
theorem newlines_append (xs ys : List Char)
    (h : xs.getLast? = some '\r' → ys.head? ≠ some '\n') :
    newlines (xs ++ ys) = newlines xs ++ newlines ys := by
  fun_induction newlines xs
  case case1 => rfl
  case case2 cs ih =>
    have hlast : cs.getLast? = some '\r' → ys.head? ≠ some '\n' := by
      intro hcs
      exact h (by simp [List.getLast?_cons, hcs])
    simp only [List.cons_append, newlines, ih hlast]
  case case3 cs hcs ih =>
    have hlast : cs.getLast? = some '\r' → ys.head? ≠ some '\n' := by
      intro hcs
      exact h (by simp [List.getLast?_cons, hcs])
    have hhead : (cs ++ ys).head? ≠ some '\n' := by
      cases cs with
      | nil => exact h rfl
      | cons c cs =>
          rintro ⟨⟩
          exact hcs cs rfl
    rw [List.cons_append, newlines_return hhead, ih hlast, List.cons_append]
  case case4 c cs hc hcs ih =>
    have hlast : cs.getLast? = some '\r' → ys.head? ≠ some '\n' := by
      intro hcs
      exact h (by simp [List.getLast?_cons, hcs])
    rw [List.cons_append, newlines_cons, ih hlast, List.cons_append]
    exact fun hreturn => hcs hreturn

namespace Stream

theorem newlines_splitReturn (xs ys : List Char) :
    newlines (splitReturn xs).1 ++ newlines ((splitReturn xs).2 ++ ys) = newlines (xs ++ ys) := by
  unfold splitReturn
  split
  case isTrue h =>
    have hxs : xs = xs.dropLast ++ ['\r'] := (List.dropLast_append_getLast? _ (beq_iff_eq.1 h)).symm
    rw [← newlines_append _ _ (by simp)]
    rw [← List.append_assoc, ← hxs]
  case isFalse h =>
    rw [List.nil_append, ← newlines_append]
    intro hreturn
    exact absurd (beq_iff_eq.2 hreturn) h

/-! ## Reading to the end -/

theorem chunkSize_pos (s : Stream) : 0 < s.chunkSize := by
  rw [chunkSize]
  exact Nat.lt_of_lt_of_le (by decide) (Nat.le_max_left _ _)

theorem heldFault?_eq_none_iff {held : List UInt8} (h : Utf8.Leftover held) :
    Utf8.heldFault? held = none ↔ held = [] := by
  rcases h with rfl | ⟨reason, front, ps, hpieces⟩
  · simp [Utf8.heldFault?, Utf8.pieces]
  · have hne : held ≠ [] := by
      rintro rfl
      cases hpieces
    simp [Utf8.heldFault?, hpieces, hne]

/-- What reading to the end comes to, if the bytes that are held are left over. -/
theorem readAll_cases (fuel : Nat) (s : Stream) (hfuel : s.bytes.length < fuel)
    (hheld : Utf8.Leftover s.held) :
    (∃ cs, Utf8.text? (s.held ++ s.bytes) = some cs ∧
      readAll fuel s = (newlines (s.waiting ++ cs), none)) ∨
    (Utf8.text? (s.held ++ s.bytes) = none ∧ (readAll fuel s).2.isSome = true) := by
  -- Each chunk takes at least one byte, so the fuel stays above the bytes that are left.
  induction fuel generalizing s with
  | zero => cases hfuel
  | succ fuel ih =>
      rw [readAll]
      by_cases hempty : s.bytes.isEmpty = true
      · have hnil : s.bytes = [] := List.isEmpty_iff.1 hempty
        rw [if_pos hempty, hnil, List.append_nil]
        cases hfault : Utf8.heldFault? s.held with
        | none =>
            rw [(heldFault?_eq_none_iff hheld).1 hfault]
            exact .inl ⟨[], rfl, by rw [List.append_nil]⟩
        | some fault =>
            rcases hheld with hheld | ⟨reason, front, ps, hpieces⟩
            · rw [hheld] at hfault
              cases hfault
            · exact .inr ⟨Utf8.text?_of_fault hpieces, rfl⟩
      · rw [if_neg hempty]
        have htext : s.held ++ s.bytes =
            s.held ++ s.bytes.take s.chunkSize ++ s.bytes.drop s.chunkSize := by
          rw [List.append_assoc, List.take_append_drop]
        have hshort : (s.bytes.drop s.chunkSize).length < fuel := by
          have hpos := chunkSize_pos s
          have hbytes := List.length_pos_iff.2 fun h => hempty (List.isEmpty_iff.2 h)
          rw [List.length_drop]
          omega
        rcases Utf8.readPieces_cases 0 (s.held ++ s.bytes.take s.chunkSize) with
          ⟨cs, held, hread, hleft, hmore⟩ | ⟨fault, hread, hnone⟩
        · simp only [hread]
          rw [htext, hmore]
          have hnext := ih (s.behind s.chunkSize (newlines (splitReturn (s.waiting ++ cs)).1) held
            (splitReturn (s.waiting ++ cs)).2) hshort hleft
          simp only [behind] at hnext ⊢
          rcases hnext with ⟨more, htail, hall⟩ | ⟨htail, hall⟩
          · refine .inl ⟨cs ++ more, by rw [htail]; rfl, ?_⟩
            rw [hall, newlines_splitReturn, List.append_assoc]
          · exact .inr ⟨by rw [htail]; rfl, hall⟩
        · simp only [hread]
          rw [htext, hnone]
          exact .inr ⟨rfl, rfl⟩

/-- A text is read as a whole, with newlines for its line ends. -/
theorem read_of_text {bytes : List UInt8} {cs : List Char} (h : Utf8.text? bytes = some cs) :
    read bytes = (newlines cs, none) := by
  rcases readAll_cases (bytes.length + 1) { bytes } (Nat.lt_succ_self _) (.inl rfl) with
    ⟨cs', htext, hread⟩ | ⟨htext, -⟩
  · rw [List.nil_append, h] at htext
    cases htext
    exact hread
  · rw [List.nil_append, h] at htext
    cases htext

/-- Bytes are read with a fault if they are those of no text. -/
theorem read_fault_iff (bytes : List UInt8) :
    (∃ fault, (read bytes).2 = some fault) ↔ ¬Utf8.IsText bytes := by
  rw [← Option.isSome_iff_exists, ← Utf8.text?_eq_none_iff]
  rcases readAll_cases (bytes.length + 1) { bytes } (Nat.lt_succ_self _) (.inl rfl) with
    ⟨cs, htext, hread⟩ | ⟨htext, hread⟩
  · rw [List.nil_append] at htext
    simp [htext, read, hread]
  · rw [List.nil_append] at htext
    simp [htext, read, hread]

end Stream
end Bindery.Text
