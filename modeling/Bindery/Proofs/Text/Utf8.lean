import Bindery.Text.Utf8
import Mathlib.Data.List.Basic

/-!
# Well-formed bytes

The bytes that are decoded are those that characters are written with (`IsText`), and the
characters are given back (`text?_eq_some_iff`).  The proof follows the first piece.
`Encoded` lists the byte strings of one character by their bounds, and `firstPiece` says how
the pieces of some bytes begin, alone and with more bytes behind them.
-/

namespace Bindery.Text.Utf8

/-! ## The bytes of a character -/

/-- A byte that continues a character, by its number. -/
def Tail (b : UInt8) : Prop := 0x80 ≤ b.toNat ∧ b.toNat ≤ 0xBF

/-- A byte that may follow a first byte, by their numbers. -/
def Second (a b : UInt8) : Prop :=
  Tail b ∧ (a.toNat = 0xE0 → 0xA0 ≤ b.toNat) ∧ (a.toNat = 0xED → b.toNat ≤ 0x9F) ∧
    (a.toNat = 0xF0 → 0x90 ≤ b.toNat) ∧ (a.toNat = 0xF4 → b.toNat ≤ 0x8F)

/-- The bytes of the character with a number. -/
inductive Encoded : List UInt8 → Nat → Prop where
  | one {a : UInt8} : a.toNat < 0x80 → Encoded [a] a.toNat
  | two {a b : UInt8} : 0xC2 ≤ a.toNat → a.toNat < 0xE0 → Tail b →
      Encoded [a, b] (a.toNat % 32 * 64 + tailBits b)
  | three {a b c : UInt8} : 0xE0 ≤ a.toNat → a.toNat < 0xF0 → Second a b → Tail c →
      Encoded [a, b, c] ((a.toNat % 16 * 64 + tailBits b) * 64 + tailBits c)
  | four {a b c d : UInt8} : 0xF0 ≤ a.toNat → a.toNat ≤ 0xF4 → Second a b → Tail c → Tail d →
      Encoded [a, b, c, d]
        (((a.toNat % 8 * 64 + tailBits b) * 64 + tailBits c) * 64 + tailBits d)

variable {a b bytes rest : List UInt8} {cs : List Char} {n : Nat}

theorem isTail_iff (b : UInt8) : isTail b = true ↔ Tail b := by
  simp [isTail, Tail, UInt8.le_iff_toNat_le]

theorem isSecond_iff (a b : UInt8) : isSecond a b = true ↔ Second a b := by
  have heq (n : UInt8) : a = n ↔ a.toNat = n.toNat := UInt8.toNat_inj.symm
  simp only [isSecond, isTail, Second, Tail, beq_iff_eq, heq, UInt8.le_iff_toNat_le,
    UInt8.toNat_ofNat]
  split_ifs <;> simp <;> omega

theorem val_ofNat (h : n.isValidChar) : (Char.ofNat n).val.toNat = n := by
  rw [Char.ofNat, dif_pos h]
  rfl

/-- The bits of a byte that continues a character. -/
theorem Tail.tailBits {b : UInt8} (h : Tail b) : tailBits b + 0x80 = b.toNat ∧ tailBits b < 64 := by
  simp only [Tail, Utf8.tailBits] at *
  omega

theorem Encoded.isValidChar (h : Encoded bytes n) : n.isValidChar := by
  cases h <;> simp only [Nat.isValidChar, Second, Tail, Utf8.tailBits] at * <;> omega

/-- The bytes are those that the character is written with. -/
theorem Encoded.encode (h : Encoded bytes n) : String.utf8EncodeChar (Char.ofNat n) = bytes := by
  have hbyte (m : Nat) (x : UInt8) (hm : m = x.toNat) : UInt8.ofNat m = x := by simp [hm]
  simp only [String.utf8EncodeChar, val_ofNat h.isValidChar]
  cases h with
  | @one a ha =>
      rw [if_pos (by omega), hbyte _ a rfl]
  | @two a b ha ha' hb =>
      have hb' := hb.tailBits
      rw [if_neg (by omega), if_pos (by omega), hbyte _ a (by omega), hbyte _ b (by omega)]
  | @three a b c ha ha' hb hc =>
      have hb' := hb.1.tailBits
      have hc' := hc.tailBits
      have hbound := hb.2.1
      rw [if_neg (by omega), if_neg (by omega), if_pos (by omega), hbyte _ a (by omega),
        hbyte _ b (by omega), hbyte _ c (by omega)]
  | @four a b c d ha ha' hb hc hd =>
      have hb' := hb.1.tailBits
      have hc' := hc.tailBits
      have hd' := hd.tailBits
      have hbound := hb.2.2.2.1
      rw [if_neg (by omega), if_neg (by omega), if_neg (by omega), hbyte _ a (by omega),
        hbyte _ b (by omega), hbyte _ c (by omega), hbyte _ d (by omega)]

theorem toNat_ofNat {m : Nat} (h : m < 256) : (UInt8.ofNat m).toNat = m := by
  rw [UInt8.toNat_ofNat']
  exact Nat.mod_eq_of_lt h

theorem tailBits_ofNat (n : Nat) : tailBits (UInt8.ofNat (n % 0x40 + 0x80)) = n % 0x40 := by
  rw [tailBits, toNat_ofNat (by omega)]
  omega

theorem tail_ofNat (n : Nat) : Tail (UInt8.ofNat (n % 0x40 + 0x80)) := by
  rw [Tail, toNat_ofNat (by omega)]
  omega

/-- Each character is written with the bytes of its number. -/
theorem encoded_utf8EncodeChar (c : Char) : Encoded (String.utf8EncodeChar c) c.val.toNat := by
  have hvalid : c.val.toNat.isValidChar := c.valid
  simp only [Nat.isValidChar] at hvalid
  fun_cases String.utf8EncodeChar c
  case case1 n hone =>
    have ha := toNat_ofNat (show n < 256 by omega)
    have hencoded := Encoded.one (a := UInt8.ofNat n) (by omega)
    rwa [ha] at hencoded
  case case2 n hone htwo =>
    have ha := toNat_ofNat (show n / 64 % 0x20 + 0xC0 < 256 by omega)
    have hencoded := Encoded.two (a := UInt8.ofNat (n / 64 % 0x20 + 0xC0)) (by omega) (by omega)
      (tail_ofNat n)
    rw [ha, tailBits_ofNat] at hencoded
    convert hencoded using 1
    omega
  case case3 n hone htwo hthree =>
    have ha := toNat_ofNat (show n / 4096 % 0x10 + 0xE0 < 256 by omega)
    have hb := toNat_ofNat (show n / 64 % 0x40 + 0x80 < 256 by omega)
    have hsecond : Second (UInt8.ofNat (n / 4096 % 0x10 + 0xE0))
        (UInt8.ofNat (n / 64 % 0x40 + 0x80)) :=
      ⟨tail_ofNat (n / 64), by omega, by omega, by omega, by omega⟩
    have hencoded := Encoded.three (by omega) (by omega) hsecond (tail_ofNat n)
    rw [ha, tailBits_ofNat, tailBits_ofNat] at hencoded
    convert hencoded using 1
    omega
  case case4 n hone htwo hthree =>
    have ha := toNat_ofNat (show n / 262144 % 0x08 + 0xF0 < 256 by omega)
    have hb := toNat_ofNat (show n / 4096 % 0x40 + 0x80 < 256 by omega)
    have hsecond : Second (UInt8.ofNat (n / 262144 % 0x08 + 0xF0))
        (UInt8.ofNat (n / 4096 % 0x40 + 0x80)) :=
      ⟨tail_ofNat (n / 4096), by omega, by omega, by omega, by omega⟩
    have hencoded := Encoded.four (by omega) (by omega) hsecond (tail_ofNat (n / 64)) (tail_ofNat n)
    rw [ha, tailBits_ofNat, tailBits_ofNat, tailBits_ofNat] at hencoded
    convert hencoded using 1
    omega

/-! ## The first piece -/

theorem toNat_le_of_not_lt {a m : UInt8} (h : ¬a < m) : m.toNat ≤ a.toNat := by
  rw [UInt8.lt_iff_toNat_lt] at h
  omega

theorem isStart_iff (a : UInt8) : ¬(decide (a < 0xC2) || decide (0xF4 < a)) = true ↔
    0xC2 ≤ a.toNat ∧ a.toNat ≤ 0xF4 := by
  simp only [Bool.or_eq_true, decide_eq_true_eq, UInt8.lt_iff_toNat_lt, UInt8.toNat_ofNat]
  omega

/-- The bytes of a character are its piece, whatever follows. -/
theorem Encoded.pieces_append (h : Encoded bytes n) (rest : List UInt8) :
    pieces (bytes ++ rest) = .scalar (Char.ofNat n) bytes.length :: pieces rest := by
  have hge (a m : UInt8) (hm : m.toNat ≤ a.toNat) : ¬a < m := by
    rw [UInt8.lt_iff_toNat_lt]
    omega
  have hstart (a : UInt8) (ha : 0xC2 ≤ a.toNat) (ha' : a.toNat ≤ 0xF4) :=
    (isStart_iff a).2 ⟨ha, ha'⟩
  have htail {b : UInt8} (hb : Tail b) : ¬(!isTail b) = true := by simp [(isTail_iff b).2 hb]
  have hsecond {a b : UInt8} (hb : Second a b) : ¬(!isSecond a b) = true := by
    simp [(isSecond_iff a b).2 hb]
  rw [pieces.eq_def]
  cases h with
  | @one a ha => exact if_pos (UInt8.lt_iff_toNat_lt.2 ha)
  | @two a b ha ha' hb =>
      have hb' : Second a b := ⟨hb, by omega, by omega, by omega, by omega⟩
      simp only [List.cons_append, List.nil_append]
      rw [if_neg (hge a 0x80 (Nat.le_trans (by decide) ha)), if_neg (hstart a ha (by omega)),
        if_neg (hsecond hb'), if_pos (UInt8.lt_iff_toNat_lt.2 ha')]
      rfl
  | @three a b c ha ha' hb hc =>
      simp only [List.cons_append, List.nil_append]
      rw [if_neg (hge a 0x80 (Nat.le_trans (by decide) ha)),
        if_neg (hstart a (by omega) (by omega)), if_neg (hsecond hb), if_neg (hge a 0xE0 ha),
        if_neg (htail hc), if_pos (UInt8.lt_iff_toNat_lt.2 ha')]
      rfl
  | @four a b c d ha ha' hb hc hd =>
      simp only [List.cons_append, List.nil_append]
      rw [if_neg (hge a 0x80 (Nat.le_trans (by decide) ha)), if_neg (hstart a (by omega) ha'),
        if_neg (hsecond hb), if_neg (hge a 0xE0 (Nat.le_trans (by decide) ha)),
        if_neg (htail hc), if_neg (hge a 0xF0 ha), if_neg (htail hd)]
      rfl

/-- How the pieces of some bytes begin, alone and with more bytes behind them. -/
inductive FirstPiece (bytes : List UInt8) : Prop where
  /-- There are no bytes. -/
  | none : bytes = [] → FirstPiece bytes
  /-- The bytes begin with a character. -/
  | scalar (front rest : List UInt8) (n : Nat) : Encoded front n → bytes = front ++ rest →
      FirstPiece bytes
  /-- The bytes are the beginning of a character. -/
  | unfinished : bytes ≠ [] → pieces bytes = [.fault .unexpectedEnd bytes] → FirstPiece bytes
  /-- The bytes begin with a fault that stays one. -/
  | fault (reason : Reason) (front rest : List UInt8) : reason ≠ .unexpectedEnd → front ≠ [] →
      bytes = front ++ rest →
      (∀ b, pieces (front ++ rest ++ b) = .fault reason front :: pieces (rest ++ b)) →
      FirstPiece bytes

theorem firstPiece (bytes : List UInt8) : FirstPiece bytes := by
  fun_cases pieces bytes
  case case1 => exact .none rfl
  case case2 a rest hone =>
    exact .scalar [a] rest _ (.one (UInt8.lt_iff_toNat_lt.1 hone)) rfl
  case case3 a rest hone hstart =>
    refine .fault .invalidStart [a] rest nofun nofun rfl fun b => ?_
    rw [pieces.eq_def]
    simp only [List.cons_append, List.nil_append, hone, hstart, if_true, if_false]
  case case4 a hone hstart =>
    refine .unfinished nofun ?_
    rw [pieces.eq_def]
    simp only [hone, hstart, if_false, Bool.false_eq_true]
  case case5 a hone hstart b rest hsecond =>
    refine .fault .invalidContinuation [a] (b :: rest) nofun nofun rfl fun more => ?_
    rw [pieces.eq_def]
    simp only [List.cons_append, List.nil_append, hone, hstart, hsecond, if_true, if_false,
      Bool.false_eq_true]
  case case6 a hone hstart b rest hsecond htwo =>
    have hb : Second a b := (isSecond_iff a b).1 (by simpa using hsecond)
    exact .scalar [a, b] rest _
      (.two ((isStart_iff a).1 hstart).1 (UInt8.lt_iff_toNat_lt.1 htwo) hb.1) rfl
  case case7 a hone hstart b hsecond htwo =>
    refine .unfinished nofun ?_
    rw [pieces.eq_def]
    simp only [hone, hstart, hsecond, htwo, if_false, Bool.false_eq_true]
  case case8 a hone hstart b hsecond htwo c rest hthird =>
    refine .fault .invalidContinuation [a, b] (c :: rest) nofun nofun rfl fun more => ?_
    rw [pieces.eq_def]
    simp only [List.cons_append, List.nil_append, hone, hstart, hsecond, htwo, hthird, if_true,
      if_false, Bool.false_eq_true]
  case case9 a hone hstart b hsecond htwo c rest hthird hthree =>
    have hb : Second a b := (isSecond_iff a b).1 (by simpa using hsecond)
    have hc : Tail c := (isTail_iff c).1 (by simpa using hthird)
    exact .scalar [a, b, c] rest _
      (.three (toNat_le_of_not_lt htwo) (UInt8.lt_iff_toNat_lt.1 hthree) hb hc) rfl
  case case10 a hone hstart b hsecond htwo c hthird hthree =>
    refine .unfinished nofun ?_
    rw [pieces.eq_def]
    simp only [hone, hstart, hsecond, htwo, hthird, hthree, if_false, Bool.false_eq_true]
  case case11 a hone hstart b hsecond htwo c hthird hthree d rest hfourth =>
    refine .fault .invalidContinuation [a, b, c] (d :: rest) nofun nofun rfl fun more => ?_
    rw [pieces.eq_def]
    simp only [List.cons_append, List.nil_append, hone, hstart, hsecond, htwo, hthird, hthree,
      hfourth, if_true, if_false, Bool.false_eq_true]
  case case12 a hone hstart b hsecond htwo c hthird hthree d rest hfourth =>
    have hb : Second a b := (isSecond_iff a b).1 (by simpa using hsecond)
    have hc : Tail c := (isTail_iff c).1 (by simpa using hthird)
    have hd : Tail d := (isTail_iff d).1 (by simpa using hfourth)
    exact .scalar [a, b, c, d] rest _
      (.four (toNat_le_of_not_lt hthree) ((isStart_iff a).1 hstart).2 hb hc hd) rfl

/-! ## Decoding at once -/

/-- The characters that bytes are written for, if they are. -/
def text? (bytes : List UInt8) : Option (List Char) := (decodeWhole bytes).toOption

theorem toOption_wholePieces (p q : Nat) (ps : List Piece) :
    (wholePieces p ps).toOption = (wholePieces q ps).toOption := by
  induction ps generalizing p q with
  | nil => rfl
  | cons piece ps ih =>
      cases piece with
      | fault reason bytes => rfl
      | scalar c width =>
          have htail := ih (p + width) (q + width)
          simp only [wholePieces]
          cases hp : wholePieces (p + width) ps <;> cases hq : wholePieces (q + width) ps <;>
            simp_all [Except.map, Except.toOption]

theorem text?_of_fault {reason : Reason} {front : List UInt8} {ps : List Piece}
    (h : pieces bytes = .fault reason front :: ps) : text? bytes = none := by
  simp only [text?, decodeWhole, h, wholePieces]
  rfl

theorem Encoded.text?_append (h : Encoded bytes n) (rest : List UInt8) :
    text? (bytes ++ rest) = (text? rest).map (Char.ofNat n :: ·) := by
  simp only [text?, decodeWhole, h.pieces_append, wholePieces]
  rw [toOption_wholePieces 0 (0 + bytes.length)]
  cases wholePieces (0 + bytes.length) (pieces rest) <;> rfl

theorem Encoded.ne_nil (h : Encoded bytes n) : bytes ≠ [] := by
  cases h <;> exact nofun

/-- The bytes that are decoded are those that the characters are written with. -/
theorem text?_eq_some_iff (bytes : List UInt8) (cs : List Char) :
    text? bytes = some cs ↔ bytes = cs.flatMap String.utf8EncodeChar := by
  constructor
  · intro h
    induction hlen : bytes.length using Nat.strongRecOn generalizing bytes cs with
    | ind len ih =>
        cases firstPiece bytes with
        | none hnil =>
            subst hnil
            cases h
            rfl
        | scalar front rest n hfront hbytes =>
            subst hbytes
            rw [hfront.text?_append, Option.map_eq_some_iff] at h
            obtain ⟨more, hmore, rfl⟩ := h
            have hpos := List.length_pos_iff.2 hfront.ne_nil
            have hshort : rest.length < len := by
              rw [List.length_append] at hlen
              omega
            rw [List.flatMap_cons, hfront.encode, ← ih _ hshort rest more hmore rfl]
        | unfinished _ hpieces => simp [text?_of_fault hpieces] at h
        | fault reason front rest _ _ hbytes hpieces =>
            have hfault := hpieces []
            rw [List.append_nil, ← hbytes] at hfault
            simp [text?_of_fault hfault] at h
  · rintro rfl
    induction cs with
    | nil => rfl
    | cons c cs ih =>
        have hc : Char.ofNat c.val.toNat = c := Char.ofNat_toNat c
        rw [List.flatMap_cons, (encoded_utf8EncodeChar c).text?_append, ih, Option.map_some, hc]

/-- The bytes are those that some characters are written with. -/
def IsText (bytes : List UInt8) : Prop := ∃ cs : List Char, bytes = cs.flatMap String.utf8EncodeChar

theorem text?_eq_none_iff (bytes : List UInt8) : text? bytes = none ↔ ¬IsText bytes := by
  rw [Option.eq_none_iff_forall_ne_some, IsText, not_exists]
  simp only [ne_eq, text?_eq_some_iff]

end Bindery.Text.Utf8
