import SwupdateIpc.Foundations.LossyUtf8

/-!
# UTF-8 texts that are cut

A text of characters of one to four bytes may be cut at any byte. Before the cut stand
the characters that fit whole (`wholeChars`), and perhaps a beginning of the next one
(`take_encodeChars`). Such a beginning is no character, and it is replaced at once, by
one U+FFFD (`CutChar.lossyFrom_eq`). So the text before a cut is decoded to the
characters that fit, and a replacement where the cut falls into a character
(`lossyFrom_take`); it is the longest beginning of the text that fits exactly when the
cut leaves valid UTF-8 (`longestPrefix_iff`).
-/

set_option autoImplicit false

namespace Foundations

/-- **An encoding begins another** exactly when its characters begin the other ones. -/
theorem encodeChars_prefix_iff {front chars : List Char} :
    encodeChars front <+: encodeChars chars ↔ front <+: chars := by
  constructor
  · rintro ⟨rest, whole⟩
    have decoded := congrArg (lossyFrom 0) whole
    rw [lossyFrom_encodeChars_append, lossyFrom_encodeChars] at decoded
    exact ⟨_, decoded⟩
  · rintro ⟨rest, rfl⟩
    rw [encodeChars_append]
    exact List.prefix_append _ _

/-! ## Characters that are cut -/

/-- The code of a character is no surrogate. -/
theorem scalar_value (c : Char) :
    c.val.toNat < 0xD800 ∨ 0xDFFF < c.val.toNat ∧ c.val.toNat < 0x110000 := c.valid

/-- The first two bytes of a character of three. -/
theorem beginsThree_utf8EncodeChar {c : Char} {first second third : UInt8}
    (encoded : String.utf8EncodeChar c = [first, second, third]) :
    beginsThree first second = true := by
  have valid := scalar_value c
  revert encoded valid
  -- The encodings of the other cases have other lengths.
  fun_cases String.utf8EncodeChar c with
  | case1 => simp
  | case2 => simp
  | case3 v =>
      rintro ⟨⟩ valid
      change v < _ ∨ _ < v ∧ v < _ at valid
      simp only [beginsThree, isContinuation, Bool.or_eq_true, Bool.and_eq_true,
        decide_eq_true_eq, beq_iff_eq, UInt8.le_iff_toNat_le, ← UInt8.toNat_inj,
        UInt8.toNat_ofNat', UInt8.reduceToNat]
      omega
  | case4 => simp

/-- The first three bytes of a character of four. -/
theorem beginsFour_utf8EncodeChar {c : Char} {first second third fourth : UInt8}
    (encoded : String.utf8EncodeChar c = [first, second, third, fourth]) :
    beginsFour first second = true ∧ isContinuation third = true := by
  have valid := scalar_value c
  revert encoded valid
  fun_cases String.utf8EncodeChar c with
  | case1 => simp
  | case2 => simp
  | case3 => simp
  | case4 v =>
      rintro ⟨⟩ valid
      change v < _ ∨ _ < v ∧ v < _ at valid
      simp only [beginsFour, isContinuation, Bool.or_eq_true, Bool.and_eq_true,
        decide_eq_true_eq, beq_iff_eq, UInt8.le_iff_toNat_le, ← UInt8.toNat_inj,
        UInt8.toNat_ofNat', UInt8.reduceToNat]
      omega

/-- A beginning of the encoding of a character, neither empty nor whole. -/
structure CutChar (c : Char) (cut : List UInt8) : Prop where
  inside : cut <+: String.utf8EncodeChar c
  nonempty : cut ≠ []
  short : cut.length < c.utf8Size

namespace CutChar

variable {c : Char} {cut : List UInt8}

/-- What is left of a character that is cut is no character. -/
theorem undecoded (cuts : CutChar c cut) : cut.toByteArray.utf8DecodeChar? 0 = none := by
  cases decoded : cut.toByteArray.utf8DecodeChar? 0 with
  | none => rfl
  | some d =>
      obtain ⟨rest, whole⟩ := cuts.inside
      have first := ByteArray.utf8DecodeChar?_append_eq_some decoded rest.toByteArray
      rw [← List.toByteArray_append, whole] at first
      have same : some c = some d := by
        rw [← first, ← List.append_nil (String.utf8EncodeChar c), List.toByteArray_append]
        exact ByteArray.utf8DecodeChar?_utf8EncodeChar_append.symm
      cases same
      have fits := ByteArray.le_size_of_utf8DecodeChar?_eq_some decoded
      rw [List.size_toByteArray] at fits
      have short := cuts.short
      omega

/-- It is replaced at once. -/
theorem illFormedLength_eq (cuts : CutChar c cut) : illFormedLength cut = cut.length := by
  obtain ⟨rest, whole⟩ := cuts.inside
  have short := cuts.short
  have most := c.utf8Size_le_four
  have size := congrArg List.length whole
  rw [String.length_utf8EncodeChar, List.length_append] at size
  rcases cut with _ | ⟨first, _ | ⟨second, _ | ⟨third, _ | ⟨fourth, more⟩⟩⟩⟩
  · exact absurd rfl cuts.nonempty
  · rfl
  · -- Two bytes begin a character of three, or one of four.
    rcases rest with _ | ⟨third, _ | ⟨fourth, _ | ⟨fifth, more⟩⟩⟩
    · simp only [List.length_cons, List.length_nil] at short size
      omega
    · rw [illFormedLength, beginsThree_utf8EncodeChar whole.symm, Bool.or_true]
      rfl
    · rw [illFormedLength, (beginsFour_utf8EncodeChar whole.symm).1, Bool.true_or]
      rfl
    · simp only [List.length_cons] at size
      omega
  · rcases rest with _ | ⟨fourth, _ | ⟨fifth, more⟩⟩
    · simp only [List.length_cons, List.length_nil] at short size
      omega
    · obtain ⟨begins, continues⟩ := beginsFour_utf8EncodeChar whole.symm
      rw [illFormedLength, if_pos begins, if_pos continues]
      rfl
    · simp only [List.length_cons] at size
      omega
  · simp only [List.length_cons] at short
    omega

/-- **What is left of a character that is cut** is replaced by one character. -/
theorem lossyFrom_eq (cuts : CutChar c cut) : lossyFrom 0 cut = [replacement] := by
  have undecoded := cuts.undecoded
  have whole := cuts.illFormedLength_eq
  rcases cut with _ | ⟨first, rest⟩
  · exact absurd rfl cuts.nonempty
  · have used : lossyFrom rest.length rest = [] := by
      have all := lossyFrom_append rest []
      rw [List.append_nil] at all
      exact all
    rw [List.length_cons] at whole
    simp only [lossyFrom, undecoded, whole, Nat.add_sub_cancel, used]

end CutChar

/-! ## Texts that are cut -/

/-- The first characters that fit whole into some bytes. -/
def wholeChars : Nat → List Char → List Char
  | _, [] => []
  | room, c :: chars =>
      if c.utf8Size ≤ room then c :: wholeChars (room - c.utf8Size) chars else []

theorem wholeChars_inside (room : Nat) (chars : List Char) : wholeChars room chars <+: chars := by
  induction chars generalizing room with
  | nil => exact List.prefix_refl _
  | cons c chars ih =>
      rw [wholeChars]
      split
      next => exact (List.prefix_cons_inj c).mpr (ih _)
      next => exact List.nil_prefix

theorem length_encodeChars_cons (c : Char) (chars : List Char) :
    (encodeChars (c :: chars)).length = c.utf8Size + (encodeChars chars).length := by
  rw [encodeChars, List.flatMap_cons, List.length_append, String.length_utf8EncodeChar]
  rfl

theorem wholeChars_fits (room : Nat) (chars : List Char) :
    (encodeChars (wholeChars room chars)).length ≤ room := by
  induction chars generalizing room with
  | nil => exact Nat.zero_le _
  | cons c chars ih =>
      rw [wholeChars]
      split
      next fits =>
        have rest := ih (room - c.utf8Size)
        rw [length_encodeChars_cons]
        omega
      next => exact Nat.zero_le _

/-- Whatever begins a text and fits begins the characters that fit. -/
theorem prefix_wholeChars {front chars : List Char} {room : Nat} (inside : front <+: chars)
    (fits : (encodeChars front).length ≤ room) : front <+: wholeChars room chars := by
  induction front generalizing chars room with
  | nil => exact List.nil_prefix
  | cons c front ih =>
      obtain ⟨rest, rfl⟩ := inside
      rw [length_encodeChars_cons] at fits
      rw [List.cons_append, wholeChars, if_pos (by omega)]
      exact (List.prefix_cons_inj c).mpr (ih (List.prefix_append _ _) (by omega))

/-- **Where a text is cut**: after its characters that fit, and a cut character. -/
theorem take_encodeChars (room : Nat) (chars : List Char) :
    ∃ cut, (encodeChars chars).take room = encodeChars (wholeChars room chars) ++ cut ∧
      (cut = [] ∨ ∃ c, CutChar c cut) := by
  induction chars generalizing room with
  | nil => exact ⟨[], List.take_nil, .inl rfl⟩
  | cons c chars ih =>
      have size := String.length_utf8EncodeChar c
      rw [encodeChars, List.flatMap_cons, wholeChars]
      by_cases fits : c.utf8Size ≤ room
      · obtain ⟨cut, rest, cases⟩ := ih (room - c.utf8Size)
        refine ⟨cut, ?_, cases⟩
        rw [if_pos fits, List.take_append, size, List.take_of_length_le (by omega), encodeChars,
          List.flatMap_cons, List.append_assoc]
        exact congrArg (String.utf8EncodeChar c ++ ·) rest
      · refine ⟨(String.utf8EncodeChar c).take room, ?_, ?_⟩
        · rw [if_neg fits, List.take_append_of_le_length (by omega)]
          rfl
        · rcases Nat.eq_zero_or_pos room with rfl | positive
          · exact .inl List.take_zero
          · have length : ((String.utf8EncodeChar c).take room).length = room :=
              List.length_take_of_le (by omega)
            refine .inr ⟨c, List.take_prefix _ _, ?_, by omega⟩
            exact List.ne_nil_of_length_pos (by omega)

/-- Valid UTF-8 is the encoding of some characters. -/
theorem isValidUTF8_iff {bytes : List UInt8} :
    bytes.toByteArray.IsValidUTF8 ↔ ∃ chars, bytes = encodeChars chars := by
  constructor
  · rintro ⟨chars, same⟩
    exact ⟨chars, List.toByteArray_inj.mp same⟩
  · rintro ⟨chars, rfl⟩
    exact ⟨chars, rfl⟩

/-- A cut that leaves valid UTF-8 leaves the characters that fit. -/
theorem encodeChars_wholeChars {room : Nat} {chars : List Char}
    (valid : ((encodeChars chars).take room).toByteArray.IsValidUTF8) :
    encodeChars (wholeChars room chars) = (encodeChars chars).take room := by
  obtain ⟨front, same⟩ := isValidUTF8_iff.mp valid
  have cut := List.take_prefix room (encodeChars chars)
  have fits := List.length_take_le room (encodeChars chars)
  rw [same] at cut fits ⊢
  have inside : front <+: chars := encodeChars_prefix_iff.mp cut
  have whole : wholeChars room chars <+: front := by
    refine encodeChars_prefix_iff.mp ?_
    rw [← same, List.prefix_take_iff]
    exact ⟨encodeChars_prefix_iff.mpr (wholeChars_inside room chars), wholeChars_fits room chars⟩
  exact congrArg encodeChars
    (whole.eq_of_length_le (prefix_wholeChars inside fits).length_le)

/-- **What is read of a text that is cut**: its characters that fit, and one replacement
if the cut falls into a character. -/
theorem lossyFrom_take (room : Nat) (chars : List Char) :
    lossyFrom 0 ((encodeChars chars).take room) = wholeChars room chars ++
      if ((encodeChars chars).take room).toByteArray.IsValidUTF8 then [] else [replacement] := by
  split
  next valid =>
    rw [← encodeChars_wholeChars valid, lossyFrom_encodeChars, List.append_nil]
  next broken =>
    obtain ⟨cut, same, rfl | ⟨c, cuts⟩⟩ := take_encodeChars room chars
    · rw [List.append_nil] at same
      exact absurd (isValidUTF8_iff.mpr ⟨_, same⟩) broken
    · rw [same, lossyFrom_encodeChars_append, cuts.lossyFrom_eq]

/-- A beginning of a text that fits into some bytes, and the longest of them. -/
structure LongestPrefix (room : Nat) (text part : String) : Prop where
  inside : part.toList <+: text.toList
  fits : (utf8Bytes part).length ≤ room
  longest : ∀ other : String, other.toList <+: text.toList → (utf8Bytes other).length ≤ room →
    other.toList <+: part.toList

/-- **When nothing is invented.** What is read of a text that is cut is the longest
beginning of it that fits exactly if the cut leaves valid UTF-8. -/
theorem longestPrefix_iff {room : Nat} {text : String} :
    LongestPrefix room text (fromUtf8Lossy ((utf8Bytes text).take room)) ↔
      ((utf8Bytes text).take room).toByteArray.IsValidUTF8 := by
  have read := lossyFrom_take room text.toList
  rw [← utf8Bytes_eq] at read
  constructor
  · intro longest
    by_contra broken
    have inside := longest.inside
    have fits := longest.fits
    rw [if_neg broken] at read
    rw [fromUtf8Lossy, read, String.toList_ofList] at inside
    rw [fromUtf8Lossy, read, utf8Bytes, String.toList_ofList] at fits
    have shorter := (prefix_wholeChars inside fits).length_le
    rw [List.length_append, List.length_singleton] at shorter
    omega
  · intro valid
    rw [if_pos valid, List.append_nil] at read
    rw [fromUtf8Lossy, read]
    refine ⟨?_, ?_, ?_⟩
    · rw [String.toList_ofList]
      exact wholeChars_inside room text.toList
    · rw [utf8Bytes, String.toList_ofList]
      exact wholeChars_fits room text.toList
    · intro other inside fits
      rw [String.toList_ofList]
      exact prefix_wholeChars inside fits

/-- A cut leaves valid UTF-8 when it takes nothing away, or falls between characters. -/
theorem isValidUTF8_take_iff {room : Nat} {text : String} :
    ((utf8Bytes text).take room).toByteArray.IsValidUTF8 ↔
      (utf8Bytes text).length ≤ room ∨ (⟨room⟩ : String.Pos.Raw).IsValid text := by
  have bytes : text.toByteArray = (utf8Bytes text).toByteArray := String.utf8Encode_toList.symm
  have size : text.utf8ByteSize = (utf8Bytes text).length := by
    rw [← String.size_toByteArray, bytes, List.size_toByteArray]
  by_cases whole : (utf8Bytes text).length ≤ room
  · rw [List.take_of_length_le whole]
    exact iff_of_true (isValidUTF8_iff.mpr ⟨_, rfl⟩) (.inl whole)
  · have front : text.toByteArray.extract 0 room = ((utf8Bytes text).take room).toByteArray := by
      have split := congrArg List.toByteArray (List.take_append_drop room (utf8Bytes text)).symm
      have length : ((utf8Bytes text).take room).toByteArray.size = room := by
        rw [List.size_toByteArray]
        exact List.length_take_of_le (by omega)
      rw [bytes, split, List.toByteArray_append]
      exact ByteArray.extract_append_eq_left length.symm
    have within : (⟨room⟩ : String.Pos.Raw) ≤ text.rawEndPos := by
      rw [String.Pos.Raw.le_iff]
      show room ≤ text.utf8ByteSize
      omega
    rw [String.Pos.Raw.isValid_iff_isValidUTF8_extract_zero, or_iff_right whole,
      and_iff_right within, front]

end Foundations
