import SwupdateIpc.Foundations.CutUtf8
import SwupdateIpc.Wire.Messages
import Mathlib.Data.List.TakeWhile

/-!
# Texts in fields

A text is written into a field of zeros, cut to leave a byte (`textField`), and it is
read up to its first NUL (`cString`). A text without a NUL that is shorter than its
field is read back, and a field that holds such a text is written again as it was
(`texts_round_trip`).

The cut is made at a byte, wherever the characters end. What is read back of a text that
is cut is the longest beginning that fits exactly if the cut falls between two
characters (`longest_prefix_read_iff`).
-/

set_option autoImplicit false

namespace SwupdateIpc

open Foundations Wire

/-! ## Writing a text -/

/-- A text in a member of the given size: its first bytes, and zeros. -/
def textField (size : Nat) (text : String) : List UInt8 :=
  let length := min (utf8Bytes text).length (size - 1)
  (utf8Bytes text).take length ++ List.replicate (size - length) 0

theorem length_textField (size : Nat) (text : String) : (textField size text).length = size := by
  simp only [textField, List.length_append, List.length_take, List.length_replicate]
  omega

/-- The last byte of a text in a member is a NUL. -/
theorem getLast?_textField {size : Nat} (positive : 0 < size) (text : String) :
    (textField size text).getLast? = some 0 := by
  have room : size - min (utf8Bytes text).length (size - 1) ≠ 0 := by omega
  simp only [textField]
  rw [List.getLast?_append, List.getLast?_replicate, if_neg room]
  rfl

theorem textField_empty (size : Nat) : textField size "" = List.replicate size 0 := by
  have empty : utf8Bytes "" = [] := rfl
  simp only [textField, empty, List.length_nil, Nat.zero_min, List.take_nil, List.nil_append,
    Nat.sub_zero]

/-- A text written over zeros. -/
theorem writeCstr_zeros (size : Nat) (text : String) :
    writeCstr (List.replicate size 0) text = textField size text := by
  simp only [writeCstr, textField, List.length_replicate, List.drop_replicate]

/-! ## Reading a text -/

/-- The bytes of a text of C: those before the first NUL. -/
def cString (bytes : List UInt8) : List UInt8 := bytes.takeWhile (· != 0)

/-- A field is read up to its first NUL. -/
theorem cstrFromBytes_eq_cString (field : List UInt8) :
    cstrFromBytes field = fromUtf8Lossy (cString field) :=
  cstrFromBytes_eq field

theorem cString_append_zeros (bytes : List UInt8) (count : Nat) :
    cString (bytes ++ List.replicate count 0) = cString bytes := by
  rw [cString, List.takeWhile_append]
  split
  next whole =>
    have none : (List.replicate count (0 : UInt8)).takeWhile (· != 0) = [] := by
      cases count <;> rfl
    rw [none, List.append_nil, cString]
    exact ((List.takeWhile_prefix _).eq_of_length whole).symm
  next => rfl

/-- The daemon reads the beginning of a text. -/
theorem cString_textField (size : Nat) (text : String) :
    cString (textField size text) = cString ((utf8Bytes text).take (size - 1)) := by
  simp only [textField]
  rw [cString_append_zeros, Nat.min_comm, ← List.take_eq_take_min]

theorem cString_eq_self_iff {bytes : List UInt8} : cString bytes = bytes ↔ 0 ∉ bytes := by
  rw [cString, List.takeWhile_eq_self_iff]
  constructor
  · intro nonzero member
    exact absurd (nonzero 0 member) (by decide)
  · intro absent b member
    rw [bne_iff_ne]
    rintro rfl
    exact absent member

/-! ## Reading a text that was written -/

/-- What is read of a text without a NUL: its first bytes, decoded. -/
theorem cstrFromBytes_writeCstr {size : Nat} {text : String} (nulFree : '\x00' ∉ text.toList) :
    cstrFromBytes (writeCstr (List.replicate size 0) text) =
      fromUtf8Lossy ((utf8Bytes text).take (size - 1)) := by
  have absent : 0 ∉ (utf8Bytes text).take (size - 1) := by
    intro member
    exact nulFree (zero_mem_utf8Bytes.mp (List.mem_of_mem_take member))
  rw [writeCstr_zeros, cstrFromBytes_eq_cString, cString_textField,
    cString_eq_self_iff.mpr absent]

/-- A field with a text: valid UTF-8 up to the first NUL, and zeros from there on. -/
structure PaddedText (field : List UInt8) : Prop where
  valid : (cString field).toByteArray.IsValidUTF8
  ends : 0 ∈ field
  padded : ∀ b ∈ field.drop (cString field).length, b = 0

/-- The bytes of a padded text are those of the text, with room for a NUL, and zeros. -/
theorem PaddedText.split {field : List UInt8} (padded : PaddedText field) :
    ∃ text, cString field = utf8Bytes text ∧ (utf8Bytes text).length < field.length ∧
      field = utf8Bytes text ++ List.replicate (field.length - (utf8Bytes text).length) 0 := by
  obtain ⟨chars, same⟩ := isValidUTF8_iff.mp padded.valid
  have encoded : cString field = utf8Bytes (String.ofList chars) := by
    rw [utf8Bytes_eq, String.toList_ofList, same]
  have before : cString field <+: field := List.takeWhile_prefix _
  have shorter : (cString field).length < field.length := by
    apply lt_of_le_of_ne before.length_le
    intro whole
    exact cString_eq_self_iff.mp (before.eq_of_length whole) padded.ends
  have rest : field.drop (cString field).length =
      List.replicate (field.length - (cString field).length) 0 :=
    List.eq_replicate_iff.mpr ⟨List.length_drop, padded.padded⟩
  refine ⟨_, encoded, ?_, ?_⟩
  · rw [← encoded]
    exact shorter
  · rw [← encoded, ← rest]
    exact (List.prefix_iff_eq_append.mp before).symm

/-- **Texts are read back, and padded texts are written again.** -/
theorem texts_round_trip (size : Nat) :
    (∀ text : String, '\x00' ∉ text.toList → (utf8Bytes text).length < size →
      cstrFromBytes (writeCstr (List.replicate size 0) text) = text) ∧
    ∀ field : List UInt8, field.length = size → PaddedText field →
      writeCstr (List.replicate size 0) (cstrFromBytes field) = field := by
  constructor
  · intro text nulFree short
    rw [cstrFromBytes_writeCstr nulFree, List.take_of_length_le (by omega),
      fromUtf8Lossy_utf8Bytes]
  · rintro field rfl padded
    obtain ⟨text, before, short, whole⟩ := padded.split
    have read : cstrFromBytes field = text := by
      rw [cstrFromBytes_eq_cString, before, fromUtf8Lossy_utf8Bytes]
    have fits : min (utf8Bytes text).length (field.length - 1) = (utf8Bytes text).length := by
      omega
    rw [read, writeCstr_zeros, textField, fits, List.take_length]
    exact whole.symm

/-- The cut of a field leaves valid UTF-8 if the text is shorter than the field, or if the
last byte of the field stands between two characters. -/
theorem isValidUTF8_cut_iff {size : Nat} {text : String} :
    ((utf8Bytes text).take (size - 1)).toByteArray.IsValidUTF8 ↔
      (utf8Bytes text).length < size ∨ (⟨size - 1⟩ : String.Pos.Raw).IsValid text := by
  rw [isValidUTF8_take_iff]
  cases size with
  | zero => exact iff_of_true (.inr String.Pos.Raw.isValid_zero) (.inr String.Pos.Raw.isValid_zero)
  | succ room => rw [Nat.add_sub_cancel, Nat.lt_succ_iff]

/-- **When a text that is cut is read as a beginning of it.** What is read of a text
without a NUL is its longest beginning that fits exactly if the text is shorter than its
field or the last byte of the field stands between two of its characters. -/
theorem longest_prefix_read_iff (size : Nat) (text : String) (nulFree : '\x00' ∉ text.toList) :
    LongestPrefix (size - 1) text (cstrFromBytes (writeCstr (List.replicate size 0) text)) ↔
      (utf8Bytes text).length < size ∨ (⟨size - 1⟩ : String.Pos.Raw).IsValid text := by
  rw [cstrFromBytes_writeCstr nulFree, longestPrefix_iff, isValidUTF8_cut_iff]

/-- A text of characters of one byte each, cut. -/
theorem longest_prefix_read_ascii :
    LongestPrefix 4 "hello world"
      (cstrFromBytes (writeCstr (List.replicate 5 0) "hello world")) :=
  (longest_prefix_read_iff 5 "hello world" (by decide)).mpr (.inr (by decide))

/-- A text that is cut within its last character. -/
theorem cut_text_is_altered :
    ¬ ∀ (size : Nat) (text : String), 1 ≤ size → '\x00' ∉ text.toList →
      LongestPrefix (size - 1) text
        (cstrFromBytes (writeCstr (List.replicate size 0) text)) := by
  intro claim
  have inside := (claim 5 "café" (by decide) (by decide)).inside
  have read : cstrFromBytes (writeCstr (List.replicate 5 0) "café") = "caf\uFFFD" := by decide
  rw [read] at inside
  revert inside
  decide

end SwupdateIpc
