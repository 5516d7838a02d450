import SwupdateIpc.Foundations.ByteStrings

/-!
# Lossy decoding of UTF-8

A byte string is decoded character by character. Where no character is encoded,
the longest beginning of one that stands there is replaced by U+FFFD, and at
least one byte is; decoding goes on after it. `illFormedLength` is the number
of bytes replaced at once. A text that is encoded decodes to itself
(`fromUtf8Lossy_utf8Bytes`).
-/

set_option autoImplicit false

namespace Foundations

/-- The UTF-8 encoding of a text. -/
def utf8Bytes (text : String) : List UInt8 := text.toList.flatMap String.utf8EncodeChar

/-- The UTF-8 encoding of some characters. -/
def encodeChars (chars : List Char) : List UInt8 := chars.flatMap String.utf8EncodeChar

theorem encodeChars_append (front back : List Char) :
    encodeChars (front ++ back) = encodeChars front ++ encodeChars back :=
  List.flatMap_append

theorem utf8Bytes_eq (text : String) : utf8Bytes text = encodeChars text.toList := rfl

/-- A byte that can only continue a character. -/
def isContinuation (b : UInt8) : Bool := 0x80 ≤ b && b ≤ 0xBF

/-- A first byte and a second byte that begin a character of three bytes. -/
def beginsThree (first second : UInt8) : Bool :=
  (first == 0xE0 && 0xA0 ≤ second && second ≤ 0xBF) ||
  (0xE1 ≤ first && first ≤ 0xEC && isContinuation second) ||
  (first == 0xED && 0x80 ≤ second && second ≤ 0x9F) ||
  (0xEE ≤ first && first ≤ 0xEF && isContinuation second)

/-- A first byte and a second byte that begin a character of four bytes. -/
def beginsFour (first second : UInt8) : Bool :=
  (first == 0xF0 && 0x90 ≤ second && second ≤ 0xBF) ||
  (0xF1 ≤ first && first ≤ 0xF3 && isContinuation second) ||
  (first == 0xF4 && 0x80 ≤ second && second ≤ 0x8F)

/-- How many bytes are replaced at once where no character is encoded. -/
def illFormedLength : List UInt8 → Nat
  | first :: second :: third :: _ =>
      if beginsFour first second then if isContinuation third then 3 else 2
      else if beginsThree first second then 2 else 1
  | [first, second] => if beginsFour first second || beginsThree first second then 2 else 1
  | _ => 1

/-- The character that replaces ill-formed bytes. -/
def replacement : Char := '\uFFFD'

/-- Decode a byte string of which the first `skip` bytes are already used. -/
def lossyFrom : Nat → List UInt8 → List Char
  | _, [] => []
  | skip + 1, _ :: bs => lossyFrom skip bs
  | 0, b :: bs =>
      match (b :: bs).toByteArray.utf8DecodeChar? 0 with
      | some c => c :: lossyFrom (c.utf8Size - 1) bs
      | none => replacement :: lossyFrom (illFormedLength (b :: bs) - 1) bs

/-- The text of a byte string, with U+FFFD in place of ill-formed bytes. -/
def fromUtf8Lossy (bs : List UInt8) : String := String.ofList (lossyFrom 0 bs)

example : fromUtf8Lossy [0x68, 0xC3, 0xA9, 0xF0, 0x9F, 0x98, 0x21] = "hé\uFFFD!" := by decide

/-- Bytes that are already used are passed over. -/
theorem lossyFrom_append (used rest : List UInt8) :
    lossyFrom used.length (used ++ rest) = lossyFrom 0 rest := by
  induction used with
  | nil => rfl
  | cons b used ih =>
      rw [List.length_cons, List.cons_append, lossyFrom]
      exact ih

/-- A character that is encoded is decoded. -/
theorem lossyFrom_utf8EncodeChar (c : Char) (rest : List UInt8) :
    lossyFrom 0 (String.utf8EncodeChar c ++ rest) = c :: lossyFrom 0 rest := by
  have decoded : (String.utf8EncodeChar c ++ rest).toByteArray.utf8DecodeChar? 0 = some c := by
    rw [List.toByteArray_append]
    exact ByteArray.utf8DecodeChar?_utf8EncodeChar_append
  have length := String.length_utf8EncodeChar c
  obtain ⟨b, bs, encoded⟩ := List.exists_cons_of_ne_nil (String.utf8EncodeChar_ne_nil (c := c))
  rw [encoded] at decoded length ⊢
  rw [List.length_cons] at length
  rw [List.cons_append] at decoded ⊢
  have used : c.utf8Size - 1 = bs.length := by omega
  simp only [lossyFrom, decoded, used, lossyFrom_append]

/-- What follows some characters is decoded on its own. -/
theorem lossyFrom_encodeChars_append (chars : List Char) (rest : List UInt8) :
    lossyFrom 0 (encodeChars chars ++ rest) = chars ++ lossyFrom 0 rest := by
  induction chars with
  | nil => rfl
  | cons c chars ih =>
      rw [encodeChars, List.flatMap_cons, List.append_assoc, lossyFrom_utf8EncodeChar,
        List.cons_append]
      exact congrArg (List.cons c) ih

theorem lossyFrom_encodeChars (chars : List Char) : lossyFrom 0 (encodeChars chars) = chars := by
  have decoded := lossyFrom_encodeChars_append chars []
  rw [List.append_nil] at decoded
  exact decoded.trans (List.append_nil chars)

/-- **A text is its own lossy decoding.** -/
theorem fromUtf8Lossy_utf8Bytes (text : String) : fromUtf8Lossy (utf8Bytes text) = text := by
  rw [fromUtf8Lossy, utf8Bytes_eq, lossyFrom_encodeChars, String.ofList_toList]

theorem utf8Bytes_injective : Function.Injective utf8Bytes :=
  Function.LeftInverse.injective fromUtf8Lossy_utf8Bytes

/-- Only NUL is encoded with a byte that is zero. -/
theorem zero_mem_utf8EncodeChar {c : Char} : 0 ∈ String.utf8EncodeChar c ↔ c = '\x00' := by
  have null : c = '\x00' ↔ c.val.toNat = 0 := by
    rw [← Char.val_inj, ← UInt32.toNat_inj]
    rfl
  rw [null]
  fun_cases String.utf8EncodeChar c <;>
    simp only [List.mem_cons, List.not_mem_nil, or_false, ← UInt8.toNat_inj, UInt8.toNat_ofNat',
      UInt8.reduceToNat] <;> omega

theorem zero_mem_utf8Bytes {text : String} : 0 ∈ utf8Bytes text ↔ '\x00' ∈ text.toList := by
  rw [utf8Bytes, List.mem_flatMap]
  constructor
  · rintro ⟨c, member, zero⟩
    rw [zero_mem_utf8EncodeChar] at zero
    rw [← zero]
    exact member
  · intro member
    exact ⟨_, member, zero_mem_utf8EncodeChar.mpr rfl⟩

end Foundations
