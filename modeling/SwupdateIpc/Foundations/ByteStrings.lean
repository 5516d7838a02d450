import Mathlib.Data.List.Basic
import Mathlib.Tactic.Ring

/-!
# Byte strings

A region of a byte string is given by an offset and a width. `slice` reads it
and `splice` overwrites it. What one entry of an overwritten string is
(`getElem?_splice`) decides every later question: the region just written reads
back what was written (`slice_splice_same`), and a region apart from it reads
what it read before (`slice_splice_apart`).

A stream of messages of one size is cut into `frames`; what is left when fewer
bytes than a frame remain is part of none (`frames_of_short`, `frames_of_le`).

A record laid out in memory stores its integers in the byte order of the
machine. `ByteOrder.encode` gives a natural number in a fixed number of bytes,
and `ByteOrder.decode` reads any byte string as a number.
-/

set_option autoImplicit false

namespace Foundations

/-! ## Regions -/

section Regions

variable {α : Type*}

/-- The region of `width` entries from `offset` on. -/
def slice (offset width : Nat) (xs : List α) : List α := (xs.drop offset).take width

/-- Overwrite the entries from `offset` on by those of `ys`. -/
def splice (offset : Nat) (ys xs : List α) : List α :=
  xs.take offset ++ ys ++ xs.drop (offset + ys.length)

theorem length_slice {offset width : Nat} {xs : List α} (inside : offset + width ≤ xs.length) :
    (slice offset width xs).length = width := by
  simp only [slice, List.length_take, List.length_drop]
  omega

theorem length_splice {offset : Nat} {ys xs : List α} (inside : offset + ys.length ≤ xs.length) :
    (splice offset ys xs).length = xs.length := by
  simp only [splice, List.length_append, List.length_take, List.length_drop]
  omega

theorem getElem?_slice (offset width : Nat) (xs : List α) (i : Nat) :
    (slice offset width xs)[i]? = if i < width then xs[offset + i]? else none := by
  simp only [slice, List.getElem?_take, List.getElem?_drop]

/-- An entry of an overwritten string comes from the region written, or it is
the entry that was there. -/
theorem getElem?_splice {offset : Nat} {ys xs : List α} (inside : offset + ys.length ≤ xs.length)
    (i : Nat) :
    (splice offset ys xs)[i]? =
      if offset ≤ i ∧ i < offset + ys.length then ys[i - offset]? else xs[i]? := by
  have front : (xs.take offset).length = offset := by
    simp only [List.length_take]
    omega
  simp only [splice, List.append_assoc]
  by_cases early : i < offset
  · rw [List.getElem?_append_left (by omega), List.getElem?_take_of_lt early, if_neg (by omega)]
  · rw [List.getElem?_append_right (by omega), front]
    by_cases written : i < offset + ys.length
    · rw [List.getElem?_append_left (by omega), if_pos (by omega)]
    · rw [List.getElem?_append_right (by omega), List.getElem?_drop, if_neg (by omega)]
      congr 1
      omega

/-- A region inside the part just written is that part of what was written. -/
theorem slice_splice_within {offset : Nat} {ys xs : List α}
    (inside : offset + ys.length ≤ xs.length) {start width : Nat}
    (within : start + width ≤ ys.length) :
    slice (offset + start) width (splice offset ys xs) = slice start width ys := by
  apply List.ext_getElem?
  intro i
  rw [getElem?_slice, getElem?_slice, getElem?_splice inside]
  split
  · rw [if_pos (by omega)]
    congr 1
    omega
  · rfl

theorem slice_zero_length (xs : List α) : slice 0 xs.length xs = xs := by
  simp only [slice, List.drop_zero, List.take_length]

/-- The region just written reads back what was written. -/
theorem slice_splice_same {offset width : Nat} {ys xs : List α} (full : ys.length = width)
    (inside : offset + width ≤ xs.length) : slice offset width (splice offset ys xs) = ys := by
  subst full
  have whole : 0 + ys.length ≤ ys.length := by omega
  have := slice_splice_within inside whole
  rwa [Nat.add_zero, slice_zero_length] at this

/-- A region apart from the one written reads what it read before. -/
theorem slice_splice_apart {offset : Nat} {ys xs : List α}
    (inside : offset + ys.length ≤ xs.length) {start width : Nat}
    (apart : start + width ≤ offset ∨ offset + ys.length ≤ start) :
    slice start width (splice offset ys xs) = slice start width xs := by
  apply List.ext_getElem?
  intro i
  rw [getElem?_slice, getElem?_slice, getElem?_splice inside]
  split
  · rw [if_neg (by omega)]
  · rfl

theorem slice_append_left {offset width : Nat} {xs : List α} (ys : List α)
    (inside : offset + width ≤ xs.length) :
    slice offset width (xs ++ ys) = slice offset width xs := by
  apply List.ext_getElem?
  intro i
  rw [getElem?_slice, getElem?_slice]
  split
  · rw [List.getElem?_append_left (by omega)]
  · rfl

theorem slice_append_right (xs : List α) (offset width : Nat) (ys : List α) :
    slice (xs.length + offset) width (xs ++ ys) = slice offset width ys := by
  simp only [slice, ← List.drop_drop, List.drop_left]

theorem slice_replicate {offset width count : Nat} (a : α) (inside : offset + width ≤ count) :
    slice offset width (List.replicate count a) = List.replicate width a := by
  simp only [slice, List.drop_replicate, List.take_replicate]
  congr 1
  omega

end Regions

/-! ## Frames -/

section Frames

variable {α : Type*}

/-- The whole frames of a size that a string begins with, one after the other. -/
def frames (size : Nat) (xs : List α) : List (List α) :=
  (List.range (xs.length / size)).map fun k => slice (k * size) size xs

/-- A string shorter than a frame has none. -/
theorem frames_of_short {size : Nat} {xs : List α} (short : xs.length < size) :
    frames size xs = [] := by
  rw [frames, Nat.div_eq_of_lt short]
  rfl

/-- The first frame of a string, and those of the rest. -/
theorem frames_of_le {size : Nat} {xs : List α} (positive : 0 < size) (enough : size ≤ xs.length) :
    frames size xs = xs.take size :: frames size (xs.drop size) := by
  have count : xs.length / size = (xs.drop size).length / size + 1 := by
    rw [List.length_drop, ← Nat.sub_add_cancel enough, Nat.add_div_right _ positive,
      Nat.add_sub_cancel]
  rw [frames, frames, count, List.range_succ_eq_map, List.map_cons, List.map_map]
  refine congrArg₂ List.cons ?_ (List.map_congr_left fun k _ => ?_)
  · rw [Nat.zero_mul, slice, List.drop_zero]
  · rw [Function.comp_apply, slice, slice, List.drop_drop, Nat.succ_mul, Nat.add_comm]

/-- Frames that are strung together are those of the string, whatever stands after them
that is shorter than a frame. -/
theorem frames_flatten {size : Nat} {fs : List (List α)} {rest : List α}
    (full : ∀ f ∈ fs, f.length = size) (short : rest.length < size) :
    frames size (fs.flatten ++ rest) = fs := by
  have positive : 0 < size := Nat.zero_lt_of_lt short
  induction fs with
  | nil => exact frames_of_short short
  | cons f fs ih =>
      have first : f.length = size := full f List.mem_cons_self
      rw [List.flatten_cons, List.append_assoc, frames_of_le positive, ← first, List.take_left,
        List.drop_left, first, ih fun g member => full g (List.mem_cons_of_mem _ member)]
      rw [List.length_append, first]
      exact Nat.le_add_right _ _

end Frames

/-! ## Integers in the byte order of the machine -/

/-- The byte order of a machine. -/
inductive ByteOrder where
  | little
  | big
  deriving DecidableEq, Repr

/-- The lowest `width` bytes of a number, the lowest first. -/
def littleBytes : Nat → Nat → List UInt8
  | 0, _ => []
  | width + 1, n => UInt8.ofNat n :: littleBytes width (n / 256)

/-- The number whose bytes are given, the lowest first. -/
def littleValue : List UInt8 → Nat
  | [] => 0
  | b :: bs => b.toNat + 256 * littleValue bs

@[simp] theorem length_littleBytes (width n : Nat) : (littleBytes width n).length = width := by
  induction width generalizing n with
  | zero => rfl
  | succ width ih => simp only [littleBytes, List.length_cons, ih]

theorem littleValue_littleBytes (width n : Nat) :
    littleValue (littleBytes width n) = n % 256 ^ width := by
  induction width generalizing n with
  | zero => simp only [littleBytes, littleValue, pow_zero, Nat.mod_one]
  | succ width ih =>
      have low : (UInt8.ofNat n).toNat = n % 256 := UInt8.toNat_ofNat'
      rw [littleBytes, littleValue, ih, low, pow_succ', Nat.mod_mul]

theorem littleBytes_littleValue (bs : List UInt8) :
    littleBytes bs.length (littleValue bs) = bs := by
  induction bs with
  | nil => rfl
  | cons b bs ih =>
      have small : b.toNat < 256 := b.toNat_lt
      have low : UInt8.ofNat (b.toNat + 256 * littleValue bs) = b := by
        apply UInt8.toNat_inj.mp
        rw [UInt8.toNat_ofNat']
        omega
      have high : (b.toNat + 256 * littleValue bs) / 256 = littleValue bs := by omega
      rw [List.length_cons, littleValue, littleBytes, low, high, ih]

theorem littleValue_lt (bs : List UInt8) : littleValue bs < 256 ^ bs.length := by
  induction bs with
  | nil => simp only [littleValue, List.length_nil, pow_zero, Nat.lt_one_iff]
  | cons b bs ih =>
      have small : b.toNat < 256 := b.toNat_lt
      rw [littleValue, List.length_cons, pow_succ']
      omega

namespace ByteOrder

/-- A number in `width` bytes. -/
def encode : ByteOrder → Nat → Nat → List UInt8
  | .little, width, n => littleBytes width n
  | .big, width, n => (littleBytes width n).reverse

/-- The number a byte string stands for. -/
def decode : ByteOrder → List UInt8 → Nat
  | .little, bs => littleValue bs
  | .big, bs => littleValue bs.reverse

variable (order : ByteOrder)

@[simp] theorem length_encode (width n : Nat) : (order.encode width n).length = width := by
  cases order with
  | little => exact length_littleBytes width n
  | big => simp only [encode, List.length_reverse, length_littleBytes]

/-- Reading an encoded number gives it modulo the range of the width. -/
theorem decode_encode (width n : Nat) : order.decode (order.encode width n) = n % 256 ^ width := by
  cases order with
  | little => exact littleValue_littleBytes width n
  | big => simp only [encode, decode, List.reverse_reverse, littleValue_littleBytes]

/-- Encoding the number a byte string stands for gives the byte string. -/
theorem encode_decode (bs : List UInt8) : order.encode bs.length (order.decode bs) = bs := by
  cases order with
  | little => exact littleBytes_littleValue bs
  | big =>
      have := littleBytes_littleValue bs.reverse
      rw [List.length_reverse] at this
      simp only [encode, decode, this, List.reverse_reverse]

theorem encode_mod (width n : Nat) :
    order.encode width (n % 256 ^ width) = order.encode width n := by
  have := order.encode_decode (order.encode width n)
  rwa [length_encode, decode_encode] at this

theorem decode_lt (bs : List UInt8) : order.decode bs < 256 ^ bs.length := by
  cases order with
  | little => exact littleValue_lt bs
  | big => simpa only [decode, List.length_reverse] using littleValue_lt bs.reverse

theorem encode_zero (width : Nat) : order.encode width 0 = List.replicate width 0 := by
  have little : ∀ width, littleBytes width 0 = List.replicate width 0 := by
    intro width
    induction width with
    | zero => rfl
    | succ width ih =>
        rw [littleBytes, Nat.zero_div, ih, List.replicate_succ]
        rfl
  cases order with
  | little => exact little width
  | big => simp only [encode, little, List.reverse_replicate]

end ByteOrder

end Foundations
