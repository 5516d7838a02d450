import SwupdateIpc.Foundations.ByteStrings

/-!
# Records in memory

A layout is a scalar, an array, or a record with named members. The members of
a record are placed one after the other, each at the next multiple of its own
alignment (`aligned`), or one after the other without gaps (`packed`), or all at
the start (`overlaid`, the union of C). The size of a record is rounded up to
its alignment.

`place?` follows a path of member names and finds the offset and the layout of
the member it leads to. The member lies inside the record
(`place?_inside`), so a value of a layout, a byte string of its size, can be
read and written at every path, and writing keeps the size. Writing one member
leaves every member apart from it as it was (`Record.read_write_apart`).

The bytes of a record that belong to no scalar are padding. A copy of a record
carries its scalars; what it leaves in the padding is not determined
(`Record.copied`).
-/

set_option autoImplicit false

namespace Foundations

/-- The least multiple of `align` that is at least `n`. -/
def roundUp (n align : Nat) : Nat := (n + align - 1) / align * align

theorem le_roundUp {n align : Nat} (positive : 0 < align) : n ≤ roundUp n align := by
  have split := Nat.div_add_mod (n + align - 1) align
  have small := Nat.mod_lt (n + align - 1) positive
  rw [Nat.mul_comm] at split
  simp only [roundUp]
  omega

/-- How the members of a record are placed. -/
inductive Placement where
  | aligned
  | packed
  | overlaid
  deriving DecidableEq, Repr

/-- Whether an integer can be below zero. -/
inductive Sign where
  | signed
  | unsigned
  deriving DecidableEq, Repr

mutual
/-- A layout, with members named in `ν`. A declaration may leave it to the
implementation whether a scalar has a sign. -/
inductive Layout (ν : Type) where
  | scalar (size align : Nat) (sign : Option Sign)
  | array (element : Layout ν) (count : Nat)
  | record (placement : Placement) (members : Members ν)

/-- The members of a record in the order of their declaration. -/
inductive Members (ν : Type) where
  | nil
  | cons (name : ν) (layout : Layout ν) (rest : Members ν)
end

variable {ν : Type}

/-- Induction along the members of a record. -/
theorem Members.induct {motive : Members ν → Prop} (nil : motive .nil)
    (cons : ∀ name layout rest, motive rest → motive (.cons name layout rest)) :
    ∀ members, motive members
  | .nil => nil
  | .cons name layout rest => cons name layout rest (Members.induct nil cons rest)

/-! ## Size and alignment -/

mutual
/-- The alignment of a layout. -/
def Layout.align : Layout ν → Nat
  | .scalar _ align _ => align
  | .array element _ => element.align
  | .record .packed _ => 1
  | .record _ members => members.align

def Members.align : Members ν → Nat
  | .nil => 1
  | .cons _ layout rest => max layout.align rest.align
end

/-- Where a member is placed when the members before it end at `reached`. -/
def Placement.start : Placement → Nat → Nat → Nat
  | .aligned, reached, align => roundUp reached align
  | .packed, reached, _ => reached
  | .overlaid, _, _ => 0

/-- How far the members reach once a member of the given size is added. -/
def Placement.reach : Placement → Nat → Nat → Nat → Nat
  | .overlaid, reached, _, size => max reached size
  | placement, reached, align, size => placement.start reached align + size

mutual
/-- The size of a layout, which array elements of this layout are apart. -/
def Layout.size : Layout ν → Nat
  | .scalar size _ _ => size
  | .array element count => count * element.size
  | .record placement members =>
      roundUp (members.reach placement 0) (Layout.record placement members).align

/-- How far the members reach when the members before them end at `reached`. -/
def Members.reach (placement : Placement) : Nat → Members ν → Nat
  | reached, .nil => reached
  | reached, .cons _ layout rest =>
      rest.reach placement (placement.reach reached layout.align layout.size)
end

mutual
/-- Whether the byte at a position belongs to a scalar. -/
def Layout.occupied : Layout ν → Nat → Bool
  | .scalar size _ _, i => i < size
  | .array element count, i => i < count * element.size && element.occupied (i % element.size)
  | .record placement members, i => members.occupied placement 0 i

def Members.occupied (placement : Placement) : Nat → Members ν → Nat → Bool
  | _, .nil, _ => false
  | reached, .cons _ layout rest, i =>
      let start := placement.start reached layout.align
      (start ≤ i && i < start + layout.size && layout.occupied (i - start)) ||
        rest.occupied placement (placement.reach reached layout.align layout.size) i
end

/-- A byte of a layout that belongs to no scalar. -/
def Layout.padding (layout : Layout ν) (i : Nat) : Bool := i < layout.size && !layout.occupied i

mutual
/-- Whether every alignment in the layout is positive. -/
def Layout.wellAligned : Layout ν → Bool
  | .scalar _ align _ => 0 < align
  | .array element _ => element.wellAligned
  | .record _ members => members.wellAligned

def Members.wellAligned : Members ν → Bool
  | .nil => true
  | .cons _ layout rest => layout.wellAligned && rest.wellAligned
end

theorem Members.wellAligned_cons {name : ν} {layout : Layout ν} {rest : Members ν} :
    (Members.cons name layout rest).wellAligned = true ↔
      layout.wellAligned = true ∧ rest.wellAligned = true := by
  simp only [Members.wellAligned, Bool.and_eq_true]

mutual
theorem Layout.align_pos : ∀ {layout : Layout ν}, layout.wellAligned = true → 0 < layout.align
  | .scalar _ _ _, positive => by
      simpa only [Layout.align, Layout.wellAligned, decide_eq_true_eq] using positive
  | .array element _, positive => by
      simp only [Layout.wellAligned] at positive
      simpa only [Layout.align] using Layout.align_pos positive
  | .record .packed _, _ => by simp only [Layout.align, Nat.zero_lt_one]
  | .record .aligned members, positive => by
      simp only [Layout.wellAligned] at positive
      simpa only [Layout.align] using Members.align_pos positive
  | .record .overlaid members, positive => by
      simp only [Layout.wellAligned] at positive
      simpa only [Layout.align] using Members.align_pos positive

theorem Members.align_pos : ∀ {members : Members ν}, members.wellAligned = true →
    0 < members.align
  | .nil, _ => by simp only [Members.align, Nat.zero_lt_one]
  | .cons _ layout rest, positive => by
      simp only [Members.align]
      exact lt_max_of_lt_left (Layout.align_pos (Members.wellAligned_cons.mp positive).1)
end

theorem Placement.le_reach (placement : Placement) {reached align : Nat} (size : Nat)
    (positive : 0 < align) : reached ≤ placement.reach reached align size := by
  have := le_roundUp (n := reached) positive
  cases placement <;> simp only [reach, start] <;> omega

theorem Placement.start_add_le_reach (placement : Placement) (reached align size : Nat) :
    placement.start reached align + size ≤ placement.reach reached align size := by
  cases placement <;> simp only [reach, start] <;> omega

theorem Members.le_reach (placement : Placement) {members : Members ν}
    (positive : members.wellAligned = true) (reached : Nat) :
    reached ≤ members.reach placement reached := by
  induction members using Members.induct generalizing reached with
  | nil => simp only [Members.reach, le_refl]
  | cons name layout rest ih =>
      rw [Members.wellAligned_cons] at positive
      simp only [Members.reach]
      exact (placement.le_reach _ (Layout.align_pos positive.1)).trans (ih positive.2 _)

theorem Layout.reach_le_size (placement : Placement) {members : Members ν}
    (positive : members.wellAligned = true) :
    members.reach placement 0 ≤ (Layout.record placement members).size := by
  simp only [Layout.size]
  refine le_roundUp (Layout.align_pos ?_)
  simpa only [Layout.wellAligned] using positive

/-! ## Paths -/

section Paths

variable [DecidableEq ν]

/-- The offset and the layout of a member. -/
def Members.find? (placement : Placement) (name : ν) : Nat → Members ν → Option (Nat × Layout ν)
  | _, .nil => none
  | reached, .cons name' layout rest =>
      if name' = name then some (placement.start reached layout.align, layout)
      else rest.find? placement name (placement.reach reached layout.align layout.size)

/-- The offset and the layout that a path of member names leads to. -/
def Layout.place? : List ν → Layout ν → Option (Nat × Layout ν)
  | [], layout => some (0, layout)
  | name :: path, .record placement members =>
      match members.find? placement name 0 with
      | some (offset, inner) => (inner.place? path).map fun place => (offset + place.1, place.2)
      | none => none
  | _ :: _, _ => none

theorem Members.find?_inside {placement : Placement} {name : ν} {members : Members ν}
    (positive : members.wellAligned = true) {reached offset : Nat} {layout : Layout ν}
    (found : members.find? placement name reached = some (offset, layout)) :
    offset + layout.size ≤ members.reach placement reached ∧ layout.wellAligned = true := by
  induction members using Members.induct generalizing reached with
  | nil => simp only [Members.find?, reduceCtorEq] at found
  | cons name' inner rest ih =>
      rw [Members.wellAligned_cons] at positive
      simp only [Members.find?] at found
      simp only [Members.reach]
      split at found
      · cases found
        exact ⟨(placement.start_add_le_reach _ _ _).trans
          (Members.le_reach placement positive.2 _), positive.1⟩
      · exact ih positive.2 found

theorem Layout.place?_nil {layout inner : Layout ν} {offset : Nat} :
    layout.place? [] = some (offset, inner) ↔ offset = 0 ∧ inner = layout := by
  simp only [Layout.place?, Option.some.injEq, Prod.mk.injEq, eq_comm]

/-- A path leads through a member of a record, and on from there. -/
theorem Layout.place?_cons {name : ν} {path : List ν} {layout inner : Layout ν} {offset : Nat} :
    layout.place? (name :: path) = some (offset, inner) ↔
      ∃ placement members start outer rest, layout = .record placement members ∧
        members.find? placement name 0 = some (start, outer) ∧
        outer.place? path = some (rest, inner) ∧ offset = start + rest := by
  constructor
  · intro found
    cases layout with
    | scalar => simp only [Layout.place?, reduceCtorEq] at found
    | array => simp only [Layout.place?, reduceCtorEq] at found
    | record placement members =>
        cases first : members.find? placement name 0 with
        | none => simp only [Layout.place?, first, reduceCtorEq] at found
        | some place =>
            obtain ⟨start, outer⟩ := place
            simp only [Layout.place?, first, Option.map_eq_some_iff, Prod.mk.injEq] at found
            obtain ⟨⟨rest, last⟩, inPath, rfl, rfl⟩ := found
            exact ⟨placement, members, start, outer, rest, rfl, first, inPath, rfl⟩
  · rintro ⟨placement, members, start, outer, rest, rfl, first, inPath, rfl⟩
    simp only [Layout.place?, first, inPath, Option.map_some]

/-- **The member a path leads to lies inside the record.** -/
theorem Layout.place?_inside {path : List ν} {layout inner : Layout ν}
    (positive : layout.wellAligned = true) {offset : Nat}
    (found : layout.place? path = some (offset, inner)) : offset + inner.size ≤ layout.size := by
  induction path generalizing layout offset with
  | nil =>
      obtain ⟨rfl, rfl⟩ := Layout.place?_nil.mp found
      omega
  | cons name path ih =>
      obtain ⟨placement, members, start, outer, rest, rfl, first, inPath, rfl⟩ :=
        Layout.place?_cons.mp found
      simp only [Layout.wellAligned] at positive
      obtain ⟨fits, outerPositive⟩ := Members.find?_inside positive first
      have within : rest + inner.size ≤ outer.size := ih outerPositive inPath
      have whole := Layout.reach_le_size placement positive
      show start + rest + inner.size ≤ _
      omega

end Paths

/-! ## Values of a layout -/

/-- A value of a layout: as many bytes as the layout has. -/
@[ext] structure Record (layout : Layout ν) where
  bytes : List UInt8
  length_eq : bytes.length = layout.size

namespace Record

variable {layout : Layout ν}

/-- The value whose bytes are all zero. -/
def zeroed (layout : Layout ν) : Record layout where
  bytes := List.replicate layout.size 0
  length_eq := List.length_replicate

@[simp] theorem bytes_zeroed (layout : Layout ν) :
    (zeroed layout).bytes = List.replicate layout.size 0 := rfl

/-- Overwrite the bytes from the start on. -/
def overwrite (r : Record layout) (bytes : List UInt8) : Record layout where
  bytes := splice 0 (bytes.take layout.size) r.bytes
  length_eq := by
    have short := List.length_take_le layout.size bytes
    rw [length_splice, r.length_eq]
    rw [r.length_eq]
    omega

theorem bytes_overwrite (r : Record layout) {bytes : List UInt8}
    (full : bytes.length = layout.size) : (r.overwrite bytes).bytes = bytes := by
  have whole : r.bytes.drop bytes.length = [] := by
    rw [full, ← r.length_eq, List.drop_length]
  show splice 0 (bytes.take layout.size) r.bytes = bytes
  rw [← full, List.take_length, splice, Nat.zero_add, whole, List.append_nil]
  rfl

/-- A copy of a record carries the scalars. What it leaves in the padding is
not determined: it is `left`. -/
def copied (r : Record layout) (left : Nat → UInt8) : List UInt8 :=
  r.bytes.mapIdx fun i b => if layout.padding i then left i else b

@[simp] theorem length_copied (r : Record layout) (left : Nat → UInt8) :
    (r.copied left).length = layout.size := by
  rw [copied, List.length_mapIdx, r.length_eq]

/-- Outside the padding a copy is the record. -/
theorem getElem?_copied (r : Record layout) (left : Nat → UInt8) {i : Nat}
    (scalar : layout.padding i = false) : (r.copied left)[i]? = r.bytes[i]? := by
  rw [copied, List.getElem?_mapIdx]
  cases r.bytes[i]? with
  | none => rfl
  | some b => simp only [Option.map_some, scalar, Bool.false_eq_true, if_false]

variable [DecidableEq ν]

/-- The bytes of the member a path leads to. -/
def read (r : Record layout) (path : List ν) : List UInt8 :=
  match layout.place? path with
  | some (offset, inner) => slice offset inner.size r.bytes
  | none => []

/-- Overwrite the member a path leads to. -/
def write (r : Record layout) (positive : layout.wellAligned = true) (path : List ν)
    (value : List UInt8) : Record layout :=
  match found : layout.place? path with
  | some (offset, inner) =>
      { bytes := splice offset (value.take inner.size) r.bytes
        length_eq := by
          have inside := Layout.place?_inside positive found
          have short := List.length_take_le inner.size value
          rw [length_splice, r.length_eq]
          rw [r.length_eq]
          omega }
  | none => r

theorem read_eq (r : Record layout) {path : List ν} {offset : Nat} {inner : Layout ν}
    (found : layout.place? path = some (offset, inner)) :
    r.read path = slice offset inner.size r.bytes := by
  simp only [read, found]

theorem bytes_write (r : Record layout) (positive : layout.wellAligned = true) {path : List ν}
    {offset : Nat} {inner : Layout ν} (found : layout.place? path = some (offset, inner))
    {value : List UInt8} (full : value.length = inner.size) :
    (r.write positive path value).bytes = splice offset value r.bytes := by
  unfold write
  split
  next offset' inner' found' =>
    rw [found, Option.some.injEq, Prod.mk.injEq] at found'
    obtain ⟨rfl, rfl⟩ := found'
    show splice offset (value.take inner.size) r.bytes = _
    rw [← full, List.take_length]
  next found' =>
    rw [found] at found'
    cases found'

/-- A member reads back what was written to it. -/
theorem read_write_same (r : Record layout) (positive : layout.wellAligned = true) {path : List ν}
    {offset : Nat} {inner : Layout ν} (found : layout.place? path = some (offset, inner))
    {value : List UInt8} (full : value.length = inner.size) :
    (r.write positive path value).read path = value := by
  have inside := Layout.place?_inside positive found
  rw [read_eq _ found, bytes_write r positive found full]
  exact slice_splice_same full (by rw [r.length_eq]; exact inside)

/-- A member apart from the one written reads what it read before. -/
theorem read_write_apart (r : Record layout) (positive : layout.wellAligned = true)
    {path other : List ν} {offset offset' : Nat} {inner inner' : Layout ν}
    (found : layout.place? path = some (offset, inner))
    (found' : layout.place? other = some (offset', inner'))
    (apart : offset' + inner'.size ≤ offset ∨ offset + inner.size ≤ offset')
    {value : List UInt8} (full : value.length = inner.size) :
    (r.write positive path value).read other = r.read other := by
  have inside := Layout.place?_inside positive found
  rw [read_eq _ found', read_eq _ found', bytes_write r positive found full]
  refine slice_splice_apart ?_ ?_
  · rw [full, r.length_eq]
    exact inside
  · rwa [full]

theorem length_read (r : Record layout) (positive : layout.wellAligned = true) {path : List ν}
    {offset : Nat} {inner : Layout ν} (found : layout.place? path = some (offset, inner)) :
    (r.read path).length = inner.size := by
  have inside := Layout.place?_inside positive found
  rw [read_eq _ found]
  exact length_slice (by rw [r.length_eq]; exact inside)

end Record

end Foundations
