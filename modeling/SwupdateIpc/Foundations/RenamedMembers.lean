import SwupdateIpc.Foundations.RecordContents
import Mathlib.Logic.Function.Basic

/-!
# Members under other names

Two declarations of a record often differ in the names of its members, and in the
scalars whose sign one of them leaves open, and in nothing else. `Layout.declaredAs`
compares them member by member. The other declaration has the same size and alignment
(`size_declared`, `align_declared`), and when no two names become one it moves no member:
a renamed path leads to the same bytes (`place?_declared`), and to the same sign where the
other declaration fixes it (`signAt?_declared`). So a byte string reads and takes an
assignment in the same way under both declarations (`read_declared`, `write_declared`).
-/

set_option autoImplicit false

namespace Foundations

variable {ν μ : Type}

section Declarations

variable [DecidableEq μ]

mutual
/-- Whether another declaration is this one under other names. It may leave the sign of a
scalar open. -/
def Layout.declaredAs (rename : ν → μ) : Layout ν → Layout μ → Bool
  | .scalar size align sign, .scalar size' align' sign' =>
      size' == size && align' == align && (sign' == none || sign' == sign)
  | .array element count, .array element' count' =>
      element.declaredAs rename element' && count' == count
  | .record placement members, .record placement' members' =>
      placement' == placement && members.declaredAs rename members'
  | _, _ => false

def Members.declaredAs (rename : ν → μ) : Members ν → Members μ → Bool
  | .nil, .nil => true
  | .cons name layout rest, .cons name' layout' rest' =>
      name' == rename name && layout.declaredAs rename layout' && rest.declaredAs rename rest'
  | _, _ => false
end

variable {rename : ν → μ}

theorem Layout.declaredAs_array {element : Layout ν} {element' : Layout μ} {count count' : Nat} :
    (Layout.array element count).declaredAs rename (.array element' count') = true ↔
      element.declaredAs rename element' = true ∧ count' = count := by
  simp only [Layout.declaredAs, Bool.and_eq_true, beq_iff_eq]

theorem Layout.declaredAs_record {placement placement' : Placement} {members : Members ν}
    {members' : Members μ} :
    (Layout.record placement members).declaredAs rename (.record placement' members') = true ↔
      placement' = placement ∧ members.declaredAs rename members' = true := by
  simp only [Layout.declaredAs, Bool.and_eq_true, beq_iff_eq]

theorem Members.declaredAs_cons {name : ν} {name' : μ} {layout : Layout ν} {layout' : Layout μ}
    {rest : Members ν} {rest' : Members μ} :
    (Members.cons name layout rest).declaredAs rename (.cons name' layout' rest') = true ↔
      name' = rename name ∧ layout.declaredAs rename layout' = true ∧
        rest.declaredAs rename rest' = true := by
  simp only [Members.declaredAs, Bool.and_eq_true, beq_iff_eq, and_assoc]

/-! ## Size and alignment -/

mutual
theorem Layout.align_declared : ∀ {layout : Layout ν} {layout' : Layout μ},
    layout.declaredAs rename layout' = true → layout'.align = layout.align
  | .scalar _ _ _, .scalar _ _ _, same => by
      simp only [Layout.declaredAs, Bool.and_eq_true, beq_iff_eq] at same
      exact same.1.2
  | .array _ _, .array _ _, same => by
      simp only [Layout.align]
      exact Layout.align_declared (Layout.declaredAs_array.mp same).1
  | .record _ _, .record placement _, same => by
      obtain ⟨rfl, members⟩ := Layout.declaredAs_record.mp same
      have := Members.align_declared members
      cases placement <;> simp only [Layout.align, this]

theorem Members.align_declared : ∀ {members : Members ν} {members' : Members μ},
    members.declaredAs rename members' = true → members'.align = members.align
  | .nil, .nil, _ => rfl
  | .cons _ _ _, .cons _ _ _, same => by
      obtain ⟨_, layout, rest⟩ := Members.declaredAs_cons.mp same
      simp only [Members.align, Layout.align_declared layout, Members.align_declared rest]
end

mutual
theorem Layout.size_declared : ∀ {layout : Layout ν} {layout' : Layout μ},
    layout.declaredAs rename layout' = true → layout'.size = layout.size
  | .scalar _ _ _, .scalar _ _ _, same => by
      simp only [Layout.declaredAs, Bool.and_eq_true, beq_iff_eq] at same
      exact same.1.1
  | .array _ _, .array _ _, same => by
      obtain ⟨element, rfl⟩ := Layout.declaredAs_array.mp same
      simp only [Layout.size, Layout.size_declared element]
  | .record _ _, .record placement _, same => by
      have align := Layout.align_declared same
      obtain ⟨rfl, members⟩ := Layout.declaredAs_record.mp same
      simp only [Layout.size, align, Members.reach_declared members placement 0]

theorem Members.reach_declared : ∀ {members : Members ν} {members' : Members μ},
    members.declaredAs rename members' = true → ∀ (placement : Placement) (reached : Nat),
      members'.reach placement reached = members.reach placement reached
  | .nil, .nil, _, _, _ => rfl
  | .cons _ _ _, .cons _ _ _, same, placement, _ => by
      obtain ⟨_, layout, rest⟩ := Members.declaredAs_cons.mp same
      simp only [Members.reach, Layout.align_declared layout, Layout.size_declared layout]
      exact Members.reach_declared rest placement _
end

/-! ## Paths -/

/-- The sign of a scalar, or of the scalars of an array. -/
def Layout.sign? : Layout ν → Option Sign
  | .scalar _ _ sign => sign
  | .array element _ => element.sign?
  | .record _ _ => none

/-- Where the other declaration fixes a sign, it is the same. -/
theorem Layout.sign?_declared : ∀ {layout : Layout ν} {layout' : Layout μ},
    layout.declaredAs rename layout' = true → ∀ {sign : Sign}, layout'.sign? = some sign →
      layout.sign? = some sign
  | .scalar _ _ _, .scalar _ _ _, same, _, rfl => by
      simp only [Layout.declaredAs, Bool.and_eq_true, Bool.or_eq_true, beq_iff_eq, reduceCtorEq,
        false_or] at same
      exact same.2.symm
  | .array _ _, .array _ _, same, _, fixed =>
      Layout.sign?_declared (Layout.declaredAs_array.mp same).1 fixed
  | .record _ _, .record _ _, _, _, fixed => by cases fixed

/-- Both lead nowhere, or to the same offset, where one layout is declared as the other. -/
inductive SamePlace (rename : ν → μ) :
    Option (Nat × Layout ν) → Option (Nat × Layout μ) → Prop where
  | none : SamePlace rename none none
  | some (offset : Nat) {inner : Layout ν} {inner' : Layout μ}
      (same : inner.declaredAs rename inner' = true) :
      SamePlace rename (some (offset, inner)) (some (offset, inner'))

theorem SamePlace.shift {place : Option (Nat × Layout ν)} {place' : Option (Nat × Layout μ)}
    (same : SamePlace rename place place') (start : Nat) :
    SamePlace rename (place.map fun place => (start + place.1, place.2))
      (place'.map fun place => (start + place.1, place.2)) := by
  cases same with
  | none => exact .none
  | some offset same => exact .some (start + offset) same

variable [DecidableEq ν] (injective : Function.Injective rename)

include injective

theorem Members.find?_declared (placement : Placement) (name : ν) :
    ∀ {members : Members ν} {members' : Members μ}, members.declaredAs rename members' = true →
      ∀ reached, SamePlace rename (members.find? placement name reached)
        (members'.find? placement (rename name) reached)
  | .nil, .nil, _, _ => .none
  | .cons _ _ _, .cons _ _ _, same, reached => by
      obtain ⟨rfl, layout, rest⟩ := Members.declaredAs_cons.mp same
      simp only [Members.find?, injective.eq_iff, Layout.align_declared layout,
        Layout.size_declared layout]
      split
      · exact .some _ layout
      · exact Members.find?_declared placement name rest _

/-- **Another declaration moves no member.** -/
theorem Layout.place?_declared {layout : Layout ν} {layout' : Layout μ}
    (same : layout.declaredAs rename layout' = true) (path : List ν) :
    SamePlace rename (layout.place? path) (layout'.place? (path.map rename)) := by
  induction path generalizing layout layout' with
  | nil => exact .some 0 same
  | cons name path ih =>
      cases layout with
      | scalar => cases layout' <;> first | exact .none | cases same
      | array => cases layout' <;> first | exact .none | cases same
      | record placement members =>
          cases layout' with
          | scalar => cases same
          | array => cases same
          | record placement' members' =>
              obtain ⟨rfl, fields⟩ := Layout.declaredAs_record.mp same
              have first := Members.find?_declared injective placement' name fields 0
              simp only [List.map_cons, Layout.place?]
              generalize members.find? placement' name 0 = found at first ⊢
              generalize members'.find? placement' (rename name) 0 = found' at first ⊢
              cases first with
              | none => exact .none
              | some start inner => exact (ih inner).shift start

theorem Layout.span?_declared {layout : Layout ν} {layout' : Layout μ}
    (same : layout.declaredAs rename layout' = true) (path : List ν) :
    layout'.span? (path.map rename) = layout.span? path := by
  have place := Layout.place?_declared injective same path
  unfold Layout.span?
  generalize layout.place? path = found at place ⊢
  generalize layout'.place? (path.map rename) = found' at place ⊢
  cases place with
  | none => rfl
  | some offset inner => simp only [Option.map_some, Layout.size_declared inner]

/-- The sign of the member that a path leads to, where the declaration fixes it. -/
def Layout.signAt? (layout : Layout ν) (path : List ν) : Option Sign :=
  (layout.typeAt? path).bind Layout.sign?

/-- **Another declaration changes no sign** that it fixes. -/
theorem Layout.signAt?_declared {layout : Layout ν} {layout' : Layout μ}
    (same : layout.declaredAs rename layout' = true) {path : List ν} {sign : Sign}
    (fixed : layout'.signAt? (path.map rename) = some sign) : layout.signAt? path = some sign := by
  have place := Layout.place?_declared injective same path
  unfold Layout.signAt? Layout.typeAt? at fixed ⊢
  generalize layout.place? path = found at place ⊢
  generalize layout'.place? (path.map rename) = found' at place fixed
  cases place with
  | none => cases fixed
  | some offset inner => exact Layout.sign?_declared inner fixed

end Declarations

namespace Record

variable {layout : Layout ν} {layout' : Layout μ} {rename : ν → μ} [DecidableEq μ]
  (same : layout.declaredAs rename layout' = true)

/-- A record under the other declaration. -/
def redeclared (r : Record layout) : Record layout' where
  bytes := r.bytes
  length_eq := by rw [r.length_eq, Layout.size_declared same]

@[simp] theorem bytes_redeclared (r : Record layout) : (r.redeclared same).bytes = r.bytes := rfl

variable [DecidableEq ν] (injective : Function.Injective rename)

include injective

theorem read_declared (r : Record layout) (path : List ν) :
    (r.redeclared same).read (path.map rename) = r.read path := by
  have place := Layout.place?_declared injective same path
  unfold read
  generalize layout.place? path = found at place ⊢
  generalize layout'.place? (path.map rename) = found' at place ⊢
  cases place with
  | none => rfl
  | some offset inner => simp only [Layout.size_declared inner, bytes_redeclared]

/-- An assignment to a member of the other declaration changes the bytes that an assignment
to the member changes. -/
theorem write_declared (r : Record layout) (positive : layout.wellAligned = true)
    (positive' : layout'.wellAligned = true) (path : List ν)
    {inner : Layout ν} (there : layout.typeAt? path = some inner) {value : List UInt8}
    (full : value.length = inner.size) :
    ((r.redeclared same).write positive' (path.map rename) value).bytes =
      (r.write positive path value).bytes := by
  obtain ⟨offset, found⟩ := Layout.typeAt?_eq_some.mp there
  have place := Layout.place?_declared injective same path
  rw [found] at place
  generalize found' : layout'.place? (path.map rename) = place' at place
  cases place with
  | some _ declared =>
      rw [bytes_write r positive found full,
        bytes_write _ positive' found' (full.trans (Layout.size_declared declared).symm),
        bytes_redeclared]

end Record

end Foundations
