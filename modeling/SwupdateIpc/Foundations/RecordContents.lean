import SwupdateIpc.Foundations.RecordLayout

/-!
# What a record carries

A record carries a list of fields when each of them reads its bytes and every
byte outside of them is zero. The record of zeros carries nothing (`zeroed`), and
each way to fill a record adds to what it carries: writing a member (`write`),
writing zeros (`write_zeros`), and copying a whole record into a member (`embed`).
A copy is free to leave anything in the padding of what it copies, so a record
carries its fields up to a set of free positions.
-/

set_option autoImplicit false

namespace Foundations

variable {ν : Type}

/-! ## Paths through nested records -/

/-- A scalar, or an array of scalars. -/
def Layout.plain : Layout ν → Bool
  | .scalar _ _ _ => true
  | .array (.scalar size _ _) _ => 0 < size
  | _ => false

/-- A plain layout has no padding. -/
theorem Layout.occupied_of_plain {layout : Layout ν} (plain : layout.plain = true) {i : Nat}
    (small : i < layout.size) : layout.occupied i = true := by
  cases layout with
  | scalar size align sign =>
      simpa only [Layout.occupied, Layout.size, decide_eq_true_eq] using small
  | array element count =>
      cases element with
      | scalar size align sign =>
          simp only [Layout.plain, decide_eq_true_eq] at plain
          simp only [Layout.size] at small
          simp only [Layout.occupied, Layout.size, Bool.and_eq_true]
          exact ⟨decide_eq_true small, decide_eq_true (Nat.mod_lt i plain)⟩
      | array => cases plain
      | record => cases plain
  | record => cases plain

section Paths

variable [DecidableEq ν]

/-- A path of a member, followed by a path inside it. -/
theorem Layout.place?_append {path rest : List ν} {layout inner last : Layout ν}
    {offset start : Nat} (found : layout.place? path = some (offset, inner))
    (next : inner.place? rest = some (start, last)) :
    layout.place? (path ++ rest) = some (offset + start, last) := by
  induction path generalizing layout offset with
  | nil =>
      obtain ⟨rfl, rfl⟩ := Layout.place?_nil.mp found
      rw [List.nil_append, next, Nat.zero_add]
  | cons name path ih =>
      obtain ⟨placement, members, begun, outer, further, rfl, first, inPath, rfl⟩ :=
        Layout.place?_cons.mp found
      rw [List.cons_append, Nat.add_assoc]
      exact Layout.place?_cons.mpr
        ⟨placement, members, begun, outer, _, rfl, first, ih inPath, rfl⟩

theorem Members.occupied_of_find? {placement : Placement} {name : ν} {members : Members ν}
    {reached offset : Nat} {layout : Layout ν}
    (found : members.find? placement name reached = some (offset, layout)) {i : Nat}
    (small : i < layout.size) (occupied : layout.occupied i = true) :
    members.occupied placement reached (offset + i) = true := by
  induction members using Members.induct generalizing reached with
  | nil => simp only [Members.find?, reduceCtorEq] at found
  | cons name' inner rest ih =>
      simp only [Members.find?] at found
      simp only [Members.occupied, Bool.or_eq_true, Bool.and_eq_true, decide_eq_true_eq]
      split at found
      · cases found
        rw [Nat.add_sub_cancel_left]
        exact .inl ⟨⟨by omega, by omega⟩, occupied⟩
      · exact .inr (ih found)

/-- A byte that a member occupies, its record occupies. -/
theorem Layout.occupied_of_place? {path : List ν} {layout inner : Layout ν}
    (positive : layout.wellAligned = true) {offset : Nat}
    (found : layout.place? path = some (offset, inner)) {i : Nat} (small : i < inner.size)
    (occupied : inner.occupied i = true) : layout.occupied (offset + i) = true := by
  induction path generalizing layout offset with
  | nil =>
      obtain ⟨rfl, rfl⟩ := Layout.place?_nil.mp found
      rw [Nat.zero_add]
      exact occupied
  | cons name path ih =>
      obtain ⟨placement, members, start, outer, rest, rfl, first, inPath, rfl⟩ :=
        Layout.place?_cons.mp found
      simp only [Layout.wellAligned] at positive
      obtain ⟨_, outerPositive⟩ := Members.find?_inside positive first
      have within : rest + inner.size ≤ outer.size := Layout.place?_inside outerPositive inPath
      have reached : rest + i < outer.size := by omega
      simp only [Layout.occupied]
      rw [Nat.add_assoc]
      exact Members.occupied_of_find? first reached (ih outerPositive inPath)

/-- The layout of the member a path leads to. -/
def Layout.typeAt? (layout : Layout ν) (path : List ν) : Option (Layout ν) :=
  (layout.place? path).map Prod.snd

theorem Layout.typeAt?_eq_some {layout inner : Layout ν} {path : List ν} :
    layout.typeAt? path = some inner ↔ ∃ offset, layout.place? path = some (offset, inner) := by
  rw [Layout.typeAt?, Option.map_eq_some_iff, Prod.exists]
  constructor
  · rintro ⟨offset, _, found, rfl⟩
    exact ⟨offset, found⟩
  · rintro ⟨offset, found⟩
    exact ⟨offset, inner, found, rfl⟩

/-- The offset and the size of the member a path leads to. -/
def Layout.span? (layout : Layout ν) (path : List ν) : Option (Nat × Nat) :=
  (layout.place? path).map fun place => (place.1, place.2.size)

theorem Layout.span?_eq_some {layout : Layout ν} {path : List ν} {offset size : Nat} :
    layout.span? path = some (offset, size) ↔
      ∃ inner, layout.place? path = some (offset, inner) ∧ inner.size = size := by
  rw [Layout.span?, Option.map_eq_some_iff, Prod.exists]
  constructor
  · rintro ⟨_, inner, found, same⟩
    cases same
    exact ⟨inner, found, rfl⟩
  · rintro ⟨inner, found, rfl⟩
    exact ⟨offset, inner, found, rfl⟩

/-- The member a path leads to has the byte at a position. -/
def Layout.Covers (layout : Layout ν) (path : List ν) (i : Nat) : Prop :=
  ∃ offset inner, layout.place? path = some (offset, inner) ∧ offset ≤ i ∧
    i < offset + inner.size

/-- Whether two paths lead to members without a common byte. -/
def Layout.apart (layout : Layout ν) (path other : List ν) : Bool :=
  match layout.place? path, layout.place? other with
  | some (offset, inner), some (offset', inner') =>
      offset + inner.size ≤ offset' || offset' + inner'.size ≤ offset
  | _, _ => false

/-- Whether a path leads to a member without padding. -/
def Layout.plainAt (layout : Layout ν) (path : List ν) : Bool :=
  match layout.place? path with
  | some (_, inner) => inner.plain
  | none => false

theorem Layout.apart_places {layout : Layout ν} {path other : List ν}
    (apart : layout.apart path other = true) {offset offset' : Nat} {inner inner' : Layout ν}
    (found : layout.place? path = some (offset, inner))
    (found' : layout.place? other = some (offset', inner')) :
    offset + inner.size ≤ offset' ∨ offset' + inner'.size ≤ offset := by
  simpa only [Layout.apart, found, found', Bool.or_eq_true, decide_eq_true_eq] using apart

theorem Layout.not_covers_of_apart {layout : Layout ν} {path other : List ν}
    (apart : layout.apart path other = true) {i : Nat} (covered : layout.Covers other i) :
    ¬ layout.Covers path i := by
  obtain ⟨offset, inner, found, low, high⟩ := covered
  rintro ⟨offset', inner', found', low', high'⟩
  have := Layout.apart_places apart found' found
  omega

/-- A member without padding has none as a part of its record. -/
theorem Layout.padding_of_plainAt {layout : Layout ν} (positive : layout.wellAligned = true)
    {path : List ν} (plain : layout.plainAt path = true) {i : Nat}
    (covered : layout.Covers path i) : layout.padding i = false := by
  obtain ⟨offset, inner, found, low, high⟩ := covered
  simp only [Layout.plainAt, found] at plain
  have small : i - offset < inner.size := by omega
  have occupied :=
    Layout.occupied_of_place? positive found small (Layout.occupied_of_plain plain small)
  rw [show offset + (i - offset) = i by omega] at occupied
  rw [Layout.padding, occupied, Bool.not_true, Bool.and_false]

end Paths

/-! ## What a record carries -/

namespace Record

variable [DecidableEq ν] {layout : Layout ν}

/-- What a record carries, up to a set of free positions: each field reads its
bytes, and a byte outside of the fields is zero. -/
structure Carries (r : Record layout) (fields : List (List ν × List UInt8))
    (free : Nat → Bool) : Prop where
  reads : ∀ f ∈ fields, ∃ offset inner, layout.place? f.1 = some (offset, inner) ∧
    f.2.length = inner.size ∧ r.read f.1 = f.2
  zeros : ∀ i < layout.size, (∀ f ∈ fields, ¬ layout.Covers f.1 i) → free i = false →
    r.bytes[i]? = some 0

/-- No position is free. -/
def nowhere : Nat → Bool := fun _ => false

/-- The record of zeros carries nothing. -/
theorem carries_zeroed (layout : Layout ν) : Carries (zeroed layout) [] nowhere where
  reads := by
    intro f member
    cases member
  zeros := by
    intro i small _ _
    rw [bytes_zeroed, List.getElem?_replicate, if_pos small]

/-- Two layouts that place the fields at the same bytes tell the same of a byte
string. -/
theorem Carries.relabel {layout' : Layout ν} {r : Record layout}
    {fields : List (List ν × List UInt8)} {free : Nat → Bool} (carried : Carries r fields free)
    (rename : List ν → List ν) (r' : Record layout') (bytes : r'.bytes = r.bytes)
    (agree : ∀ f ∈ fields, layout'.span? (rename f.1) = layout.span? f.1) :
    Carries r' (fields.map fun f => (rename f.1, f.2)) free where
  reads := by
    intro f member
    obtain ⟨g, there, rfl⟩ := List.mem_map.mp member
    obtain ⟨offset, inner, found, full, reads⟩ := carried.reads g there
    obtain ⟨inner', found', same⟩ := Layout.span?_eq_some.mp
      ((agree g there).trans (Layout.span?_eq_some.mpr ⟨inner, found, rfl⟩))
    refine ⟨offset, inner', found', full.trans same.symm, ?_⟩
    rw [read_eq _ found', bytes, same, ← read_eq _ found, reads]
  zeros := by
    intro i small outside unfree
    rw [bytes]
    refine carried.zeros i ?_ ?_ unfree
    · rwa [← r.length_eq, ← bytes, r'.length_eq]
    · rintro f member ⟨offset, inner, found, low, high⟩
      obtain ⟨inner', found', same⟩ := Layout.span?_eq_some.mp
        ((agree f member).trans (Layout.span?_eq_some.mpr ⟨inner, found, rfl⟩))
      exact outside _ (List.mem_map_of_mem member) ⟨offset, inner', found', low, same ▸ high⟩

section Writing

variable {r : Record layout} {fields : List (List ν × List UInt8)} {free : Nat → Bool}
  (positive : layout.wellAligned = true)

/-- A field written over a part apart from the others reads what it did before. -/
theorem Carries.reads_written (carried : Carries r fields free) {path : List ν} {offset : Nat}
    {inner : Layout ν} (found : layout.place? path = some (offset, inner))
    (apart : fields.all (fun f => layout.apart f.1 path) = true) {value : List UInt8}
    (full : value.length = inner.size) {f : List ν × List UInt8} (member : f ∈ fields) :
    ∃ offset' inner', layout.place? f.1 = some (offset', inner') ∧ f.2.length = inner'.size ∧
      (r.write positive path value).read f.1 = f.2 := by
  obtain ⟨offset', inner', found', full', reads⟩ := carried.reads f member
  have disjoint := Layout.apart_places (List.all_eq_true.mp apart f member) found' found
  refine ⟨offset', inner', found', full', ?_⟩
  rw [read_write_apart r positive found found' disjoint full, reads]

/-- Writing a member apart from the fields adds it to them. -/
theorem Carries.write (carried : Carries r fields free) (path : List ν) {inner : Layout ν}
    (there : layout.typeAt? path = some inner)
    (apart : fields.all (fun f => layout.apart f.1 path) = true) {value : List UInt8}
    (full : value.length = inner.size) :
    Carries (r.write positive path value) (fields ++ [(path, value)]) free where
  reads := by
    intro f member
    obtain ⟨offset, found⟩ := Layout.typeAt?_eq_some.mp there
    rcases List.mem_append.mp member with old | new
    · exact carried.reads_written positive found apart full old
    · rw [List.mem_singleton.mp new]
      exact ⟨offset, inner, found, full, read_write_same r positive found full⟩
  zeros := by
    intro i small outside unfree
    obtain ⟨offset, found⟩ := Layout.typeAt?_eq_some.mp there
    have inside := Layout.place?_inside positive found
    have elsewhere : ¬ (offset ≤ i ∧ i < offset + value.length) := by
      rintro ⟨low, high⟩
      rw [full] at high
      exact outside (path, value) (List.mem_append_right _ List.mem_cons_self)
        ⟨offset, inner, found, low, high⟩
    rw [bytes_write r positive found full,
      getElem?_splice (by rw [full, r.length_eq]; exact inside), if_neg elsewhere]
    exact carried.zeros i small
      (fun f member => outside f (List.mem_append_left _ member)) unfree

/-- Writing zeros apart from the fields adds nothing. -/
theorem Carries.write_zeros (carried : Carries r fields free) (path : List ν) {inner : Layout ν}
    (there : layout.typeAt? path = some inner)
    (apart : fields.all (fun f => layout.apart f.1 path) = true) {value : List UInt8}
    (zero : value = List.replicate inner.size 0) :
    Carries (r.write positive path value) fields free where
  reads := by
    intro f member
    obtain ⟨offset, found⟩ := Layout.typeAt?_eq_some.mp there
    rw [zero]
    exact carried.reads_written positive found apart List.length_replicate member
  zeros := by
    intro i small outside unfree
    obtain ⟨offset, found⟩ := Layout.typeAt?_eq_some.mp there
    have full : (List.replicate inner.size (0 : UInt8)).length = inner.size :=
      List.length_replicate
    have inside := Layout.place?_inside positive found
    rw [zero, bytes_write r positive found full,
      getElem?_splice (by rw [full, r.length_eq]; exact inside)]
    split
    · rw [List.getElem?_replicate, if_pos (by omega)]
    · exact carried.zeros i small outside unfree

end Writing

/-- A member apart from the fields reads zeros. -/
theorem Carries.untouched {r : Record layout} {fields : List (List ν × List UInt8)}
    (positive : layout.wellAligned = true) (carried : Carries r fields nowhere) (path : List ν)
    {inner : Layout ν} (there : layout.typeAt? path = some inner)
    (apart : fields.all (fun f => layout.apart f.1 path) = true) :
    r.read path = List.replicate inner.size 0 := by
  obtain ⟨offset, found⟩ := Layout.typeAt?_eq_some.mp there
  have inside := Layout.place?_inside positive found
  rw [read_eq r found]
  apply List.ext_getElem?
  intro i
  rw [getElem?_slice, List.getElem?_replicate]
  split
  · refine carried.zeros _ (by omega) (fun f member => ?_) rfl
    exact Layout.not_covers_of_apart (List.all_eq_true.mp apart f member)
      ⟨offset, inner, found, by omega, by omega⟩
  · rfl

/-- A field of zeros can be added. -/
theorem Carries.add_zeros {r : Record layout} {fields : List (List ν × List UInt8)}
    (positive : layout.wellAligned = true) (carried : Carries r fields nowhere) (path : List ν)
    {inner : Layout ν} (there : layout.typeAt? path = some inner)
    (apart : fields.all (fun f => layout.apart f.1 path) = true) {value : List UInt8}
    (zero : value = List.replicate inner.size 0) :
    Carries r (fields ++ [(path, value)]) nowhere where
  reads := by
    intro f member
    obtain ⟨offset, found⟩ := Layout.typeAt?_eq_some.mp there
    rcases List.mem_append.mp member with old | new
    · exact carried.reads f old
    · rw [List.mem_singleton.mp new, zero]
      exact ⟨offset, inner, found, List.length_replicate,
        carried.untouched positive path there apart⟩
  zeros := fun i small outside =>
    carried.zeros i small fun f member => outside f (List.mem_append_left _ member)

/-! ## Filling a record -/

/-- Write fields into a record, the first one first. -/
def fill (positive : layout.wellAligned = true) (r : Record layout)
    (fields : List (List ν × List UInt8)) : Record layout :=
  fields.foldl (fun r f => r.write positive f.1 f.2) r

/-- A field that has the size of the member it is for. -/
def Fits (layout : Layout ν) (f : List ν × List UInt8) : Prop :=
  (layout.typeAt? f.1).map Layout.size = some f.2.length

/-- A record that is filled with fields apart from each other carries them,
whatever its other bytes are. -/
theorem Carries.fill {r : Record layout} {done fields : List (List ν × List UInt8)}
    {free : Nat → Bool} (positive : layout.wellAligned = true) (carried : Carries r done free)
    (fit : ∀ f ∈ fields, Fits layout f)
    (apart : (done ++ fields).Pairwise fun f g => layout.apart f.1 g.1 = true) :
    Carries (r.fill positive fields) (done ++ fields) free := by
  induction fields generalizing r done with
  | nil =>
      rw [List.append_nil]
      exact carried
  | cons f fields ih =>
      obtain ⟨inner, there, full⟩ := Option.map_eq_some_iff.mp (fit f List.mem_cons_self)
      obtain ⟨_, _, across⟩ := List.pairwise_append.mp apart
      have written := carried.write positive f.1 there
        (List.all_eq_true.mpr fun g member => across g member f List.mem_cons_self) full.symm
      rw [List.append_cons] at apart ⊢
      exact ih written (fun g member => fit g (List.mem_cons_of_mem _ member)) apart

/-- Every position is free. -/
def anywhere : Nat → Bool := fun _ => true

/-- Any record carries nothing, when every position is free. -/
theorem carries_anywhere (r : Record layout) : Carries r [] anywhere where
  reads := by
    intro f member
    cases member
  zeros := by
    intro i _ _ unfree
    cases unfree

theorem Carries.read_of_mem {r : Record layout} {fields : List (List ν × List UInt8)}
    {free : Nat → Bool} (carried : Carries r fields free) {path : List ν} {value : List UInt8}
    (member : (path, value) ∈ fields) : r.read path = value := by
  obtain ⟨_, _, _, _, reads⟩ := carried.reads _ member
  exact reads

/-! ## Embedding a record -/

/-- The padding of a record that is embedded at an offset. -/
def paddingFrom (offset : Nat) (inner : Layout ν) : Nat → Bool :=
  fun i => offset ≤ i && inner.padding (i - offset)

/-- **A copied record brings its fields along.** What the copy leaves in the
padding is free. -/
theorem Carries.embed {r : Record layout} {fields : List (List ν × List UInt8)}
    (positive : layout.wellAligned = true) (carried : Carries r fields nowhere) (path : List ν)
    {offset : Nat} {inner : Layout ν} (found : layout.place? path = some (offset, inner))
    (apart : fields.all (fun f => layout.apart f.1 path) = true) {s : Record inner}
    {fields' : List (List ν × List UInt8)} (innerPositive : inner.wellAligned = true)
    (carried' : Carries s fields' nowhere) (plain : fields'.all (fun f => inner.plainAt f.1) = true)
    (left : Nat → UInt8) :
    Carries (r.write positive path (s.copied left))
      (fields ++ fields'.map fun f => (path ++ f.1, f.2)) (paddingFrom offset inner) where
  reads := by
    intro f member
    have full := s.length_copied left
    have inside := Layout.place?_inside positive found
    rcases List.mem_append.mp member with old | new
    · exact carried.reads_written positive found apart full old
    · obtain ⟨g, there, rfl⟩ := List.mem_map.mp new
      obtain ⟨start, last, found', full', reads⟩ := carried'.reads g there
      have within := Layout.place?_inside innerPositive found'
      have together := Layout.place?_append found found'
      refine ⟨_, last, together, full', ?_⟩
      rw [read_eq _ together, bytes_write r positive found full,
        slice_splice_within (by rw [full, r.length_eq]; exact inside) (by rw [full]; exact within),
        ← reads, read_eq s found']
      apply List.ext_getElem?
      intro i
      rw [getElem?_slice, getElem?_slice]
      split
      · refine s.getElem?_copied left (Layout.padding_of_plainAt innerPositive
          (List.all_eq_true.mp plain g there) ?_)
        exact ⟨start, last, found', by omega, by omega⟩
      · rfl
  zeros := by
    intro i small outside unfree
    have full := s.length_copied left
    have inside := Layout.place?_inside positive found
    rw [bytes_write r positive found full,
      getElem?_splice (by rw [full, r.length_eq]; exact inside), full]
    split
    next region =>
      have scalar : inner.padding (i - offset) = false := by
        simpa only [paddingFrom, region.1, decide_true, Bool.true_and] using unfree
      rw [s.getElem?_copied left scalar]
      refine carried'.zeros _ (by omega) ?_ rfl
      rintro f member ⟨start, last, found', low, high⟩
      refine outside _ (List.mem_append_right _ (List.mem_map_of_mem member))
        ⟨offset + start, last, Layout.place?_append found found', by omega, by omega⟩
    next =>
      exact carried.zeros i small
        (fun f member => outside f (List.mem_append_left _ member)) rfl

end Record

end Foundations
