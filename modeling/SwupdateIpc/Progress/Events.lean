import SwupdateIpc.Foundations.RecordContents
import SwupdateIpc.Types
import SwupdateIpc.Wire.ProgressMessages

/-!
# Progress events

An event is read off a progress message in two steps: the members of interest
are taken from the message, in whichever layout it is (`ProgressFields`), and the
status code decides what they mean (`ProgressEvent.fromFields`).

`ProgressMsg` is a message as the daemon means it, before it is laid out. Laid
out as either header says, over any bytes in the padding, it decodes to the same
event, which is the event the message stands for (`layouts_decode_alike`).
-/

set_option autoImplicit false

namespace SwupdateIpc

open Foundations Wire

/-- A progress event from the progress socket. -/
inductive ProgressEvent where
  /-- Update has started. -/
  | started
  /-- Downloading image data. -/
  | downloading (percent : UInt32) (bytesTotal : UInt64)
  /-- Installing a step. -/
  | installing (step totalSteps percent : UInt32) (image handler : String)
  /-- Update completed successfully. -/
  | success
  /-- Update failed. -/
  | failed (info : String)
  /-- Idle: no update in progress. -/
  | idle
  deriving DecidableEq, Repr

/-- The members of a message, in either layout. -/
structure ProgressFields where
  status : UInt32
  dwlPercent : UInt32
  dwlBytes : UInt64
  nsteps : UInt32
  curStep : UInt32
  curPercent : UInt32
  curImage : String
  hndName : String
  info : String

/-- `&bytes[..count]`, which is in bounds. -/
def sliceTo (bytes : List UInt8) (count : Nat) (_ : count ≤ bytes.length) : List UInt8 :=
  bytes.take count

section Decoding

variable (T : Target)

/-- Take the members from a message. -/
def ProgressFields.extract {layout : Layout Ident} (raw : Record layout)
    (full : (raw.read [.info]).length = PRINFOSIZE) : ProgressFields :=
  let infoLen := min (u32FromNeBytes T (raw.read [.infolen])).toNat PRINFOSIZE
  { status := u32FromNeBytes T (raw.read [.status])
    dwlPercent := u32FromNeBytes T (raw.read [.dwlPercent])
    dwlBytes := u64FromNeBytes T (raw.read [.dwlBytes])
    nsteps := u32FromNeBytes T (raw.read [.nsteps])
    curStep := u32FromNeBytes T (raw.read [.curStep])
    curPercent := u32FromNeBytes T (raw.read [.curPercent])
    curImage := cstrFromBytes (raw.read [.curImage])
    hndName := cstrFromBytes (raw.read [.hndName])
    info := cstrFromBytes (sliceTo (raw.read [.info]) infoLen
      (full ▸ min_le_right _ PRINFOSIZE)) }

theorem length_info (raw : RawProgressMsg T) : (raw.read [.info]).length = PRINFOSIZE := by
  have positive := rawProgressMsg_wellAligned T.longLongAlign
  obtain ⟨offset, found⟩ : ∃ offset,
      (rawProgressMsg T.longLongAlign).place? [.info] = some (offset, u8s PRINFOSIZE) := by
    cases T.longLongAlign <;> exact ⟨_, rfl⟩
  exact raw.length_read positive found

theorem length_info_unpacked (raw : RawProgressMsgUnpacked T) :
    (raw.read [.info]).length = PRINFOSIZE := by
  have positive := rawProgressMsgUnpacked_wellAligned T.longLongAlign
  obtain ⟨offset, found⟩ : ∃ offset,
      (rawProgressMsgUnpacked T.longLongAlign).place? [.info] =
        some (offset, u8s PRINFOSIZE) := by
    cases T.longLongAlign <;> exact ⟨_, rfl⟩
  exact raw.length_read positive found

def ProgressFields.fromRawProgressMsg (raw : RawProgressMsg T) : ProgressFields :=
  .extract T raw (length_info T raw)

def ProgressFields.fromRawProgressMsgUnpacked (raw : RawProgressMsgUnpacked T) : ProgressFields :=
  .extract T raw (length_info_unpacked T raw)

def ProgressEvent.fromFields (f : ProgressFields) : ProgressEvent :=
  match Wire.RecoveryStatus.fromU32 f.status with
  | some .idle => .idle
  | some .start => .started
  | some .download => .downloading f.dwlPercent f.dwlBytes
  | some .run | some .progress =>
      .installing f.curStep f.nsteps f.curPercent f.curImage f.hndName
  | some .success | some .done => .success
  | some .failure => .failed f.info
  | some .subprocess => .installing f.curStep f.nsteps f.curPercent f.curImage f.hndName
  | none => .failed s!"unknown status: {f.status}"

/-- Convert from a packed message. -/
def ProgressEvent.fromRaw (raw : RawProgressMsg T) : ProgressEvent :=
  .fromFields (.fromRawProgressMsg T raw)

/-- Convert from a naturally aligned message. -/
def ProgressEvent.fromRawUnpacked (raw : RawProgressMsgUnpacked T) : ProgressEvent :=
  .fromFields (.fromRawProgressMsgUnpacked T raw)

/-- Whether the update is complete, with success or failure. -/
def ProgressEvent.isTerminal : ProgressEvent → Bool
  | .success | .failed _ => true
  | _ => false

end Decoding

/-! ## Messages before they are laid out -/

/-- A progress message as the daemon means it. -/
structure ProgressMsg where
  apiversion : UInt32
  status : UInt32
  dwlPercent : UInt32
  dwlBytes : UInt64
  nsteps : UInt32
  curStep : UInt32
  curPercent : UInt32
  curImage : List UInt8
  hndName : List UInt8
  source : UInt32
  infolen : UInt32
  info : List UInt8
  length_curImage : curImage.length = 256
  length_hndName : hndName.length = 64
  length_info : info.length = PRINFOSIZE

namespace ProgressMsg

/-- The text before the first NUL, or of all the bytes. -/
def text (bytes : List UInt8) : String := fromUtf8Lossy (bytes.takeWhile (· != 0))

/-- The event a message stands for. -/
def event (m : ProgressMsg) : ProgressEvent :=
  if m.status = Header.RecoveryStatus.idle.code then .idle
  else if m.status = Header.RecoveryStatus.start.code then .started
  else if m.status = Header.RecoveryStatus.download.code then .downloading m.dwlPercent m.dwlBytes
  else if m.status = Header.RecoveryStatus.run.code ∨
      m.status = Header.RecoveryStatus.subprocess.code ∨
      m.status = Header.RecoveryStatus.progress.code then
    .installing m.curStep m.nsteps m.curPercent (text m.curImage) (text m.hndName)
  else if m.status = Header.RecoveryStatus.success.code ∨
      m.status = Header.RecoveryStatus.done.code then .success
  else if m.status = Header.RecoveryStatus.failure.code then
    .failed (text (m.info.take (min m.infolen.toNat Header.PRINFOSIZE)))
  else .failed s!"unknown status: {m.status}"

/-- The members of a message with their bytes. -/
def members (T : Target) (m : ProgressMsg) : List (List Ident × List UInt8) := [
  ([.apiversion], u32ToNeBytes T m.apiversion),
  ([.status], u32ToNeBytes T m.status),
  ([.dwlPercent], u32ToNeBytes T m.dwlPercent),
  ([.dwlBytes], u64ToNeBytes T m.dwlBytes),
  ([.nsteps], u32ToNeBytes T m.nsteps),
  ([.curStep], u32ToNeBytes T m.curStep),
  ([.curPercent], u32ToNeBytes T m.curPercent),
  ([.curImage], m.curImage),
  ([.hndName], m.hndName),
  ([.source], u32ToNeBytes T m.source),
  ([.infolen], u32ToNeBytes T m.infolen),
  ([.info], m.info)]

theorem wellAligned_packed (align : Width) :
    (Header.progressMsgPacked align).wellAligned = true := by
  cases align <;> rfl

theorem wellAligned_unpacked (align : Width) :
    (Header.progressMsgUnpacked align).wellAligned = true := by
  cases align <;> rfl

/-- A message laid out by the packed header, over some bytes. -/
def packed (T : Target) (m : ProgressMsg) (base : Record (Header.progressMsgPacked .eight)) :
    Record (Header.progressMsgPacked .eight) :=
  base.fill (wellAligned_packed .eight) (m.members T)

/-- A message laid out by the naturally aligned header, over some bytes. Those
under the padding stay. -/
def unpacked (T : Target) (m : ProgressMsg) (base : Record (Header.progressMsgUnpacked .eight)) :
    Record (Header.progressMsgUnpacked .eight) :=
  base.fill (wellAligned_unpacked .eight) (m.members T)

/-- The sizes of the members. -/
def memberSizes : List Nat := [4, 4, 4, 8, 4, 4, 4, 256, 64, 4, 4, PRINFOSIZE]

theorem map_length_members (T : Target) (m : ProgressMsg) :
    (m.members T).map (fun f => some f.2.length) = memberSizes.map some := by
  simp only [members, memberSizes, List.map_cons, List.map_nil, length_u32ToNeBytes,
    length_u64ToNeBytes, m.length_curImage, m.length_hndName, m.length_info]

/-- A message laid out over any bytes carries its members, when the layout has a
place of the right size for each of them. -/
theorem carries_laidOut (T : Target) (m : ProgressMsg) {layout : Layout Ident}
    (positive : layout.wellAligned = true) (base : Record layout)
    (sizes : (m.members T).map (fun f => (layout.typeAt? f.1).map Layout.size) =
      memberSizes.map some)
    (apart : ((m.members T).map Prod.fst).Pairwise fun p q => layout.apart p q = true) :
    (base.fill positive (m.members T)).Carries (m.members T) Record.anywhere := by
  have fit : ∀ f ∈ m.members T, Record.Fits layout f :=
    List.map_inj_left.mp (sizes.trans (map_length_members T m).symm)
  exact (Record.carries_anywhere base).fill positive fit (List.pairwise_map.mp apart)

theorem carries_packed (T : Target) (m : ProgressMsg)
    (base : Record (Header.progressMsgPacked .eight)) :
    (m.packed T base).Carries (m.members T) Record.anywhere :=
  m.carries_laidOut T (wellAligned_packed .eight) base rfl (by
    simp only [members, List.map_cons, List.map_nil]
    decide +kernel)

theorem carries_unpacked (T : Target) (m : ProgressMsg)
    (base : Record (Header.progressMsgUnpacked .eight)) :
    (m.unpacked T base).Carries (m.members T) Record.anywhere :=
  m.carries_laidOut T (wellAligned_unpacked .eight) base rfl (by
    simp only [members, List.map_cons, List.map_nil]
    decide +kernel)

/-! ## Decoding what was laid out -/

/-- A message read as the daemon laid it out gives its members. -/
def fields (m : ProgressMsg) : ProgressFields where
  status := m.status
  dwlPercent := m.dwlPercent
  dwlBytes := m.dwlBytes
  nsteps := m.nsteps
  curStep := m.curStep
  curPercent := m.curPercent
  curImage := text m.curImage
  hndName := text m.hndName
  info := text (m.info.take (min m.infolen.toNat 2048))

theorem extract_carried (T : Target) (m : ProgressMsg) {layout : Layout Ident}
    {raw : Record layout} (carried : raw.Carries (m.members T) Record.anywhere)
    (full : (raw.read [.info]).length = PRINFOSIZE) :
    ProgressFields.extract T raw full = m.fields := by
  have read : ∀ {path value}, (path, value) ∈ m.members T → raw.read path = value :=
    fun member => carried.read_of_mem member
  have int : ∀ {name v}, ([name], u32ToNeBytes T v) ∈ m.members T →
      u32FromNeBytes T (raw.read [name]) = v := by
    intro name v member
    rw [carried.read_of_mem member, u32FromNeBytes_u32ToNeBytes]
  have texts : ∀ {name bytes}, ([name], bytes) ∈ m.members T →
      cstrFromBytes (raw.read [name]) = text bytes := by
    intro name bytes member
    rw [carried.read_of_mem member, cstrFromBytes_eq, text]
  have size : (raw.read [.dwlBytes]) = u64ToNeBytes T m.dwlBytes :=
    carried.read_of_mem (by simp [members])
  have info : raw.read [.info] = m.info := carried.read_of_mem (by simp [members])
  have infolen := int (by simp [members] : ([.infolen], u32ToNeBytes T m.infolen) ∈ _)
  simp only [ProgressFields.extract, fields, ProgressFields.mk.injEq]
  refine ⟨int ?_, int ?_, ?_, int ?_, int ?_, int ?_, texts ?_, texts ?_, ?_⟩
  any_goals simp [members]
  · rw [size, u64FromNeBytes_u64ToNeBytes]
  · rw [cstrFromBytes_eq, sliceTo, info, infolen, text]
    rfl

/-- The event of the members is the one the message stands for. -/
theorem fromFields_fields (m : ProgressMsg) : ProgressEvent.fromFields m.fields = m.event := by
  have known : ∀ s : Wire.RecoveryStatus, m.fields.status = s.toU32 →
      Wire.RecoveryStatus.fromU32 m.fields.status = some s :=
    fun s same => RecoveryStatus.fromU32_eq_some.mpr same
  rw [ProgressEvent.fromFields]
  cases parsed : Wire.RecoveryStatus.fromU32 m.fields.status with
  | some s =>
      have code : m.status = s.toU32 := RecoveryStatus.fromU32_eq_some.mp parsed
      rw [event, code]
      cases s <;> rfl
  | none =>
      have other : ∀ s : Wire.RecoveryStatus, m.status ≠ s.toU32 := by
        intro s same
        rw [known s same] at parsed
        cases parsed
      have installing : ¬ (m.status = Header.RecoveryStatus.run.code ∨
          m.status = Header.RecoveryStatus.subprocess.code ∨
          m.status = Header.RecoveryStatus.progress.code) := by
        rintro (run | subprocess | progress)
        exacts [other .run run, other .subprocess subprocess, other .progress progress]
      have success : ¬ (m.status = Header.RecoveryStatus.success.code ∨
          m.status = Header.RecoveryStatus.done.code) := by
        rintro (success | done)
        exacts [other .success success, other .done done]
      have failed : m.event = .failed s!"unknown status: {m.status}" :=
        (if_neg (other .idle)).trans ((if_neg (other .start)).trans
          ((if_neg (other .download)).trans ((if_neg installing).trans
            ((if_neg success).trans (if_neg (other .failure))))))
      rw [failed]
      rfl

/-- The same bytes carry a message under every layout that places its members
alike. -/
theorem carries_reread (T : Target) (m : ProgressMsg) {layout layout' : Layout Ident}
    {r : Record layout} (carried : r.Carries (m.members T) Record.anywhere) (r' : Record layout')
    (bytes : r'.bytes = r.bytes)
    (agree : (m.members T).map (fun f => layout'.span? f.1) =
      (m.members T).map fun f => layout.span? f.1) :
    r'.Carries (m.members T) Record.anywhere := by
  have relabelled := carried.relabel id r' bytes (List.map_inj_left.mp agree)
  exact (List.map_id (m.members T)) ▸ relabelled

/-- **Both layouts decode alike.** A message, laid out by either header over any
bytes, decodes to the event it stands for. The slice of the failure text is in
bounds. -/
theorem layouts_decode_alike (T : Target) (m : ProgressMsg)
    (base : Record (Header.progressMsgPacked .eight))
    (base' : Record (Header.progressMsgUnpacked .eight)) :
    ∃ (raw : RawProgressMsg T) (raw' : RawProgressMsgUnpacked T),
      raw.bytes = (m.packed T base).bytes ∧ raw'.bytes = (m.unpacked T base').bytes ∧
      raw.bytes.length = 2408 ∧ raw'.bytes.length = 2416 ∧
      ProgressEvent.fromRaw T raw = m.event ∧ ProgressEvent.fromRawUnpacked T raw' = m.event ∧
      min m.infolen.toNat PRINFOSIZE ≤ (raw.read [.info]).length ∧
      min m.infolen.toNat PRINFOSIZE ≤ (raw'.read [.info]).length := by
  have size : (Header.progressMsgPacked .eight).size = (rawProgressMsg T.longLongAlign).size := by
    rw [size_rawProgressMsg]
    rfl
  have size' : (Header.progressMsgUnpacked .eight).size =
      (rawProgressMsgUnpacked T.longLongAlign).size := by
    rw [size_rawProgressMsgUnpacked]
    rfl
  let raw : RawProgressMsg T := ⟨(m.packed T base).bytes, (m.packed T base).length_eq.trans size⟩
  let raw' : RawProgressMsgUnpacked T :=
    ⟨(m.unpacked T base').bytes, (m.unpacked T base').length_eq.trans size'⟩
  have carried : raw.Carries (m.members T) Record.anywhere :=
    m.carries_reread T (m.carries_packed T base) raw rfl (by cases T.longLongAlign <;> rfl)
  have carried' : raw'.Carries (m.members T) Record.anywhere :=
    m.carries_reread T (m.carries_unpacked T base') raw' rfl (by cases T.longLongAlign <;> rfl)
  refine ⟨raw, raw', rfl, rfl, raw.length_eq.trans (size_rawProgressMsg _),
    raw'.length_eq.trans (size_rawProgressMsgUnpacked _), ?_, ?_, ?_, ?_⟩
  · rw [ProgressEvent.fromRaw, ProgressFields.fromRawProgressMsg, m.extract_carried T carried,
      fromFields_fields]
  · rw [ProgressEvent.fromRawUnpacked, ProgressFields.fromRawProgressMsgUnpacked,
      m.extract_carried T carried', fromFields_fields]
  · rw [SwupdateIpc.length_info]
    exact min_le_right _ _
  · rw [length_info_unpacked]
    exact min_le_right _ _

end ProgressMsg

end SwupdateIpc
