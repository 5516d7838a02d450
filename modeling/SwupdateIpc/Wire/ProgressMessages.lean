import SwupdateIpc.Wire.Messages

/-!
# The messages of the progress socket

The server first sends an acknowledgement, and then progress messages of one of
two layouts: packed since one version of the daemon, naturally aligned before
it. Both have a fixed size, and `ProgressLayout.msgSize` is the size of the
client's own struct for each (`size_rawProgressMsg`,
`size_rawProgressMsgUnpacked`).
-/

set_option autoImplicit false

namespace SwupdateIpc

open Foundations

namespace Wire

/-- The status codes of the daemon. -/
inductive RecoveryStatus where
  | idle
  | start
  | run
  | success
  | failure
  | download
  | done
  | subprocess
  | progress
  deriving DecidableEq, Repr

def RecoveryStatus.fromU32 (v : UInt32) : Option RecoveryStatus :=
  match v with
  | 0 => some .idle
  | 1 => some .start
  | 2 => some .run
  | 3 => some .success
  | 4 => some .failure
  | 5 => some .download
  | 6 => some .done
  | 7 => some .subprocess
  | 8 => some .progress
  | _ => none

/-- The discriminant. -/
def RecoveryStatus.toU32 : RecoveryStatus → UInt32
  | .idle => 0
  | .start => 1
  | .run => 2
  | .success => 3
  | .failure => 4
  | .download => 5
  | .done => 6
  | .subprocess => 7
  | .progress => 8

/-- The codes are those of the declared statuses, and no others. -/
theorem RecoveryStatus.fromU32_eq_some {v : UInt32} {s : RecoveryStatus} :
    RecoveryStatus.fromU32 v = some s ↔ v = s.toU32 := by
  constructor
  · intro parsed
    unfold RecoveryStatus.fromU32 at parsed
    split at parsed <;> cases parsed <;> rfl
  · rintro rfl
    cases s <;> rfl

def PROGRESS_MSG_SIZE_PACKED : Nat := 2408
def PROGRESS_MSG_SIZE_UNPACKED : Nat := 2416

/-- The layout of the progress messages, which the version of the daemon
determines. -/
inductive ProgressLayout where
  | packed
  | unpacked
  deriving DecidableEq, Repr

def ProgressLayout.msgSize : ProgressLayout → Nat
  | .packed => PROGRESS_MSG_SIZE_PACKED
  | .unpacked => PROGRESS_MSG_SIZE_UNPACKED

/-- A packed progress message. -/
abbrev RawProgressMsg (T : Target) := Record (rawProgressMsg T.longLongAlign)

/-- A naturally aligned progress message. -/
abbrev RawProgressMsgUnpacked (T : Target) := Record (rawProgressMsgUnpacked T.longLongAlign)

/-- The acknowledgement of a connection to the progress socket. -/
abbrev RawProgressAck := Record rawProgressAck

theorem size_rawProgressMsg (align : Width) :
    (rawProgressMsg align).size = PROGRESS_MSG_SIZE_PACKED := by
  cases align <;> rfl

theorem size_rawProgressMsgUnpacked (align : Width) :
    (rawProgressMsgUnpacked align).size = PROGRESS_MSG_SIZE_UNPACKED := by
  cases align <;> rfl

theorem rawProgressMsg_wellAligned (align : Width) : (rawProgressMsg align).wellAligned = true := by
  cases align <;> rfl

theorem rawProgressMsgUnpacked_wellAligned (align : Width) :
    (rawProgressMsgUnpacked align).wellAligned = true := by
  cases align <;> rfl

def u64ToNeBytes (T : Target) (v : UInt64) : List UInt8 := T.order.encode 8 v.toNat

def u64FromNeBytes (T : Target) (bs : List UInt8) : UInt64 := UInt64.ofNat (T.order.decode bs)

@[simp] theorem length_u64ToNeBytes (T : Target) (v : UInt64) : (u64ToNeBytes T v).length = 8 :=
  T.order.length_encode 8 _

theorem u64FromNeBytes_u64ToNeBytes (T : Target) (v : UInt64) :
    u64FromNeBytes T (u64ToNeBytes T v) = v := by
  have small : v.toNat < 256 ^ 8 := v.toNat_lt
  rw [u64FromNeBytes, u64ToNeBytes, ByteOrder.decode_encode, Nat.mod_eq_of_lt small,
    UInt64.ofNat_toNat]

end Wire

end SwupdateIpc
