import SwupdateIpc.Types
import SwupdateIpc.Wire.ProgressMessages

/-!
# Codes under the daemon's declarations

The client writes out the codes of its enumerations. The headers give theirs by position.
Each type of message, source, mode and status of the client stands for one enumerator, and
its code is the value of that enumerator. The type of a message that arrives is read as the
enumerator with its code, and the client knows all of them (`MsgType.enumerator_fromI32`).

The states of an update and the commands of a subprocess are declared in headers of the
daemon that the repository does not have.
-/

set_option autoImplicit false

namespace SwupdateIpc

open Foundations Wire

def Wire.MsgType.enumerator : MsgType → Header.Msgtype
  | .reqInstall => .reqInstall
  | .ack => .ack
  | .nack => .nack
  | .getStatus => .getStatus
  | .postUpdate => .postUpdate
  | .swupdateSubprocess => .swupdateSubprocess
  | .setAesKey => .setAesKey
  | .setUpdateState => .setUpdateState
  | .getUpdateState => .getUpdateState
  | .reqInstallExt => .reqInstallExt
  | .setVersionsRange => .setVersionsRange
  | .notifyStream => .notifyStream
  | .getHwRevision => .getHwRevision
  | .setSwupdateVars => .setSwupdateVars
  | .getSwupdateVars => .getSwupdateVars
  | .setDeltaUrl => .setDeltaUrl

def Source.enumerator : Source → Header.Sourcetype
  | .unknown => .sourceUnknown
  | .webserver => .sourceWebserver
  | .suricatta => .sourceSuricatta
  | .downloader => .sourceDownloader
  | .local => .sourceLocal
  | .chunksDownloader => .sourceChunksDownloader

def RunMode.enumerator : RunMode → Header.RunType
  | .default => .runDefault
  | .dryRun => .runDryrun
  | .install => .runInstall

def RecoveryStatus.enumerator : RecoveryStatus → Header.RecoveryStatus
  | .idle => .idle
  | .start => .start
  | .run => .run
  | .success => .success
  | .failure => .failure
  | .download => .download
  | .done => .done
  | .subprocess => .subprocess
  | .progress => .progress

theorem Wire.MsgType.toI32_eq (t : MsgType) : t.toI32 = t.enumerator.value := by
  cases t <;> rfl

theorem Source.toWire_eq (s : Source) : s.toWire = s.enumerator.value := by
  cases s <;> rfl

theorem RunMode.toWire_eq (m : RunMode) : m.toWire = m.enumerator.value := by
  cases m <;> rfl

theorem RecoveryStatus.toWire_eq (s : RecoveryStatus) : s.toWire = s.enumerator.value := by
  cases s <;> rfl

theorem Wire.MsgType.enumerator_surjective : Function.Surjective MsgType.enumerator := by
  intro e
  cases e
  exacts [⟨.reqInstall, rfl⟩, ⟨.ack, rfl⟩, ⟨.nack, rfl⟩, ⟨.getStatus, rfl⟩, ⟨.postUpdate, rfl⟩,
    ⟨.swupdateSubprocess, rfl⟩, ⟨.setAesKey, rfl⟩, ⟨.setUpdateState, rfl⟩,
    ⟨.getUpdateState, rfl⟩, ⟨.reqInstallExt, rfl⟩, ⟨.setVersionsRange, rfl⟩,
    ⟨.notifyStream, rfl⟩, ⟨.getHwRevision, rfl⟩, ⟨.setSwupdateVars, rfl⟩,
    ⟨.getSwupdateVars, rfl⟩, ⟨.setDeltaUrl, rfl⟩]

theorem Header.Msgtype.ofValue?_value (e : Header.Msgtype) :
    Header.Msgtype.ofValue? e.value = some e := by
  cases e <;> rfl

/-- **The type of a message is parsed as the header numbers it.** -/
theorem Wire.MsgType.enumerator_fromI32 (v : Int32) :
    (MsgType.fromI32 v).map MsgType.enumerator = Header.Msgtype.ofValue? v := by
  cases parsed : MsgType.fromI32 v with
  | some t =>
      rw [MsgType.fromI32_eq_some.mp parsed, t.toI32_eq, Header.Msgtype.ofValue?_value]
      rfl
  | none =>
      symm
      refine List.find?_eq_none.mpr fun e _ same => ?_
      obtain ⟨t, rfl⟩ := MsgType.enumerator_surjective e
      rw [← t.toI32_eq, beq_iff_eq] at same
      rw [← same, MsgType.fromI32_toI32] at parsed
      cases parsed

end SwupdateIpc
