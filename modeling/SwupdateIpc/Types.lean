import Mathlib.Tactic.IntervalCases
import SwupdateIpc.Wire.Messages

/-!
# The types of the client's interface

The enumerations of the interface with their codes on the wire, the request of
an installation, and the values that the queries return.
-/

set_option autoImplicit false

namespace SwupdateIpc

open Foundations Wire

/-- Source that triggered the update. -/
inductive Source where
  | unknown
  | webserver
  | suricatta
  | downloader
  | local
  | chunksDownloader
  deriving DecidableEq, Repr

def Source.toWire : Source → Int32
  | .unknown => 0
  | .webserver => 1
  | .suricatta => 2
  | .downloader => 3
  | .local => 4
  | .chunksDownloader => 5

/-- An unknown code is an unknown source. -/
def Source.fromWire (v : Int32) : Source :=
  match v with
  | 1 => .webserver
  | 2 => .suricatta
  | 3 => .downloader
  | 4 => .local
  | 5 => .chunksDownloader
  | _ => .unknown

theorem Source.fromWire_toWire (s : Source) : Source.fromWire s.toWire = s := by
  cases s <;> rfl

/-- Execution mode for an install request. -/
inductive RunMode where
  | default
  | dryRun
  | install
  deriving DecidableEq, Repr

def RunMode.toWire : RunMode → Int32
  | .default => 0
  | .dryRun => 1
  | .install => 2

/-- Bootloader update state, on the wire the characters `'0'` to `'7'`. -/
inductive UpdateState where
  | ok
  | installed
  | testing
  | failed
  | notAvailable
  | error
  | wait
  | inProgress
  deriving DecidableEq, Repr

def UpdateState.toWire : UpdateState → Int32
  | .ok => 48
  | .installed => 49
  | .testing => 50
  | .failed => 51
  | .notAvailable => 52
  | .error => 53
  | .wait => 54
  | .inProgress => 55

def UpdateState.fromWire (v : Int32) : Option UpdateState :=
  if v = 48 then some .ok
  else if v = 49 then some .installed
  else if v = 50 then some .testing
  else if v = 51 then some .failed
  else if v = 52 then some .notAvailable
  else if v = 53 then some .error
  else if v = 54 then some .wait
  else if v = 55 then some .inProgress
  else none

/-- The codes parsed are those of the states, and no others. -/
theorem UpdateState.fromWire_eq_some {v : Int32} {s : UpdateState} :
    UpdateState.fromWire v = some s ↔ v = s.toWire := by
  constructor
  · intro parsed
    unfold UpdateState.fromWire at parsed
    repeat' split at parsed
    all_goals first | cases parsed; assumption | cases parsed
  · rintro rfl
    cases s <;> rfl

/-- The codes parsed are the characters `'0'` to `'7'`. -/
theorem UpdateState.fromWire_isSome_iff {v : Int32} :
    (UpdateState.fromWire v).isSome = true ↔ 48 ≤ v.toInt ∧ v.toInt ≤ 55 := by
  constructor
  · intro parsed
    obtain ⟨s, found⟩ := Option.isSome_iff_exists.mp parsed
    rw [UpdateState.fromWire_eq_some.mp found]
    cases s <;> decide
  · rintro ⟨low, high⟩
    have back := Int32.ofInt_toInt v
    generalize v.toInt = n at low high back
    subst back
    interval_cases n <;> rfl

/-- Subprocess command. -/
inductive SubprocessCmd where
  | activation
  | config
  | enable
  | getStatus
  | setDownloadUrl
  deriving DecidableEq, Repr

def SubprocessCmd.toWire : SubprocessCmd → Int32
  | .activation => 0
  | .config => 1
  | .enable => 2
  | .getStatus => 3
  | .setDownloadUrl => 4

/-- Recovery status, used in the replies to status queries. -/
inductive RecoveryStatus where
  | idle
  | start
  | run
  | success
  | failure
  | download
  | done
  | subprocess
  | progress
  deriving DecidableEq, Repr

def RecoveryStatus.toWire : RecoveryStatus → Int32
  | .idle => 0
  | .start => 1
  | .run => 2
  | .success => 3
  | .failure => 4
  | .download => 5
  | .done => 6
  | .subprocess => 7
  | .progress => 8

def RecoveryStatus.fromWire (v : Int32) : Option RecoveryStatus :=
  match v with
  | 0 => some .idle
  | 1 => some .start
  | 2 => some .run
  | 3 => some .success
  | 4 => some .failure
  | 5 => some .download
  | 6 => some .done
  | 7 => some .subprocess
  | 8 => some .progress
  | _ => none

theorem RecoveryStatus.fromWire_eq_some {v : Int32} {s : RecoveryStatus} :
    RecoveryStatus.fromWire v = some s ↔ v = s.toWire := by
  constructor
  · intro parsed
    unfold RecoveryStatus.fromWire at parsed
    split at parsed <;> cases parsed <;> rfl
  · rintro rfl
    cases s <;> rfl

/-- The codes parsed are those from 0 to 8. -/
theorem RecoveryStatus.fromWire_isSome_iff {v : Int32} :
    (RecoveryStatus.fromWire v).isSome = true ↔ 0 ≤ v.toInt ∧ v.toInt ≤ 8 := by
  constructor
  · intro parsed
    obtain ⟨s, found⟩ := Option.isSome_iff_exists.mp parsed
    rw [RecoveryStatus.fromWire_eq_some.mp found]
    cases s <;> decide
  · rintro ⟨low, high⟩
    have back := Int32.ofInt_toInt v
    generalize v.toInt = n at low high back
    subst back
    interval_cases n <;> rfl

/-- Configuration of an install request. -/
structure InstallRequest where
  source : Source
  mode : RunMode
  info : String
  softwareSet : Option String
  runningMode : Option String
  len : Option UInt64
  storeSwu : Bool
  deriving DecidableEq, Repr

/-- A new install request with default settings. -/
def InstallRequest.new : InstallRequest where
  source := .local
  mode := .default
  info := ""
  softwareSet := none
  runningMode := none
  len := none
  storeSwu := true

/-- `n as usize`. -/
def asUsize (T : Target) (n : UInt64) : Nat := n.toNat % 256 ^ T.sizeT.bytes

/-- Convert to the wire format. -/
def InstallRequest.toRaw (T : Target) (self : InstallRequest) : RawSwupdateRequest T :=
  let req := RawSwupdateRequest.zeroed T
  let req := req.store [.apiversion] (u32ToNeBytes T SWUPDATE_API_VERSION)
  let req := req.store [.source] (i32ToNeBytes T self.source.toWire)
  let req := req.store [.dryRun] (i32ToNeBytes T self.mode.toWire)
  let req := req.store [.len] (usizeToNeBytes T (asUsize T (self.len.getD 0)))
  let req := req.storeCstr [.info] self.info
  let req := match self.softwareSet with
    | some set => req.storeCstr [.softwareSet] set
    | none => req
  let req := match self.runningMode with
    | some mode => req.storeCstr [.runningMode] mode
    | none => req
  req.store [.disableStoreSwu] [if self.storeSwu then 0 else 1]

/-- Current update status returned by a status query. -/
structure UpdateStatus where
  current : RecoveryStatus
  lastResult : RecoveryStatus
  error : Int32
  description : String
  deriving DecidableEq, Repr

/-- Hardware revision. -/
structure HwRevision where
  boardname : String
  revision : String
  deriving DecidableEq, Repr

/-- A variable of the daemon. -/
structure SwupdateVar where
  varNamespace : String
  name : String
  value : String
  deriving DecidableEq, Repr

end SwupdateIpc
