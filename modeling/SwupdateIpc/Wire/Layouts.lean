import SwupdateIpc.Foundations.RecordLayout

/-!
# The structs of the wire

The messages are structs of C, declared twice: in the headers of the daemon and,
as `repr(C)` types, in the client. This module gives both lists of declarations,
each in its own order and with its own types, and the constants and enumerations of
the headers. What the two have to do with each other is proved and not assumed.

The layouts depend on the target: the messages of the control socket on the
width of `size_t`, those of the progress socket on the alignment of
`unsigned long long` in a struct. A target also fixes the byte order, and what a
copy of a struct leaves in its padding.
-/

set_option autoImplicit false

namespace SwupdateIpc

open Foundations

/-- A width or an alignment of four or of eight bytes. -/
inductive Width where
  | four
  | eight
  deriving DecidableEq, Repr

def Width.bytes : Width → Nat
  | .four => 4
  | .eight => 8

/-- What the platform decides about a struct in memory. -/
structure Target where
  order : ByteOrder
  sizeT : Width
  longLongAlign : Width
  padding : Nat → UInt8

/-- The 64-bit platform of a PC. Its copies leave zeros in the padding. -/
def Target.x86_64 : Target where
  order := .little
  sizeT := .eight
  longLongAlign := .eight
  padding := fun _ => 0

/-- The names of the struct members. -/
inductive Ident where
  | magic | msgType | type | data
  | msg | status | notify | instmsg | procmsg | aeskeymsg | versions | revisions | vars | dwlUrl
  | current | lastResult | error | desc | level | req | len | buf | source | cmd | timeout
  | keyAscii | ivtAscii | minimumVersion | maximumVersion | currentVersion | updateType
  | boardname | revision | varnamespace | varname | varvalue | filename | url
  | apiversion | dryRun | info | softwareSet | runningMode | disableStoreSwu
  | dwlPercent | padAlign | dwlBytes | nsteps | curStep | curPercent | curImage | hndName
  | infolen | padTail
  deriving DecidableEq, Repr

/-- Members written as a list. -/
def members : List (Ident × Layout Ident) → Members Ident
  | [] => .nil
  | (name, layout) :: rest => .cons name layout (members rest)

/-! ## The client's declarations -/

namespace Wire

def u8 : Layout Ident := .scalar 1 1 (some .unsigned)
def u32 : Layout Ident := .scalar 4 4 (some .unsigned)
def i32 : Layout Ident := .scalar 4 4 (some .signed)
def u64 (align : Width) : Layout Ident := .scalar 8 align.bytes (some .unsigned)
def usize (width : Width) : Layout Ident := .scalar width.bytes width.bytes (some .unsigned)
def u8s (count : Nat) : Layout Ident := .array u8 count

/-- `#[repr(C)]`. -/
def reprC (fields : List (Ident × Layout Ident)) : Layout Ident := .record .aligned (members fields)

/-- `#[repr(C, packed)]`. -/
def reprCPacked (fields : List (Ident × Layout Ident)) : Layout Ident :=
  .record .packed (members fields)

/-- A `#[repr(C)]` union. -/
def reprCUnion (fields : List (Ident × Layout Ident)) : Layout Ident :=
  .record .overlaid (members fields)

def PRINFOSIZE : Nat := 2048

def rawProgressMsg (align : Width) : Layout Ident :=
  reprCPacked [
    (.apiversion, u32), (.status, u32), (.dwlPercent, u32), (.dwlBytes, u64 align), (.nsteps, u32),
    (.curStep, u32), (.curPercent, u32), (.curImage, u8s 256), (.hndName, u8s 64),
    (.source, u32), (.infolen, u32), (.info, u8s PRINFOSIZE)]

def rawProgressMsgUnpacked (align : Width) : Layout Ident :=
  reprC [
    (.apiversion, u32), (.status, u32), (.dwlPercent, u32), (.padAlign, u32),
    (.dwlBytes, u64 align), (.nsteps, u32), (.curStep, u32), (.curPercent, u32),
    (.curImage, u8s 256), (.hndName, u8s 64), (.source, u32), (.infolen, u32),
    (.info, u8s PRINFOSIZE), (.padTail, u32)]

def rawProgressAck : Layout Ident := reprC [(.apiversion, u32), (.magic, u8s 4)]

def rawSwupdateRequest (width : Width) : Layout Ident :=
  reprC [
    (.apiversion, u32), (.source, i32), (.dryRun, i32), (.len, usize width), (.info, u8s 512),
    (.softwareSet, u8s 256), (.runningMode, u8s 256), (.disableStoreSwu, u8)]

def rawStatusData : Layout Ident :=
  reprC [(.current, i32), (.lastResult, i32), (.error, i32), (.desc, u8s 2048)]

def rawNotifyData : Layout Ident :=
  reprC [(.status, i32), (.error, i32), (.level, i32), (.msg, u8s 2048)]

def rawInstMsgData (width : Width) : Layout Ident :=
  reprC [(.req, rawSwupdateRequest width), (.len, u32), (.buf, u8s 2048)]

def rawProcMsgData : Layout Ident :=
  reprC [(.source, i32), (.cmd, i32), (.timeout, i32), (.len, u32), (.buf, u8s 2048)]

def rawAesKeyData : Layout Ident := reprC [(.keyAscii, u8s 65), (.ivtAscii, u8s 33)]

def rawVersionsData : Layout Ident :=
  reprC [
    (.minimumVersion, u8s 256), (.maximumVersion, u8s 256), (.currentVersion, u8s 256),
    (.updateType, u8s 256)]

def rawRevisionsData : Layout Ident := reprC [(.boardname, u8s 256), (.revision, u8s 256)]

def rawVarsData : Layout Ident :=
  reprC [(.varnamespace, u8s 256), (.varname, u8s 256), (.varvalue, u8s 256)]

def rawDwlUrlData : Layout Ident := reprC [(.filename, u8s 256), (.url, u8s 1024)]

def rawMsgData (width : Width) : Layout Ident :=
  reprCUnion [
    (.msg, u8s 128), (.status, rawStatusData), (.notify, rawNotifyData),
    (.instmsg, rawInstMsgData width), (.procmsg, rawProcMsgData), (.aeskeymsg, rawAesKeyData),
    (.versions, rawVersionsData), (.revisions, rawRevisionsData), (.vars, rawVarsData),
    (.dwlUrl, rawDwlUrlData)]

def rawIpcMessage (width : Width) : Layout Ident :=
  reprC [(.magic, i32), (.msgType, i32), (.data, rawMsgData width)]

end Wire

/-! ## The daemon's declarations -/

namespace Header

def IPC_MAGIC : Int32 := 0x14052001
def SWUPDATE_API_VERSION : UInt32 := 0x1

def PRINFOSIZE : Nat := 2048

def PROGRESS_API_MAJOR : UInt32 := 2
def PROGRESS_API_MINOR : UInt32 := 0
def PROGRESS_API_PATCH : UInt32 := 0
def PROGRESS_API_VERSION : UInt32 :=
  (PROGRESS_API_MAJOR &&& 0xFFFF) <<< 16 ||| (PROGRESS_API_MINOR &&& 0xFF) <<< 8 |||
    (PROGRESS_API_PATCH &&& 0xFF)

def PROGRESS_CONNECT_ACK_MAGIC : String := "ACK"

/-- `msgtype`. -/
inductive Msgtype where
  | reqInstall
  | ack
  | nack
  | getStatus
  | postUpdate
  | swupdateSubprocess
  | setAesKey
  | setUpdateState
  | getUpdateState
  | reqInstallExt
  | setVersionsRange
  | notifyStream
  | getHwRevision
  | setSwupdateVars
  | getSwupdateVars
  | setDeltaUrl
  deriving DecidableEq, Repr

/-- C numbers the enumerators from zero on, in the order of their declaration. -/
def Msgtype.value (e : Msgtype) : Int32 := Int32.ofNat e.ctorIdx

/-- The enumerator that a `switch` finds for a value. -/
def Msgtype.ofValue? (v : Int32) : Option Msgtype :=
  [reqInstall, ack, nack, getStatus, postUpdate, swupdateSubprocess, setAesKey, setUpdateState,
    getUpdateState, reqInstallExt, setVersionsRange, notifyStream, getHwRevision, setSwupdateVars,
    getSwupdateVars, setDeltaUrl].find? fun e => e.value == v

/-- `enum run_type`. -/
inductive RunType where
  | runDefault
  | runDryrun
  | runInstall
  deriving DecidableEq, Repr

def RunType.value (e : RunType) : Int32 := Int32.ofNat e.ctorIdx

/-- `RECOVERY_STATUS`. -/
inductive RecoveryStatus where
  | idle
  | start
  | run
  | success
  | failure
  | download
  | done
  | subprocess
  | progress
  deriving DecidableEq, Repr

def RecoveryStatus.value (e : RecoveryStatus) : Int32 := Int32.ofNat e.ctorIdx

/-- The value in a progress message, where it has no sign. -/
def RecoveryStatus.code (e : RecoveryStatus) : UInt32 := UInt32.ofNat e.ctorIdx

/-- `sourcetype`. -/
inductive Sourcetype where
  | sourceUnknown
  | sourceWebserver
  | sourceSuricatta
  | sourceDownloader
  | sourceLocal
  | sourceChunksDownloader
  deriving DecidableEq, Repr

def Sourcetype.value (e : Sourcetype) : Int32 := Int32.ofNat e.ctorIdx

/-- C leaves the sign of a `char` to the implementation. -/
def char : Layout Ident := .scalar 1 1 none

def bool : Layout Ident := .scalar 1 1 (some .unsigned)
def int : Layout Ident := .scalar 4 4 (some .signed)
def unsignedInt : Layout Ident := .scalar 4 4 (some .unsigned)
def uint32T : Layout Ident := .scalar 4 4 (some .unsigned)

/-- An enumeration of C, as wide as `int`. C leaves its sign to the implementation. -/
def enum : Layout Ident := .scalar 4 4 none

def sizeT (width : Width) : Layout Ident := .scalar width.bytes width.bytes (some .unsigned)

def unsignedLongLong (align : Width) : Layout Ident :=
  .scalar 8 align.bytes (some .unsigned)
def chars (count : Nat) : Layout Ident := .array char count

def struct (fields : List (Ident × Layout Ident)) : Layout Ident :=
  .record .aligned (members fields)

/-- A struct with `__attribute__ ((__packed__))`. -/
def packedStruct (fields : List (Ident × Layout Ident)) : Layout Ident :=
  .record .packed (members fields)

def union (fields : List (Ident × Layout Ident)) : Layout Ident :=
  .record .overlaid (members fields)

/-- `struct swupdate_request`. -/
def swupdateRequest (width : Width) : Layout Ident :=
  struct [
    (.apiversion, unsignedInt), (.source, enum), (.dryRun, enum), (.len, sizeT width),
    (.info, chars 512), (.softwareSet, chars 256), (.runningMode, chars 256),
    (.disableStoreSwu, bool)]

/-- The union `msgdata`. -/
def msgdata (width : Width) : Layout Ident :=
  union [
    (.msg, chars 128),
    (.status, struct [
      (.current, int), (.lastResult, int), (.error, int), (.desc, chars 2048)]),
    (.notify, struct [(.status, int), (.error, int), (.level, int), (.msg, chars 2048)]),
    (.instmsg, struct [
      (.req, swupdateRequest width), (.len, unsignedInt), (.buf, chars 2048)]),
    (.procmsg, struct [
      (.source, enum), (.cmd, int), (.timeout, int), (.len, unsignedInt), (.buf, chars 2048)]),
    (.aeskeymsg, struct [(.keyAscii, chars 65), (.ivtAscii, chars 33)]),
    (.versions, struct [
      (.minimumVersion, chars 256), (.maximumVersion, chars 256),
      (.currentVersion, chars 256), (.updateType, chars 256)]),
    (.revisions, struct [(.boardname, chars 256), (.revision, chars 256)]),
    (.vars, struct [(.varnamespace, chars 256), (.varname, chars 256), (.varvalue, chars 256)]),
    (.dwlUrl, struct [(.filename, chars 256), (.url, chars 1024)])]

/-- `ipc_message`. -/
def ipcMessage (width : Width) : Layout Ident :=
  struct [(.magic, int), (.type, int), (.data, msgdata width)]

/-- `struct progress_connect_ack`. -/
def progressConnectAck : Layout Ident := struct [(.apiversion, uint32T), (.magic, chars 4)]

/-- `struct progress_msg` of the packed header. -/
def progressMsgPacked (align : Width) : Layout Ident :=
  packedStruct [
    (.apiversion, uint32T), (.status, uint32T), (.dwlPercent, uint32T),
    (.dwlBytes, unsignedLongLong align), (.nsteps, uint32T), (.curStep, uint32T),
    (.curPercent, uint32T), (.curImage, chars 256), (.hndName, chars 64), (.source, uint32T),
    (.infolen, uint32T), (.info, chars PRINFOSIZE)]

/-- `struct progress_msg` of the unpacked header. -/
def progressMsgUnpacked (align : Width) : Layout Ident :=
  struct [
    (.apiversion, unsignedInt), (.status, enum), (.dwlPercent, unsignedInt),
    (.dwlBytes, unsignedLongLong align), (.nsteps, unsignedInt), (.curStep, unsignedInt),
    (.curPercent, unsignedInt), (.curImage, chars 256), (.hndName, chars 64), (.source, enum),
    (.infolen, unsignedInt), (.info, chars PRINFOSIZE)]

end Header

end SwupdateIpc
