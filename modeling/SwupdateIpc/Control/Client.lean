import SwupdateIpc.Socket
import SwupdateIpc.Types

/-!
# The client of the control socket

The operations of the client as asynchronous programs over its own two fields.
Each of the twelve requests builds a message from zeros, sends it, and reads one
message; eight of them look at the type of the reply (`sendAndExpectAck`), and
four decode a member of its union (`sendAndReceive`).

An accepted install request gives a handle, on which images are streamed. The
loop of `stream` reads into one buffer and sends the part just read; it takes
the number of rounds it may make, and waits for ever after the last one.
-/

set_option autoImplicit false

namespace SwupdateIpc

open Foundations Wire

/-- In which capacity a byte is sent: as part of a request, or of an image. -/
inductive Origin where
  | request
  | image
  deriving DecidableEq, Repr

/-- Client for the control socket. -/
structure ControlClient where
  stream : Nat
  config : SocketConfig
  deriving DecidableEq, Repr

/-- Handle for an in-progress installation. It borrows the client. -/
structure Installation where
  deriving DecidableEq, Repr

/-- The state of the client is the state of its programs. -/
abbrev ControlM (α : Type) := IpcM ControlClient α

namespace ControlClient

variable (T : Target)

/-- Connect with a custom socket configuration. -/
def connect (config : SocketConfig) : ControlM Unit := do
  let stream ← config.connectCtrl
  set { stream := stream, config := config : ControlClient }

/-- Reconnect to the control socket. -/
def reconnect : ControlM Unit := do
  let self ← get
  let _ ← await (.shutdown self.stream)
  let stream ← self.config.connectCtrl
  set { self with stream := stream }

/-- Send a message and receive the response. -/
def sendAndReceive (msg : RawIpcMessage T) : ControlM (RawIpcMessage T) := do
  let self ← get
  let bytes := ipcMessageToBytes msg
  orConnection (← await (.writeAll self.stream bytes))
  let buf ← orConnection (← await (.readExact self.stream (sizeOfMessage T)))
  match ipcMessageFromBytes T buf with
  | some resp => pure resp
  | none => Async.throw (.protocol "response size mismatch")

/-- What `{:?}` prints for the parsed type of a message. -/
def debugType : Option MsgType → String
  | some t => s!"Some({t.debug})"
  | none => "None"

/-- Send a message and wait for ACK. -/
def sendAndExpectAck (msg : RawIpcMessage T) : ControlM Unit := do
  let resp ← sendAndReceive T msg
  match resp.msgType with
  | some .ack => pure ()
  | some .nack => Async.throw .rejected
  | other => Async.throw (.protocol s!"expected ACK/NACK, got {debugType other}")

/-! ## Installation -/

/-- Send an install request and return a handle for streaming. -/
def install (req : InstallRequest) : ControlM Installation := do
  let msg := RawIpcMessage.new T .reqInstall
  let msg := msg.store [.data, .instmsg, .req] ((req.toRaw T).copied T.padding)
  let msg := msg.store [.data, .instmsg, .len] (u32ToNeBytes T 0)
  sendAndExpectAck T msg
  pure {}

/-! ## Status and state -/

/-- Query the current update status. -/
def getStatus : ControlM UpdateStatus := do
  let msg := RawIpcMessage.new T .getStatus
  let resp ← sendAndReceive T msg
  let current := resp.i32At [.data, .status, .current]
  let lastResult := resp.i32At [.data, .status, .lastResult]
  let error := resp.i32At [.data, .status, .error]
  let desc := cstrFromBytes (resp.read [.data, .status, .desc])
  match RecoveryStatus.fromWire current with
  | none => Async.throw (.protocol s!"invalid status: {current}")
  | some current =>
    match RecoveryStatus.fromWire lastResult with
    | none => Async.throw (.protocol s!"invalid last_result: {lastResult}")
    | some lastResult =>
      pure { current := current, lastResult := lastResult, error := error, description := desc }

/-- Query the bootloader update state. -/
def getUpdateState : ControlM UpdateState := do
  let msg := RawIpcMessage.new T .getUpdateState
  let resp ← sendAndReceive T msg
  let val := i32FromNeBytes T ((resp.read [.data, .msg]).take 4)
  match UpdateState.fromWire val with
  | some state => pure state
  | none => Async.throw (.protocol s!"invalid update state: {val}")

/-- Set the bootloader update state. -/
def setUpdateState (state : UpdateState) : ControlM Unit := do
  let msg := RawIpcMessage.new T .setUpdateState
  let msg := msg.store [.data, .msg]
    (splice 0 (i32ToNeBytes T state.toWire) (msg.read [.data, .msg]))
  sendAndExpectAck T msg

/-! ## Post-update -/

/-- Send a post-update notification. -/
def postUpdate : ControlM Unit := do
  let msg := RawIpcMessage.new T .postUpdate
  sendAndExpectAck T msg

/-! ## Configuration -/

/-- Set AES encryption key and IV. -/
def setAesKey (key iv : String) : ControlM Unit := do
  let msg := RawIpcMessage.new T .setAesKey
  let msg := msg.storeCstr [.data, .aeskeymsg, .keyAscii] key
  let msg := msg.storeCstr [.data, .aeskeymsg, .ivtAscii] iv
  sendAndExpectAck T msg

/-- Set allowed version range. -/
def setVersionsRange (minimum maximum current updateType : String) : ControlM Unit := do
  let msg := RawIpcMessage.new T .setVersionsRange
  let msg := msg.storeCstr [.data, .versions, .minimumVersion] minimum
  let msg := msg.storeCstr [.data, .versions, .maximumVersion] maximum
  let msg := msg.storeCstr [.data, .versions, .currentVersion] current
  let msg := msg.storeCstr [.data, .versions, .updateType] updateType
  sendAndExpectAck T msg

/-- Query hardware revision. -/
def getHwRevision : ControlM HwRevision := do
  let msg := RawIpcMessage.new T .getHwRevision
  let resp ← sendAndReceive T msg
  let boardname := cstrFromBytes (resp.read [.data, .revisions, .boardname])
  let revision := cstrFromBytes (resp.read [.data, .revisions, .revision])
  pure { boardname := boardname, revision := revision }

/-! ## Variables -/

/-- Set a variable of the daemon. -/
def setSwupdateVar (varNamespace name value : String) : ControlM Unit := do
  let msg := RawIpcMessage.new T .setSwupdateVars
  let msg := msg.storeCstr [.data, .vars, .varnamespace] varNamespace
  let msg := msg.storeCstr [.data, .vars, .varname] name
  let msg := msg.storeCstr [.data, .vars, .varvalue] value
  sendAndExpectAck T msg

/-- Get a variable of the daemon. -/
def getSwupdateVar (varNamespace name : String) : ControlM SwupdateVar := do
  let msg := RawIpcMessage.new T .getSwupdateVars
  let msg := msg.storeCstr [.data, .vars, .varnamespace] varNamespace
  let msg := msg.storeCstr [.data, .vars, .varname] name
  let resp ← sendAndReceive T msg
  let ns := cstrFromBytes (resp.read [.data, .vars, .varnamespace])
  let n := cstrFromBytes (resp.read [.data, .vars, .varname])
  let v := cstrFromBytes (resp.read [.data, .vars, .varvalue])
  pure { varNamespace := ns, name := n, value := v }

/-! ## Subprocess and delta URL -/

/-- Send a subprocess command. -/
def subprocessCmd (source : Source) (cmd : SubprocessCmd) (timeout : Int32) : ControlM Unit := do
  let msg := RawIpcMessage.new T .swupdateSubprocess
  let msg := msg.store [.data, .procmsg, .source] (i32ToNeBytes T source.toWire)
  let msg := msg.store [.data, .procmsg, .cmd] (i32ToNeBytes T cmd.toWire)
  let msg := msg.store [.data, .procmsg, .timeout] (i32ToNeBytes T timeout)
  let msg := msg.store [.data, .procmsg, .len] (u32ToNeBytes T 0)
  sendAndExpectAck T msg

/-- Set delta update URL. -/
def setDeltaUrl (filename url : String) : ControlM Unit := do
  let msg := RawIpcMessage.new T .setDeltaUrl
  let msg := msg.storeCstr [.data, .dwlUrl, .filename] filename
  let msg := msg.storeCstr [.data, .dwlUrl, .url] url
  sendAndExpectAck T msg

end ControlClient

/-! ## Streaming -/

namespace Installation

/-- The loop of `stream`, for at most `fuel` rounds. -/
def streamLoop (reader : Nat) : Nat → List UInt8 → UInt64 → ControlM UInt64
  | 0, _, _ => .pending
  | fuel + 1, buf, total => do
      let read ← orConnection (← await (.read reader buf.length))
      let buf := splice 0 read buf
      let n := read.length
      if n = 0 then
        pure total
      else
        let self ← get
        orConnection (← await (.writeAll self.stream (buf.take n)))
        streamLoop reader fuel buf (total + UInt64.ofNat n)

/-- Stream image data from a reader. The value is the number of bytes
streamed. -/
def stream (reader fuel : Nat) : ControlM UInt64 :=
  streamLoop reader fuel (List.replicate 8192 0) 0

/-- Stream an image file. -/
def streamFile (path : String) (fuel : Nat) : ControlM UInt64 := do
  match ← await (.openFile path) with
  | .error e => Async.throw (.protocol s!"failed to open {path}: {e}")
  | .ok file => stream file fuel

end Installation

/-! ## The twelve requests as one operation -/

/-- A request with its arguments. -/
inductive Request where
  | install (req : InstallRequest)
  | getStatus
  | getUpdateState
  | setUpdateState (state : UpdateState)
  | postUpdate
  | setAesKey (key iv : String)
  | setVersionsRange (minimum maximum current updateType : String)
  | getHwRevision
  | setSwupdateVar (varNamespace name value : String)
  | getSwupdateVar (varNamespace name : String)
  | subprocessCmd (source : Source) (cmd : SubprocessCmd) (timeout : Int32)
  | setDeltaUrl (filename url : String)
  deriving DecidableEq, Repr

/-- What a request returns. -/
inductive Value where
  | unit
  | installation (handle : Installation)
  | status (status : UpdateStatus)
  | state (state : UpdateState)
  | hwRevision (revision : HwRevision)
  | var (var : SwupdateVar)
  deriving DecidableEq, Repr

/-- Make a request. -/
def Request.perform (T : Target) : Request → ControlM Value
  | .install req => return .installation (← ControlClient.install T req)
  | .getStatus => return .status (← ControlClient.getStatus T)
  | .getUpdateState => return .state (← ControlClient.getUpdateState T)
  | .setUpdateState state => do ControlClient.setUpdateState T state; return .unit
  | .postUpdate => do ControlClient.postUpdate T; return .unit
  | .setAesKey key iv => do ControlClient.setAesKey T key iv; return .unit
  | .setVersionsRange minimum maximum current updateType => do
      ControlClient.setVersionsRange T minimum maximum current updateType; return .unit
  | .getHwRevision => return .hwRevision (← ControlClient.getHwRevision T)
  | .setSwupdateVar varNamespace name value => do
      ControlClient.setSwupdateVar T varNamespace name value; return .unit
  | .getSwupdateVar varNamespace name =>
      return .var (← ControlClient.getSwupdateVar T varNamespace name)
  | .subprocessCmd source cmd timeout => do
      ControlClient.subprocessCmd T source cmd timeout; return .unit
  | .setDeltaUrl filename url => do ControlClient.setDeltaUrl T filename url; return .unit

end SwupdateIpc
