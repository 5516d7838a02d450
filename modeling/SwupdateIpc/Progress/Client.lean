import SwupdateIpc.Progress.Events
import SwupdateIpc.Progress.Version
import SwupdateIpc.Socket

/-!
# The client of the progress socket

The operations of the client as asynchronous programs over its own three fields.
A new connection begins with an acknowledgement of eight bytes, which the client
waits for at most five seconds and checks (`handshake`). After it, `receive` reads
one message of the layout, and `receiveOrReconnect` tries one new connection when
the read fails.
-/

set_option autoImplicit false

namespace SwupdateIpc

open Foundations Wire

/-- Handle for receiving progress events. -/
structure ProgressClient where
  stream : Nat
  config : SocketConfig
  layout : ProgressLayout
  deriving DecidableEq, Repr

/-- The state of the client is the state of its programs. -/
abbrev ProgressM (α : Type) := IpcM ProgressClient α

namespace ProgressClient

variable (T : Target)

def readAck : ProgressM RawProgressAck := do
  let ack := Record.zeroed rawProgressAck
  let self ← get
  let bytes ← orConnection (← await (.readExact self.stream rawProgressAck.size))
  pure (ack.overwrite bytes)

def readRawPacked : ProgressM (RawProgressMsg T) := do
  let msg := Record.zeroed (rawProgressMsg T.longLongAlign)
  let self ← get
  let bytes ← orConnection (← await (.readExact self.stream (rawProgressMsg T.longLongAlign).size))
  pure (msg.overwrite bytes)

def readRawUnpacked : ProgressM (RawProgressMsgUnpacked T) := do
  let msg := Record.zeroed (rawProgressMsgUnpacked T.longLongAlign)
  let self ← get
  let bytes ← orConnection
    (← await (.readExact self.stream (rawProgressMsgUnpacked T.longLongAlign).size))
  pure (msg.overwrite bytes)

def handshake : ProgressM Unit := do
  let timeout := Duration.fromSecs 5
  match ← readAck.timeout timeout with
  | none => Async.throw (.timeout timeout)
  | some ack =>
    if ack.read [.magic] ≠ PROGRESS_CONNECT_ACK_MAGIC then
      Async.throw (.protocol s!"invalid ACK magic: {ack.read [.magic]}")
    else
      let apiversion := u32FromNeBytes T (ack.read [.apiversion])
      let serverMajor := (apiversion >>> 16) &&& 0xFFFF
      let clientMajor := (PROGRESS_API_VERSION >>> 16) &&& 0xFFFF
      if serverMajor ≠ clientMajor then
        Async.throw (.versionMismatch PROGRESS_API_VERSION apiversion)
      else
        pure ()

/-- Connect to the progress socket and perform the handshake. -/
def connect (config : SocketConfig) : ProgressM Unit := do
  let layout ← detectLayout
  let stream ← config.connectProgress
  set { stream := stream, config := config, layout := layout : ProgressClient }
  handshake T

/-- Receive the next progress event. -/
def receive : ProgressM ProgressEvent := do
  let self ← get
  match self.layout with
  | .packed => do
      let raw ← readRawPacked T
      pure (ProgressEvent.fromRaw T raw)
  | .unpacked => do
      let raw ← readRawUnpacked T
      pure (ProgressEvent.fromRawUnpacked T raw)

def reconnect : ProgressM Unit := do
  let self ← get
  let _ ← await (.shutdown self.stream)
  let stream ← self.config.connectProgress
  set { self with stream := stream }
  handshake T

/-- Receive with auto-reconnect on connection loss. -/
def receiveOrReconnect : ProgressM ProgressEvent := do
  match ← (receive T).attempt with
  | .ok event => pure event
  | .error (.connection _) => do
      reconnect T
      receive T
  | .error e => Async.throw e

end ProgressClient

end SwupdateIpc
