import SwupdateIpc.Control.Streaming
import SwupdateIpc.Foundations.IndependentCalls
import SwupdateIpc.Progress.Calls

/-!
# The command line client

A command connects to one of the sockets, makes one request or watches the progress
events, and prints what it got. Its program has the states of both clients; a client
holds no connection before the command has made one.

An installation with progress joins two tasks: one streams the image, and the other
one receives progress events until a terminal one (`watch`). A schedule says how they
take turns, and both loops take the number of rounds they may make. The lines of the
log are left out.
-/

set_option autoImplicit false

namespace SwupdateIpc

open Foundations Wire

/-- The subcommands with their options. -/
inductive Command where
  /-- Install an image. -/
  | install (file : Option String) (progress : Bool) (source : Source) (dryRun : Bool)
      (info : String)
  /-- Monitor progress events. -/
  | progress
  | getStatus
  | getState
  | setState (state : UpdateState)
  | postUpdate
  | setAesKey (key iv : String)
  | setVersionsRange (min max current updateType : String)
  | getHwRevision
  | setVar (varNamespace name value : String)
  | getVar (varNamespace name : String)
  | subprocess (source : Source) (cmd : SubprocessCmd) (timeout : Int32)
  | setDeltaUrl (filename url : String)
  deriving DecidableEq, Repr

/-- A command line. -/
structure Cli where
  ctrlSocket : Option String
  progressSocket : Option String
  command : Command
  deriving DecidableEq, Repr

/-- The defaults, with the paths that the command line overrides. -/
def buildConfig (defaults : SocketConfig) (cli : Cli) : SocketConfig :=
  let config := defaults
  let config := match cli.ctrlSocket with
    | some path => { config with ctrlPath := path }
    | none => config
  match cli.progressSocket with
  | some path => { config with progressPath := path }
  | none => config

/-- What `{:?}` prints for a recovery status. -/
def RecoveryStatus.debug : RecoveryStatus → String
  | .idle => "Idle"
  | .start => "Start"
  | .run => "Run"
  | .success => "Success"
  | .failure => "Failure"
  | .download => "Download"
  | .done => "Done"
  | .subprocess => "Subprocess"
  | .progress => "Progress"

/-- What `{:?}` prints for an update state. -/
def UpdateState.debug : UpdateState → String
  | .ok => "Ok"
  | .installed => "Installed"
  | .testing => "Testing"
  | .failed => "Failed"
  | .notAvailable => "NotAvailable"
  | .error => "Error"
  | .wait => "Wait"
  | .inProgress => "InProgress"

/-- The number of the reader that is the standard input. -/
def stdin : Nat := 0

def println {σ : Type} (line : String) : IpcM σ Unit := await (.print line)

/-- The state of a command is the states of the two clients. -/
abbrev CliM (α : Type) := IpcM (ControlClient × ProgressClient) α

/-- Subscribe to progress events for an installation. -/
def Installation.progress (T : Target) : CliM Unit := do
  let client ← (get : ControlM ControlClient).first
  (ProgressClient.connect T client.config).second

/-! ## The two tasks of an installation with progress -/

/-- Stream the image from the file, or from the standard input, and print how many bytes
it had. -/
def streamImage (file : Option String) (fuel : Nat) : ControlM Unit := do
  let bytes ← match file with
    | some path => Installation.streamFile path fuel
    | none => Installation.stream stdin fuel
  println s!"Streamed {bytes} bytes"

/-- Receive progress events until a terminal one, for at most `fuel` rounds. -/
def watch (T : Target) : Nat → ProgressM Unit
  | 0 => .pending
  | fuel + 1 => do
      let event ← ProgressClient.receive T
      if event.isTerminal then
        pure ()
      else
        watch T fuel

/-! ## Commands -/

/-- The install request of a command line. -/
def installRequest (source : Source) (dryRun : Bool) (info : String) : InstallRequest :=
  let req := { InstallRequest.new with source := source }
  let req := if info.isEmpty then req else { req with info := info }
  if dryRun then { req with mode := .dryRun } else req

/-- Run a command. -/
def Cli.run (T : Target) (defaults : SocketConfig) (schedule : List Turn) (fuel : Nat)
    (cli : Cli) : CliM Unit :=
  let config := buildConfig defaults cli
  match cli.command with
  | .install file progress source dryRun info => do
      (ControlClient.connect config).first
      let _ ← (ControlClient.install T (installRequest source dryRun info)).first
      println "Install request accepted"
      if progress then do
        Installation.progress T
        let _ ← Async.tryJoin schedule (streamImage file fuel) (watch T fuel)
        pure ()
      else
        (streamImage file fuel).first
  | .progress => do
      (ProgressClient.connect T config).second
      println "Connected to progress socket, waiting for events..."
      (watch T fuel).second
  | .getStatus => do
      (ControlClient.connect config).first
      let status ← (ControlClient.getStatus T).first
      println s!"Current:     {status.current.debug}"
      println s!"Last result: {status.lastResult.debug}"
      println s!"Error:       {status.error}"
      if status.description.isEmpty then
        pure ()
      else
        println s!"Description: {status.description}"
  | .getState => do
      (ControlClient.connect config).first
      let state ← (ControlClient.getUpdateState T).first
      println state.debug
  | .setState state => do
      (ControlClient.connect config).first
      (ControlClient.setUpdateState T state).first
      println "State set"
  | .postUpdate => do
      (ControlClient.connect config).first
      (ControlClient.postUpdate T).first
      println "Post-update sent"
  | .setAesKey key iv => do
      (ControlClient.connect config).first
      (ControlClient.setAesKey T key iv).first
      println "AES key set"
  | .setVersionsRange min max current updateType => do
      (ControlClient.connect config).first
      (ControlClient.setVersionsRange T min max current updateType).first
      println "Versions range set"
  | .getHwRevision => do
      (ControlClient.connect config).first
      let rev ← (ControlClient.getHwRevision T).first
      println s!"Board: {rev.boardname}"
      println s!"Revision: {rev.revision}"
  | .setVar varNamespace name value => do
      (ControlClient.connect config).first
      (ControlClient.setSwupdateVar T varNamespace name value).first
      println "Variable set"
  | .getVar varNamespace name => do
      (ControlClient.connect config).first
      let var ← (ControlClient.getSwupdateVar T varNamespace name).first
      println var.value
  | .subprocess source cmd timeout => do
      (ControlClient.connect config).first
      (ControlClient.subprocessCmd T source cmd timeout).first
      println "Subprocess command sent"
  | .setDeltaUrl filename url => do
      (ControlClient.connect config).first
      (ControlClient.setDeltaUrl T filename url).first
      println "Delta URL set"

/-- The exit status of the process, when it ends. -/
def exitStatus : Outcome Error Unit → Option Nat
  | .ok () => some 0
  | .err _ => some 1
  | .dropped => none

end SwupdateIpc
