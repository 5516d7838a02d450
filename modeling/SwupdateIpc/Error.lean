import SwupdateIpc.Foundations.SystemCalls

/-!
# Errors of the client

The operations of the client end with these errors. An I/O error met on the way
becomes a connection error.
-/

set_option autoImplicit false

namespace SwupdateIpc

open Foundations

/-- A span of time, in nanoseconds. -/
abbrev Duration := Nat

def Duration.fromSecs (secs : Nat) : Duration := secs * 1000000000

inductive Error where
  /-- Socket connection or I/O failure. -/
  | connection (e : IoError)
  /-- Protocol violation. -/
  | protocol (message : String)
  /-- The server rejected the request. -/
  | rejected
  /-- API version mismatch between client and server. -/
  | versionMismatch (expected actual : UInt32)
  /-- Timeout waiting for a response. -/
  | timeout (after : Duration)
  /-- Invalid socket path. -/
  | invalidPath (path : String)
  deriving DecidableEq, Repr

/-- A program that talks to the daemon, with state in `σ`. -/
abbrev IpcM (σ α : Type) := Async system Error σ α

/-- The value of an I/O result, or a connection error. -/
def orConnection {σ α : Type} : Except IoError α → IpcM σ α
  | .ok a => pure a
  | .error e => Async.throw (.connection e)

/-- The value of a result, or its error. -/
def orError {σ α : Type} : Except Error α → IpcM σ α
  | .ok a => pure a
  | .error e => Async.throw e

/-- The end of an execution that has the given result. -/
def outcomeOf {α : Type} : Except Error α → Outcome Error α
  | .ok a => .ok a
  | .error e => .err e

theorem orError_bind_pure {σ α β : Type} (r : Except Error α) (f : α → β) :
    (orError r >>= fun a => pure (f a) : IpcM σ β) = orError (r.map f) := by
  cases r <;> rfl

/-- An operation that returned nothing: it met an I/O error or was dropped. -/
def Cut {α : Type} (o : Outcome Error α) : Prop := o = .dropped ∨ ∃ e, o = .err (.connection e)

theorem not_cut_ok {α : Type} (a : α) : ¬ Cut (.ok a : Outcome Error α) := by
  intro cut
  rcases cut with cut | ⟨e, cut⟩ <;> cases cut

end SwupdateIpc
