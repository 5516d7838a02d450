import SwupdateIpc.Error

/-!
# Connecting to the sockets

A connection attempt looks for the path, and then connects within the configured
time. `exec_connectSocket` says everything an attempt can do: it opens one
connection, or it opens none that anything refers to.
-/

set_option autoImplicit false

namespace SwupdateIpc

open Foundations

/-- Where the sockets of the daemon are. -/
structure SocketConfig where
  ctrlPath : String
  progressPath : String
  connectTimeout : Duration
  deriving DecidableEq, Repr

variable {σ : Type}

/-- Connect to the socket at a path. The value is the descriptor. -/
def SocketConfig.connectSocket (self : SocketConfig) (path : String) : IpcM σ Nat := do
  let found ← await (.pathExists path)
  if !found then
    Async.throw (.invalidPath path)
  else
    let connecting : IpcM σ (Except IoError Nat) := await (.connect path)
    match ← connecting.timeout self.connectTimeout with
    | some (.ok stream) => pure stream
    | some (.error e) => Async.throw (.connection e)
    | none => Async.throw (.timeout self.connectTimeout)

/-- Connect to the control socket. -/
def SocketConfig.connectCtrl (self : SocketConfig) : IpcM σ Nat := self.connectSocket self.ctrlPath

/-- Connect to the progress socket. -/
def SocketConfig.connectProgress (self : SocketConfig) : IpcM σ Nat :=
  self.connectSocket self.progressPath

/-! ## The default configuration -/

def CTRL_SOCKET_NAME : String := "sockinstctrl"

def PROGRESS_SOCKET_NAME : String := "swupdateprog"

/-- The environment variables that are set to a text. -/
abbrev Environment := String → Option String

/-- A path and another one below it. An absolute one takes its place. -/
def joinPath (path other : String) : String :=
  if other.startsWith "/" then other
  else if path.isEmpty || path.endsWith "/" then path ++ other
  else path ++ "/" ++ other

/-- Where a socket is, in the order in which the daemon looks for a directory. -/
def resolveSocketPath (env : Environment) (socketName : String) : IpcM σ String :=
  match env "RUNTIME_DIRECTORY" with
  | some dir => pure (joinPath dir socketName)
  | none =>
      match env "TMPDIR" with
      | some dir => pure (joinPath dir socketName)
      | none => do
          let found : Bool ← await (.pathExists "/run/swupdate")
          if found then
            pure (joinPath "/run/swupdate" socketName)
          else
            pure (joinPath "/tmp" socketName)

/-- The default configuration in an environment. -/
def SocketConfig.default (env : Environment) : IpcM σ SocketConfig := do
  let ctrlPath ← resolveSocketPath env CTRL_SOCKET_NAME
  let progressPath ← resolveSocketPath env PROGRESS_SOCKET_NAME
  pure ⟨ctrlPath, progressPath, .fromSecs 10⟩

/-- **What a connection attempt can do.** It opens one connection, to the peer
that the path has for it, or it leaves every connection as it was. -/
theorem SocketConfig.exec_connectSocket {τ : Type} {mark : τ} {config : SocketConfig}
    {path : String} {c c' : Config σ (World τ)} {o : Outcome Error Nat}
    (exec : Exec (World.device mark) (config.connectSocket path) c o c') :
    c'.own = c.own ∧
      ((∃ peer, o = .ok c.world.opened ∧ c'.world = c.world.accept path peer) ∨
        ((∀ fd, o ≠ .ok fd) ∧ c'.world.conns = c.world.conns ∧
          c'.world.opened = c.world.opened)) := by
  simp only [connectSocket, exec_await_bind] at exec
  rcases exec with ⟨found, w, looked, rest⟩ | ⟨_, ⟨⟩, _⟩
  change (found, w) = c.world.pathExists path at looked
  rcases c.world.pathExists_cases path with there | absent | missed
  · rw [there] at looked
    cases looked
    simp only [Bool.not_true, Bool.false_eq_true, if_false] at rest
    rcases exec_bind.mp rest with ⟨r, c₁, first, last⟩ | ⟨e, rfl, first⟩ | ⟨rfl, first⟩
    · rcases exec_await_timeout.mp first with ⟨r, w, answer, ⟨⟩, rfl⟩ | ⟨w, _, ⟨⟩, _⟩
      cases r with
      | none =>
          obtain ⟨rfl, rfl⟩ := last
          rcases answer with rfl | rfl <;> exact ⟨rfl, .inr ⟨by simp, rfl, rfl⟩⟩
      | some result =>
          rcases World.connectTo_cases answer with ⟨peer, rfl, rfl⟩ | ⟨e, rfl, conns, opened⟩
          · obtain ⟨rfl, rfl⟩ := last
            exact ⟨rfl, .inl ⟨peer, rfl, rfl⟩⟩
          · obtain ⟨rfl, rfl⟩ := last
            exact ⟨rfl, .inr ⟨by simp, conns, opened⟩⟩
    · rcases exec_await_timeout.mp first with ⟨r, w, _, ⟨⟩, _⟩ | ⟨w, _, ⟨⟩, _⟩
    · rcases exec_await_timeout.mp first with ⟨r, w, _, ⟨⟩, _⟩ | ⟨w, dropped, _, rfl⟩
      rcases dropped with rfl | rfl <;> exact ⟨rfl, .inr ⟨by simp, rfl, rfl⟩⟩
  · rw [absent] at looked
    cases looked
    obtain ⟨rfl, rfl⟩ := rest
    exact ⟨rfl, .inr ⟨by simp, rfl, rfl⟩⟩
  · rw [missed] at looked
    cases looked
    obtain ⟨rfl, rfl⟩ := rest
    exact ⟨rfl, .inr ⟨by simp, rfl, rfl⟩⟩

/-- **What a shutdown and an attempt after it can do.** The rest of the program goes on
with the connection that was opened, or none was opened and it does not run. -/
theorem SocketConfig.exec_renew {τ α : Type} {mark : τ} {config : SocketConfig} {path : String}
    {fd : Nat} {next : Nat → IpcM σ α} {c c' : Config σ (World τ)} {o : Outcome Error α}
    (exec : Exec (World.device mark)
      (await (.shutdown fd) >>= fun _ => config.connectSocket path >>= next) c o c') :
    ∃ w, (w = c.world ∨ w = c.world.close fd) ∧
      ((∃ peer, Exec (World.device mark) (next c.world.opened) ⟨c.own, w.accept path peer⟩ o c') ∨
        ((∀ a, o ≠ .ok a) ∧ c'.own = c.own ∧ c'.world.conns = w.conns ∧
          c'.world.opened = w.opened)) := by
  rcases exec_await_bind.mp exec with ⟨r, w, answer, rest⟩ | ⟨w, unfinished, rfl, rfl⟩
  · have shut : w = c.world ∨ w = c.world.close fd := by
      rcases answer with ⟨_, closed⟩ | ⟨e, _, kept⟩
      · exact .inr closed
      · exact .inl kept
    have opened : w.opened = c.world.opened := by
      rcases shut with rfl | rfl <;> rfl
    refine ⟨w, shut, ?_⟩
    rcases exec_bind.mp rest with ⟨stream, c₁, first, last⟩ | ⟨e, rfl, first⟩ | ⟨rfl, first⟩
    · obtain ⟨own, ⟨peer, accepted, world⟩ | ⟨failed, _⟩⟩ := exec_connectSocket first
      · cases accepted
        obtain ⟨own₁, world₁⟩ := c₁
        cases own
        cases world
        rw [← opened]
        exact .inl ⟨peer, last⟩
      · exact absurd rfl (failed stream)
    · obtain ⟨own, ⟨peer, ⟨⟩, _⟩ | ⟨_, conns, same⟩⟩ := exec_connectSocket first
      exact .inr ⟨by simp, own, conns, same⟩
    · obtain ⟨own, ⟨peer, ⟨⟩, _⟩ | ⟨_, conns, same⟩⟩ := exec_connectSocket first
      exact .inr ⟨by simp, own, conns, same⟩
  · exact ⟨w, unfinished, .inr ⟨by simp, rfl, rfl, rfl⟩⟩

/-- A connection attempt on sockets without failures ends as the next attempt at
the path says. -/
theorem SocketConfig.run_connectSocket {τ : Type} {mark : τ} {config : SocketConfig}
    {path : String} {c : Config σ (World τ)} :
    run (World.serve mark) (config.connectSocket path) c =
      match c.world.attempts path with
      | .accepted peer :: _ => (.ok c.world.opened, ⟨c.own, c.world.accept path peer⟩)
      | .refused e :: _ => (.err (.connection e), ⟨c.own, c.world.attempted path⟩)
      | .stalled :: _ => (.err (.timeout config.connectTimeout), ⟨c.own, c.world.attempted path⟩)
      | .missing :: _ => (.err (.invalidPath path), ⟨c.own, c.world.attempted path⟩)
      | [] => (.err (.invalidPath path), c) := by
  have timed : ∀ (r : Option (Except IoError Nat)) w,
      World.serve mark (.within config.connectTimeout (.connect path)) c.world = some (r, w) →
        run (World.serve mark) (Async.timeout config.connectTimeout
          (await (.connect path) : IpcM σ (Except IoError Nat))) c = (.ok r, ⟨c.own, w⟩) := by
    intro r w served
    exact run_await_timeout.trans (by rw [served])
  rcases next : c.world.attempts path with _ | ⟨_ | e | _ | peer, rest⟩
  · simp only [connectSocket, run_await_bind, World.serve, World.pathExists, next]
    rfl
  · simp only [connectSocket, run_await_bind, World.serve, World.pathExists, next]
    rfl
  all_goals
    simp only [connectSocket, run_await_bind, World.serve, World.pathExists, next, Bool.not_true,
      Bool.false_eq_true, if_false]
  · refine run_bind_ok (timed (some (.error e)) _ ?_)
    simp only [World.serve, World.connectTo, next]
    rfl
  · refine run_bind_ok (timed none _ ?_)
    simp only [World.serve, World.connectTo, next]
    rfl
  · refine run_bind_ok (timed (some (.ok _)) _ ?_)
    simp only [World.serve, World.connectTo, next]
    rfl

end SwupdateIpc
