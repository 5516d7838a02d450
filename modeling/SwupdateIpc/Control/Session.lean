import SwupdateIpc.Control.Streaming
import SwupdateIpc.Foundations.Runs

/-!
# Sessions of a client

A session is a client together with its environment and its borrow: while the
handle of an accepted installation is alive, the client can only stream on it.
A step is one operation of the owner of the client, on sockets that may fail, run
to its end or dropped at any point where it waits. `Step.effect` says everything
a step can do to the connection that the client holds, and what it leaves alone:
every other connection, and the connection held, which only a reconnect that
succeeds exchanges for a fresh one.

Runs of steps are the subject of the modules that follow.
-/

set_option autoImplicit false

namespace SwupdateIpc

open Foundations Wire

/-! ## Steps -/

/-- What the owner of a client can do. -/
inductive Action where
  | request (r : Request)
  | stream (image : Image) (fuel : Nat)
  | release
  | reconnect
  deriving DecidableEq, Repr

def Action.Result : Action → Type
  | .request _ => Value
  | .stream _ _ => UInt64
  | .release => Unit
  | .reconnect => Unit

/-- The program of an action. Dropping the handle runs none. -/
def Action.program (T : Target) : (a : Action) → ControlM a.Result
  | .request r => r.perform T
  | .stream image fuel => image.stream fuel
  | .release => (pure () : ControlM Unit)
  | .reconnect => ControlClient.reconnect

/-- In which capacity an action sends. -/
def Action.origin : Action → Origin
  | .stream _ _ => .image
  | _ => .request

/-- Whether an action goes through the handle of an installation. -/
def Action.onHandle : Action → Bool
  | .request _ | .reconnect => false
  | .stream _ _ | .release => true

/-- An action and how it ended. -/
structure Done where
  action : Action
  outcome : Outcome Error action.Result

/-- Whether the handle of an installation is alive afterwards. -/
def Done.handle : Done → Bool
  | ⟨.request _, .ok (.installation _)⟩ => true
  | ⟨.stream _ _, _⟩ => true
  | _ => false

/-- Whether the client exchanged its connection for a new one. -/
def Done.reconnected : Done → Bool
  | ⟨.reconnect, .ok _⟩ => true
  | _ => false

/-- A client, its environment, and whether a handle borrows it. -/
structure Session where
  client : ControlClient
  net : World Origin
  installing : Bool

/-- The connection that the client holds. -/
def Session.conn (s : Session) : Conn Origin := s.net.conns s.client.stream

/-- The connection that a transition is about, after it. -/
def connAfter (e : Transition Session Done) : Conn Origin :=
  e.after.net.conns e.before.client.stream

/-- One operation on a session. -/
def Step (T : Target) (e : Transition Session Done) : Prop :=
  e.label.action.onHandle = e.before.installing ∧
    Exec (World.device e.label.action.origin) (e.label.action.program T)
      ⟨e.before.client, e.before.net⟩ e.label.outcome ⟨e.after.client, e.after.net⟩ ∧
    e.after.installing = e.label.handle

/-- A client that has just connected. -/
def Connected (s : Session) : Prop :=
  s.installing = false ∧ ∃ (config : SocketConfig) (c : Config ControlClient (World Origin)),
    Exec (World.device .request) (ControlClient.connect config) c (.ok ()) ⟨s.client, s.net⟩

/-! ## Reconnecting -/

/-- **What a reconnect can do.** It may shut down the connection held, and then it
exchanges it for a fresh one, or it keeps it. -/
theorem exec_reconnect {τ : Type} {mark : τ} {c c' : Config ControlClient (World τ)}
    {o : Outcome Error Unit}
    (exec : Exec (World.device mark) ControlClient.reconnect c o c') :
    ∃ w, (w = c.world ∨ w = c.world.close c.own.stream) ∧
      ((∃ path peer, o = .ok () ∧ c'.own = { c.own with stream := c.world.opened } ∧
          c'.world = w.accept path peer) ∨
        ((∀ u, o ≠ .ok u) ∧ c'.own = c.own ∧ c'.world.conns = w.conns ∧
          c'.world.opened = w.opened)) := by
  rw [ControlClient.reconnect, exec_get_bind] at exec
  obtain ⟨w, shut, ⟨peer, rest⟩ | kept⟩ := SocketConfig.exec_renew exec
  · obtain ⟨rfl, rfl⟩ := rest
    exact ⟨w, shut, .inl ⟨_, peer, rfl, rfl, rfl⟩⟩
  · exact ⟨w, shut, .inr kept⟩

/-! ## What a step does -/

/-- What a step does to the connection that the client holds. -/
inductive Effect (T : Target) (s : Session) : Done → Conn Origin → Prop where
  | cutWrite {r : Request} {part : List UInt8} {o : Outcome Error Value}
      (written : part <+: (r.message T).bytes) (unsent : s.conn.closed = true → part = [])
      (cut : Cut o) : Effect T s ⟨.request r, o⟩ (s.conn.send .request part)
  | cutRead {r : Request} {part : List UInt8} {o : Outcome Error Value}
      (writable : s.conn.closed = false)
      (read : part <+: (s.conn.send .request (r.message T).bytes).available)
      (short : part.length ≤ sizeOfMessage T) (cut : Cut o) :
      Effect T s ⟨.request r, o⟩
        ((s.conn.send .request (r.message T).bytes).record ⟨part, false⟩)
  | complete {r : Request} (resp : RawIpcMessage T) (writable : s.conn.closed = false)
      (read : resp.bytes <+: (s.conn.send .request (r.message T).bytes).available) :
      Effect T s ⟨.request r, outcomeOf (r.decode resp)⟩
        ((s.conn.send .request (r.message T).bytes).record ⟨resp.bytes, true⟩)
  | streamed {image : Image} {fuel : Nat} {part : List UInt8} {o : Outcome Error UInt64}
      (inside : part <+: delivered (image.contents s.net))
      (unsent : s.conn.closed = true → part = [])
      (whole : ∀ n, o = .ok n → part = delivered (image.contents s.net) ∧
        endsCleanly (image.contents s.net) = true ∧ n = UInt64.ofNat part.length) :
      Effect T s ⟨.stream image fuel, o⟩ (s.conn.send .image part)
  | released {o : Outcome Error Unit} : Effect T s ⟨.release, o⟩ s.conn
  | reconnected {o : Outcome Error Unit} {conn : Conn Origin}
      (shut : conn = s.conn ∨ conn = s.conn.close) : Effect T s ⟨.reconnect, o⟩ conn

/-- What a step leaves alone. -/
structure Frame (s : Session) (done : Done) (s' : Session) : Prop where
  others : ∀ fd < s.net.opened, fd ≠ s.client.stream → s'.net.conns fd = s.net.conns fd
  held : done.reconnected = false → s'.client = s.client ∧ s'.net.opened = s.net.opened
  exchanged : done.reconnected = true →
    s'.client.stream = s.net.opened ∧ s'.net.opened = s.net.opened + 1 ∧
      ∃ peer, s'.conn = .fresh peer

/-- The connection held is one of those opened. -/
def Session.Proper (s : Session) : Prop := s.client.stream < s.net.opened

theorem World.conns_send_other {τ : Type} (w : World τ) {mark : τ} {fd other : Nat}
    (bytes : List UInt8) (distinct : other ≠ fd) :
    (w.send mark fd bytes).conns other = w.conns other :=
  w.conns_onConn_other _ distinct

/-- **The exchange of a request, at its connection and elsewhere.** -/
theorem Exchange.effect {T : Target} {s s' : Session} {r : Request} {o : Outcome Error Value}
    (exchange : Exchange .request (r.message T) r.decode s.client.stream s.net o s'.net) :
    Effect T s ⟨.request r, o⟩ (s'.net.conns s.client.stream) ∧
      s'.net.opened = s.net.opened ∧
        ∀ fd, fd ≠ s.client.stream → s'.net.conns fd = s.net.conns fd := by
  generalize s'.net = w' at exchange
  cases exchange with
  | cutWrite written unsent cut =>
      refine ⟨?_, rfl, fun fd distinct => World.conns_send_other _ _ distinct⟩
      rw [World.send, World.conns_onConn_same]
      exact .cutWrite written unsent cut
  | cutRead writable read short cut =>
      refine ⟨?_, rfl, ?_⟩
      · rw [World.record, World.conns_onConn_same, World.send, World.conns_onConn_same]
        refine .cutRead writable ?_ short cut
        rwa [World.send, World.conns_onConn_same] at read
      · intro fd distinct
        rw [World.record, World.conns_onConn_other _ _ distinct,
          World.conns_send_other _ _ distinct]
  | complete resp writable read =>
      refine ⟨?_, rfl, ?_⟩
      · rw [World.record, World.conns_onConn_same, World.send, World.conns_onConn_same]
        refine .complete resp writable ?_
        rwa [World.send, World.conns_onConn_same] at read
      · intro fd distinct
        rw [World.record, World.conns_onConn_other _ _ distinct,
          World.conns_send_other _ _ distinct]

/-- What was forwarded, at its connection and elsewhere. -/
theorem Forwarded.effect {T : Target} {s s' : Session} {image : Image} {fuel : Nat}
    {part : List UInt8} {o : Outcome Error UInt64}
    (forwarded : Forwarded .image (image.contents s.net) s.client.stream s.net part s'.net)
    (whole : ∀ n, o = .ok n → part = delivered (image.contents s.net) ∧
      endsCleanly (image.contents s.net) = true ∧ n = UInt64.ofNat part.length) :
    Effect T s ⟨.stream image fuel, o⟩ (s'.net.conns s.client.stream) ∧
      ∀ fd, fd ≠ s.client.stream → s'.net.conns fd = s.net.conns fd := by
  have here : s'.net.conns s.client.stream = s.conn.send .image part := by
    rw [forwarded.conns, Function.update_self]
    rfl
  refine ⟨?_, ?_⟩
  · rw [here]
    exact .streamed forwarded.inside forwarded.unsent whole
  · intro fd distinct
    rw [forwarded.conns, Function.update_of_ne distinct]

/-- What a shutdown of the connection held leaves behind. -/
theorem Session.shut {s : Session} {w : World Origin}
    (shut : w = s.net ∨ w = s.net.close s.client.stream) :
    (w.conns s.client.stream = s.conn ∨ w.conns s.client.stream = s.conn.close) ∧
      (∀ fd, fd ≠ s.client.stream → w.conns fd = s.net.conns fd) ∧ w.opened = s.net.opened := by
  rcases shut with rfl | rfl
  · exact ⟨.inl rfl, fun _ _ => rfl, rfl⟩
  · exact ⟨.inr (World.conns_onConn_same ..), fun _ => World.conns_onConn_other _ _, rfl⟩

/-- **A reconnect, at the connection held and elsewhere.** -/
theorem Session.effect_reconnect {mark : Origin} {T : Target} {s s' : Session}
    {o : Outcome Error Unit}
    (exec : Exec (World.device mark) ControlClient.reconnect ⟨s.client, s.net⟩ o
      ⟨s'.client, s'.net⟩) (proper : s.Proper) :
    Effect T s ⟨.reconnect, o⟩ (s'.net.conns s.client.stream) ∧ Frame s ⟨.reconnect, o⟩ s' := by
  obtain ⟨w, shut, ends⟩ := exec_reconnect exec
  obtain ⟨here, elsewhere, opened⟩ := Session.shut shut
  rcases ends with ⟨path, peer, rfl, client, net⟩ | ⟨failed, client, conns, same⟩
  · change s'.client = { s.client with stream := s.net.opened } at client
    change s'.net = w.accept path peer at net
    have old : ∀ fd < s.net.opened, s'.net.conns fd = w.conns fd := by
      intro fd before
      rw [net]
      exact World.conns_accept_old _ _ _ (by omega)
    have new : s'.conn = .fresh peer := by
      rw [Session.conn, client, net, ← opened]
      exact World.conns_accept_new ..
    refine ⟨?_, ?_, by rintro ⟨⟩, fun _ => ⟨?_, ?_, peer, new⟩⟩
    · rw [old _ proper]
      exact .reconnected here
    · intro fd before distinct
      rw [old fd before, elsewhere fd distinct]
    · rw [client]
    · rw [net, World.opened_accept, opened]
  · change s'.client = s.client at client
    change s'.net.conns = w.conns at conns
    refine ⟨?_, ?_, fun _ => ⟨client, same.trans opened⟩, ?_⟩
    · rw [conns]
      exact .reconnected here
    · intro fd _ distinct
      rw [conns, elsewhere fd distinct]
    · intro returned
      cases o with
      | ok u => exact absurd rfl (failed u)
      | err e => cases returned
      | dropped => cases returned

/-- **What a step can do**, to the connection held and to everything else. -/
theorem Step.effect {T : Target} {e : Transition Session Done} (step : Step T e)
    (proper : e.before.Proper) :
    Effect T e.before e.label (e.after.net.conns e.before.client.stream) ∧
      Frame e.before e.label e.after := by
  obtain ⟨s, ⟨action, o⟩, s'⟩ := e
  obtain ⟨_, exec, _⟩ := step
  cases action with
  | request r =>
      obtain ⟨own, exchange⟩ := exec_perform exec
      obtain ⟨effect, opened, others⟩ := @Exchange.effect T s s' r o exchange
      exact ⟨effect, fun fd _ => others fd, fun _ => ⟨own, opened⟩, by rintro ⟨⟩⟩
  | stream image fuel =>
      obtain ⟨own, part, forwarded, whole⟩ := Image.exec_stream exec
      obtain ⟨effect, others⟩ := @Forwarded.effect T s s' image fuel part o forwarded whole
      exact ⟨effect, fun fd _ => others fd, fun _ => ⟨own, forwarded.opened⟩, by rintro ⟨⟩⟩
  | release =>
      obtain ⟨_, same⟩ := exec
      have client : s'.client = s.client := congrArg Config.own same
      have net : s'.net = s.net := congrArg Config.world same
      refine ⟨?_, fun fd _ _ => by rw [net], fun _ => ⟨client, by rw [net]⟩, by rintro ⟨⟩⟩
      rw [net]
      exact .released
  | reconnect => exact Session.effect_reconnect exec proper

/-- A request that is not cut takes a reply in full and decodes it. -/
theorem Effect.completed {T : Target} {s : Session} {r : Request} {o : Outcome Error Value}
    {conn : Conn Origin} (effect : Effect T s ⟨.request r, o⟩ conn) (uncut : ¬ Cut o) :
    ∃ resp : RawIpcMessage T, o = outcomeOf (r.decode resp) ∧ s.conn.closed = false ∧
      resp.bytes <+: (s.conn.send .request (r.message T).bytes).available ∧
        conn = (s.conn.send .request (r.message T).bytes).record ⟨resp.bytes, true⟩ := by
  cases effect with
  | cutWrite written unsent cut => exact absurd cut uncut
  | cutRead writable read short cut => exact absurd cut uncut
  | complete resp writable read => exact ⟨resp, rfl, writable, read, rfl⟩

theorem Effect.sound {T : Target} {s : Session} {done : Done} {conn : Conn Origin}
    (effect : Effect T s done conn) (sound : s.conn.Sound) : conn.Sound := by
  cases effect with
  | cutWrite written unsent cut => exact sound.send _ _
  | cutRead writable read short cut => exact (sound.send _ _).record read
  | complete resp writable read => exact (sound.send _ _).record read
  | streamed inside unsent whole => exact sound.send _ _
  | released => exact sound
  | reconnected shut => rcases shut with rfl | rfl <;> exact sound

theorem Effect.peer {T : Target} {s : Session} {done : Done} {conn : Conn Origin}
    (effect : Effect T s done conn) : conn.peer = s.conn.peer := by
  cases effect with
  | reconnected shut => rcases shut with rfl | rfl <;> rfl
  | _ => rfl

/-! ## Runs -/

/-- A client that has just connected holds a fresh connection. -/
theorem Connected.fresh {s : Session} (connected : Connected s) :
    s.Proper ∧ ∃ peer, s.conn = .fresh peer := by
  obtain ⟨_, config, c, exec⟩ := connected
  obtain ⟨peer, ends⟩ := ControlClient.exec_connect_ok exec
  have client : s.client = ⟨c.world.opened, config⟩ := congrArg Config.own ends
  have net : s.net = c.world.accept config.ctrlPath peer := congrArg Config.world ends
  refine ⟨?_, peer, ?_⟩
  · rw [Session.Proper, client, net, World.opened_accept]
    exact Nat.lt_succ_self _
  · rw [Session.conn, client, net]
    exact World.conns_accept_new ..

section Runs

variable {T : Target} {s s' : Session} {es : List (Transition Session Done)}
  {e : Transition Session Done}

theorem Step.proper (step : Step T e) (proper : e.before.Proper) : e.after.Proper := by
  obtain ⟨_, frame⟩ := step.effect proper
  cases exchanged : e.label.reconnected with
  | true =>
      obtain ⟨stream, opened, _⟩ := frame.exchanged exchanged
      rw [Session.Proper, stream, opened]
      exact Nat.lt_succ_self _
  | false =>
      obtain ⟨client, opened⟩ := frame.held exchanged
      rw [Session.Proper, client, opened]
      exact proper

theorem Step.opened_le (step : Step T e) (proper : e.before.Proper) :
    e.before.net.opened ≤ e.after.net.opened := by
  obtain ⟨_, frame⟩ := step.effect proper
  cases exchanged : e.label.reconnected with
  | true =>
      rw [(frame.exchanged exchanged).2.1]
      exact Nat.le_succ _
  | false => rw [(frame.held exchanged).2]

theorem Connected.run_proper (connected : Connected s) (run : Run (Step T) s es s') :
    s'.Proper :=
  run.keeps (fun _ _ step => step.proper) connected.fresh.1

/-- A connection that was opened and is no longer held stays as it is. -/
theorem Step.abandoned (step : Step T e) (proper : e.before.Proper) {fd : Nat}
    (opened : fd < e.before.net.opened) (other : fd ≠ e.before.client.stream) :
    fd < e.after.net.opened ∧ fd ≠ e.after.client.stream ∧
      e.after.net.conns fd = e.before.net.conns fd := by
  obtain ⟨_, frame⟩ := step.effect proper
  refine ⟨opened.trans_le (step.opened_le proper), ?_, frame.others fd opened other⟩
  cases exchanged : e.label.reconnected with
  | true =>
      rw [(frame.exchanged exchanged).1]
      exact opened.ne
  | false => rwa [(frame.held exchanged).1]

/-- The connection held is the first one, or it was opened later. -/
theorem Connected.held_is_new (connected : Connected s) (run : Run (Step T) s es s') :
    s'.client.stream = s.client.stream ∨ s.net.opened ≤ s'.client.stream := by
  let Kept (t : Session) : Prop := t.Proper ∧ s.net.opened ≤ t.net.opened ∧
    (t.client.stream = s.client.stream ∨ s.net.opened ≤ t.client.stream)
  have preserved : ∀ e ∈ es, Step T e → Kept e.before → Kept e.after := by
    rintro e - step ⟨proper, later, held⟩
    obtain ⟨_, frame⟩ := step.effect proper
    refine ⟨step.proper proper, later.trans (step.opened_le proper), ?_⟩
    cases exchanged : e.label.reconnected with
    | true =>
        rw [(frame.exchanged exchanged).1]
        exact .inr later
    | false => rwa [(frame.held exchanged).1]
  exact (run.keeps preserved ⟨connected.fresh.1, le_refl _, .inl rfl⟩).2.2

theorem Connected.sound (connected : Connected s) (run : Run (Step T) s es s') :
    s'.conn.Sound := by
  let Kept (t : Session) : Prop := t.Proper ∧ t.conn.Sound
  have preserved : ∀ e ∈ es, Step T e → Kept e.before → Kept e.after := by
    rintro e - step ⟨proper, sound⟩
    obtain ⟨effect, frame⟩ := step.effect proper
    refine ⟨step.proper proper, ?_⟩
    cases exchanged : e.label.reconnected with
    | true =>
        obtain ⟨_, _, peer, new⟩ := frame.exchanged exchanged
        rw [new]
        exact List.nil_prefix
    | false =>
        have after : e.after.conn = connAfter e := by
          rw [Session.conn, (frame.held exchanged).1]
          rfl
        rw [after]
        exact effect.sound sound
  obtain ⟨proper, peer, first⟩ := connected.fresh
  exact (run.keeps preserved ⟨proper, first ▸ List.nil_prefix⟩).2

/-- As long as no reconnect succeeds, the same connection is held; afterwards it
is never held again. -/
theorem held_or_abandoned (run : Run (Step T) s es s') (proper : s.Proper) :
    s'.Proper ∧
      (((∀ x ∈ es, x.label.reconnected = false) ∧ s'.client.stream = s.client.stream) ∨
        ((∃ x ∈ es, x.label.reconnected = true) ∧ s.client.stream < s'.net.opened ∧
          s.client.stream ≠ s'.client.stream)) := by
  induction run with
  | start => exact ⟨proper, .inl ⟨by simp, rfl⟩⟩
  | @step es e run step ih =>
      obtain ⟨here, ⟨never, held⟩ | ⟨⟨x, member, once⟩, opened, other⟩⟩ := ih
      · refine ⟨step.proper here, ?_⟩
        obtain ⟨_, frame⟩ := step.effect here
        cases exchanged : e.label.reconnected with
        | true =>
            obtain ⟨stream, count, _⟩ := frame.exchanged exchanged
            have before : e.before.client.stream < e.before.net.opened := here
            exact .inr ⟨⟨e, by simp, exchanged⟩, by omega, by omega⟩
        | false =>
            refine .inl ⟨fun x member => ?_, by rw [(frame.held exchanged).1, held]⟩
            rcases List.mem_append.mp member with early | last
            · exact never x early
            · rw [List.mem_singleton.mp last, exchanged]
      · obtain ⟨opened', other', _⟩ := step.abandoned here opened other
        exact ⟨step.proper here, .inr ⟨⟨x, List.mem_append_left _ member, once⟩, opened', other'⟩⟩

end Runs

/-! ## Sessions on sockets without failures -/

/-- An environment in which a peer waits for one connection, and there are
readers. -/
def World.offering (config : SocketConfig) (peer : Peer Origin)
    (readers : Nat → List ReadResult) : World Origin :=
  { World.initial (fun path => if path = config.ctrlPath then [.accepted peer] else []) with
    readers := readers }

/-- The session of a client that has just connected there. -/
def Session.opened (config : SocketConfig) (peer : Peer Origin)
    (readers : Nat → List ReadResult) : Session where
  client := ⟨0, config⟩
  net := (World.offering config peer readers).accept config.ctrlPath peer
  installing := false

theorem connected_opened (config : SocketConfig) (peer : Peer Origin)
    (readers : Nat → List ReadResult) : Connected (Session.opened config peer readers) := by
  let c : Config ControlClient (World Origin) :=
    ⟨⟨0, config⟩, World.offering config peer readers⟩
  have next : c.world.attempts config.ctrlPath = [.accepted peer] := if_pos rfl
  have accepted : run (World.serve .request) config.connectCtrl c =
      (.ok 0, ⟨c.own, (Session.opened config peer readers).net⟩) := by
    rw [SocketConfig.connectCtrl, SocketConfig.run_connectSocket, next]
    rfl
  have exec := World.exec_serve Origin.request (ControlClient.connect config) c
  rw [ControlClient.connect, run_bind_ok accepted] at exec
  exact ⟨rfl, config, c, exec⟩

theorem conn_opened (config : SocketConfig) (peer : Peer Origin)
    (readers : Nat → List ReadResult) :
    (Session.opened config peer readers).conn = .fresh peer :=
  World.conns_accept_new (World.offering config peer readers) config.ctrlPath peer

/-- The transition of an action that ends in the given way. -/
def Session.ended (s : Session) (a : Action)
    (ends : Outcome Error a.Result × Config ControlClient (World Origin)) :
    Transition Session Done :=
  ⟨s, ⟨a, ends.1⟩, ⟨ends.2.own, ends.2.world, Done.handle ⟨a, ends.1⟩⟩⟩

/-- The step that an action is when nothing fails. -/
def Session.served (T : Target) (s : Session) (a : Action) : Transition Session Done :=
  s.ended a (run (World.serve a.origin) (a.program T) ⟨s.client, s.net⟩)

theorem step_served {T : Target} {s : Session} {a : Action}
    (permitted : a.onHandle = s.installing) : Step T (s.served T a) :=
  ⟨permitted, World.exec_serve a.origin (a.program T) ⟨s.client, s.net⟩, rfl⟩

/-- A request that completes, on sockets without failures. -/
theorem served_request {T : Target} {s : Session} {r : Request} (resp : RawIpcMessage T)
    (writable : s.conn.closed = false)
    (read : resp.bytes <+: (s.conn.send .request (r.message T).bytes).available) :
    s.served T (.request r) = s.ended (.request r) (outcomeOf (r.decode resp),
        ⟨s.client, (s.net.send .request s.client.stream (r.message T).bytes).record
          s.client.stream ⟨resp.bytes, true⟩⟩) ∧
      connAfter (s.served T (.request r)) =
        (s.conn.send .request (r.message T).bytes).record ⟨resp.bytes, true⟩ := by
  have same : (s.net.send .request s.client.stream (r.message T).bytes).conns s.client.stream =
      s.conn.send .request (r.message T).bytes := World.conns_onConn_same ..
  have there : resp.bytes <+: ((s.net.send .request s.client.stream (r.message T).bytes).conns
      s.client.stream).available := by
    rw [same]
    exact read
  have ends : s.served T (.request r) = s.ended (.request r) (_, _) :=
    congrArg (s.ended (.request r)) (run_perform r s.client s.net resp writable there)
  refine ⟨ends, ?_⟩
  rw [ends, ← same]
  exact World.conns_onConn_same (s.net.send .request s.client.stream (r.message T).bytes)
    s.client.stream fun c => c.record ⟨resp.bytes, true⟩

/-- A reader that is streamed, on sockets without failures. -/
theorem served_stream {T : Target} {s : Session} {n fuel : Nat} {contents : List ReadResult}
    (holds : s.net.readers n = contents) (writable : s.conn.closed = false)
    (enough : (delivered contents).length < fuel) :
    ∃ (o : Outcome Error UInt64) (w' : World Origin), s.served T (.stream (.reader n) fuel) =
        s.ended (.stream (.reader n) fuel) (o, ⟨s.client, w'⟩) ∧
      Forwarded .image contents s.client.stream s.net (delivered contents) w' ∧
      (endsCleanly contents = true →
        o = .ok (UInt64.ofNat (delivered contents).length)) ∧
      (endsCleanly contents = false → ∃ e, o = .err (.connection e)) := by
  have room : 0 < (List.replicate 8192 (0 : UInt8)).length := by
    rw [List.length_replicate]
    omega
  obtain ⟨o, w', ran, forwarded, ok, failed⟩ :=
    @run_streamLoop _ Origin.image n fuel _ 0 room contents ⟨s.client, s.net⟩ holds writable enough
  refine ⟨o, w', congrArg (s.ended (.stream (.reader n) fuel)) ran, forwarded, ?_, failed⟩
  intro clean
  rw [ok clean, UInt64.zero_add]

/-- The client has just connected to a peer that has written one reply, and there
is a reader. -/
def Session.answeredOnce {T : Target} (reply : RawIpcMessage T) (contents : List ReadResult) :
    Session :=
  .opened ⟨"", "", 0⟩ (.scripted reply.bytes) fun _ => contents

/-- On any acknowledgement an installation begins. -/
theorem installed_on_ack {T : Target} {reply : RawIpcMessage T}
    (ack : reply.msgType = some .ack) (contents : List ReadResult) :
    ∃ e : Transition Session Done,
      Run (Step T) (.answeredOnce reply contents) [e] e.after ∧
      e.label = ⟨.request (.install .new), .ok (.installation {})⟩ ∧
      (connAfter e).reads = e.before.conn.reads ++ [⟨reply.bytes, true⟩] ∧
      e.after.client = e.before.client ∧ e.after.installing = true ∧
      e.after.conn.closed = false ∧ ∀ n, e.after.net.readers n = contents := by
  let s : Session := .answeredOnce reply contents
  have fresh : s.conn = .fresh (.scripted reply.bytes) := conn_opened _ _ _
  have accepted : (Request.install .new).decode reply = .ok (.installation {}) := by
    simp only [Request.decode, Request.acknowledged, ack]
    rfl
  obtain ⟨ends, after⟩ := @served_request T s (.install .new) reply (by rw [fresh]; rfl)
    (by rw [fresh]; exact List.prefix_refl _)
  have step : Step T (s.served T (.request (.install .new))) := step_served rfl
  rw [ends] at after step
  rw [accepted] at after step
  let e := s.ended (.request (.install .new)) (.ok (.installation {}), ⟨s.client,
    (s.net.send .request s.client.stream ((Request.install .new).message T).bytes).record
      s.client.stream ⟨reply.bytes, true⟩⟩)
  change Step T e at step
  change connAfter e = _ at after
  refine ⟨e, Run.start.step step, rfl, ?_, rfl, rfl, ?_, fun n => rfl⟩
  · rw [after]
    rfl
  · show (connAfter e).closed = false
    rw [after, fresh]
    rfl

/-- On any acknowledgement an installation begins and its image is streamed. -/
theorem installed_and_streamed {T : Target} {reply : RawIpcMessage T}
    (ack : reply.msgType = some .ack) {contents : List ReadResult} {fuel : Nat}
    (enough : (delivered contents).length < fuel) :
    ∃ (e e' : Transition Session Done) (o : Outcome Error UInt64),
      Run (Step T) (.answeredOnce reply contents) [e, e'] e'.after ∧
      e.label = ⟨.request (.install .new), .ok (.installation {})⟩ ∧
      (connAfter e).reads = e.before.conn.reads ++ [⟨reply.bytes, true⟩] ∧
      e'.label = ⟨.stream (.reader 0) fuel, o⟩ ∧
      (connAfter e').sent = e'.before.conn.sent ++ (delivered contents).map (Prod.mk .image) ∧
      e'.after.client = e'.before.client ∧ e'.after.conn.closed = false ∧
      (endsCleanly contents = true → o = .ok (UInt64.ofNat (delivered contents).length)) ∧
      (endsCleanly contents = false → ∃ e, o = .err (.connection e)) := by
  obtain ⟨e, run, label, reads, _, borrowed, writable, holds⟩ := installed_on_ack ack contents
  obtain ⟨o, w, ends, forwarded, clean, unclean⟩ :=
    @served_stream T e.after 0 fuel contents (holds 0) writable enough
  have step : Step T (e.after.served T (.stream (.reader 0) fuel)) := step_served borrowed.symm
  rw [ends] at step
  refine ⟨e, _, o, run.step step, label, reads, rfl, ?_, rfl, ?_, clean, unclean⟩
  · show (w.conns e.after.client.stream).sent = _
    rw [forwarded.conns, Function.update_self]
    rfl
  · show (w.conns e.after.client.stream).closed = false
    rw [forwarded.conns, Function.update_self, Conn.closed_send]
    exact writable

/-- A request that is dropped while it waits for its reply. -/
def Session.waiting (T : Target) (s : Session) (r : Request) : Transition Session Done :=
  ⟨s, ⟨.request r, .dropped⟩,
    ⟨s.client, (s.net.send .request s.client.stream (r.message T).bytes).record
      s.client.stream ⟨[], false⟩, false⟩⟩

theorem connAfter_waiting (T : Target) (s : Session) (r : Request) :
    connAfter (s.waiting T r) = (s.conn.send .request (r.message T).bytes).record ⟨[], false⟩ := by
  show (World.conns (World.record _ s.client.stream _) s.client.stream) = _
  rw [World.record, World.conns_onConn_same, World.send, World.conns_onConn_same]
  rfl

theorem step_waiting {T : Target} {s : Session} {r : Request} (unborrowed : s.installing = false)
    (writable : s.conn.closed = false) : Step T (s.waiting T r) := by
  refine ⟨unborrowed.symm, ?_, rfl⟩
  show Exec (World.device .request) (r.perform T) ⟨s.client, s.net⟩ .dropped _
  rw [Request.perform_eq, exec_bind]
  refine .inr (.inr ⟨rfl, ?_⟩)
  simp only [ControlClient.sendAndReceive, exec_get_bind]
  refine exec_await_bind.mpr (.inl ⟨.ok (), _, .inl ⟨rfl, writable, rfl⟩, ?_⟩)
  exact exec_await_bind.mpr (.inr ⟨_, ⟨[], List.nil_prefix, Nat.zero_le _, rfl⟩, rfl, rfl⟩)

end SwupdateIpc
