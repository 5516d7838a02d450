import SwupdateIpc.Foundations.Runs
import SwupdateIpc.Progress.Calls

/-!
# Sessions of a progress client

A session is a progress client together with its environment, and a step is one
call of `receive` or of `receiveOrReconnect`: on sockets that may fail, run to its
end or dropped where it waits (`ProgressStep`), or on sockets without failures of
their own (`ProgressServed`).

An event comes from a whole message on the connection held before the step, or
on one that the step has opened and whose acknowledgement it has accepted
(`ProgressStep.effect`).
-/

set_option autoImplicit false

namespace SwupdateIpc

open Foundations Wire

/-- What the owner of a progress client can do. -/
inductive ProgressAction where
  | receive
  | receiveOrReconnect
  deriving DecidableEq, Repr

def ProgressAction.program (T : Target) : ProgressAction → ProgressM ProgressEvent
  | .receive => ProgressClient.receive T
  | .receiveOrReconnect => ProgressClient.receiveOrReconnect T

/-- An action and how it ended. -/
structure ProgressDone where
  action : ProgressAction
  outcome : Outcome Error ProgressEvent

/-- A progress client and its environment. -/
structure ProgressSession where
  client : ProgressClient
  net : World Unit

/-- The connection that the client holds. -/
def ProgressSession.conn (s : ProgressSession) : Conn Unit := s.net.conns s.client.stream

/-- One call, on sockets that may fail. -/
def ProgressStep (T : Target) (e : Transition ProgressSession ProgressDone) : Prop :=
  Exec (World.device ()) (e.label.action.program T) ⟨e.before.client, e.before.net⟩
    e.label.outcome ⟨e.after.client, e.after.net⟩

/-- One call, on sockets without failures of their own. -/
def ProgressServed (T : Target) (e : Transition ProgressSession ProgressDone) : Prop :=
  run (World.serve ()) (e.label.action.program T) ⟨e.before.client, e.before.net⟩ =
    (e.label.outcome, ⟨e.after.client, e.after.net⟩)

theorem ProgressServed.step {T : Target} {e : Transition ProgressSession ProgressDone}
    (served : ProgressServed T e) : ProgressStep T e := by
  have exec := World.exec_serve () (e.label.action.program T) ⟨e.before.client, e.before.net⟩
  rwa [served] at exec

/-- The session after a read of one message without a failure of the device. -/
def ProgressSession.pulled (s : ProgressSession) : ProgressSession :=
  ⟨s.client, s.net.pull s.client.stream s.client.layout.msgSize⟩

theorem ProgressSession.conn_pulled (s : ProgressSession) :
    s.pulled.conn = s.conn.pull s.client.layout.msgSize :=
  s.net.conns_pull_same s.client.stream _

/-- The outcome of a receive on sockets without failures of their own. -/
def ProgressSession.next (T : Target) (s : ProgressSession) : Outcome Error ProgressEvent :=
  if s.client.layout.msgSize ≤ s.conn.available.length then
    .ok (s.client.layout.decode T (s.conn.available.take s.client.layout.msgSize))
  else .err (.connection "early eof")

theorem served_receive (T : Target) (s : ProgressSession) :
    ProgressServed T ⟨s, ⟨.receive, s.next T⟩, s.pulled⟩ :=
  ProgressClient.run_receive T () ⟨s.client, s.net⟩

/-- Every action on sockets without failures of their own ends somehow. -/
theorem served_exists (T : Target) (s : ProgressSession) (action : ProgressAction) :
    ∃ o s', ProgressServed T ⟨s, ⟨action, o⟩, s'⟩ := by
  rcases ended : run (World.serve ()) (action.program T) ⟨s.client, s.net⟩ with ⟨o, client, net⟩
  exact ⟨o, ⟨client, net⟩, ended⟩

/-- An end of a run, as an outcome and a session. -/
theorem ended_same {o o' : Outcome Error ProgressEvent} {s s' : ProgressSession}
    {r : Outcome Error ProgressEvent × Config ProgressClient (World Unit)}
    (ended : r = (o, ⟨s.client, s.net⟩)) (ended' : r = (o', ⟨s'.client, s'.net⟩)) :
    o = o' ∧ s = s' := by
  obtain ⟨client, net⟩ := s
  obtain ⟨client', net'⟩ := s'
  cases ended.symm.trans ended'
  exact ⟨rfl, rfl⟩

/-- The session after a failed receive, a shutdown and a handshake on a new
connection. -/
def ProgressSession.renewed (s : ProgressSession) (peer : Peer Unit) : ProgressSession :=
  ⟨{ s.client with stream := s.net.opened },
    ((s.pulled.net.close s.client.stream).accept s.client.config.progressPath peer).pull
      s.net.opened 8⟩

theorem ProgressSession.layout_renewed (s : ProgressSession) (peer : Peer Unit) :
    (s.renewed peer).client.layout = s.client.layout := rfl

theorem ProgressSession.conn_renewed (s : ProgressSession) (peer : Peer Unit) :
    (s.renewed peer).conn = (Conn.fresh peer).pull 8 := by
  show (((s.pulled.net.close _).accept _ peer).pull s.net.opened 8).conns s.net.opened = _
  rw [World.conns_pull_same]
  exact congrArg (·.pull 8) ((s.pulled.net.close _).conns_accept_new _ peer)

/-- **A receive with reconnect on sockets without failures of their own.** It
receives from the connection held while that has a whole message. Else it tries one
new connection, and it receives from that one if its peer greets. -/
theorem served_receiveOrReconnect {T : Target} {s s' : ProgressSession}
    {o : Outcome Error ProgressEvent}
    (served : ProgressServed T ⟨s, ⟨.receiveOrReconnect, o⟩, s'⟩) :
    (s.client.layout.msgSize ≤ s.conn.available.length ∧ o = s.next T ∧ s' = s.pulled) ∨
    (s.conn.available.length < s.client.layout.msgSize ∧
      ((∃ peer rest, s.net.attempts s.client.config.progressPath = .accepted peer :: rest ∧
          ((Greets T (peer.wrote []) ∧ o = (s.renewed peer).next T ∧
              s' = (s.renewed peer).pulled) ∨
            (¬ Greets T (peer.wrote []) ∧ (∀ event, o ≠ .ok event) ∧ s' = s.renewed peer))) ∨
        ((∀ peer rest, s.net.attempts s.client.config.progressPath ≠ .accepted peer :: rest) ∧
          (∀ event, o ≠ .ok event) ∧ s'.client = s.client ∧
          s'.net.conns = (s.pulled.net.close s.client.stream).conns ∧
          s'.net.opened = s.net.opened))) := by
  change run (World.serve ()) (ProgressClient.receiveOrReconnect T) ⟨s.client, s.net⟩ =
    (o, ⟨s'.client, s'.net⟩) at served
  by_cases enough : s.client.layout.msgSize ≤ s.conn.available.length
  · rw [ProgressClient.run_receiveOrReconnect_received T () _ enough] at served
    obtain ⟨rfl, rfl⟩ := ended_same served (served_receive T s)
    exact .inl ⟨enough, rfl, rfl⟩
  · have short : s.conn.available.length < s.client.layout.msgSize := by omega
    rw [ProgressClient.run_receiveOrReconnect_reconnects T () _ short] at served
    change run _ _ ⟨s.client, s.pulled.net⟩ = _ at served
    refine .inr ⟨short, ?_⟩
    rcases ProgressClient.run_reconnect T () ⟨s.client, s.pulled.net⟩ with
      ⟨peer, rest, r, next, ran, accepted⟩ | ⟨never, e, w, ran, conns, opened⟩
    · refine .inl ⟨peer, rest, next, ?_⟩
      change run _ (ProgressClient.reconnect T) _ =
        (r, ⟨(s.renewed peer).client, (s.renewed peer).net⟩) at ran
      rw [run_bind, ran] at served
      by_cases greets : Greets T (peer.wrote [])
      · rw [accepted.mpr greets] at served
        obtain ⟨rfl, rfl⟩ := ended_same served (served_receive T (s.renewed peer))
        exact .inl ⟨greets, rfl, rfl⟩
      · refine .inr ⟨greets, ?_⟩
        cases r with
        | ok u => exact absurd (accepted.mp rfl) greets
        | err e =>
            obtain ⟨rfl, rfl⟩ := ended_same served.symm rfl
            exact ⟨by simp, rfl⟩
        | dropped =>
            obtain ⟨rfl, rfl⟩ := ended_same served.symm rfl
            exact ⟨by simp, rfl⟩
    · rw [run_bind, ran] at served
      refine .inr ⟨never, ?_⟩
      obtain ⟨rfl, rfl⟩ := @ended_same _ _ s' ⟨s.client, w⟩ _ served rfl
      exact ⟨by simp, rfl, conns, opened⟩

/-- A connection without a whole message is given up for the next one, if its peer
greets. -/
theorem served_renewed {T : Target} {s : ProgressSession} {peer : Peer Unit}
    {rest : List (Attempt Unit)}
    (short : s.conn.available.length < s.client.layout.msgSize)
    (next : s.net.attempts s.client.config.progressPath = .accepted peer :: rest)
    (greets : Greets T (peer.wrote [])) :
    ProgressServed T
      ⟨s, ⟨.receiveOrReconnect, (s.renewed peer).next T⟩, (s.renewed peer).pulled⟩ := by
  obtain ⟨o, s', served⟩ := served_exists T s .receiveOrReconnect
  obtain ⟨whole, _⟩ | ⟨_, ⟨peer', rest', next', ⟨_, rfl, rfl⟩ | ⟨ungreeted, _⟩⟩ | ⟨never, _⟩⟩ :=
    served_receiveOrReconnect served
  · omega
  · cases next.symm.trans next'
    exact served
  · cases next.symm.trans next'
    exact absurd greets ungreeted
  · exact absurd next (never _ _)

/-- A progress client that has just connected. -/
def ProgressConnected (T : Target) (s : ProgressSession) : Prop :=
  ∃ (config : SocketConfig) (c : Config ProgressClient (World Unit)),
    Exec (World.device ()) (ProgressClient.connect T config) c (.ok ()) ⟨s.client, s.net⟩

/-- A progress client that has just connected, on sockets without failures of their
own. -/
def ProgressOpened (T : Target) (s : ProgressSession) : Prop :=
  ∃ (config : SocketConfig) (c : Config ProgressClient (World Unit)),
    run (World.serve ()) (ProgressClient.connect T config) c = (.ok (), ⟨s.client, s.net⟩)

theorem ProgressOpened.connected {T : Target} {s : ProgressSession} (opened : ProgressOpened T s) :
    ProgressConnected T s := by
  obtain ⟨config, c, ran⟩ := opened
  have exec := World.exec_serve () (ProgressClient.connect T config) c
  rw [ran] at exec
  exact ⟨config, c, exec⟩

/-- A connection of which nothing is taken but an acknowledgement that is
accepted. -/
structure Welcomed (T : Target) (c : Conn Unit) : Prop where
  read : ∃ ack, AckAccepted T ack ∧ c.reads = [⟨ack, true⟩]
  sound : c.Sound

theorem welcomed_new {T : Target} {peer : Peer Unit} {stretch : Stretch}
    (read : stretch.bytes <+: (Conn.fresh peer).available) (full : stretch.full = true)
    (accepted : AckAccepted T stretch.bytes) : Welcomed T ((Conn.fresh peer).record stretch) where
  read := by
    obtain ⟨bytes, _⟩ := stretch
    cases full
    exact ⟨bytes, accepted, rfl⟩
  sound := by
    have fresh : (Conn.fresh peer).Sound := List.nil_prefix
    exact fresh.record read

/-- A client that has just connected holds a connection that is welcomed. -/
theorem ProgressConnected.welcomed {T : Target} {s : ProgressSession}
    (connected : ProgressConnected T s) : Welcomed T s.conn := by
  obtain ⟨config, c, exec⟩ := connected
  obtain ⟨peer, ack, read, accepted, own, world⟩ := ProgressClient.exec_connect_ok exec
  change s.client = _ at own
  change s.net = _ at world
  have conn : s.conn = (Conn.fresh peer).record ⟨ack, true⟩ := by
    rw [ProgressSession.conn, own, world, World.record, World.conns_onConn_same]
    exact congrArg (Conn.record · _) (World.conns_accept_new _ _ _)
  rw [conn]
  exact welcomed_new read rfl accepted

/-! ## Connecting to a peer that greets -/

/-- The acknowledgement of a daemon with the version of the header. Its magic is a string of
C, which ends with a NUL. -/
def ackBytes (T : Target) : List UInt8 :=
  u32ToNeBytes T Header.PROGRESS_API_VERSION ++
    (utf8Bytes Header.PROGRESS_CONNECT_ACK_MAGIC ++ [0])

theorem length_ackBytes (T : Target) : (ackBytes T).length = 8 := by
  rw [ackBytes, List.length_append, length_u32ToNeBytes]
  rfl

theorem drop_ackBytes (T : Target) (rest : List UInt8) : (ackBytes T ++ rest).drop 8 = rest := by
  rw [← length_ackBytes T, List.drop_left]

theorem greets_ackBytes (T : Target) (rest : List UInt8) : Greets T (ackBytes T ++ rest) := by
  have taken : (ackBytes T ++ rest).take 8 = ackBytes T := by
    rw [← length_ackBytes T, List.take_left]
  have four := length_u32ToNeBytes T Header.PROGRESS_API_VERSION
  rw [Greets, taken]
  refine ⟨length_ackBytes T, ?_, ?_⟩
  · rw [ackBytes, slice, ← four, List.drop_left, four]
    rfl
  · rw [ackBytes, ← four, List.take_left, u32ToNeBytes, ByteOrder.decode_encode]
    rfl

/-- A client can connect to a peer that greets, whatever the version output is. -/
theorem started_offered (T : Target) (config : SocketConfig) (peer : Peer Unit)
    (greets : Greets T (peer.wrote [])) (later : List (Attempt Unit))
    (outputs : List (Except IoError (List UInt8))) :
    ∃ (s : ProgressSession) (c : Config ProgressClient (World Unit)), c.world.outputs = outputs ∧
      run (World.serve ()) (ProgressClient.connect T config) c = (.ok (), ⟨s.client, s.net⟩) ∧
      s.conn = (Conn.fresh peer).pull 8 ∧
      s.net.attempts s.client.config.progressPath = later := by
  let c : Config ProgressClient (World Unit) :=
    ⟨⟨0, config, .packed⟩,
      { World.initial fun _ => .accepted peer :: later with outputs := outputs }⟩
  rcases ProgressClient.run_connect T () c config with
    ⟨peer', rest, o, layout, w, next, ran, _, conn, left, accepted⟩ | ⟨never, _⟩
  · cases next
    obtain rfl := accepted.mpr greets
    exact ⟨⟨⟨c.world.opened, config, layout⟩, w⟩, c, rfl, ran, conn, left⟩
  · exact absurd rfl (never peer later)

/-- A client can connect to a peer that greets. -/
theorem opened_offered (T : Target) (config : SocketConfig) (peer : Peer Unit)
    (greets : Greets T (peer.wrote [])) (later : List (Attempt Unit)) :
    ∃ s, ProgressOpened T s ∧ s.conn = (Conn.fresh peer).pull 8 ∧
      s.net.attempts s.client.config.progressPath = later := by
  obtain ⟨s, c, _, ran, conn, left⟩ := started_offered T config peer greets later []
  exact ⟨s, ⟨config, c, ran⟩, conn, left⟩

/-- A connection just opened holds its whole stream but the first eight bytes. -/
theorem ProgressOpened.fresh {T : Target} {s : ProgressSession} (opened : ProgressOpened T s) :
    s.client.stream + 1 = s.net.opened ∧ ∃ peer, s.conn = (Conn.fresh peer).pull 8 := by
  obtain ⟨client, net⟩ := s
  obtain ⟨config, c, ran⟩ := opened
  rcases ProgressClient.run_connect T () c config with
    ⟨peer, rest, o, layout, w, _, ran', count, conn, _⟩ | ⟨_, e, c', ran'⟩
  · cases ran.symm.trans ran'
    exact ⟨count.symm, peer, conn⟩
  · cases ran.symm.trans ran'

/-- What is left on a connection to a peer that has been read for eight bytes. -/
theorem available_pull_fresh (peer : Peer Unit) :
    ((Conn.fresh peer).pull 8).available = (peer.wrote []).drop 8 := by
  rw [Conn.available_pull]
  rfl

/-- A client receives the one message of its connection, and then the first one of the
connection after it. -/
theorem receives_twice {T : Target} {s : ProgressSession} {second : Peer Unit}
    {rest : List (Attempt Unit)} (whole : s.client.layout.msgSize ≤ s.conn.available.length)
    (one : s.conn.available.length < 2 * s.client.layout.msgSize)
    (next : s.net.attempts s.client.config.progressPath = .accepted second :: rest)
    (greets : Greets T (second.wrote []))
    (whole' : s.client.layout.msgSize ≤ ((second.wrote []).drop 8).length) :
    ∃ e₁ e₂, e₁.before = s ∧ e₂.before = e₁.after ∧ ProgressServed T e₁ ∧ ProgressServed T e₂ ∧
      e₁.label = ⟨.receive, .ok (s.client.layout.decode T
        (s.conn.available.take s.client.layout.msgSize))⟩ ∧
      e₂.label = ⟨.receiveOrReconnect, .ok (s.client.layout.decode T
        (((second.wrote []).drop 8).take s.client.layout.msgSize))⟩ ∧
      e₁.after.client = s.client ∧ e₂.after.client.stream = s.net.opened ∧
      e₂.after.conn.inbound = second.wrote [] := by
  have first := served_receive T s
  rw [ProgressSession.next, if_pos whole] at first
  have short : s.pulled.conn.available.length < s.pulled.client.layout.msgSize := by
    rw [s.conn_pulled, Conn.available_pull, List.length_drop]
    show _ < s.client.layout.msgSize
    omega
  have conn := s.pulled.conn_renewed second
  have again := served_renewed short next greets
  have same : (s.pulled.renewed second).client.layout = s.client.layout :=
    s.pulled.layout_renewed second
  rw [ProgressSession.next, conn, available_pull_fresh, same, if_pos whole'] at again
  refine ⟨_, _, rfl, rfl, first, again, rfl, rfl, rfl, rfl, ?_⟩
  rw [ProgressSession.conn_pulled, conn]
  rfl

/-! ## What a step does -/

/-- The last read of a connection took no message: it was cut, or it took an
acknowledgement. -/
def Interrupted (c : Conn Unit) : Prop :=
  ∃ earlier last, c.reads = earlier ++ [last] ∧ (last.full = true → last.bytes.length = 8)

theorem interrupted_record (c : Conn Unit) {stretch : Stretch}
    (size : stretch.full = true → stretch.bytes.length = 8) : Interrupted (c.record stretch) :=
  ⟨c.reads, stretch, c.reads_record stretch, size⟩

/-- **What a step can do.** It keeps the layout. An event comes from a whole message
on the connection held before, or on a new connection that is welcomed. Without an
event, the last read of the connection held took no message. -/
inductive ProgressEffect (T : Target) (s s' : ProgressSession) :
    Outcome Error ProgressEvent → Prop where
  | event {base : Conn Unit} {frame : List UInt8} (origin : base = s.conn ∨ Welcomed T base)
      (read : frame <+: base.available) (full : frame.length = s.client.layout.msgSize)
      (conn : s'.conn = base.record ⟨frame, true⟩) :
      ProgressEffect T s s' (.ok (s.client.layout.decode T frame))
  | silence {o : Outcome Error ProgressEvent} (none : ∀ event, o ≠ .ok event)
      (interrupted : Interrupted s'.conn) : ProgressEffect T s s' o

section Effects

variable {T : Target} {s s' : ProgressSession} {o : Outcome Error ProgressEvent}

/-- A receive takes its event from the connection held. -/
theorem effect_receive (exec : Exec (World.device ()) (ProgressClient.receive T)
    ⟨s.client, s.net⟩ o ⟨s'.client, s'.net⟩) :
    s'.client = s.client ∧ ProgressEffect T s s' o := by
  obtain ⟨own, ⟨bytes, whole⟩, read, world, result⟩ := ProgressClient.exec_receive exec
  change s'.client = s.client at own
  change s'.net = s.net.record s.client.stream _ at world
  have conn : s'.conn = s.conn.record ⟨bytes, whole⟩ := by
    rw [ProgressSession.conn, own, world, World.record, World.conns_onConn_same]
    rfl
  refine ⟨own, ?_⟩
  rcases result with ⟨rfl, full, size⟩ | ⟨cut, short⟩
  · cases full
    exact .event (.inl rfl) read size conn
  · cases short
    refine .silence ?_ ?_
    · rintro event rfl
      exact not_cut_ok event cut
    · rw [conn]
      exact interrupted_record _ (by simp)

/-- A receive that returns no event fails with a connection error, or is dropped. -/
theorem receive_failed {c c' : Config ProgressClient (World Unit)} {error : Error}
    (exec : Exec (World.device ()) (ProgressClient.receive T) c (.err error) c') :
    ∃ e, error = .connection e := by
  obtain ⟨_, _, _, _, ⟨returned, _⟩ | ⟨cut, _⟩⟩ := ProgressClient.exec_receive exec
  · cases returned
  · rcases cut with dropped | ⟨e, failed⟩
    · cases dropped
    · cases failed
      exact ⟨e, rfl⟩

/-- A reconnect keeps the layout, and it takes no message. When it succeeds, the new
connection is welcomed. -/
theorem effect_reconnect {c c' : Config ProgressClient (World Unit)} {o : Outcome Error Unit}
    (exec : Exec (World.device ()) (ProgressClient.reconnect T) c o c')
    (interrupted : Interrupted (c.world.conns c.own.stream)) :
    c'.own.layout = c.own.layout ∧ Interrupted (c'.world.conns c'.own.stream) ∧
      (o = .ok () → Welcomed T (c'.world.conns c'.own.stream)) := by
  obtain ⟨w, shut, ⟨path, peer, stretch, own, read, world, size, accepted⟩ |
      ⟨failed, own, conns, _⟩⟩ :=
    ProgressClient.exec_reconnect exec
  · have opened : w.opened = c.world.opened := by
      rcases shut with rfl | rfl <;> rfl
    have conn : c'.world.conns c'.own.stream = (Conn.fresh peer).record stretch := by
      rw [own, world, ← opened, World.record, World.conns_onConn_same, World.conns_accept_new]
    rw [own] at conn ⊢
    rw [conn]
    refine ⟨rfl, interrupted_record _ size, ?_⟩
    intro success
    exact welcomed_new read (accepted success).1 (accepted success).2
  · refine ⟨by rw [own], ?_, fun success => absurd success failed⟩
    rw [own, conns]
    rcases shut with rfl | rfl
    · exact interrupted
    · rw [World.close, World.conns_onConn_same]
      exact interrupted

/-- After a receive that failed, a reconnect and a second receive. -/
theorem effect_retry {c₁ : Config ProgressClient (World Unit)} {error : Error}
    (first : Exec (World.device ()) (ProgressClient.receive T) ⟨s.client, s.net⟩ (.err error) c₁)
    (rest : Exec (World.device ())
      (ProgressClient.reconnect T >>= fun _ => ProgressClient.receive T) c₁ o
        ⟨s'.client, s'.net⟩) :
    s'.client.layout = s.client.layout ∧ ProgressEffect T s s' o := by
  obtain ⟨own, effect⟩ := @effect_receive T s ⟨c₁.own, c₁.world⟩ _ first
  change c₁.own = s.client at own
  have interrupted : Interrupted (c₁.world.conns c₁.own.stream) := by
    generalize failed : Outcome.err error = r at effect
    cases effect with
    | event => cases failed
    | silence _ interrupted => exact interrupted
  have kept : ∀ {r : Outcome Error Unit} {c₂ : Config ProgressClient (World Unit)},
      Exec (World.device ()) (ProgressClient.reconnect T) c₁ r c₂ →
        c₂.own.layout = s.client.layout ∧
          Interrupted (c₂.world.conns c₂.own.stream) ∧
          (r = .ok () → Welcomed T (c₂.world.conns c₂.own.stream)) := by
    intro r c₂ again
    obtain ⟨layout, still, welcomed⟩ := effect_reconnect again interrupted
    exact ⟨layout.trans (congrArg _ own), still, welcomed⟩
  rcases exec_bind.mp rest with ⟨_, c₂, again, last⟩ | ⟨e, rfl, again⟩ | ⟨rfl, again⟩
  · obtain ⟨layout, _, welcomed⟩ := kept again
    obtain ⟨own', effect'⟩ := @effect_receive T ⟨c₂.own, c₂.world⟩ s' _ last
    refine ⟨by rw [own', layout], ?_⟩
    cases effect' with
    | @event base frame origin read full conn =>
        have new : Welcomed T base := by
          rcases origin with rfl | new
          · exact welcomed rfl
          · exact new
        change frame.length = c₂.own.layout.msgSize at full
        change ProgressEffect T s s' (.ok (c₂.own.layout.decode T frame))
        rw [layout] at full ⊢
        exact .event (.inr new) read full conn
    | silence none still => exact .silence none still
  · obtain ⟨layout, still, _⟩ := kept again
    exact ⟨layout, .silence (by simp) still⟩
  · obtain ⟨layout, still, _⟩ := kept again
    exact ⟨layout, .silence (by simp) still⟩

theorem ProgressStep.effect {e : Transition ProgressSession ProgressDone}
    (step : ProgressStep T e) :
    e.after.client.layout = e.before.client.layout ∧
      ProgressEffect T e.before e.after e.label.outcome := by
  obtain ⟨s, ⟨action, o⟩, s'⟩ := e
  cases action with
  | receive =>
      obtain ⟨own, effect⟩ := effect_receive step
      exact ⟨congrArg ProgressClient.layout own, effect⟩
  | receiveOrReconnect =>
      change Exec _ (ProgressClient.receiveOrReconnect T) ⟨s.client, s.net⟩ o _ at step
      rw [ProgressClient.receiveOrReconnect, exec_bind] at step
      rcases step with ⟨r, c₁, attempted, rest⟩ | ⟨e, rfl, attempted⟩ | ⟨rfl, attempted⟩
      · rcases exec_attempt.mp attempted with ⟨event, ⟨⟩, first⟩ | ⟨error, ⟨⟩, first⟩ | ⟨⟨⟩, _⟩
        · obtain ⟨rfl, same⟩ := rest
          rw [← same] at first
          obtain ⟨own, effect⟩ := effect_receive first
          exact ⟨congrArg ProgressClient.layout own, effect⟩
        · obtain ⟨e, rfl⟩ := receive_failed first
          exact effect_retry first rest
      · rcases exec_attempt.mp attempted with ⟨_, ⟨⟩, _⟩ | ⟨_, ⟨⟩, _⟩ | ⟨⟨⟩, _⟩
      · rcases exec_attempt.mp attempted with ⟨_, ⟨⟩, _⟩ | ⟨_, ⟨⟩, _⟩ | ⟨_, first⟩
        obtain ⟨own, effect⟩ := effect_receive first
        exact ⟨congrArg ProgressClient.layout own, effect⟩

end Effects

end SwupdateIpc
