import SwupdateIpc.Progress.Session

/-!
# The feed of a progress client

What a peer writes after its acknowledgement is cut into messages of the layout;
the events of these messages are the feed of the connection. On sockets without
failures of their own, and when every new connection greets, the events that a run
returns from a connection, followed by those of the messages still left on it, are
the feed of that connection. Nothing is left on a connection that was given up
(`Feeding`, `ProgressOpened.events_are_the_feed`).
-/

set_option autoImplicit false

namespace SwupdateIpc

open Foundations Wire

/-- The event that a call returned, if it returned one. -/
def returned : Outcome Error ProgressEvent → List ProgressEvent
  | .ok event => [event]
  | _ => []

theorem returned_eq_nil {o : Outcome Error ProgressEvent} (none : ∀ event, o ≠ .ok event) :
    returned o = [] := by
  cases o with
  | ok event => exact absurd rfl (none event)
  | err e => rfl
  | dropped => rfl

/-- The events that a run returned, in order. -/
def events (es : List (Transition ProgressSession ProgressDone)) : List ProgressEvent :=
  es.flatMap fun e => returned e.label.outcome

/-- The events that a run returned from one connection, in order. -/
def eventsOn (fd : Nat) (es : List (Transition ProgressSession ProgressDone)) :
    List ProgressEvent :=
  events (es.filter fun e => e.after.client.stream = fd)

theorem eventsOn_nil (fd : Nat) : eventsOn fd [] = [] := rfl

theorem eventsOn_concat (fd : Nat) (es : List (Transition ProgressSession ProgressDone))
    (e : Transition ProgressSession ProgressDone) :
    eventsOn fd (es ++ [e]) =
      eventsOn fd es ++ if e.after.client.stream = fd then returned e.label.outcome else [] := by
  rw [eventsOn, List.filter_append, events, List.flatMap_append]
  congr 1
  by_cases here : e.after.client.stream = fd <;> simp [here]

namespace ProgressSession

variable (T : Target)

/-- The events of the messages that a stream of bytes is cut into. -/
def decoded (s : ProgressSession) (bytes : List UInt8) : List ProgressEvent :=
  (frames s.client.layout.msgSize bytes).map (s.client.layout.decode T)

/-- The events of the messages left on a connection. -/
def left (s : ProgressSession) (fd : Nat) : List ProgressEvent :=
  s.decoded T (s.net.conns fd).available

/-- The events of the messages after the acknowledgement of a connection. -/
def feed (s : ProgressSession) (fd : Nat) : List ProgressEvent :=
  s.decoded T ((s.net.conns fd).inbound.drop 8)

variable {T}

theorem left_eq_nil {s : ProgressSession} {fd : Nat}
    (short : (s.net.conns fd).available.length < s.client.layout.msgSize) : s.left T fd = [] := by
  rw [left, decoded, frames_of_short short, List.map_nil]

/-- A receive on sockets without failures returns the first of the events left. -/
theorem returned_next (s : ProgressSession) :
    returned (s.next T) ++ s.pulled.left T s.client.stream = s.left T s.client.stream := by
  have rest : (s.pulled.net.conns s.client.stream).available =
      s.conn.available.drop s.client.layout.msgSize := by
    rw [← Conn.available_pull, ← conn_pulled]
    rfl
  by_cases enough : s.client.layout.msgSize ≤ s.conn.available.length
  · rw [next, if_pos enough, left, left, rest]
    show _ = s.decoded T s.conn.available
    rw [decoded, decoded, frames_of_le s.client.layout.msgSize_pos enough, List.map_cons]
    rfl
  · have short : s.conn.available.length < s.client.layout.msgSize := by omega
    have shorter : (s.pulled.net.conns s.client.stream).available.length <
        s.pulled.client.layout.msgSize := by
      rw [rest, List.length_drop]
      change _ < s.client.layout.msgSize
      omega
    rw [next, if_neg enough, left_eq_nil short, left_eq_nil shorter]
    rfl

/-- A receive takes nothing from the connections that the client does not hold. -/
theorem conns_pulled_other (s : ProgressSession) {fd : Nat} (other : fd ≠ s.client.stream) :
    s.pulled.net.conns fd = s.net.conns fd := by
  rw [pulled, World.pull, World.conns_onConn_other _ _ other]

theorem feed_pulled (s : ProgressSession) (fd : Nat) : s.pulled.feed T fd = s.feed T fd := by
  have same : (s.pulled.net.conns fd).inbound = (s.net.conns fd).inbound := by
    rw [pulled, World.pull]
    exact World.observe_onConn Conn.inbound (fun c => c.pull _) (fun _ => rfl) ..
  rw [feed, same]
  rfl

/-- The session after a receive and a shutdown of the connection held. -/
def shut (s : ProgressSession) : ProgressSession :=
  ⟨s.client, s.pulled.net.close s.client.stream⟩

theorem feed_shut (s : ProgressSession) (fd : Nat) : s.shut.feed T fd = s.feed T fd := by
  have same : (s.shut.net.conns fd).inbound = (s.pulled.net.conns fd).inbound := by
    rw [shut, World.close]
    exact World.observe_onConn Conn.inbound Conn.close (fun _ => rfl) ..
  rw [feed, same]
  exact s.feed_pulled fd

/-- A receive that finds no whole message takes no message from any connection. -/
theorem left_shut {s : ProgressSession}
    (short : s.conn.available.length < s.client.layout.msgSize) (fd : Nat) :
    s.shut.left T fd = s.left T fd := by
  have same : (s.shut.net.conns fd).available = (s.pulled.net.conns fd).available := by
    rw [shut, World.close]
    exact World.observe_onConn Conn.available Conn.close (fun _ => rfl) ..
  rw [left, same]
  show s.pulled.left T fd = _
  by_cases held : s.client.stream = fd
  · have drawn := s.returned_next (T := T)
    rw [next, if_neg (by omega)] at drawn
    rw [← held]
    exact drawn
  · rw [left, s.conns_pulled_other (Ne.symm held)]
    rfl

/-- A new connection gives its whole feed. -/
theorem left_new {s : ProgressSession} {fd : Nat} {peer : Peer Unit}
    (new : s.net.conns fd = (Conn.fresh peer).pull 8) : s.left T fd = s.feed T fd := by
  rw [left, feed, new, available_pull_fresh]
  rfl

/-- A reconnect leaves the connections opened before as the shutdown left them. -/
theorem conns_renewed_old (s : ProgressSession) (peer : Peer Unit) {fd : Nat}
    (old : fd < s.net.opened) : (s.renewed peer).net.conns fd = s.shut.net.conns fd := by
  have older : fd < s.shut.net.opened := old
  rw [renewed, World.pull, World.conns_onConn_other _ _ (Nat.ne_of_lt old)]
  exact s.shut.net.conns_accept_old _ peer older

end ProgressSession

/-! ## What a step feeds -/

section Steps

variable {T : Target} {s s' : ProgressSession}

/-- What a step on sockets without failures does to the feeds, when the event it
returns is put down to the connection held after it. It opens one connection at
most, and then no message is left on the one that it gives up. -/
structure Feeding (T : Target) (s : ProgressSession) (o : Outcome Error ProgressEvent)
    (s' : ProgressSession) : Prop where
  layout : s'.client.layout = s.client.layout
  newest : s'.client.stream + 1 = s'.net.opened
  opens : s'.net.opened = s.net.opened ∨
    (s'.net.opened = s.net.opened + 1 ∧ s.left T s.client.stream = [])
  old : ∀ fd, fd < s.net.opened →
    (if s'.client.stream = fd then returned o else []) ++ s'.left T fd = s.left T fd ∧
      s'.feed T fd = s.feed T fd
  new : ∀ fd, s.net.opened ≤ fd → fd < s'.net.opened →
    (if s'.client.stream = fd then returned o else []) ++ s'.left T fd = s'.feed T fd

/-- A receive feeds from the connection held. -/
theorem feeding_next (newest : s.client.stream + 1 = s.net.opened) :
    Feeding T s (s.next T) s.pulled where
  layout := rfl
  newest := newest
  opens := .inl rfl
  old fd _ := by
    refine ⟨?_, s.feed_pulled fd⟩
    by_cases held : s.client.stream = fd
    · rw [← held]
      show (if s.client.stream = s.client.stream then _ else _) ++ _ = _
      rw [if_pos rfl, s.returned_next]
    · show (if s.client.stream = fd then _ else _) ++ _ = _
      rw [if_neg held, List.nil_append, ProgressSession.left,
        s.conns_pulled_other (Ne.symm held)]
      rfl
  new fd old new := by
    change fd < s.net.opened at new
    omega

/-- A receive with reconnect that does not reconnect feeds nothing. -/
theorem feeding_unserved {o : Outcome Error ProgressEvent}
    (newest : s.client.stream + 1 = s.net.opened)
    (short : s.conn.available.length < s.client.layout.msgSize) (none : ∀ event, o ≠ .ok event)
    (client : s'.client = s.client) (conns : s'.net.conns = s.shut.net.conns)
    (opened : s'.net.opened = s.net.opened) : Feeding T s o s' where
  layout := by rw [client]
  newest := by rw [client, opened, newest]
  opens := .inl opened
  old fd _ := by
    have left : s'.left T fd = s.shut.left T fd := by
      rw [ProgressSession.left, ProgressSession.decoded, client, conns]
      rfl
    have feed : s'.feed T fd = s.shut.feed T fd := by
      rw [ProgressSession.feed, ProgressSession.decoded, client, conns]
      rfl
    rw [returned_eq_nil none, ite_self, List.nil_append, left, feed]
    exact ⟨ProgressSession.left_shut short fd, s.feed_shut fd⟩
  new fd old new := by omega

/-- A reconnect and a receive feed from the new connection. -/
theorem feeding_renewed (short : s.conn.available.length < s.client.layout.msgSize)
    (peer : Peer Unit) :
    Feeding T s ((s.renewed peer).next T) (s.renewed peer).pulled where
  layout := rfl
  newest := rfl
  opens := .inr ⟨rfl, ProgressSession.left_eq_nil short⟩
  old fd old := by
    have next := @feeding_next T (s.renewed peer) rfl
    obtain ⟨left, feed⟩ := next.old fd (Nat.lt_succ_of_lt old)
    have same := s.conns_renewed_old peer old
    rw [left, feed, ProgressSession.left, ProgressSession.feed, same]
    exact ⟨ProgressSession.left_shut short fd, s.feed_shut fd⟩
  new fd old new := by
    have next := @feeding_next T (s.renewed peer) rfl
    obtain ⟨left, feed⟩ := next.old fd new
    obtain rfl : fd = s.net.opened := by
      change fd < s.net.opened + 1 at new
      omega
    rw [left, feed]
    exact ProgressSession.left_new (s.conn_renewed peer)

/-- **What a step feeds**, when the connection it opens, if any, greets. -/
theorem ProgressServed.feeding {e : Transition ProgressSession ProgressDone}
    (served : ProgressServed T e) (newest : e.before.client.stream + 1 = e.before.net.opened)
    (greets : e.after.client.stream ≠ e.before.client.stream → Greets T e.after.conn.inbound) :
    Feeding T e.before e.label.outcome e.after := by
  obtain ⟨s, ⟨action, o⟩, s'⟩ := e
  cases action with
  | receive =>
      obtain ⟨rfl, rfl⟩ := ended_same served (served_receive T s)
      exact feeding_next newest
  | receiveOrReconnect =>
      rcases served_receiveOrReconnect served with ⟨_, rfl, rfl⟩ | ⟨short,
        ⟨peer, rest, _, ⟨_, rfl, rfl⟩ | ⟨ungreeted, _, rfl⟩⟩ | ⟨_, none, client, conns, opened⟩⟩
      · exact feeding_next newest
      · exact feeding_renewed short peer
      · change s.client.stream + 1 = s.net.opened at newest
        change s.net.opened ≠ s.client.stream → Greets T (s.renewed peer).conn.inbound at greets
        rw [s.conn_renewed] at greets
        exact absurd (greets (by omega)) ungreeted
      · exact feeding_unserved newest short none client conns opened

end Steps

/-! ## What a run feeds -/

section Runs

variable {T : Target} {s s' : ProgressSession}
  {es : List (Transition ProgressSession ProgressDone)}

/-- The events of a run from a session, as the feeds of the connections held since
then. -/
structure Fed (T : Target) (s : ProgressSession)
    (es : List (Transition ProgressSession ProgressDone)) (s' : ProgressSession) : Prop where
  newest : s'.client.stream + 1 = s'.net.opened
  later : s.client.stream ≤ s'.client.stream
  given : ∀ fd, s.client.stream ≤ fd → fd ≤ s'.client.stream →
    eventsOn fd es ++ s'.left T fd = s'.feed T fd
  spent : ∀ fd, s.client.stream ≤ fd → fd < s'.client.stream → s'.left T fd = []
  unheld : ∀ fd, s'.client.stream < fd → eventsOn fd es = []
  ordered : events es = (List.range' s.client.stream (s'.client.stream - s.client.stream)).flatMap
    (fun fd => eventsOn fd es) ++ eventsOn s'.client.stream es

theorem Fed.start (newest : s.client.stream + 1 = s.net.opened)
    (whole : s.left T s.client.stream = s.feed T s.client.stream) : Fed T s [] s where
  newest := newest
  later := Nat.le_refl _
  given fd first last := by
    obtain rfl := Nat.le_antisymm first last
    rw [eventsOn_nil, List.nil_append, whole]
  spent fd first last := by omega
  unheld fd _ := eventsOn_nil fd
  ordered := by
    rw [Nat.sub_self]
    rfl

/-- The events of the connections before one are those of a run without its last
step, when that step is put down to it. -/
theorem flatMap_eventsOn_concat {e : Transition ProgressSession ProgressDone} (first : Nat)
    {last : Nat} (held : e.after.client.stream = last) :
    (List.range' first (last - first)).flatMap (fun fd => eventsOn fd (es ++ [e])) =
      (List.range' first (last - first)).flatMap fun fd => eventsOn fd es := by
  apply List.flatMap_congr
  intro fd member
  obtain ⟨_, before⟩ := List.mem_range'_1.mp member
  rw [eventsOn_concat, if_neg (by omega), List.append_nil]

/-- A step that feeds goes on with the feeds. -/
theorem Fed.step {e : Transition ProgressSession ProgressDone} (fed : Fed T s es e.before)
    (feeding : Feeding T e.before e.label.outcome e.after) : Fed T s (es ++ [e]) e.after := by
  have moved : e.after.client.stream = e.before.client.stream ∨
      (e.after.client.stream = e.before.client.stream + 1 ∧
        e.before.left T e.before.client.stream = []) := by
    have before := fed.newest
    have after := feeding.newest
    rcases feeding.opens with same | ⟨one, empty⟩
    · exact .inl (by omega)
    · exact .inr ⟨by omega, empty⟩
  refine ⟨feeding.newest, ?_, fun fd first last => ?_, fun fd first last => ?_,
    fun fd later => ?_, ?_⟩
  · have later := fed.later
    omega
  · rw [eventsOn_concat, List.append_assoc]
    by_cases old : fd < e.before.net.opened
    · obtain ⟨left, feed⟩ := feeding.old fd old
      have held := fed.newest
      rw [left, feed, fed.given fd first (by omega)]
    · have held := fed.newest
      have opened := feeding.newest
      rw [feeding.new fd (by omega) (by omega), fed.unheld fd (by omega), List.nil_append]
  · have held := fed.newest
    have old : fd < e.before.net.opened := by omega
    have empty : e.before.left T fd = [] := by
      by_cases before : fd < e.before.client.stream
      · exact fed.spent fd first before
      · rcases moved with same | ⟨one, empty⟩
        · omega
        · obtain rfl : fd = e.before.client.stream := by omega
          exact empty
    have split := (feeding.old fd old).1
    rw [empty] at split
    exact (List.append_eq_nil_iff.mp split).2
  · rw [eventsOn_concat, if_neg (by omega), List.append_nil]
    exact fed.unheld fd (by omega)
  · rw [events, List.flatMap_append, ← events, List.flatMap_singleton,
      flatMap_eventsOn_concat _ rfl, eventsOn_concat, if_pos rfl, ← List.append_assoc]
    congr 1
    rcases moved with same | ⟨one, _⟩
    · rw [same]
      exact fed.ordered
    · have later := fed.later
      have more : e.after.client.stream - s.client.stream =
          e.before.client.stream - s.client.stream + 1 := by omega
      have last : s.client.stream + (e.before.client.stream - s.client.stream) =
          e.before.client.stream := by omega
      rw [more, List.range'_1_concat, List.flatMap_append, List.flatMap_singleton, last,
        fed.unheld e.after.client.stream (by omega), List.append_nil]
      exact fed.ordered

/-- A run in which every new connection greets feeds. -/
theorem fed_of_run (newest : s.client.stream + 1 = s.net.opened)
    (whole : s.left T s.client.stream = s.feed T s.client.stream)
    (run : Run (ProgressServed T) s es s')
    (greets : ∀ e ∈ es, e.after.client.stream ≠ e.before.client.stream →
      Greets T e.after.conn.inbound) : Fed T s es s' := by
  induction run with
  | start => exact .start newest whole
  | @step es e run served ih =>
      have fed := ih fun e' member => greets e' (List.mem_append_left _ member)
      exact fed.step (served.feeding fed.newest (greets e (by simp)))

end Runs

/-! ## What is accepted -/

/-- On sockets without failures of their own, a program succeeds exactly when the next
attempt at a path is accepted by a peer that greets. -/
def OpensWhenGreeted (T : Target) (opening : ProgressM Unit) (path : ProgressClient → String) :
    Prop :=
  ∀ c, (∃ c', run (World.serve ()) opening c = (.ok (), c')) ↔
    ∃ peer rest, c.world.attempts (path c.own) = .accepted peer :: rest ∧
      Greets T (peer.wrote [])

/-- A program that ends as the next attempt says, and succeeds on a connection when its
peer greets. -/
theorem opensWhenGreeted_of_run {T : Target} {opening : ProgressM Unit}
    {path : ProgressClient → String}
    (ends : ∀ c : Config ProgressClient (World Unit),
      (∃ peer rest o c', c.world.attempts (path c.own) = .accepted peer :: rest ∧
        run (World.serve ()) opening c = (o, c') ∧ (o = .ok () ↔ Greets T (peer.wrote []))) ∨
      ((∀ peer rest, c.world.attempts (path c.own) ≠ .accepted peer :: rest) ∧
        ∃ e c', run (World.serve ()) opening c = (.err e, c'))) :
    OpensWhenGreeted T opening path := by
  intro c
  rcases ends c with ⟨peer, rest, o, c', next, ran, accepted⟩ | ⟨never, e, c', ran⟩
  · rw [ran, next]
    constructor
    · intro ⟨c₁, same⟩
      cases same
      exact ⟨peer, rest, rfl, accepted.mp rfl⟩
    · intro ⟨peer', rest', same, greets⟩
      cases same
      rw [accepted.mpr greets]
      exact ⟨c', rfl⟩
  · rw [ran]
    constructor
    · intro ⟨c₁, same⟩
      cases same
    · intro ⟨peer, rest, next, _⟩
      exact absurd next (never peer rest)

theorem connect_opens (T : Target) (config : SocketConfig) :
    OpensWhenGreeted T (ProgressClient.connect T config) fun _ => config.progressPath := by
  apply opensWhenGreeted_of_run
  intro c
  rcases ProgressClient.run_connect T () c config with
    ⟨peer, rest, o, layout, w, next, ran, _, _, _, accepted⟩ | failed
  · exact .inl ⟨peer, rest, o, _, next, ran, accepted⟩
  · exact .inr failed

theorem reconnect_opens (T : Target) :
    OpensWhenGreeted T (ProgressClient.reconnect T) fun own => own.config.progressPath := by
  apply opensWhenGreeted_of_run
  intro c
  rcases ProgressClient.run_reconnect T () c with
    ⟨peer, rest, o, next, ran, accepted⟩ | ⟨never, e, w, ran, _⟩
  · exact .inl ⟨peer, rest, o, _, next, ran, accepted⟩
  · exact .inr ⟨never, e, _, ran⟩

/-! ## The feed -/

/-- A receive fails exactly when no whole message is left on the connection held. -/
theorem receive_fails_iff {T : Target} {e : Transition ProgressSession ProgressDone}
    (served : ProgressServed T e) (receives : e.label.action = .receive) :
    (∃ error, e.label.outcome = .err error) ↔ e.before.left T e.before.client.stream = [] := by
  obtain ⟨s, ⟨action, o⟩, s'⟩ := e
  obtain rfl : action = .receive := receives
  obtain ⟨rfl, rfl⟩ := ended_same served (served_receive T s)
  show (∃ error, s.next T = .err error) ↔ s.left T s.client.stream = []
  by_cases enough : s.client.layout.msgSize ≤ s.conn.available.length
  · rw [← s.returned_next, ProgressSession.next, if_pos enough]
    constructor
    · rintro ⟨error, ⟨⟩⟩
    · intro empty
      cases empty
  · rw [ProgressSession.left_eq_nil (Nat.lt_of_not_le enough), ProgressSession.next,
      if_neg enough]
    exact ⟨fun _ => rfl, fun _ => ⟨_, rfl⟩⟩

/-- **The events of a run are the feeds of its connections.** A client that has
connected makes calls, and every new connection greets. Then the events returned
from each connection, followed by those of the messages left on it, are its feed, and
nothing is left on a connection that was given up. A receive fails exactly when
nothing is left on the connection held, no call opens more than one connection, and
only a peer that greets is accepted. -/
theorem ProgressOpened.events_are_the_feed {T : Target} {s s' : ProgressSession}
    {es : List (Transition ProgressSession ProgressDone)} (opened : ProgressOpened T s)
    (run : Run (ProgressServed T) s es s')
    (greets : ∀ e ∈ es, e.after.client.stream ≠ e.before.client.stream →
      Greets T e.after.conn.inbound) :
    Fed T s es s' ∧
      (∀ e ∈ es, e.label.action = .receive →
        ((∃ error, e.label.outcome = .err error) ↔
          e.before.left T e.before.client.stream = [])) ∧
      (∀ e ∈ es, e.after.net.opened ≤ e.before.net.opened + 1) ∧
      (∀ config, OpensWhenGreeted T (ProgressClient.connect T config)
        fun _ => config.progressPath) ∧
      OpensWhenGreeted T (ProgressClient.reconnect T) fun own => own.config.progressPath := by
  obtain ⟨newest, peer, conn⟩ := opened.fresh
  have whole : s.left T s.client.stream = s.feed T s.client.stream :=
    ProgressSession.left_new conn
  refine ⟨fed_of_run newest whole run greets, fun e member receives => ?_, fun e member => ?_,
    connect_opens T, reconnect_opens T⟩
  · obtain ⟨_, _, _, _, served, _⟩ := run.at_mem member
    exact receive_fails_iff served receives
  · obtain ⟨es₁, es₂, rfl, before, served, _⟩ := run.at_mem member
    have fed := fed_of_run newest whole before fun e' earlier =>
      greets e' (List.mem_append_left _ earlier)
    have feeding := served.feeding fed.newest (greets e member)
    rcases feeding.opens with same | ⟨one, _⟩ <;> omega

/-- A client loses its connection, and receives from the next one. -/
theorem events_are_the_feed_after_reconnect :
    ∃ (s s' : ProgressSession) (es : List (Transition ProgressSession ProgressDone)),
      (∃ e ∈ es, e.after.client.stream ≠ e.before.client.stream ∧
        ∃ event, e.label.outcome = .ok event) ∧
      Fed .x86_64 s es s' ∧
      (∀ e ∈ es, e.label.action = .receive →
        ((∃ error, e.label.outcome = .err error) ↔
          e.before.left .x86_64 e.before.client.stream = [])) ∧
      (∀ e ∈ es, e.after.net.opened ≤ e.before.net.opened + 1) ∧
      (∀ config, OpensWhenGreeted .x86_64 (ProgressClient.connect .x86_64 config)
        fun _ => config.progressPath) ∧
      OpensWhenGreeted .x86_64 (ProgressClient.reconnect .x86_64)
        fun own => own.config.progressPath := by
  obtain ⟨second, length, greeting⟩ : ∃ peer : Peer Unit,
      ((peer.wrote []).drop 8).length = 2416 ∧ Greets .x86_64 (peer.wrote []) := by
    refine ⟨.scripted (ackBytes .x86_64 ++ List.replicate 2416 0), ?_, greets_ackBytes .x86_64 _⟩
    exact (congrArg List.length (drop_ackBytes .x86_64 _)).trans List.length_replicate
  obtain ⟨s, opened, conn, later⟩ := opened_offered .x86_64 ⟨"", "", 0⟩
    (.scripted (ackBytes .x86_64 ++ [])) (greets_ackBytes .x86_64 []) [.accepted second]
  have newest := opened.fresh.1
  have short : s.conn.available.length < s.client.layout.msgSize := by
    rw [conn, available_pull_fresh]
    exact s.client.layout.msgSize_pos
  have enough : (s.renewed second).client.layout.msgSize ≤
      (s.renewed second).conn.available.length := by
    rw [s.conn_renewed, available_pull_fresh, length]
    exact (s.renewed second).client.layout.msgSize_le
  have served := served_renewed short later greeting
  refine ⟨s, _, [_], ⟨_, List.mem_singleton_self _, ?_, _, if_pos enough⟩,
    opened.events_are_the_feed (Run.start.step served) ?_⟩
  · show s.net.opened ≠ s.client.stream
    omega
  · intro e member _
    obtain rfl := List.mem_singleton.mp member
    show Greets .x86_64 (s.renewed second).pulled.conn.inbound
    rw [ProgressSession.conn_pulled, s.conn_renewed]
    exact greeting

end SwupdateIpc
