import SwupdateIpc.Progress.Session

/-!
# Where events come from

A connection is in order when its acknowledgement was read whole and accepted and
only whole messages were taken after it (`InOrder`). An event taken from such a
connection is the decoding of the message at its place (`FromAccepted`), and it
leaves the connection in order.

A read that takes no message, because it is cut or because it takes an
acknowledgement, may leave the client with a connection that is not in order and
that has a whole message to give (`Misled`): a reconnect stores the new connection
before its handshake has succeeded, and a message that was read in part is not read
again. In a run in which no call ends so every event is in its place, and after
such a call the next receive can take an event that is not
(`ProgressConnected.events_in_place`).
-/

set_option autoImplicit false

namespace SwupdateIpc

open Foundations Wire

section Order

variable (T : Target) (layout : ProgressLayout)

/-- The first eight bytes were read whole and are an acknowledgement that is accepted,
and what was taken after them are whole messages. -/
def InOrder (c : Conn Unit) : Prop :=
  Greets T c.inbound ∧ ∃ later k, c.reads = ⟨c.inbound.take 8, true⟩ :: later ∧
    c.taken.length = 8 + k * layout.msgSize

/-- An event is the decoding of the message just taken from a connection, the k-th
message after an acknowledgement that was read whole and accepted. -/
def FromAccepted (c : Conn Unit) (event : ProgressEvent) : Prop :=
  Greets T c.inbound ∧ ∃ later k, c.reads = ⟨c.inbound.take 8, true⟩ :: later ∧
    c.taken.length = 8 + (k + 1) * layout.msgSize ∧
    event = layout.decode T (slice (8 + k * layout.msgSize) layout.msgSize c.inbound)

variable {T layout}

theorem FromAccepted.inOrder {c : Conn Unit} {event : ProgressEvent}
    (placed : FromAccepted T layout c event) : InOrder T layout c := by
  obtain ⟨greets, later, k, reads, taken, _⟩ := placed
  exact ⟨greets, later, k + 1, reads, taken⟩

theorem Welcomed.inOrder {c : Conn Unit} (welcomed : Welcomed T c) : InOrder T layout c := by
  obtain ⟨ack, accepted, reads⟩ := welcomed.read
  have taken : c.taken = ack := by rw [Conn.taken, reads, List.flatMap_singleton]
  have first : c.inbound.take 8 = ack := by
    have sound := welcomed.sound
    rw [Conn.Sound, taken, List.prefix_iff_eq_take, accepted.1] at sound
    exact sound.symm
  refine ⟨?_, [], 0, ?_, ?_⟩
  · rw [Greets, first]
    exact accepted
  · rw [reads, first]
  · rw [taken, accepted.1, Nat.zero_mul]

/-- A whole message taken from a connection in order is in its place. -/
theorem InOrder.record {c : Conn Unit} (inOrder : InOrder T layout c) {frame : List UInt8}
    (read : frame <+: c.available) (full : frame.length = layout.msgSize) :
    FromAccepted T layout (c.record ⟨frame, true⟩) (layout.decode T frame) := by
  obtain ⟨greets, later, k, reads, taken⟩ := inOrder
  have window : slice (8 + k * layout.msgSize) layout.msgSize c.inbound = frame := by
    rw [← taken, ← full]
    exact (List.prefix_iff_eq_take.mp read).symm
  refine ⟨greets, later ++ [⟨frame, true⟩], k, ?_, ?_, ?_⟩
  · rw [Conn.reads_record, reads, List.cons_append]
    rfl
  · rw [Conn.taken_record, List.length_append, taken]
    show _ + frame.length = _
    rw [full, Nat.succ_mul, Nat.add_assoc]
  · show _ = layout.decode T (slice _ _ c.inbound)
    rw [window]

/-- A message taken from a connection that is not in order is not in its place. -/
theorem not_fromAccepted {c : Conn Unit} (disordered : ¬ InOrder T layout c)
    {frame : List UInt8} (full : frame.length = layout.msgSize) (event : ProgressEvent) :
    ¬ FromAccepted T layout (c.record ⟨frame, true⟩) event := by
  rintro ⟨greets, later, k, reads, taken, _⟩
  change Greets T c.inbound at greets
  rw [Conn.taken_record, List.length_append] at taken
  change c.taken.length + frame.length = _ at taken
  rw [full, Nat.succ_mul] at taken
  rw [Conn.reads_record] at reads
  change _ = ⟨c.inbound.take 8, true⟩ :: later at reads
  rcases before : c.reads with _ | ⟨first, rest⟩
  · rw [before, List.nil_append, List.cons.injEq] at reads
    have size : (c.inbound.take 8).length = layout.msgSize := by
      have same := congrArg Stretch.bytes reads.1
      rw [← full]
      exact congrArg List.length same.symm
    rw [greets.1] at size
    cases layout <;> cases size
  · rw [before, List.cons_append, List.cons.injEq] at reads
    refine disordered ⟨greets, rest, k, ?_, by omega⟩
    rw [before, reads.1]

end Order

/-! ## Runs -/

section Runs

variable {T : Target}

/-- A call after which the last read took no message, and that leaves the client with
a connection that is not in order and that has a whole message to give. -/
def Misled (T : Target) (e : Transition ProgressSession ProgressDone) : Prop :=
  Interrupted e.after.conn ∧ ¬ InOrder T e.after.client.layout e.after.conn ∧
    e.after.client.layout.msgSize ≤ e.after.conn.available.length

/-- The event of a step, if it returns one, is in its place. -/
def InPlace (T : Target) (e : Transition ProgressSession ProgressDone) : Prop :=
  ∀ event, e.label.outcome = .ok event →
    FromAccepted T e.after.client.layout e.after.conn event

/-- What a run without misled calls keeps: the connection held is in order, or has no
whole message to give. -/
def Reliable (T : Target) (s : ProgressSession) : Prop :=
  InOrder T s.client.layout s.conn ∨ s.conn.available.length < s.client.layout.msgSize

theorem ProgressConnected.reliable {s : ProgressSession} (connected : ProgressConnected T s) :
    Reliable T s := .inl connected.welcomed.inOrder

/-- A step from a reliable connection returns an event in its place. -/
theorem ProgressStep.inPlace {e : Transition ProgressSession ProgressDone}
    (step : ProgressStep T e) (reliable : Reliable T e.before) : InPlace T e := by
  obtain ⟨layout, effect⟩ := step.effect
  intro event returned
  rw [returned] at effect
  rw [layout]
  generalize outcome : Outcome.ok event = o at effect
  cases effect with
  | silence none => exact absurd outcome.symm (none event)
  | @event base frame origin read full conn =>
      cases outcome
      have inOrder : InOrder T e.before.client.layout base := by
        rcases origin with rfl | welcomed
        · rcases reliable with inOrder | short
          · exact inOrder
          · have := read.length_le
            omega
        · exact welcomed.inOrder
      rw [conn]
      exact inOrder.record read full

theorem ProgressStep.reliable {e : Transition ProgressSession ProgressDone}
    (step : ProgressStep T e) (reliable : Reliable T e.before) (unmisled : ¬ Misled T e) :
    Reliable T e.after := by
  by_cases returned : ∃ event, e.label.outcome = .ok event
  · obtain ⟨event, returned⟩ := returned
    exact .inl (step.inPlace reliable event returned).inOrder
  · obtain ⟨_, effect⟩ := step.effect
    generalize outcome : e.label.outcome = o at effect returned
    cases effect with
    | event => exact absurd ⟨_, rfl⟩ returned
    | silence _ interrupted =>
        by_contra unreliable
        rw [Reliable, not_or, not_lt] at unreliable
        exact unmisled ⟨interrupted, unreliable⟩

/-- A call that returns an event from a reliable connection does not mislead. -/
theorem ProgressStep.unmisled {e : Transition ProgressSession ProgressDone}
    (step : ProgressStep T e) (reliable : Reliable T e.before)
    (returned : ∃ event, e.label.outcome = .ok event) : ¬ Misled T e := by
  obtain ⟨event, returned⟩ := returned
  exact fun misled => misled.2.1 (step.inPlace reliable event returned).inOrder

/-- From a connection that is not in order and has a whole message to give, a receive
can take an event that is not in its place. -/
theorem misleading_receive {s : ProgressSession}
    (disordered : ¬ InOrder T s.client.layout s.conn)
    (enough : s.client.layout.msgSize ≤ s.conn.available.length) :
    ∃ e, e.before = s ∧ ProgressStep T e ∧ (∃ event, e.label.outcome = .ok event) ∧
      ¬ InPlace T e := by
  have whole : (s.conn.available.take s.client.layout.msgSize).length = s.client.layout.msgSize :=
    List.length_take_of_le enough
  have returned : s.next T = .ok (s.client.layout.decode T
      (s.conn.available.take s.client.layout.msgSize)) := if_pos enough
  refine ⟨_, rfl, (served_receive T s).step, ⟨_, returned⟩, ?_⟩
  intro inPlace
  have placed := inPlace _ returned
  change FromAccepted T s.client.layout s.pulled.conn _ at placed
  rw [s.conn_pulled, Conn.pull, decide_eq_true enough] at placed
  exact not_fromAccepted disordered whole _ placed

/-- **When events are in their place.** In a run without misled calls, every event
was decoded from a connection whose acknowledgement was read whole and accepted,
from the place of a message. After a misled call the next receive can return one
that was not. -/
theorem ProgressConnected.events_in_place {s s' : ProgressSession}
    {es : List (Transition ProgressSession ProgressDone)} (connected : ProgressConnected T s)
    (run : Run (ProgressStep T) s es s') :
    ((∀ e ∈ es, ¬ Misled T e) → ∀ e ∈ es, InPlace T e) ∧
      ∀ e ∈ es, Misled T e → ∃ e', e'.before = e.after ∧ ProgressStep T e' ∧
        (∃ event, e'.label.outcome = .ok event) ∧ ¬ InPlace T e' := by
  refine ⟨?_, fun e _ misled => misleading_receive misled.2.1 misled.2.2⟩
  intro unmisled e member
  obtain ⟨es₁, es₂, rfl, before, step, _⟩ := run.at_mem member
  have reliable : Reliable T e.before := by
    refine before.keeps (fun x earlier allowed held => ?_) connected.reliable
    exact allowed.reliable held (unmisled x (List.mem_append_left _ earlier))
  exact step.inPlace reliable

end Runs

/-- A client receives a message of zeros from each of two connections, and both are in their
place. -/
theorem events_in_place_reconnected :
    ∃ (s s' : ProgressSession) (es : List (Transition ProgressSession ProgressDone)),
      Run (ProgressStep .x86_64) s es s' ∧ s'.client.stream ≠ s.client.stream ∧
      es.map (fun e => e.label.action) = [.receive, .receiveOrReconnect] ∧
      (∀ e ∈ es, ∃ event, e.label.outcome = .ok event) ∧
      (∀ e ∈ es, ¬ Misled .x86_64 e) ∧ (∀ e ∈ es, InPlace .x86_64 e) ∧
      ∀ e ∈ es, Misled .x86_64 e → ∃ e', e'.before = e.after ∧ ProgressStep .x86_64 e' ∧
        (∃ event, e'.label.outcome = .ok event) ∧ ¬ InPlace .x86_64 e' := by
  obtain ⟨peer, greets, written⟩ : ∃ peer : Peer Unit, Greets .x86_64 (peer.wrote []) ∧
      (peer.wrote []).drop 8 = List.replicate 2416 0 :=
    ⟨.scripted (ackBytes .x86_64 ++ List.replicate 2416 0), greets_ackBytes .x86_64 _,
      drop_ackBytes .x86_64 _⟩
  obtain ⟨s, opened, conn, later⟩ :=
    opened_offered .x86_64 ⟨"", "", 0⟩ peer greets [.accepted peer]
  have left : s.conn.available = List.replicate 2416 0 := by
    rw [conn, available_pull_fresh, written]
  have enough : s.client.layout.msgSize ≤ (List.replicate 2416 (0 : UInt8)).length := by
    rw [List.length_replicate]
    exact s.client.layout.msgSize_le
  have one : s.conn.available.length < 2 * s.client.layout.msgSize := by
    rw [left, List.length_replicate]
    cases s.client.layout <;> decide
  obtain ⟨e₁, e₂, rfl, meet, first, again, label₁, label₂, _, stream, _⟩ :=
    receives_twice (left ▸ enough) one later greets (written ▸ enough)
  have run := Run.pair first.step again.step meet
  have received₁ : ∃ event, e₁.label.outcome = .ok event := ⟨_, congrArg (·.outcome) label₁⟩
  have received₂ : ∃ event, e₂.label.outcome = .ok event := ⟨_, congrArg (·.outcome) label₂⟩
  have reliable := opened.connected.reliable
  have unmisled₁ := first.step.unmisled reliable received₁
  have unmisled₂ := again.step.unmisled (meet ▸ first.step.reliable reliable unmisled₁) received₂
  have unmisled : ∀ e ∈ [e₁, e₂], ¬ Misled .x86_64 e :=
    List.forall_mem_cons.mpr ⟨unmisled₁, List.forall_mem_singleton.mpr unmisled₂⟩
  have newest := opened.fresh.1
  obtain ⟨placed, misplaced⟩ := opened.connected.events_in_place run
  refine ⟨_, _, [e₁, e₂], run, by omega, ?_, ?_, unmisled, placed unmisled, misplaced⟩
  · rw [List.map_cons, List.map_cons, label₁, label₂]
    rfl
  · exact List.forall_mem_cons.mpr ⟨received₁, List.forall_mem_singleton.mpr received₂⟩

/-- A peer can write many messages and not greet. -/
theorem ungreeting_peer (T : Target) :
    ∃ foreign : Peer Unit, ¬ Greets T (foreign.wrote []) ∧ 2424 ≤ (foreign.wrote []).length := by
  refine ⟨.scripted (List.replicate 2424 0), ?_, List.length_replicate.ge⟩
  rintro ⟨_, magic, _⟩
  change slice 4 4 ((List.replicate 2424 0).take 8) = _ at magic
  rw [List.take_replicate] at magic
  revert magic
  decide

/-- After a connection is lost, the client reconnects to a peer that does not greet. The
handshake fails, and the next receive returns an event all the same. -/
theorem event_after_failed_handshake :
    ¬ ∀ (T : Target) (s s' : ProgressSession)
        (es : List (Transition ProgressSession ProgressDone)),
        ProgressConnected T s → Run (ProgressStep T) s es s' → ∀ e ∈ es, InPlace T e := by
  intro claim
  obtain ⟨foreign, ungreeted, long⟩ := ungreeting_peer .x86_64
  obtain ⟨s, opened, conn, later⟩ := opened_offered .x86_64 ⟨"", "", 0⟩
    (.scripted (ackBytes .x86_64 ++ [])) (greets_ackBytes .x86_64 []) [.accepted foreign]
  have empty : s.conn.available = [] := by
    rw [conn, available_pull_fresh]
    exact drop_ackBytes .x86_64 []
  have short : s.conn.available.length < s.client.layout.msgSize := by
    rw [empty]
    exact s.client.layout.msgSize_pos
  obtain ⟨o, s₁, served⟩ := served_exists .x86_64 s .receiveOrReconnect
  obtain ⟨enough, _⟩ | ⟨_, ⟨peer, rest, next, ⟨greets, _⟩ | ⟨_, _, rfl⟩⟩ | ⟨never, _⟩⟩ :=
    served_receiveOrReconnect served
  · omega
  · rw [later] at next
    cases next
    exact ungreeted greets
  · rw [later] at next
    cases next
    have whole : (s.renewed foreign).client.layout.msgSize ≤
        (s.renewed foreign).conn.available.length := by
      have most := (s.renewed foreign).client.layout.msgSize_le
      rw [s.conn_renewed, available_pull_fresh, List.length_drop]
      omega
    have disordered : ¬ InOrder .x86_64 (s.renewed foreign).client.layout
        (s.renewed foreign).conn := by
      rintro ⟨greets, _⟩
      rw [s.conn_renewed] at greets
      exact ungreeted greets
    obtain ⟨e, before, step, _, misplaced⟩ := misleading_receive disordered whole
    have first := Run.start.step served.step
    change Run (ProgressStep .x86_64) s _ (s.renewed foreign) at first
    rw [← before] at first
    exact misplaced (claim _ _ _ _ opened.connected (first.step step) e (by simp))
  · exact never _ _ later

end SwupdateIpc
