import SwupdateIpc.Progress.Feed
import SwupdateIpc.Progress.UnpackedMessages

/-!
# Published messages

A daemon greets each connection and publishes messages on it, in the layout of its
release. It may stop in the middle of one, when its process ends (`Publishes`). A client
that detected the release reads the messages back as long as both sides lay them out
alike, which packed messages always are (`Published.decoded`).

On sockets without failures of their own, the client returns the events of the messages
of each connection that it gave up, all of them, once and in order, and then those of
the first messages of the connection that it holds (`ProgressOpened.published_received`).
-/

set_option autoImplicit false

namespace SwupdateIpc

open Foundations Wire

/-- The declaration of the header for a layout. -/
def Header.progressMsg (align : Width) : ProgressLayout → Layout Ident
  | .packed => progressMsgPacked align
  | .unpacked => progressMsgUnpacked align

theorem wellAligned_progressMsg (align : Width) (layout : ProgressLayout) :
    (Header.progressMsg align layout).wellAligned = true := by
  cases layout with
  | packed => exact ProgressMsg.wellAligned_packed align
  | unpacked => exact ProgressMsg.wellAligned_unpacked align

/-- A message in the memory of a daemon of some layout: its members are written over
whatever the bytes were before. -/
structure Published (T : Target) (layout : ProgressLayout) where
  msg : ProgressMsg
  memory : Record (Header.progressMsg T.longLongAlign layout)

/-- Both sides lay messages out alike: they are packed, or an `unsigned long long` is
aligned to eight bytes. -/
def LaidOutAlike (T : Target) : ProgressLayout → Prop
  | .packed => True
  | .unpacked => T.longLongAlign = .eight

section Messages

variable {T : Target} {layout : ProgressLayout}

/-- The bytes of a message. -/
def Published.bytes (x : Published T layout) : List UInt8 :=
  (x.memory.fill (wellAligned_progressMsg _ layout) (x.msg.members T)).bytes

/-- A daemon greets, and publishes messages, and perhaps the beginning of one more. -/
def Publishes (xs : List (Published T layout)) (bytes : List UInt8) : Prop :=
  ∃ ack rest, AckAccepted T ack ∧ rest.length < layout.msgSize ∧
    bytes = ack ++ ((xs.map Published.bytes).flatten ++ rest)

/-- The events of some messages. -/
def eventsOf (xs : List (Published T layout)) : List ProgressEvent := xs.map fun x => x.msg.event

/-- A packed message carries its members on every target. -/
theorem ProgressMsg.carries_packed_on (T : Target) (m : ProgressMsg) (align : Width)
    (base : Record (Header.progressMsgPacked align)) :
    (base.fill (wellAligned_packed align) (m.members T)).Carries (m.members T)
      Record.anywhere := by
  refine m.carries_laidOut T (wellAligned_packed align) base ?_ ?_
  · cases align <;> rfl
  · simp only [members, List.map_cons, List.map_nil]
    cases align <;> decide +kernel

/-- **A message is decoded as it was meant**, when both sides lay it out alike. -/
theorem Published.decoded (alike : LaidOutAlike T layout) (x : Published T layout) :
    x.bytes.length = layout.msgSize ∧ layout.decode T x.bytes = x.msg.event := by
  obtain ⟨msg, memory⟩ := x
  cases layout with
  | unpacked =>
      obtain ⟨length, _, event⟩ := DaemonMsg.read_eight alike ⟨msg, memory⟩
      exact ⟨length, event⟩
  | packed =>
      have size : (Published.bytes ⟨msg, memory⟩).length =
          (rawProgressMsg T.longLongAlign).size := by
        rw [Published.bytes, Record.length_eq]
        cases T.longLongAlign <;> rfl
      have bytes : ((Record.zeroed (rawProgressMsg T.longLongAlign)).overwrite
          (Published.bytes ⟨msg, memory⟩)).bytes = Published.bytes ⟨msg, memory⟩ :=
        Record.bytes_overwrite _ size
      have carried := msg.carries_reread T (msg.carries_packed_on T _ memory) _ bytes
        (by cases T.longLongAlign <;> rfl)
      refine ⟨by rw [size, size_rawProgressMsg]; rfl, ?_⟩
      show ProgressEvent.fromRaw T _ = _
      rw [ProgressEvent.fromRaw, ProgressFields.fromRawProgressMsg, msg.extract_carried T carried,
        ProgressMsg.fromFields_fields]

/-- A peer that greets and then writes some messages. -/
def publishing {τ : Type} (xs : List (Published T layout)) : Peer τ :=
  .scripted (ackBytes T ++ (xs.map Published.bytes).flatten)

theorem publishes_publishing {τ : Type} (xs : List (Published T layout)) :
    Publishes xs ((publishing xs : Peer τ).wrote []) := by
  refine ⟨ackBytes T, [], ?_, layout.msgSize_pos, ?_⟩
  · have greets := greets_ackBytes T []
    rwa [Greets, List.append_nil, ← length_ackBytes T, List.take_length] at greets
  · rw [List.append_nil]
    rfl

/-- What is published is cut into the messages, and decoded to their events. -/
theorem Publishes.feed {xs : List (Published T layout)} {bytes : List UInt8}
    (alike : LaidOutAlike T layout) (published : Publishes xs bytes) :
    Greets T bytes ∧
      (frames layout.msgSize (bytes.drop 8)).map (layout.decode T) = eventsOf xs := by
  obtain ⟨ack, rest, accepted, short, rfl⟩ := published
  have full : ∀ f ∈ xs.map Published.bytes, f.length = layout.msgSize := by
    intro f member
    obtain ⟨x, _, rfl⟩ := List.mem_map.mp member
    exact (x.decoded alike).1
  refine ⟨?_, ?_⟩
  · rw [Greets, ← accepted.1, List.take_left]
    exact accepted
  · rw [← accepted.1, List.drop_left, frames_flatten full short, List.map_map, eventsOf]
    exact List.map_congr_left fun x _ => (x.decoded alike).2

end Messages

/-! ## Runs -/

/-- A progress client that has just connected on sockets without failures of their own,
while a release was installed. -/
def ProgressLaunched (T : Target) (r : PrintedRelease) (s : ProgressSession) : Prop :=
  ∃ (config : SocketConfig) (c : Config ProgressClient (World Unit)),
    c.world.output.1 = .ok (utf8Bytes r.output) ∧
      run (World.serve ()) (ProgressClient.connect T config) c = (.ok (), ⟨s.client, s.net⟩)

theorem ProgressLaunched.opened {T : Target} {r : PrintedRelease} {s : ProgressSession}
    (launched : ProgressLaunched T r s) :
    ProgressOpened T s ∧ s.client.layout = r.release.layout := by
  obtain ⟨config, c, printed, ran⟩ := launched
  have exec := World.exec_serve () (ProgressClient.connect T config) c
  rw [ran] at exec
  have started : ProgressStarted T r s := ⟨config, c, printed, exec⟩
  exact ⟨⟨config, c, ran⟩, started.layout⟩

section Runs

variable {T : Target} {layout : ProgressLayout} {s s' : ProgressSession}
  {es : List (Transition ProgressSession ProgressDone)} {xs : Nat → List (Published T layout)}

/-- The feeds of the connections held since the first session are what the daemons
published on them. -/
structure FedBy (xs : Nat → List (Published T layout)) (s : ProgressSession)
    (es : List (Transition ProgressSession ProgressDone)) (s' : ProgressSession) : Prop where
  fed : Fed T s es s'
  layout : s'.client.layout = layout
  feeds : ∀ fd, s.client.stream ≤ fd → fd ≤ s'.client.stream → s'.feed T fd = eventsOf (xs fd)

/-- A step that opens a connection to a daemon that publishes goes on with the feeds. -/
theorem FedBy.step (alike : LaidOutAlike T layout)
    {e : Transition ProgressSession ProgressDone} (fedBy : FedBy xs s es e.before)
    (served : ProgressServed T e)
    (publishes : e.after.client.stream ≠ e.before.client.stream →
      Publishes (xs e.after.client.stream) e.after.conn.inbound) :
    FedBy xs s (es ++ [e]) e.after := by
  have feeding := served.feeding fedBy.fed.newest fun opens => ((publishes opens).feed alike).1
  have same : e.after.client.layout = layout := feeding.layout.trans fedBy.layout
  have before := fedBy.fed.newest
  have after := feeding.newest
  refine ⟨fedBy.fed.step feeding, same, fun fd first last => ?_⟩
  by_cases old : fd < e.before.net.opened
  · rw [(feeding.old fd old).2]
    exact fedBy.feeds fd first (by omega)
  · have opens : e.after.client.stream ≠ e.before.client.stream := by omega
    obtain rfl : fd = e.after.client.stream := by
      rcases feeding.opens with none | ⟨one, _⟩ <;> omega
    rw [ProgressSession.feed, ProgressSession.decoded, same]
    exact ((publishes opens).feed alike).2

/-- A run against daemons that publish feeds from what they published. -/
theorem ProgressOpened.fedBy (opened : ProgressOpened T s) (same : s.client.layout = layout)
    (alike : LaidOutAlike T layout) (run : Run (ProgressServed T) s es s')
    (first : Publishes (xs s.client.stream) s.conn.inbound)
    (later : ∀ e ∈ es, e.after.client.stream ≠ e.before.client.stream →
      Publishes (xs e.after.client.stream) e.after.conn.inbound) : FedBy xs s es s' := by
  induction run with
  | start =>
      obtain ⟨newest, peer, conn⟩ := opened.fresh
      refine ⟨.start newest (ProgressSession.left_new conn), same, fun fd low high => ?_⟩
      obtain rfl := Nat.le_antisymm low high
      rw [ProgressSession.feed, ProgressSession.decoded, same]
      exact (first.feed alike).2
  | @step es e run served ih =>
      have earlier := ih fun x member => later x (List.mem_append_left _ member)
      exact earlier.step alike served (later e (by simp))

end Runs

/-- **Published messages are received.** A client connects while a release is installed,
and every connection it opens is to a daemon of the same layout, which greets and
publishes messages. Then the events returned are those of the messages of every
connection that was given up, once and in order, and those of some first messages of the
connection held. A receive fails exactly when the events of all the messages of its
connection were returned. -/
theorem ProgressLaunched.published_received {T : Target} {r : PrintedRelease}
    {s s' : ProgressSession} {es : List (Transition ProgressSession ProgressDone)}
    (launched : ProgressLaunched T r s) (alike : LaidOutAlike T r.release.layout)
    (run : Run (ProgressServed T) s es s') (xs : Nat → List (Published T r.release.layout))
    (first : Publishes (xs s.client.stream) s.conn.inbound)
    (later : ∀ e ∈ es, e.after.client.stream ≠ e.before.client.stream →
      Publishes (xs e.after.client.stream) e.after.conn.inbound) :
    events es = (List.range' s.client.stream (s'.client.stream - s.client.stream)).flatMap
        (fun fd => eventsOf (xs fd)) ++ eventsOn s'.client.stream es ∧
      eventsOn s'.client.stream es <+: eventsOf (xs s'.client.stream) ∧
      ∀ es₁ e es₂, es = es₁ ++ e :: es₂ → e.label.action = .receive →
        ((∃ error, e.label.outcome = .err error) ↔
          eventsOn e.before.client.stream es₁ = eventsOf (xs e.before.client.stream)) := by
  obtain ⟨opened, layout⟩ := launched.opened
  have fedBy := opened.fedBy layout alike run first later
  have given := fun fd low high =>
    (fedBy.fed.given fd low high).trans (fedBy.feeds fd low high)
  refine ⟨?_, ⟨_, given _ fedBy.fed.later (Nat.le_refl _)⟩, ?_⟩
  · rw [fedBy.fed.ordered]
    congr 1
    apply List.flatMap_congr
    intro fd member
    obtain ⟨low, high⟩ := List.mem_range'_1.mp member
    have before : fd < s'.client.stream := by
      have := fedBy.fed.later
      omega
    rw [← given fd low before.le, fedBy.fed.spent fd low before, List.append_nil]
  · rintro es₁ e es₂ rfl receives
    obtain ⟨before, served, _⟩ := run.cut
    have earlier := opened.fedBy layout alike before first fun x member =>
      later x (List.mem_append_left _ member)
    have split := (earlier.fed.given _ earlier.fed.later (Nat.le_refl _)).trans
      (earlier.feeds _ earlier.fed.later (Nat.le_refl _))
    rw [receive_fails_iff served receives, ← split]
    constructor
    · intro empty
      rw [empty, List.append_nil]
    · intro all
      exact List.self_eq_append_right.mp all

/-- The release 2024.05 publishes that it is idle. The client gives the connection up for the
next one, on which the success of an update is published. -/
theorem published_received_twice :
    ∃ (s s' : ProgressSession) (es : List (Transition ProgressSession ProgressDone))
      (xs : Nat → List (Published .x86_64 (documented 2024 5).release.layout)),
      ProgressLaunched .x86_64 (documented 2024 5) s ∧ s'.client.stream = s.client.stream + 1 ∧
      events es = [.idle, .success] ∧
      eventsOf (xs s.client.stream) = [.idle] ∧ eventsOf (xs s'.client.stream) = [.success] ∧
      events es = (List.range' s.client.stream (s'.client.stream - s.client.stream)).flatMap
          (fun fd => eventsOf (xs fd)) ++ eventsOn s'.client.stream es ∧
        eventsOn s'.client.stream es <+: eventsOf (xs s'.client.stream) ∧
        ∀ es₁ e es₂, es = es₁ ++ e :: es₂ → e.label.action = .receive →
          ((∃ error, e.label.outcome = .err error) ↔
            eventsOn e.before.client.stream es₁ = eventsOf (xs e.before.client.stream)) := by
  let x : Published .x86_64 (documented 2024 5).release.layout := ⟨.idle, .zeroed _⟩
  let y : Published .x86_64 (documented 2024 5).release.layout :=
    ⟨{ ProgressMsg.idle with status := Header.RecoveryStatus.success.code }, .zeroed _⟩
  have alike : LaidOutAlike .x86_64 (documented 2024 5).release.layout := rfl
  obtain ⟨length, event⟩ := x.decoded alike
  obtain ⟨length', event'⟩ := y.decoded alike
  have one : ∀ z : Published .x86_64 (documented 2024 5).release.layout,
      ((publishing [z] : Peer Unit).wrote []).drop 8 = z.bytes := by
    intro z
    refine (drop_ackBytes .x86_64 _).trans ?_
    rw [List.map_singleton, List.flatten_singleton]
  have publishes := publishes_publishing (T := .x86_64) (τ := Unit) [x]
  have publishes' := publishes_publishing (T := .x86_64) (τ := Unit) [y]
  obtain ⟨s, c, outputs, ran, conn, later⟩ :=
    started_offered .x86_64 ⟨"", "", 0⟩ (publishing [x]) (publishes.feed alike).1
      [.accepted (publishing [y])] [.ok (utf8Bytes (documented 2024 5).output)]
  have launched : ProgressLaunched .x86_64 (documented 2024 5) s :=
    ⟨_, c, by rw [World.output, outputs], ran⟩
  obtain ⟨opened, layout⟩ := launched.opened
  have newest := opened.fresh.1
  have left : s.conn.available = x.bytes := by
    rw [conn, available_pull_fresh, one]
  have size : s.client.layout.msgSize = x.bytes.length := by rw [layout, length]
  have positive := s.client.layout.msgSize_pos
  obtain ⟨e₁, e₂, rfl, meet, first, again, label₁, label₂, own, stream, inbound⟩ :=
    receives_twice (by rw [left, size]) (by rw [left]; omega) later (publishes'.feed alike).1
      (by rw [one, layout, length'])
  rw [left, size, List.take_length, layout, event] at label₁
  rw [one, layout, ← length', List.take_length, event'] at label₂
  have run := Run.pair first again meet
  let xs : Nat → List (Published .x86_64 (documented 2024 5).release.layout) := fun fd =>
    if fd = e₁.before.client.stream then [x] else [y]
  have held : xs e₁.before.client.stream = [x] := if_pos rfl
  have renewed : xs e₂.after.client.stream = [y] := by
    rw [stream]
    exact if_neg (by omega)
  refine ⟨_, _, [e₁, e₂], xs, launched, by omega, ?_, ?_, ?_,
    launched.published_received alike run xs ?_ ?_⟩
  · show returned e₁.label.outcome ++ (returned e₂.label.outcome ++ []) = _
    rw [label₁, label₂]
    rfl
  · rw [held]
    rfl
  · rw [renewed]
    rfl
  · rw [held, conn]
    exact publishes
  · refine List.forall_mem_cons.mpr ⟨fun opens => ?_, List.forall_mem_singleton.mpr fun _ => ?_⟩
    · exact absurd (congrArg ProgressClient.stream own) opens
    · rw [renewed, inbound]
      exact publishes'

end SwupdateIpc
