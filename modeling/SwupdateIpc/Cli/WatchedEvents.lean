import SwupdateIpc.Cli.Tasks
import SwupdateIpc.Progress.PublishedMessages

/-!
# Watching the messages of a peer

On sockets without failures of their own, the loop that watches takes the whole messages
that a peer has written, one after the other, and stops after the first terminal event
(`run_follow`). A client that connects while a release is installed is offered the events
that a daemon of this release publishes (`Publishes.offered`).
-/

set_option autoImplicit false

namespace SwupdateIpc

open Foundations Wire

/-- Some events up to the first terminal one. -/
def untilTerminal : List ProgressEvent → List ProgressEvent
  | [] => []
  | event :: rest => if event.isTerminal then [event] else event :: untilTerminal rest

section Following

variable {T : Target} {τ : Type} {mark : τ}

/-- The events of the whole messages that some bytes begin with. -/
def eventsFrom (T : Target) (layout : ProgressLayout) (bytes : List UInt8) : List ProgressEvent :=
  (frames layout.msgSize bytes).map (layout.decode T)

theorem eventsFrom_short {layout : ProgressLayout} {bytes : List UInt8}
    (short : bytes.length < layout.msgSize) : eventsFrom T layout bytes = [] := by
  rw [eventsFrom, frames_of_short short]
  rfl

theorem eventsFrom_next {layout : ProgressLayout} {bytes : List UInt8}
    (enough : layout.msgSize ≤ bytes.length) :
    eventsFrom T layout bytes = layout.decode T (bytes.take layout.msgSize) ::
      eventsFrom T layout (bytes.drop layout.msgSize) := by
  rw [eventsFrom, frames_of_le layout.msgSize_pos enough]
  rfl

/-- How a loop that watches ends, when these are the events to come. -/
def followed (events : List ProgressEvent) : Outcome Error Unit :=
  if events.any ProgressEvent.isTerminal then .ok () else .err (.connection "early eof")

/-- **Following.** The loop takes the events up to the first terminal one, and it fails
where they end without one. -/
theorem run_follow {fuel : Nat} {client : ProgressClient} {w : World τ}
    (enough : (eventsFrom T client.layout (w.conns client.stream).available).length < fuel) :
    ∃ reads w', run (World.serve mark) (watch T fuel) ⟨client, w⟩ =
        (followed (eventsFrom T client.layout (w.conns client.stream).available), ⟨client, w'⟩) ∧
      (w'.conns client.stream).reads = (w.conns client.stream).reads ++ reads ∧
      eventsIn T client.layout reads =
        untilTerminal (eventsFrom T client.layout (w.conns client.stream).available) := by
  induction fuel generalizing w with
  | zero => omega
  | succ fuel ih =>
      have received := ProgressClient.run_receive T mark ⟨client, w⟩
      generalize bytes_eq : (w.conns client.stream).available = bytes at *
      by_cases whole : client.layout.msgSize ≤ bytes.length
      · rw [if_pos whole] at received
        rw [eventsFrom_next whole, List.length_cons] at enough
        rw [eventsFrom_next whole, watch, run_bind_ok received]
        generalize event_eq : client.layout.decode T (bytes.take client.layout.msgSize) = event
        have pulled : ((w.pull client.stream client.layout.msgSize).conns client.stream).reads =
            (w.conns client.stream).reads ++ [⟨bytes.take client.layout.msgSize, true⟩] := by
          rw [World.conns_pull_same, Conn.pull, bytes_eq, decide_eq_true whole]
          rfl
        have one : eventsIn T client.layout [⟨bytes.take client.layout.msgSize, true⟩] =
            [event] := by
          rw [← event_eq]
          rfl
        by_cases terminal : event.isTerminal = true
        · refine ⟨_, _, ?_, pulled, ?_⟩
          · rw [if_pos terminal, followed, List.any_cons, terminal, Bool.true_or, if_pos rfl]
            rfl
          · rw [one, untilTerminal, if_pos terminal]
        · have left : ((w.pull client.stream client.layout.msgSize).conns
              client.stream).available = bytes.drop client.layout.msgSize := by
            rw [World.conns_pull_same, Conn.available_pull, bytes_eq]
          have other : event.isTerminal = false := Bool.eq_false_iff.mpr terminal
          obtain ⟨reads, w', ran, more, events⟩ :=
            @ih (w.pull client.stream client.layout.msgSize) (by rw [left]; omega)
          rw [left] at ran events
          refine ⟨⟨bytes.take client.layout.msgSize, true⟩ :: reads, w', ?_, ?_, ?_⟩
          · rw [if_neg terminal, ran, followed, followed, List.any_cons, other, Bool.false_or]
          · rw [more, pulled, List.append_assoc]
            rfl
          · rw [eventsIn_cons, one, events, untilTerminal, if_neg terminal]
            rfl
      · have short : bytes.length < client.layout.msgSize := Nat.lt_of_not_le whole
        rw [if_neg whole] at received
        rw [eventsFrom_short short, watch, run_bind_err received]
        refine ⟨[⟨bytes, false⟩], _, rfl, ?_, rfl⟩
        rw [World.conns_pull_same, Conn.pull, bytes_eq, decide_eq_false whole,
          List.take_of_length_le short.le]
        rfl

/-! ## Subscribing -/

/-- The events that a peer offers to a client that connects now. -/
def eventsOffered (T : Target) (w : World τ) (peer : Peer τ) : List ProgressEvent :=
  eventsFrom T (layoutOfOutput w.output.1) ((peer.wrote []).drop 8)

/-- What a peer offers depends on what the next version output is. -/
theorem eventsOffered_congr {w w' : World τ} (outputs : w'.outputs = w.outputs) (peer : Peer τ) :
    eventsOffered T w' peer = eventsOffered T w peer := by
  have same : w'.output.1 = w.output.1 := by
    rw [World.output, World.output, outputs]
    cases w.outputs <;> rfl
  rw [eventsOffered, eventsOffered, same]

/-- A daemon of the release that is installed offers the events that it publishes. -/
theorem Publishes.offered {r : PrintedRelease} {w : World τ} {peer : Peer τ}
    {xs : List (Published T r.release.layout)} (publishes : Publishes xs (peer.wrote []))
    (printed : w.output.1 = .ok (utf8Bytes r.output)) (alike : LaidOutAlike T r.release.layout) :
    Greets T (peer.wrote []) ∧ eventsOffered T w peer = eventsOf xs := by
  obtain ⟨greets, decoded⟩ := publishes.feed alike
  refine ⟨greets, ?_⟩
  rw [eventsOffered, printed, r.layoutOfOutput_output]
  exact decoded

/-- A connect to a peer that greets. -/
theorem run_connect_greeted {config : SocketConfig} {c : Config ProgressClient (World τ)}
    {peer : Peer τ} {rest : List (Attempt τ)}
    (next : c.world.attempts config.progressPath = .accepted peer :: rest)
    (greets : Greets T (peer.wrote [])) :
    ∃ w', run (World.serve mark) (ProgressClient.connect T config) c =
        (.ok (), ⟨⟨c.world.opened, config, layoutOfOutput c.world.output.1⟩, w'⟩) ∧
      w'.conns c.world.opened = (Conn.fresh peer).pull 8 := by
  have exec := World.exec_serve mark (ProgressClient.connect T config) c
  rcases ProgressClient.run_connect T mark c config with
    ⟨peer', rest', o, layout, w', next', ran, _, conn, _, accepted⟩ | ⟨never, _⟩
  · cases next.symm.trans next'
    obtain rfl := accepted.mpr greets
    rw [ran] at exec
    obtain ⟨_, _, _, _, own, _⟩ := ProgressClient.exec_connect_ok exec
    obtain ⟨_, _, rfl⟩ := (ProgressClient.mk.injEq ..).mp own
    exact ⟨w', ran, conn⟩
  · exact absurd next (never _ _)

end Following

end SwupdateIpc
