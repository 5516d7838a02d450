import SwupdateIpc.Cli.Footprints

/-!
# Following the events of a daemon

On sockets without failures of their own, a command that watches follows the peer at the
progress socket. Whatever bytes the peer has written, the command succeeds exactly when the
peer greets and one of the messages is terminal (`follows_offered`).

Against a daemon that publishes messages, these are the events of the messages
(`follows_published`).
-/

set_option autoImplicit false

namespace SwupdateIpc

open Foundations Wire

section Following

variable {T : Target} {τ : Type} {mark : τ}

/-! ## The command that only watches -/

/-- A connect to a peer that greets prints nothing. -/
theorem run_subscribe {config : SocketConfig} {c : Config ProgressClient (World τ)}
    {peer : Peer τ} {rest : List (Attempt τ)}
    (next : c.world.attempts config.progressPath = .accepted peer :: rest)
    (greets : Greets T (peer.wrote [])) :
    ∃ w', run (World.serve mark) (ProgressClient.connect T config) c =
        (.ok (), ⟨⟨c.world.opened, config, layoutOfOutput c.world.output.1⟩, w'⟩) ∧
      w'.conns c.world.opened = (Conn.fresh peer).pull 8 ∧ w'.printed = c.world.printed := by
  have exec := World.exec_serve mark (ProgressClient.connect T config) c
  obtain ⟨w', ran, conn⟩ := @run_connect_greeted T τ mark config c peer rest next greets
  rw [ran] at exec
  have undisturbed := exec_undisturbed
    (calls_subscribe (fun _ _ quiet => quiet) trivial trivial trivial (fun _ _ => trivial)
      c.own) exec
  exact ⟨w', ran, conn, undisturbed.printed⟩

/-- A client that has subscribed has found a peer that greets. -/
theorem run_subscribed {config : SocketConfig}
    {c c' : Config (ControlClient × ProgressClient) (World τ)}
    (ran : run (World.serve mark) (ProgressClient.connect T config).second c = (.ok (), c')) :
    ∃ peer rest, c.world.attempts config.progressPath = .accepted peer :: rest ∧
      Greets T (peer.wrote []) := by
  rw [run_second] at ran
  rcases ProgressClient.run_connect T mark ⟨c.own.2, c.world⟩ config with
    ⟨peer, rest, o, layout, w', next, alone, _, _, _, accepted⟩ | ⟨_, e, c₁, alone⟩
  · rw [alone] at ran
    exact ⟨peer, rest, next, accepted.mp (congrArg Prod.fst ran)⟩
  · rw [alone] at ran
    cases ran

/-- A command that subscribes first and succeeds has found a peer that greets. -/
theorem run_subscribe_ok {config : SocketConfig} {later : Unit → CliM Unit}
    {c : Config (ControlClient × ProgressClient) (World τ)}
    (success : exitStatus (run (World.serve mark)
      ((ProgressClient.connect T config).second >>= later) c).1 = some 0) :
    ∃ peer rest, c.world.attempts config.progressPath = .accepted peer :: rest ∧
      Greets T (peer.wrote []) := by
  rcases ran : run (World.serve mark) ((ProgressClient.connect T config).second >>= later) c with
    ⟨_ | _ | _, c'⟩
  · obtain ⟨_, _, connects, _⟩ := run_bind_returned ran
    exact run_subscribed connects
  · rw [ran] at success
    cases success
  · rw [ran] at success
    cases success

/-- Subscribing to a peer that greets leaves the control connection and the images as they
are, and the events to come are those that the peer offers. -/
theorem run_progress_greeted {c : Config (ControlClient × ProgressClient) (World τ)}
    (older : c.own.1.stream < c.world.opened) {peer : Peer τ} {rest : List (Attempt τ)}
    (next : c.world.attempts c.own.1.config.progressPath = .accepted peer :: rest)
    (greets : Greets T (peer.wrote [])) :
    ∃ c₁ : Config (ControlClient × ProgressClient) (World τ),
      run (World.serve mark) (Installation.progress T) c = (.ok (), c₁) ∧
      c₁.own.1.stream ≠ c₁.own.2.stream ∧
      c₁.world.conns c₁.own.1.stream = c.world.conns c.own.1.stream ∧
      (∀ image : Image, image.contents c₁.world = image.contents c.world) ∧
      eventsFrom T c₁.own.2.layout (c₁.world.conns c₁.own.2.stream).available =
        eventsOffered T c.world peer := by
  obtain ⟨w', ran, conn, _⟩ :=
    @run_subscribe T τ mark c.own.1.config ⟨c.own.2, c.world⟩ peer rest next greets
  let client : ProgressClient :=
    ⟨c.world.opened, c.own.1.config, layoutOfOutput c.world.output.1⟩
  have connects : run (World.serve mark) (ProgressClient.connect T c.own.1.config).second c =
      (.ok (), ⟨(c.own.1, client), w'⟩) := by
    rw [run_second, ran]
  have exec := World.exec_serve mark (ProgressClient.connect T c.own.1.config).second c
  rw [connects] at exec
  have fresh := subscribed exec
  refine ⟨⟨(c.own.1, client), w'⟩, connects, Nat.ne_of_lt older, ?_, ?_, ?_⟩
  · exact fresh.others _ older
  · exact fun image => fresh.contents image
  · show eventsFrom T _ (w'.conns c.world.opened).available = _
    rw [conn, Conn.available_pull]
    rfl

section Commands

variable {defaults : SocketConfig} {schedule : List Turn} {fuel : Nat} {cli : Cli}
  {c : Config (ControlClient × ProgressClient) (World τ)}

/-- When the peer greets, the command follows its events. -/
theorem run_progress (watches : cli.command = .progress) {peer : Peer τ}
    {rest : List (Attempt τ)}
    (next : c.world.attempts (buildConfig defaults cli).progressPath = .accepted peer :: rest)
    (greets : Greets T (peer.wrote [])) (enough : (eventsOffered T c.world peer).length < fuel) :
    ∃ c', run (World.serve mark) (cli.run T defaults schedule fuel) c =
        (followed (eventsOffered T c.world peer), c') ∧
      received T (layoutOfOutput c.world.output.1) (c'.world.conns c.world.opened) =
        untilTerminal (eventsOffered T c.world peer) := by
  obtain ⟨w₁, connected, conn, _⟩ :=
    @run_subscribe T τ mark (buildConfig defaults cli) ⟨c.own.2, c.world⟩ peer rest next greets
  let client : ProgressClient :=
    ⟨c.world.opened, buildConfig defaults cli, layoutOfOutput c.world.output.1⟩
  let w₂ : World τ := { w₁ with printed := w₁.printed ++ [connectedLine] }
  have left : (w₂.conns client.stream).available = (peer.wrote []).drop 8 := by
    show (w₁.conns c.world.opened).available = _
    rw [conn, Conn.available_pull]
    rfl
  have taken : ∃ ack, (w₂.conns client.stream).reads = [ack] := by
    refine ⟨⟨(peer.wrote []).take 8, 8 ≤ (peer.wrote []).length⟩, ?_⟩
    show (w₁.conns c.world.opened).reads = _
    rw [conn]
    rfl
  obtain ⟨reads, w₃, ran, more, events⟩ := @run_follow T τ mark fuel client w₂ (by
    rw [left]
    exact enough)
  rw [left] at ran events
  refine ⟨⟨(c.own.1, client), w₃⟩, ?_, ?_⟩
  · have first : run (World.serve mark)
        (ProgressClient.connect T (buildConfig defaults cli)).second c =
          (.ok (), ⟨(c.own.1, client), w₁⟩) := by
      rw [run_second, connected]
    rw [Cli.run, watches]
    refine (run_bind_ok first).trans ?_
    show run _ (watch T fuel).second ⟨(c.own.1, client), w₂⟩ = _
    rw [run_second, ran]
    rfl
  · obtain ⟨ack, first⟩ := taken
    rw [first] at more
    show eventsIn T _ (w₃.conns c.world.opened).reads.tail = _
    rw [show (w₃.conns c.world.opened).reads = [ack] ++ reads from more]
    exact events

/-- **When watching succeeds.** On sockets without failures of their own, the command
succeeds exactly if the next attempt is accepted by a peer that greets, and one of the whole
messages that the peer has written after it is terminal. It has then received the messages
up to the first terminal one, and all of them if none is terminal. -/
theorem follows_offered (watches : cli.command = .progress)
    (enough : ∀ peer rest, c.world.attempts (buildConfig defaults cli).progressPath =
      .accepted peer :: rest → (eventsOffered T c.world peer).length < fuel) :
    (exitStatus (run (World.serve mark) (cli.run T defaults schedule fuel) c).1 = some 0 ↔
      ∃ peer rest, c.world.attempts (buildConfig defaults cli).progressPath =
          .accepted peer :: rest ∧ Greets T (peer.wrote []) ∧
        ∃ event ∈ eventsOffered T c.world peer, event.isTerminal = true) ∧
    ∀ peer rest, c.world.attempts (buildConfig defaults cli).progressPath =
        .accepted peer :: rest → Greets T (peer.wrote []) →
      received T (layoutOfOutput c.world.output.1)
          ((run (World.serve mark) (cli.run T defaults schedule fuel) c).2.world.conns
            c.world.opened) =
        untilTerminal (eventsOffered T c.world peer) := by
  constructor
  · constructor
    · intro success
      have subscribed := success
      rw [Cli.run, watches] at subscribed
      obtain ⟨peer, rest, next, greets⟩ := run_subscribe_ok subscribed
      obtain ⟨c', ran, _⟩ :=
        @run_progress T τ mark defaults schedule fuel cli c watches peer rest next greets
          (enough peer rest next)
      rw [ran, followed] at success
      refine ⟨peer, rest, next, greets, ?_⟩
      split at success
      · exact List.any_eq_true.mp (by assumption)
      · cases success
    · rintro ⟨peer, rest, next, greets, terminal⟩
      obtain ⟨c', ran, _⟩ :=
        @run_progress T τ mark defaults schedule fuel cli c watches peer rest next greets
          (enough peer rest next)
      rw [ran, followed, if_pos (List.any_eq_true.mpr terminal)]
      rfl
  · intro peer rest next greets
    obtain ⟨c', ran, events⟩ :=
      @run_progress T τ mark defaults schedule fuel cli c watches peer rest next greets
        (enough peer rest next)
    rw [ran]
    exact events

/-- The release 2024.05 is installed, and its daemon publishes some messages. -/
def publishingWorld (xs : List (Published .x86_64 (documented 2024 5).release.layout)) :
    World Unit :=
  { World.initial fun _ => [.accepted (publishing xs)] with
    outputs := [.ok (utf8Bytes (documented 2024 5).output)] }

/-- A daemon that is idle, and then completes an update. -/
def completedUpdate : List (Published .x86_64 (documented 2024 5).release.layout) :=
  [⟨.idle, .zeroed _⟩, ⟨{ ProgressMsg.idle with status := 3 }, .zeroed _⟩]

/-- The command succeeds when the update is complete. -/
theorem follows_offered_completed :
    ∃ (cli : Cli) (c : Config (ControlClient × ProgressClient) (World Unit)) (peer : Peer Unit),
      eventsOffered .x86_64 c.world peer = [.idle, .success] ∧
      ((exitStatus (run (World.serve ()) (cli.run .x86_64 ⟨"", "", 0⟩ [] 3) c).1 = some 0 ↔
        ∃ peer rest, c.world.attempts (buildConfig ⟨"", "", 0⟩ cli).progressPath =
            .accepted peer :: rest ∧ Greets .x86_64 (peer.wrote []) ∧
          ∃ event ∈ eventsOffered .x86_64 c.world peer, event.isTerminal = true) ∧
      ∀ peer rest, c.world.attempts (buildConfig ⟨"", "", 0⟩ cli).progressPath =
          .accepted peer :: rest → Greets .x86_64 (peer.wrote []) →
        received .x86_64 (layoutOfOutput c.world.output.1)
            ((run (World.serve ()) (cli.run .x86_64 ⟨"", "", 0⟩ [] 3) c).2.world.conns
              c.world.opened) =
          untilTerminal (eventsOffered .x86_64 c.world peer)) := by
  obtain ⟨_, offered⟩ := (publishes_publishing completedUpdate).offered
    (w := publishingWorld completedUpdate) rfl rfl
  refine ⟨⟨none, none, .progress⟩, ⟨(⟨0, ⟨"", "", 0⟩⟩, ⟨0, ⟨"", "", 0⟩, .packed⟩),
    publishingWorld completedUpdate⟩, publishing completedUpdate, offered, follows_offered rfl ?_⟩
  intro peer rest next
  obtain ⟨same, _⟩ := (List.cons.injEq ..).mp next
  obtain rfl := Attempt.accepted.inj same
  rw [offered]
  exact Nat.lt_succ_self 2

/-- Against a daemon that publishes messages, the command follows their events. -/
theorem follows_published (watches : cli.command = .progress) {r : PrintedRelease}
    {peer : Peer τ} {rest : List (Attempt τ)}
    (printed : c.world.output.1 = .ok (utf8Bytes r.output))
    (alike : LaidOutAlike T r.release.layout)
    (next : c.world.attempts (buildConfig defaults cli).progressPath = .accepted peer :: rest)
    (xs : List (Published T r.release.layout)) (publishes : Publishes xs (peer.wrote []))
    (enough : xs.length < fuel) :
    ∃ c', run (World.serve mark) (cli.run T defaults schedule fuel) c =
        (followed (eventsOf xs), c') ∧
      received T r.release.layout (c'.world.conns c.world.opened) =
        untilTerminal (eventsOf xs) := by
  have layout : layoutOfOutput c.world.output.1 = r.release.layout := by
    rw [printed, layoutOfOutput, fromUtf8Lossy_utf8Bytes, r.layout_output]
  obtain ⟨greets, offered⟩ := publishes.offered printed alike
  have few : (eventsOffered T c.world peer).length < fuel := by
    rw [offered, eventsOf, List.length_map]
    exact enough
  obtain ⟨c', ran, events⟩ :=
    @run_progress T τ mark defaults schedule fuel cli c watches peer rest next greets few
  rw [offered] at ran events
  rw [layout] at events
  exact ⟨c', ran, events⟩

/-- The command receives that the daemon is idle and that the update is complete. -/
theorem follows_published_completed :
    ∃ (cli : Cli) (c c' : Config (ControlClient × ProgressClient) (World Unit)),
      eventsOf completedUpdate = [.idle, .success] ∧
      run (World.serve ()) (cli.run .x86_64 ⟨"", "", 0⟩ [] 3) c =
        (followed (eventsOf completedUpdate), c') ∧
      received .x86_64 (documented 2024 5).release.layout (c'.world.conns c.world.opened) =
        untilTerminal (eventsOf completedUpdate) := by
  obtain ⟨c', ran, events⟩ :=
    @follows_published .x86_64 Unit () ⟨"", "", 0⟩ [] 3 ⟨none, none, .progress⟩
      ⟨(⟨0, ⟨"", "", 0⟩⟩, ⟨0, ⟨"", "", 0⟩, .packed⟩), publishingWorld completedUpdate⟩ rfl
      (documented 2024 5) (publishing completedUpdate) [] rfl rfl rfl completedUpdate
      (publishes_publishing completedUpdate) (Nat.lt_succ_self 2)
  exact ⟨_, _, c', rfl, ran, events⟩

end Commands

end Following

end SwupdateIpc
