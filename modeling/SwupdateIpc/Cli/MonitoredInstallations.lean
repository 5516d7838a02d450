import SwupdateIpc.Cli.FollowedEvents
import SwupdateIpc.Cli.Schedules
import SwupdateIpc.Cli.Scripts

/-!
# Installations that watch their progress

An installation with progress makes its request to the daemon, subscribes to the progress
events, and then streams the image while it follows the events. On sockets without failures
of their own, and on every schedule that lets both tasks end, it succeeds exactly when the
service grants the request, the image is read without error, the peer at the progress
socket greets, and one of the messages that this peer has written is terminal
(`monitored_succeeds_iff`).
-/

set_option autoImplicit false

namespace SwupdateIpc

open Foundations Wire

variable {T : Target} {τ : Type} {mark : τ} {service : Service} {d : Daemon T service}
  {state : service.State}

/-- The exit status of two joined tasks. -/
theorem exitStatus_join {m : CliM (Unit × Unit)}
    {c : Config (ControlClient × ProgressClient) (World τ)} :
    exitStatus (run (World.serve mark) (m >>= fun _ => pure ()) c).1 = some 0 ↔
      ∃ both, (run (World.serve mark) m c).1 = .ok both := by
  rw [run_bind]
  generalize run (World.serve mark) m c = ran
  obtain ⟨o, c'⟩ := ran
  cases o with
  | ok both => exact ⟨fun _ => ⟨both, rfl⟩, fun _ => rfl⟩
  | err e =>
      constructor
      · rintro ⟨⟩
      · rintro ⟨_, ⟨⟩⟩
  | dropped =>
      constructor
      · rintro ⟨⟩
      · rintro ⟨_, ⟨⟩⟩

/-- Streaming returns exactly when the image is read without error. -/
theorem run_streamImage_ok_iff {file : Option String} {fuel : Nat}
    {c : Config ControlClient (World τ)} (writable : (c.world.conns c.own.stream).closed = false)
    (enough : (delivered ((imageOf file).contents c.world)).length < fuel) :
    (∃ u, (run (World.serve mark) (streamImage file fuel) c).1 = .ok u) ↔
      endsCleanly ((imageOf file).contents c.world) = true := by
  cases clean : endsCleanly ((imageOf file).contents c.world) with
  | true =>
      obtain ⟨w', ran, _⟩ := @run_streamImage τ mark file fuel c writable clean enough
      rw [ran]
      exact ⟨fun _ => rfl, fun _ => ⟨(), rfl⟩⟩
  | false =>
      obtain ⟨o, w', ran, _, failed⟩ := @Image.run_delivered τ mark _ fuel c writable enough
      obtain ⟨e, rfl⟩ := failed clean
      rw [streamImage_eq, run_bind_err ran]
      constructor
      · rintro ⟨_, ⟨⟩⟩
      · rintro ⟨⟩

/-- Following returns exactly when one of the events to come is terminal. -/
theorem run_follow_ok_iff {fuel : Nat} {client : ProgressClient} {w : World τ}
    (enough : (eventsFrom T client.layout (w.conns client.stream).available).length < fuel) :
    (∃ u, (run (World.serve mark) (watch T fuel) ⟨client, w⟩).1 = .ok u) ↔
      ∃ event ∈ eventsFrom T client.layout (w.conns client.stream).available,
        event.isTerminal = true := by
  obtain ⟨reads, w', ran, _⟩ := @run_follow T τ mark fuel client w enough
  rw [ran, followed, ← List.any_eq_true]
  split
  next terminal => exact ⟨fun _ => terminal, fun _ => ⟨(), rfl⟩⟩
  next other =>
    constructor
    · rintro ⟨_, ⟨⟩⟩
    · intro terminal
      exact absurd terminal other

section Monitored

variable {c : Config (ControlClient × ProgressClient) (World τ)} {fuel : Nat}
  {file : Option String}

/-- **The two tasks on a fair schedule** succeed exactly when each does alone. -/
theorem run_tasks_ok_iff (distinct : c.own.1.stream ≠ c.own.2.stream)
    (writable : (c.world.conns c.own.1.stream).closed = false)
    (enough : (delivered ((imageOf file).contents c.world)).length < fuel)
    (enough' : (eventsFrom T c.own.2.layout
      (c.world.conns c.own.2.stream).available).length < fuel) :
    ∃ n m, ∀ schedule, Fair n m schedule →
      ((∃ both, (run (World.serve mark)
          (Async.tryJoin schedule (streamImage file fuel) (watch T fuel)) c).1 = .ok both) ↔
        endsCleanly ((imageOf file).contents c.world) = true ∧
          ∃ event ∈ eventsFrom T c.own.2.layout (c.world.conns c.own.2.stream).available,
            event.isTerminal = true) := by
  refine ⟨steps (World.serve mark) (streamImage file fuel) ⟨c.own.1, c.world⟩,
    steps (World.serve mark) (watch T fuel) ⟨c.own.2, c.world⟩, fun schedule fair => ?_⟩
  have joined := joined_tryJoin (World.joinable_reads mark c.own.2.stream)
    (calls_streamImage distinct file fuel) (calls_watch c.own.2 fuel) fair
  refine joined.returned_iff.trans (and_congr ?_ ?_)
  · exact run_streamImage_ok_iff (c := ⟨c.own.1, c.world⟩) writable enough
  · exact run_follow_ok_iff enough'

/-- **Subscribing and the tasks.** After the request was granted, what is left succeeds on a
fair schedule exactly when the peer at the progress socket greets, the image is read without
error, and one of the events that the peer offers is terminal. -/
theorem run_subscribed_ok_iff (older : c.own.1.stream < c.world.opened)
    (writable : (c.world.conns c.own.1.stream).closed = false)
    (enough : (delivered ((imageOf file).contents c.world)).length < fuel)
    (enough' : ∀ peer rest, c.world.attempts c.own.1.config.progressPath =
      .accepted peer :: rest → (eventsOffered T c.world peer).length < fuel) :
    ∃ n m, ∀ schedule, Fair n m schedule →
      (exitStatus (run (World.serve mark) (Installation.progress T >>= fun _ =>
          Async.tryJoin schedule (streamImage file fuel) (watch T fuel) >>= fun _ => pure ()) c).1 =
            some 0 ↔
        endsCleanly ((imageOf file).contents c.world) = true ∧
          ∃ peer rest, c.world.attempts c.own.1.config.progressPath = .accepted peer :: rest ∧
            Greets T (peer.wrote []) ∧
              ∃ event ∈ eventsOffered T c.world peer, event.isTerminal = true) := by
  by_cases subscribes : ∃ peer rest, c.world.attempts c.own.1.config.progressPath =
      .accepted peer :: rest ∧ Greets T (peer.wrote [])
  · obtain ⟨peer, rest, next, greets⟩ := subscribes
    obtain ⟨c₁, connects, distinct, same, contents, offered⟩ :=
      @run_progress_greeted T τ mark c older peer rest next greets
    have few := enough' peer rest next
    rw [← same] at writable
    rw [← contents] at enough ⊢
    rw [← offered] at few
    obtain ⟨n, m, tasks⟩ := @run_tasks_ok_iff T τ mark c₁ fuel file distinct writable enough few
    refine ⟨n, m, fun schedule fair => ?_⟩
    rw [run_bind_ok connects, exitStatus_join, tasks schedule fair, offered]
    refine and_congr_right fun _ => ⟨fun terminal => ⟨peer, rest, next, greets, terminal⟩, ?_⟩
    rintro ⟨peer', rest', next', _, terminal⟩
    cases next.symm.trans next'
    exact terminal
  · refine ⟨0, 0, fun schedule _ => ⟨fun success => ?_, ?_⟩⟩
    · exact absurd (run_subscribe_ok success) subscribes
    · rintro ⟨_, peer, rest, next, greets, _⟩
      exact absurd ⟨peer, rest, next, greets⟩ subscribes

/-- An install request is granted by an acknowledgement, and by nothing else. -/
theorem granted_iff (req : InstallRequest) :
    (∃ v, (service.answer state ((Request.install req).received T)).2.result (.install req) =
      .ok v) ↔ (service.answer state ((Request.install req).received T)).2 = .ack := by
  have fits := service.fits state ((Request.install req).received T)
  generalize (service.answer state ((Request.install req).received T)).2 = answer at fits ⊢
  cases answer with
  | ack => exact ⟨fun _ => rfl, fun _ => ⟨_, rfl⟩⟩
  | nack =>
      constructor
      · rintro ⟨_, ⟨⟩⟩
      · rintro ⟨⟩
  | _ => cases fits

/-- **After the daemon has granted the request**, an installation with progress says so, and
it succeeds on a fair schedule exactly when the image, the peer at the progress socket and
its events allow it to. -/
theorem run_granted_ok_iff {r : Request} {w : World τ} (made : Made mark d state r w c)
    (line : String)
    (enough : (delivered ((imageOf file).contents w)).length < fuel)
    (enough' : ∀ peer rest, (w.attempted c.own.1.config.ctrlPath).attempts
      c.own.1.config.progressPath = .accepted peer :: rest →
        (eventsOffered T w peer).length < fuel) :
    ∃ n m, ∀ schedule, Fair n m schedule →
      (exitStatus (run (World.serve mark) (println line >>= fun _ => Installation.progress T >>=
          fun _ => Async.tryJoin schedule (streamImage file fuel) (watch T fuel) >>= fun _ =>
            pure ()) c).1 = some 0 ↔
        endsCleanly ((imageOf file).contents w) = true ∧
          ∃ peer rest, (w.attempted c.own.1.config.ctrlPath).attempts
              c.own.1.config.progressPath = .accepted peer :: rest ∧
            Greets T (peer.wrote []) ∧
              ∃ event ∈ eventsOffered T w peer, event.isTerminal = true) := by
  let c₁ : Config (ControlClient × ProgressClient) (World τ) :=
    ⟨c.own, { c.world with printed := c.world.printed ++ [line] }⟩
  have older : c₁.own.1.stream < c₁.world.opened := by
    show c.own.1.stream < c.world.opened
    rw [made.stream, made.opened]
    exact Nat.lt_succ_self _
  have writable : (c₁.world.conns c₁.own.1.stream).closed = false := by
    show (c.world.conns c.own.1.stream).closed = false
    rw [made.stream]
    exact made.writable
  have contents : (imageOf file).contents c₁.world = (imageOf file).contents w :=
    contents_undisturbed made.undisturbed (imageOf file)
  have offered : ∀ peer, eventsOffered T c₁.world peer = eventsOffered T w peer :=
    eventsOffered_congr made.outputs
  rw [← contents] at enough ⊢
  simp only [← made.attempts, ← offered] at enough' ⊢
  exact run_subscribed_ok_iff older writable enough enough'

/-- **When an installation with progress succeeds.** On every schedule that lets both tasks
end, it succeeds exactly when the service acknowledges the request, the image is read
without error, the peer at the progress socket greets, and one of the messages that this
peer has written is terminal. -/
theorem monitored_succeeds_iff {defaults : SocketConfig} {cli : Cli} {source : Source}
    {dryRun : Bool} {info : String} {rest : List (Attempt τ)}
    (command : cli.command = .install file true source dryRun info)
    (next : c.world.attempts (buildConfig defaults cli).ctrlPath =
      .accepted (d.host state) :: rest)
    (enough : (delivered ((imageOf file).contents c.world)).length < fuel)
    (enough' : ∀ peer rest,
      (c.world.attempted (buildConfig defaults cli).ctrlPath).attempts
        (buildConfig defaults cli).progressPath = .accepted peer :: rest →
          (eventsOffered T c.world peer).length < fuel) :
    ∃ n m, ∀ schedule, Fair n m schedule →
      (exitStatus (run (World.serve mark) (cli.run T defaults schedule fuel) c).1 = some 0 ↔
        (service.answer state
            ((Request.install (installRequest source dryRun info)).received T)).2 = .ack ∧
          endsCleanly ((imageOf file).contents c.world) = true ∧
            ∃ peer rest, (c.world.attempted (buildConfig defaults cli).ctrlPath).attempts
                (buildConfig defaults cli).progressPath = .accepted peer :: rest ∧
              Greets T (peer.wrote []) ∧
                ∃ event ∈ eventsOffered T c.world peer, event.isTerminal = true) := by
  obtain ⟨c₁, made, held, ran⟩ := @run_asked T τ mark service d state (buildConfig defaults cli) c
    rest next (.install (installRequest source dryRun info))
  let monitor (schedule : List Turn) : CliM Unit := Installation.progress T >>= fun _ =>
    Async.tryJoin schedule (streamImage file fuel) (watch T fuel) >>= fun _ => pure ()
  have started : ∀ schedule, cli.run T defaults schedule fuel = (do
      (ControlClient.connect (buildConfig defaults cli)).first
      let _ ← ((Request.install (installRequest source dryRun info)).perform T).first
      println "Install request accepted"
      monitor schedule) := by
    intro schedule
    rw [Cli.run_install command]
    rfl
  rw [← granted_iff]
  cases granted : (service.answer state ((Request.install
      (installRequest source dryRun info)).received T)).2.result
        (.install (installRequest source dryRun info)) with
  | error e =>
      refine ⟨0, 0, fun schedule _ => ?_⟩
      rw [started, ran, granted]
      constructor
      · rintro ⟨⟩
      · rintro ⟨⟨_, ⟨⟩⟩, _⟩
  | ok v =>
      rw [← held] at enough' ⊢
      obtain ⟨n, m, later⟩ := run_granted_ok_iff made "Install request accepted" enough enough'
      refine ⟨n, m, fun schedule fair => ?_⟩
      rw [started, ran, granted]
      exact (later schedule fair).trans ⟨fun right => ⟨⟨v, rfl⟩, right⟩, fun right => right.2⟩

end Monitored

/-- Three bytes are installed, and the daemon publishes that it is idle and then that the
update is complete. -/
theorem monitored_succeeds_completed :
    ∃ (cli : Cli) (c : Config (ControlClient × ProgressClient) (World Unit)) (peer : Peer Unit),
      cli.command = .install none true .local false "" ∧
      delivered ((imageOf none).contents c.world) = [1, 2, 3] ∧
      (c.world.attempted "ctrl").attempts "progress" = [.accepted peer] ∧
      eventsOffered .x86_64 c.world peer = [.idle, .success] ∧
      ∃ n m, ∀ schedule, Fair n m schedule → exitStatus (run (World.serve ())
        (cli.run .x86_64 ⟨"ctrl", "progress", 0⟩ schedule 4) c).1 = some 0 := by
  let d : Daemon .x86_64 counting := .filling _ representable_counting
  let monitor : Peer Unit := publishing completedUpdate
  let attempts (path : String) : List (Attempt Unit) :=
    if path = "ctrl" then [.accepted (d.host counting.start)] else [.accepted monitor]
  let w : World Unit :=
    { World.initial attempts with
      outputs := [.ok (utf8Bytes (documented 2024 5).output)]
      readers := fun _ => [.data [1, 2], .data [3]] }
  obtain ⟨greets, offered⟩ := (publishes_publishing completedUpdate).offered (τ := Unit)
    (w := w) rfl rfl
  change Greets .x86_64 (monitor.wrote []) at greets
  change eventsOffered .x86_64 w monitor = _ at offered
  have next : (w.attempted "ctrl").attempts "progress" = [.accepted monitor] := rfl
  obtain ⟨n, m, succeeds⟩ :=
    @monitored_succeeds_iff .x86_64 Unit () counting d counting.start
      ⟨(⟨0, ⟨"", "", 0⟩⟩, ⟨0, ⟨"", "", 0⟩, .packed⟩), w⟩ 4 none ⟨"ctrl", "progress", 0⟩
      ⟨none, none, .install none true .local false ""⟩ .local false "" [] rfl rfl
      (Nat.lt_succ_self 3) (by
        intro peer rest here
        obtain ⟨same, _⟩ := (List.cons.injEq ..).mp (next.symm.trans here)
        obtain rfl := Attempt.accepted.inj same
        rw [offered]
        exact Nat.lt_add_left 1 (Nat.lt_succ_self 2))
  refine ⟨_, _, monitor, rfl, rfl, next, offered, n, m, fun schedule fair =>
    (succeeds schedule fair).mpr ?_⟩
  refine ⟨rfl, rfl, monitor, [], next, greets, .success, ?_, rfl⟩
  rw [offered]
  exact List.mem_cons_of_mem _ (List.mem_singleton_self _)

end SwupdateIpc
