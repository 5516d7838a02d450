import SwupdateIpc.Cli.WatchedEvents
import SwupdateIpc.Control.Exchange

/-!
# When a command succeeds

An installation that succeeds has transferred its image: the image was read without
error, and its connection has carried the install request and the whole image and
nothing else (`Transferred`). A command that watches the progress events succeeds only
after a terminal event, which is the last one it has received (`EndsWithTerminal`). The
exit status does not tell a failure from a success (`Cli.succeeds_after_terminal`).
-/

set_option autoImplicit false

namespace SwupdateIpc

open Foundations Wire

/-! ## Commands that succeed -/

section Succeeding

variable {T : Target} {τ : Type} {mark : τ}
  {c c' : Config (ControlClient × ProgressClient) (World τ)}

/-- The client holds a connection, opened since an environment, on which it has sent an
install request and nothing else, and the sources of images are as they were there. -/
structure Installed (T : Target) (mark : τ) (req : InstallRequest) (w : World τ)
    (c : Config (ControlClient × ProgressClient) (World τ)) : Prop where
  stream : c.own.1.stream = w.opened
  older : w.opened < c.world.opened
  sent : (c.world.conns w.opened).sent =
    ((Request.install req).message T).bytes.map (Prod.mk mark)
  contents : ∀ image : Image, image.contents c.world = image.contents w

/-- A connect and an install request that is accepted. -/
theorem installed {config : SocketConfig} {req : InstallRequest} {handle : Installation}
    {line : String} {c₁ c₂ c₃ : Config (ControlClient × ProgressClient) (World τ)}
    (connect : Exec (World.device mark) (ControlClient.connect config).first c (.ok ()) c₁)
    (install : Exec (World.device mark) (ControlClient.install T req).first c₁ (.ok handle) c₂)
    (printed : Exec (World.device mark) (println line) c₂ (.ok ()) c₃) :
    Installed T mark req c.world c₃ := by
  obtain ⟨peer, first⟩ := ControlClient.exec_connect_ok (exec_first connect).1
  obtain ⟨resp, second⟩ := ControlClient.exec_install_ok (exec_first install).1
  obtain ⟨own, world⟩ := exec_println_ok printed
  have held : c₁.own.1 = ⟨c.world.opened, config⟩ := congrArg Config.own first
  have accepted : c₁.world = c.world.accept config.ctrlPath peer := congrArg Config.world first
  have kept : c₂.own.1 = c₁.own.1 := congrArg Config.own second
  have exchanged := congrArg Config.world second
  change c₂.world = _ at exchanged
  rw [held, accepted] at exchanged
  refine ⟨by rw [own, kept, held], ?_, ?_, ?_⟩
  · rw [world, exchanged]
    exact Nat.lt_succ_self c.world.opened
  · rw [world, exchanged]
    show (World.conns (World.record _ c.world.opened _) c.world.opened).sent = _
    rw [World.record, World.conns_onConn_same, World.send, World.conns_onConn_same,
      World.conns_accept_new, Conn.sent_record, Conn.sent_send]
    rfl
  · intro image
    rw [world, exchanged]
    cases image <;> rfl

/-- The image was read without error, and the connection has carried the request and
the whole image. -/
structure Transferred (T : Target) (mark : τ) (req : InstallRequest) (file : Option String)
    (w w' : World τ) (stream : Nat) : Prop where
  clean : endsCleanly ((imageOf file).contents w) = true
  sent : (w'.conns stream).sent = (((Request.install req).message T).bytes ++
    delivered ((imageOf file).contents w)).map (Prod.mk mark)

/-- After an accepted request, streaming that returns has transferred the image. -/
theorem Installed.streamed {req : InstallRequest} {file : Option String} {fuel : Nat}
    {w w₁ : World τ} {client : ControlClient} (installed : Installed T mark req w c)
    (exec : Exec (World.device mark) (streamImage file fuel) ⟨c.own.1, c.world⟩ (.ok ())
      ⟨client, w₁⟩) :
    client.stream = w.opened ∧ Transferred T mark req file w w₁ w.opened := by
  obtain ⟨own, clean, conns⟩ := exec_streamImage_ok exec
  change client = c.own.1 at own
  change endsCleanly ((imageOf file).contents c.world) = true at clean
  change w₁.conns = (c.world.send mark c.own.1.stream
    (delivered ((imageOf file).contents c.world))).conns at conns
  rw [installed.contents] at clean conns
  refine ⟨by rw [own, installed.stream], clean, ?_⟩
  rw [conns, installed.stream, World.send, World.conns_onConn_same, Conn.sent_send,
    installed.sent, List.map_append]

/-- The progress client holds a connection just opened, of which it has taken one
stretch, and the rest is as before. -/
structure Subscribed (c c' : Config (ControlClient × ProgressClient) (World τ)) : Prop where
  client : c'.own.1 = c.own.1
  stream : c'.own.2.stream = c.world.opened
  fresh : ∃ ack, (c'.world.conns c.world.opened).reads = [ack]
  newer : c.world.opened < c'.world.opened
  others : ∀ fd, fd < c.world.opened → c'.world.conns fd = c.world.conns fd
  contents : ∀ image : Image, image.contents c'.world = image.contents c.world

/-- A progress client that connects. -/
theorem subscribed {config : SocketConfig}
    (connect : Exec (World.device mark) (ProgressClient.connect T config).second c (.ok ()) c') :
    Subscribed c c' := by
  obtain ⟨exec, kept⟩ := exec_second connect
  obtain ⟨peer, ack, _, _, own, world⟩ := ProgressClient.exec_connect_ok exec
  change c'.own.2 = ⟨c.world.opened, config, _⟩ at own
  change c'.world = World.record _ c.world.opened _ at world
  refine ⟨kept, by rw [own], ⟨⟨ack, true⟩, ?_⟩, ?_, ?_, ?_⟩
  · rw [world, World.record, World.conns_onConn_same]
    exact congrArg (fun conn => (Conn.record conn _).reads) (World.conns_accept_new _ _ _)
  · rw [world]
    exact Nat.lt_succ_self c.world.opened
  · intro fd old
    rw [world, World.record, World.conns_onConn_other _ _ (Nat.ne_of_lt old)]
    exact World.conns_accept_old _ _ _ old
  · intro image
    rw [world]
    cases image <;> rfl

theorem Installed.subscribe {req : InstallRequest} {w : World τ}
    (installed : Installed T mark req w c) (subscribed : Subscribed c c') :
    Installed T mark req w c' where
  stream := by rw [subscribed.client, installed.stream]
  older := Nat.lt_trans installed.older subscribed.newer
  sent := by rw [subscribed.others _ installed.older, installed.sent]
  contents image := (subscribed.contents image).trans (installed.contents image)

/-- A loop that returns on a connection of which one stretch was taken has received a
terminal event, and it leaves the other connections as they were. -/
theorem watched {fuel : Nat} {w : World τ} {progress : ProgressClient}
    (fresh : ∃ ack, (w.conns progress.stream).reads = [ack])
    (exec : Exec (World.device mark) (watch T fuel) ⟨progress, w⟩ (.ok ())
      ⟨c'.own.2, c'.world⟩) :
    EndsWithTerminal (received T c'.own.2.layout (c'.world.conns c'.own.2.stream)) ∧
      ∀ fd, fd ≠ progress.stream → c'.world.conns fd = w.conns fd := by
  obtain ⟨own, others, more, taken, ⟨_, ends⟩ | ⟨failed, _⟩⟩ := exec_watch exec
  · obtain ⟨ack, first⟩ := fresh
    change c'.own.2 = progress at own
    change (c'.world.conns progress.stream).reads = (w.conns progress.stream).reads ++ more at taken
    refine ⟨?_, others⟩
    rw [received, own, taken, first]
    exact ends
  · exact absurd rfl failed

/-- Whether a command watches the progress events. -/
def Command.watches : Command → Bool
  | .install _ monitored _ _ _ => monitored
  | .progress => true
  | _ => false

/-- An installation that succeeds has transferred its image, and, with progress, it has
received a terminal event. -/
theorem exec_install_command {defaults : SocketConfig} {schedule : List Turn} {fuel : Nat}
    {cli : Cli} {file : Option String} {progress : Bool} {source : Source} {dryRun : Bool}
    {info : String} (command : cli.command = .install file progress source dryRun info)
    (exec : Exec (World.device mark) (cli.run T defaults schedule fuel) c (.ok ()) c') :
    Transferred T mark (installRequest source dryRun info) file c.world c'.world
        c'.own.1.stream ∧
      (progress = true →
        EndsWithTerminal (received T c'.own.2.layout (c'.world.conns c'.own.2.stream))) := by
  rw [Cli.run, command] at exec
  obtain ⟨_, c₁, connect, rest⟩ := exec_bind_ok exec
  obtain ⟨handle, c₂, install, rest⟩ := exec_bind_ok rest
  obtain ⟨_, c₃, printed, rest⟩ := exec_bind_ok rest
  have ready := installed connect install printed
  cases progress with
  | false =>
      obtain ⟨streamed, _⟩ := exec_first rest
      obtain ⟨held, transferred⟩ := ready.streamed streamed
      rw [held]
      exact ⟨transferred, by simp⟩
  | true =>
      obtain ⟨_, c₄, subscribe, rest⟩ := exec_bind_ok rest
      obtain ⟨both, c₅, tasks, ended⟩ := exec_bind_ok rest
      obtain ⟨_, rfl⟩ := ended
      have fresh : Subscribed c₃ c₄ := by
        obtain ⟨client, c, ⟨_, same⟩, connected⟩ := exec_bind_ok subscribe
        rw [same] at connected
        exact subscribed connected
      have distinct : c₄.own.1.stream ≠ c₄.own.2.stream := by
        rw [fresh.client, ready.stream, fresh.stream]
        exact Nat.ne_of_lt ready.older
      obtain ⟨w, first, second⟩ := exec_tasks distinct tasks
      obtain ⟨held, transferred⟩ := (ready.subscribe fresh).streamed first
      obtain ⟨_, _, conns⟩ := exec_streamImage_ok first
      have untouched : w.conns c₄.own.2.stream = c₄.world.conns c₄.own.2.stream := by
        change w.conns = (World.send _ _ _ _).conns at conns
        rw [conns, World.send, World.conns_onConn_other _ _ distinct.symm]
      have one : ∃ ack, (w.conns c₄.own.2.stream).reads = [ack] := by
        rw [untouched, fresh.stream]
        exact fresh.fresh
      obtain ⟨ends, others⟩ := watched one second
      have apart : c.world.opened ≠ c₄.own.2.stream := by
        rw [fresh.stream]
        exact Nat.ne_of_lt ready.older
      rw [held]
      exact ⟨⟨transferred.clean, by rw [others _ apart, transferred.sent]⟩, fun _ => ends⟩

end Succeeding

/-! ## An installation that fails and succeeds -/

/-- The release 2024.05 publishes that it is idle, and then that an update has failed. -/
def failedUpdate : List (Published .x86_64 (documented 2024 5).release.layout) := [
  ⟨.idle, .zeroed _⟩,
  ⟨{ ProgressMsg.idle with status := Header.RecoveryStatus.failure.code }, .zeroed _⟩]

/-- That daemon greets, and these are the events of its messages. -/
theorem publishes_failedUpdate : Greets .x86_64 ((publishing failedUpdate : Peer Unit).wrote []) ∧
    eventsFrom .x86_64 (documented 2024 5).release.layout
      (((publishing failedUpdate : Peer Unit).wrote []).drop 8) = [.idle, .failed ""] := by
  have alike : LaidOutAlike .x86_64 (documented 2024 5).release.layout := rfl
  have published : Publishes failedUpdate ((publishing failedUpdate : Peer Unit).wrote []) :=
    publishes_publishing failedUpdate
  exact published.feed alike

/-- Nothing has happened, an acknowledgement waits at one path, and the daemon that
publishes a failure at every other one. -/
def failingWorld : World Unit :=
  { World.initial fun path =>
      if path = "ctrl" then [.accepted (.scripted (RawIpcMessage.new .x86_64 .ack).bytes)]
      else [.accepted (publishing failedUpdate)] with
    outputs := [.ok (utf8Bytes (documented 2024 5).output)] }

/-- The failure is the last event that a client receives from that daemon. -/
theorem watch_failedUpdate {w : World Unit} {client : ProgressClient} {fuel : Nat}
    (layout : client.layout = (documented 2024 5).release.layout)
    (conn : w.conns client.stream = (Conn.fresh (publishing failedUpdate)).pull 8) :
    ∃ w', run (World.serve ()) (watch .x86_64 (fuel + 3)) ⟨client, w⟩ = (.ok (), ⟨client, w'⟩) ∧
      received .x86_64 client.layout (w'.conns client.stream) = [.idle, .failed ""] := by
  have left : eventsFrom .x86_64 client.layout (w.conns client.stream).available =
      [.idle, .failed ""] := by
    rw [conn, available_pull_fresh, layout]
    exact publishes_failedUpdate.2
  obtain ⟨reads, w', ran, more, events⟩ := @run_follow .x86_64 Unit () (fuel + 3) client w (by
    rw [left]
    exact Nat.lt_add_left fuel (Nat.lt_succ_self 2))
  rw [left] at ran events
  refine ⟨w', ran, ?_⟩
  rw [conn] at more
  rw [received, more]
  exact events

/-- The same, with some files and readers. -/
def stocked (files : String → Except IoError (List ReadResult)) (readers : Nat → List ReadResult) :
    World Unit :=
  { failingWorld with files := files, readers := readers }

section Installing

variable {files : String → Except IoError (List ReadResult)} {readers : Nat → List ReadResult}
  {file : Option String} {fuel : Nat} {c : Config (ControlClient × ProgressClient) (World Unit)}

/-- An install request was acknowledged on the first connection, the progress socket was
not asked yet, and the sources of images are as they were. -/
structure Requested (files : String → Except IoError (List ReadResult))
    (readers : Nat → List ReadResult) (c : Config (ControlClient × ProgressClient) (World Unit)) :
    Prop where
  client : c.own.1 = ⟨0, ⟨"ctrl", "progress", 0⟩⟩
  opened : c.world.opened = 1
  writable : (c.world.conns 0).closed = false
  attempts : c.world.attempts "progress" = [.accepted (publishing failedUpdate)]
  outputs : c.world.outputs = [.ok (utf8Bytes (documented 2024 5).output)]
  contents : ∀ image : Image, image.contents c.world = image.contents (stocked files readers)

/-- What an installation does before it transfers the image. -/
theorem run_request (source : Source) (dryRun : Bool) (info : String) :
    ∃ c ready : Config (ControlClient × ProgressClient) (World Unit),
      c.world = stocked files readers ∧ Requested files readers ready ∧
        ∀ rest : CliM Unit, run (World.serve ()) (do
            (ControlClient.connect ⟨"ctrl", "progress", 0⟩).first
            let _ ← (ControlClient.install .x86_64 (installRequest source dryRun info)).first
            println "Install request accepted"
            rest) c = run (World.serve ()) rest ready := by
  let config : SocketConfig := ⟨"ctrl", "progress", 0⟩
  let reply : RawIpcMessage .x86_64 := .new .x86_64 .ack
  let req := installRequest source dryRun info
  let message := ((Request.install req).message .x86_64).bytes
  let own : ControlClient × ProgressClient := (⟨0, config⟩, ⟨0, config, .packed⟩)
  let w₀ := stocked files readers
  let w₁ := w₀.accept "ctrl" (.scripted reply.bytes)
  let w₂ := (w₁.send () 0 message).record 0 ⟨reply.bytes, true⟩
  let w₃ : World Unit := { w₂ with printed := w₂.printed ++ ["Install request accepted"] }
  have fresh : w₁.conns 0 = .fresh (.scripted reply.bytes) :=
    World.conns_accept_new w₀ "ctrl" (.scripted reply.bytes)
  have connect : run (World.serve ()) (ControlClient.connect config).first ⟨own, w₀⟩ =
      (.ok (), ⟨own, w₁⟩) := by
    rw [run_first, ControlClient.connect, run_bind, SocketConfig.connectCtrl,
      SocketConfig.run_connectSocket]
    rfl
  have install : run (World.serve ()) (ControlClient.install .x86_64 req).first ⟨own, w₁⟩ =
      (.ok {}, ⟨own, w₂⟩) := by
    have answered : reply.bytes <+: ((w₁.send () 0 message).conns 0).available := by
      rw [World.send, World.conns_onConn_same, fresh]
      exact List.prefix_refl _
    have ran := @ControlClient.run_install .x86_64 Unit () req ⟨0, config⟩ w₁ reply
      (RawIpcMessage.msgType_new .ack) (by rw [fresh]; rfl) answered
    rw [run_first, ran]
  refine ⟨⟨own, w₀⟩, ⟨own, w₃⟩, rfl, ⟨rfl, rfl, ?_, rfl, rfl, ?_⟩, ?_⟩
  · show (((w₁.send () 0 message).record 0 _).conns 0).closed = false
    rw [World.record, World.conns_onConn_same, World.send, World.conns_onConn_same, fresh]
    rfl
  · intro image
    cases image <;> rfl
  · intro rest
    exact (run_bind_ok connect).trans (run_bind_ok install)

/-- The progress client of an installation connects to the daemon. -/
theorem Requested.run_progress (ready : Requested files readers c) :
    ∃ c', run (World.serve ()) (Installation.progress .x86_64) c = (.ok (), c') ∧
      Subscribed c c' ∧ c'.own.2.stream = 1 ∧
        c'.own.2.layout = (documented 2024 5).release.layout ∧
          c'.world.conns 1 = (Conn.fresh (publishing failedUpdate)).pull 8 := by
  obtain ⟨w, ran, conn⟩ := @run_connect_greeted .x86_64 Unit () c.own.1.config ⟨c.own.2, c.world⟩ _
    [] (by rw [ready.client]; exact ready.attempts) publishes_failedUpdate.1
  have connected : run (World.serve ()) (ProgressClient.connect .x86_64 c.own.1.config).second c =
      (.ok (), ⟨(c.own.1, ⟨c.world.opened, c.own.1.config, layoutOfOutput c.world.output.1⟩),
        w⟩) := by
    rw [run_second, ran]
  have exec := World.exec_serve () (ProgressClient.connect .x86_64 c.own.1.config).second c
  rw [connected] at exec
  refine ⟨_, connected, subscribed exec, ready.opened, ?_, ?_⟩
  · show layoutOfOutput c.world.output.1 = _
    rw [World.output, ready.outputs]
    exact (documented 2024 5).layoutOfOutput_output
  · change w.conns c.world.opened = _ at conn
    rwa [ready.opened] at conn

/-- An image that is read without error is streamed. -/
theorem Requested.streams (ready : Requested files readers c)
    {c' : Config ControlClient (World Unit)} (client : c'.own = c.own.1)
    (conn : c'.world.conns 0 = c.world.conns 0)
    (contents : ∀ image : Image, image.contents c'.world = image.contents c.world)
    (clean : endsCleanly ((imageOf file).contents (stocked files readers)) = true)
    (enough : (delivered ((imageOf file).contents (stocked files readers))).length < fuel) :
    ∃ w, run (World.serve ()) (streamImage file fuel) c' = (.ok (), ⟨c'.own, w⟩) ∧
      ∀ fd ≠ 0, w.conns fd = c'.world.conns fd := by
  have same := (contents (imageOf file)).trans (ready.contents (imageOf file))
  have stream : c'.own.stream = 0 := by rw [client, ready.client]
  obtain ⟨w, streamed, conns⟩ := @run_streamImage Unit () file fuel c'
    (by rw [stream, conn]; exact ready.writable) (by rw [same]; exact clean)
    (by rw [same]; exact enough)
  refine ⟨w, streamed, ?_⟩
  intro fd other
  rw [conns, stream, World.send, World.conns_onConn_other _ _ other]

/-- The transfer of an installation without progress. -/
theorem Requested.run_plain (ready : Requested files readers c)
    (clean : endsCleanly ((imageOf file).contents (stocked files readers)) = true)
    (enough : (delivered ((imageOf file).contents (stocked files readers))).length < fuel) :
    ∃ c', run (World.serve ()) (streamImage file fuel).first c = (.ok (), c') := by
  have client : (⟨c.own.1, c.world⟩ : Config ControlClient (World Unit)).own = c.own.1 := rfl
  obtain ⟨w, streamed, _⟩ := ready.streams client rfl (fun _ => rfl) clean enough
  refine ⟨⟨c.own, w⟩, ?_⟩
  rw [run_first, streamed]

/-- The transfer of an installation with progress succeeds on some schedule, after the
failure was received. -/
theorem Requested.run_monitored (ready : Requested files readers c)
    (clean : endsCleanly ((imageOf file).contents (stocked files readers)) = true)
    (enough : (delivered ((imageOf file).contents (stocked files readers))).length < fuel + 3) :
    ∃ (schedule : List Turn) (c' : Config (ControlClient × ProgressClient) (World Unit)),
      run (World.serve ()) (do
        Installation.progress .x86_64
        let _ ← Async.tryJoin schedule (streamImage file (fuel + 3)) (watch .x86_64 (fuel + 3))
        pure ()) c = (.ok (), c') ∧
      received .x86_64 c'.own.2.layout (c'.world.conns c'.own.2.stream) =
        [.idle, .failed ""] := by
  obtain ⟨c₁, subscribes, fresh, stream, layout, conn⟩ := ready.run_progress
  have ctrl : c₁.world.conns 0 = c.world.conns 0 := fresh.others 0 (by rw [ready.opened]; omega)
  have client : (⟨c₁.own.1, c₁.world⟩ : Config ControlClient (World Unit)).own = c.own.1 :=
    fresh.client
  obtain ⟨w, streamed, others⟩ := ready.streams client ctrl fresh.contents clean enough
  have waiting : w.conns c₁.own.2.stream = (Conn.fresh (publishing failedUpdate)).pull 8 := by
    rw [stream, others 1 Nat.one_ne_zero, conn]
  obtain ⟨w', watched, events⟩ := @watch_failedUpdate w c₁.own.2 fuel layout waiting
  obtain ⟨schedule, joined⟩ := run_tryJoin streamed watched
  exact ⟨schedule, _, (run_bind_ok subscribes).trans (run_bind_ok joined), events⟩

/-- An installation of an image that is read without error succeeds on some schedule, with
progress and without. With progress, it has received the failure. -/
theorem run_installation (file : Option String) (progress : Bool) (source : Source)
    (dryRun : Bool) (info : String)
    (clean : endsCleanly ((imageOf file).contents (stocked files readers)) = true) :
    ∃ (schedule : List Turn) (fuel : Nat)
        (c c' : Config (ControlClient × ProgressClient) (World Unit)),
      c.world = stocked files readers ∧
      run (World.serve ()) (Cli.run .x86_64 ⟨"ctrl", "progress", 0⟩ schedule fuel
        ⟨none, none, .install file progress source dryRun info⟩) c = (.ok (), c') ∧
      (progress = true → received .x86_64 c'.own.2.layout (c'.world.conns c'.own.2.stream) =
        [.idle, .failed ""]) := by
  obtain ⟨c, before, world, ready, ran⟩ := @run_request files readers source dryRun info
  cases progress with
  | false =>
      obtain ⟨c', plain⟩ := ready.run_plain clean (Nat.lt_succ_self _)
      exact ⟨[], _, c, c', world, (ran _).trans plain, nofun⟩
  | true =>
      obtain ⟨schedule, c', monitored, events⟩ :=
        ready.run_monitored clean (Nat.lt_add_of_pos_right (Nat.succ_pos 2))
      exact ⟨schedule, _, c, c', world, (ran _).trans monitored, fun _ => events⟩

end Installing

/-! ## The exit status -/

section Statuses

variable {T : Target} {τ : Type} {mark : τ}
  {c c' : Config (ControlClient × ProgressClient) (World τ)}

/-- **A command that watches succeeds only after a terminal event**, and an
installation succeeds only when its image was read and sent without error. The loop
does not tell a failure from a success: whatever terminal event it receives, it
returns, and without one it does not. -/
theorem Cli.succeeds_after_terminal {defaults : SocketConfig} {schedule : List Turn} {fuel : Nat}
    {cli : Cli} {o : Outcome Error Unit} (success : exitStatus o = some 0)
    (exec : Exec (World.device mark) (cli.run T defaults schedule fuel) c o c') :
    (cli.command.watches = true →
      EndsWithTerminal (received T c'.own.2.layout (c'.world.conns c'.own.2.stream))) ∧
    (∀ file progress source dryRun info,
      cli.command = .install file progress source dryRun info →
        Transferred T mark (installRequest source dryRun info) file c.world c'.world
          c'.own.1.stream) ∧
    ∀ (fuel : Nat) (p p' : Config ProgressClient (World τ)) (r : Outcome Error Unit),
      Exec (World.device mark) (watch T fuel) p r p' → Watched T p r p' := by
  obtain rfl : o = .ok () := by
    cases o with
    | ok u => rfl
    | err e => cases success
    | dropped => cases success
  refine ⟨?_, ?_, fun _ _ _ _ => exec_watch⟩
  · intro watches
    cases command : cli.command with
    | install file progress source dryRun info =>
        rw [command] at watches
        exact (exec_install_command command exec).2 watches
    | progress =>
        rw [Cli.run, command] at exec
        obtain ⟨_, c₁, connect, rest⟩ := exec_bind_ok exec
        obtain ⟨_, c₂, printed, rest⟩ := exec_bind_ok rest
        have fresh := subscribed connect
        obtain ⟨own, world⟩ := exec_println_ok printed
        have one : ∃ ack, (c₂.world.conns c₂.own.2.stream).reads = [ack] := by
          rw [own, world, fresh.stream]
          exact fresh.fresh
        exact (watched one (exec_second rest).1).1
    | _ =>
        rw [command] at watches
        cases watches
  · intro file progress source dryRun info command
    exact (exec_install_command command exec).1

end Statuses

/-- An installation with progress of three bytes. It succeeds after the failure of the
update. -/
theorem succeeds_after_terminal_installation :
    ∃ (cli : Cli) (c c' : Config (ControlClient × ProgressClient) (World Unit)),
      cli.command = .install none true .local false "" ∧
      delivered ((imageOf none).contents c.world) = [1, 2, 3] ∧
      received .x86_64 c'.own.2.layout (c'.world.conns c'.own.2.stream) = [.idle, .failed ""] ∧
      (cli.command.watches = true → EndsWithTerminal
        (received .x86_64 c'.own.2.layout (c'.world.conns c'.own.2.stream))) ∧
      (∀ file progress source dryRun info,
        cli.command = .install file progress source dryRun info →
          Transferred .x86_64 () (installRequest source dryRun info) file c.world c'.world
            c'.own.1.stream) ∧
      ∀ (fuel : Nat) (p p' : Config ProgressClient (World Unit)) (r : Outcome Error Unit),
        Exec (World.device ()) (watch .x86_64 fuel) p r p' → Watched .x86_64 p r p' := by
  obtain ⟨schedule, fuel, c, c', world, ran, events⟩ :=
    @run_installation (fun _ => .ok []) (fun _ => [.data [1, 2], .data [3]]) none true .local false
      "" rfl
  have exec := World.exec_serve () (Cli.run .x86_64 ⟨"ctrl", "progress", 0⟩ schedule fuel
    ⟨none, none, .install none true .local false ""⟩) c
  rw [ran] at exec
  refine ⟨_, c, c', rfl, ?_, events rfl, Cli.succeeds_after_terminal rfl exec⟩
  rw [world]
  rfl

/-- A command that only watches succeeds after a failure. -/
theorem progress_succeeds_after_failure :
    ¬ ∀ (T : Target) (defaults : SocketConfig) (schedule : List Turn) (fuel : Nat) (cli : Cli)
        (c c' : Config (ControlClient × ProgressClient) (World Unit)) (o : Outcome Error Unit),
        cli.command = .progress →
          Exec (World.device ()) (cli.run T defaults schedule fuel) c o c' →
            exitStatus o = some 0 →
              (received T c'.own.2.layout (c'.world.conns c'.own.2.stream)).find?
                ProgressEvent.isTerminal = some .success := by
  intro claim
  let config : SocketConfig := ⟨"ctrl", "progress", 0⟩
  let cli : Cli := ⟨none, none, .progress⟩
  let c : Config (ControlClient × ProgressClient) (World Unit) :=
    ⟨(⟨0, config⟩, ⟨0, config, .packed⟩), failingWorld⟩
  obtain ⟨w, ran, conn⟩ := @run_connect_greeted .x86_64 Unit () config ⟨c.own.2, c.world⟩ _ [] rfl
    publishes_failedUpdate.1
  let layout := layoutOfOutput c.world.output.1
  have connected : run (World.serve ()) (ProgressClient.connect .x86_64 config).second c =
      (.ok (), ⟨(⟨0, config⟩, ⟨0, config, layout⟩), w⟩) := by
    rw [run_second, ran]
    rfl
  let printed : World Unit := { w with
    printed := w.printed ++ ["Connected to progress socket, waiting for events..."] }
  obtain ⟨w', watched, events⟩ := @watch_failedUpdate printed ⟨0, config, layout⟩ 0
    (documented 2024 5).layoutOfOutput_output conn
  have ends : run (World.serve ()) (cli.run .x86_64 config [] 3) c =
      (.ok (), ⟨(⟨0, config⟩, ⟨0, config, layout⟩), w'⟩) := by
    refine (run_bind_ok connected).trans ?_
    show run _ (watch .x86_64 3).second ⟨_, printed⟩ = _
    rw [run_second, watched]
  have exec := World.exec_serve () (cli.run .x86_64 config [] 3) c
  rw [ends] at exec
  have succeeded := claim _ _ _ _ _ _ _ _ rfl exec rfl
  rw [events] at succeeded
  cases succeeded

end SwupdateIpc
