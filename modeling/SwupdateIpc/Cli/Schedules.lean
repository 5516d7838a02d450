import SwupdateIpc.Cli.FollowedEvents

/-!
# Schedules

On sockets without failures of their own, a command ends when its loops have enough rounds:
one more than the image has bytes, and one more than a peer at the progress socket has
written events (`Cli.Rounds`). There always are enough (`Cli.exists_rounds`). The two tasks
of an installation with progress end on every schedule on which both have enough turns
(`terminates_fair`).

It ends in the same way however its two tasks take turns. If it succeeds on some schedule,
then it succeeds on all these, and leaves the same. Only the error depends on the schedule,
when both tasks fail (`schedules_agree`).
-/

set_option autoImplicit false

namespace SwupdateIpc

open Foundations Wire

/-! ## Programs that end -/

section Ending

variable {T : Target} {τ : Type} {mark : τ}

theorem terminates_await {σ : Type} {call : SysCall} (other : ∀ path, call ≠ .connect path)
    (c : Config σ (World τ)) :
    Terminates (World.serve mark) (await call : IpcM σ call.Answer) c :=
  .call (World.serve_ne_none other _) fun r _ _ => .ret r

theorem terminates_println {σ : Type} (line : String) (c : Config σ (World τ)) :
    Terminates (World.serve mark) (println line) c :=
  terminates_await (by rintro _ ⟨⟩) c

theorem terminates_orConnection {σ α : Type} (result : Except IoError α)
    (c : Config σ (World τ)) :
    Terminates (World.serve mark) (orConnection result : IpcM σ α) c := by
  cases result with
  | ok a => exact .ret a
  | error e => exact .fail _

theorem terminates_orError {σ α : Type} (result : Except Error α) (c : Config σ (World τ)) :
    Terminates (World.serve mark) (orError result : IpcM σ α) c := by
  cases result with
  | ok a => exact .ret a
  | error e => exact .fail _

theorem terminates_connectSocket {σ : Type} (config : SocketConfig) (path : String)
    (c : Config σ (World τ)) :
    Terminates (World.serve mark) (config.connectSocket path) c := by
  have ran := @SocketConfig.run_connectSocket σ τ mark config path c
  split at ran
  · exact .of_ok ran
  all_goals exact .of_err ran

theorem terminates_connect (config : SocketConfig) (c : Config ControlClient (World τ)) :
    Terminates (World.serve mark) (ControlClient.connect config) c :=
  .bind (terminates_connectSocket config config.ctrlPath c) fun _ _ _ => .set _

/-- A request ends, whatever the peer has written. -/
theorem terminates_perform (r : Request) (c : Config ControlClient (World τ)) :
    Terminates (World.serve mark) (r.perform T) c := by
  rw [Request.perform_eq]
  refine Terminates.bind ?_ fun resp c _ => terminates_orError _ c
  refine Terminates.bind .get fun self c _ => ?_
  refine Terminates.bind (terminates_await (by rintro _ ⟨⟩) c) fun written c _ => ?_
  refine Terminates.bind (terminates_orConnection written c) fun _ c _ => ?_
  refine Terminates.bind (terminates_await (by rintro _ ⟨⟩) c) fun answer c _ => ?_
  refine Terminates.bind (terminates_orConnection answer c) fun bytes c _ => ?_
  split
  · exact .ret _
  · exact .fail _

theorem terminates_handshake (c : Config ProgressClient (World τ)) :
    Terminates (World.serve mark) (ProgressClient.handshake T) c := by
  rw [ProgressClient.handshake_eq]
  refine Terminates.bind ?_ fun ack c _ => ?_
  · have ran := @ProgressClient.run_readAck τ mark c (Duration.fromSecs 5)
    split at ran
    · exact .of_ok ran
    · exact .of_err ran
  · split
    · exact .fail _
    · split
      · exact .ret _
      · exact .fail _

/-- A subscription ends, whatever the peer has written. -/
theorem terminates_subscribe (config : SocketConfig) (c : Config ProgressClient (World τ)) :
    Terminates (World.serve mark) (ProgressClient.connect T config) c := by
  refine Terminates.bind ?_ fun layout c _ => ?_
  · exact .call (World.serve_ne_none (by rintro _ ⟨⟩) _) fun r _ _ => .ret _
  · exact .bind (terminates_connectSocket config config.progressPath c) fun _ c _ =>
      terminates_handshake _

theorem terminates_printAll {σ : Type} (lines : List String) (c : Config σ (World τ)) :
    Terminates (World.serve mark) (printAll lines : IpcM σ Unit) c := by
  induction lines generalizing c with
  | nil => exact .ret ()
  | cons line rest ih => exact .bind (terminates_println line c) fun _ c' _ => ih c'

theorem terminates_streamImage {file : Option String} {fuel : Nat}
    {c : Config ControlClient (World τ)} (writable : (c.world.conns c.own.stream).closed = false)
    (enough : (delivered ((imageOf file).contents c.world)).length < fuel) :
    Terminates (World.serve mark) (streamImage file fuel) c := by
  rw [streamImage_eq]
  refine Terminates.bind ?_ fun bytes c _ => terminates_println _ c
  cases clean : endsCleanly ((imageOf file).contents c.world) with
  | true =>
      obtain ⟨n, returned⟩ := Image.run_stream writable clean enough
      exact .of_ok (Prod.ext returned rfl)
  | false =>
      obtain ⟨o, w', ran, _, failed⟩ := @Image.run_delivered τ mark _ fuel c writable enough
      obtain ⟨e, rfl⟩ := failed clean
      exact .of_err ran

theorem terminates_watch {fuel : Nat} {client : ProgressClient} {w : World τ}
    (enough : (eventsFrom T client.layout (w.conns client.stream).available).length < fuel) :
    Terminates (World.serve mark) (watch T fuel) ⟨client, w⟩ := by
  obtain ⟨_, _, ran, _⟩ := @run_follow T τ mark fuel client w enough
  rw [followed] at ran
  split at ran
  · exact .of_ok ran
  · exact .of_err ran

end Ending

variable {T : Target} {τ : Type} {mark : τ} {defaults : SocketConfig} {fuel : Nat} {cli : Cli}
  {c : Config (ControlClient × ProgressClient) (World τ)}

/-! ## Before the tasks -/

/-- What an installation with progress does before its tasks. -/
def prepare (T : Target) (config : SocketConfig) (req : InstallRequest) : CliM Unit := do
  (ControlClient.connect config).first
  let _ ← (ControlClient.install T req).first
  println "Install request accepted"
  Installation.progress T

/-- After an install request was accepted, the client holds the connection on which it was
made, and it is open. The images and the version outputs are as before, and the attempts
that are left are some of those before. -/
structure Admitted (config : SocketConfig) (w : World τ)
    (c : Config (ControlClient × ProgressClient) (World τ)) : Prop where
  held : c.own.1 = ⟨w.opened, config⟩
  older : w.opened < c.world.opened
  writable : (c.world.conns w.opened).closed = false
  contents : ∀ image : Image, image.contents c.world = image.contents w
  outputs : c.world.outputs = w.outputs
  attempts : ∀ path, c.world.attempts path <:+ w.attempts path

/-- A connect, an install request that is accepted, and a line. -/
theorem admitted {config : SocketConfig} {req : InstallRequest} {handle : Installation}
    {line : String} {c₁ c₂ c₃ : Config (ControlClient × ProgressClient) (World τ)}
    (connect : run (World.serve mark) (ControlClient.connect config).first c = (.ok (), c₁))
    (install : run (World.serve mark) (ControlClient.install T req).first c₁ = (.ok handle, c₂))
    (printed : run (World.serve mark) (println line) c₂ = (.ok (), c₃)) :
    Admitted config c.world c₃ := by
  have first := World.exec_serve mark (ControlClient.connect config).first c
  have second := World.exec_serve mark (ControlClient.install T req).first c₁
  have third := World.exec_serve mark (println line) c₂
  rw [connect] at first
  rw [install] at second
  rw [printed] at third
  have ready := installed first second third
  obtain ⟨peer, opened⟩ := ControlClient.exec_connect_ok (exec_first first).1
  obtain ⟨resp, exchanged⟩ := ControlClient.exec_install_ok (exec_first second).1
  have own : c₁.own.1 = ⟨c.world.opened, config⟩ := congrArg Config.own opened
  have accepted : c₁.world = c.world.accept config.ctrlPath peer := congrArg Config.world opened
  have kept : c₂.own.1 = c₁.own.1 := congrArg Config.own exchanged
  have world := congrArg Config.world exchanged
  change c₂.world = _ at world
  rw [own, accepted] at world
  cases printed
  refine ⟨kept.trans own, ready.older, ?_, ready.contents, ?_, ?_⟩
  · show (c₂.world.conns c.world.opened).closed = false
    rw [world, World.record, World.conns_onConn_same, Conn.closed_record, World.send,
      World.conns_onConn_same, Conn.closed_send, World.conns_accept_new]
    rfl
  · show c₂.world.outputs = c.world.outputs
    rw [world]
    rfl
  · intro path
    show c₂.world.attempts path <:+ c.world.attempts path
    rw [world]
    exact c.world.attempts_attempted config.ctrlPath path

/-- **Before the tasks.** The clients hold different connections, the control connection is
open, and the images are as before. The events to come are those that a peer offers which
waited at the progress socket. -/
theorem run_prepared {config : SocketConfig} {req : InstallRequest}
    {c' : Config (ControlClient × ProgressClient) (World τ)}
    (ran : run (World.serve mark) (prepare T config req) c = (.ok (), c')) :
    c'.own.1.stream ≠ c'.own.2.stream ∧ (c'.world.conns c'.own.1.stream).closed = false ∧
      (∀ image : Image, image.contents c'.world = image.contents c.world) ∧
      ∃ peer, .accepted peer ∈ c.world.attempts config.progressPath ∧
        eventsFrom T c'.own.2.layout (c'.world.conns c'.own.2.stream).available =
          eventsOffered T c.world peer := by
  obtain ⟨_, c₁, connect, rest⟩ := run_bind_returned ran
  obtain ⟨handle, c₂, install, rest⟩ := run_bind_returned rest
  obtain ⟨_, c₃, printed, subscribe⟩ := run_bind_returned rest
  have ready := admitted connect install printed
  have older : c₃.own.1.stream < c₃.world.opened := by
    rw [ready.held]
    exact ready.older
  have connects : run (World.serve mark) (ProgressClient.connect T c₃.own.1.config).second c₃ =
      (.ok (), c') := subscribe
  obtain ⟨peer, rest, next, greets⟩ := run_subscribed connects
  obtain ⟨c₄, again, distinct, same, contents, offered⟩ :=
    @run_progress_greeted T τ mark c₃ older peer rest next greets
  cases subscribe.symm.trans again
  refine ⟨distinct, ?_, fun image => (contents image).trans (ready.contents image), peer, ?_, ?_⟩
  · rw [same, ready.held]
    exact ready.writable
  · rw [ready.held] at next
    exact (ready.attempts _).subset (next ▸ List.mem_cons_self)
  · rw [offered, eventsOffered_congr ready.outputs]

theorem terminates_install (req : InstallRequest) (c : Config ControlClient (World τ)) :
    Terminates (World.serve mark) (ControlClient.install T req) c :=
  Terminates.of_bind (terminates_perform (.install req) c)

theorem terminates_prepare (T : Target) (mark : τ) (config : SocketConfig) (req : InstallRequest)
    (c : Config (ControlClient × ProgressClient) (World τ)) :
    Terminates (World.serve mark) (prepare T config req) c := by
  refine Terminates.bind (terminates_connect config _).first fun _ c _ => ?_
  refine Terminates.bind (terminates_install req _).first fun _ c _ => ?_
  refine Terminates.bind (terminates_println _ c) fun _ c _ => ?_
  exact (terminates_subscribe c.own.1.config ⟨c.own.2, c.world⟩).second

/-- A command takes no turns, unless it is an installation with progress. -/
theorem unscheduled_or (T : Target) (defaults : SocketConfig) (fuel : Nat) (cli : Cli) :
    (∀ schedule schedule', cli.run T defaults schedule fuel = cli.run T defaults schedule' fuel) ∨
      ∃ file source dryRun info, cli.command = .install file true source dryRun info := by
  simp only [Cli.run]
  cases cli.command with
  | install file progress source dryRun info =>
      cases progress with
      | false => exact .inl fun _ _ => rfl
      | true => exact .inr ⟨file, source, dryRun, info, rfl⟩
  | _ => exact .inl fun _ _ => rfl

theorem run_prepare {file : Option String} {source : Source} {dryRun : Bool} {info : String}
    (command : cli.command = .install file true source dryRun info) (schedule : List Turn) :
    cli.run T defaults schedule fuel =
      prepare T (buildConfig defaults cli) (installRequest source dryRun info) >>= fun _ =>
        Async.tryJoin schedule (streamImage file fuel) (watch T fuel) >>= fun _ => pure () := by
  rw [Cli.run, command]
  simp only [prepare, bind_assoc]
  rfl

/-- A run of a command on a fair schedule agrees with every other run of it. -/
theorem agrees_fair (T : Target) (mark : τ) (defaults : SocketConfig) (fuel : Nat) (cli : Cli)
    (c : Config (ControlClient × ProgressClient) (World τ)) :
    ∃ n m, ∀ schedule, Fair n m schedule → ∀ schedule',
      Agrees (run (World.serve mark) (cli.run T defaults schedule fuel) c)
        (run (World.serve mark) (cli.run T defaults schedule' fuel) c) := by
  rcases unscheduled_or T defaults fuel cli with same | ⟨file, source, dryRun, info, command⟩
  · refine ⟨0, 0, fun schedule _ schedule' => ?_⟩
    rw [same schedule schedule']
    exact .refl _
  let before : CliM Unit :=
    prepare T (buildConfig defaults cli) (installRequest source dryRun info)
  rcases ran : run (World.serve mark) before c with ⟨o, c₁⟩
  cases o with
  | ok u =>
      obtain ⟨distinct, _⟩ := run_prepared ran
      refine ⟨steps (World.serve mark) (streamImage file fuel) ⟨c₁.own.1, c₁.world⟩,
        steps (World.serve mark) (watch T fuel) ⟨c₁.own.2, c₁.world⟩, ?_⟩
      intro schedule fair schedule'
      rw [run_prepare command, run_prepare command, run_bind_ok ran, run_bind_ok ran]
      refine Agrees.bind ?_ _
      exact run_tryJoin_fair (World.joinable_reads mark c₁.own.2.stream)
        (calls_streamImage distinct file fuel) (calls_watch c₁.own.2 fuel) fair schedule'
  | err e =>
      refine ⟨0, 0, fun schedule _ schedule' => ?_⟩
      rw [run_prepare command, run_prepare command, run_bind_err ran, run_bind_err ran]
      exact .refl _
  | dropped =>
      refine ⟨0, 0, fun schedule _ schedule' => ?_⟩
      rw [run_prepare command, run_prepare command, run_bind, run_bind, ran]
      exact .refl _

/-! ## Commands that end -/

/-- The loops of a command have enough rounds for its image and for the events that the
peers at the progress socket offer. -/
structure Cli.Rounds (T : Target) (defaults : SocketConfig) (fuel : Nat) (cli : Cli)
    (w : World τ) : Prop where
  image : ∀ image, cli.command.image = some image → (delivered (image.contents w)).length < fuel
  events : cli.command.watches = true →
    ∀ peer, .accepted peer ∈ w.attempts (buildConfig defaults cli).progressPath →
      (eventsOffered T w peer).length < fuel

/-- For the peers among some attempts there are enough rounds. -/
theorem exists_rounds_peers (count : Peer τ → Nat) (attempts : List (Attempt τ)) :
    ∃ least, ∀ peer, .accepted peer ∈ attempts → count peer < least := by
  induction attempts with
  | nil => exact ⟨0, nofun⟩
  | cons attempt rest ih =>
      obtain ⟨least, enough⟩ := ih
      cases attempt with
      | accepted first =>
          refine ⟨least + count first + 1, fun peer member => ?_⟩
          rcases List.mem_cons.mp member with same | later
          · cases same
            omega
          · have := enough peer later
            omega
      | _ =>
          refine ⟨least, fun peer member => enough peer ?_⟩
          exact (List.mem_cons.mp member).resolve_left nofun

/-- **For every command there are enough rounds.** -/
theorem Cli.exists_rounds (T : Target) (defaults : SocketConfig) (cli : Cli) (w : World τ) :
    ∃ least, ∀ fuel, least ≤ fuel → cli.Rounds T defaults fuel w := by
  obtain ⟨least, enough⟩ := exists_rounds_peers (fun peer => (eventsOffered T w peer).length)
    (w.attempts (buildConfig defaults cli).progressPath)
  refine ⟨least + (delivered (cli.command.contents w)).length + 1, fun fuel more => ⟨?_, ?_⟩⟩
  · intro image streams
    have contents : cli.command.contents w = image.contents w := by
      rw [Command.contents, streams]
    rw [← contents]
    omega
  · intro _ peer waits
    have := enough peer waits
    omega

section Commands

variable {file : Option String} {source : Source} {dryRun : Bool} {info : String}

/-- An installation without progress ends. -/
theorem terminates_plain (command : cli.command = .install file false source dryRun info)
    (enough : (delivered ((imageOf file).contents c.world)).length < fuel)
    (schedule : List Turn) :
    Terminates (World.serve mark) (cli.run T defaults schedule fuel) c := by
  rw [Cli.run, command]
  refine Terminates.bind (terminates_connect _ _).first fun _ c₁ connect => ?_
  refine Terminates.bind (terminates_install _ _).first fun handle c₂ install => ?_
  refine Terminates.bind (terminates_println _ c₂) fun _ c₃ printed => ?_
  have ready := admitted connect install printed
  refine Terminates.first (terminates_streamImage ?_ ?_)
  · rw [ready.held]
    exact ready.writable
  · show (delivered ((imageOf file).contents c₃.world)).length < fuel
    rw [ready.contents]
    exact enough

/-- An installation with progress ends on every schedule on which both of its tasks have
enough turns. -/
theorem terminates_monitored (command : cli.command = .install file true source dryRun info)
    (rounds : cli.Rounds T defaults fuel c.world) :
    ∃ n m, ∀ schedule, Fair n m schedule →
      Terminates (World.serve mark) (cli.run T defaults schedule fuel) c := by
  let before : CliM Unit :=
    prepare T (buildConfig defaults cli) (installRequest source dryRun info)
  have ends : Terminates (World.serve mark) before c := terminates_prepare T mark _ _ c
  rcases ran : run (World.serve mark) before c with ⟨u | e | _, c₁⟩
  · obtain ⟨distinct, writable, contents, peer, waits, offered⟩ := run_prepared ran
    have streams : cli.command.image = some (imageOf file) := by rw [command]; rfl
    have watches : cli.command.watches = true := by rw [command]; rfl
    have enough := rounds.image _ streams
    have enough' := rounds.events watches peer waits
    rw [← contents] at enough
    rw [← offered] at enough'
    refine ⟨steps (World.serve mark) (streamImage file fuel) ⟨c₁.own.1, c₁.world⟩,
      steps (World.serve mark) (watch T fuel) ⟨c₁.own.2, c₁.world⟩, ?_⟩
    intro schedule fair
    rw [run_prepare command, Terminates, run_bind_ok ran]
    refine Terminates.bind ?_ fun _ _ _ => .ret ()
    exact Terminates.tryJoin (World.joinable_reads mark c₁.own.2.stream)
      (calls_streamImage distinct file fuel) (calls_watch c₁.own.2 fuel)
      (terminates_streamImage writable enough) (terminates_watch enough') fair
  · refine ⟨0, 0, fun schedule _ => ?_⟩
    rw [run_prepare command]
    exact .of_err (run_bind_err ran)
  · exact absurd (congrArg Prod.fst ran) ends

/-- The progress command ends. -/
theorem terminates_progress (command : cli.command = .progress)
    (rounds : cli.Rounds T defaults fuel c.world) (schedule : List Turn) :
    Terminates (World.serve mark) (cli.run T defaults schedule fuel) c := by
  have watches : cli.command.watches = true := by rw [command]; rfl
  rw [Cli.run, command]
  refine Terminates.bind (terminates_subscribe _ _).second fun _ c₁ subscribed => ?_
  refine Terminates.bind (terminates_println _ c₁) fun _ c₂ printed => ?_
  cases printed
  obtain ⟨peer, rest, next, greets⟩ := run_subscribed subscribed
  obtain ⟨w', ran, conn, _⟩ :=
    @run_subscribe T τ mark _ ⟨c.own.2, c.world⟩ peer rest next greets
  rw [run_second, ran] at subscribed
  cases subscribed
  refine Terminates.second (terminates_watch ?_)
  show (eventsFrom T _ (w'.conns c.world.opened).available).length < fuel
  rw [conn, Conn.available_pull]
  exact rounds.events watches peer (next ▸ List.mem_cons_self)

end Commands

/-- **A command ends** on every schedule on which its tasks have enough turns. -/
theorem terminates_fair (rounds : cli.Rounds T defaults fuel c.world) :
    ∃ n m, ∀ schedule, Fair n m schedule →
      Terminates (World.serve mark) (cli.run T defaults schedule fuel) c := by
  cases command : cli.command with
  | install file monitored source dryRun info =>
      cases monitored with
      | true => exact terminates_monitored command rounds
      | false =>
          have streams : cli.command.image = some (imageOf file) := by rw [command]; rfl
          exact ⟨0, 0, fun schedule _ =>
            terminates_plain command (rounds.image _ streams) schedule⟩
  | progress => exact ⟨0, 0, fun schedule _ => terminates_progress command rounds schedule⟩
  | _ =>
      refine ⟨0, 0, fun schedule _ => ?_⟩
      rw [Cli.run_asks (by rw [command]; rfl) (by rw [command]; rfl)]
      refine Terminates.bind (terminates_connect _ _).first fun _ c₁ _ => ?_
      refine Terminates.bind (terminates_perform _ _).first fun v c₂ _ => ?_
      exact terminates_printAll _ c₂

/-- A program that terminates has an exit status. -/
theorem exitStatus_terminates {m : CliM Unit} (ends : Terminates (World.serve mark) m c) :
    ∃ k, exitStatus (run (World.serve mark) m c).1 = some k := by
  rw [Terminates] at ends
  generalize (run (World.serve mark) m c).1 = o at ends ⊢
  cases o with
  | ok u => exact ⟨0, rfl⟩
  | err e => exact ⟨1, rfl⟩
  | dropped => exact absurd rfl ends

/-- **Schedules agree.** A command whose loops have enough rounds ends on every schedule on
which its tasks have enough turns. It ends with the same exit status there as on every other
schedule on which it ends, and if it succeeds, then it leaves the same on all of them. -/
theorem schedules_agree (T : Target) (mark : τ) (defaults : SocketConfig) (cli : Cli)
    (c : Config (ControlClient × ProgressClient) (World τ)) :
    ∃ least, ∀ fuel, ∃ n m, ∀ schedule, Fair n m schedule →
      (least ≤ fuel → ∃ k,
        exitStatus (run (World.serve mark) (cli.run T defaults schedule fuel) c).1 = some k) ∧
      ∀ schedule',
        (exitStatus (run (World.serve mark) (cli.run T defaults schedule' fuel) c).1 = none ∨
          exitStatus (run (World.serve mark) (cli.run T defaults schedule' fuel) c).1 =
            exitStatus (run (World.serve mark) (cli.run T defaults schedule fuel) c).1) ∧
        ∀ c', run (World.serve mark) (cli.run T defaults schedule' fuel) c = (.ok (), c') →
          run (World.serve mark) (cli.run T defaults schedule fuel) c = (.ok (), c') := by
  obtain ⟨least, rounds⟩ := cli.exists_rounds T defaults c.world
  refine ⟨least, fun fuel => ?_⟩
  obtain ⟨n, m, agrees⟩ := agrees_fair T mark defaults fuel cli c
  obtain ⟨n', m', ends⟩ : ∃ n' m', ∀ schedule, Fair n' m' schedule → least ≤ fuel →
      Terminates (World.serve mark) (cli.run T defaults schedule fuel) c := by
    by_cases enough : least ≤ fuel
    · obtain ⟨n', m', ends⟩ := @terminates_fair T τ mark defaults fuel cli c (rounds fuel enough)
      exact ⟨n', m', fun schedule fair _ => ends schedule fair⟩
    · exact ⟨0, 0, fun _ _ more => absurd more enough⟩
  refine ⟨n + n', m + m', fun schedule fair => ⟨fun enough => ?_, fun schedule' => ?_⟩⟩
  · exact exitStatus_terminates
      (ends schedule (fair.mono (Nat.le_add_left _ _) (Nat.le_add_left _ _)) enough)
  have fair' := fair.mono (Nat.le_add_right n n') (Nat.le_add_right m m')
  rcases agrees schedule fair' schedule' with never | same | ⟨⟨e, failed⟩, e', failed'⟩
  · refine ⟨.inl (congrArg exitStatus never), ?_⟩
    intro c' ran
    rw [ran] at never
    cases never
  · rw [same]
    exact ⟨.inr rfl, fun _ ran => ran⟩
  · refine ⟨.inr ?_, ?_⟩
    · rw [failed, failed']
      rfl
    · intro c' ran
      rw [ran] at failed'
      cases failed'

end SwupdateIpc
