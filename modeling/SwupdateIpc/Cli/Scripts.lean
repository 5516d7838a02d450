import Mathlib.Data.List.Infix
import SwupdateIpc.Cli.Executions
import SwupdateIpc.Control.Daemons

/-!
# Commands that are run one after another

A daemon keeps its state from one connection to the next. It serves the first message on
a connection, and it takes what follows as an image (`Daemon.host`). On a connection of a
command it writes what the daemon writes that tells an image from the requests around it
(`Daemon.host_serves`).

What a service makes of a command says how the command ends, what it prints, and in which
state it leaves the service (`Service.commanded`). On sockets without failures of their
own, every command that watches no events does just this (`run_commanded`), and so does
every script of such commands, each of which finds the daemon as the one before has left
it (`scripts_are_commanded`).
-/

set_option autoImplicit false

namespace SwupdateIpc

open Foundations Wire

variable {T : Target} {τ : Type} {mark : τ} {service : Service}

/-! ## A daemon that keeps its state -/

section Hosts

variable (d : Daemon T service) (state : service.State)

/-- What a daemon has written on a connection, when it was sent some bytes there. -/
def Daemon.writes (bytes : List UInt8) : List UInt8 :=
  if sizeOfMessage T ≤ bytes.length then
    (d.server.serve state (bytes.take (sizeOfMessage T))).2
  else []

/-- The state that these bytes lead to. -/
def Daemon.comesTo (bytes : List UInt8) : service.State :=
  if sizeOfMessage T ≤ bytes.length then
    (bytes.drop (sizeOfMessage T)).foldl service.image
      (d.server.serve state (bytes.take (sizeOfMessage T))).1
  else state

theorem Daemon.writes_grows (bytes more : List UInt8) :
    d.writes state bytes <+: d.writes state (bytes ++ more) := by
  by_cases whole : sizeOfMessage T ≤ bytes.length
  · have longer : sizeOfMessage T ≤ (bytes ++ more).length := by
      rw [List.length_append]
      omega
    rw [writes, if_pos whole, writes, if_pos longer, List.take_append_of_le_length whole]
  · rw [writes, if_neg whole]
    exact List.nil_prefix

/-- The daemon serves the message of a request and takes what follows. -/
theorem Daemon.serves_message (r : Request) (image : List UInt8) :
    d.writes state ((r.message T).bytes ++ image) = (d.reply state (r.received T)).bytes ∧
      d.comesTo state ((r.message T).bytes ++ image) =
        image.foldl service.image (service.answer state (r.received T)).1 := by
  have size : (r.message T).bytes.length = sizeOfMessage T := (r.message T).length_bytes
  have whole : sizeOfMessage T ≤ ((r.message T).bytes ++ image).length := by
    rw [List.length_append, size]
    omega
  rw [writes, comesTo, if_pos whole, if_pos whole, ← size, List.drop_left, List.take_left,
    d.serve_message]
  exact ⟨rfl, rfl⟩

/-- A daemon in some state as the peer of a connection. -/
def Daemon.host : Peer τ where
  wrote sent := d.writes state (sent.map Prod.snd)
  grows sent more := by
    rw [List.map_append]
    exact d.writes_grows state _ _

/-- The state in which a connection leaves the daemon. -/
def Daemon.leaves (sent : List (τ × UInt8)) : service.State := d.comesTo state (sent.map Prod.snd)

theorem map_snd_mark (mark : τ) (bytes : List UInt8) :
    (bytes.map (Prod.mk mark)).map Prod.snd = bytes := by
  rw [List.map_map]
  exact List.map_id _

variable {d} {state}

theorem Daemon.wrote_host (sent : List (τ × UInt8)) :
    (d.host state).wrote sent = d.writes state (sent.map Prod.snd) := by
  rw [Daemon.host]

theorem Daemon.host_message (r : Request) :
    (d.host state : Peer τ).wrote ((r.message T).bytes.map (Prod.mk mark)) =
      (d.reply state (r.received T)).bytes := by
  have served := (d.serves_message state r []).1
  rw [List.append_nil] at served
  rw [Daemon.wrote_host, map_snd_mark, served]

theorem Daemon.leaves_message (r : Request) (image : List UInt8) :
    d.leaves state (((r.message T).bytes ++ image).map (Prod.mk mark)) =
      image.foldl service.image (service.answer state (r.received T)).1 := by
  rw [Daemon.leaves, map_snd_mark, (d.serves_message state r image).2]

/-- **The host is the daemon that serves marked messages**, on a connection that carries a
request, or a part of it, and the image after a whole one. Both write the same, and they
come to the same state. -/
theorem Daemon.host_serves {request image : List UInt8}
    (one : request.length ≤ sizeOfMessage T)
    (whole : image ≠ [] → request.length = sizeOfMessage T) {sent : List (Origin × UInt8)}
    (carried : sent = request.map (Prod.mk .request) ++ image.map (Prod.mk .image)) :
    (d.host state).wrote sent = (d.server.peer state).wrote sent ∧
      d.leaves state sent = (d.server.after state sent).state := by
  have bytes : sent.map Prod.snd = request ++ image := by
    rw [carried, List.map_append, map_snd_mark, map_snd_mark]
  have written : (d.server.peer state).wrote sent = (d.server.after state sent).written := rfl
  rw [written, Daemon.wrote_host, Daemon.leaves, bytes, carried]
  by_cases full : request.length = sizeOfMessage T
  · have served := @FrameServer.after_frame _ _ d.server .request state [] _ rfl rfl
      (sizeOfMessage_pos T) full
    rw [List.nil_append] at served
    have longer : sizeOfMessage T ≤ (request ++ image).length := by
      rw [List.length_append]
      omega
    rw [FrameServer.after_append, served, FrameServer.foldl_other (f := d.server) rfl,
      Daemon.writes, if_pos longer, Daemon.comesTo, if_pos longer, ← full, List.take_left,
      List.drop_left]
    exact ⟨rfl, rfl⟩
  · obtain rfl : image = [] := by_contra fun some => full (whole some)
    have short : request.length < sizeOfMessage T := by omega
    have pending := @FrameServer.foldl_pending _ _ d.server .request ⟨state, [], []⟩ request rfl (by
      rw [List.length_nil, Nat.zero_add]
      exact short)
    rw [List.map_nil, List.append_nil, List.append_nil, FrameServer.after, pending,
      Daemon.writes, if_neg (by omega), Daemon.comesTo, if_neg (by omega)]
    exact ⟨rfl, rfl⟩

end Hosts

/-! ## What a service makes of a command -/

/-- The state in which a command leaves a service, the exit status of the command, and the
lines that it prints. -/
def Service.commanded (T : Target) (service : Service) (state : service.State) (command : Command)
    (contents : List ReadResult) : service.State × Option Nat × List String :=
  match command.request with
  | none => (state, none, [])
  | some r =>
      let (granted, answer) := service.answer state (r.received T)
      match answer.result r with
      | .error _ => (granted, some 1, [])
      | .ok v =>
          match command.image with
          | none => (granted, some 0, command.report v)
          | some _ =>
              let after := (delivered contents).foldl service.image granted
              if endsCleanly contents then
                (after, some 0, command.report v ++ [streamedLine contents])
              else
                (after, some 1, command.report v)

/-! ## One command -/

section Commanded

variable {d : Daemon T service} {state : service.State} {config : SocketConfig}
  {c : Config (ControlClient × ProgressClient) (World τ)} {rest : List (Attempt τ)} {r : Request}

/-- A request was made on a connection to the daemon that was just opened. -/
structure Made (mark : τ) (d : Daemon T service) (state : service.State) (r : Request)
    (w : World τ) (c : Config (ControlClient × ProgressClient) (World τ)) : Prop where
  stream : c.own.1.stream = w.opened
  opened : c.world.opened = w.opened + 1
  outputs : c.world.outputs = w.outputs
  attempts : c.world.attempts = (w.attempted c.own.1.config.ctrlPath).attempts
  writable : (c.world.conns w.opened).closed = false
  sent : (c.world.conns w.opened).sent = (r.message T).bytes.map (Prod.mk mark)
  undisturbed : World.Undisturbed w c.world

/-- **Asking the daemon.** The program goes on with the answer of the service, or it ends
with the error. -/
theorem run_asked (next : c.world.attempts config.ctrlPath = .accepted (d.host state) :: rest)
    (r : Request) :
    ∃ c₁, Made mark d state r c.world c₁ ∧ c₁.own.1.config = config ∧
      ∀ then_ : Value → CliM Unit, run (World.serve mark) (do
          (ControlClient.connect config).first
          let v ← (r.perform T).first
          then_ v) c =
        match (service.answer state (r.received T)).2.result r with
        | .ok v => run (World.serve mark) (then_ v) c₁
        | .error e => (.err e, c₁) := by
  let reply : RawIpcMessage T := d.reply state (r.received T)
  let w₁ : World τ := c.world.accept config.ctrlPath (d.host state)
  let w₂ : World τ := (w₁.send mark c.world.opened (r.message T).bytes).record c.world.opened
    ⟨reply.bytes, true⟩
  let client : ControlClient := ⟨c.world.opened, config⟩
  have fresh : w₁.conns c.world.opened = .fresh (d.host state) := World.conns_accept_new ..
  have after : w₂.conns c.world.opened = ((Conn.fresh (d.host state)).send mark
      (r.message T).bytes).record ⟨reply.bytes, true⟩ := by
    show (World.conns (World.record _ _ _) _) = _
    rw [World.record, World.conns_onConn_same, World.send, World.conns_onConn_same, fresh]
  have connect : run (World.serve mark) (ControlClient.connect config).first c =
      (.ok (), ⟨(client, c.own.2), w₁⟩) := by
    rw [run_first, ControlClient.connect, run_bind, SocketConfig.connectCtrl,
      SocketConfig.run_connectSocket, next]
    rfl
  have answered : reply.bytes <+: ((w₁.send mark client.stream (r.message T).bytes).conns
      client.stream).available := by
    show _ <+: (World.conns (World.send _ _ c.world.opened _) c.world.opened).available
    rw [World.send, World.conns_onConn_same, fresh, Conn.available]
    show _ <+: List.drop 0 ((d.host state).wrote ((r.message T).bytes.map (Prod.mk mark)))
    rw [List.drop_zero, Daemon.host_message]
  have performed := run_perform r client w₁ reply (by
    show (w₁.conns c.world.opened).closed = false
    rw [fresh]
    rfl) answered
  have decoded : r.decode reply = (service.answer state (r.received T)).2.result r :=
    Request.decode_held reply (service.fits state _) (d.holds state _)
  refine ⟨⟨(client, c.own.2), w₂⟩, ⟨rfl, rfl, rfl, rfl, ?_, ?_, ⟨rfl, rfl, rfl⟩⟩, rfl, ?_⟩
  · rw [after]
    rfl
  · rw [after]
    exact List.nil_append _
  · have asked : run (World.serve mark) (r.perform T).first ⟨(client, c.own.2), w₁⟩ =
        (outcomeOf ((service.answer state (r.received T)).2.result r),
          ⟨(client, c.own.2), w₂⟩) := by
      rw [run_first, performed, decoded]
    intro then_
    rw [run_bind_ok connect, run_bind, asked]
    cases (service.answer state (r.received T)).2.result r <;> rfl

theorem contents_undisturbed {w w' : World τ} (undisturbed : World.Undisturbed w w')
    (image : Image) : image.contents w' = image.contents w := by
  cases image with
  | reader n => exact congrFun undisturbed.readers n
  | file path => rw [Image.contents, Image.contents, undisturbed.files]

/-- A line is printed afterwards. -/
theorem Made.println {w : World τ} (made : Made mark d state r w c) {line : String} :
    Made mark d state r { w with printed := w.printed ++ [line] }
      ⟨c.own, { c.world with printed := c.world.printed ++ [line] }⟩ where
  stream := made.stream
  opened := made.opened
  outputs := made.outputs
  attempts := made.attempts
  writable := made.writable
  sent := made.sent
  undisturbed :=
    ⟨congrArg (· ++ [line]) made.undisturbed.printed, made.undisturbed.readers,
      made.undisturbed.files⟩

/-- **Streaming to the daemon.** All that the image gives is sent, and the line about it is
printed when the image was read without error. -/
theorem run_streamed {w : World τ} (made : Made mark d state r w c) {file : Option String}
    {fuel : Nat} (enough : (delivered ((imageOf file).contents w)).length < fuel) :
    ∃ o c', run (World.serve mark) (streamImage file fuel).first c = (o, c') ∧
      exitStatus o = (if endsCleanly ((imageOf file).contents w) then some 0 else some 1) ∧
      c'.world.printed = c.world.printed ++
        (if endsCleanly ((imageOf file).contents w) then [streamedLine ((imageOf file).contents w)]
        else []) ∧
      (c'.world.conns w.opened).sent =
        ((r.message T).bytes ++ delivered ((imageOf file).contents w)).map (Prod.mk mark) := by
  have gives := contents_undisturbed made.undisturbed (imageOf file)
  have writable : (c.world.conns c.own.1.stream).closed = false := by
    rw [made.stream]
    exact made.writable
  have sent : ∀ bytes, ((c.world.conns c.own.1.stream).send mark bytes).sent =
      ((r.message T).bytes ++ bytes).map (Prod.mk mark) := by
    intro bytes
    rw [Conn.sent_send, made.stream, made.sent, List.map_append]
  have safe := @safe_streamImage τ mark _ c.world w.opened file fuel c.own.1 made.stream gives
  have ends := Ends.of_safe (c := ⟨c.own.1, c.world⟩) safe
  rw [← gives] at enough
  cases clean : endsCleanly ((imageOf file).contents w) with
  | true =>
      obtain ⟨w', ran, conns⟩ := @run_streamImage τ mark file fuel ⟨c.own.1, c.world⟩ writable
        (by rw [gives, clean]) enough
      have exec := World.exec_serve mark (streamImage file fuel) ⟨c.own.1, c.world⟩
      rw [ran] at exec
      obtain ⟨_, _, printed⟩ := (ends _ _ exec).1 () rfl
      refine ⟨.ok (), ⟨(c.own.1, c.own.2), w'⟩, ?_, rfl, printed, ?_⟩
      · rw [run_first, ran]
      · rw [conns, World.send, ← made.stream, World.conns_onConn_same, sent, gives]
  | false =>
      obtain ⟨o, w', ran, conns, failed⟩ :=
        @Image.run_delivered τ mark (imageOf file) fuel ⟨c.own.1, c.world⟩ writable enough
      obtain ⟨e, rfl⟩ := failed (by rw [gives, clean])
      have streamed : run (World.serve mark) (streamImage file fuel) ⟨c.own.1, c.world⟩ =
          (.err e, ⟨c.own.1, w'⟩) := by
        rw [streamImage_eq, run_bind_err ran]
      have exec := World.exec_serve mark (streamImage file fuel) ⟨c.own.1, c.world⟩
      rw [streamed] at exec
      obtain ⟨_, _, _, unprinted | ⟨_, clean', _⟩⟩ := (ends _ _ exec).2 (by rintro _ ⟨⟩)
      · refine ⟨.err e, ⟨(c.own.1, c.own.2), w'⟩, ?_, rfl, ?_, ?_⟩
        · rw [run_first, streamed]
        · exact Eq.trans unprinted (List.append_nil _).symm
        · rw [conns, ← made.stream, Function.update_self, sent, gives]
      · rw [endsCleanly_iff.mpr clean'] at clean
        cases clean

theorem run_printAll {σ : Type} (lines : List String) (c : Config σ (World τ)) :
    run (World.serve mark) (printAll lines) c =
      (.ok (), ⟨c.own, { c.world with printed := c.world.printed ++ lines }⟩) := by
  have exec := World.exec_serve mark (printAll lines) c
  generalize run (World.serve mark) (printAll lines) c = ran at exec ⊢
  obtain ⟨o, c'⟩ := ran
  obtain ⟨returned, never⟩ := ends_printAll lines c o c' exec
  cases o with
  | ok u => exact congrArg (Prod.mk _) (returned u rfl)
  | err e => exact (never (by rintro _ ⟨⟩)).elim
  | dropped => exact (never (by rintro _ ⟨⟩)).elim

/-- What a command does on sockets without failures of their own is what a service makes of
it. -/
structure Commands (d : Daemon T service) (state : service.State) (command : Command)
    (w : World τ) (o : Outcome Error Unit) (w' : World τ) : Prop where
  leaves : d.leaves state (w'.conns w.opened).sent =
    (service.commanded T state command (command.contents w)).1
  exits : exitStatus o = (service.commanded T state command (command.contents w)).2.1
  printed : w'.printed = w.printed ++
    (service.commanded T state command (command.contents w)).2.2

/-- A request that is refused. -/
theorem Made.refused {w : World τ} (made : Made mark d state r w c) {command : Command}
    (request : command.request = some r) {e : Error}
    (refused : (service.answer state (r.received T)).2.result r = .error e) :
    Commands d state command w (.err e) c.world := by
  have left : d.leaves state (c.world.conns w.opened).sent =
      (service.answer state (r.received T)).1 := by
    have empty := @Daemon.leaves_message T τ mark service d state r []
    rwa [List.append_nil, ← made.sent] at empty
  refine ⟨?_, ?_, ?_⟩
  · simp only [Service.commanded, request, refused, left]
  · simp only [Service.commanded, request, refused]
    rfl
  · simp only [Service.commanded, request, refused, List.append_nil]
    exact made.undisturbed.printed

/-- A request that is granted, after which its lines were printed. -/
theorem Made.reported {w w' : World τ} (made : Made mark d state r w c) {command : Command}
    (request : command.request = some r) (only : command.image = none) {v : Value}
    (granted : (service.answer state (r.received T)).2.result r = .ok v)
    (conns : w'.conns = c.world.conns)
    (printed : w'.printed = c.world.printed ++ command.report v) :
    Commands d state command w (.ok ()) w' := by
  have left : d.leaves state (w'.conns w.opened).sent =
      (service.answer state (r.received T)).1 := by
    have empty := @Daemon.leaves_message T τ mark service d state r []
    rwa [List.append_nil, ← made.sent, ← conns] at empty
  refine ⟨?_, ?_, ?_⟩
  · simp only [Service.commanded, request, granted, only, left]
  · simp only [Service.commanded, request, granted, only]
    rfl
  · simp only [Service.commanded, request, granted, only]
    rw [printed, made.undisturbed.printed]

/-- A request that is granted, after which an image was streamed. -/
theorem Made.streamed {w w' : World τ} (made : Made mark d state r w c) {command : Command}
    (request : command.request = some r) {image : Image} (streams : command.image = some image)
    {v : Value} (granted : (service.answer state (r.received T)).2.result r = .ok v)
    {o : Outcome Error Unit}
    (exits : exitStatus o = if endsCleanly (image.contents w) then some 0 else some 1)
    (printed : w'.printed = c.world.printed ++ (command.report v ++
      if endsCleanly (image.contents w) then [streamedLine (image.contents w)] else []))
    (sent : (w'.conns w.opened).sent =
      ((r.message T).bytes ++ delivered (image.contents w)).map (Prod.mk mark)) :
    Commands d state command w o w' := by
  have contents : command.contents w = image.contents w := by rw [Command.contents, streams]
  have left := @Daemon.leaves_message T τ mark service d state r (delivered (image.contents w))
  rw [← sent] at left
  rw [made.undisturbed.printed] at printed
  cases clean : endsCleanly (image.contents w) with
  | true =>
      rw [clean] at exits printed
      refine ⟨?_, ?_, ?_⟩
      · simp only [Service.commanded, request, granted, streams, contents, clean, left, if_true]
      · simp only [Service.commanded, request, granted, streams, contents, clean, if_true]
        exact exits
      · simp only [Service.commanded, request, granted, streams, contents, clean, if_true]
        exact printed
  | false =>
      rw [clean] at exits printed
      refine ⟨?_, ?_, ?_⟩
      · simp only [Service.commanded, request, granted, streams, contents, clean, left,
          Bool.false_eq_true, if_false]
      · simp only [Service.commanded, request, granted, streams, contents, clean,
          Bool.false_eq_true, if_false]
        exact exits
      · simp only [Service.commanded, request, granted, streams, contents, clean,
          Bool.false_eq_true, if_false]
        rw [printed]
        exact congrArg _ (List.append_nil _)

/-- A command that watches no events makes one request, and it streams nothing or is an
installation. -/
theorem Command.unwatched {command : Command} (unwatched : command.watches = false) :
    (∃ r, command.request = some r ∧ command.image = none) ∨
      ∃ file source dryRun info, command = .install file false source dryRun info := by
  cases command with
  | install file progress source dryRun info =>
      obtain rfl : progress = false := unwatched
      exact .inr ⟨file, source, dryRun, info, rfl⟩
  | progress => cases unwatched
  | _ => exact .inl ⟨_, rfl, rfl⟩

/-- **A command does what the service makes of it**, when it watches no events. -/
theorem run_commanded {defaults : SocketConfig} {schedule : List Turn} {fuel : Nat} {cli : Cli}
    (unwatched : cli.command.watches = false)
    (next : c.world.attempts (buildConfig defaults cli).ctrlPath =
      .accepted (d.host state) :: rest)
    (enough : (delivered (cli.command.contents c.world)).length < fuel) :
    Commands d state cli.command c.world
      (run (World.serve mark) (cli.run T defaults schedule fuel) c).1
      (run (World.serve mark) (cli.run T defaults schedule fuel) c).2.world := by
  rcases Command.unwatched unwatched with ⟨r, request, only⟩ | ⟨file, source, dryRun, info, command⟩
  · obtain ⟨c₁, made, _, ran⟩ :=
      @run_asked T τ mark service d state (buildConfig defaults cli) c rest next r
    rw [Cli.run_asks request only, ask, ran]
    cases granted : (service.answer state (r.received T)).2.result r with
    | error e => exact made.refused request granted
    | ok v =>
        simp only [run_printAll]
        exact made.reported request only granted rfl rfl
  · let r : Request := .install (installRequest source dryRun info)
    have request : cli.command.request = some r := by rw [command]; rfl
    have streams : cli.command.image = some (imageOf file) := by rw [command]; rfl
    have contents : cli.command.contents c.world = (imageOf file).contents c.world := by
      rw [Command.contents, streams]
    rw [contents] at enough
    obtain ⟨c₁, made, _, ran⟩ :=
      @run_asked T τ mark service d state (buildConfig defaults cli) c rest next r
    rw [Cli.run_install command]
    simp only [Bool.false_eq_true, if_false]
    rw [ran fun _ => println "Install request accepted" >>= fun _ => (streamImage file fuel).first]
    cases granted : (service.answer state (r.received T)).2.result r with
    | error e => exact made.refused request granted
    | ok v =>
        let c₂ : Config (ControlClient × ProgressClient) (World τ) := ⟨c₁.own,
          { c₁.world with printed := c₁.world.printed ++ ["Install request accepted"] }⟩
        have line : run (World.serve mark) (println "Install request accepted") c₁ =
            (.ok (), c₂) := rfl
        have same : (imageOf file).contents c.world = (imageOf file).contents
            { c.world with printed := c.world.printed ++ ["Install request accepted"] } := by
          cases imageOf file <;> rfl
        rw [same] at enough
        obtain ⟨o, c', streamed, exits, printed, sent⟩ := run_streamed made.println enough
        rw [← same] at exits printed sent
        dsimp only
        rw [run_bind_ok line, streamed]
        refine made.streamed request streams granted exits ?_ sent
        rw [printed, command]
        exact List.append_assoc _ _ _

end Commanded

/-! ## Scripts -/

/-- What a service makes of some commands that are run one after another. -/
def Service.transcript (T : Target) (service : Service) (state : service.State) :
    List (Command × List ReadResult) → service.State × List (Option Nat × List String)
  | [] => (state, [])
  | (command, contents) :: rest =>
      let first := service.commanded T state command contents
      let later := service.transcript T first.1 rest
      (later.1, first.2 :: later.2)

theorem Service.transcript_snoc (state : service.State) (script : List (Command × List ReadResult))
    (last : Command × List ReadResult) :
    service.transcript T state (script ++ [last]) =
      ((service.commanded T (service.transcript T state script).1 last.1 last.2).1,
        (service.transcript T state script).2 ++
          [(service.commanded T (service.transcript T state script).1 last.1 last.2).2]) := by
  induction script generalizing state with
  | nil => rfl
  | cons first rest ih =>
      rw [List.cons_append, transcript, ih, transcript]
      rfl

/-- A command is run while the daemon is in some state and reached by the next attempt. It
leaves the daemon in another state. Until the next command is run, all else may change but
what is printed. -/
structure CommandRun (d : Daemon T service) (mark : τ) (defaults : SocketConfig) (fuel : Nat)
    (e : Transition (service.State × World τ) (Cli × Option Nat × List String)) : Prop where
  offered : ∃ rest, e.before.2.attempts (buildConfig defaults e.label.1).ctrlPath =
    .accepted (d.host e.before.1) :: rest
  ran : ∃ own schedule o c',
    run (World.serve mark) (e.label.1.run T defaults schedule fuel) ⟨own, e.before.2⟩ = (o, c') ∧
      exitStatus o = e.label.2.1 ∧ c'.world.printed = e.before.2.printed ++ e.label.2.2 ∧
        e.after.2.printed = c'.world.printed ∧
          e.after.1 = d.leaves e.before.1 (c'.world.conns e.before.2.opened).sent

section Scripts

variable {d : Daemon T service} {defaults : SocketConfig} {fuel : Nat}
  {e : Transition (service.State × World τ) (Cli × Option Nat × List String)}

/-- A command with what its image gives when it is run. -/
def scripted (e : Transition (service.State × World τ) (Cli × Option Nat × List String)) :
    Command × List ReadResult :=
  (e.label.1.command, e.label.1.command.contents e.before.2)

/-- The loop that streams the image of a command may make enough rounds, if there is one,
and the command watches no events. -/
def Attainable (fuel : Nat)
    (e : Transition (service.State × World τ) (Cli × Option Nat × List String)) : Prop :=
  e.label.1.command.watches = false ∧ (delivered (scripted e).2).length < fuel

/-- **A command of a script** does what the service makes of it. -/
theorem CommandRun.commanded (ran : CommandRun d mark defaults fuel e)
    (attainable : Attainable fuel e) :
    (e.after.1, e.label.2) =
        service.commanded T e.before.1 e.label.1.command (scripted e).2 ∧
      e.after.2.printed = e.before.2.printed ++ e.label.2.2 := by
  obtain ⟨⟨rest, next⟩, own, schedule, o, c', result, exits, printed, same, left⟩ := ran
  obtain ⟨unwatched, enough⟩ := attainable
  have commands := @run_commanded T τ mark service d e.before.1 ⟨own, e.before.2⟩ rest defaults
    schedule fuel e.label.1 unwatched next enough
  rw [result] at commands
  obtain ⟨leaves, exits', printed'⟩ := commands
  refine ⟨Prod.ext (left.trans leaves) (Prod.ext (exits.symm.trans exits') ?_), ?_⟩
  · exact List.append_cancel_left (printed.symm.trans printed')
  · rw [same, printed]

/-- **Scripts do what the service makes of them.** Some commands are run one after another,
none of which watches events, against a daemon that keeps its state. Their exit statuses and
the lines that they print are those that the service makes of them, whatever is answered and
whichever images cannot be read, and the daemon is left in the state that the service comes
to. -/
theorem scripts_are_commanded {state state' : service.State} {w w' : World τ}
    {es : List (Transition (service.State × World τ) (Cli × Option Nat × List String))}
    (script : Run (CommandRun d mark defaults fuel) (state, w) es (state', w'))
    (attainable : ∀ e ∈ es, Attainable fuel e) :
    (state', es.map fun e => e.label.2) = service.transcript T state (es.map scripted) ∧
      w'.printed = w.printed ++ es.flatMap fun e => e.label.2.2 := by
  generalize first : (state, w) = start at script
  generalize last : (state', w') = final at script
  induction script generalizing state' w' with
  | start =>
      cases first
      cases last
      exact ⟨rfl, (List.append_nil _).symm⟩
  | @step es e script ran ih =>
      obtain ⟨told, printed⟩ := ran.commanded (attainable e (by simp))
      obtain ⟨earlier, before⟩ :=
        @ih e.before.1 e.before.2 (fun x member => attainable x (List.mem_append_left _ member)) rfl
      obtain ⟨rfl, rfl⟩ := (Prod.mk.injEq ..).mp last
      refine ⟨?_, ?_⟩
      · rw [List.map_append, List.map_append, List.map_singleton, List.map_singleton,
          Service.transcript_snoc, ← earlier]
        show _ = ((service.commanded T e.before.1 e.label.1.command (scripted e).2).1,
          _ ++ [(service.commanded T e.before.1 e.label.1.command (scripted e).2).2])
        rw [← told]
      · rw [printed, before, List.append_assoc, List.flatMap_append, List.flatMap_singleton]

/-- A command that is run where a daemon waits is a transition of a script, which leaves the
daemon to the next command. -/
theorem commandRun_exists (d : Daemon T service) (mark : τ) (defaults : SocketConfig) (fuel : Nat)
    (own : ControlClient × ProgressClient) {state : service.State} {w : World τ}
    {rest : List (Attempt τ)} {cli : Cli} (unwatched : cli.command.watches = false)
    (next : w.attempts (buildConfig defaults cli).ctrlPath = .accepted (d.host state) :: rest)
    (enough : (delivered (cli.command.contents w)).length < fuel)
    (attempts : service.State → String → List (Attempt τ)) :
    ∃ e, e.before = (state, w) ∧ e.label.1 = cli ∧ CommandRun d mark defaults fuel e ∧
      Attainable fuel e ∧ e.after.2.attempts = attempts e.after.1 := by
  have commands := @run_commanded T τ mark service d state ⟨own, w⟩ rest defaults [] fuel cli
    unwatched next enough
  rcases ran : run (World.serve mark) (cli.run T defaults [] fuel) ⟨own, w⟩ with ⟨o, c'⟩
  rw [ran] at commands
  generalize left_eq : d.leaves state (c'.world.conns w.opened).sent = left
  generalize told_eq : (service.commanded T state cli.command (cli.command.contents w)).2 = told
  have exits := commands.exits
  have printed := commands.printed
  change exitStatus o = _ at exits
  change c'.world.printed = _ at printed
  rw [told_eq] at exits printed
  exact ⟨⟨(state, w), (cli, told), (left, { c'.world with attempts := attempts left })⟩, rfl, rfl,
    ⟨⟨rest, next⟩, own, [], o, c', ran, exits, printed, rfl, left_eq.symm⟩, ⟨unwatched, enough⟩,
    rfl⟩

/-- A notification and a status query, which tells that one request was counted. -/
theorem scripts_are_commanded_counting :
    ∃ (d : Daemon .x86_64 counting) (w w' : World Unit) (state' : counting.State)
      (es : List (Transition (counting.State × World Unit) (Cli × Option Nat × List String))),
      Run (CommandRun d () ⟨"ctrl", "progress", 0⟩ 1) (counting.start, w) es (state', w') ∧
      (es.map fun e => e.label.1.command) = [.postUpdate, .getStatus] ∧
      (state', es.map fun e => e.label.2) = ((2 : Nat), [(some 0, ["Post-update sent"]),
        (some 0, Command.getStatus.report (.status ⟨.idle, .idle, 1, ""⟩))]) ∧
      w'.printed = w.printed ++ es.flatMap fun e => e.label.2.2 := by
  let d : Daemon .x86_64 counting := .filling _ representable_counting
  let attempts : counting.State → String → List (Attempt Unit) :=
    fun state _ => [.accepted (d.host state)]
  let own : ControlClient × ProgressClient :=
    (⟨0, ⟨"ctrl", "progress", 0⟩⟩, ⟨0, ⟨"ctrl", "progress", 0⟩, .packed⟩)
  let w : World Unit := .initial (attempts counting.start)
  obtain ⟨e, before, cli, ran, attainable, offers⟩ :=
    @commandRun_exists .x86_64 Unit counting d () ⟨"ctrl", "progress", 0⟩ 1 own counting.start w []
      ⟨none, none, .postUpdate⟩ rfl rfl (Nat.lt_succ_self 0) attempts
  obtain ⟨e', before', cli', ran', attainable', _⟩ :=
    @commandRun_exists .x86_64 Unit counting d () ⟨"ctrl", "progress", 0⟩ 1 own e.after.1 e.after.2
      [] ⟨none, none, .getStatus⟩ rfl (congrFun offers _) (Nat.lt_succ_self 0) attempts
  have begun : Run (CommandRun d () ⟨"ctrl", "progress", 0⟩ 1) (counting.start, w) [e] e.after := by
    rw [← before]
    exact Run.start.step ran
  have script : Run (CommandRun d () ⟨"ctrl", "progress", 0⟩ 1) (counting.start, w) [e, e']
      (e'.after.1, e'.after.2) := by
    have first : Run (CommandRun d () ⟨"ctrl", "progress", 0⟩ 1) (counting.start, w) [e]
        e'.before := by
      rw [before']
      exact begun
    exact first.step ran'
  have commanded := scripts_are_commanded script (by
    intro x member
    rcases List.mem_pair.mp member with rfl | rfl
    · exact attainable
    · exact attainable')
  refine ⟨d, w, e'.after.2, e'.after.1, [e, e'], script, ?_, ?_, commanded.2⟩
  · rw [List.map_cons, List.map_singleton, cli, cli']
  · rw [commanded.1, List.map_cons, List.map_singleton, scripted, scripted, cli, cli']
    rfl

end Scripts

end SwupdateIpc
