import SwupdateIpc.Cli.Footprints

/-!
# Every execution of a command

The footprint of a command is what every execution of it leaves, however it ends: on
sockets that may fail, when the process is stopped at some call, and when one task of an
installation with progress fails and the other one is given up, on every schedule
(`Cli.exec_footprint`).
-/

set_option autoImplicit false

namespace SwupdateIpc

open Foundations Wire

variable {T : Target} {τ : Type} {mark : τ}

/-! ## Subscribing -/

/-- At most one connection was opened, nothing was sent on it, and nothing was printed. -/
structure Silent (w w' : World τ) : Prop where
  older : ∀ fd, fd < w.opened → w'.conns fd = w.conns fd
  opened : w'.opened = w.opened ∨ w'.opened = w.opened + 1 ∧ (w'.conns w.opened).sent = []
  undisturbed : World.Undisturbed w w'

/-- **Subscribing** opens at most one connection, on which the client says nothing. -/
theorem ends_subscribe (config : SocketConfig) (c : Config ProgressClient (World τ)) :
    Ends (World.device mark) (ProgressClient.connect T config) (Silent c.world)
      (fun _ c' => Silent c.world c'.world ∧ c'.own.stream = c.world.opened ∧
        c'.world.opened = c.world.opened + 1 ∧
        ∃ ack, (c'.world.conns c.world.opened).reads = [⟨ack, true⟩] ∧ AckAccepted T ack) c := by
  intro o c' exec
  have undisturbed := exec_undisturbed
    (calls_subscribe (fun _ _ quiet => quiet) trivial trivial trivial (fun _ _ => trivial)
      c.own) exec
  constructor
  · rintro u rfl
    obtain ⟨peer, ack, _, accepted, own, world⟩ := ProgressClient.exec_connect_ok exec
    let w : World τ := { c.world with outputs := c.world.outputs.tail }
    obtain ⟨older, new⟩ := w.accept_onConn config.progressPath peer fun c => c.record ⟨ack, true⟩
    change c'.world = (w.accept config.progressPath peer).onConn w.opened _ at world
    rw [← world] at older new
    have opened : c'.world.opened = c.world.opened + 1 := by
      rw [world]
      rfl
    refine ⟨⟨older, .inr ⟨opened, congrArg Conn.sent new⟩, undisturbed⟩, ?_, opened, ack,
      congrArg Conn.reads new, accepted⟩
    rw [own]
  · intro failed
    have same : ∀ {w' : World τ}, w'.conns = c.world.conns → w'.opened = c.world.opened →
        World.Undisturbed c.world w' → Silent c.world w' := by
      intro w' conns opened undisturbed
      exact ⟨fun fd _ => congrFun conns fd, .inl opened, undisturbed⟩
    rcases exec_bind.mp exec with ⟨layout, c₀, detected, rest⟩ | ⟨e, rfl, first⟩ | ⟨rfl, first⟩
    · obtain ⟨_, detected⟩ | ⟨⟨⟩, _⟩ := exec_detectLayout detected
      have conns : c₀.world.conns = c.world.conns := by rw [detected, World.snd_output]
      have opened : c₀.world.opened = c.world.opened := by rw [detected, World.snd_output]
      rcases exec_bind.mp rest with ⟨fd, c₁, first, last⟩ | ⟨e, rfl, first⟩ | ⟨rfl, first⟩
      · obtain ⟨_, ⟨peer, ⟨⟩, accepted⟩ | ⟨none, _⟩⟩ := SocketConfig.exec_connectSocket first
        · obtain ⟨_, stretch, _, world, _⟩ := ProgressClient.exec_handshake (exec_set_bind.mp last)
          obtain ⟨older, new⟩ := c₀.world.accept_onConn config.progressPath peer fun c =>
            c.record stretch
          change c'.world = c₁.world.onConn c₀.world.opened _ at world
          rw [accepted] at world
          rw [← world, conns] at older
          rw [← world, opened] at new
          rw [opened] at older
          refine ⟨older, .inr ⟨?_, congrArg Conn.sent new⟩, undisturbed⟩
          rw [world, ← opened]
          rfl
        · exact absurd rfl (none fd)
      · obtain ⟨_, ⟨peer, ⟨⟩, _⟩ | ⟨_, conns', opened'⟩⟩ := SocketConfig.exec_connectSocket first
        exact same (conns'.trans conns) (opened'.trans opened) undisturbed
      · obtain ⟨_, ⟨peer, ⟨⟩, _⟩ | ⟨_, conns', opened'⟩⟩ := SocketConfig.exec_connectSocket first
        exact same (conns'.trans conns) (opened'.trans opened) undisturbed
    · obtain ⟨⟨⟩, _⟩ | ⟨⟨⟩, _⟩ := exec_detectLayout first
    · obtain ⟨⟨⟩, _⟩ | ⟨_, rfl⟩ := exec_detectLayout first
      exact same rfl rfl undisturbed

/-! ## Installations -/

section Installations

variable {command : Command} {req : InstallRequest} {v : Value} {w base w' : World τ}
  {c : Config (ControlClient × ProgressClient) (World τ)} {file : Option String}

/-- An install request was acknowledged and reported, and nothing was sent on a second
connection. -/
structure Uploading (T : Target) (mark : τ) (req : InstallRequest) (w base : World τ) : Prop where
  opened : base.opened = w.opened + 1 ∨
    base.opened = w.opened + 2 ∧ (base.conns (w.opened + 1)).sent = []
  older : ∀ fd, fd < w.opened → base.conns fd = w.conns fd
  sent : (base.conns w.opened).sent = ((Request.install req).message T).bytes.map (Prod.mk mark)
  replied : ∃ resp : RawIpcMessage T, TookReply (base.conns w.opened) resp ∧
    (Request.install req).decode resp = .ok (.installation {})
  printed : base.printed = w.printed ++ ["Install request accepted"]
  contents : ∀ image : Image, image.contents base = image.contents w

/-- An accepted install request returns the handle, on an acknowledgement. -/
theorem decode_install {resp : RawIpcMessage T}
    (decoded : (Request.install req).decode resp = .ok v) :
    v = .installation {} ∧ resp.msgType = some .ack := by
  cases result : Request.acknowledged resp with
  | error e =>
      simp only [Request.decode, result] at decoded
      cases decoded
  | ok u =>
      simp only [Request.decode, result] at decoded
      cases decoded
      refine ⟨rfl, ?_⟩
      unfold Request.acknowledged at result
      split at result
      · assumption
      · cases result
      · cases result

theorem Asked.uploading (asked : Asked T mark (.install req) w v c)
    (conns : base.conns = c.world.conns) (opened : base.opened = c.world.opened)
    (contents : ∀ image : Image, image.contents base = image.contents c.world)
    (printed : base.printed = c.world.printed ++ ["Install request accepted"]) :
    Uploading T mark req w base where
  opened := .inl (opened.trans asked.opened)
  older fd old := by rw [conns, asked.older fd old]
  sent := by rw [conns, asked.sent]
  replied := by
    obtain ⟨resp, replied, decoded⟩ := asked.replied
    obtain ⟨rfl, _⟩ := decode_install decoded
    exact ⟨resp, by rw [conns]; exact replied, decoded⟩
  printed := by rw [printed, asked.undisturbed.printed]
  contents image := by
    rw [contents]
    obtain ⟨_, readers, files⟩ := asked.undisturbed
    cases image with
    | reader n => exact congrFun readers n
    | file path => simp only [Image.contents, files]

/-- Subscribing changes nothing of that. -/
theorem Uploading.subscribed (granted : Uploading T mark req w base)
    (one : base.opened = w.opened + 1) (silent : Silent base w') : Uploading T mark req w w' where
  opened := by
    rcases silent.opened with same | ⟨more, sent⟩
    · exact .inl (same.trans one)
    · rw [one] at more sent
      exact .inr ⟨more, sent⟩
  older fd old := by rw [silent.older fd (by omega), granted.older fd old]
  sent := by rw [silent.older _ (by omega), granted.sent]
  replied := by
    rw [silent.older _ (by omega)]
    exact granted.replied
  printed := by rw [silent.undisturbed.printed, granted.printed]
  contents image := by
    rw [← granted.contents]
    obtain ⟨_, readers, files⟩ := silent.undisturbed
    cases image with
    | reader n => exact congrFun readers n
    | file path => simp only [Image.contents, files]

/-- An installation that was granted has said its request and a part of its image. -/
theorem Uploading.spoken {source : Source} {dryRun progress : Bool} {info : String}
    {part : List UInt8} (granted : Uploading T mark (installRequest source dryRun info) w base)
    (sending : Sending mark base w.opened part w')
    (inside : part <+: delivered ((imageOf file).contents w)) {lines : List String}
    (told : lines = ["Install request accepted"] ∨
      lines = ["Install request accepted", streamedLine ((imageOf file).contents w)] ∧
        part = delivered ((imageOf file).contents w) ∧
          readError ((imageOf file).contents w) = none) :
    Spoken T mark (.install file progress source dryRun info) ((imageOf file).contents w)
      (w'.conns w.opened) lines := by
  obtain ⟨resp, replied, decoded⟩ := granted.replied
  have sent : (w'.conns w.opened).sent = (((Request.install (installRequest source dryRun
      info)).message T).bytes ++ part).map (Prod.mk mark) := by
    rw [sending.conn, Conn.sent_send, granted.sent, List.map_append]
  have same : TookReply (w'.conns w.opened) resp := by
    rw [TookReply, sending.conn]
    exact replied
  refine ⟨⟨_, (List.prefix_append_right_inj _).mpr inside, sent⟩,
    fun _ => ⟨resp, same, (decode_install decoded).2⟩, ?_⟩
  rcases told with rfl | ⟨rfl, rfl, clean⟩
  · exact .answered rfl same decoded
  · refine .streamed rfl rfl same decoded clean ?_
    rw [sent, List.length_map, List.length_append]
    rfl

/-- **What an installation leaves** while it streams, when nothing is sent on its second
connection. -/
theorem Uploading.footprint {source : Source} {dryRun : Bool} {info : String}
    (granted : Uploading T mark (installRequest source dryRun info) w base) (progress : Bool)
    (two : progress = false → base.opened = w.opened + 1)
    (streaming : Streaming mark ((imageOf file).contents w) base w.opened w')
    (silent : base.opened = w.opened + 2 → (w'.conns (w.opened + 1)).sent = []) :
    ∃ lines, Footprint T mark (.install file progress source dryRun info) w w' lines ∧
      lines ≠ [] ∧ (w'.printed ≠ base.printed → lines.length = 2) := by
  obtain ⟨part, sending, inside, told⟩ := streaming
  have opened := sending.opened
  have count : w'.opened = w.opened + 1 ∨ progress = true ∧ w'.opened = w.opened + 2 := by
    rw [opened]
    rcases granted.opened with one | ⟨more, _⟩
    · exact .inl one
    · cases progress with
      | false => exact .inl (two rfl)
      | true => exact .inr ⟨rfl, more⟩
  have left : ∀ lines, w'.printed = w.printed ++ lines →
      Spoken T mark (.install file progress source dryRun info) ((imageOf file).contents w)
        (w'.conns w.opened) lines →
      Footprint T mark (.install file progress source dryRun info) w w' lines := by
    intro lines printed spoken
    refine ⟨fun fd old => ?_, by omega, ?_, fun fd newer older => ?_, printed, by omega,
      fun _ => spoken⟩
    · rw [sending.others fd (by omega) (by omega), granted.older fd old]
    · rcases count with one | ⟨rfl, more⟩
      · have least := (Command.install file progress source dryRun info).one_le_connections
        omega
      · rw [more]
        exact Nat.le_refl _
    · obtain rfl : fd = w.opened + 1 := by omega
      exact silent (by omega)
  have accepted := granted.printed
  rcases told with printed | ⟨rfl, clean, printed⟩
  · have line : w'.printed = w.printed ++ ["Install request accepted"] := printed.trans accepted
    exact ⟨_, left _ line (granted.spoken sending inside (.inl rfl)), by simp,
      fun more => absurd printed more⟩
  · have both : w'.printed = w.printed ++
        ["Install request accepted", streamedLine ((imageOf file).contents w)] := by
      rw [printed, accepted, List.append_assoc]
      rfl
    exact ⟨_, left _ both (granted.spoken sending inside (.inr ⟨rfl, rfl, clean⟩)), by simp,
      fun _ => rfl⟩

/-- The other task leaves a connection as it is, on which nothing was sent. -/
def listeningConditions (τ : Type) (fd : Nat) : Conditions (World τ) where
  rely w w' := w'.conns fd = w.conns fd
  kept w := (w.conns fd).sent = []
  refl _ := rfl
  trans first second := second.trans first
  stable same sent := by rw [same, sent]

/-- The tasks of an installation with progress, in whatever order they take turns and
however they end. -/
theorem ends_tasks {schedule : List Turn} {fuel : Nat} {contents : List ReadResult}
    (gives : (imageOf file).contents c.world = contents)
    (next : c.own.2.stream = c.own.1.stream + 1)
    (silent : (c.world.conns c.own.2.stream).sent = []) :
    Ends (World.device mark) (Async.tryJoin schedule (streamImage file fuel) (watch T fuel))
      (fun w' => Streaming mark contents c.world c.own.1.stream w' ∧
        (w'.conns c.own.2.stream).sent = [])
      (fun _ c' => Streaming mark contents c.world c.own.1.stream c'.world ∧
        (c'.world.conns c.own.2.stream).sent = [] ∧
        c'.world.printed = c.world.printed ++ [streamedLine contents]) c := by
  have watches : (watch T fuel).Calls (SysCall.ReadsFrom c.own.2.stream) c.own.2 :=
    calls_watch c.own.2 fuel
  have streams : (streamImage file fuel).Calls (SysCall.Apart c.own.2.stream) c.own.1 :=
    calls_streamImage (by omega) file fuel
  have listens : (watch T fuel).Safe (World.device mark) (listeningConditions τ c.own.2.stream)
      (fun _ _ _ => True) c.own.2 c.world := by
    refine Async.Calls.safe (watches.mono fun call reads => ?_) silent
    refine (World.reads_guarantee reads).imp ?_
    rintro w _ ⟨stretch, rfl⟩ sent
    show ((w.record c.own.2.stream stretch).conns c.own.2.stream).sent = []
    rw [World.record, World.conns_onConn_same, Conn.sent_record]
    exact sent
  have apart : (streamImage file fuel).Calls (Guarantees (World.device mark)
      (listeningConditions τ c.own.2.stream).rely) c.own.1 :=
    streams.mono fun _ => World.apart_guarantees
  have reads : (watch T fuel).Calls (Guarantees (World.device mark)
      (streamingConditions mark contents c.world c.own.1.stream).rely) c.own.2 := by
    refine watches.mono fun call reads => (World.reads_guarantee reads).imp ?_
    rintro w _ ⟨stretch, rfl⟩
    refine ⟨(w.conns c.own.2.stream).record stretch, ?_⟩
    rw [← next]
    rfl
  intro o c' exec
  obtain ⟨kept, quiet, both⟩ :=
    exec_tryJoin_safe World.timely (safe_streamImage rfl gives) listens apart reads exec
  refine ⟨?_, fun _ => ⟨kept, quiet⟩⟩
  rintro ⟨a, b⟩ rfl
  obtain ⟨⟨_, _, printed⟩, _⟩ := both a b rfl
  exact ⟨kept, quiet, printed⟩

/-- An installation connects, asks, and then streams, alone or while it watches. -/
theorem Cli.run_install {source : Source} {dryRun progress : Bool} {info : String}
    {defaults : SocketConfig} {schedule : List Turn} {fuel : Nat} {cli : Cli}
    (install : cli.command = .install file progress source dryRun info) :
    cli.run T defaults schedule fuel = (do
      (ControlClient.connect (buildConfig defaults cli)).first
      let _ ← ((Request.install (installRequest source dryRun info)).perform T).first
      println "Install request accepted"
      if progress then do
        Installation.progress T
        let _ ← Async.tryJoin schedule (streamImage file fuel) (watch T fuel)
        pure ()
      else
        (streamImage file fuel).first) := by
  rw [Cli.run, install]
  simp only [Request.perform, Async.first_bind, bind_assoc]
  rfl

/-- After its request was granted, an installation streams. -/
theorem Uploading.ends_plain {source : Source} {dryRun : Bool} {info : String} {fuel : Nat}
    (granted : Uploading T mark (installRequest source dryRun info) w c.world)
    (held : c.own.1.stream = w.opened) (one : c.world.opened = w.opened + 1) :
    Ends (World.device mark) (streamImage file fuel).first
      (fun w' => ∃ lines, Footprint T mark (.install file false source dryRun info) w w' lines)
      (fun _ c' => ∃ lines, Footprint T mark (.install file false source dryRun info) w c'.world
        lines ∧ lines.length = 2) c := by
  refine (Ends.of_safe (safe_streamImage held (granted.contents _))).first.imp ?_ ?_
  · intro w' streaming
    obtain ⟨lines, footprint, _⟩ := granted.footprint false (fun _ => one) streaming (by omega)
    exact ⟨lines, footprint⟩
  · rintro _ c' ⟨⟨sending, clean, printed⟩, _⟩
    have streaming : Streaming mark ((imageOf file).contents w) c.world w.opened c'.world :=
      ⟨_, sending, List.prefix_refl _, .inr ⟨rfl, clean, printed⟩⟩
    obtain ⟨lines, footprint, _, two⟩ := granted.footprint false (fun _ => one) streaming (by omega)
    refine ⟨lines, footprint, two ?_⟩
    rw [printed]
    simp

/-- Or it subscribes, and then it streams while it watches. -/
theorem Uploading.ends_monitored {source : Source} {dryRun : Bool} {info : String} {fuel : Nat}
    {schedule : List Turn}
    (granted : Uploading T mark (installRequest source dryRun info) w c.world)
    (held : c.own.1.stream = w.opened) (one : c.world.opened = w.opened + 1) :
    Ends (World.device mark) (do
        Installation.progress T
        let _ ← Async.tryJoin schedule (streamImage file fuel) (watch T fuel)
        pure ())
      (fun w' => ∃ lines, Footprint T mark (.install file true source dryRun info) w w' lines)
      (fun _ c' => ∃ lines, Footprint T mark (.install file true source dryRun info) w c'.world
        lines ∧ lines.length = 2) c := by
  have begun : ∀ {base : World τ}, Uploading T mark (installRequest source dryRun info) w base →
      Streaming mark ((imageOf file).contents w) base w.opened base :=
    fun _ => ⟨[], .start, List.nil_prefix, .inl rfl⟩
  have subscribes : Ends (World.device mark) (Installation.progress T) _ _ c :=
    (ends_subscribe c.own.1.config ⟨c.own.2, c.world⟩).second
  refine .bind (subscribes.imp ?_ ?_)
  · intro w' silent
    have same := granted.subscribed one silent
    change Silent c.world w' at silent
    have quiet : w'.opened = w.opened + 2 → (w'.conns (w.opened + 1)).sent = [] := by
      intro more
      rcases silent.opened with none | ⟨_, sent⟩
      · omega
      · rw [← one]
        exact sent
    obtain ⟨lines, footprint, _⟩ := same.footprint true (by simp) (begun same) quiet
    exact ⟨lines, footprint⟩
  · rintro _ c₁ ⟨⟨silent, stream, opened, _⟩, client⟩
    have same := granted.subscribed one silent
    change Silent c.world c₁.world at silent
    change c₁.own.2.stream = c.world.opened at stream
    change c₁.world.opened = c.world.opened + 1 at opened
    have first : c₁.own.1.stream = w.opened := by rw [client, held]
    have second : c₁.own.2.stream = w.opened + 1 := by rw [stream, one]
    have sent : (c₁.world.conns c₁.own.2.stream).sent = [] := by
      rcases silent.opened with none | ⟨_, sent⟩
      · omega
      · rw [stream]
        exact sent
    have tasks := @ends_tasks T τ mark c₁ file schedule fuel _ (same.contents (imageOf file))
      (by omega) sent
    rw [first, second] at tasks
    refine .bind (tasks.imp ?_ ?_)
    · rintro w' ⟨streaming, quiet⟩
      obtain ⟨lines, footprint, _⟩ := same.footprint true (by simp) streaming
        fun _ => quiet
      exact ⟨lines, footprint⟩
    · rintro _ c' ⟨streaming, quiet, printed⟩
      obtain ⟨lines, footprint, _, two⟩ := same.footprint true (by simp) streaming
        fun _ => quiet
      refine .ret ⟨lines, footprint, two ?_⟩
      rw [printed]
      simp

/-- **An installation**, however it ends. -/
theorem ends_install {source : Source} {dryRun progress : Bool} {info : String}
    {defaults : SocketConfig} {schedule : List Turn} {fuel : Nat} {cli : Cli}
    (install : cli.command = .install file progress source dryRun info) :
    Ends (World.device mark) (cli.run T defaults schedule fuel)
      (fun w' => ∃ lines, Footprint T mark cli.command c.world w' lines)
      (fun _ c' => ∃ lines, Footprint T mark cli.command c.world c'.world lines ∧
        lines.length = 2) c := by
  rw [Cli.run_install install, install]
  refine ends_asked rfl (fun _ footprint => ⟨_, footprint⟩) fun v c₁ asked => ?_
  refine .bind ((ends_println _ c₁).imp (fun _ never => never.elim) ?_)
  rintro _ c₂ rfl
  have uploading : Uploading T mark (installRequest source dryRun info) c.world
      { c₁.world with printed := c₁.world.printed ++ ["Install request accepted"] } :=
    asked.uploading rfl rfl (fun image => by cases image <;> rfl) rfl
  have stream : (Config.mk c₁.own { c₁.world with
      printed := c₁.world.printed ++ ["Install request accepted"] }).own.1.stream =
        c.world.opened := asked.stream
  cases progress with
  | false =>
      rw [if_neg (by simp)]
      exact uploading.ends_plain stream asked.opened
  | true =>
      rw [if_pos rfl]
      exact uploading.ends_monitored stream asked.opened

end Installations

/-! ## Every command -/

section Commands

variable {c c' : Config (ControlClient × ProgressClient) (World τ)} {w w' : World τ}

/-- A connection was read, and nothing else has happened. -/
def Listened (fd : Nat) (w w' : World τ) : Prop :=
  ∃ reads : List Stretch, w' = w.onConn fd fun c => { c with reads := c.reads ++ reads }

theorem Listened.refl (fd : Nat) (w : World τ) : Listened fd w w := by
  refine ⟨[], ?_⟩
  simp only [List.append_nil]
  exact (w.onConn_self fd).symm

theorem Listened.trans {fd : Nat} {w₁ : World τ} (first : Listened fd w w₁)
    (second : Listened fd w₁ w') : Listened fd w w' := by
  obtain ⟨reads, rfl⟩ := first
  obtain ⟨more, rfl⟩ := second
  refine ⟨reads ++ more, ?_⟩
  rw [World.onConn, World.conns_onConn_same, World.onConn, World.onConn]
  simp only [Function.update_idem, List.append_assoc]

/-- Watching reads the connection of its client, however it ends. -/
theorem ends_watch (fuel : Nat) (c : Config ProgressClient (World τ)) :
    Ends (World.device mark) (watch T fuel) (Listened c.own.stream c.world)
      (fun _ c' => Listened c.own.stream c.world c'.world) c := by
  intro o c' exec
  have listened : Listened c.own.stream c.world c'.world := by
    refine Async.Calls.exec (Listened.refl _) Listened.trans ?_ exec
    refine (calls_watch c.own fuel).mono fun call reads => (World.reads_guarantee reads).imp ?_
    rintro w _ ⟨stretch, rfl⟩
    exact ⟨[stretch], rfl⟩
  exact ⟨fun _ _ => listened, fun _ => listened⟩

/-- What a command that only watches leaves, when it is connected. -/
theorem Silent.footprint {lines : List String} (silent : Silent w c.world)
    (one : c.world.opened = w.opened + 1)
    (told : lines = [] ∨ lines = [connectedLine] ∧ ∃ ack,
      (c.world.conns w.opened).reads = [⟨ack, true⟩] ∧ AckAccepted T ack)
    (listened : Listened w.opened { c.world with printed := c.world.printed ++ lines } w') :
    Footprint T mark .progress w w' lines := by
  obtain ⟨reads, rfl⟩ := listened
  have sent : (c.world.conns w.opened).sent = [] := by
    rcases silent.opened with none | ⟨_, sent⟩
    · omega
    · exact sent
  refine .first one ?_ ?_ ⟨⟨[], List.nil_prefix, ?_⟩, ?_, ?_⟩
  · intro fd old
    rw [World.conns_onConn_other _ _ (Nat.ne_of_lt old)]
    exact silent.older fd old
  · show c.world.printed ++ lines = _
    rw [silent.undisturbed.printed]
  · rw [World.conns_onConn_same]
    exact sent
  · intro more
    rw [World.conns_onConn_same] at more
    change _ < (c.world.conns w.opened).sent.length at more
    rw [sent] at more
    cases more
  · rcases told with rfl | ⟨rfl, ack, taken, accepted⟩
    · exact .nothing
    · refine .connected rfl ?_ accepted
      rw [World.conns_onConn_same]
      show ((c.world.conns w.opened).reads ++ reads).head? = _
      rw [taken]
      rfl

/-- **Watching alone**, however it ends. -/
theorem ends_progress {defaults : SocketConfig} {schedule : List Turn} {fuel : Nat} {cli : Cli}
    (watches : cli.command = .progress) :
    Ends (World.device mark) (cli.run T defaults schedule fuel)
      (fun w' => ∃ lines, Footprint T mark cli.command c.world w' lines)
      (fun _ c' => ∃ lines, Footprint T mark cli.command c.world c'.world lines ∧ lines ≠ [])
      c := by
  rw [Cli.run, watches]
  refine .bind ((ends_subscribe _ _).second.imp ?_ ?_)
  · intro w' silent
    change Silent c.world w' at silent
    rcases silent.opened with none | ⟨one, _⟩
    · exact ⟨[], .none silent.older none silent.undisturbed.printed⟩
    · refine ⟨[], @Silent.footprint T τ mark ⟨c.own, w'⟩ _ _ _ silent one (.inl rfl) ?_⟩
      rw [List.append_nil]
      exact .refl _ _
  · rintro _ c₁ ⟨⟨silent, stream, one, greeted⟩, _⟩
    change Silent c.world c₁.world at silent
    change c₁.own.2.stream = c.world.opened at stream
    refine .bind ((ends_println _ c₁).imp (fun _ never => never.elim) ?_)
    rintro _ c₂ rfl
    have footprint : ∀ {w'}, Listened c₁.own.2.stream
        { c₁.world with printed := c₁.world.printed ++ [connectedLine] } w' →
          Footprint T mark .progress c.world w' [connectedLine] := by
      intro w' listened
      rw [stream] at listened
      exact silent.footprint one (.inr ⟨rfl, greeted⟩) listened
    refine (ends_watch fuel _).second.imp ?_ ?_
    · intro w' listened
      exact ⟨_, footprint listened⟩
    · intro _ c' ended
      exact ⟨_, footprint ended.1, by simp⟩

/-- **Every execution of every command.** However it ends and whatever fails, the command
has left older connections as they were, it has opened at most one connection, or two to
install with progress, it has sent a part of its message and its image on the first one and
nothing on the other one, and it has printed only what it was answered. A command that makes
one request succeeds exactly if it has printed the answer. -/
theorem Cli.exec_footprint {defaults : SocketConfig} {schedule : List Turn} {fuel : Nat} {cli : Cli}
    {o : Outcome Error Unit} (exec : Exec (World.device mark) (cli.run T defaults schedule fuel)
      c o c') :
    ∃ lines, Footprint T mark cli.command c.world c'.world lines ∧
      (o = .ok () → lines ≠ []) ∧
      (∀ image, cli.command.image = some image → o = .ok () → lines.length = 2) ∧
      ∀ r, cli.command.request = some r → cli.command.image = none → o ≠ .ok () → lines = [] := by
  cases request : cli.command.request with
  | none =>
      have watches : cli.command = .progress := by
        cases command : cli.command <;> rw [command] at request <;> first | rfl | cases request
      have streams : cli.command.image = none := by rw [watches]; rfl
      rw [streams]
      rcases (ends_progress watches).either exec with
        ⟨_, rfl, lines, footprint, some⟩ | ⟨failed, lines, footprint⟩
      · refine ⟨lines, footprint, fun _ => some, ?_, ?_⟩
        · rintro _ ⟨⟩
        · rintro _ ⟨⟩
      · refine ⟨lines, footprint, fun ok => absurd ok (failed ()), ?_, ?_⟩
        · rintro _ ⟨⟩
        · rintro _ ⟨⟩
  | some r =>
      cases image : cli.command.image with
      | some image =>
          obtain ⟨file, progress, source, dryRun, info, install⟩ :
              ∃ file progress source dryRun info,
                cli.command = .install file progress source dryRun info := by
            cases command : cli.command <;> rw [command] at image <;>
              first | exact ⟨_, _, _, _, _, rfl⟩ | cases image
          rcases (ends_install install).either exec with
            ⟨_, rfl, lines, footprint, two⟩ | ⟨failed, lines, footprint⟩
          · refine ⟨lines, footprint, fun _ none => ?_, fun _ _ _ => two, ?_⟩
            · rw [none] at two
              cases two
            · rintro _ _ ⟨⟩
          · refine ⟨lines, footprint, fun ok => absurd ok (failed ()),
              fun _ _ ok => absurd ok (failed ()), ?_⟩
            rintro _ _ ⟨⟩
      | none =>
          rw [Cli.run_asks request image] at exec
          rcases (ends_ask request).either exec with
            ⟨_, rfl, lines, footprint, some⟩ | ⟨failed, footprint⟩
          · refine ⟨lines, footprint, fun _ => some, ?_, fun _ _ _ no => absurd rfl no⟩
            rintro _ ⟨⟩
          · refine ⟨[], footprint, fun ok => absurd ok (failed ()), ?_, fun _ _ _ _ => rfl⟩
            rintro _ ⟨⟩

end Commands

/-- What an installation with progress of three bytes leaves. -/
theorem footprint_installation :
    ∃ (cli : Cli) (c c' : Config (ControlClient × ProgressClient) (World Unit))
        (lines : List String), cli.command = .install none true .local false "" ∧
      delivered ((imageOf none).contents c.world) = [1, 2, 3] ∧
      received .x86_64 c'.own.2.layout (c'.world.conns c'.own.2.stream) = [.idle, .failed ""] ∧
      Footprint .x86_64 () cli.command c.world c'.world lines ∧ lines.length = 2 := by
  obtain ⟨schedule, fuel, c, c', world, ran, events⟩ :=
    @run_installation (fun _ => .ok []) (fun _ => [.data [1, 2], .data [3]]) none true .local false
      "" rfl
  have exec := World.exec_serve () (Cli.run .x86_64 ⟨"ctrl", "progress", 0⟩ schedule fuel
    ⟨none, none, .install none true .local false ""⟩) c
  rw [ran] at exec
  obtain ⟨lines, footprint, _, two, _⟩ := Cli.exec_footprint exec
  refine ⟨_, c, c', lines, rfl, ?_, events rfl, footprint, two _ rfl rfl⟩
  rw [world]
  rfl

end SwupdateIpc
