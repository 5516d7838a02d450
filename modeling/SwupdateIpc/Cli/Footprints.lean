import SwupdateIpc.Cli.Outcomes
import SwupdateIpc.Cli.StreamingTasks

/-!
# What a command leaves

A command leaves the connections opened before it as they were, and opens at most two.
On the first of them it sends a part of its request and of its image, on the other one
nothing, and the image only after the request was acknowledged. It prints what it was
answered, and nothing before (`Footprint`).

A command that makes one request and streams no image is a connect, a request, and the
lines about its answer (`Cli.run_asks`). It prints all of them, or nothing (`ends_ask`).
-/

set_option autoImplicit false

namespace SwupdateIpc

open Foundations Wire

variable {T : Target} {τ : Type} {mark : τ}

/-! ## The calls of a command -/

section Calls

variable {allowed : SysCall → Prop}

theorem calls_await {σ : Type} {call : SysCall} (given : allowed call) (s : σ) :
    (await call : IpcM σ call.Answer).Calls allowed s :=
  ⟨given, fun _ => trivial⟩

theorem calls_connectSocket {σ : Type} {config : SocketConfig} {path : String}
    (bounded : ∀ deadline call, allowed call → allowed (.within deadline call))
    (finds : allowed (.pathExists path)) (connects : allowed (.connect path)) (s : σ) :
    (config.connectSocket path : IpcM σ Nat).Calls allowed s := by
  refine Async.Calls.bind (calls_await finds s) fun (found : Bool) s => ?_
  cases found with
  | false => trivial
  | true =>
      refine Async.Calls.bind (.timeout (calls_await connects s) (bounded _)) ?_
      intro answer s
      rcases answer with _ | _ | fd <;> trivial

theorem calls_connect {config : SocketConfig}
    (bounded : ∀ deadline call, allowed call → allowed (.within deadline call))
    (finds : allowed (.pathExists config.ctrlPath)) (connects : allowed (.connect config.ctrlPath))
    (client : ControlClient) : (ControlClient.connect config).Calls allowed client :=
  (calls_connectSocket bounded finds connects client).bind fun _ _ => trivial

theorem calls_orError {σ α : Type} (result : Except Error α) (s : σ) :
    (orError result : IpcM σ α).Calls allowed s := by
  cases result <;> trivial

theorem calls_orConnection {σ α : Type} (result : Except IoError α) (s : σ) :
    (orConnection result : IpcM σ α).Calls allowed s := by
  cases result <;> trivial

theorem calls_perform (writes : ∀ fd bytes, allowed (.writeAll fd bytes))
    (reads : ∀ fd count, allowed (.readExact fd count)) (r : Request) (client : ControlClient) :
    (r.perform T).Calls allowed client := by
  rw [Request.perform_eq]
  refine Async.Calls.bind ?_ fun resp s => calls_orError _ s
  refine Async.Calls.bind (m := get) trivial fun self s => ?_
  refine Async.Calls.bind (calls_await (writes _ _) s) fun written s => ?_
  refine Async.Calls.bind (calls_orConnection written s) fun _ s => ?_
  refine Async.Calls.bind (calls_await (reads _ _) s) fun answer s => ?_
  refine Async.Calls.bind (calls_orConnection answer s) fun bytes s => ?_
  split <;> trivial

theorem calls_subscribe {config : SocketConfig}
    (bounded : ∀ deadline call, allowed call → allowed (.within deadline call))
    (runs : allowed (.output "swupdate" ["--version"]))
    (finds : allowed (.pathExists config.progressPath))
    (connects : allowed (.connect config.progressPath))
    (reads : ∀ fd count, allowed (.readExact fd count)) (client : ProgressClient) :
    (ProgressClient.connect T config).Calls allowed client := by
  refine Async.Calls.bind ⟨runs, fun _ => trivial⟩ fun layout s => ?_
  refine Async.Calls.bind (calls_connectSocket bounded finds connects s) fun fd s => ?_
  show Async.Calls _ (ProgressClient.handshake T) _
  rw [ProgressClient.handshake_eq]
  refine Async.Calls.bind (Async.Calls.timeout ?_ (bounded _)) fun ack s => ?_
  · refine Async.Calls.bind (m := get) trivial fun self s => ?_
    refine Async.Calls.bind (calls_await (reads _ _) s) fun answer s => ?_
    exact Async.Calls.bind (calls_orConnection answer s) fun _ _ => trivial
  · split
    · trivial
    · split <;> trivial

end Calls

/-- A program whose calls are quiet leaves what is printed, and the images. -/
theorem exec_undisturbed {σ α : Type} {m : IpcM σ α} {c c' : Config σ (World τ)}
    {o : Outcome Error α} (calls : m.Calls SysCall.Quiet c.own)
    (exec : Exec (World.device mark) m c o c') : World.Undisturbed c.world c'.world :=
  (calls.mono fun _ quiet => World.quiet_guarantees quiet).exec World.Undisturbed.refl
    World.Undisturbed.trans exec

/-! ## What a command may send and print -/

/-- The request that a command makes. -/
def Command.request : Command → Option Request
  | .install _ _ source dryRun info => some (.install (installRequest source dryRun info))
  | .progress => none
  | .getStatus => some .getStatus
  | .getState => some .getUpdateState
  | .setState state => some (.setUpdateState state)
  | .postUpdate => some .postUpdate
  | .setAesKey key iv => some (.setAesKey key iv)
  | .setVersionsRange min max current updateType =>
      some (.setVersionsRange min max current updateType)
  | .getHwRevision => some .getHwRevision
  | .setVar varNamespace name value => some (.setSwupdateVar varNamespace name value)
  | .getVar varNamespace name => some (.getSwupdateVar varNamespace name)
  | .subprocess source cmd timeout => some (.subprocessCmd source cmd timeout)
  | .setDeltaUrl filename url => some (.setDeltaUrl filename url)

/-- The bytes of that request. -/
def Command.message (T : Target) (command : Command) : List UInt8 :=
  match command.request with
  | some r => (r.message T).bytes
  | none => []

/-- The image that a command streams. -/
def Command.image : Command → Option Image
  | .install file _ _ _ _ => some (imageOf file)
  | _ => none

/-- What that image gives when it is read. -/
def Command.contents (w : World τ) (command : Command) : List ReadResult :=
  match command.image with
  | some image => image.contents w
  | none => []

/-- How many connections a command may open. -/
def Command.connections : Command → Nat
  | .install _ true _ _ _ => 2
  | _ => 1

theorem Command.one_le_connections (command : Command) : 1 ≤ command.connections := by
  unfold connections
  split <;> omega

/-- The lines that a command prints about the value of its request. -/
def Command.report : Command → Value → List String
  | .getStatus, .status status =>
      [s!"Current:     {status.current.debug}", s!"Last result: {status.lastResult.debug}",
        s!"Error:       {status.error}"] ++
      if status.description.isEmpty then [] else [s!"Description: {status.description}"]
  | .getState, .state state => [state.debug]
  | .getHwRevision, .hwRevision rev => [s!"Board: {rev.boardname}", s!"Revision: {rev.revision}"]
  | .getVar _ _, .var var => [var.value]
  | .install _ _ _ _ _, _ => ["Install request accepted"]
  | .setState _, _ => ["State set"]
  | .postUpdate, _ => ["Post-update sent"]
  | .setAesKey _ _, _ => ["AES key set"]
  | .setVersionsRange _ _ _ _, _ => ["Versions range set"]
  | .setVar _ _ _, _ => ["Variable set"]
  | .subprocess _ _ _, _ => ["Subprocess command sent"]
  | .setDeltaUrl _ _, _ => ["Delta URL set"]
  | _, _ => []

/-- What is printed when the progress socket is connected to. -/
def connectedLine : String := "Connected to progress socket, waiting for events..."

/-- The one read of a connection took a reply. -/
def TookReply (conn : Conn τ) (resp : RawIpcMessage T) : Prop := conn.reads = [⟨resp.bytes, true⟩]

/-- The lines that a command may have printed, as its first connection is. -/
inductive Told (T : Target) (command : Command) (contents : List ReadResult) (conn : Conn τ) :
    List String → Prop where
  | nothing : Told T command contents conn []
  | answered {r : Request} {resp : RawIpcMessage T} {v : Value}
      (request : command.request = some r) (replied : TookReply conn resp)
      (decoded : r.decode resp = .ok v) : Told T command contents conn (command.report v)
  | streamed {r : Request} {resp : RawIpcMessage T} {v : Value} {image : Image}
      (request : command.request = some r) (streams : command.image = some image)
      (replied : TookReply conn resp)
      (decoded : r.decode resp = .ok v) (clean : readError contents = none)
      (whole : conn.sent.length = (command.message T).length + (delivered contents).length) :
      Told T command contents conn (command.report v ++ [streamedLine contents])
  | connected {ack : List UInt8} (watches : command = .progress)
      (greeted : conn.reads.head? = some ⟨ack, true⟩) (accepted : AckAccepted T ack) :
      Told T command contents conn [connectedLine]

/-- What a command has said on its first connection, and printed. -/
structure Spoken (T : Target) (mark : τ) (command : Command) (contents : List ReadResult)
    (conn : Conn τ) (lines : List String) : Prop where
  sent : ∃ part, part <+: command.message T ++ delivered contents ∧
    conn.sent = part.map (Prod.mk mark)
  granted : (command.message T).length < conn.sent.length →
    ∃ resp : RawIpcMessage T, TookReply conn resp ∧ resp.msgType = some .ack
  told : Told T command contents conn lines

/-- What a command leaves of an environment, when it has printed some lines. -/
structure Footprint (T : Target) (mark : τ) (command : Command) (w w' : World τ)
    (lines : List String) : Prop where
  older : ∀ fd, fd < w.opened → w'.conns fd = w.conns fd
  least : w.opened ≤ w'.opened
  most : w'.opened ≤ w.opened + command.connections
  silent : ∀ fd, w.opened < fd → fd < w'.opened → (w'.conns fd).sent = []
  printed : w'.printed = w.printed ++ lines
  unopened : w'.opened = w.opened → lines = []
  spoken : w.opened < w'.opened →
    Spoken T mark command (command.contents w) (w'.conns w.opened) lines

/-! ## Commands that make one request -/

/-- Print some lines. -/
def printAll {σ : Type} : List String → IpcM σ Unit
  | [] => pure ()
  | line :: rest => do
      println line
      printAll rest

/-- Make a request, and print what it was answered. -/
def ask (T : Target) (config : SocketConfig) (r : Request) (report : Value → List String) :
    CliM Unit := do
  (ControlClient.connect config).first
  let v ← (r.perform T).first
  printAll (report v)

/-- A command that makes a request and streams no image prints what it was answered. -/
theorem Cli.run_asks {defaults : SocketConfig} {schedule : List Turn} {fuel : Nat} {cli : Cli}
    {r : Request} (request : cli.command.request = some r) (only : cli.command.image = none) :
    cli.run T defaults schedule fuel = ask T (buildConfig defaults cli) r cli.command.report := by
  obtain ⟨ctrl, progress, command⟩ := cli
  cases command with
  | install => cases only
  | progress => cases request
  | getStatus =>
      cases request
      simp only [Cli.run, ask, Request.perform, Async.first_bind, bind_assoc]
      congr 1
      funext _
      congr 1
      funext status
      show _ = printAll (Command.report .getStatus (.status status))
      rw [Command.report]
      cases status.description.isEmpty <;> rfl
  | _ =>
      cases request
      simp only [Cli.run, ask, Request.perform, Async.first_bind, bind_assoc]
      rfl

theorem ends_println {σ : Type} (line : String) (c : Config σ (World τ)) :
    Ends (World.device mark) (println line) (fun _ => False)
      (fun _ c' => c' = ⟨c.own, { c.world with printed := c.world.printed ++ [line] }⟩) c := by
  rintro o c' (⟨_, w, printed, rfl, rfl⟩ | ⟨_, never, _⟩)
  · obtain rfl := printed
    exact ⟨fun _ _ => rfl, fun none => none () rfl⟩
  · exact never.elim

theorem ends_printAll {σ : Type} (lines : List String) (c : Config σ (World τ)) :
    Ends (World.device mark) (printAll lines) (fun _ => False)
      (fun _ c' => c' = ⟨c.own, { c.world with printed := c.world.printed ++ lines }⟩) c := by
  induction lines generalizing c with
  | nil =>
      refine .ret ?_
      rw [List.append_nil]
  | cons line rest ih =>
      refine .bind ((ends_println line c).imp (fun _ never => never) ?_)
      rintro _ c₁ rfl
      refine (ih _).imp (fun _ never => never) ?_
      rintro _ c' rfl
      rw [List.append_assoc]
      rfl

/-- A connect opens the connection that the client then holds, or it opens none. -/
theorem ends_connect (config : SocketConfig) (c : Config ControlClient (World τ)) :
    Ends (World.device mark) (ControlClient.connect config)
      (fun w' => w'.conns = c.world.conns ∧ w'.opened = c.world.opened ∧
        w'.printed = c.world.printed)
      (fun _ c' => ∃ peer, c' = ⟨⟨c.world.opened, config⟩, c.world.accept config.ctrlPath peer⟩)
      c := by
  intro o c' exec
  refine ⟨?_, fun failed => ?_⟩
  · rintro u rfl
    exact ControlClient.exec_connect_ok exec
  · have printed := (exec_undisturbed
      (calls_connect (fun _ _ quiet => quiet) trivial trivial c.own) exec).printed
    have kept : ∀ {c₁} {r : Outcome Error Nat},
        Exec (World.device mark) (config.connectSocket config.ctrlPath) c r c₁ →
          (∀ fd, r ≠ .ok fd) →
            c₁.world.conns = c.world.conns ∧ c₁.world.opened = c.world.opened := by
      intro c₁ r connecting none
      obtain ⟨_, ⟨peer, returned, _⟩ | ⟨_, kept⟩⟩ := SocketConfig.exec_connectSocket connecting
      · exact absurd returned (none _)
      · exact kept
    rcases exec_bind.mp exec with ⟨fd, c₁, _, rfl, _⟩ | ⟨e, rfl, first⟩ | ⟨rfl, first⟩
    · exact absurd rfl (failed ())
    · obtain ⟨conns, opened⟩ := kept first nofun
      exact ⟨conns, opened, printed⟩
    · obtain ⟨conns, opened⟩ := kept first nofun
      exact ⟨conns, opened, printed⟩

section Footprints

variable {command : Command} {w w' : World τ} {lines : List String}

theorem Footprint.none (older : ∀ fd, fd < w.opened → w'.conns fd = w.conns fd)
    (opened : w'.opened = w.opened) (printed : w'.printed = w.printed) :
    Footprint T mark command w w' [] where
  older := older
  least := by rw [opened]
  most := by omega
  silent fd newer older := by omega
  printed := by rw [printed, List.append_nil]
  unopened _ := rfl
  spoken more := by omega

theorem Footprint.first (opened : w'.opened = w.opened + 1)
    (older : ∀ fd, fd < w.opened → w'.conns fd = w.conns fd)
    (printed : w'.printed = w.printed ++ lines)
    (spoken : Spoken T mark command (command.contents w) (w'.conns w.opened) lines) :
    Footprint T mark command w w' lines where
  older := older
  least := by omega
  most := by
    have least := command.one_le_connections
    omega
  silent fd newer older := by omega
  printed := printed
  unopened same := by omega
  spoken _ := spoken

end Footprints

/-- What an exchange on a connection just opened does, however it ends. -/
theorem Exchange.first {α : Type} {msg : RawIpcMessage T}
    {decode : RawIpcMessage T → Except Error α} {w w' : World τ} {path : String} {peer : Peer τ}
    {o : Outcome Error α}
    (exchange : Exchange mark msg decode w.opened (w.accept path peer) o w') :
    w'.opened = w.opened + 1 ∧ (∀ fd, fd < w.opened → w'.conns fd = w.conns fd) ∧
      ∃ part, part <+: msg.bytes ∧ (w'.conns w.opened).sent = part.map (Prod.mk mark) := by
  cases exchange with
  | cutWrite written _ _ =>
      obtain ⟨older, new⟩ := w.accept_onConn path peer fun c => c.send mark _
      exact ⟨rfl, older, _, written, congrArg Conn.sent new⟩
  | cutRead _ _ _ _ =>
      rw [World.record_send]
      obtain ⟨older, new⟩ := w.accept_onConn path peer fun c => (c.send mark msg.bytes).record _
      exact ⟨rfl, older, _, List.prefix_refl _, congrArg Conn.sent new⟩
  | complete _ _ _ =>
      rw [World.record_send]
      obtain ⟨older, new⟩ := w.accept_onConn path peer fun c => (c.send mark msg.bytes).record _
      exact ⟨rfl, older, _, List.prefix_refl _, congrArg Conn.sent new⟩

/-- An exchange that returns a value there has read it off the one reply. -/
theorem Exchange.answered {α : Type} {msg : RawIpcMessage T}
    {decode : RawIpcMessage T → Except Error α} {w w' : World τ} {path : String} {peer : Peer τ}
    {a : α} (exchange : Exchange mark msg decode w.opened (w.accept path peer) (.ok a) w') :
    ∃ resp, decode resp = .ok a ∧ TookReply (w'.conns w.opened) resp ∧
      (w'.conns w.opened).sent = msg.bytes.map (Prod.mk mark) := by
  generalize returned : Outcome.ok a = o at exchange
  cases exchange with
  | cutWrite _ _ cut => exact absurd (returned ▸ cut) (not_cut_ok a)
  | cutRead _ _ _ cut => exact absurd (returned ▸ cut) (not_cut_ok a)
  | complete resp _ _ =>
      rw [World.record_send]
      obtain ⟨_, new⟩ := w.accept_onConn path peer fun c =>
        (c.send mark msg.bytes).record ⟨resp.bytes, true⟩
      refine ⟨resp, ?_, congrArg Conn.reads new, congrArg Conn.sent new⟩
      cases decoded : decode resp with
      | ok b =>
          rw [decoded] at returned
          cases returned
          rfl
      | error e =>
          rw [decoded] at returned
          cases returned

/-- A request was answered on the one connection opened since an environment. -/
structure Asked (T : Target) (mark : τ) (r : Request) (w : World τ) (v : Value)
    (c : Config (ControlClient × ProgressClient) (World τ)) : Prop where
  stream : c.own.1.stream = w.opened
  opened : c.world.opened = w.opened + 1
  older : ∀ fd, fd < w.opened → c.world.conns fd = w.conns fd
  sent : (c.world.conns w.opened).sent = (r.message T).bytes.map (Prod.mk mark)
  replied : ∃ resp : RawIpcMessage T,
    TookReply (c.world.conns w.opened) resp ∧ r.decode resp = .ok v
  undisturbed : World.Undisturbed w c.world

section Asking

variable {command : Command} {r : Request}

theorem Command.message_eq (request : command.request = some r) :
    command.message T = (r.message T).bytes := by
  rw [message, request]

/-- **Asking.** Unless the request is answered, a part of its message was sent, and nothing
was printed. -/
theorem ends_asked {config : SocketConfig} {rest : Value → CliM Unit}
    {c : Config (ControlClient × ProgressClient) (World τ)} {failed : World τ → Prop}
    {post : Unit → Config (ControlClient × ProgressClient) (World τ) → Prop}
    (request : command.request = some r)
    (unanswered : ∀ w', Footprint T mark command c.world w' [] → failed w')
    (answered : ∀ v c₁, Asked T mark r c.world v c₁ →
      Ends (World.device mark) (rest v) failed post c₁) :
    Ends (World.device mark) (do
      (ControlClient.connect config).first
      let v ← (r.perform T).first
      rest v) failed post c := by
  refine .bind ((ends_connect config _).first.imp ?_ ?_)
  · rintro w' ⟨conns, opened, printed⟩
    exact unanswered w' (.none (fun fd _ => congrFun conns fd) opened printed)
  · rintro _ c₁ ⟨⟨peer, connected⟩, _⟩
    have held : c₁.own.1 = ⟨c.world.opened, config⟩ := congrArg Config.own connected
    have accepted : c₁.world = c.world.accept config.ctrlPath peer :=
      congrArg Config.world connected
    refine .bind fun o c₂ exec => ?_
    obtain ⟨performed, _⟩ := exec_first exec
    obtain ⟨own, exchange⟩ := exec_perform performed
    obtain ⟨printed, readers, files⟩ := exec_undisturbed
      (calls_perform (fun _ _ => trivial) (fun _ _ => trivial) r _) performed
    change c₂.own.1 = c₁.own.1 at own
    change Exchange mark _ _ c₁.own.1.stream c₁.world o c₂.world at exchange
    change c₂.world.printed = c₁.world.printed at printed
    change c₂.world.readers = c₁.world.readers at readers
    change c₂.world.files = c₁.world.files at files
    rw [held, accepted] at exchange
    rw [accepted] at printed readers files
    obtain ⟨opened, older, part, written, sent⟩ := exchange.first
    refine ⟨?_, fun _ => unanswered _ (.first opened older ?_ ⟨⟨part, ?_, sent⟩, ?_, .nothing⟩)⟩
    · rintro v rfl
      obtain ⟨resp, decoded, replied, whole⟩ := exchange.answered
      refine answered v c₂ ⟨?_, opened, older, whole, ⟨resp, replied, decoded⟩, printed, readers,
        files⟩
      rw [own, held]
    · rw [List.append_nil]
      exact printed
    · rw [Command.message_eq request]
      exact written.trans (List.prefix_append _ _)
    · intro more
      have fewer := written.length_le
      rw [Command.message_eq request, sent, List.length_map] at more
      omega

/-- What was asked, and what was printed about the answer. -/
theorem Asked.footprint {w w' : World τ} {v : Value}
    {c : Config (ControlClient × ProgressClient) (World τ)} (asked : Asked T mark r w v c)
    (request : command.request = some r) (conns : w'.conns = c.world.conns)
    (opened : w'.opened = c.world.opened)
    (printed : w'.printed = c.world.printed ++ command.report v) :
    Footprint T mark command w w' (command.report v) := by
  obtain ⟨resp, replied, decoded⟩ := asked.replied
  refine .first (opened.trans asked.opened) ?_ ?_ ⟨?_, ?_, ?_⟩
  · intro fd old
    rw [conns, asked.older fd old]
  · rw [printed, asked.undisturbed.printed]
  · refine ⟨_, List.prefix_append _ _, ?_⟩
    rw [conns, asked.sent, Command.message_eq request]
  · intro more
    rw [conns, asked.sent, Command.message_eq request, List.length_map] at more
    omega
  · rw [conns]
    exact .answered request replied decoded

/-- Something is printed about every answer. -/
theorem Command.report_ne_nil {resp : RawIpcMessage T} {v : Value}
    (request : command.request = some r) (decoded : r.decode resp = .ok v) :
    command.report v ≠ [] := by
  cases command with
  | getStatus =>
      cases request
      cases status : Request.statusOf resp with
      | ok given =>
          simp only [Request.decode, status] at decoded
          cases decoded
          simp [report]
      | error e =>
          simp only [Request.decode, status] at decoded
          cases decoded
  | getState =>
      cases request
      cases state : Request.stateOf resp with
      | ok given =>
          simp only [Request.decode, state] at decoded
          cases decoded
          simp [report]
      | error e =>
          simp only [Request.decode, state] at decoded
          cases decoded
  | getHwRevision =>
      cases request
      cases decoded
      simp [report]
  | getVar =>
      cases request
      cases decoded
      simp [report]
  | progress => cases request
  | _ => simp [report]

/-- **A command that makes one request** prints what it was answered, or nothing. -/
theorem ends_ask {config : SocketConfig} {c : Config (ControlClient × ProgressClient) (World τ)}
    (request : command.request = some r) :
    Ends (World.device mark) (ask T config r command.report)
      (fun w' => Footprint T mark command c.world w' [])
      (fun _ c' => ∃ lines, Footprint T mark command c.world c'.world lines ∧ lines ≠ []) c := by
  refine ends_asked request (fun _ footprint => footprint) fun v c₁ asked => ?_
  refine (ends_printAll _ c₁).imp (fun _ never => never.elim) ?_
  rintro _ c' rfl
  obtain ⟨resp, _, decoded⟩ := asked.replied
  exact ⟨_, asked.footprint request rfl rfl rfl, Command.report_ne_nil request decoded⟩

end Asking

end SwupdateIpc
