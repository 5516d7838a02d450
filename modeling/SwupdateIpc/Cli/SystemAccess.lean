import SwupdateIpc.Cli.Executions
import SwupdateIpc.Foundations.CallHistories

/-!
# What a command asks of the system

Whatever the system answers, and however its tasks take turns, a command looks for and
connects to the sockets that it needs, and to no others: the control socket when it makes
a request, and the progress socket when it watches events. It opens no file but its image,
it reads the standard input only as an image, and of the other readers only those that it
was given for its image. It starts no program but `swupdate --version`, when it watches
(`Cli.Asks`, `Cli.asks_only`).

A socket is where the command line says, or in the directory that the environment variables
say, and in `/run/swupdate` or `/tmp` when none of them is set (`socketPaths`).
-/

set_option autoImplicit false

namespace SwupdateIpc

open Foundations Wire

variable {T : Target} {τ : Type} {mark : τ}

/-- Run a command line with the defaults of an environment. -/
def Cli.runWith (T : Target) (env : Environment) (schedule : List Turn) (fuel : Nat) (cli : Cli) :
    CliM Unit := do
  let defaults ← SocketConfig.default env
  cli.run T defaults schedule fuel

/-! ## Where the sockets may be -/

/-- The environment variables leave the directory of the sockets open. -/
def Environment.Unset (env : Environment) : Prop :=
  env "RUNTIME_DIRECTORY" = none ∧ env "TMPDIR" = none

/-- The directories in which the sockets may be. -/
def Environment.directories (env : Environment) : List String :=
  match env "RUNTIME_DIRECTORY", env "TMPDIR" with
  | some dir, _ => [dir]
  | none, some dir => [dir]
  | none, none => ["/run/swupdate", "/tmp"]

/-- The paths that a socket may have, when one may be given for it. -/
def socketPaths (env : Environment) (given : Option String) (socketName : String) : List String :=
  match given with
  | some path => [path]
  | none => env.directories.map fun dir => joinPath dir socketName

/-- The paths of the sockets that a command line may use. -/
def Cli.sockets (env : Environment) (cli : Cli) : List String :=
  (if cli.command.request.isSome then socketPaths env cli.ctrlSocket CTRL_SOCKET_NAME else []) ++
    if cli.command.watches then socketPaths env cli.progressSocket PROGRESS_SOCKET_NAME else []

/-- Opening a file gave this reader. -/
def fileOpened (path : String) (reader : Nat) : Event system where
  call := .openFile path
  answer := (.ok reader : Except IoError Nat)

/-- The calls that a command line may make, after some calls were answered. -/
def Cli.Asks (env : Environment) (cli : Cli) (past : List (Event system)) : SysCall → Prop
  | .pathExists path => path ∈ cli.sockets env ∨ path = "/run/swupdate" ∧ env.Unset
  | .connect path => path ∈ cli.sockets env
  | .writeAll _ _ => cli.command.request.isSome = true
  | .readExact _ _ => True
  | .shutdown _ => False
  | .openFile path => cli.command.image = some (.file path)
  | .read reader _ => cli.command.image = some (.reader reader) ∨
      ∃ path, cli.command.image = some (.file path) ∧ fileOpened path reader ∈ past
  | .output program arguments =>
      cli.command.watches = true ∧ program = "swupdate" ∧ arguments = ["--version"]
  | .print _ => True
  | .within _ call => cli.Asks env past call

theorem Cli.monotonic_asks (env : Environment) (cli : Cli) : Monotonic (I := system)
    (cli.Asks env) := by
  intro past more call inside asks
  induction call with
  | read reader capacity =>
      refine asks.imp id ?_
      rintro ⟨path, streams, opened⟩
      exact ⟨path, streams, inside opened⟩
  | within deadline call ih => exact ih asks
  | _ => exact asks

section Resolving

variable {σ α : Type} {allowed : List (Event system) → SysCall → Prop} {env : Environment}
  {past : List (Event system)}

/-- A program that goes on with the path of a socket. -/
theorem calls_resolve {socketName : String} {rest : String → IpcM σ α} {s : σ}
    (finds : env.Unset → allowed past (.pathExists "/run/swupdate"))
    (later : ∀ dir ∈ env.directories, ∀ more, past ⊆ more →
      (rest (joinPath dir socketName)).CallsAfter allowed more s) :
    (resolveSocketPath env socketName >>= rest).CallsAfter allowed past s := by
  rw [Environment.directories] at later
  rw [resolveSocketPath]
  cases first : env "RUNTIME_DIRECTORY" with
  | some dir =>
      rw [first] at later
      exact later dir (by simp) past (List.Subset.refl past)
  | none =>
      rw [first] at later
      cases second : env "TMPDIR" with
      | some dir =>
          rw [second] at later
          exact later dir (by simp) past (List.Subset.refl past)
      | none =>
          rw [second] at later
          refine ⟨finds ⟨first, second⟩, ?_⟩
          intro (found : Bool)
          cases found with
          | true => exact later "/run/swupdate" (by simp) _ (List.subset_cons_self _ past)
          | false => exact later "/tmp" (by simp) _ (List.subset_cons_self _ past)

/-- A program that goes on with the default configuration. -/
theorem calls_default {rest : SocketConfig → IpcM σ α} {s : σ}
    (finds : env.Unset → ∀ past, allowed past (.pathExists "/run/swupdate"))
    (later : ∀ config : SocketConfig, config.ctrlPath ∈ socketPaths env none CTRL_SOCKET_NAME →
      config.progressPath ∈ socketPaths env none PROGRESS_SOCKET_NAME →
        ∀ past, (rest config).CallsAfter allowed past s) :
    (SocketConfig.default env >>= rest).CallsAfter allowed past s := by
  rw [SocketConfig.default, bind_assoc]
  refine calls_resolve (fun unset => finds unset _) fun dir member more _ => ?_
  rw [bind_assoc]
  refine calls_resolve (fun unset => finds unset _) fun dir' member' more' _ => ?_
  exact later _ (List.mem_map_of_mem member) (List.mem_map_of_mem member') more'

end Resolving

/-! ## The calls of a command line -/

section Commands

variable {env : Environment} {cli : Cli} {past : List (Event system)}

theorem calls_printAll {σ : Type} (lines : List String) (s : σ) :
    (printAll lines : IpcM σ Unit).Calls (cli.Asks env past) s := by
  induction lines with
  | nil => trivial
  | cons line rest ih => exact ⟨trivial, fun _ => ih⟩

/-- The configuration has the paths that the command line may use. -/
theorem buildConfig_paths {defaults : SocketConfig}
    (ctrl : defaults.ctrlPath ∈ socketPaths env none CTRL_SOCKET_NAME)
    (progress : defaults.progressPath ∈ socketPaths env none PROGRESS_SOCKET_NAME) :
    (buildConfig defaults cli).ctrlPath ∈ socketPaths env cli.ctrlSocket CTRL_SOCKET_NAME ∧
      (buildConfig defaults cli).progressPath ∈
        socketPaths env cli.progressSocket PROGRESS_SOCKET_NAME := by
  obtain ⟨ctrlSocket, progressSocket, command⟩ := cli
  cases ctrlSocket <;> cases progressSocket <;>
    first
    | exact ⟨ctrl, progress⟩
    | exact ⟨ctrl, List.mem_singleton_self _⟩
    | exact ⟨List.mem_singleton_self _, progress⟩
    | exact ⟨List.mem_singleton_self _, List.mem_singleton_self _⟩

theorem Cli.mem_ctrl {path : String} (requests : cli.command.request.isSome = true)
    (member : path ∈ socketPaths env cli.ctrlSocket CTRL_SOCKET_NAME) : path ∈ cli.sockets env := by
  rw [Cli.sockets, if_pos requests]
  exact List.mem_append_left _ member

theorem Cli.mem_progress {path : String} (watches : cli.command.watches = true)
    (member : path ∈ socketPaths env cli.progressSocket PROGRESS_SOCKET_NAME) :
    path ∈ cli.sockets env := by
  rw [Cli.sockets, if_pos watches]
  exact List.mem_append_right _ member

theorem returns_await {σ : Type} (call : SysCall) (s : σ) :
    (await call : IpcM σ call.Answer).Returns (fun _ after => after = s) s := by
  intro r
  exact rfl

theorem returns_orConnection {σ α : Type} (result : Except IoError α) (s : σ) :
    (orConnection result : IpcM σ α).Returns (fun _ after => after = s) s := by
  cases result with
  | ok a => exact rfl
  | error e => trivial

theorem returns_orError {σ α : Type} (result : Except Error α) (s : σ) :
    (orError result : IpcM σ α).Returns (fun _ after => after = s) s := by
  cases result with
  | ok a => exact rfl
  | error e => trivial

theorem returns_sendAndReceive (msg : RawIpcMessage T) (client : ControlClient) :
    (ControlClient.sendAndReceive T msg).Returns (fun _ after => after = client) client := by
  have own : (get : IpcM ControlClient ControlClient).Returns
      (fun self after => self = client ∧ after = client) client := ⟨rfl, rfl⟩
  refine own.bind ?_
  rintro self _ ⟨rfl, rfl⟩
  refine (returns_await _ _).bind ?_
  rintro written _ rfl
  refine (returns_orConnection _ _).bind ?_
  rintro _ _ rfl
  refine (returns_await _ _).bind ?_
  rintro answer _ rfl
  refine (returns_orConnection _ _).bind ?_
  rintro bytes _ rfl
  split
  · exact rfl
  · trivial

/-- A request leaves its client as it is. -/
theorem returns_perform (r : Request) (client : ControlClient) :
    (r.perform T).Returns (fun _ after => after = client) client := by
  rw [Request.perform_eq]
  refine (returns_sendAndReceive _ client).bind ?_
  rintro resp _ rfl
  exact returns_orError _ _

/-- A connect to the control socket and a request. -/
theorem calls_asked {config : SocketConfig} {α : Type} {rest : Value → CliM α} {r : Request}
    (requests : cli.command.request.isSome = true)
    (member : config.ctrlPath ∈ socketPaths env cli.ctrlSocket CTRL_SOCKET_NAME)
    (later : ∀ v s past, s.1.config = config → (rest v).CallsAfter (cli.Asks env) past s)
    (own : ControlClient × ProgressClient) :
    (do
      (ControlClient.connect config).first
      let v ← (r.perform T).first
      rest v : CliM α).CallsAfter (cli.Asks env) past own := by
  have here := Cli.mem_ctrl requests member
  have monotonic := cli.monotonic_asks env
  have connects : (ControlClient.connect config).Calls (cli.Asks env past) own.1 :=
    calls_connect (fun _ _ asks => asks) (.inl here) here own.1
  have holds : (ControlClient.connect config).Returns (fun _ client => client.config = config)
      own.1 :=
    Async.Returns.bind (Async.Returns.trivially _ _) fun _ _ _ => rfl
  refine (connects.after monotonic).first.bind holds.first fun _ s more _ held => ?_
  have performs : (r.perform T).Calls (cli.Asks env more) s.1 :=
    calls_perform (fun _ _ => requests) (fun _ _ => trivial) r s.1
  refine (performs.after monotonic).first.bind (returns_perform r s.1).first ?_
  intro v s' later' _ same
  exact later v s' later' (by rw [same, held])

/-- A subscription to the progress socket. -/
theorem calls_subscribed {config : SocketConfig} (watches : cli.command.watches = true)
    (member : config.progressPath ∈ socketPaths env cli.progressSocket PROGRESS_SOCKET_NAME)
    (own : ControlClient × ProgressClient) :
    (ProgressClient.connect T config).second.CallsAfter (cli.Asks env) past own := by
  have here := Cli.mem_progress watches member
  have subscribes : (ProgressClient.connect T config).Calls (cli.Asks env past) own.2 :=
    calls_subscribe (fun _ _ asks => asks) ⟨watches, rfl, rfl⟩ (.inl here) here (fun _ _ => trivial)
      own.2
  exact (subscribes.after (cli.monotonic_asks env)).second

/-- Streaming reads the standard input, or the reader that it was given for its file. -/
theorem calls_streamed {file : Option String} {fuel : Nat}
    (streams : cli.command.image = some (imageOf file))
    (requests : cli.command.request.isSome = true) (client : ControlClient) :
    (streamImage file fuel).CallsAfter (cli.Asks env) past client := by
  have monotonic := cli.monotonic_asks env
  have loops : ∀ {reader more}, (∀ capacity, cli.Asks env more (.read reader capacity)) →
      (Installation.stream reader fuel).CallsAfter (cli.Asks env) more client := by
    intro reader more reads
    exact (calls_streamLoop reads (fun _ => requests) fuel _ _).after monotonic
  rw [streamImage_eq]
  refine Async.CallsAfter.bind ?_ (Async.Returns.trivially _ _) fun _ _ _ _ _ =>
    ⟨trivial, fun _ => trivial⟩
  cases file with
  | none => exact loops fun _ => .inl streams
  | some path =>
      refine ⟨streams, ?_⟩
      intro opened
      cases opened with
      | error e => trivial
      | ok reader => exact loops fun _ => .inr ⟨path, streams, List.mem_cons_self⟩

theorem calls_watched {fuel : Nat} (client : ProgressClient) :
    (watch T fuel).CallsAfter (cli.Asks env) past client := by
  refine Async.Calls.after (cli.monotonic_asks env) ((calls_watch client fuel).mono ?_)
  rintro _ ⟨count, rfl⟩
  trivial

/-- A command makes the calls that it may make, with the paths of its sockets. -/
theorem calls_run {defaults : SocketConfig} {schedule : List Turn} {fuel : Nat}
    (ctrl : (buildConfig defaults cli).ctrlPath ∈
      socketPaths env cli.ctrlSocket CTRL_SOCKET_NAME)
    (progress : (buildConfig defaults cli).progressPath ∈
      socketPaths env cli.progressSocket PROGRESS_SOCKET_NAME)
    (own : ControlClient × ProgressClient) :
    (cli.run T defaults schedule fuel).CallsAfter (cli.Asks env) past own := by
  have monotonic := cli.monotonic_asks env
  cases command : cli.command with
  | install file monitored source dryRun info =>
      have requests : cli.command.request.isSome = true := by rw [command]; rfl
      have streams : cli.command.image = some (imageOf file) := by rw [command]; rfl
      rw [Cli.run_install command]
      refine calls_asked requests ctrl ?_ own
      intro _ s past held
      refine ⟨trivial, ?_⟩
      intro _
      cases monitored with
      | false => exact (calls_streamed streams requests s.1).first
      | true =>
          have watches : cli.command.watches = true := by rw [command]; rfl
          refine Async.CallsAfter.bind (m := Installation.progress T) ?_
            (Async.Returns.trivially _ _) fun _ s' more _ _ => ?_
          · show (ProgressClient.connect T s.1.config).second.CallsAfter (cli.Asks env) _ s
            rw [held]
            exact calls_subscribed watches progress s
          · refine Async.CallsAfter.bind ?_ (Async.Returns.trivially _ _) fun _ _ _ _ _ => trivial
            exact (calls_streamed streams requests s'.1).tryJoin monotonic (calls_watched s'.2)
              fun _ _ asks => asks
  | progress =>
      have watches : cli.command.watches = true := by rw [command]; rfl
      rw [Cli.run, command]
      refine Async.CallsAfter.bind (calls_subscribed watches progress own)
        (Async.Returns.trivially _ _) fun _ s more _ _ => ?_
      exact ⟨trivial, fun _ => (calls_watched s.2).second⟩
  | _ =>
      have requests : cli.command.request.isSome = true := by rw [command]; rfl
      rw [Cli.run_asks (by rw [command]; rfl) (by rw [command]; rfl)]
      exact calls_asked requests ctrl
        (fun _ s past _ => Async.Calls.after monotonic (calls_printAll _ s)) own

end Commands

/-! ## What a command leaves alone -/

section Sparing

variable {env : Environment} {cli : Cli} {w w₁ w' : World τ}

/-- A command has met only the peers that wait at its sockets, and it has taken no attempt at
another path. It has started no program unless it needs one, it has opened no file unless its
image is one, and what the other readers have to give is as before. -/
structure Spared (env : Environment) (cli : Cli) (w w' : World τ) : Prop where
  opened : w.opened ≤ w'.opened
  peers : ∀ fd, fd < w.opened → (w'.conns fd).peer = (w.conns fd).peer
  left : ∀ path, w'.attempts path <:+ w.attempts path
  attempts : ∀ path, path ∉ cli.sockets env → ¬ (path = "/run/swupdate" ∧ env.Unset) →
    w'.attempts path = w.attempts path
  met : ∀ fd, w.opened ≤ fd → fd < w'.opened →
    ∃ path ∈ cli.sockets env, .accepted (w'.conns fd).peer ∈ w.attempts path
  outputs : cli.command.watches = false → w'.outputs = w.outputs
  started : w.started ≤ w'.started
  unopened : (∀ path, cli.command.image ≠ some (.file path)) → w'.started = w.started
  readers : ∀ n, cli.command.image ≠ some (.reader n) →
    (∀ path, cli.command.image = some (.file path) → n < w.started) →
      w'.readers n = w.readers n

/-- Nothing happened but on the connections, and to the programs that are needed. -/
theorem Spared.inside (opened : w'.opened = w.opened)
    (peers : ∀ fd, (w'.conns fd).peer = (w.conns fd).peer) (attempts : w'.attempts = w.attempts)
    (outputs : cli.command.watches = false → w'.outputs = w.outputs)
    (started : w'.started = w.started) (readers : w'.readers = w.readers) :
    Spared env cli w w' where
  opened := opened.ge
  peers fd _ := peers fd
  left path := attempts ▸ List.suffix_refl _
  attempts path _ _ := by rw [attempts]
  met fd older newer := by omega
  outputs := outputs
  started := started.ge
  unopened _ := started
  readers n _ _ := by rw [readers]

theorem Spared.refl (w : World τ) : Spared env cli w w :=
  .inside rfl (fun _ => rfl) rfl (fun _ => rfl) rfl rfl

theorem Spared.trans (first : Spared env cli w w₁) (second : Spared env cli w₁ w') :
    Spared env cli w w' where
  opened := first.opened.trans second.opened
  peers fd older :=
    (second.peers fd (older.trans_le first.opened)).trans (first.peers fd older)
  left path := (second.left path).trans (first.left path)
  attempts path other unset :=
    (second.attempts path other unset).trans (first.attempts path other unset)
  met fd older newer := by
    by_cases before : fd < w₁.opened
    · rw [second.peers fd before]
      exact first.met fd older before
    · obtain ⟨path, member, waits⟩ := second.met fd (Nat.le_of_not_lt before) newer
      exact ⟨path, member, (first.left path).subset waits⟩
  outputs unwatched := (second.outputs unwatched).trans (first.outputs unwatched)
  started := first.started.trans second.started
  unopened none := (second.unopened none).trans (first.unopened none)
  readers n other older := by
    rw [second.readers n other fun path file => (older path file).trans_le first.started]
    exact first.readers n other older

/-- Something happened on one connection. -/
theorem Spared.onConn (fd : Nat) {change : Conn τ → Conn τ}
    (kept : ∀ c, (change c).peer = c.peer) : Spared env cli w (w.onConn fd change) :=
  .inside rfl (fun other => World.observe_onConn Conn.peer change kept w fd other) rfl
    (fun _ => rfl) rfl rfl

/-- An attempt at a path is over. -/
theorem Spared.attempted {path : String}
    (member : path ∈ cli.sockets env ∨ path = "/run/swupdate" ∧ env.Unset) :
    Spared env cli w (w.attempted path) where
  opened := Nat.le_refl _
  peers _ _ := rfl
  left other := w.attempts_attempted path other
  attempts other apart unset := by
    have distinct : other ≠ path := by
      rintro rfl
      exact member.elim apart unset
    rw [World.attempted]
    simp only [Function.update_of_ne distinct]
  met fd older newer := absurd newer (Nat.not_lt.mpr older)
  outputs _ := rfl
  started := Nat.le_refl _
  unopened _ := rfl
  readers _ _ _ := rfl

/-- A connection was opened to the peer that waits at a socket. -/
theorem Spared.accept {path : String} (member : path ∈ cli.sockets env) {peer : Peer τ}
    {rest : List (Attempt τ)} (next : w.attempts path = .accepted peer :: rest) :
    Spared env cli w (w.accept path peer) := by
  have tried : Spared env cli w (w.attempted path) := .attempted (.inl member)
  refine ⟨Nat.le_succ _, ?_, tried.left, tried.attempts, ?_, tried.outputs, tried.started,
    tried.unopened, tried.readers⟩
  · intro fd older
    rw [World.conns_accept_old _ _ _ older]
  · intro fd older newer
    obtain rfl : fd = w.opened := by
      rw [World.opened_accept] at newer
      omega
    refine ⟨path, member, ?_⟩
    rw [World.conns_accept_new, next]
    exact List.mem_cons_self

/-- An image was opened. -/
theorem Spared.openFile {path : String} (streams : cli.command.image = some (.file path)) :
    Spared env cli w (w.openFile path).2 := by
  rw [World.openFile]
  split
  · exact .refl w
  · refine ⟨Nat.le_refl _, fun _ _ => rfl, fun _ => List.suffix_rfl, fun _ _ _ => rfl, ?_,
      fun _ => rfl, Nat.le_succ _, fun none => absurd streams (none path), ?_⟩
    · exact fun fd older newer => absurd newer (Nat.not_lt.mpr older)
    · intro n _ older
      exact Function.update_of_ne (older path streams).ne _ _

/-- A reader that was not there before, or is the image, was read. -/
theorem Spared.readFrom (spared : Spared env cli w w₁) {reader : Nat} (capacity : Nat)
    (reads : cli.command.image = some (.reader reader) ∨
      ∃ path, cli.command.image = some (.file path) ∧ w.started ≤ reader) :
    Spared env cli w (w₁.readFrom reader capacity).2 := by
  have distinct : ∀ n, cli.command.image ≠ some (.reader n) →
      (∀ path, cli.command.image = some (.file path) → n < w.started) → n ≠ reader := by
    rintro n other older rfl
    rcases reads with image | ⟨path, file, newer⟩
    · exact other image
    · exact absurd (older path file) (Nat.not_lt.mpr newer)
  have kept : ∀ left, Spared env cli w
      { w₁ with readers := Function.update w₁.readers reader left } := by
    intro left
    refine ⟨spared.opened, spared.peers, spared.left, spared.attempts, spared.met, spared.outputs,
      spared.started, spared.unopened, fun n other older => ?_⟩
    exact (Function.update_of_ne (distinct n other older) _ _).trans (spared.readers n other older)
  rw [World.readFrom]
  split
  · exact spared
  · exact kept _
  · exact kept _

/-- The readers that a command was given were not there before. -/
def Given (w : World τ) (past : List (Event system)) : Prop :=
  ∀ path reader, fileOpened path reader ∈ past → w.started ≤ reader

/-- **The calls that a command may make** spare the rest of the system. -/
theorem Spared.changed {past : List (Event system)} {call : SysCall}
    (spared : Spared env cli w w₁) (given : Given w past) (asks : cli.Asks env past call)
    (changed : World.Changed mark w₁ call w') : Spared env cli w w' := by
  induction changed with
  | nothing call => exact spared
  | missed path => exact spared.trans (.attempted asks)
  | tried path => exact spared.trans (.attempted (.inl asks))
  | accepted next => exact spared.trans (.accept asks next)
  | wrote fd inside => exact spared.trans (.onConn fd fun _ => rfl)
  | took fd count inside => exact spared.trans (.onConn fd fun _ => rfl)
  | shut fd => exact asks.elim
  | opened path => exact spared.trans (.openFile asks)
  | read reader capacity =>
      refine spared.readFrom capacity (asks.imp id ?_)
      rintro ⟨path, file, opened⟩
      exact ⟨path, file, given path reader opened⟩
  | ran program arguments =>
      rw [World.snd_output]
      refine spared.trans (.inside rfl (fun _ => rfl) rfl ?_ rfl rfl)
      intro unwatched
      rw [asks.1] at unwatched
      cases unwatched
  | printed line =>
      exact spared.trans (.inside rfl (fun _ => rfl) rfl (fun _ => rfl) rfl rfl)
  | within deadline changed ih => exact ih asks

/-- A reader that was given just now was not there before. -/
theorem Given.answered {past : List (Event system)} {call : SysCall} {r : call.Answer}
    (given : Given w past) (spared : Spared env cli w w₁)
    (answered : World.Answers mark call w₁ r w') : Given w (⟨call, r⟩ :: past) := by
  intro path reader member
  rcases List.mem_cons.mp member with same | earlier
  · cases same
    change (_, w') = w₁.openFile path at answered
    rw [World.openFile] at answered
    split at answered
    · cases answered
    · cases answered
      exact spared.started
  · exact given path reader earlier

end Sparing

/-- **What a command asks of the system.** Whatever it is answered, a command line makes
only the calls that it may make then. So it meets only the peers that wait at its sockets, it
takes no attempt at another path, it opens no file and reads no reader but those of its
image, and it starts no program unless it needs one, however it ends. -/
theorem Cli.asks_only (T : Target) (mark : τ) (env : Environment) (schedule : List Turn)
    (fuel : Nat) (cli : Cli) (own : ControlClient × ProgressClient) :
    (cli.runWith T env schedule fuel).CallsAfter (cli.Asks env) [] own ∧
      ∀ (w w' : World τ) own' o, Exec (World.device mark) (cli.runWith T env schedule fuel)
        ⟨own, w⟩ o ⟨own', w'⟩ → Spared env cli w w' := by
  have calls : (cli.runWith T env schedule fuel).CallsAfter (cli.Asks env) [] own := by
    refine calls_default (fun unset _ => .inr ⟨rfl, unset⟩) fun defaults ctrl progress past => ?_
    obtain ⟨ctrl, progress⟩ := @buildConfig_paths env cli defaults ctrl progress
    exact calls_run ctrl progress own
  refine ⟨calls, fun w w' own' o exec => ?_⟩
  let Kept (past : List (Event system)) (w₁ : World τ) : Prop := Spared env cli w w₁ ∧ Given w past
  have answers : ∀ past call w₁ r w₂, cli.Asks env past call → Kept past w₁ →
      (World.device mark).answers call w₁ r w₂ → Kept (⟨call, r⟩ :: past) w₂ := by
    rintro past call w₁ r w₂ asks ⟨spared, given⟩ answered
    exact ⟨spared.changed given asks (World.changed_answers answered),
      given.answered spared answered⟩
  have drops : ∀ past call w₁ w₂, cli.Asks env past call → Kept past w₁ →
      (World.device mark).drops call w₁ w₂ → Kept past w₂ := by
    rintro past call w₁ w₂ asks ⟨spared, given⟩ dropped
    exact ⟨spared.changed given asks (World.changed_drops dropped), given⟩
  obtain ⟨_, spared, _⟩ := Async.CallsAfter.exec answers drops calls
    (c := ⟨own, w⟩) ⟨.refl w, nofun⟩ exec
  exact spared

end SwupdateIpc
