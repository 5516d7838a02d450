import SwupdateIpc.Control.Daemons

/-!
# The sessions of a service

A service allows requests, and after an installation that it accepts, images, until the
handle is dropped (`Service.Allowed`). The operations that run to completion on one
connection with a daemon are allowed, with the answers of the service for their results
(`Connected.simulates`). On sockets without failures, what the service allows next can
be done (`Session.realizes`). So the sessions of the clients of a daemon are the sessions
of its service (`sessions_are_the_service`).
-/

set_option autoImplicit false

namespace SwupdateIpc

open Foundations Wire

/-! ## Sessions of a service -/

/-- An operation as it concerns the service, with its outcome. -/
inductive Served where
  | request (r : Request) (o : Outcome Error Value)
  | image (bytes : List UInt8)
  | release

/-- Whether an answer begins an installation. -/
def Request.begins : Request → Answer → Bool
  | .install _, .ack => true
  | _, _ => false

/-- What a service allows. Its state comes with whether an installation is going on. -/
inductive Service.Allowed (T : Target) (service : Service) :
    Transition (service.State × Bool) Served → Prop where
  | request (state : service.State) (r : Request) :
      Allowed T service ⟨(state, false),
        .request r (outcomeOf ((service.answer state (r.received T)).2.result r)),
        ((service.answer state (r.received T)).1,
          r.begins (service.answer state (r.received T)).2)⟩
  | image (state : service.State) (bytes : List UInt8) :
      Allowed T service ⟨(state, true), .image bytes, (bytes.foldl service.image state, true)⟩
  | release (state : service.State) : Allowed T service ⟨(state, true), .release, (state, false)⟩

/-- The operation without its outcome. -/
def Served.operation : Served → Served
  | .request r _ => .request r .dropped
  | v => v

/-- The service tells the outcome of an operation. -/
theorem Service.Allowed.unique {T : Target} {service : Service} {x y y' : service.State × Bool}
    {v v' : Served} (allowed : service.Allowed T ⟨x, v, y⟩)
    (allowed' : service.Allowed T ⟨x, v', y'⟩)
    (same : v.operation = v'.operation) : v = v' ∧ y = y' := by
  cases allowed <;> cases allowed' <;> cases same <;> exact ⟨rfl, rfl⟩

/-- What the service sees of an operation that ran to completion. -/
def servedBy (e : Transition Session Done) : Option Served :=
  match e.label with
  | ⟨.request r, o⟩ => some (.request r o)
  | ⟨.stream image _, _⟩ => some (.image (delivered (image.contents e.before.net)))
  | ⟨.release, _⟩ => some .release
  | ⟨.reconnect, _⟩ => none

/-- The handle of an installation is alive after a request that began one. -/
theorem handle_begins (r : Request) (answer : Answer) :
    Done.handle ⟨.request r, outcomeOf (answer.result r)⟩ = r.begins answer := by
  cases r <;> cases answer <;> rfl

/-! ## Clients simulate the service -/

section Simulation

variable {T : Target} {service : Service} {d : Daemon T service} {s s' : Session}
  {es : List (Transition Session Done)} {e : Transition Session Done} {state : service.State}

/-- A completed transfer sent all that the image gives. -/
theorem Completed.sentBy_stream {image : Image} {fuel : Nat} {n : UInt64} (step : Step T e)
    (proper : e.before.Proper) (label : e.label = ⟨.stream image fuel, .ok n⟩) :
    sentBy e = delivered (image.contents e.before.net) := by
  obtain ⟨effect, _⟩ := step.effect proper
  rw [label] at effect
  have after : connAfter e =
      e.before.conn.send .image (delivered (image.contents e.before.net)) := by
    change Effect T e.before _ (connAfter e) at effect
    generalize connAfter e = conn at effect
    cases effect with
    | streamed inside unsent whole => rw [(whole n rfl).1]
  rw [sentBy, after, Conn.sent_send, List.drop_left, List.map_map]
  exact List.map_id _

/-- **A completed operation is one that the service allows.** -/
theorem Step.simulates (step : Step T e) (proper : e.before.Proper)
    (attended : Attended d state e.before.conn) (completed : Completed e) :
    Attended d (service.step T state e) e.after.conn ∧
      ∃ v, servedBy e = some v ∧ service.Allowed T
        ⟨(state, e.before.installing), v, (service.step T state e, e.after.installing)⟩ := by
  have uncut : ∀ r o, e.label = ⟨.request r, o⟩ → ¬ Cut o := by
    intro r o label
    rwa [Completed, label] at completed
  refine ⟨completed.conn_after step proper ▸ step.attended proper attended uncut, ?_⟩
  obtain ⟨effect, _⟩ := step.effect proper
  have permitted := step.1
  have handle := step.2.2
  rw [← permitted, handle]
  obtain ⟨t, ⟨action, o⟩, t'⟩ := e
  cases action with
  | request r =>
      obtain ⟨resp, returned, _, read, _⟩ := effect.completed (uncut r o rfl)
      obtain rfl : o = outcomeOf ((service.answer state (r.received T)).2.result r) := by
        rw [returned, (attended.request read).1]
      refine ⟨_, rfl, ?_⟩
      have allowed := Service.Allowed.request (T := T) state r
      rw [← handle_begins] at allowed
      exact allowed
  | stream image fuel =>
      obtain ⟨n, rfl⟩ : ∃ n, o = .ok n := completed
      have sent : sentBy ⟨t, ⟨.stream image fuel, .ok n⟩, t'⟩ =
          delivered (image.contents t.net) := Completed.sentBy_stream step proper rfl
      refine ⟨_, rfl, ?_⟩
      rw [Service.step, sent]
      exact .image state _
  | release => exact ⟨_, rfl, .release state⟩
  | reconnect => exact completed.elim

/-- **A run of completed operations is a session of the service.** -/
theorem Connected.simulates (connected : Connected s) (peer : s.conn.peer = d.peer)
    (run : Run (Step T) s es s') (completed : ∀ e ∈ es, Completed e) :
    ∃ ts state, Run (service.Allowed T) (service.start, false) ts (state, s'.installing) ∧
      ts.map Transition.label = es.filterMap servedBy ∧ Attended d state s'.conn := by
  induction run with
  | start =>
      obtain ⟨_, p, fresh⟩ := connected.fresh
      refine ⟨[], service.start, ?_, rfl, ?_⟩
      · rw [connected.1]
        exact .start
      · rw [fresh] at peer ⊢
        exact .fresh peer
  | @step es e run step ih =>
      obtain ⟨ts, state, earlier, labels, attended⟩ :=
        ih fun x member => completed x (List.mem_append_left _ member)
      obtain ⟨attended', v, seen, allowed⟩ := step.simulates (connected.run_proper run) attended
        (completed e (by simp))
      refine ⟨ts ++ [⟨(state, e.before.installing), v, _⟩], _,
        Run.step (e := ⟨(state, e.before.installing), v, _⟩) earlier allowed, ?_, attended'⟩
      rw [List.map_append, List.filterMap_append, labels, List.filterMap_cons_some seen]
      rfl

end Simulation

/-! ## Clients realize the service -/

/-- A client that connects where a peer waits is connected. -/
theorem connected_accept (config : SocketConfig) {w : World Origin} {peer : Peer Origin}
    {rest : List (Attempt Origin)} (next : w.attempts config.ctrlPath = .accepted peer :: rest) :
    Connected ⟨⟨w.opened, config⟩, w.accept config.ctrlPath peer, false⟩ := by
  let c : Config ControlClient (World Origin) := ⟨⟨0, config⟩, w⟩
  have accepted : run (World.serve .request) config.connectCtrl c =
      (.ok w.opened, ⟨c.own, w.accept config.ctrlPath peer⟩) := by
    have here : c.world.attempts config.ctrlPath = .accepted peer :: rest := next
    rw [SocketConfig.connectCtrl, SocketConfig.run_connectSocket, here]
  have exec := World.exec_serve Origin.request (ControlClient.connect config) c
  rw [ControlClient.connect, run_bind_ok accepted] at exec
  exact ⟨rfl, config, c, exec⟩

/-- A file name that says what the file holds. -/
def nameOf (bytes : List UInt8) : String := String.ofList (bytes.map fun b => Char.ofNat b.toNat)

/-- What a file of that name holds. -/
def bytesNamed (path : String) : List UInt8 := path.toList.map fun c => UInt8.ofNat c.toNat

theorem bytesNamed_nameOf (bytes : List UInt8) : bytesNamed (nameOf bytes) = bytes := by
  rw [bytesNamed, nameOf, String.toList_ofList, List.map_map]
  refine List.map_id'' (fun b => ?_) bytes
  have valid : b.toNat.isValidChar := .inl (by have := b.toNat_lt; omega)
  show UInt8.ofNat (Char.ofNat b.toNat).toNat = b
  rw [Char.toNat, Char.ofNat, dif_pos valid]
  exact UInt8.ofNat_toNat

/-- An environment in which a peer waits, and every image is in a file. -/
def World.mounted (config : SocketConfig) (peer : Peer Origin) : World Origin :=
  { World.offering config peer (fun _ => []) with
    files := fun path => .ok [.data (bytesNamed path)] }

/-- The session of a client that has just connected there. -/
def Session.mounted (config : SocketConfig) (peer : Peer Origin) : Session where
  client := ⟨0, config⟩
  net := (World.mounted config peer).accept config.ctrlPath peer
  installing := false

theorem connected_mounted (config : SocketConfig) (peer : Peer Origin) :
    Connected (.mounted config peer) :=
  @connected_accept config (World.mounted config peer) peer [] (if_pos rfl)

theorem delivered_data (bytes : List UInt8) :
    delivered [.data bytes] = bytes ∧ endsCleanly [.data bytes] = true := by
  cases bytes with
  | nil => exact ⟨rfl, rfl⟩
  | cons b bs => exact ⟨List.append_nil _, rfl⟩

section Realization

variable {T : Target} {service : Service} {d : Daemon T service} {s : Session}
  {state : service.State}

/-- **What the service allows can be done**, on sockets without failures. -/
theorem Session.realizes (proper : s.Proper) (attended : Attended d state s.conn)
    (writable : s.conn.closed = false)
    (files : ∀ path, s.net.files path = .ok [.data (bytesNamed path)])
    {v : Served} {after : service.State × Bool}
    (allowed : service.Allowed T ⟨(state, s.installing), v, after⟩) :
    ∃ e, e.before = s ∧ Step T e ∧ Completed e ∧ servedBy e = some v ∧
      (service.step T state e, e.after.installing) = after ∧
        Attended d (service.step T state e) e.after.conn := by
  obtain ⟨a, permitted, ready, operation⟩ : ∃ a : Action, a.onHandle = s.installing ∧
      Ready T s a ∧ ∀ o s', (servedBy ⟨s, ⟨a, o⟩, s'⟩).map Served.operation = some v.operation := by
    generalize s.installing = b at allowed
    cases allowed with
    | request _ r =>
        exact ⟨.request r, rfl, attended.ready r, fun _ _ => rfl⟩
    | image _ bytes =>
        have contents : (Image.file (nameOf bytes)).contents s.net = [.data bytes] := by
          rw [Image.contents_file (files _), bytesNamed_nameOf]
        obtain ⟨whole, clean⟩ := delivered_data bytes
        refine ⟨.stream (.file (nameOf bytes)) (bytes.length + 1), rfl, ?_, fun _ _ => ?_⟩
        · rw [Ready, contents, whole]
          exact ⟨clean, Nat.lt_succ_self _⟩
        · simp only [servedBy, contents, whole]
          rfl
    | release => exact ⟨.release, rfl, trivial, fun _ _ => rfl⟩
  have step : Step T (s.served T a) := step_served permitted
  have completed : Completed (s.served T a) := served_completes writable ready
  obtain ⟨attended', v', seen, allowed'⟩ := step.simulates proper attended completed
  have same : v.operation = v'.operation := by
    have told := operation (s.served T a).label.outcome (s.served T a).after
    change (servedBy (s.served T a)).map Served.operation = _ at told
    rw [seen] at told
    exact (Option.some.inj told).symm
  obtain ⟨rfl, ends⟩ := allowed.unique allowed' same
  exact ⟨s.served T a, rfl, step, completed, seen, ends.symm, attended'⟩

/-- Each session of a service is one of a client of its daemon. -/
theorem Session.realized (config : SocketConfig) (d : Daemon T service)
    {ts : List (Transition (service.State × Bool) Served)} {final : service.State × Bool}
    (session : Run (service.Allowed T) (service.start, false) ts final) :
    ∃ es s', Run (Step T) (.mounted config d.peer) es s' ∧ (∀ e ∈ es, Completed e) ∧
      es.filterMap servedBy = ts.map Transition.label ∧ Attended d final.1 s'.conn ∧
        s'.installing = final.2 := by
  have connected := connected_mounted config d.peer
  induction session with
  | start =>
      refine ⟨[], _, .start, by simp, rfl, ?_, rfl⟩
      have fresh : (Session.mounted config d.peer).conn = .fresh d.peer :=
        World.conns_accept_new (World.mounted config d.peer) config.ctrlPath d.peer
      rw [fresh]
      exact .fresh rfl
  | @step ts t session allowed ih =>
      obtain ⟨es, s', run, completed, seen, attended, installing⟩ := ih
      obtain ⟨⟨state, b⟩, v, final⟩ := t
      obtain rfl : s'.installing = b := installing
      have files : s'.net.files = (Session.mounted config d.peer).net.files :=
        @Run.keeps _ _ _ _ _ _ (fun t => t.net.files = (Session.mounted config d.peer).net.files)
          run (fun e _ step same => (World.exec_files step.2.1).trans same) rfl
      obtain ⟨e, rfl, step, done, served, ends, attended'⟩ :=
        Session.realizes (connected.run_proper run) attended
          (connected.inStep run completed).writable (fun path => congrFun files path) allowed
      refine ⟨es ++ [e], e.after, run.step step, ?_, ?_, ?_, congrArg Prod.snd ends⟩
      · intro x member
        rcases List.mem_append.mp member with early | last
        · exact completed x early
        · rw [List.mem_singleton.mp last]
          exact done
      · rw [List.filterMap_append, List.map_append, seen, List.filterMap_cons_some served]
        rfl
      · rw [← ends]
        exact attended'

end Realization

/-- **The sessions of the clients are the sessions of the service.** Against a daemon,
some operations with some outcomes can run to completion on one connection exactly when
the service allows them, in this order and with these outcomes. -/
theorem sessions_are_the_service {T : Target} {service : Service} (d : Daemon T service)
    (vs : List Served) (installing : Bool) :
    (∃ (s s' : Session) (es : List (Transition Session Done)), Connected s ∧
        s.conn.peer = d.peer ∧ Run (Step T) s es s' ∧ (∀ e ∈ es, Completed e) ∧
          es.filterMap servedBy = vs ∧ s'.installing = installing) ↔
      ∃ ts state, Run (service.Allowed T) (service.start, false) ts (state, installing) ∧
        ts.map Transition.label = vs := by
  constructor
  · rintro ⟨s, s', es, connected, peer, run, completed, rfl, rfl⟩
    obtain ⟨ts, state, session, labels, _⟩ := connected.simulates peer run completed
    exact ⟨ts, state, session, labels⟩
  · rintro ⟨ts, state, session, rfl⟩
    obtain ⟨es, s', run, completed, seen, _, ends⟩ := Session.realized ⟨"", "", 0⟩ d session
    refine ⟨_, s', es, connected_mounted _ _, ?_, run, completed, seen, ends⟩
    have fresh : (Session.mounted ⟨"", "", 0⟩ d.peer).conn = .fresh d.peer :=
      World.conns_accept_new (World.mounted ⟨"", "", 0⟩ d.peer) "" d.peer
    rw [fresh]
    rfl

end SwupdateIpc
