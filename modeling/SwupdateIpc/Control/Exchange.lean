import SwupdateIpc.Control.Client

/-!
# A request is one exchange

Each of the twelve requests sends one message, reads one message, and returns a
value that depends on that message alone. `Request.message` is the message sent
and `Request.decode` reads the result off the reply. The request is these two
around `sendAndReceive` (`Request.perform_eq`).

On sockets that may fail, the exchange is cut in the middle of its writing, or
in the middle of its reading, or it is complete (`exec_perform`). On sockets
without failures it is complete as soon as the peer has written enough
(`run_perform`).
-/

set_option autoImplicit false

namespace SwupdateIpc

open Foundations Wire

namespace Request

variable (T : Target)

/-! ## The message and the result of a request -/

/-- The message a request sends. -/
def message : Request → RawIpcMessage T
  | .install req =>
      ((RawIpcMessage.new T .reqInstall).store [.data, .instmsg, .req]
        ((req.toRaw T).copied T.padding)).store [.data, .instmsg, .len] (u32ToNeBytes T 0)
  | .getStatus => RawIpcMessage.new T .getStatus
  | .getUpdateState => RawIpcMessage.new T .getUpdateState
  | .setUpdateState state =>
      (RawIpcMessage.new T .setUpdateState).store [.data, .msg]
        (splice 0 (i32ToNeBytes T state.toWire)
          ((RawIpcMessage.new T .setUpdateState).read [.data, .msg]))
  | .postUpdate => RawIpcMessage.new T .postUpdate
  | .setAesKey key iv =>
      ((RawIpcMessage.new T .setAesKey).storeCstr [.data, .aeskeymsg, .keyAscii] key).storeCstr
        [.data, .aeskeymsg, .ivtAscii] iv
  | .setVersionsRange minimum maximum current updateType =>
      ((((RawIpcMessage.new T .setVersionsRange).storeCstr [.data, .versions, .minimumVersion]
        minimum).storeCstr [.data, .versions, .maximumVersion] maximum).storeCstr
          [.data, .versions, .currentVersion] current).storeCstr
            [.data, .versions, .updateType] updateType
  | .getHwRevision => RawIpcMessage.new T .getHwRevision
  | .setSwupdateVar varNamespace name value =>
      (((RawIpcMessage.new T .setSwupdateVars).storeCstr [.data, .vars, .varnamespace]
        varNamespace).storeCstr [.data, .vars, .varname] name).storeCstr
          [.data, .vars, .varvalue] value
  | .getSwupdateVar varNamespace name =>
      ((RawIpcMessage.new T .getSwupdateVars).storeCstr [.data, .vars, .varnamespace]
        varNamespace).storeCstr [.data, .vars, .varname] name
  | .subprocessCmd source cmd timeout =>
      ((((RawIpcMessage.new T .swupdateSubprocess).store [.data, .procmsg, .source]
        (i32ToNeBytes T source.toWire)).store [.data, .procmsg, .cmd]
          (i32ToNeBytes T cmd.toWire)).store [.data, .procmsg, .timeout]
            (i32ToNeBytes T timeout)).store [.data, .procmsg, .len] (u32ToNeBytes T 0)
  | .setDeltaUrl filename url =>
      ((RawIpcMessage.new T .setDeltaUrl).storeCstr [.data, .dwlUrl, .filename] filename).storeCstr
        [.data, .dwlUrl, .url] url

variable {T}

/-- The result of a request that is acknowledged. -/
def acknowledged (resp : RawIpcMessage T) : Except Error Unit :=
  match resp.msgType with
  | some .ack => .ok ()
  | some .nack => .error .rejected
  | other => .error (.protocol s!"expected ACK/NACK, got {ControlClient.debugType other}")

/-- The status in a reply. -/
def statusOf (resp : RawIpcMessage T) : Except Error UpdateStatus :=
  match RecoveryStatus.fromWire (resp.i32At [.data, .status, .current]) with
  | none =>
      .error (.protocol s!"invalid status: {resp.i32At [.data, .status, .current]}")
  | some current =>
    match RecoveryStatus.fromWire (resp.i32At [.data, .status, .lastResult]) with
    | none =>
        .error (.protocol s!"invalid last_result: {resp.i32At [.data, .status, .lastResult]}")
    | some lastResult => .ok
        { current := current
          lastResult := lastResult
          error := resp.i32At [.data, .status, .error]
          description := cstrFromBytes (resp.read [.data, .status, .desc]) }

/-- The integer at the start of the payload of a reply. -/
def stateCode (resp : RawIpcMessage T) : Int32 :=
  i32FromNeBytes T ((resp.read [.data, .msg]).take 4)

/-- The bootloader update state in a reply. -/
def stateOf (resp : RawIpcMessage T) : Except Error UpdateState :=
  match UpdateState.fromWire (stateCode resp) with
  | some state => .ok state
  | none => .error (.protocol s!"invalid update state: {stateCode resp}")

/-- The hardware revision in a reply. -/
def hwRevisionOf (resp : RawIpcMessage T) : HwRevision where
  boardname := cstrFromBytes (resp.read [.data, .revisions, .boardname])
  revision := cstrFromBytes (resp.read [.data, .revisions, .revision])

/-- The variable in a reply. -/
def varOf (resp : RawIpcMessage T) : SwupdateVar where
  varNamespace := cstrFromBytes (resp.read [.data, .vars, .varnamespace])
  name := cstrFromBytes (resp.read [.data, .vars, .varname])
  value := cstrFromBytes (resp.read [.data, .vars, .varvalue])

/-- The result of a request, as a function of the reply. -/
def decode : Request → RawIpcMessage T → Except Error Value
  | .install _, resp => (acknowledged resp).map fun _ => .installation {}
  | .getStatus, resp => (statusOf resp).map .status
  | .getUpdateState, resp => (stateOf resp).map .state
  | .getHwRevision, resp => .ok (.hwRevision (hwRevisionOf resp))
  | .getSwupdateVar _ _, resp => .ok (.var (varOf resp))
  | _, resp => (acknowledged resp).map fun _ => .unit

/-- The requests whose reply is only looked at for its type. -/
def isAcknowledged : Request → Bool
  | .getStatus | .getUpdateState | .getHwRevision | .getSwupdateVar _ _ => false
  | _ => true

/-- What an acknowledged request returns. -/
def ackValue : Request → Value
  | .install _ => .installation {}
  | _ => .unit

theorem decode_acknowledged {r : Request} (ack : r.isAcknowledged = true)
    (resp : RawIpcMessage T) : r.decode resp = (acknowledged resp).map fun _ => r.ackValue := by
  cases r <;> first | rfl | cases ack

end Request

variable {T : Target}

theorem ControlClient.sendAndExpectAck_eq (msg : RawIpcMessage T) :
    ControlClient.sendAndExpectAck T msg =
      ControlClient.sendAndReceive T msg >>= fun resp => orError (Request.acknowledged resp) := by
  unfold ControlClient.sendAndExpectAck
  congr 1
  funext resp
  unfold Request.acknowledged
  cases resp.msgType with
  | none => rfl
  | some t => cases t <;> rfl

/-- **A request is one exchange**, and its result is read off the reply. -/
theorem Request.perform_eq (r : Request) :
    r.perform T =
      ControlClient.sendAndReceive T (r.message T) >>= fun resp => orError (r.decode resp) := by
  cases r with
  | getStatus =>
      simp only [perform, ControlClient.getStatus, bind_assoc]
      congr 1
      funext resp
      simp only [decode, statusOf]
      cases RecoveryStatus.fromWire (resp.i32At [.data, .status, .current]) with
      | none => rfl
      | some current =>
          cases RecoveryStatus.fromWire (resp.i32At [.data, .status, .lastResult]) <;> rfl
  | getUpdateState =>
      simp only [perform, ControlClient.getUpdateState, bind_assoc]
      congr 1
      funext resp
      simp only [decode, stateOf, stateCode]
      cases UpdateState.fromWire (i32FromNeBytes T ((resp.read [.data, .msg]).take 4)) <;> rfl
  | getHwRevision =>
      simp only [perform, ControlClient.getHwRevision, bind_assoc]
      rfl
  | getSwupdateVar varNamespace name =>
      simp only [perform, ControlClient.getSwupdateVar, bind_assoc]
      rfl
  | install req =>
      simp only [perform, ControlClient.install, ControlClient.sendAndExpectAck_eq, bind_assoc]
      congr 1
      funext resp
      simp only [decode]
      cases acknowledged resp <;> rfl
  | _ =>
      simp only [perform, ControlClient.setUpdateState, ControlClient.postUpdate,
        ControlClient.setAesKey, ControlClient.setVersionsRange, ControlClient.setSwupdateVar,
        ControlClient.subprocessCmd, ControlClient.setDeltaUrl,
        ControlClient.sendAndExpectAck_eq, bind_assoc, orError_bind_pure]
      rfl

/-! ## What an exchange can do -/

/-- A result read off a reply is none of these. -/
theorem Request.not_cut (r : Request) (resp : RawIpcMessage T) :
    ¬ Cut (outcomeOf (r.decode resp)) := by
  have ok : ∀ {α β : Type} {result : Except Error α} (f : α → β),
      (∀ e, result ≠ .error (.connection e)) → ¬ Cut (outcomeOf (result.map f)) := by
    intro α β result f other cut
    cases result with
    | ok a => exact not_cut_ok _ cut
    | error e =>
        rcases cut with cut | ⟨e', cut⟩
        · cases cut
        · cases cut
          exact other e' rfl
  have ack : ∀ e, acknowledged resp ≠ .error (.connection e) := by
    intro e failed
    unfold acknowledged at failed
    split at failed <;> cases failed
  cases r with
  | getStatus =>
      apply ok
      intro e failed
      unfold statusOf at failed
      split at failed
      · cases failed
      · split at failed <;> cases failed
  | getUpdateState =>
      apply ok
      intro e failed
      unfold stateOf at failed
      split at failed <;> cases failed
  | getHwRevision => exact not_cut_ok _
  | getSwupdateVar varNamespace name => exact not_cut_ok _
  | _ => exact ok _ ack

/-- What the exchange of a message can do to the environment, and how it ends,
when the result is `decode` of the reply. -/
inductive Exchange {τ α : Type} (mark : τ) (msg : RawIpcMessage T)
    (decode : RawIpcMessage T → Except Error α) (fd : Nat) (w : World τ) :
    Outcome Error α → World τ → Prop where
  | cutWrite {part : List UInt8} {o : Outcome Error α} (written : part <+: msg.bytes)
      (unsent : (w.conns fd).closed = true → part = []) (cut : Cut o) :
      Exchange mark msg decode fd w o (w.send mark fd part)
  | cutRead {part : List UInt8} {o : Outcome Error α} (writable : (w.conns fd).closed = false)
      (read : part <+: ((w.send mark fd msg.bytes).conns fd).available)
      (short : part.length ≤ sizeOfMessage T) (cut : Cut o) :
      Exchange mark msg decode fd w o ((w.send mark fd msg.bytes).record fd ⟨part, false⟩)
  | complete (resp : RawIpcMessage T) (writable : (w.conns fd).closed = false)
      (read : resp.bytes <+: ((w.send mark fd msg.bytes).conns fd).available) :
      Exchange mark msg decode fd w (outcomeOf (decode resp))
        ((w.send mark fd msg.bytes).record fd ⟨resp.bytes, true⟩)

section Executions

variable {τ : Type} {mark : τ} {c c' : Config ControlClient (World τ)}

/-- **What writing can do.** Everything is written and the program goes on, or part
of it is written and the program ends. -/
theorem exec_write_bind {α : Type} {fd : Nat} {bytes : List UInt8} {next : ControlM α}
    {o : Outcome Error α} :
    Exec (World.device mark)
      (await (.writeAll fd bytes) >>= fun result => orConnection result >>= fun _ => next) c o c' ↔
    ((c.world.conns fd).closed = false ∧
        Exec (World.device mark) next ⟨c.own, c.world.send mark fd bytes⟩ o c') ∨
      ∃ part, part <+: bytes ∧ ((c.world.conns fd).closed = true → part = []) ∧ Cut o ∧
        c' = ⟨c.own, c.world.send mark fd part⟩ := by
  constructor
  · intro exec
    rcases exec_await_bind.mp exec with
      ⟨r, w, (⟨rfl, writable, rfl⟩ | ⟨e, part, rfl, written, unsent, rfl⟩), rest⟩ |
        ⟨w, ⟨part, written, unsent, rfl⟩, rfl, rfl⟩
    · exact .inl ⟨writable, rest⟩
    · obtain ⟨rfl, rfl⟩ := rest
      exact .inr ⟨part, written, unsent, .inr ⟨e, rfl⟩, rfl⟩
    · exact .inr ⟨part, written, unsent, .inl rfl, rfl⟩
  · rintro (⟨writable, rest⟩ | ⟨part, written, unsent, rfl | ⟨e, rfl⟩, rfl⟩)
    · exact exec_await_bind.mpr (.inl ⟨.ok (), _, .inl ⟨rfl, writable, rfl⟩, rest⟩)
    · exact exec_await_bind.mpr (.inr ⟨_, ⟨part, written, unsent, rfl⟩, rfl, rfl⟩)
    · exact exec_await_bind.mpr
        (.inl ⟨.error e, _, .inr ⟨e, part, rfl, written, unsent, rfl⟩, rfl, rfl⟩)

theorem exec_sendAndReceive {msg : RawIpcMessage T} {o : Outcome Error (RawIpcMessage T)}
    (exec : Exec (World.device mark) (ControlClient.sendAndReceive T msg) c o c') :
    c'.own = c.own ∧ Exchange mark msg .ok c.own.stream c.world o c'.world := by
  simp only [ControlClient.sendAndReceive, exec_get_bind] at exec
  rcases exec_write_bind.mp exec with ⟨writable, rest⟩ | ⟨part, written, unsent, cut, rfl⟩
  · rcases exec_await_bind.mp rest with
      ⟨r, w, (⟨bytes, rfl, read, full, rfl⟩ | ⟨e, part, rfl, read, short, rfl⟩), last⟩ |
        ⟨w, ⟨part, read, short, rfl⟩, rfl, rfl⟩
    · simp only [orConnection, Async.pure_eq, Async.ret_bind, ipcMessageFromBytes_of_length full,
        exec_ret] at last
      obtain ⟨rfl, rfl⟩ := last
      exact ⟨rfl, .complete ⟨bytes, full⟩ writable read⟩
    · obtain ⟨rfl, rfl⟩ := last
      exact ⟨rfl, .cutRead writable read short (.inr ⟨e, rfl⟩)⟩
    · exact ⟨rfl, .cutRead writable read short (.inl rfl)⟩
  · exact ⟨rfl, .cutWrite written unsent cut⟩

/-- The exchange of a message, with the result read off the reply. -/
theorem Exchange.map {α : Type} {msg : RawIpcMessage T} {fd : Nat} {w w' : World τ}
    {o : Outcome Error (RawIpcMessage T)} (decode : RawIpcMessage T → Except Error α)
    (exchange : Exchange mark msg .ok fd w o w') {o' : Outcome Error α}
    (returned : ∀ resp, o = .ok resp → o' = outcomeOf (decode resp))
    (failed : Cut o → Cut o') : Exchange mark msg decode fd w o' w' := by
  cases exchange with
  | cutWrite written unsent cut => exact .cutWrite written unsent (failed cut)
  | cutRead writable read short cut => exact .cutRead writable read short (failed cut)
  | complete resp writable read =>
      obtain rfl := returned resp rfl
      exact .complete resp writable read

/-- **What a request can do**, whatever fails and wherever it is dropped: its
exchange is cut, or it is complete and the result is read off the reply. -/
theorem exec_perform {r : Request} {o : Outcome Error Value}
    (exec : Exec (World.device mark) (r.perform T) c o c') :
    c'.own = c.own ∧ Exchange mark (r.message T) r.decode c.own.stream c.world o c'.world := by
  rw [Request.perform_eq, exec_bind] at exec
  rcases exec with ⟨resp, c₁, first, second⟩ | ⟨e, rfl, first⟩ | ⟨rfl, first⟩
  · obtain ⟨same, exchange⟩ := exec_sendAndReceive first
    have ends : o = outcomeOf (r.decode resp) ∧ c' = c₁ := by
      cases result : r.decode resp with
      | ok v => simpa only [result, orError, outcomeOf, Async.pure_eq, exec_ret] using second
      | error e => simpa only [result, orError, outcomeOf, exec_throw] using second
    obtain ⟨rfl, rfl⟩ := ends
    refine ⟨same, exchange.map r.decode ?_ ?_⟩
    · rintro resp' ⟨⟩
      rfl
    · intro cut
      rcases cut with cut | ⟨e, cut⟩ <;> cases cut
  · obtain ⟨same, exchange⟩ := exec_sendAndReceive first
    refine ⟨same, exchange.map r.decode ?_ ?_⟩
    · rintro resp' ⟨⟩
    · intro cut
      rcases cut with cut | ⟨e', cut⟩ <;> cases cut
      exact .inr ⟨e', rfl⟩
  · obtain ⟨same, exchange⟩ := exec_sendAndReceive first
    refine ⟨same, exchange.map r.decode ?_ fun _ => .inl rfl⟩
    rintro resp' ⟨⟩

/-- A connect that succeeds holds the connection that it has opened. -/
theorem ControlClient.exec_connect_ok {config : SocketConfig}
    (exec : Exec (World.device mark) (ControlClient.connect config) c (.ok ()) c') :
    ∃ peer, c' = ⟨⟨c.world.opened, config⟩, c.world.accept config.ctrlPath peer⟩ := by
  obtain ⟨fd, c₁, first, last⟩ := exec_bind_ok exec
  obtain ⟨own, ⟨peer, accepted, world⟩ | ⟨failed, _⟩⟩ := SocketConfig.exec_connectSocket first
  · cases accepted
    obtain ⟨_, rfl⟩ := last
    refine ⟨peer, ?_⟩
    rw [world]
  · exact absurd rfl (failed fd)

/-- An exchange that returns a value has sent its message, and has taken its reply. -/
theorem Exchange.of_ok {α : Type} {msg : RawIpcMessage T}
    {decode : RawIpcMessage T → Except Error α} {fd : Nat} {w w' : World τ} {a : α}
    (exchange : Exchange mark msg decode fd w (.ok a) w') :
    ∃ resp : RawIpcMessage T,
      w' = (w.send mark fd msg.bytes).record fd ⟨resp.bytes, true⟩ := by
  generalize returned : Outcome.ok a = o at exchange
  cases exchange with
  | cutWrite _ _ cut => exact absurd (returned ▸ cut) (not_cut_ok a)
  | cutRead _ _ _ cut => exact absurd (returned ▸ cut) (not_cut_ok a)
  | complete resp _ _ => exact ⟨resp, rfl⟩

/-- An installation that is accepted has exchanged its message for a reply. -/
theorem ControlClient.exec_install_ok {req : InstallRequest} {handle : Installation}
    (exec : Exec (World.device mark) (ControlClient.install T req) c (.ok handle) c') :
    ∃ resp : RawIpcMessage T, c' = ⟨c.own, (c.world.send mark c.own.stream
      ((Request.install req).message T).bytes).record c.own.stream ⟨resp.bytes, true⟩⟩ := by
  have performed : Exec (World.device mark) ((Request.install req).perform T) c
      (.ok (.installation handle)) c' :=
    exec_bind.mpr (.inl ⟨handle, c', exec, rfl, rfl⟩)
  obtain ⟨own, exchange⟩ := exec_perform performed
  obtain ⟨resp, world⟩ := exchange.of_ok
  refine ⟨resp, ?_⟩
  rw [← world, ← own]

/-- On sockets without failures the exchange is complete when the peer has
written a whole reply. -/
theorem run_perform (r : Request) (client : ControlClient) (w : World τ) (resp : RawIpcMessage T)
    (writable : (w.conns client.stream).closed = false)
    (read : resp.bytes <+: ((w.send mark client.stream (r.message T).bytes).conns
      client.stream).available) :
    run (World.serve mark) (r.perform T) ⟨client, w⟩ =
      (outcomeOf (r.decode resp), ⟨client,
        (w.send mark client.stream (r.message T).bytes).record client.stream
          ⟨resp.bytes, true⟩⟩) := by
  have enough : sizeOfMessage T ≤
      ((w.send mark client.stream (r.message T).bytes).conns client.stream).available.length := by
    rw [← resp.length_bytes]
    exact read.length_le
  have taken : ((w.send mark client.stream (r.message T).bytes).conns
      client.stream).available.take (sizeOfMessage T) = resp.bytes := by
    rw [← resp.length_bytes]
    exact (List.prefix_iff_eq_take.mp read).symm
  have exchange : run (World.serve mark) (ControlClient.sendAndReceive T (r.message T))
      ⟨client, w⟩ = (.ok resp, ⟨client,
        (w.send mark client.stream (r.message T).bytes).record client.stream
          ⟨resp.bytes, true⟩⟩) := by
    simp only [ControlClient.sendAndReceive, run_get_bind, run_await_bind, World.serve, writable,
      Bool.false_eq_true, if_false, ipcMessageToBytes, orConnection, Async.pure_eq,
      Async.ret_bind, if_pos enough, taken, ipcMessageFromBytes_of_length resp.length_eq, run_ret]
  rw [Request.perform_eq, run_bind, exchange]
  show run (World.serve mark) (orError (r.decode resp)) _ = _
  cases r.decode resp <;> rfl

/-- On an acknowledgement an installation is accepted. -/
theorem ControlClient.run_install {req : InstallRequest} {client : ControlClient} {w : World τ}
    {resp : RawIpcMessage T} (ack : resp.msgType = some .ack)
    (writable : (w.conns client.stream).closed = false)
    (read : resp.bytes <+: ((w.send mark client.stream
      ((Request.install req).message T).bytes).conns client.stream).available) :
    run (World.serve mark) (ControlClient.install T req) ⟨client, w⟩ =
      (.ok {}, ⟨client, (w.send mark client.stream
        ((Request.install req).message T).bytes).record client.stream ⟨resp.bytes, true⟩⟩) := by
  have accepted : (Request.install req).decode resp = .ok (.installation {}) := by
    simp only [Request.decode, Request.acknowledged, ack]
    rfl
  have performed := run_perform (.install req) client w resp writable read
  rw [accepted, Request.perform, run_bind] at performed
  rcases ran : run (World.serve mark) (ControlClient.install T req) ⟨client, w⟩ with ⟨o, c⟩
  rw [ran] at performed
  cases o with
  | ok handle =>
      obtain ⟨_, same⟩ := Prod.mk.inj performed
      exact ran.trans (congrArg (Prod.mk _) same)
  | err e => cases performed
  | dropped => cases performed

end Executions

end SwupdateIpc
