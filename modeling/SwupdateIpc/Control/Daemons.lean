import SwupdateIpc.Control.Lockstep
import SwupdateIpc.Control.ReceivedRequests
import SwupdateIpc.Foundations.FramedServers
import SwupdateIpc.Wire.HeaderMessages

/-!
# The service behind a client

A service has a state. It answers each request that it gets, and takes the bytes of an
image one by one (`Service`). A daemon gives a service over the wire: it parses the
messages it is sent, and writes for each of them a message that holds the answer
(`Daemon`). A client that takes this message returns the answer
(`Request.decode_held`).

The state of a connection is in step with the service, as long as no request on it was
cut (`Connected.attended`). So a request that completes there returns what the service
answers in the state that everything sent before has led to, whatever has failed on
other connections and in the middle of images (`Connected.service_answers`).
-/

set_option autoImplicit false

namespace SwupdateIpc

open Foundations Wire

/-! ## Answers -/

/-- What a service answers. Its texts are bytes. -/
inductive Answer where
  | ack
  | nack
  | status (current lastResult : RecoveryStatus) (error : Int32) (desc : List UInt8)
  | state (updateState : UpdateState)
  | hwRevision (boardname revision : List UInt8)
  | var (varnamespace varname varvalue : List UInt8)
  deriving DecidableEq, Repr

/-- Whether an answer is one for the request that the service got. -/
def Answer.fits : Answer → Received → Bool
  | .status .., .getStatus => true
  | .state _, .getUpdateState => true
  | .hwRevision .., .getHwRevision => true
  | .var .., .getSwupdateVars .. => true
  | .ack, r | .nack, r =>
      match r with
      | .getStatus | .getUpdateState | .getHwRevision | .getSwupdateVars .. => false
      | _ => true
  | _, _ => false

/-- A message holds an answer, in the members of the header. -/
def Answer.HeldBy (T : Target) (m : Record (Header.ipcMessage T.sizeT)) : Answer → Prop
  | .ack => intAt T m [.type] = Header.Msgtype.ack.value
  | .nack => intAt T m [.type] = Header.Msgtype.nack.value
  | .status current lastResult error desc =>
      intAt T m [.data, .status, .current] = current.enumerator.value ∧
        intAt T m [.data, .status, .lastResult] = lastResult.enumerator.value ∧
          intAt T m [.data, .status, .error] = error ∧
            cStringAt T m [.data, .status, .desc] = desc
  | .state updateState => codeAt T m = updateState.toWire
  | .hwRevision boardname revision =>
      cStringAt T m [.data, .revisions, .boardname] = boardname ∧
        cStringAt T m [.data, .revisions, .revision] = revision
  | .var varnamespace varname varvalue =>
      cStringAt T m [.data, .vars, .varnamespace] = varnamespace ∧
        cStringAt T m [.data, .vars, .varname] = varname ∧
          cStringAt T m [.data, .vars, .varvalue] = varvalue

/-- What a request returns on an answer. -/
def Answer.result (r : Request) : Answer → Except Error Value
  | .ack => .ok r.ackValue
  | .nack => .error .rejected
  | .status current lastResult error desc =>
      .ok (.status ⟨current, lastResult, error, fromUtf8Lossy desc⟩)
  | .state updateState => .ok (.state updateState)
  | .hwRevision boardname revision =>
      .ok (.hwRevision ⟨fromUtf8Lossy boardname, fromUtf8Lossy revision⟩)
  | .var varnamespace varname varvalue =>
      .ok (.var ⟨fromUtf8Lossy varnamespace, fromUtf8Lossy varname, fromUtf8Lossy varvalue⟩)

section Replies

variable {T : Target} (reply : RawIpcMessage T)

theorem intAt_underHeader (path : List Ident) :
    intAt T reply.underHeader (path.map headerName) = reply.i32At path := by
  rw [intAt, reply.read_underHeader, RawIpcMessage.i32At]

theorem cStringAt_underHeader (path : List Ident) :
    cstrFromBytes (reply.read path) =
      fromUtf8Lossy (cStringAt T reply.underHeader (path.map headerName)) := by
  rw [cStringAt, reply.read_underHeader, cstrFromBytes_eq_cString]

/-- **A request returns the answer that its reply holds.** -/
theorem Request.decode_held {r : Request} {answer : Answer}
    (fits : answer.fits (r.received T) = true) (held : answer.HeldBy T reply.underHeader) :
    r.decode reply = answer.result r := by
  cases answer with
  | ack =>
      have type : reply.msgType = some .ack := by
        rw [RawIpcMessage.msgType, ← intAt_underHeader reply [.msgType]]
        exact MsgType.fromI32_eq_some.mpr held
      have acknowledges : r.isAcknowledged = true := by
        cases r <;> first | rfl | cases fits
      rw [Request.decode_acknowledged acknowledges, Request.acknowledged, type]
      rfl
  | nack =>
      have type : reply.msgType = some .nack := by
        rw [RawIpcMessage.msgType, ← intAt_underHeader reply [.msgType]]
        exact MsgType.fromI32_eq_some.mpr held
      have acknowledges : r.isAcknowledged = true := by
        cases r <;> first | rfl | cases fits
      exact Request.decode_rejected_iff.mpr ⟨acknowledges, type⟩
  | status current lastResult error desc =>
      obtain rfl : r = .getStatus := by
        cases r <;> first | rfl | cases fits
      obtain ⟨first, second, third, text⟩ := held
      have code : RecoveryStatus.fromWire (reply.i32At [.data, .status, .current]) =
          some current := by
        rw [← intAt_underHeader reply [.data, .status, .current]]
        exact RecoveryStatus.fromWire_eq_some.mpr (first.trans current.toWire_eq.symm)
      have last : RecoveryStatus.fromWire (reply.i32At [.data, .status, .lastResult]) =
          some lastResult := by
        rw [← intAt_underHeader reply [.data, .status, .lastResult]]
        exact RecoveryStatus.fromWire_eq_some.mpr (second.trans lastResult.toWire_eq.symm)
      have count : reply.i32At [.data, .status, .error] = error :=
        (intAt_underHeader reply [.data, .status, .error]).symm.trans third
      have desc' : cstrFromBytes (reply.read [.data, .status, .desc]) = fromUtf8Lossy desc :=
        (cStringAt_underHeader reply [.data, .status, .desc]).trans (congrArg _ text)
      simp only [Request.decode, Request.statusOf, code, last, count, desc']
      rfl
  | state updateState =>
      obtain rfl : r = .getUpdateState := by
        cases r <;> first | rfl | cases fits
      have code : UpdateState.fromWire (Request.stateCode reply) = some updateState := by
        refine UpdateState.fromWire_eq_some.mpr (Eq.trans ?_ held)
        rw [Request.stateCode, ← reply.read_underHeader]
        rfl
      simp only [Request.decode, Request.stateOf, code]
      rfl
  | hwRevision boardname revision =>
      obtain rfl : r = .getHwRevision := by
        cases r <;> first | rfl | cases fits
      obtain ⟨first, second⟩ := held
      simp only [Request.decode, Request.hwRevisionOf, cStringAt_underHeader]
      exact congrArg₂ (fun b v => Except.ok (Value.hwRevision ⟨fromUtf8Lossy b, fromUtf8Lossy v⟩))
        first second
  | var varnamespace varname varvalue =>
      obtain ⟨ns, name, rfl⟩ : ∃ ns name, r = .getSwupdateVar ns name := by
        cases r <;> first | exact ⟨_, _, rfl⟩ | cases fits
      obtain ⟨first, second, third⟩ := held
      change cStringAt T reply.underHeader
        ([.data, .vars, .varnamespace].map headerName) = _ at first
      change cStringAt T reply.underHeader ([.data, .vars, .varname].map headerName) = _ at second
      change cStringAt T reply.underHeader ([.data, .vars, .varvalue].map headerName) = _ at third
      simp only [Request.decode, Request.varOf, cStringAt_underHeader, first, second, third]
      rfl

end Replies

/-! ## Services and daemons -/

/-- A service. -/
structure Service where
  State : Type
  start : State
  answer : State → Received → State × Answer
  image : State → UInt8 → State
  fits : ∀ state r, (answer state r).2.fits r = true

/-- A daemon that gives a service over the wire. -/
structure Daemon (T : Target) (service : Service) where
  reply : service.State → Received → RawIpcMessage T
  holds : ∀ state r, (service.answer state r).2.HeldBy T (reply state r).underHeader

section Serving

variable {T : Target} {service : Service} (d : Daemon T service)

/-- The daemon as a server of messages. It leaves a message that it cannot parse without
a reply. -/
def Daemon.server : FrameServer Origin service.State where
  size := sizeOfMessage T
  framed mark := mark == .request
  serve state frame :=
    match ipcMessageFromBytes T frame >>= fun m => readRequest T m.underHeader with
    | some r => ((service.answer state r).1, (d.reply state r).bytes)
    | none => (state, [])
  other := service.image

/-- The daemon as the peer of a connection. -/
def Daemon.peer : Peer Origin := d.server.peer service.start

/-- The daemon serves the message of a request. -/
theorem Daemon.serve_message (state : service.State) (r : Request) :
    d.server.serve state (r.message T).bytes =
      ((service.answer state (r.received T)).1, (d.reply state (r.received T)).bytes) := by
  have parsed : readRequest T (r.message T).underHeader = some (r.received T) :=
    readRequest_asHeader T r
  have frame : ipcMessageFromBytes T (r.message T).bytes = some (r.message T) :=
    ipcMessageFromBytes_of_length (r.message T).length_bytes
  show (match ipcMessageFromBytes T (r.message T).bytes >>= _ with
    | some r => ((service.answer state r).1, (d.reply state r).bytes)
    | none => (state, [])) = _
  rw [frame, Option.bind_eq_bind, Option.bind_some, parsed]

/-- On a connection, the service has come to a state, and every reply it gave was taken. -/
structure Attended (state : service.State) (c : Conn Origin) : Prop where
  peer : c.peer = d.peer
  served : d.server.after service.start c.sent = ⟨state, [], c.taken⟩

variable {d}

theorem Attended.fresh {peer : Peer Origin} (same : peer = d.peer) :
    Attended d service.start (.fresh peer) :=
  ⟨same, rfl⟩

/-- A connection that was sent and read the same is attended alike. -/
theorem Attended.alike {state : service.State} {c c' : Conn Origin} (attended : Attended d state c)
    (peer : c'.peer = c.peer) (sent : c'.sent = c.sent) (reads : c'.reads = c.reads) :
    Attended d state c' := by
  refine ⟨peer.trans attended.peer, ?_⟩
  rw [sent, attended.served, Conn.taken, Conn.taken, reads]

/-- Once a request is sent, the reply is all that can be read. -/
theorem Attended.available {state : service.State} {c : Conn Origin}
    (attended : Attended d state c) (r : Request) :
    d.server.after service.start (c.send .request (r.message T).bytes).sent =
        ⟨(service.answer state (r.received T)).1, [],
          c.taken ++ (d.reply state (r.received T)).bytes⟩ ∧
      (c.send .request (r.message T).bytes).available = (d.reply state (r.received T)).bytes := by
  have after : d.server.after service.start (c.send .request (r.message T).bytes).sent =
      ⟨(service.answer state (r.received T)).1, [],
        c.taken ++ (d.reply state (r.received T)).bytes⟩ := by
    have idle : (d.server.after service.start c.sent).pending = [] := by rw [attended.served]
    have more := @FrameServer.after_frame _ _ d.server .request _ _ _ rfl idle
      (sizeOfMessage_pos T) (r.message T).length_bytes
    rw [attended.served, d.serve_message] at more
    exact more
  refine ⟨after, ?_⟩
  rw [Conn.available, Conn.inbound, Conn.peer_send, attended.peer]
  show List.drop c.taken.length (d.server.after _ _).written = _
  rw [after]
  exact List.drop_left

/-- A request that takes its reply keeps a connection attended, and returns the answer
of the service. -/
theorem Attended.request {state : service.State} {c : Conn Origin} (attended : Attended d state c)
    {r : Request} {resp : RawIpcMessage T}
    (read : resp.bytes <+: (c.send .request (r.message T).bytes).available) :
    r.decode resp = (service.answer state (r.received T)).2.result r ∧
      Attended d (service.answer state (r.received T)).1
        ((c.send .request (r.message T).bytes).record ⟨resp.bytes, true⟩) := by
  obtain ⟨after, available⟩ := attended.available r
  rw [available] at read
  obtain rfl : resp = d.reply state (r.received T) := by
    refine Record.ext (read.eq_of_length ?_)
    rw [RawIpcMessage.length_bytes, RawIpcMessage.length_bytes]
  refine ⟨?_, attended.peer, ?_⟩
  · exact Request.decode_held _ (service.fits state _) (d.holds state _)
  · rw [Conn.sent_record, after, Conn.taken_record, Conn.taken_send]

/-- Bytes of an image keep a connection attended. -/
theorem Attended.image {state : service.State} {c : Conn Origin} (attended : Attended d state c)
    (bytes : List UInt8) : Attended d (bytes.foldl service.image state) (c.send .image bytes) := by
  refine ⟨attended.peer, ?_⟩
  rw [Conn.sent_send, FrameServer.after_append, FrameServer.foldl_other (f := d.server) rfl,
    attended.served]
  rfl

end Serving

/-! ## A daemon of a service -/

/-- A text that leaves room for a NUL in a member, and has none. -/
def FitsIn (size : Nat) (text : List UInt8) : Prop := 0 ∉ text ∧ text.length < size

/-- A text in a member of the header. -/
def charsOf (size : Nat) (text : List UInt8) : List UInt8 :=
  text ++ List.replicate (size - text.length) 0

theorem cString_charsOf {size : Nat} {text : List UInt8} (fits : FitsIn size text) :
    (charsOf size text).length = size ∧ cString (charsOf size text) = text := by
  refine ⟨?_, ?_⟩
  · rw [charsOf, List.length_append, List.length_replicate]
    have := fits.2
    omega
  · rw [charsOf, cString_append_zeros]
    exact cString_eq_self_iff.mpr fits.1

/-- The texts of an answer fit in their members. -/
def Answer.Representable : Answer → Prop
  | .status _ _ _ desc => FitsIn 2048 desc
  | .hwRevision boardname revision => FitsIn 256 boardname ∧ FitsIn 256 revision
  | .var varnamespace varname varvalue =>
      FitsIn 256 varnamespace ∧ FitsIn 256 varname ∧ FitsIn 256 varvalue
  | _ => True

/-- The members of the header that a reply is filled with. -/
def Answer.members (T : Target) : Answer → List (List Ident × List UInt8)
  | .nack => [
      ([.magic], i32ToNeBytes T Header.IPC_MAGIC),
      ([.type], i32ToNeBytes T Header.Msgtype.nack.value)]
  | a => [
      ([.magic], i32ToNeBytes T Header.IPC_MAGIC),
      ([.type], i32ToNeBytes T Header.Msgtype.ack.value)] ++
      match a with
      | .status current lastResult error desc => [
          ([.data, .status, .current], i32ToNeBytes T current.enumerator.value),
          ([.data, .status, .lastResult], i32ToNeBytes T lastResult.enumerator.value),
          ([.data, .status, .error], i32ToNeBytes T error),
          ([.data, .status, .desc], charsOf 2048 desc)]
      | .state updateState =>
          [([.data, .msg], i32ToNeBytes T updateState.toWire ++ List.replicate 124 0)]
      | .hwRevision boardname revision => [
          ([.data, .revisions, .boardname], charsOf 256 boardname),
          ([.data, .revisions, .revision], charsOf 256 revision)]
      | .var varnamespace varname varvalue => [
          ([.data, .vars, .varnamespace], charsOf 256 varnamespace),
          ([.data, .vars, .varname], charsOf 256 varname),
          ([.data, .vars, .varvalue], charsOf 256 varvalue)]
      | _ => []

/-- The reply of a daemon that fills a message of zeros. -/
def Answer.message (T : Target) (a : Answer) : RawIpcMessage T where
  bytes := ((Record.zeroed (Header.ipcMessage T.sizeT)).fill (ipcMessage_wellAligned _)
    (a.members T)).bytes
  length_eq := by
    rw [Record.length_eq]
    exact size_ipcMessage T.sizeT

section Filling

variable {T : Target} {a : Answer}

/-- The sizes of the members that an answer fills. -/
theorem Answer.sizes_members (representable : a.Representable) :
    (a.members T).map (fun f => ((Header.ipcMessage T.sizeT).typeAt? f.1).map Layout.size) =
      (a.members T).map fun f => some f.2.length := by
  have int := length_i32ToNeBytes T
  have code : ∀ v, (i32ToNeBytes T v ++ List.replicate 124 0).length = 128 := by
    intro v
    rw [List.length_append, int, List.length_replicate]
  cases a with
  | status current lastResult error desc =>
      have text := (cString_charsOf representable).1
      simp only [members, List.cons_append, List.nil_append, List.map_cons, List.map_nil, int, text]
      cases T.sizeT <;> rfl
  | hwRevision boardname revision =>
      have first := (cString_charsOf representable.1).1
      have second := (cString_charsOf representable.2).1
      simp only [members, List.cons_append, List.nil_append, List.map_cons, List.map_nil, int,
        first, second]
      cases T.sizeT <;> rfl
  | var varnamespace varname varvalue =>
      have first := (cString_charsOf representable.1).1
      have second := (cString_charsOf representable.2.1).1
      have third := (cString_charsOf representable.2.2).1
      simp only [members, List.cons_append, List.nil_append, List.map_cons, List.map_nil, int,
        first, second, third]
      cases T.sizeT <;> rfl
  | state updateState =>
      simp only [members, List.cons_append, List.nil_append, List.map_cons, List.map_nil, int, code]
      cases T.sizeT <;> rfl
  | ack =>
      simp only [members, List.append_nil, List.map_cons, List.map_nil, int]
      cases T.sizeT <;> rfl
  | nack =>
      simp only [members, List.map_cons, List.map_nil, int]
      cases T.sizeT <;> rfl

/-- A reply carries the answer that it is filled with. -/
theorem Answer.carries_message (representable : a.Representable) :
    (a.message T).underHeader.Carries (a.members T) Record.nowhere := by
  have fit : ∀ f ∈ a.members T, Record.Fits (Header.ipcMessage T.sizeT) f :=
    List.map_inj_left.mp (sizes_members representable)
  have apart : ((a.members T).map Prod.fst).Pairwise
      fun p q => (Header.ipcMessage T.sizeT).apart p q = true := by
    cases a <;>
      simp only [members, List.cons_append, List.nil_append, List.append_nil, List.map_cons,
        List.map_nil] <;> cases T.sizeT <;> decide +kernel
  exact (Record.carries_zeroed (Header.ipcMessage T.sizeT)).fill (ipcMessage_wellAligned _) fit
    (List.pairwise_map.mp apart)

/-- **A reply holds the answer that it is filled with.** -/
theorem Answer.held_message (representable : a.Representable) :
    a.HeldBy T (a.message T).underHeader := by
  have carried := Answer.carries_message (T := T) representable
  have code : ∀ {path v}, (path, i32ToNeBytes T v) ∈ a.members T →
      intAt T (a.message T).underHeader path = v := by
    intro path v member
    rw [intAt, carried.read_of_mem member, i32FromNeBytes_i32ToNeBytes]
  have text : ∀ {path size bytes}, FitsIn size bytes → (path, charsOf size bytes) ∈ a.members T →
      cStringAt T (a.message T).underHeader path = bytes := by
    intro path size bytes fits member
    rw [cStringAt, carried.read_of_mem member, (cString_charsOf fits).2]
  cases a with
  | ack => exact code (by simp [members])
  | nack => exact code (by simp [members])
  | status current lastResult error desc =>
      refine ⟨code ?_, code ?_, code ?_, text representable ?_⟩
      all_goals simp [members]
  | state updateState =>
      have whole : ((Answer.state updateState).message T).underHeader.read [.data, .msg] =
          i32ToNeBytes T updateState.toWire ++ List.replicate 124 0 :=
        carried.read_of_mem (by simp [members])
      rw [HeldBy, codeAt, whole, ← length_i32ToNeBytes T updateState.toWire, List.take_left,
        i32FromNeBytes_i32ToNeBytes]
  | hwRevision boardname revision =>
      refine ⟨text representable.1 ?_, text representable.2 ?_⟩
      all_goals simp [members]
  | var varnamespace varname varvalue =>
      refine ⟨text representable.1 ?_, text representable.2.1 ?_, text representable.2.2 ?_⟩
      all_goals simp [members]

end Filling

/-- The daemon that fills its replies with the answers of a service. -/
def Daemon.filling (T : Target) {service : Service}
    (representable : ∀ state r, (service.answer state r).2.Representable) : Daemon T service where
  reply state r := (service.answer state r).2.message T
  holds state r := Answer.held_message (representable state r)

/-! ## The service along a run -/

/-- What a transition sent on the connection held. -/
def sentBy (e : Transition Session Done) : List UInt8 :=
  ((connAfter e).sent.drop e.before.conn.sent.length).map Prod.snd

/-- What the service does on a transition. -/
def Service.step (T : Target) (service : Service) (state : service.State)
    (e : Transition Session Done) : service.State :=
  match e.label.action with
  | .request r => (service.answer state (r.received T)).1
  | .stream _ _ => (sentBy e).foldl service.image state
  | _ => state

/-- The state of the service on a connection, after the transitions on it. -/
def Service.history (T : Target) (service : Service) (fd : Nat)
    (es : List (Transition Session Done)) : service.State :=
  es.foldl (fun state e =>
    if e.before.client.stream = fd then service.step T state e else state) service.start

/-- No request on a connection was cut. -/
def Unbroken (es : List (Transition Session Done)) (fd : Nat) : Prop :=
  ∀ e ∈ es, e.before.client.stream = fd → ∀ r o, e.label = ⟨.request r, o⟩ → ¬ Cut o

section Histories

variable {T : Target} {service : Service} {es : List (Transition Session Done)}
  {e : Transition Session Done} {fd : Nat}

theorem Service.history_snoc :
    service.history T fd (es ++ [e]) = if e.before.client.stream = fd
      then service.step T (service.history T fd es) e else service.history T fd es := by
  rw [Service.history, List.foldl_append]
  rfl

/-- Nothing happened on a connection that was never held. -/
theorem Service.history_unheld (unheld : ∀ e ∈ es, e.before.client.stream ≠ fd) :
    service.history T fd es = service.start := by
  rw [Service.history]
  induction es with
  | nil => rfl
  | cons e es ih =>
      rw [List.foldl_cons, if_neg (unheld e List.mem_cons_self)]
      exact ih fun x member => unheld x (List.mem_cons_of_mem _ member)

theorem Unbroken.init (unbroken : Unbroken (es ++ [e]) fd) :
    Unbroken es fd ∧ (e.before.client.stream = fd →
      ∀ r o, e.label = ⟨.request r, o⟩ → ¬ Cut o) :=
  ⟨fun x member => unbroken x (List.mem_append_left _ member), unbroken e (by simp)⟩

/-- Every connection that was held is one of those opened. -/
theorem Connected.held_lt {s s' : Session} (connected : Connected s) (run : Run (Step T) s es s')
    (member : e ∈ es) : e.before.client.stream < s'.net.opened := by
  obtain ⟨es₁, es₂, _, before, here, after⟩ := run.at_mem member
  let Kept (t : Session) : Prop := t.Proper ∧ e.before.client.stream < t.net.opened
  have preserved : ∀ x ∈ es₂, Step T x → Kept x.before → Kept x.after := by
    rintro x - step ⟨proper, lt⟩
    exact ⟨step.proper proper, lt.trans_le (step.opened_le proper)⟩
  have proper := connected.run_proper before
  have first : e.before.client.stream < e.after.net.opened :=
    Nat.lt_of_lt_of_le proper (here.opened_le proper)
  exact (after.keeps preserved ⟨here.proper proper, first⟩).2

end Histories

section Runs

variable {T : Target} {service : Service} {d : Daemon T service} {s s' : Session}
  {es : List (Transition Session Done)} {e : Transition Session Done}

/-- **A step keeps its connection attended**, when it does not cut a request. -/
theorem Step.attended {state : service.State} (step : Step T e) (proper : e.before.Proper)
    (attended : Attended d state e.before.conn)
    (uncut : ∀ r o, e.label = ⟨.request r, o⟩ → ¬ Cut o) :
    Attended d (service.step T state e) (connAfter e) := by
  obtain ⟨effect, _⟩ := step.effect proper
  obtain ⟨t, ⟨action, o⟩, t'⟩ := e
  change Effect T t ⟨action, o⟩ (connAfter ⟨t, ⟨action, o⟩, t'⟩) at effect
  cases action with
  | request r =>
      obtain ⟨resp, _, _, read, after⟩ := effect.completed (uncut r o rfl)
      rw [after]
      exact (attended.request read).2
  | stream image fuel =>
      obtain ⟨part, after⟩ : ∃ part, connAfter ⟨t, ⟨.stream image fuel, o⟩, t'⟩ =
          t.conn.send .image part := by
        generalize connAfter ⟨t, ⟨.stream image fuel, o⟩, t'⟩ = conn at effect
        cases effect with
        | streamed => exact ⟨_, rfl⟩
      have sent : sentBy ⟨t, ⟨.stream image fuel, o⟩, t'⟩ = part := by
        rw [sentBy, after, Conn.sent_send, List.drop_left, List.map_map]
        exact List.map_id _
      rw [after]
      show Attended d (List.foldl service.image state (sentBy _)) _
      rw [sent]
      exact attended.image part
  | release =>
      generalize connAfter ⟨t, ⟨.release, o⟩, t'⟩ = conn at effect
      cases effect with
      | released => exact attended
  | reconnect =>
      generalize connAfter ⟨t, ⟨.reconnect, o⟩, t'⟩ = conn at effect
      cases effect with
      | reconnected shut =>
          rcases shut with rfl | rfl
          · exact attended
          · exact attended.alike rfl rfl rfl

/-- A completed operation keeps the connection that it is on. -/
theorem Completed.conn_after (completed : Completed e) (step : Step T e)
    (proper : e.before.Proper) : e.after.conn = connAfter e := by
  obtain ⟨_, frame⟩ := step.effect proper
  have kept : e.label.reconnected = false := by
    obtain ⟨t, ⟨action, o⟩, t'⟩ := e
    cases action with
    | reconnect => exact completed.elim
    | _ => rfl
  rw [Session.conn, (frame.held kept).1]
  rfl

/-- **The connection held is attended**, when its peer is the daemon and no request on
it was cut. -/
theorem Connected.attended (connected : Connected s) (run : Run (Step T) s es s')
    (peer : s'.conn.peer = d.peer) (unbroken : Unbroken es s'.client.stream) :
    Attended d (service.history T s'.client.stream es) s'.conn := by
  induction run with
  | start =>
      obtain ⟨_, p, fresh⟩ := connected.fresh
      rw [fresh] at peer ⊢
      exact .fresh peer
  | @step es e run step ih =>
      have proper := connected.run_proper run
      obtain ⟨effect, frame⟩ := step.effect proper
      cases exchanged : e.label.reconnected with
      | true =>
          obtain ⟨stream, _, p, fresh⟩ := frame.exchanged exchanged
          have unheld : ∀ x ∈ es ++ [e], x.before.client.stream ≠ e.after.client.stream := by
            intro x member
            rw [stream]
            rcases List.mem_append.mp member with early | last
            · exact (connected.held_lt run early).ne
            · rw [List.mem_singleton.mp last]
              exact Nat.ne_of_lt proper
          rw [Service.history_unheld unheld, fresh]
          rw [fresh] at peer
          exact .fresh peer
      | false =>
          obtain ⟨client, _⟩ := frame.held exchanged
          have after : e.after.conn = connAfter e := by
            rw [Session.conn, client]
            rfl
          rw [client] at unbroken ⊢
          obtain ⟨earlier, uncut⟩ := unbroken.init
          rw [Service.history_snoc, if_pos rfl, after]
          have same : e.before.conn.peer = d.peer := by
            rw [← peer, after]
            exact effect.peer.symm
          exact step.attended proper (ih same earlier) (uncut rfl)

/-- **A request that completes returns the answer of the service.** Whatever has failed
or was dropped before, if no earlier request on its connection was cut, then the request
that the service answers is the one the daemon gets, and the service is in the state to
which everything that was sent on the connection has led. -/
theorem Connected.service_answers (connected : Connected s) (run : Run (Step T) s (es ++ [e]) s')
    (d : Daemon T service) (peer : e.before.conn.peer = d.peer)
    (unbroken : Unbroken es e.before.client.stream) {r : Request} {o : Outcome Error Value}
    (label : e.label = ⟨.request r, o⟩) (completed : ¬ Cut o) :
    o = outcomeOf ((service.answer (service.history T e.before.client.stream es)
      (r.received T)).2.result r) := by
  obtain ⟨before, step, _⟩ := run.cut
  obtain ⟨effect, _⟩ := step.effect (connected.run_proper before)
  have attended := connected.attended before peer unbroken
  rw [label] at effect
  obtain ⟨resp, returned, _, read, _⟩ := effect.completed completed
  rw [returned, (attended.request read).1]

/-- A request on an attended connection finds its reply. -/
theorem Attended.ready {state : service.State} (attended : Attended d state s.conn) (r : Request) :
    Ready T s (.request r) := by
  rw [Ready, (attended.available r).2, RawIpcMessage.length_bytes]

/-- A request can be made on an attended connection, and completes. -/
theorem Attended.asks {state : service.State} (attended : Attended d state s.conn)
    (unborrowed : s.installing = false) (writable : s.conn.closed = false) (r : Request) :
    ∃ e, e.before = s ∧ Step T e ∧ (∃ o, e.label = ⟨.request r, o⟩ ∧ ¬ Cut o) ∧ Completed e := by
  have completed : Completed (s.served T (.request r)) :=
    served_completes writable (attended.ready r)
  exact ⟨s.served T (.request r), rfl, step_served unborrowed.symm, ⟨_, rfl, completed⟩, completed⟩

end Runs

/-- A service that counts the requests that it gets. -/
def counting : Service where
  State := Nat
  start := 0
  answer n
    | .getStatus => (n + 1, .status .idle .idle (Int32.ofNat n) [])
    | .getUpdateState => (n + 1, .state .ok)
    | .getHwRevision => (n + 1, .hwRevision [] [])
    | .getSwupdateVars _ _ => (n + 1, .var [] [] [])
    | _ => (n + 1, .ack)
  image n _ := n
  fits := by
    intro n r
    cases r <;> rfl

theorem representable_counting (n : Nat) (r : Received) :
    (counting.answer n r).2.Representable := by
  have empty : ∀ size, 0 < size → FitsIn size [] := fun size positive => ⟨by simp, positive⟩
  cases r with
  | getStatus => exact empty 2048 (by omega)
  | getHwRevision => exact ⟨empty 256 (by omega), empty 256 (by omega)⟩
  | getSwupdateVars ns name =>
      exact ⟨empty 256 (by omega), empty 256 (by omega), empty 256 (by omega)⟩
  | _ => trivial

/-- After a notification, a status query returns that one request was counted. -/
theorem answered_after_notification :
    ∃ (s : Session) (e e' : Transition Session Done), Connected s ∧
      Run (Step .x86_64) s ([e] ++ [e']) e'.after ∧ e.label.action = .request .postUpdate ∧
        e'.label = ⟨.request .getStatus, .ok (.status ⟨.idle, .idle, 1, ""⟩)⟩ := by
  let d : Daemon .x86_64 counting := .filling _ representable_counting
  have connected := connected_opened ⟨"", "", 0⟩ d.peer fun _ => []
  have fresh := conn_opened ⟨"", "", 0⟩ d.peer fun _ => []
  have first : Attended d counting.start (Session.opened ⟨"", "", 0⟩ d.peer fun _ => []).conn :=
    fresh ▸ Attended.fresh rfl
  obtain ⟨e, before, step, ⟨o, label, uncut⟩, completed⟩ :=
    first.asks rfl (by rw [fresh]; rfl) .postUpdate
  rw [← before] at connected first
  have run : Run (Step .x86_64) e.before ([] ++ [e]) e.after := Run.start.step step
  have answer := connected.service_answers run d first.peer (by simp [Unbroken]) label uncut
  have second := step.attended connected.fresh.1 first fun r o' same => by
    rw [label] at same
    cases same
    exact uncut
  rw [← completed.conn_after step connected.fresh.1] at second
  have unborrowed : e.after.installing = false := by
    rw [step.2.2, label, answer]
    rfl
  have writable := (connected.inStep run (by simpa using completed)).writable
  obtain ⟨e', before', step', ⟨o', label', uncut'⟩, _⟩ := second.asks unborrowed writable .getStatus
  have held : e'.before.client.stream = e.before.client.stream := by
    rw [before', (connected.inStep run (by simpa using completed)).held]
  rw [← before'] at run second
  have answer' := connected.service_answers (run.step step') d second.peer (by
    intro x member _ r o'' same
    obtain rfl := List.mem_singleton.mp member
    rw [label] at same
    cases same
    exact uncut) label' uncut'
  refine ⟨e.before, e, e', connected, run.step step', by rw [label], ?_⟩
  rw [label', answer', held]
  simp only [Service.history, List.nil_append, List.foldl_cons, List.foldl_nil, if_true,
    Service.step, label]
  rfl

end SwupdateIpc
