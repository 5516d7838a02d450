import SwupdateIpc.Control.Replies
import SwupdateIpc.Control.Session

/-!
# Operations that run to completion

When every operation on a connection runs to completion, requests and replies stay
in step. The i-th request takes the i-th window of the inbound bytes, a message
long, whatever the operations before it returned; its result is what it decodes
from that window; and the outbound bytes are the messages and the images, one
after the other (`Connected.lockstep`). `InStep` is the invariant.

What a window decodes to is said for each kind of request:
`decode_acknowledged_cases`, `getStatus_ok_iff`, `getUpdateState_ok_iff`. On
sockets without failures every operation does run to completion, once the peer
has written enough (`served_completes`).
-/

set_option autoImplicit false

namespace SwupdateIpc

open Foundations Wire

/-! ## Completed operations -/

/-- The operation ran to completion on its connection, without an I/O error. -/
def Completed (e : Transition Session Done) : Prop :=
  match e.label with
  | ⟨.request _, o⟩ => ¬ Cut o
  | ⟨.stream _ _, o⟩ => ∃ n, o = .ok n
  | ⟨.release, _⟩ => True
  | ⟨.reconnect, _⟩ => False

/-- The request of a transition and how it ended. -/
def requestOf (e : Transition Session Done) : Option (Request × Outcome Error Value) :=
  match e.label with
  | ⟨.request r, o⟩ => some (r, o)
  | _ => none

/-- What a completed transition writes. -/
def outbound (T : Target) (e : Transition Session Done) : List (Origin × UInt8) :=
  match e.label.action with
  | .request r => (r.message T).bytes.map (Prod.mk .request)
  | .stream image _ => (delivered (image.contents e.before.net)).map (Prod.mk .image)
  | _ => []

/-- The i-th window of the inbound bytes, a message long. -/
def window (T : Target) (i : Nat) (inbound : List UInt8) : List UInt8 :=
  slice (i * sizeOfMessage T) (sizeOfMessage T) inbound

/-- The client holds its first connection, and requests and replies are in step
after these transitions. -/
structure InStep (T : Target) (s : Session) (es : List (Transition Session Done))
    (s' : Session) : Prop where
  held : s'.client = s.client
  writable : s'.conn.closed = false
  sent : s'.conn.sent = es.flatMap (outbound T)
  enough : (es.filterMap requestOf).length * sizeOfMessage T ≤ s'.conn.inbound.length
  reads : s'.conn.reads = (List.range (es.filterMap requestOf).length).map fun i =>
    ⟨window T i s'.conn.inbound, true⟩
  results : ∀ i r o, (es.filterMap requestOf)[i]? = some (r, o) →
    ∃ reply : RawIpcMessage T, reply.bytes = window T i s'.conn.inbound ∧
      o = outcomeOf (r.decode reply)

section Windows

variable {T : Target}

/-- A window keeps its bytes when the peer writes more. -/
theorem window_grown {i count : Nat} {xs ys : List UInt8} (grown : xs <+: ys)
    (lt : i < count) (enough : count * sizeOfMessage T ≤ xs.length) :
    window T i ys = window T i xs := by
  obtain ⟨more, rfl⟩ := grown
  refine slice_append_left more ?_
  calc i * sizeOfMessage T + sizeOfMessage T = (i + 1) * sizeOfMessage T := by ring
    _ ≤ count * sizeOfMessage T := Nat.mul_le_mul_right _ lt
    _ ≤ xs.length := enough

theorem length_window {i count : Nat} {xs : List UInt8} (lt : i < count)
    (enough : count * sizeOfMessage T ≤ xs.length) :
    (window T i xs).length = sizeOfMessage T := by
  refine length_slice ?_
  calc i * sizeOfMessage T + sizeOfMessage T = (i + 1) * sizeOfMessage T := by ring
    _ ≤ count * sizeOfMessage T := Nat.mul_le_mul_right _ lt
    _ ≤ xs.length := enough

/-- In step, as many whole windows are taken as requests were made. -/
theorem InStep.length_taken {s s' : Session} {es : List (Transition Session Done)}
    (inStep : InStep T s es s') :
    s'.conn.taken.length = (es.filterMap requestOf).length * sizeOfMessage T := by
  have every : ∀ count, count ≤ (es.filterMap requestOf).length →
      (((List.range count).map fun i => (⟨window T i s'.conn.inbound, true⟩ : Stretch)).flatMap
        Stretch.bytes).length = count * sizeOfMessage T := by
    intro count le
    induction count with
    | zero => simp
    | succ count ih =>
        rw [List.range_succ, List.map_append, List.flatMap_append, List.length_append,
          ih (Nat.le_of_succ_le le), List.map_singleton, List.flatMap_singleton,
          length_window le inStep.enough]
        ring
  rw [Conn.taken, inStep.reads]
  exact every _ (le_refl _)

end Windows

/-! ## What completed operations keep -/

section Steps

variable {T : Target} {s : Session} {es : List (Transition Session Done)}
  {e : Transition Session Done}

theorem InStep.windows_grown {s' : Session} (inStep : InStep T s es s') {inbound : List UInt8}
    (grown : s'.conn.inbound <+: inbound) :
    ((List.range (es.filterMap requestOf).length).map fun i =>
        (⟨window T i s'.conn.inbound, true⟩ : Stretch)) =
      (List.range (es.filterMap requestOf).length).map fun i => ⟨window T i inbound, true⟩ := by
  apply List.map_congr_left
  intro i member
  rw [window_grown grown (List.mem_range.mp member) inStep.enough]

theorem InStep.results_grown {s' : Session} (inStep : InStep T s es s') {inbound : List UInt8}
    (grown : s'.conn.inbound <+: inbound) {i : Nat} {r : Request} {o : Outcome Error Value}
    (there : (es.filterMap requestOf)[i]? = some (r, o)) :
    ∃ reply : RawIpcMessage T, reply.bytes = window T i inbound ∧
      o = outcomeOf (r.decode reply) := by
  obtain ⟨reply, bytes, result⟩ := inStep.results i r o there
  obtain ⟨lt, _⟩ := List.getElem?_eq_some_iff.mp there
  exact ⟨reply, by rw [bytes, window_grown grown lt inStep.enough], result⟩

/-- An operation that is no request adds what it writes, and takes nothing. -/
theorem InStep.other (inStep : InStep T s es e.before) (noRequest : requestOf e = none)
    (held : e.after.client = e.before.client) {bytes : List UInt8}
    (after : e.after.conn = e.before.conn.send .image bytes)
    (written : outbound T e = bytes.map (Prod.mk .image)) : InStep T s (es ++ [e]) e.after := by
  have grown : e.before.conn.inbound <+: e.after.conn.inbound := by
    rw [after]
    exact e.before.conn.inbound_send _ _
  have same : (es ++ [e]).filterMap requestOf = es.filterMap requestOf := by
    rw [List.filterMap_append, List.filterMap_cons_none noRequest, List.filterMap_nil,
      List.append_nil]
  refine ⟨held.trans inStep.held, ?_, ?_, ?_, ?_, ?_⟩
  · rw [after, Conn.closed_send, inStep.writable]
  · rw [after, Conn.sent_send, inStep.sent, List.flatMap_append, List.flatMap_singleton, written]
  · rw [same]
    exact inStep.enough.trans grown.length_le
  · rw [same, ← inStep.windows_grown grown, after, Conn.reads_send, inStep.reads]
  · rw [same]
    exact fun i r o there => inStep.results_grown grown there

/-- A completed request takes the next window. -/
theorem InStep.request (inStep : InStep T s es e.before) {r : Request} {o : Outcome Error Value}
    (label : e.label = ⟨.request r, o⟩) (held : e.after.client = e.before.client)
    {reply : RawIpcMessage T}
    (read : reply.bytes <+: (e.before.conn.send .request (r.message T).bytes).available)
    (after : e.after.conn =
      (e.before.conn.send .request (r.message T).bytes).record ⟨reply.bytes, true⟩)
    (result : o = outcomeOf (r.decode reply)) : InStep T s (es ++ [e]) e.after := by
  have grown : e.before.conn.inbound <+: e.after.conn.inbound := by
    rw [after]
    exact e.before.conn.inbound_send _ _
  have asks : requestOf e = some (r, o) := by
    simp only [requestOf, label]
  have more : (es ++ [e]).filterMap requestOf = es.filterMap requestOf ++ [(r, o)] := by
    rw [List.filterMap_append, List.filterMap_cons_some asks, List.filterMap_nil]
  have count : ((es ++ [e]).filterMap requestOf).length = (es.filterMap requestOf).length + 1 := by
    rw [more, List.length_append, List.length_singleton]
  have left : reply.bytes <+:
      e.after.conn.inbound.drop ((es.filterMap requestOf).length * sizeOfMessage T) := by
    rw [after, ← inStep.length_taken]
    exact read
  have here : window T (es.filterMap requestOf).length e.after.conn.inbound = reply.bytes := by
    rw [window, slice, ← reply.length_bytes]
    refine (List.prefix_iff_eq_take.mp ?_).symm
    rw [reply.length_bytes]
    exact left
  have room : ((es.filterMap requestOf).length + 1) * sizeOfMessage T ≤
      e.after.conn.inbound.length := by
    have positive := sizeOfMessage_pos T
    have fits := left.length_le
    rw [reply.length_bytes, List.length_drop] at fits
    rw [Nat.succ_mul]
    omega
  refine ⟨held.trans inStep.held, ?_, ?_, ?_, ?_, ?_⟩
  · rw [after, Conn.closed_record, Conn.closed_send, inStep.writable]
  · rw [after, Conn.sent_record, Conn.sent_send, inStep.sent, List.flatMap_append,
      List.flatMap_singleton]
    simp only [outbound, label]
  · rw [count]
    exact room
  · rw [count, List.range_succ, List.map_append, List.map_singleton, here,
      ← inStep.windows_grown grown, ← inStep.reads, after]
    rfl
  · rw [more]
    intro i r' o' there
    rcases Nat.lt_trichotomy i (es.filterMap requestOf).length with before | last | beyond
    · rw [List.getElem?_append_left before] at there
      exact inStep.results_grown grown there
    · rw [List.getElem?_append_right (le_of_eq last.symm), last, Nat.sub_self] at there
      cases there
      exact ⟨reply, by rw [last, here], result⟩
    · rw [List.getElem?_eq_none (by rw [List.length_append, List.length_singleton]; omega)] at there
      cases there

theorem InStep.start (fresh : ∃ peer, s.conn = .fresh peer) : InStep T s [] s := by
  obtain ⟨peer, fresh⟩ := fresh
  refine ⟨rfl, by rw [fresh]; rfl, by rw [fresh]; rfl, by simp, by rw [fresh]; rfl, ?_⟩
  rintro i r o ⟨⟩

/-- **A completed operation keeps requests and replies in step.** -/
theorem InStep.step (inStep : InStep T s es e.before) (step : Step T e)
    (proper : e.before.Proper) (completed : Completed e) : InStep T s (es ++ [e]) e.after := by
  obtain ⟨effect, frame⟩ := step.effect proper
  obtain ⟨t, ⟨action, o⟩, t'⟩ := e
  cases action with
  | request r =>
      have held : t'.client = t.client := (frame.held rfl).1
      obtain ⟨reply, result, _, read, after⟩ := effect.completed completed
      refine inStep.request rfl held read ?_ result
      rw [← after, Session.conn, held]
  | stream image fuel =>
      have held : t'.client = t.client := (frame.held rfl).1
      obtain ⟨n, rfl⟩ : ∃ n, o = .ok n := completed
      have after : t'.net.conns t.client.stream =
          t.conn.send .image (delivered (image.contents t.net)) := by
        change Effect T t _ (t'.net.conns t.client.stream) at effect
        generalize t'.net.conns t.client.stream = conn at effect
        cases effect with
        | streamed inside unsent whole => rw [(whole n rfl).1]
      refine inStep.other rfl held ?_ rfl
      rw [← after, Session.conn, held]
  | release =>
      have held : t'.client = t.client := (frame.held rfl).1
      have after : t'.net.conns t.client.stream = t.conn := by
        change Effect T t _ (t'.net.conns t.client.stream) at effect
        generalize t'.net.conns t.client.stream = conn at effect
        cases effect with
        | released => rfl
      refine @InStep.other _ _ _ ⟨t, _, t'⟩ inStep rfl held [] ?_ rfl
      rw [Conn.send_nil, ← after, Session.conn, held]
  | reconnect => exact completed.elim

theorem Connected.inStep {s' : Session} (connected : Connected s) (run : Run (Step T) s es s')
    (completed : ∀ e ∈ es, Completed e) : InStep T s es s' := by
  induction run with
  | start => exact .start connected.fresh.2
  | @step es e run step ih =>
      have earlier := ih fun x member => completed x (List.mem_append_left _ member)
      exact earlier.step step (connected.run_proper run) (completed e (by simp))

end Steps

/-! ## What a window decodes to -/

/-- The text of a field: the lossy text of the bytes before the first NUL. -/
def textOf (bytes : List UInt8) : String := fromUtf8Lossy (bytes.takeWhile (· != 0))

/-- The outcome of a request, told from the members of its reply. -/
def OutcomeOfReply {T : Target} (r : Request) (reply : RawIpcMessage T)
    (o : Outcome Error Value) : Prop :=
  match r with
  | .getStatus =>
      let current := reply.i32At [.data, .status, .current]
      let lastResult := reply.i32At [.data, .status, .lastResult]
      ((∃ v, o = .ok v) ↔
        (0 ≤ current.toInt ∧ current.toInt ≤ 8) ∧ 0 ≤ lastResult.toInt ∧ lastResult.toInt ≤ 8) ∧
      ∀ v, o = .ok v → ∃ c l, v = .status ⟨c, l, reply.i32At [.data, .status, .error],
        textOf (reply.read [.data, .status, .desc])⟩ ∧ c.toWire = current ∧ l.toWire = lastResult
  | .getUpdateState =>
      let code := i32FromNeBytes T ((reply.read [.data, .msg]).take 4)
      ((∃ v, o = .ok v) ↔ 48 ≤ code.toInt ∧ code.toInt ≤ 55) ∧
      ∀ v, o = .ok v → ∃ state, v = .state state ∧ state.toWire = code
  | .getHwRevision =>
      o = .ok (.hwRevision ⟨textOf (reply.read [.data, .revisions, .boardname]),
        textOf (reply.read [.data, .revisions, .revision])⟩)
  | .getSwupdateVar _ _ =>
      o = .ok (.var ⟨textOf (reply.read [.data, .vars, .varnamespace]),
        textOf (reply.read [.data, .vars, .varname]),
        textOf (reply.read [.data, .vars, .varvalue])⟩)
  | r =>
      (reply.msgType = some .ack → o = .ok r.ackValue) ∧
      (reply.msgType = some .nack → o = .err .rejected) ∧
      (reply.msgType ≠ some .ack → reply.msgType ≠ some .nack → ∃ m, o = .err (.protocol m))

section Decoding

variable {T : Target} (reply : RawIpcMessage T)

theorem acknowledged_outcome {r : Request} (ack : r.isAcknowledged = true) :
    (reply.msgType = some .ack → outcomeOf (r.decode reply) = .ok r.ackValue) ∧
    (reply.msgType = some .nack → outcomeOf (r.decode reply) = .err .rejected) ∧
    (reply.msgType ≠ some .ack → reply.msgType ≠ some .nack →
      ∃ m, outcomeOf (r.decode reply) = .err (.protocol m)) := by
  refine ⟨?_, ?_, ?_⟩
  · intro positive
    rw [Request.decode_acknowledged ack, Request.acknowledged, positive]
    rfl
  · intro negative
    rw [Request.decode_rejected_iff.mpr ⟨ack, negative⟩]
    rfl
  · intro notAck notNack
    obtain ⟨m, failed⟩ := Request.decode_protocol_iff.mpr (.inl ⟨ack, notAck, notNack⟩)
    exact ⟨m, by rw [failed]; rfl⟩

theorem getStatus_outcome :
    OutcomeOfReply .getStatus reply (outcomeOf (Request.getStatus.decode reply)) := by
  simp only [OutcomeOfReply, ← RecoveryStatus.fromWire_isSome_iff, Request.decode,
    Request.statusOf]
  cases current : RecoveryStatus.fromWire (reply.i32At [.data, .status, .current]) with
  | none => exact ⟨by simp [outcomeOf, Except.map], by rintro _ ⟨⟩⟩
  | some c =>
      cases last : RecoveryStatus.fromWire (reply.i32At [.data, .status, .lastResult]) with
      | none => exact ⟨by simp [outcomeOf, Except.map], by rintro _ ⟨⟩⟩
      | some l =>
          refine ⟨by simp [outcomeOf, Except.map], ?_⟩
          rintro v ⟨⟩
          refine ⟨c, l, by rw [textOf, ← cstrFromBytes_eq], ?_, ?_⟩
          · exact (RecoveryStatus.fromWire_eq_some.mp current).symm
          · exact (RecoveryStatus.fromWire_eq_some.mp last).symm

theorem getUpdateState_outcome :
    OutcomeOfReply .getUpdateState reply (outcomeOf (Request.getUpdateState.decode reply)) := by
  simp only [OutcomeOfReply, ← UpdateState.fromWire_isSome_iff, Request.decode, Request.stateOf,
    Request.stateCode]
  cases code : UpdateState.fromWire (i32FromNeBytes T ((reply.read [.data, .msg]).take 4)) with
  | none => exact ⟨by simp [outcomeOf, Except.map], by rintro _ ⟨⟩⟩
  | some state =>
      refine ⟨by simp [outcomeOf, Except.map], ?_⟩
      rintro v ⟨⟩
      exact ⟨state, rfl, (UpdateState.fromWire_eq_some.mp code).symm⟩

/-- What a request decodes is told from the members of its reply. -/
theorem outcome_of_reply (r : Request) :
    OutcomeOfReply r reply (outcomeOf (r.decode reply)) := by
  cases r with
  | getStatus => exact getStatus_outcome reply
  | getUpdateState => exact getUpdateState_outcome reply
  | getHwRevision =>
      simp only [OutcomeOfReply, textOf, ← cstrFromBytes_eq]
      rfl
  | getSwupdateVar varNamespace name =>
      simp only [OutcomeOfReply, textOf, ← cstrFromBytes_eq]
      rfl
  | _ => exact acknowledged_outcome reply rfl

end Decoding

/-! ## Every operation completes -/

/-- What an operation needs to run to completion: a whole reply, or a reader without
errors. -/
def Ready (T : Target) (s : Session) : Action → Prop
  | .request r =>
      sizeOfMessage T ≤ (s.conn.send .request (r.message T).bytes).available.length
  | .stream image fuel =>
      endsCleanly (image.contents s.net) = true ∧
        (delivered (image.contents s.net)).length < fuel
  | .release => True
  | .reconnect => False

/-- On sockets without failures every operation that is ready runs to
completion. -/
theorem served_completes {T : Target} {s : Session} (writable : s.conn.closed = false)
    {a : Action} (ready : Ready T s a) : Completed (s.served T a) := by
  cases a with
  | request r =>
      obtain ⟨resp, read⟩ := RawIpcMessage.exists_prefix ready
      obtain ⟨ends, _⟩ := served_request resp writable read
      rw [ends]
      exact Request.not_cut r resp
  | stream image fuel => exact Image.run_stream writable ready.1 ready.2
  | release => trivial
  | reconnect => exact ready.elim

/-! ## Runs of completed operations -/

/-- **Requests and replies stay in step.** After operations that all ran to
completion on one connection, the bytes sent are the messages and the images in
order, the bytes read are the windows in order, and the outcome of the i-th request
is told from the i-th window. The next operation can be any that is ready. -/
theorem Connected.lockstep {T : Target} {s s' : Session} {es : List (Transition Session Done)}
    (connected : Connected s) (run : Run (Step T) s es s') (completed : ∀ e ∈ es, Completed e) :
    s'.client = s.client ∧
      s'.conn.sent = es.flatMap (outbound T) ∧
      s'.conn.reads = (List.range (es.filterMap requestOf).length).map (fun i =>
        ⟨window T i s'.conn.inbound, true⟩) ∧
      (∀ i r o, (es.filterMap requestOf)[i]? = some (r, o) →
        ∃ reply : RawIpcMessage T, reply.bytes = window T i s'.conn.inbound ∧
          o = outcomeOf (r.decode reply) ∧ OutcomeOfReply r reply o) ∧
      ∀ a : Action, a.onHandle = s'.installing → Ready T s' a →
        Step T (s'.served T a) ∧ Completed (s'.served T a) := by
  have inStep := connected.inStep run completed
  refine ⟨inStep.held, inStep.sent, inStep.reads, ?_, ?_⟩
  · intro i r o there
    obtain ⟨reply, bytes, result⟩ := inStep.results i r o there
    refine ⟨reply, bytes, result, ?_⟩
    rw [result]
    exact outcome_of_reply reply r
  · intro a permitted ready
    exact ⟨step_served permitted, served_completes inStep.writable ready⟩

/-- An installation and its image, of three bytes. -/
theorem lockstep_installation :
    ∃ (s s' : Session) (es : List (Transition Session Done)), es.length = 2 ∧
      (∃ e ∈ es, requestOf e = some (.install .new, .ok (.installation {}))) ∧
      s'.client = s.client ∧
      s'.conn.sent = es.flatMap (outbound .x86_64) ∧
      s'.conn.reads = (List.range (es.filterMap requestOf).length).map (fun i =>
        ⟨window .x86_64 i s'.conn.inbound, true⟩) ∧
      (∀ i r o, (es.filterMap requestOf)[i]? = some (r, o) →
        ∃ reply : RawIpcMessage .x86_64, reply.bytes = window .x86_64 i s'.conn.inbound ∧
          o = outcomeOf (r.decode reply) ∧ OutcomeOfReply r reply o) ∧
      ∀ a : Action, a.onHandle = s'.installing → Ready .x86_64 s' a →
        Step .x86_64 (s'.served .x86_64 a) ∧ Completed (s'.served .x86_64 a) := by
  obtain ⟨e, e', o, run, label, _, label', _, _, _, clean, _⟩ :=
    @installed_and_streamed .x86_64 _ (RawIpcMessage.msgType_new .ack) [.data [1, 2, 3]] 4
      (by decide)
  have completed : ∀ x ∈ [e, e'], Completed x := by
    intro x member
    rcases List.mem_pair.mp member with rfl | rfl
    · rw [Completed, label]
      exact not_cut_ok _
    · rw [Completed, label']
      exact ⟨_, clean rfl⟩
  refine ⟨_, _, [e, e'], rfl, ⟨e, List.mem_cons_self, ?_⟩,
    (connected_opened _ _ _).lockstep run completed⟩
  rw [requestOf, label]
  rfl

end SwupdateIpc
