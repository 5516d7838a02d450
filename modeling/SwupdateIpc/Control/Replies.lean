import SwupdateIpc.Control.Exchange

/-!
# What a reply is worth

`Replied` relates a request and a reply to the outcomes of the executions whose
exchange took that reply. There is one such outcome (`replied_iff`), and it is
what the request decodes.

The requests that are acknowledged look at the type of the reply, and the four
queries do not; no request looks at the magic. So a negative reply is an error
of the acknowledged requests only, and a reply of unknown type, or without the
magic, is an error only where something else in it cannot be decoded.
`reply_type_honoured_iff` gives the exact condition for the type, and
`foreign_reply_refused_iff` gives it for the magic.
-/

set_option autoImplicit false

namespace SwupdateIpc

open Foundations Wire

/-! ## The outcome of a reply -/

/-- Some execution of the request takes the reply in full and has the
outcome. -/
def Replied (T : Target) (r : Request) (reply : RawIpcMessage T) (o : Outcome Error Value) :
    Prop :=
  ∃ c c' : Config ControlClient (World Origin),
    Exec (World.device .request) (r.perform T) c o c' ∧
      (c'.world.conns c.own.stream).reads =
        (c.world.conns c.own.stream).reads ++ [⟨reply.bytes, true⟩]

variable {T : Target}

/-- **A reply has one outcome**: what the request decodes from it. -/
theorem replied_iff {r : Request} {reply : RawIpcMessage T} {o : Outcome Error Value} :
    Replied T r reply o ↔ o = outcomeOf (r.decode reply) := by
  constructor
  · rintro ⟨c, c', exec, taken⟩
    obtain ⟨_, exchange⟩ := exec_perform exec
    generalize c'.world = w' at exchange taken
    cases exchange with
    | cutWrite written unsent cut =>
        simp [World.send] at taken
    | cutRead writable read short cut =>
        simp [World.send, World.record] at taken
    | complete resp writable read =>
        have same : resp.bytes = reply.bytes := by
          simpa [World.send, World.record] using taken
        obtain rfl : resp = reply := Record.ext same
        rfl
  · rintro rfl
    let client : ControlClient := ⟨0, ⟨"", "", 0⟩⟩
    let w : World Origin :=
      { World.initial (fun _ => []) with conns := fun _ => .fresh (.scripted reply.bytes) }
    have read : reply.bytes <+: ((w.send .request client.stream (r.message T).bytes).conns
        client.stream).available := List.prefix_refl reply.bytes
    have exec := World.exec_serve .request (r.perform T) ⟨client, w⟩
    rw [run_perform r client w reply rfl read] at exec
    exact ⟨⟨client, w⟩, _, exec, by simp [World.send, World.record]⟩

/-! ## Which replies are errors -/

namespace Request

/-- The reply carries a code that the query does not know. The other requests
decode every payload. -/
def Undecodable (r : Request) (reply : RawIpcMessage T) : Prop :=
  match r with
  | .getStatus =>
      RecoveryStatus.fromWire (reply.i32At [.data, .status, .current]) = none ∨
        RecoveryStatus.fromWire (reply.i32At [.data, .status, .lastResult]) = none
  | .getUpdateState => UpdateState.fromWire (stateCode reply) = none
  | _ => False

theorem acknowledged_rejected_iff {reply : RawIpcMessage T} :
    acknowledged reply = .error .rejected ↔ reply.msgType = some .nack := by
  unfold acknowledged
  split
  next ack => simp [ack]
  next nack => simp [nack]
  next _ notNack =>
      constructor
      · rintro ⟨⟩
      · exact fun nack => absurd nack notNack

theorem acknowledged_protocol_iff {reply : RawIpcMessage T} :
    (∃ m, acknowledged reply = .error (.protocol m)) ↔
      reply.msgType ≠ some .ack ∧ reply.msgType ≠ some .nack := by
  unfold acknowledged
  split
  next ack => simp [ack]
  next nack => simp [nack]
  next notAck notNack => exact ⟨fun _ => ⟨notAck, notNack⟩, fun _ => ⟨_, rfl⟩⟩

theorem statusOf_cases (reply : RawIpcMessage T) :
    ((∃ status, statusOf reply = .ok status) ∧ ¬ getStatus.Undecodable reply) ∨
      ((∃ m, statusOf reply = .error (.protocol m)) ∧ getStatus.Undecodable reply) := by
  simp only [statusOf, Undecodable]
  cases current : RecoveryStatus.fromWire (reply.i32At [.data, .status, .current]) with
  | none => exact .inr ⟨⟨_, rfl⟩, .inl rfl⟩
  | some code =>
      cases last : RecoveryStatus.fromWire (reply.i32At [.data, .status, .lastResult]) with
      | none => exact .inr ⟨⟨_, rfl⟩, .inr rfl⟩
      | some code' => exact .inl ⟨⟨_, rfl⟩, by simp⟩

theorem stateOf_cases (reply : RawIpcMessage T) :
    ((∃ state, stateOf reply = .ok state) ∧ ¬ getUpdateState.Undecodable reply) ∨
      ((∃ m, stateOf reply = .error (.protocol m)) ∧ getUpdateState.Undecodable reply) := by
  simp only [stateOf, Undecodable]
  cases code : UpdateState.fromWire (stateCode reply) with
  | none => exact .inr ⟨⟨_, rfl⟩, rfl⟩
  | some state => exact .inl ⟨⟨_, rfl⟩, by simp⟩

/-- What a query decodes does not depend on the type of the reply: it is a value,
or a code that the query does not know. -/
theorem decode_query_cases {r : Request} (query : r.isAcknowledged = false)
    (reply : RawIpcMessage T) :
    ((∃ v, r.decode reply = .ok v) ∧ ¬ r.Undecodable reply) ∨
      ((∃ m, r.decode reply = .error (.protocol m)) ∧ r.Undecodable reply) := by
  cases r with
  | getStatus =>
      simp only [decode]
      rcases statusOf_cases reply with ⟨⟨v, result⟩, known⟩ | ⟨⟨m, result⟩, unknown⟩
      · exact .inl ⟨⟨_, by rw [result]; rfl⟩, known⟩
      · exact .inr ⟨⟨m, by rw [result]; rfl⟩, unknown⟩
  | getUpdateState =>
      simp only [decode]
      rcases stateOf_cases reply with ⟨⟨v, result⟩, known⟩ | ⟨⟨m, result⟩, unknown⟩
      · exact .inl ⟨⟨_, by rw [result]; rfl⟩, known⟩
      · exact .inr ⟨⟨m, by rw [result]; rfl⟩, unknown⟩
  | getHwRevision => exact .inl ⟨⟨_, rfl⟩, id⟩
  | getSwupdateVar varNamespace name => exact .inl ⟨⟨_, rfl⟩, id⟩
  | _ => cases query

/-- An acknowledged request decodes every payload. -/
theorem not_undecodable {r : Request} (ack : r.isAcknowledged = true) (reply : RawIpcMessage T) :
    ¬ r.Undecodable reply := by
  cases r <;> first | exact id | cases ack

theorem decode_rejected_iff {r : Request} {reply : RawIpcMessage T} :
    r.decode reply = .error .rejected ↔ r.isAcknowledged = true ∧ reply.msgType = some .nack := by
  cases ack : r.isAcknowledged with
  | true =>
      rw [decode_acknowledged ack, ← acknowledged_rejected_iff]
      cases acknowledged reply <;> simp [Except.map]
  | false =>
      rcases decode_query_cases ack reply with ⟨⟨v, result⟩, _⟩ | ⟨⟨m, result⟩, _⟩ <;>
        simp [result]

theorem decode_protocol_iff {r : Request} {reply : RawIpcMessage T} :
    (∃ m, r.decode reply = .error (.protocol m)) ↔
      (r.isAcknowledged = true ∧ reply.msgType ≠ some .ack ∧ reply.msgType ≠ some .nack) ∨
        r.Undecodable reply := by
  cases ack : r.isAcknowledged with
  | true =>
      have decodable := not_undecodable ack reply
      rw [decode_acknowledged ack, ← acknowledged_protocol_iff]
      cases acknowledged reply <;> simp [Except.map, decodable]
  | false =>
      rcases decode_query_cases ack reply with ⟨⟨v, result⟩, known⟩ | ⟨⟨m, result⟩, unknown⟩
      · simp [result, known]
      · simp [result, unknown]

end Request

/-! ## The type of a reply -/

/-- The outcome is the one that the type of the reply calls for: a negative
reply is a rejection, a reply of unknown type is a violation of the protocol,
and neither gives a value. -/
def HonoursType (reply : RawIpcMessage T) (o : Outcome Error Value) : Prop :=
  (reply.msgType = some .nack → o = .err .rejected) ∧
    (reply.msgType = none → ∃ m, o = .err (.protocol m)) ∧
      (reply.msgType = some .nack ∨ reply.msgType = none → ∀ v, o ≠ .ok v)

theorem honoursType_outcomeOf {result : Except Error Value} {reply : RawIpcMessage T} :
    HonoursType reply (outcomeOf result) ↔
      (reply.msgType = some .nack → result = .error .rejected) ∧
        (reply.msgType = none → ∃ m, result = .error (.protocol m)) := by
  cases result with
  | ok v =>
      simp only [HonoursType, outcomeOf, reduceCtorEq, imp_false, exists_false]
      refine ⟨fun honoured => ⟨honoured.1, honoured.2.1⟩, ?_⟩
      intro honoured
      refine ⟨honoured.1, honoured.2, ?_⟩
      rintro (nack | unknown)
      · exact absurd nack honoured.1
      · exact absurd unknown honoured.2
  | error e => simp [HonoursType, outcomeOf]

/-- **When the type of a reply is honoured.** Every reply has an outcome, and the
outcome is the one its type calls for exactly when the request is acknowledged,
or when the reply is not negative and, if its type is unknown, carries a code
that the query does not know either. -/
theorem reply_type_honoured_iff (r : Request) (reply : RawIpcMessage T) :
    (∃ o, Replied T r reply o) ∧
      ((∀ o, Replied T r reply o → HonoursType reply o) ↔
        (r.isAcknowledged = true ∨
          (reply.msgType ≠ some .nack ∧ (reply.msgType = none → r.Undecodable reply)))) := by
  refine ⟨⟨_, replied_iff.mpr rfl⟩, ?_⟩
  simp only [replied_iff, forall_eq, honoursType_outcomeOf, Request.decode_rejected_iff,
    Request.decode_protocol_iff]
  cases ack : r.isAcknowledged with
  | true => simp +contextual
  | false => simp [imp_false]

theorem statusOf_new (msgType : MsgType) :
    Request.statusOf (RawIpcMessage.new T msgType) = .ok ⟨.idle, .idle, 0, ""⟩ := by
  have current : (rawIpcMessage T.sizeT).place? [.data, .status, .current] = some (8, i32) := by
    cases T.sizeT <;> rfl
  have lastResult : (rawIpcMessage T.sizeT).place? [.data, .status, .lastResult] =
      some (12, i32) := by
    cases T.sizeT <;> rfl
  have error : (rawIpcMessage T.sizeT).place? [.data, .status, .error] = some (16, i32) := by
    cases T.sizeT <;> rfl
  have desc : (rawIpcMessage T.sizeT).place? [.data, .status, .desc] = some (20, u8s 2048) := by
    cases T.sizeT <;> rfl
  have zero : i32FromNeBytes T (List.replicate i32.size 0) = 0 := i32FromNeBytes_zeros T
  have empty : cstrFromBytes (List.replicate (u8s 2048).size 0) = "" := by
    rw [cstrFromBytes_eq, show (u8s 2048).size = 2047 + 1 from rfl, List.replicate_succ]
    rfl
  simp only [Request.statusOf, RawIpcMessage.i32At, RawIpcMessage.read_new current (by omega),
    RawIpcMessage.read_new lastResult (by omega), RawIpcMessage.read_new error (by omega),
    RawIpcMessage.read_new desc (by omega), zero, empty]
  rfl

/-- The negative reply that is all zeros otherwise is a status to the status
query: both codes are zero, and the description is empty. -/
theorem getStatus_accepts_nack :
    (RawIpcMessage.new .x86_64 .nack).msgType = some .nack ∧
      Replied .x86_64 .getStatus (RawIpcMessage.new .x86_64 .nack)
        (.ok (.status ⟨.idle, .idle, 0, ""⟩)) ∧
      ¬ ∀ (T : Target) (r : Request) (reply : RawIpcMessage T) (o : Outcome Error Value),
          Replied T r reply o → HonoursType reply o := by
  have negative : (RawIpcMessage.new .x86_64 .nack).msgType = some .nack :=
    RawIpcMessage.msgType_new .nack
  have status : Replied .x86_64 .getStatus (RawIpcMessage.new .x86_64 .nack)
      (.ok (.status ⟨.idle, .idle, 0, ""⟩)) := by
    rw [replied_iff, Request.decode, statusOf_new]
    rfl
  refine ⟨negative, status, ?_⟩
  intro honoured
  have rejected := (honoured _ _ _ _ status).1 negative
  cases rejected

end SwupdateIpc
