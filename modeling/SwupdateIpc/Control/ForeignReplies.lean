import SwupdateIpc.Control.InstallSequence

/-!
# Replies without the magic

A message can be checked for the magic, and no request makes the check. So a reply
without it is refused only where the request stumbles over something else in it:
an acknowledged request over its type, a query over a code it does not know.

In particular an installation begins on any acknowledgement. Images are streamed on
the strength of a reply with the magic in the runs in which every reply meets that
condition (`foreign_reply_refused_iff`), and not in others
(`install_trusts_foreign_ack`).
-/

set_option autoImplicit false

namespace SwupdateIpc

open Foundations Wire

variable {T : Target}

/-- The reply carries the magic, or the request refuses it for another reason. -/
def Refusable (r : Request) (reply : RawIpcMessage T) : Prop :=
  reply.isValid = true ∨
    (r.isAcknowledged = true ∧ reply.msgType ≠ some .ack ∧ reply.msgType ≠ some .nack) ∨
      r.Undecodable reply

/-- The last request of a run was an install request, this is its reply, and
only its handle was used since. -/
def StreamsOn (es : List (Transition Session Done)) (fd : Nat) (reply : RawIpcMessage T) : Prop :=
  ∃ es₁ x es₂ req, es = es₁ ++ x :: es₂ ∧ Answered x (.install req) reply ∧
    x.before.client.stream = fd ∧ ∀ y ∈ es₂, ∃ image fuel, y.label.action = .stream image fuel

/-- **A handle comes from an acknowledged install request**, on the connection
that the client still holds. -/
theorem handle_from_install {s s' : Session} {es : List (Transition Session Done)}
    (connected : Connected s) (run : Run (Step T) s es s') (alive : s'.installing = true) :
    ∃ reply : RawIpcMessage T, reply.msgType = some .ack ∧
      StreamsOn es s'.client.stream reply := by
  obtain ⟨_, es₁, x, es₂, req, reply, split, answered, ack, same, streams, _⟩ :=
    connected.granted run alive
  exact ⟨reply, ack, es₁, x, es₂, req, split, answered, same, streams⟩

/-- **When a reply without the magic is refused.** A request refuses it exactly
when it refuses the rest of the reply. In a run in which every reply taken is
refused or carries the magic, every image is streamed on the strength of an
acknowledgement with the magic, taken on the same connection. -/
theorem foreign_reply_refused_iff (T : Target) :
    (∀ (r : Request) (reply : RawIpcMessage T), (∃ o, Replied T r reply o) ∧
      ((∀ o, Replied T r reply o → reply.isValid = false → ∃ m, o = .err (.protocol m)) ↔
        Refusable r reply)) ∧
    ∀ (s s' : Session) (es : List (Transition Session Done)) (e : Transition Session Done)
      (image : Image) (fuel : Nat),
      Connected s → Run (Step T) s (es ++ [e]) s' →
      (∀ x ∈ es, ∀ (r : Request) (reply : RawIpcMessage T), Answered x r reply →
        Refusable r reply) →
      e.label.action = .stream image fuel →
      ∃ reply : RawIpcMessage T, reply.isValid = true ∧ reply.msgType = some .ack ∧
        StreamsOn es e.before.client.stream reply := by
  refine ⟨fun r reply => ⟨⟨_, replied_iff.mpr rfl⟩, ?_⟩, ?_⟩
  · simp only [replied_iff, forall_eq, Refusable]
    cases valid : reply.isValid with
    | true => simp
    | false =>
        rw [← Request.decode_protocol_iff]
        cases r.decode reply <;> simp [outcomeOf]
  · intro s s' es e image fuel connected run refusable streams
    obtain ⟨before, step, _⟩ := run.cut
    have alive : e.before.installing = true := by
      rw [← step.1, streams]
      rfl
    obtain ⟨reply, ack, strength⟩ := handle_from_install connected before alive
    refine ⟨reply, ?_, ack, strength⟩
    obtain ⟨es₁, x, es₂, req, rfl, answered, _⟩ := strength
    rcases refusable x (by simp) _ reply answered with valid | ⟨_, notAck, _⟩ | undecodable
    · exact valid
    · exact absurd ack notAck
    · cases undecodable

/-- An acknowledgement that carries no magic. -/
def foreignAck (T : Target) : RawIpcMessage T :=
  (RawIpcMessage.zeroed T).store [.msgType] (i32ToNeBytes T MsgType.ack.toI32)

theorem isValid_foreignAck (T : Target) : (foreignAck T).isValid = false := by
  have full : ∀ v, (i32ToNeBytes T v).length = i32.size := length_i32ToNeBytes T
  have apart : (0 : Nat) + i32.size ≤ 4 := le_refl 4
  have inside := Layout.place?_inside (rawIpcMessage_wellAligned T.sizeT)
    (RawIpcMessage.place?_magic T.sizeT)
  have zeros : (RawIpcMessage.zeroed T).read [.magic] = List.replicate 4 0 := by
    rw [Record.read_eq _ (RawIpcMessage.place?_magic _), RawIpcMessage.zeroed, Record.bytes_zeroed]
    exact slice_replicate 0 inside
  rw [RawIpcMessage.isValid, RawIpcMessage.i32At, foreignAck, RawIpcMessage.store,
    Record.read_write_apart _ _ (RawIpcMessage.place?_msgType _) (RawIpcMessage.place?_magic _)
      (.inl apart) (full _), zeros, i32FromNeBytes_zeros]
  rfl

theorem msgType_foreignAck (T : Target) : (foreignAck T).msgType = some .ack := by
  have full : ∀ v, (i32ToNeBytes T v).length = i32.size := length_i32ToNeBytes T
  rw [RawIpcMessage.msgType, RawIpcMessage.i32At, foreignAck, RawIpcMessage.store,
    Record.read_write_same _ _ (RawIpcMessage.place?_msgType _) (full _),
    i32FromNeBytes_i32ToNeBytes, MsgType.fromI32_toI32]

/-- On any acknowledgement an installation begins and its image is streamed. -/
theorem streams_on_ack {reply : RawIpcMessage T} (ack : reply.msgType = some .ack) :
    ∃ (s : Session) (e e' : Transition Session Done), Connected s ∧
      Run (Step T) s [e, e'] e'.after ∧ Answered e (.install .new) reply ∧
        (connAfter e').sent = e'.before.conn.sent ++ [(.image, 1), (.image, 2), (.image, 3)] := by
  obtain ⟨e, e', o, run, label, reads, _, sent, _⟩ :=
    @installed_and_streamed T reply ack [.data [1, 2, 3]] 4 (by decide)
  exact ⟨_, e, e', connected_opened _ _ _, run, ⟨by rw [label], reads⟩, sent⟩

/-- An acknowledgement without the magic gives a handle, and the image is streamed
on it. -/
theorem install_trusts_foreign_ack :
    (foreignAck .x86_64).isValid = false ∧
      Replied .x86_64 (.install .new) (foreignAck .x86_64) (.ok (.installation {})) ∧
      (∃ (s : Session) (e e' : Transition Session Done), Connected s ∧
        Run (Step .x86_64) s [e, e'] e'.after ∧
          Answered e (.install .new) (foreignAck .x86_64) ∧
          (connAfter e').sent = e'.before.conn.sent ++ [(.image, 1), (.image, 2), (.image, 3)]) ∧
      ¬ ∀ (T : Target) (r : Request) (reply : RawIpcMessage T) (o : Outcome Error Value),
          Replied T r reply o → reply.isValid = false → ∃ m, o = .err (.protocol m) := by
  have foreign := isValid_foreignAck .x86_64
  have accepted : (Request.install .new).decode (foreignAck .x86_64) = .ok (.installation {}) := by
    simp only [Request.decode, Request.acknowledged, msgType_foreignAck]
    rfl
  have replied : Replied .x86_64 (.install .new) (foreignAck .x86_64) (.ok (.installation {})) := by
    rw [replied_iff, accepted]
    rfl
  refine ⟨foreign, replied, streams_on_ack (msgType_foreignAck _), ?_⟩
  intro refused
  obtain ⟨m, failed⟩ := refused _ _ _ _ replied foreign
  cases failed

end SwupdateIpc
