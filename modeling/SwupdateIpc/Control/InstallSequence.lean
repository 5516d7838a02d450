import SwupdateIpc.Control.Replies
import SwupdateIpc.Control.CutTransfers
import SwupdateIpc.Control.Pairing

/-!
# Install, then stream

An image can only be streamed on the handle of an installation, and a handle comes
from an install request that was acknowledged. While the handle is alive, the client
is borrowed, so nothing but images follows the request on its connection
(`Connected.granted`).

The handle is not used up by a transfer: an image may follow another one on the
strength of the same request (`second_image_on_one_request`). Nor is the acknowledgement
that made the handle always the server's answer to the request: it is the reply that the
exchange took (`image_on_stale_acknowledgement`). An image follows a request of its own,
which the server answered with an ACK, exactly when it is the first on its handle and
either every earlier operation on the connection was settled or the reply in the place
of the request is an ACK as well (`image_follows_own_request_iff`).
-/

set_option autoImplicit false

namespace SwupdateIpc

open Foundations Wire

variable {T : Target}

/-- The transition is a request that took this reply in full. -/
def Answered (e : Transition Session Done) (r : Request) (reply : RawIpcMessage T) : Prop :=
  e.label.action = .request r ∧
    (connAfter e).reads = e.before.conn.reads ++ [⟨reply.bytes, true⟩]

/-- Only an install request returns a handle, and only on an acknowledgement. -/
theorem decode_installation {r : Request} {reply : RawIpcMessage T} {handle : Installation}
    (accepted : r.decode reply = .ok (.installation handle)) :
    (∃ req, r = .install req) ∧ reply.msgType = some .ack := by
  cases ack : r.isAcknowledged with
  | false =>
      cases r with
      | getStatus =>
          simp only [Request.decode] at accepted
          cases status : Request.statusOf reply <;> rw [status] at accepted <;> cases accepted
      | getUpdateState =>
          simp only [Request.decode] at accepted
          cases state : Request.stateOf reply <;> rw [state] at accepted <;> cases accepted
      | getHwRevision => cases accepted
      | getSwupdateVar varNamespace name => cases accepted
      | _ => cases ack
  | true =>
      rw [Request.decode_acknowledged ack] at accepted
      cases result : Request.acknowledged reply with
      | error e =>
          rw [result] at accepted
          cases accepted
      | ok u =>
          rw [result] at accepted
          refine ⟨?_, ?_⟩
          · cases r with
            | install req => exact ⟨req, rfl⟩
            | _ => cases accepted
          · unfold Request.acknowledged at result
            split at result
            next positive => exact positive
            next => cases result
            next => cases result

/-- A request that returned a value sent its message, took a reply and decoded it. -/
theorem Step.exchanged {e : Transition Session Done} (step : Step T e) (proper : e.before.Proper)
    {r : Request} {v : Value} (label : e.label = ⟨.request r, .ok v⟩) :
    ∃ reply : RawIpcMessage T, r.decode reply = .ok v ∧
      reply.bytes <+: (e.before.conn.send .request (r.message T).bytes).available ∧
        connAfter e =
          (e.before.conn.send .request (r.message T).bytes).record ⟨reply.bytes, true⟩ := by
  obtain ⟨effect, _⟩ := step.effect proper
  obtain ⟨s, label', s'⟩ := e
  cases label
  obtain ⟨reply, returned, _, read, after⟩ := effect.completed (not_cut_ok v)
  refine ⟨reply, ?_, read, after⟩
  cases decoded : r.decode reply with
  | ok v' =>
      rw [decoded] at returned
      cases returned
      rfl
  | error e =>
      rw [decoded] at returned
      cases returned

/-- A request that returned a value is settled. -/
theorem Step.settled {e : Transition Session Done} (step : Step T e) (proper : e.before.Proper)
    {r : Request} {v : Value} (label : e.label = ⟨.request r, .ok v⟩) : wrote e = took e := by
  obtain ⟨reply, _, _, after⟩ := step.exchanged proper label
  have full : (r.message T).bytes.length = sizeOfMessage T := (r.message T).length_bytes
  have same : reply.bytes.length = sizeOfMessage T := reply.length_bytes
  rw [wrote, took, after, asked_record, asked_send_request, Conn.taken_record, Conn.taken_send,
    List.length_append, full, same, Nat.add_sub_cancel_left, Nat.add_sub_cancel_left]

/-- The last request on the connection held was an install request, it was
acknowledged, and since then nothing but the bytes `images` of images followed it. -/
def Granted (T : Target) (es : List (Transition Session Done)) (s : Session)
    (images : List UInt8) : Prop :=
  ∃ es₁ x es₂ req, ∃ reply : RawIpcMessage T, es = es₁ ++ x :: es₂ ∧
    Answered x (.install req) reply ∧ reply.msgType = some .ack ∧
    x.before.client.stream = s.client.stream ∧
    (∀ y ∈ es₂, ∃ image fuel, y.label.action = .stream image fuel) ∧
    s.conn.sent = x.before.conn.sent ++
      ((Request.install req).message T).bytes.map (Prod.mk .request) ++ images.map (Prod.mk .image)

section Sequence

variable {s s' : Session} {es : List (Transition Session Done)} {e : Transition Session Done}

/-- A transition that keeps the client leaves its connection as the one held. -/
theorem sent_held (held : e.after.client = e.before.client) :
    e.after.conn.sent = (connAfter e).sent := by
  rw [Session.conn, held]
  rfl

/-- A request that returned a handle is an install request that took an ACK, and the
connection it was sent on is the one held. -/
theorem Step.installed (step : Step T e) (proper : e.before.Proper) {r : Request}
    {handle : Installation} (label : e.label = ⟨.request r, .ok (.installation handle)⟩) :
    ∃ req, ∃ reply : RawIpcMessage T, r = .install req ∧ reply.msgType = some .ack ∧
      e.after.client = e.before.client ∧
      reply.bytes <+: (e.before.conn.send .request (r.message T).bytes).available ∧
        connAfter e =
          (e.before.conn.send .request (r.message T).bytes).record ⟨reply.bytes, true⟩ := by
  obtain ⟨reply, accepted, read, after⟩ := step.exchanged proper label
  obtain ⟨⟨req, rfl⟩, ack⟩ := decode_installation accepted
  obtain ⟨_, frame⟩ := step.effect proper
  obtain ⟨held, _⟩ := frame.held (by rw [label]; rfl)
  exact ⟨req, reply, rfl, ack, held, read, after⟩

/-- An install request that is accepted grants the first image. -/
theorem Step.grants (step : Step T e) (proper : e.before.Proper) {r : Request}
    {handle : Installation} (label : e.label = ⟨.request r, .ok (.installation handle)⟩) :
    Granted T (es ++ [e]) e.after [] := by
  obtain ⟨req, reply, rfl, ack, held, _, after⟩ := step.installed proper label
  refine ⟨es, e, [], req, reply, rfl, ⟨by rw [label], by rw [after]; rfl⟩, ack, by rw [held],
    by simp, ?_⟩
  rw [sent_held held, after, List.map_nil, List.append_nil]
  rfl

/-- A transfer adds to the images. -/
theorem Granted.streamed {images : List UInt8} (granted : Granted T es e.before images)
    (step : Step T e) (proper : e.before.Proper) {image : Image} {fuel : Nat}
    {o : Outcome Error UInt64} (label : e.label = ⟨.stream image fuel, o⟩) :
    ∃ part, Granted T (es ++ [e]) e.after (images ++ part) := by
  obtain ⟨es₁, x, es₂, req, reply, rfl, answered, ack, same, streams, sent⟩ := granted
  obtain ⟨effect, frame⟩ := step.effect proper
  obtain ⟨held, _⟩ := frame.held (by rw [label]; rfl)
  obtain ⟨bytes, more, sends, _⟩ := effect.sends
  rw [label] at sends
  obtain ⟨part, _, rfl⟩ := sends
  refine ⟨part, es₁, x, es₂ ++ [e], req, reply, by simp, answered, ack, by rw [held, same], ?_, ?_⟩
  · intro y member
    rcases List.mem_append.mp member with early | last
    · exact streams y early
    · rw [List.mem_singleton.mp last, label]
      exact ⟨image, fuel, rfl⟩
  · rw [sent_held held]
    show (e.after.net.conns e.before.client.stream).sent = _
    rw [more, sent, List.map_append, List.append_assoc _ _ (part.map _)]

/-- **A handle comes from an acknowledged install request**, and only images have
followed it on its connection. -/
theorem Connected.granted (connected : Connected s) (run : Run (Step T) s es s')
    (alive : s'.installing = true) : ∃ images, Granted T es s' images := by
  induction run with
  | start =>
      rw [connected.1] at alive
      cases alive
  | @step es e run step ih =>
      have proper := connected.run_proper run
      have handle : e.label.handle = true := step.2.2 ▸ alive
      have onHandle := step.1
      obtain ⟨⟨action, o⟩, label⟩ : ∃ done, e.label = done := ⟨_, rfl⟩
      rw [label] at handle onHandle
      cases action with
      | request r =>
          cases o with
          | err failure => cases handle
          | dropped => cases handle
          | ok v =>
              cases v with
              | installation h => exact ⟨[], step.grants proper label⟩
              | _ => cases handle
      | stream image fuel =>
          obtain ⟨images, granted⟩ := ih onHandle.symm
          obtain ⟨part, more⟩ := granted.streamed step proper label
          exact ⟨images ++ part, more⟩
      | release => cases handle
      | reconnect => cases handle

/-- The operation directly before is an install request on the connection held, its
message is the last thing sent there, and the server answered it with an ACK. -/
def FollowsOwnRequest (T : Target) (es : List (Transition Session Done)) (s : Session) : Prop :=
  ∃ es₀ x req, ∃ reply : RawIpcMessage T, es = es₀ ++ [x] ∧
    x.label.action = .request (.install req) ∧
    x.before.client.stream = s.client.stream ∧
    s.conn.sent = x.before.conn.sent ++
      ((Request.install req).message T).bytes.map (Prod.mk .request) ∧
    OwnReply (.install req) s.conn reply ∧ reply.msgType = some .ack

/-- The operation before is no transfer. While a handle is alive, this says that nothing
was streamed on it yet. -/
def FirstOnHandle (es : List (Transition Session Done)) : Prop :=
  ∀ y ∈ es.getLast?, ∀ image fuel, y.label.action ≠ .stream image fuel

/-- The reply in the place of the last request on a connection is an ACK. -/
def AckInPlace (T : Target) (c : Conn Origin) : Prop :=
  ∃ i, ∃ reply : RawIpcMessage T, asked c = (i + 1) * sizeOfMessage T ∧
    slice (i * sizeOfMessage T) (sizeOfMessage T) c.inbound = reply.bytes ∧
      reply.msgType = some .ack

theorem FollowsOwnRequest.first (follows : FollowsOwnRequest T es s) : FirstOnHandle es := by
  obtain ⟨es₀, x, req, _, rfl, request, _⟩ := follows
  intro y last image fuel streams
  rw [List.getLast?_concat, Option.mem_some_iff] at last
  rw [← last, request] at streams
  cases streams

theorem FollowsOwnRequest.ackInPlace (follows : FollowsOwnRequest T es s) :
    AckInPlace T s.conn := by
  obtain ⟨_, _, _, reply, _, _, _, _, ⟨i, count, _, window⟩, ack⟩ := follows
  exact ⟨i, reply, count, window, ack⟩

/-- The first transfer on a handle comes right after the request that returned it. -/
theorem Connected.first_after_request (connected : Connected s) (run : Run (Step T) s es s')
    (alive : s'.installing = true) (first : FirstOnHandle es) :
    ∃ es₀ x r handle, es = es₀ ++ [x] ∧ Run (Step T) s es₀ x.before ∧ Step T x ∧
      x.after = s' ∧ x.label = ⟨.request r, .ok (.installation handle)⟩ := by
  cases run with
  | start =>
      rw [connected.1] at alive
      cases alive
  | @step es₀ x run step =>
      have handle : x.label.handle = true := step.2.2 ▸ alive
      have last := first x (by rw [List.getLast?_concat]; rfl)
      obtain ⟨⟨action, o⟩, label⟩ : ∃ done, x.label = done := ⟨_, rfl⟩
      rw [label] at handle last
      cases action with
      | request r =>
          cases o with
          | err failure => cases handle
          | dropped => cases handle
          | ok v =>
              cases v with
              | installation h => exact ⟨es₀, x, r, h, rfl, run, step, rfl, label⟩
              | _ => cases handle
      | stream image fuel => exact absurd rfl (last image fuel)
      | release => cases handle
      | reconnect => cases handle

/-- **An image has a request of its own** exactly when it is the first on its handle and
either all was settled before it or the reply in the place of the request is an ACK. -/
theorem Connected.followsOwnRequest_iff (connected : Connected s) (run : Run (Step T) s es s')
    (alive : s'.installing = true) :
    FollowsOwnRequest T es s' ↔
      FirstOnHandle es ∧ (Settled es s'.client.stream ∨ AckInPlace T s'.conn) := by
  constructor
  · exact fun follows => ⟨follows.first, .inr follows.ackInPlace⟩
  · rintro ⟨first, answered⟩
    obtain ⟨es₀, x, r, handle, rfl, before, step, rfl, label⟩ :=
      connected.first_after_request run alive first
    obtain ⟨req, reply, rfl, ack, held, read, after⟩ :=
      step.installed (connected.run_proper before) label
    have conn : x.after.conn = connAfter x := by
      rw [Session.conn, held]
      rfl
    have sent : x.after.conn.sent = x.before.conn.sent ++
        ((Request.install req).message T).bytes.map (Prod.mk .request) := by
      rw [conn, after]
      rfl
    have own : ∃ reply : RawIpcMessage T,
        OwnReply (.install req) x.after.conn reply ∧ reply.msgType = some .ack := by
      rcases answered with settled | ⟨i, other, count, window, ack'⟩
      · have earlier : Settled es₀ x.before.client.stream := fun e member =>
          held ▸ settled e (List.mem_append_left _ member)
        have level := (connected.taken_le_asked before).2.mpr earlier
        refine ⟨reply, ?_, ack⟩
        rw [conn, after]
        exact ownReply_of_whole (connected.asked_whole before earlier) level read
      · exact ⟨other, ownReply_of_place sent count window, ack'⟩
    obtain ⟨own, answers, ack'⟩ := own
    exact ⟨es₀, x, req, own, rfl, by rw [label], by rw [held], sent, answers, ack'⟩

/-- Nothing but a transfer writes bytes of an image. -/
theorem Effect.requests {s : Session} {done : Done} {conn : Conn Origin}
    (effect : Effect T s done conn) (other : ∀ image fuel, done.action ≠ .stream image fuel) :
    ∃ bytes : List UInt8, conn.sent = s.conn.sent ++ bytes.map (Prod.mk .request) := by
  obtain ⟨bytes, sent, sends, _⟩ := effect.sends
  cases action : done.action with
  | request r =>
      rw [action] at sends
      obtain ⟨part, _, rfl⟩ := sends
      exact ⟨part, sent⟩
  | stream image fuel => exact absurd action (other image fuel)
  | release | reconnect =>
      rw [action] at sends
      obtain rfl : bytes = [] := sends
      exact ⟨[], sent⟩

/-- **When an image directly follows a request of its own.** In every run, what a
transfer writes is a part of its image, and nothing else writes bytes of an image. The
last request on the connection before the transfer is an install request that took an
acknowledgement, and only images have followed it. The image has a request of its own,
answered with an ACK by the server, exactly when it is the first one on its handle and
either every earlier operation on the connection was settled or the reply in the place
of the request is an ACK. -/
theorem Connected.image_follows_own_request_iff {es₁ es₂ : List (Transition Session Done)}
    {image : Image} {fuel : Nat} (connected : Connected s)
    (run : Run (Step T) s (es₁ ++ e :: es₂) s') (streams : e.label.action = .stream image fuel) :
    (∃ part, part <+: delivered (image.contents e.before.net) ∧
      (connAfter e).sent = e.before.conn.sent ++ part.map (Prod.mk .image)) ∧
    (∀ y ∈ es₁ ++ e :: es₂, (∀ image fuel, y.label.action ≠ .stream image fuel) →
      ∃ bytes : List UInt8,
        (connAfter y).sent = y.before.conn.sent ++ bytes.map (Prod.mk .request)) ∧
    (∃ images, Granted T es₁ e.before images) ∧
    (FollowsOwnRequest T es₁ e.before ↔ FirstOnHandle es₁ ∧
      (Settled es₁ e.before.client.stream ∨ AckInPlace T e.before.conn)) := by
  obtain ⟨before, step, _⟩ := run.cut
  have alive : e.before.installing = true := by
    rw [← step.1, streams]
    rfl
  refine ⟨?_, ?_, connected.granted before alive, connected.followsOwnRequest_iff before alive⟩
  · obtain ⟨effect, _⟩ := step.effect (connected.run_proper before)
    obtain ⟨bytes, sent, sends, _⟩ := effect.sends
    rw [streams] at sends
    obtain ⟨part, inside, rfl⟩ := sends
    exact ⟨part, inside, sent⟩
  · intro y member other
    obtain ⟨es, _, _, earlier, step', _⟩ := run.at_mem member
    obtain ⟨effect, _⟩ := step'.effect (connected.run_proper earlier)
    exact effect.requests other

end Sequence

/-! ## Two images on one request -/

/-- A transfer of a reader of one chunk, on sockets without failures. -/
theorem served_chunk {s : Session} {n : Nat} {chunk : List UInt8}
    (holds : s.net.readers n = [.data chunk]) (positive : 0 < chunk.length)
    (short : chunk.length ≤ 8192) (writable : s.conn.closed = false) :
    s.served T (.stream (.reader n) 2) = s.ended (.stream (.reader n) 2)
        (.ok (UInt64.ofNat chunk.length), ⟨s.client, World.send
          { s.net with readers := Function.update s.net.readers n [] } .image s.client.stream
            chunk⟩) ∧
      connAfter (s.served T (.stream (.reader n) 2)) = s.conn.send .image chunk := by
  have ran := @run_streamLoop_chunk Origin .image n chunk (List.replicate 8192 0) 0 s.client s.net
    holds positive (by rw [List.length_replicate]; exact short) writable
  rw [UInt64.zero_add] at ran
  have ends : s.served T (.stream (.reader n) 2) = s.ended (.stream (.reader n) 2) (_, _) :=
    congrArg (s.ended (.stream (.reader n) 2)) ran
  refine ⟨ends, ?_⟩
  rw [ends]
  exact World.conns_onConn_same { s.net with readers := Function.update s.net.readers n [] }
    s.client.stream fun c => c.send .image chunk

/-- An install request is acknowledged, and then two readers are streamed on its
handle. -/
theorem two_images_streamed (T : Target) :
    ∃ (s : Session) (e₁ e₂ e₃ : Transition Session Done), Connected s ∧
      Run (Step T) s ([e₁, e₂] ++ e₃ :: []) e₃.after ∧
      e₂.label = ⟨.stream (.reader 0) 2, .ok (3 : UInt64)⟩ ∧
      e₃.label = ⟨.stream (.reader 1) 2, .ok (3 : UInt64)⟩ ∧
      e₂.before.client.stream = e₃.before.client.stream ∧
      e₃.before.conn.sent =
        e₂.before.conn.sent ++ [(.image, 1), (.image, 2), (.image, 3)] ∧
      (connAfter e₃).sent =
        e₃.before.conn.sent ++ [(.image, 1), (.image, 2), (.image, 3)] := by
  obtain ⟨e₁, run, _, _, _, borrowed, writable, holds⟩ :=
    @installed_on_ack T _ (RawIpcMessage.msgType_new .ack) [.data [1, 2, 3]]
  let e₂ := e₁.after.served T (.stream (.reader 0) 2)
  have step₂ : Step T e₂ := step_served borrowed.symm
  obtain ⟨first, after⟩ := @served_chunk T e₁.after 0 _ (holds 0) (by decide) (by decide) writable
  change e₂ = _ at first
  change connAfter e₂ = _ at after
  have holds' : e₂.after.net.readers 1 = [.data [1, 2, 3]] := by
    rw [first]
    exact holds 1
  have sent : e₂.after.conn = e₁.after.conn.send .image [1, 2, 3] := by
    rw [← after, first]
    rfl
  have writable' : e₂.after.conn.closed = false := by
    rw [sent, Conn.closed_send]
    exact writable
  let e₃ := e₂.after.served T (.stream (.reader 1) 2)
  have step₃ : Step T e₃ := by
    refine step_served ?_
    rw [first]
    rfl
  obtain ⟨second, after'⟩ := @served_chunk T e₂.after 1 _ holds' (by decide) (by decide) writable'
  change e₃ = _ at second
  change connAfter e₃ = _ at after'
  refine ⟨_, e₁, e₂, e₃, connected_opened _ _ _, (run.step step₂).step step₃, ?_, ?_, ?_, ?_, ?_⟩
  · rw [first]
    rfl
  · rw [second]
    rfl
  · show e₁.after.client.stream = e₂.after.client.stream
    rw [first]
    rfl
  · show e₂.after.conn.sent = e₁.after.conn.sent ++ _
    rw [sent]
    rfl
  · rw [after']
    rfl

/-- The first transfer after an accepted request follows its own request. -/
theorem image_follows_own_request_first :
    ∃ (s : Session) (e e' : Transition Session Done) (image : Image) (fuel : Nat), Connected s ∧
      Run (Step .x86_64) s ([e] ++ e' :: []) e'.after ∧
      e'.label.action = .stream image fuel ∧ FollowsOwnRequest .x86_64 [e] e'.before := by
  obtain ⟨e, e', o, run, accepted, _, label, _⟩ :=
    @installed_and_streamed .x86_64 _ (RawIpcMessage.msgType_new .ack) [.data [1, 2, 3]] 4
      (by decide)
  have connected : Connected (.answeredOnce (RawIpcMessage.new .x86_64 .ack) [.data [1, 2, 3]]) :=
    connected_opened _ _ _
  have streams : e'.label.action = .stream (.reader 0) 4 := by rw [label]
  have whole : Run (Step .x86_64) _ ([e] ++ e' :: []) e'.after := run
  have first : FirstOnHandle [e] := by
    intro y last image fuel streams
    rw [List.getLast?_singleton, Option.mem_some_iff] at last
    rw [← last, accepted] at streams
    cases streams
  have settled : Settled [e] e'.before.client.stream := by
    intro y member _
    obtain ⟨_, _, _, before, step, _⟩ := run.at_mem (List.mem_append_left [e'] member)
    rw [List.mem_singleton.mp member] at before step ⊢
    exact step.settled (connected.run_proper before) accepted
  obtain ⟨_, _, _, own⟩ := connected.image_follows_own_request_iff whole streams
  exact ⟨_, e, e', _, _, connected, run, streams, own.mpr ⟨first, .inl settled⟩⟩

/-- A notification is dropped while it waits, and acknowledged. The install request after
it is rejected, but it decodes the acknowledgement, and an image is streamed. -/
theorem image_on_stale_acknowledgement :
    ∃ (s : Session) (e₁ e₂ e₃ : Transition Session Done), Connected s ∧
      Run (Step .x86_64) s ([e₁, e₂] ++ e₃ :: []) e₃.after ∧
      OneReplyEach .x86_64 e₃.before.conn.peer ∧
      e₃.label = ⟨.stream (.reader 0) 2, .ok (3 : UInt64)⟩ ∧ FirstOnHandle [e₁, e₂] ∧
      ¬ FollowsOwnRequest .x86_64 [e₁, e₂] e₃.before := by
  let s := Session.opened ⟨"", "", 0⟩ (replyingPeer ackThenNacks) fun _ => [.data [1, 2, 3]]
  let e₁ := s.waiting .x86_64 .postUpdate
  let e₂ := e₁.after.served .x86_64 (.request (.install .new))
  let e₃ := e₂.after.served .x86_64 (.stream (.reader 0) 2)
  have ack : (RawIpcMessage.new .x86_64 .ack).msgType = some .ack := RawIpcMessage.msgType_new .ack
  have stale : (Request.install .new).decode (ackThenNacks 0) = .ok (.installation {}) := by
    simp only [ackThenNacks, if_pos, Request.decode, Request.acknowledged, ack]
    rfl
  obtain ⟨run, label, count, inbound, held, writable, peer, readers⟩ :=
    waiting_then_served ackThenNacks ⟨"", "", 0⟩ (fun _ => [.data [1, 2, 3]]) .postUpdate
      (.install .new)
  change Run (Step .x86_64) s [e₁, e₂] e₂.after at run
  change e₂.label = _ at label
  change asked (connAfter e₂) = _ at count
  change (connAfter e₂).inbound = _ at inbound
  change e₂.after.conn = connAfter e₂ at held
  change (connAfter e₂).closed = false at writable
  change (connAfter e₂).peer = _ at peer
  change e₂.after.net.readers = _ at readers
  rw [stale] at label
  obtain ⟨_, _, _, _, step₂, _⟩ := run.at_mem (List.mem_cons_of_mem e₁ List.mem_cons_self)
  have alive : e₂.after.installing = true := by
    rw [step₂.2.2, label]
    rfl
  have step₃ : Step .x86_64 e₃ := step_served alive.symm
  obtain ⟨streamed, _⟩ := @served_chunk .x86_64 e₂.after 0 [1, 2, 3] (by rw [readers]) (by decide)
    (by decide) (held ▸ writable)
  refine ⟨s, e₁, e₂, e₃, connected_opened _ _ _, run.step step₃, ?_, ?_, ?_, ?_⟩
  · show OneReplyEach .x86_64 e₂.after.conn.peer
    rw [held, peer]
    exact oneReplyEach_replyingPeer ackThenNacks
  · exact congrArg Transition.label streamed
  · intro y last image fuel streams
    obtain rfl : e₂ = y := Option.some.inj last
    rw [label] at streams
    cases streams
  · rintro ⟨_, _, req, reply, _, _, _, _, answers, positive⟩
    change OwnReply _ e₂.after.conn reply at answers
    rw [held] at answers
    have same : reply = ackThenNacks 1 := answers.second ackThenNacks count inbound
    rw [same, ackThenNacks, if_neg Nat.one_ne_zero, RawIpcMessage.msgType_new .nack] at positive
    cases positive

/-- The second image follows the first one and no request of its own. -/
theorem second_image_on_one_request :
    ¬ ∀ (T : Target) (s s' : Session) (es₁ es₂ : List (Transition Session Done))
        (e : Transition Session Done) (image : Image) (fuel : Nat),
        Connected s → Run (Step T) s (es₁ ++ e :: es₂) s' →
          e.label.action = .stream image fuel → FollowsOwnRequest T es₁ e.before := by
  intro claim
  obtain ⟨s, e₁, e₂, e₃, connected, run, streamed, label, _⟩ := two_images_streamed .x86_64
  have follows := claim .x86_64 _ _ _ _ _ (.reader 1) 2 connected run (by rw [label])
  have first := follows.first e₂ rfl
  rw [streamed] at first
  exact first _ _ rfl

end SwupdateIpc
