import Mathlib.Algebra.BigOperators.Ring.List
import SwupdateIpc.Control.Session

/-!
# Which reply a request gets

A server that answers each complete request with one reply, in order, is known
by the lengths: `OneReplyEach` says that it has written one message for every
message of request bytes it was sent. Requests carry no number, so a reply is
matched with a request by its position alone.

An operation leaves as many request bytes written as it leaves reply bytes read,
or it leaves more of them. So the next window that is read starts where the own
reply of a request stands, or before it. `completed_request_reads` says when: the
window is the own reply of the request exactly when every earlier operation on
the connection was settled. An operation that was cut after a part of its request
was written is not, and nothing that follows on the connection makes up for it.
-/

set_option autoImplicit false

namespace SwupdateIpc

open Foundations Wire

/-! ## Requests on the wire -/

/-- The bytes that were sent as requests. -/
def requestBytes (sent : List (Origin × UInt8)) : List UInt8 :=
  (sent.filter fun p => p.1 == .request).map Prod.snd

theorem requestBytes_append (first second : List (Origin × UInt8)) :
    requestBytes (first ++ second) = requestBytes first ++ requestBytes second := by
  simp only [requestBytes, List.filter_append, List.map_append]

@[simp] theorem requestBytes_request (bytes : List UInt8) :
    requestBytes (bytes.map (Prod.mk .request)) = bytes := by
  induction bytes with
  | nil => rfl
  | cons b bs ih => exact congrArg (b :: ·) ih

@[simp] theorem requestBytes_image (bytes : List UInt8) :
    requestBytes (bytes.map (Prod.mk .image)) = [] := by
  induction bytes with
  | nil => rfl
  | cons b bs ih => exact ih

/-- How many request bytes were sent on a connection. -/
def asked (c : Conn Origin) : Nat := (requestBytes c.sent).length

theorem asked_send_request (c : Conn Origin) (bytes : List UInt8) :
    asked (c.send .request bytes) = asked c + bytes.length := by
  rw [asked, Conn.sent_send, requestBytes_append, requestBytes_request, List.length_append, asked]

theorem asked_send_image (c : Conn Origin) (bytes : List UInt8) :
    asked (c.send .image bytes) = asked c := by
  rw [asked, Conn.sent_send, requestBytes_append, requestBytes_image, List.append_nil, asked]

@[simp] theorem asked_record (c : Conn Origin) (stretch : Stretch) :
    asked (c.record stretch) = asked c := rfl

@[simp] theorem asked_close (c : Conn Origin) : asked c.close = asked c := rfl

/-- A server that answers each complete request with exactly one reply, in
order. -/
def OneReplyEach (T : Target) (peer : Peer Origin) : Prop :=
  ∀ sent, (peer.wrote sent).length =
    sizeOfMessage T * ((requestBytes sent).length / sizeOfMessage T)

/-- The last request on the wire is the message of `r`, and this is the reply in
its position. -/
def OwnReply {T : Target} (r : Request) (c : Conn Origin) (reply : RawIpcMessage T) : Prop :=
  ∃ i, asked c = (i + 1) * sizeOfMessage T ∧
    slice (i * sizeOfMessage T) (sizeOfMessage T) (requestBytes c.sent) = (r.message T).bytes ∧
      slice (i * sizeOfMessage T) (sizeOfMessage T) c.inbound = reply.bytes

/-! ## What an operation leaves on its connection -/

/-- How many request bytes a transition wrote. -/
def wrote (e : Transition Session Done) : Nat := asked (connAfter e) - asked e.before.conn

/-- How many bytes a transition read. -/
def took (e : Transition Session Done) : Nat :=
  (connAfter e).taken.length - e.before.conn.taken.length

section Effects

variable {T : Target} {s : Session} {done : Done} {conn : Conn Origin}

/-- An operation takes at most as many bytes as it writes as requests. -/
theorem Effect.counts (effect : Effect T s done conn) :
    asked s.conn ≤ asked conn ∧ s.conn.taken.length ≤ conn.taken.length ∧
      conn.taken.length - s.conn.taken.length ≤ asked conn - asked s.conn := by
  cases effect with
  | cutWrite written unsent cut =>
      rw [asked_send_request, Conn.taken_send]
      omega
  | @cutRead r part o writable read short cut =>
      have full : (r.message T).bytes.length = sizeOfMessage T := (r.message T).length_bytes
      rw [Conn.taken_record, Conn.taken_send, List.length_append]
      rw [asked_record, asked_send_request]
      dsimp only
      omega
  | @complete r resp writable read =>
      have full : (r.message T).bytes.length = sizeOfMessage T := (r.message T).length_bytes
      have same : resp.bytes.length = sizeOfMessage T := resp.length_bytes
      rw [Conn.taken_record, Conn.taken_send, List.length_append]
      rw [asked_record, asked_send_request]
      dsimp only
      omega
  | streamed inside unsent whole =>
      rw [asked_send_image, Conn.taken_send]
      omega
  | released => omega
  | reconnected shut => rcases shut with rfl | rfl <;> simp

/-- An operation that leaves as many request bytes written as bytes read has
written a whole message, or no byte of one. -/
theorem Effect.whole_of_settled (effect : Effect T s done conn)
    (settled : asked conn - asked s.conn = conn.taken.length - s.conn.taken.length) :
    sizeOfMessage T ∣ asked conn - asked s.conn := by
  cases effect with
  | @cutWrite r part o written unsent cut =>
      rw [asked_send_request, Conn.taken_send] at settled
      have none : part.length = 0 := by omega
      rw [asked_send_request, none, Nat.add_zero, Nat.sub_self]
      exact dvd_zero _
  | @cutRead r part o writable read short cut =>
      rw [asked_record, asked_send_request, Nat.add_sub_cancel_left, RawIpcMessage.length_bytes]
  | @complete r resp writable read =>
      rw [asked_record, asked_send_request, Nat.add_sub_cancel_left, RawIpcMessage.length_bytes]
  | streamed inside unsent whole =>
      rw [asked_send_image, Nat.sub_self]
      exact dvd_zero _
  | released =>
      rw [Nat.sub_self]
      exact dvd_zero _
  | reconnected shut => rcases shut with rfl | rfl <;> simp

end Effects

/-! ## What a run leaves on its connections -/

/-- A quantity of a connection, zero before the connection is opened. -/
def countAt (quantity : Conn Origin → Nat) (fd : Nat) (s : Session) : Nat :=
  if fd < s.net.opened then quantity (s.net.conns fd) else 0

section Runs

variable {T : Target} {s s' : Session} {es : List (Transition Session Done)}
  {e : Transition Session Done} {quantity : Conn Origin → Nat}

/-- A step increases a quantity of the connection held, and of no other. -/
theorem Step.countAt_after (step : Step T e) (proper : e.before.Proper)
    (fresh : ∀ peer, quantity (.fresh peer) = 0)
    (grows : quantity e.before.conn ≤ quantity (connAfter e)) (fd : Nat) :
    countAt quantity fd e.after = countAt quantity fd e.before +
      if e.before.client.stream = fd then quantity (connAfter e) - quantity e.before.conn
      else 0 := by
  obtain ⟨_, frame⟩ := step.effect proper
  have later := step.opened_le proper
  unfold countAt
  by_cases old : fd < e.before.net.opened
  · rw [if_pos old, if_pos (old.trans_le later)]
    by_cases held : e.before.client.stream = fd
    · subst held
      rw [if_pos rfl]
      show quantity (connAfter e) = quantity e.before.conn + _
      omega
    · rw [if_neg held, frame.others fd old (Ne.symm held), Nat.add_zero]
  · have unheld : e.before.client.stream ≠ fd := by
      rintro rfl
      exact old proper
    rw [if_neg old, if_neg unheld]
    split
    next opened =>
      cases exchanged : e.label.reconnected with
      | true =>
          obtain ⟨stream, count, peer, new⟩ := frame.exchanged exchanged
          obtain rfl : e.after.client.stream = fd := by omega
          exact (congrArg quantity new).trans (fresh peer)
      | false =>
          obtain ⟨_, count⟩ := frame.held exchanged
          omega
    next => rfl

/-- A quantity of the connection held at the end is what the operations on that
connection added up. -/
theorem Connected.quantity_total (quantity : Conn Origin → Nat) (connected : Connected s)
    (run : Run (Step T) s es s') (fresh : ∀ peer, quantity (.fresh peer) = 0)
    (grows : ∀ e ∈ es, Step T e → e.before.Proper →
      quantity e.before.conn ≤ quantity (connAfter e)) :
    quantity s'.conn = (es.map fun e =>
      if e.before.client.stream = s'.client.stream then
        quantity (connAfter e) - quantity e.before.conn else 0).sum := by
  have increased : ∀ e ∈ es, Step T e →
      countAt quantity s'.client.stream e.after = countAt quantity s'.client.stream e.before +
        if e.before.client.stream = s'.client.stream then
          quantity (connAfter e) - quantity e.before.conn else 0 := by
    intro e member step
    obtain ⟨es₁, es₂, _, before, _, _⟩ := run.at_mem member
    have proper := connected.run_proper before
    exact step.countAt_after proper fresh (grows e member step proper) _
  have total := run.total increased
  have first : countAt quantity s'.client.stream s = 0 := by
    rw [countAt]
    split
    next opened =>
      rcases connected.held_is_new run with same | new
      · obtain ⟨peer, held⟩ := connected.fresh.2
        rw [same]
        exact (congrArg quantity held).trans (fresh peer)
      · omega
    next => rfl
  have held : s'.client.stream < s'.net.opened := connected.run_proper run
  rw [first, Nat.zero_add, countAt, if_pos held] at total
  exact total

/-- Every operation on a connection left as many request bytes written as it
left bytes read. -/
def Settled (es : List (Transition Session Done)) (fd : Nat) : Prop :=
  ∀ e ∈ es, e.before.client.stream = fd → wrote e = took e

/-- **Less is read than asked for, and as much exactly when every operation on
the connection was settled.** -/
theorem Connected.taken_le_asked (connected : Connected s) (run : Run (Step T) s es s') :
    s'.conn.taken.length ≤ asked s'.conn ∧
      (s'.conn.taken.length = asked s'.conn ↔ Settled es s'.client.stream) := by
  have counts : ∀ e ∈ es, Step T e → e.before.Proper →
      asked e.before.conn ≤ asked (connAfter e) ∧
        e.before.conn.taken.length ≤ (connAfter e).taken.length ∧ took e ≤ wrote e :=
    fun e _ step proper => (step.effect proper).1.counts
  have askedTotal := connected.quantity_total asked run (fun _ => rfl)
    fun e member step proper => (counts e member step proper).1
  have takenTotal := connected.quantity_total (fun c => c.taken.length) run
    (fun _ => rfl) fun e member step proper => (counts e member step proper).2.1
  have bounded : ∀ e ∈ es,
      (if e.before.client.stream = s'.client.stream then took e else 0) ≤
        if e.before.client.stream = s'.client.stream then wrote e else 0 := by
    intro e member
    obtain ⟨es₁, es₂, _, before, step, _⟩ := run.at_mem member
    split
    · exact (counts e member step (connected.run_proper before)).2.2
    · exact le_refl 0
  obtain ⟨le, eq_iff⟩ := sum_map_eq_iff_of_le bounded
  rw [askedTotal, takenTotal]
  refine ⟨le, eq_iff.trans ⟨fun same e member held => ?_, fun settled e member => ?_⟩⟩
  · have := same e member
    rw [if_pos held, if_pos held] at this
    exact this.symm
  · split
    next held => exact (settled e member held).symm
    next => rfl

/-- Where every operation on the connection was settled, whole messages were
asked on it. -/
theorem Connected.asked_whole (connected : Connected s) (run : Run (Step T) s es s')
    (settled : Settled es s'.client.stream) : sizeOfMessage T ∣ asked s'.conn := by
  rw [connected.quantity_total asked run (fun _ => rfl) fun e _ step proper =>
    (step.effect proper).1.counts.1]
  refine List.dvd_sum fun count counted => ?_
  obtain ⟨e, member, rfl⟩ := List.mem_map.mp counted
  obtain ⟨es₁, es₂, _, before, step, _⟩ := run.at_mem member
  split
  next held =>
    exact (step.effect (connected.run_proper before)).1.whole_of_settled (settled e member held)
  next => exact dvd_zero _

end Runs

/-! ## A request that is dropped while it waits -/

/-- The first replies of a sequence. -/
def replies {T : Target} (reply : Nat → RawIpcMessage T) (count : Nat) : List UInt8 :=
  (List.range count).flatMap fun i => (reply i).bytes

section Replies

variable {T : Target} (reply : Nat → RawIpcMessage T)

theorem replies_succ (count : Nat) :
    replies reply (count + 1) = replies reply count ++ (reply count).bytes := by
  rw [replies, List.range_succ, List.flatMap_append, List.flatMap_singleton, replies]

theorem length_replies (count : Nat) :
    (replies reply count).length = sizeOfMessage T * count := by
  induction count with
  | zero => rfl
  | succ count ih =>
      rw [replies_succ, List.length_append, ih, RawIpcMessage.length_bytes, Nat.mul_succ]

theorem replies_prefix {count more : Nat} (le : count ≤ more) :
    replies reply count <+: replies reply more := by
  induction more, le using Nat.le_induction with
  | base => exact List.prefix_refl _
  | succ more _ ih =>
      rw [replies_succ]
      exact ih.trans (List.prefix_append _ _)

/-- The server that gives the replies of a sequence, one for each complete
request. -/
def replyingPeer : Peer Origin where
  wrote sent := replies reply ((requestBytes sent).length / sizeOfMessage T)
  grows sent more := by
    refine replies_prefix reply (Nat.div_le_div_right ?_)
    rw [requestBytes_append, List.length_append]
    exact Nat.le_add_right _ _

theorem oneReplyEach_replyingPeer : OneReplyEach T (replyingPeer reply) :=
  fun _ => length_replies reply _

theorem slice_replies {i count : Nat} (lt : i < count) :
    slice (i * sizeOfMessage T) (sizeOfMessage T) (replies reply count) = (reply i).bytes := by
  obtain ⟨rest, split⟩ := replies_prefix reply (Nat.succ_le_of_lt lt)
  have start : (replies reply i).length = i * sizeOfMessage T := by
    rw [length_replies, Nat.mul_comm]
  have whole : (reply i).bytes.length = sizeOfMessage T := (reply i).length_bytes
  rw [← split, replies_succ, List.append_assoc, ← start]
  refine (slice_append_right (replies reply i) 0 _ _).trans ?_
  rw [slice_append_left _ (by omega), ← whole]
  exact slice_zero_length _

/-- The connection of a request that was dropped while it waited for its reply,
as the next request leaves it. -/
theorem available_after_waiting (config : SocketConfig) (readers : Nat → List ReadResult)
    (r r' : Request) :
    let conn := ((Session.opened config (replyingPeer reply) readers).waiting T r).after.conn
    conn.closed = false ∧ conn.peer = replyingPeer reply ∧ asked conn = sizeOfMessage T ∧
      conn.taken = [] ∧ (conn.send .request (r'.message T).bytes).inbound = replies reply 2 := by
  intro conn
  have here : conn = ((Conn.fresh (replyingPeer reply)).send .request (r.message T).bytes).record
      ⟨[], false⟩ := by
    rw [← conn_opened config (replyingPeer reply) readers]
    exact connAfter_waiting T _ r
  have positive := sizeOfMessage_pos T
  have once : asked conn = sizeOfMessage T := by
    rw [here, asked_record, asked_send_request, RawIpcMessage.length_bytes]
    exact Nat.zero_add _
  have twice : asked (conn.send .request (r'.message T).bytes) / sizeOfMessage T = 2 := by
    rw [asked_send_request, once, RawIpcMessage.length_bytes, ← Nat.two_mul,
      Nat.mul_div_cancel _ positive]
  have peer : conn.peer = replyingPeer reply := by
    rw [here]
    rfl
  refine ⟨by rw [here]; rfl, peer, once, by rw [here]; rfl, ?_⟩
  rw [Conn.inbound, Conn.peer_send, peer]
  exact congrArg (replies reply) twice

/-- **The next request decodes the reply of the one that was dropped.** -/
theorem waiting_then_served (config : SocketConfig) (readers : Nat → List ReadResult)
    (r r' : Request) :
    let s := Session.opened config (replyingPeer reply) readers
    let e := s.waiting T r
    let e' := e.after.served T (.request r')
    Run (Step T) s ([e] ++ [e']) e'.after ∧
      e'.label = ⟨.request r', outcomeOf (r'.decode (reply 0))⟩ ∧
        asked (connAfter e') = 2 * sizeOfMessage T ∧
          (connAfter e').inbound = replies reply 2 ∧ e'.after.conn = connAfter e' ∧
            (connAfter e').closed = false ∧ (connAfter e').peer = replyingPeer reply ∧
              e'.after.net.readers = readers := by
  intro s e e'
  obtain ⟨writable, peer, once, unread, inbound⟩ :=
    available_after_waiting reply config readers r r'
  have first : Step T e := step_waiting rfl rfl
  have second : Step T e' := step_served rfl
  have read : (reply 0).bytes <+: (e.after.conn.send .request (r'.message T).bytes).available := by
    rw [Conn.available, Conn.taken_send, inbound]
    show (reply 0).bytes <+: (replies reply 2).drop e.after.conn.taken.length
    rw [unread, replies_succ, replies_succ, List.append_assoc]
    exact List.prefix_append _ _
  obtain ⟨ends, after⟩ := served_request (reply 0) writable read
  refine ⟨(Run.start.step first).step second, congrArg Transition.label ends, ?_, ?_, ?_, ?_, ?_,
    congrArg (fun t => t.after.net.readers) ends⟩
  · rw [after, asked_record, asked_send_request, once, RawIpcMessage.length_bytes, Nat.two_mul]
  · rw [after]
    exact inbound
  · show e'.after.net.conns e'.after.client.stream = e'.after.net.conns e.after.client.stream
    rw [show e'.after.client = e.after.client from congrArg (fun t => t.after.client) ends]
  · rw [after]
    exact writable
  · rw [after]
    exact peer

/-- The own reply of the second request is the second reply. -/
theorem OwnReply.second {r : Request} {c : Conn Origin} {own : RawIpcMessage T}
    (answers : OwnReply r c own) (count : asked c = 2 * sizeOfMessage T)
    (inbound : c.inbound = replies reply 2) : own = reply 1 := by
  obtain ⟨i, place, _, window⟩ := answers
  have second : i = 1 := by
    rw [count] at place
    have := Nat.eq_of_mul_eq_mul_right (sizeOfMessage_pos T) place
    omega
  rw [second, inbound, slice_replies reply (Nat.lt_succ_self 1)] at window
  exact Record.ext window.symm

end Replies

/-- An acknowledgement first, and then rejections only. -/
def ackThenNacks (i : Nat) : RawIpcMessage .x86_64 :=
  if i = 0 then RawIpcMessage.new _ .ack else RawIpcMessage.new _ .nack

/-! ## The reply of a completed request -/

section Runs

variable {T : Target} {s s' : Session} {es : List (Transition Session Done)}
  {e : Transition Session Done}

/-- A reply just read is the window where the reads stood. -/
theorem window_of_read {r : Request} {conn : Conn Origin} {resp : RawIpcMessage T}
    (read : resp.bytes <+: (conn.send .request (r.message T).bytes).available) :
    slice conn.taken.length (sizeOfMessage T)
      ((conn.send .request (r.message T).bytes).record ⟨resp.bytes, true⟩).inbound =
        resp.bytes := by
  rw [← resp.length_bytes]
  exact (List.prefix_iff_eq_take.mp read).symm

/-- What stands in the place of the last request is its own reply. -/
theorem ownReply_of_place {r : Request} {before conn : Conn Origin} {reply : RawIpcMessage T}
    {i : Nat} (sent : conn.sent = before.sent ++ (r.message T).bytes.map (Prod.mk .request))
    (count : asked conn = (i + 1) * sizeOfMessage T)
    (window : slice (i * sizeOfMessage T) (sizeOfMessage T) conn.inbound = reply.bytes) :
    OwnReply r conn reply := by
  have full : (r.message T).bytes.length = sizeOfMessage T := (r.message T).length_bytes
  have requests : requestBytes conn.sent = requestBytes before.sent ++ (r.message T).bytes := by
    rw [sent, requestBytes_append, requestBytes_request]
  have start : i * sizeOfMessage T = (requestBytes before.sent).length := by
    rw [asked, requests, List.length_append, full, Nat.add_mul, Nat.one_mul] at count
    exact (Nat.add_right_cancel count).symm
  refine ⟨i, count, ?_, window⟩
  rw [requests, start, ← full]
  exact (slice_append_right (requestBytes before.sent) 0 _ _).trans (slice_zero_length _)

/-- When as much was read as asked for, in whole messages, the next reply read
is the own reply of its request. -/
theorem ownReply_of_whole {r : Request} {conn : Conn Origin} {resp : RawIpcMessage T}
    (whole : sizeOfMessage T ∣ asked conn) (level : conn.taken.length = asked conn)
    (read : resp.bytes <+: (conn.send .request (r.message T).bytes).available) :
    OwnReply r ((conn.send .request (r.message T).bytes).record ⟨resp.bytes, true⟩) resp := by
  have count : asked conn / sizeOfMessage T * sizeOfMessage T = asked conn :=
    Nat.div_mul_cancel whole
  refine @ownReply_of_place T r conn _ resp (asked conn / sizeOfMessage T) rfl ?_ ?_
  · rw [asked_record, asked_send_request, RawIpcMessage.length_bytes, Nat.add_mul, Nat.one_mul,
      count]
  · rw [count, ← level]
    exact window_of_read read

/-- A server that answers each complete request leaves no part of a message
behind when as much was read as asked for. -/
theorem whole_of_level {conn : Conn Origin} (answering : OneReplyEach T conn.peer)
    (sound : conn.Sound) (level : conn.taken.length = asked conn) :
    sizeOfMessage T ∣ asked conn := by
  have written : conn.inbound.length = sizeOfMessage T * (asked conn / sizeOfMessage T) :=
    answering conn.sent
  have available : conn.taken.length ≤ conn.inbound.length := sound.length_le
  have small := Nat.mul_div_le (asked conn) (sizeOfMessage T)
  exact ⟨asked conn / sizeOfMessage T, by omega⟩

/-- **The reply a completed request decodes.** Against a server that answers each
complete request with one reply, in order, a request that completes decodes the
window at the position where the reads of the connection stand. That is the
position of its own reply exactly when every earlier operation on the connection
was settled, and then the window is its own reply; else the window starts
before. -/
theorem Connected.completed_request_reads (connected : Connected s)
    (run : Run (Step T) s (es ++ [e]) s') {r : Request} {o : Outcome Error Value}
    (label : e.label = ⟨.request r, o⟩) (answering : OneReplyEach T e.before.conn.peer)
    (completed : ¬ Cut o) :
    ∃ reply : RawIpcMessage T, o = outcomeOf (r.decode reply) ∧
      slice e.before.conn.taken.length (sizeOfMessage T) (connAfter e).inbound = reply.bytes ∧
      (Settled es e.before.client.stream → OwnReply r (connAfter e) reply) ∧
      (¬ Settled es e.before.client.stream →
        e.before.conn.taken.length < asked e.before.conn) := by
  obtain ⟨before, step, _⟩ := run.cut
  obtain ⟨effect, _⟩ := step.effect (connected.run_proper before)
  have sound := connected.sound before
  obtain ⟨le, eq_iff⟩ := connected.taken_le_asked before
  obtain ⟨t, label', t'⟩ := e
  cases label
  change t.conn.taken.length ≤ asked t.conn at le
  change t.conn.taken.length = asked t.conn ↔ Settled es t.client.stream at eq_iff
  obtain ⟨resp, returned, _, read, after⟩ := effect.completed completed
  change connAfter ⟨t, _, t'⟩ = _ at after
  rw [after]
  refine ⟨resp, returned, window_of_read read, ?_, ?_⟩
  · intro settled
    have level := eq_iff.mpr settled
    exact ownReply_of_whole (whole_of_level answering sound level) level read
  · intro unsettled
    exact lt_of_le_of_ne le fun same => unsettled (eq_iff.mp same)

end Runs

/-- The second notification, after one that was dropped while it waited. -/
theorem completed_request_reads_after_waiting :
    let e := (Session.opened ⟨"", "", 0⟩ (replyingPeer ackThenNacks) fun _ => []).waiting .x86_64
      .postUpdate
    let e' := e.after.served .x86_64 (.request .postUpdate)
    ∃ reply : RawIpcMessage .x86_64,
      outcomeOf (Request.postUpdate.decode (ackThenNacks 0)) =
          outcomeOf (Request.postUpdate.decode reply) ∧
        slice e'.before.conn.taken.length (sizeOfMessage .x86_64) (connAfter e').inbound =
          reply.bytes ∧
        (Settled [e] e'.before.client.stream → OwnReply .postUpdate (connAfter e') reply) ∧
        (¬ Settled [e] e'.before.client.stream →
          e'.before.conn.taken.length < asked e'.before.conn) := by
  intro e e'
  obtain ⟨run, label, _⟩ :=
    waiting_then_served ackThenNacks ⟨"", "", 0⟩ (fun _ => []) .postUpdate .postUpdate
  exact (connected_opened _ _ _).completed_request_reads run label
    (oneReplyEach_replyingPeer _) (Request.not_cut _ _)

/-- A notification is dropped while it waits, and acknowledged. The next one is
rejected, but it decodes the acknowledgement. -/
theorem postUpdate_decodes_stale_reply :
    ¬ ∀ (T : Target) (s s' : Session) (es : List (Transition Session Done))
        (e : Transition Session Done) (r : Request) (o : Outcome Error Value),
        Connected s → Run (Step T) s (es ++ [e]) s' → e.label = ⟨.request r, o⟩ →
        OneReplyEach T e.before.conn.peer → ¬ Cut o →
        ∃ reply : RawIpcMessage T, o = outcomeOf (r.decode reply) ∧
          OwnReply r (connAfter e) reply := by
  intro own
  obtain ⟨run, label, asked, inbound, _⟩ :=
    waiting_then_served ackThenNacks ⟨"", "", 0⟩ (fun _ => []) .postUpdate .postUpdate
  have ack : (RawIpcMessage.new .x86_64 .ack).msgType = some .ack := RawIpcMessage.msgType_new .ack
  have nack : (RawIpcMessage.new .x86_64 .nack).msgType = some .nack :=
    RawIpcMessage.msgType_new .nack
  have stale : Request.postUpdate.decode (ackThenNacks 0) = .ok .unit := by
    simp only [ackThenNacks, if_pos, Request.decode, Request.acknowledged, ack]
    rfl
  have rejected : Request.postUpdate.decode (RawIpcMessage.new .x86_64 .nack) =
      .error .rejected := by
    simp only [Request.decode, Request.acknowledged, nack]
    rfl
  obtain ⟨reply, returned, answers⟩ := own .x86_64 _ _ _ _ _ _
    (connected_opened _ _ _) run label (oneReplyEach_replyingPeer _) (Request.not_cut _ _)
  have same : reply = ackThenNacks 1 := answers.second ackThenNacks asked inbound
  rw [stale, same, ackThenNacks, if_neg Nat.one_ne_zero, rejected] at returned
  cases returned

end SwupdateIpc
