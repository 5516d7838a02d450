import SwupdateIpc.Control.Streaming

/-!
# Images in chunks

A reader gives its bytes in chunks, and then it ends or fails. How a transfer can end,
and with which bytes written, depends on these bytes and on that end, and not on the
chunks (`Transfer`, `canEnd_iff`): all of them are written when the reader ends or fails,
and when the socket fails or the transfer is dropped, a beginning of them.

The value of a transfer is the number of bytes in a counter of 64 bits, which begins
again at zero after `2 ^ 64` bytes (`count_wraps`).
-/

set_option autoImplicit false

namespace SwupdateIpc

open Foundations Wire

variable {τ : Type} {mark : τ}

/-- The bytes a transfer can have written at its end, by the bytes that its reader gives
and the error it meets after them. Nothing can be written on a connection that is
closed. -/
inductive Transfer (total : UInt64) (bytes : List UInt8) (error : Option IoError)
    (closed : Bool) : List UInt8 → Outcome Error UInt64 → Prop where
  | whole (clean : error = none) (unsent : closed = true → bytes = []) :
      Transfer total bytes error closed bytes (.ok (total + UInt64.ofNat bytes.length))
  | unreadable {e : IoError} (met : error = some e) (unsent : closed = true → bytes = []) :
      Transfer total bytes error closed bytes (.err (.connection e))
  | cut {part : List UInt8} {o : Outcome Error UInt64} (inside : part <+: bytes)
      (unsent : closed = true → part = []) (cut : Cut o) (reached : o = .dropped ∨ bytes ≠ []) :
      Transfer total bytes error closed part o

/-- What streaming can do is a transfer. -/
theorem Streamed.transfer {contents left : List ReadResult} {total : UInt64} {closed : Bool}
    {part : List UInt8} {o : Outcome Error UInt64}
    (streamed : Streamed contents left total part o) (inside : part <+: delivered contents)
    (unsent : closed = true → part = []) :
    Transfer total (delivered contents) (readError contents) closed part o := by
  cases streamed with
  | finished clean => exact .whole clean unsent
  | unreadable met => exact .unreadable met unsent
  | unwritten taken positive _ cut =>
      refine .cut inside unsent cut (.inr ?_)
      intro none
      rw [none] at taken
      have length := congrArg List.length taken
      simp only [List.length_nil, List.length_append] at length
      omega
  | waiting => exact .cut inside unsent (.inl rfl) (.inl rfl)

/-- A transfer of one chunk and of what is left: its write is cut, or it is whole and
the rest is transferred. -/
theorem Transfer.split {total : UInt64} {chunk bytes : List UInt8} {error : Option IoError}
    {closed : Bool} {part : List UInt8} {o : Outcome Error UInt64} (positive : 0 < chunk.length)
    (transfer : Transfer total (chunk ++ bytes) error closed part o) :
    (part <+: chunk ∧ (closed = true → part = []) ∧ Cut o) ∨
      (closed = false ∧ ∃ rest, part = chunk ++ rest ∧
        Transfer (total + UInt64.ofNat chunk.length) bytes error closed rest o) := by
  have writable : (closed = true → chunk ++ bytes = []) → closed = false := by
    intro unsent
    cases closed with
    | false => rfl
    | true =>
        have length := congrArg List.length (unsent rfl)
        simp only [List.length_append, List.length_nil] at length
        omega
  cases transfer with
  | whole clean unsent =>
      have count : total + UInt64.ofNat (chunk ++ bytes).length =
          total + UInt64.ofNat chunk.length + UInt64.ofNat bytes.length := by
        rw [List.length_append, UInt64.ofNat_add, UInt64.add_assoc]
      obtain rfl := writable unsent
      rw [count]
      exact .inr ⟨rfl, bytes, rfl, .whole clean (by simp)⟩
  | unreadable met unsent =>
      obtain rfl := writable unsent
      exact .inr ⟨rfl, bytes, rfl, .unreadable met (by simp)⟩
  | cut inside unsent cut _ =>
      by_cases short : part <+: chunk
      · exact .inl ⟨short, unsent, cut⟩
      · obtain ⟨rest, rfl⟩ : chunk <+: part :=
          (List.prefix_or_prefix_of_prefix inside (List.prefix_append chunk bytes)).resolve_left
            short
        have more : rest ≠ [] := by
          rintro rfl
          rw [List.append_nil] at short
          exact short (List.prefix_refl chunk)
        have inside' : rest <+: bytes := (List.prefix_append_right_inj chunk).mp inside
        refine .inr ⟨?_, rest, rfl, .cut inside' ?_ cut (.inr ?_)⟩
        · cases closed with
          | false => rfl
          | true => exact absurd (List.append_eq_nil_iff.mp (unsent rfl)).2 more
        · intro shut
          exact absurd (List.append_eq_nil_iff.mp (unsent shut)).2 more
        · rintro rfl
          exact more (List.prefix_nil.mp inside')

/-- A transfer of no bytes ends as its reader does, or it is dropped. -/
theorem Transfer.nothing {total : UInt64} {error : Option IoError} {closed : Bool}
    {part : List UInt8} {o : Outcome Error UInt64}
    (transfer : Transfer total [] error closed part o) :
    part = [] ∧ (o = .dropped ∨ (error = none ∧ o = .ok total) ∨
      ∃ e, error = some e ∧ o = .err (.connection e)) := by
  cases transfer with
  | whole clean =>
      refine ⟨rfl, .inr (.inl ⟨clean, ?_⟩)⟩
      rw [List.length_nil]
      exact congrArg Outcome.ok (UInt64.add_zero total)
  | @unreadable e met => exact ⟨rfl, .inr (.inr ⟨e, met, rfl⟩)⟩
  | cut inside _ _ reached =>
      exact ⟨List.prefix_nil.mp inside, .inl (reached.resolve_right fun some => some rfl)⟩

/-- Every transfer can happen, when the loop has enough rounds. -/
theorem exec_of_transfer {reader fuel : Nat} {buf : List UInt8} {total : UInt64}
    (room : 0 < buf.length) {contents : List ReadResult} {c : Config ControlClient (World τ)}
    (holds : c.world.readers reader = contents) (enough : (delivered contents).length < fuel)
    {part : List UInt8} {o : Outcome Error UInt64}
    (transfer : Transfer total (delivered contents) (readError contents)
      (c.world.conns c.own.stream).closed part o) :
    ∃ c', Exec (World.device mark) (Installation.streamLoop reader fuel buf total) c o c' ∧
      c'.world.conns c.own.stream = (c.world.conns c.own.stream).send mark part := by
  induction fuel generalizing buf total c contents part with
  | zero => omega
  | succ fuel ih =>
      obtain ⟨left, after, cases⟩ := c.world.readFrom_cases reader room
      rw [holds] at cases
      have unread : (c.world.readFrom reader buf.length).2.conns = c.world.conns := by rw [after]
      rcases cases with ⟨ended, empty, clean⟩ | ⟨e, failed, empty, error⟩ |
        ⟨chunk, read, positive, short, whole, same⟩
      · rw [empty, clean] at transfer
        obtain ⟨rfl, rfl | ⟨_, rfl⟩ | ⟨_, ⟨⟩, _⟩⟩ := transfer.nothing
        · exact ⟨c, (exec_round_ended ended).mpr (.inl ⟨rfl, rfl⟩), by rw [Conn.send_nil]⟩
        · refine ⟨_, (exec_round_ended ended).mpr (.inr ⟨rfl, rfl⟩), ?_⟩
          rw [unread, Conn.send_nil]
      · rw [empty, error] at transfer
        obtain ⟨rfl, rfl | ⟨⟨⟩, _⟩ | ⟨_, ⟨⟩, rfl⟩⟩ := transfer.nothing
        · exact ⟨c, (exec_round_failed failed).mpr (.inl ⟨rfl, rfl⟩), by rw [Conn.send_nil]⟩
        · refine ⟨_, (exec_round_failed failed).mpr (.inr ⟨rfl, rfl⟩), ?_⟩
          rw [unread, Conn.send_nil]
      · rw [whole, same] at transfer
        rcases transfer.split positive with ⟨inside, unsent, cut⟩ | ⟨writable, rest, rfl, more⟩
        · refine ⟨_, (exec_round_chunk read positive).mpr
            (.inr (.inr ⟨part, inside, ?_, cut, rfl⟩)), ?_⟩
          · rw [unread]
            exact unsent
          · rw [World.send, World.conns_onConn_same, unread]
        · have fewer : (delivered left).length < fuel := by
            rw [whole, List.length_append] at enough
            omega
          let w := (c.world.readFrom reader buf.length).2.send mark c.own.stream chunk
          have conn : w.conns c.own.stream = (c.world.conns c.own.stream).send mark chunk := by
            show (World.onConn _ _ _).conns _ = _
            rw [World.conns_onConn_same, unread]
          have holds' : w.readers reader = left := by
            show (c.world.readFrom reader buf.length).2.readers reader = left
            rw [after]
            exact Function.update_self ..
          obtain ⟨c', exec, sent⟩ := @ih _ (total + UInt64.ofNat chunk.length)
            (splice_positive room short) left ⟨c.own, w⟩ holds' fewer rest
            (by rw [conn]; exact writable.symm ▸ more)
          refine ⟨c', (exec_round_chunk read positive).mpr (.inr (.inl ⟨?_, exec⟩)), ?_⟩
          · rw [unread]
            exact writable
          · rw [sent, conn, Conn.send_send]

/-! ## What streaming does -/

/-- Streaming a reader can end so, with these bytes written. -/
def CanEnd (mark : τ) (c : Config ControlClient (World τ)) (reader fuel : Nat)
    (part : List UInt8) (o : Outcome Error UInt64) : Prop :=
  ∃ c', Exec (World.device mark) (Installation.stream reader fuel) c o c' ∧
    c'.world.conns c.own.stream = (c.world.conns c.own.stream).send mark part

theorem Conn.send_injective (conn : Conn τ) (mark : τ) : Function.Injective (conn.send mark) := by
  intro part part' same
  have sent := List.append_cancel_left (congrArg Conn.sent same)
  exact List.map_injective_iff.mpr (Prod.mk_right_injective mark) sent

/-- **What streaming can do depends on the bytes of its reader and on how it ends.** -/
theorem canEnd_iff {c : Config ControlClient (World τ)} {reader fuel : Nat}
    (enough : (delivered (c.world.readers reader)).length < fuel) {part : List UInt8}
    {o : Outcome Error UInt64} :
    CanEnd mark c reader fuel part o ↔
      Transfer 0 (delivered (c.world.readers reader)) (readError (c.world.readers reader))
        (c.world.conns c.own.stream).closed part o := by
  constructor
  · rintro ⟨c', exec, sent⟩
    obtain ⟨_, part', forwarded, streamed⟩ := exec_streamLoop Installation.buffer_positive rfl exec
    obtain rfl : part' = part := by
      refine Conn.send_injective (c.world.conns c.own.stream) mark ?_
      rw [← sent, forwarded.conns, Function.update_self]
    exact streamed.transfer forwarded.inside forwarded.unsent
  · exact exec_of_transfer Installation.buffer_positive rfl enough

/-- **What streaming does.** At every end it has written what it has read, but for a part
of the last chunk when its write was given up, and it returns exactly at the end of a
reader without an error, with all its bytes written and with their number in 64 bits.
What it can do depends on the bytes and the end of the reader, and not on the chunks.
When no socket fails it returns exactly if the reader has no error. -/
theorem stream_exact (mark : τ) (c : Config ControlClient (World τ)) (reader : Nat) :
    (∀ fuel o c', Exec (World.device mark) (Installation.stream reader fuel) c o c' →
      c'.own = c.own ∧ ∃ part,
        Forwarded mark (c.world.readers reader) c.own.stream c.world part c'.world ∧
        Streamed (c.world.readers reader) (c'.world.readers reader) 0 part o) ∧
    (∀ fuel part o, (delivered (c.world.readers reader)).length < fuel →
      (CanEnd mark c reader fuel part o ↔
        Transfer 0 (delivered (c.world.readers reader)) (readError (c.world.readers reader))
          (c.world.conns c.own.stream).closed part o)) ∧
    (∀ other fuel fuel' part o,
      delivered (c.world.readers other) = delivered (c.world.readers reader) →
      readError (c.world.readers other) = readError (c.world.readers reader) →
      (delivered (c.world.readers reader)).length < fuel →
      (delivered (c.world.readers reader)).length < fuel' →
      (CanEnd mark c other fuel part o ↔ CanEnd mark c reader fuel' part o)) ∧
    (∀ fuel, (delivered (c.world.readers reader)).length < fuel →
      (c.world.conns c.own.stream).closed = false →
      ((∃ n, (run (World.serve mark) (Installation.stream reader fuel) c).1 = .ok n) ↔
        readError (c.world.readers reader) = none)) := by
  refine ⟨fun fuel o c' exec => exec_streamLoop Installation.buffer_positive rfl exec,
    fun fuel part o enough => canEnd_iff enough, ?_, fun fuel enough writable => ?_⟩
  · intro other fuel fuel' part o same_bytes same_end enough enough'
    rw [canEnd_iff enough', canEnd_iff (by rw [same_bytes]; exact enough), same_bytes, same_end]
  · obtain ⟨o, w', ran, _, ok, failed⟩ := @run_streamLoop _ mark reader fuel _ 0
      Installation.buffer_positive _ c rfl writable enough
    rw [← endsCleanly_iff, Installation.stream, ran]
    cases clean : endsCleanly (c.world.readers reader) with
    | true => exact ⟨fun _ => rfl, fun _ => ⟨_, ok clean⟩⟩
    | false =>
        obtain ⟨e, rfl⟩ := failed clean
        exact ⟨by simp, by simp⟩

/-- A reader that gives its bytes one by one. -/
theorem delivered_singles (k : Nat) :
    delivered (List.replicate k (.data [0])) = List.replicate k 0 ∧
      readError (List.replicate k (.data [0])) = none := by
  induction k with
  | zero => exact ⟨rfl, rfl⟩
  | succ k ih =>
      rw [List.replicate_succ, delivered, readError, ih.1, ih.2]
      exact ⟨rfl, rfl⟩

/-- For every number there is a transfer of as many bytes. -/
theorem streamed_singles (k : Nat) :
    ∃ (c c' : Config ControlClient (World Unit)),
      Exec (World.device ()) (Installation.stream 0 (k + 1)) c (.ok (0 + UInt64.ofNat k)) c' ∧
        (delivered (c.world.readers 0)).length = k := by
  let w : World Unit := World.initial fun _ => []
  let c : Config ControlClient (World Unit) :=
    ⟨⟨0, ⟨"", "", 0⟩⟩, { w with readers := fun _ => List.replicate k (.data [0]) }⟩
  obtain ⟨bytes, clean⟩ := delivered_singles k
  have length : (delivered (c.world.readers 0)).length = k := by
    show (delivered (List.replicate k _)).length = k
    rw [bytes, List.length_replicate]
  have enough : (delivered (c.world.readers 0)).length < k + 1 := by omega
  have whole := @Transfer.whole 0 (delivered (c.world.readers 0)) (readError (c.world.readers 0))
    (c.world.conns c.own.stream).closed clean (by rintro ⟨⟩)
  rw [length] at whole
  obtain ⟨c', exec, _⟩ := (@canEnd_iff _ () c 0 _ enough _ _).mpr whole
  exact ⟨c, c', exec, length⟩

/-- The number of a transfer of `2 ^ 64` bytes is zero. -/
theorem count_wraps :
    ¬ ∀ (c c' : Config ControlClient (World Unit)) (reader fuel : Nat) (n : UInt64),
        Exec (World.device ()) (Installation.stream reader fuel) c (.ok n) c' →
          n.toNat = (delivered (c.world.readers reader)).length := by
  intro claim
  obtain ⟨c, c', exec, length⟩ := streamed_singles (2 ^ 64)
  have count := claim c c' 0 _ _ exec
  rw [length] at count
  have zero : (0 + UInt64.ofNat (2 ^ 64)).toNat = 0 := by decide
  rw [zero] at count
  exact absurd count (by decide)

end SwupdateIpc
