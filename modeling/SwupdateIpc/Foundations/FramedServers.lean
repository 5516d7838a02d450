import SwupdateIpc.Foundations.SystemCalls

/-!
# Servers of frames

A server is sent bytes with marks. It gathers the bytes of some marks into frames of one
size, and when a frame is complete it serves it: it changes its state and writes bytes.
The bytes of other marks it takes one by one (`FrameServer.take`).

As a peer, such a server writes what it has written for the bytes it was sent so far
(`FrameServer.peer`). With nothing pending, a whole frame is served at once
(`foldl_frame`), and bytes of other marks change the state only (`foldl_other`).
-/

set_option autoImplicit false

namespace Foundations

/-- A server of frames, with states in `σ`. -/
structure FrameServer (τ σ : Type) where
  size : Nat
  framed : τ → Bool
  serve : σ → List UInt8 → σ × List UInt8
  other : σ → UInt8 → σ

/-- What a server keeps: its state, the bytes of a frame that is not complete, and what
it has written. -/
structure FrameServer.Memory (σ : Type) where
  state : σ
  pending : List UInt8
  written : List UInt8

namespace FrameServer

variable {τ σ : Type} (f : FrameServer τ σ)

/-- Take one byte. -/
def take (m : Memory σ) (b : τ × UInt8) : Memory σ :=
  if f.framed b.1 then
    let frame := m.pending ++ [b.2]
    if frame.length = f.size then
      ⟨(f.serve m.state frame).1, [], m.written ++ (f.serve m.state frame).2⟩
    else ⟨m.state, frame, m.written⟩
  else ⟨f.other m.state b.2, m.pending, m.written⟩

/-- The memory of a server after the bytes it was sent. -/
def after (start : σ) (sent : List (τ × UInt8)) : Memory σ :=
  sent.foldl f.take ⟨start, [], []⟩

theorem after_append (start : σ) (sent more : List (τ × UInt8)) :
    f.after start (sent ++ more) = more.foldl f.take (f.after start sent) :=
  List.foldl_append

/-- What is written stays written. -/
theorem written_take (m : Memory σ) (b : τ × UInt8) : m.written <+: (f.take m b).written := by
  unfold take
  split
  · dsimp only
    split
    · exact List.prefix_append _ _
    · exact List.prefix_refl _
  · exact List.prefix_refl _

theorem written_foldl (m : Memory σ) (sent : List (τ × UInt8)) :
    m.written <+: (sent.foldl f.take m).written := by
  induction sent generalizing m with
  | nil => exact List.prefix_refl _
  | cons b rest ih => exact (f.written_take m b).trans (ih (f.take m b))

/-- The server as a peer. -/
def peer (start : σ) : Peer τ where
  wrote sent := (f.after start sent).written
  grows sent more := by
    rw [after_append]
    exact f.written_foldl _ more

/-! ## Frames and other bytes -/

section Bytes

variable {f} {mark : τ} {m : Memory σ} {bytes : List UInt8}

/-- Bytes of a frame that is not complete are kept. -/
theorem foldl_pending (framed : f.framed mark = true)
    (short : m.pending.length + bytes.length < f.size) :
    (bytes.map (Prod.mk mark)).foldl f.take m = ⟨m.state, m.pending ++ bytes, m.written⟩ := by
  induction bytes generalizing m with
  | nil => rw [List.append_nil]; rfl
  | cons b bs ih =>
      rw [List.length_cons] at short
      have incomplete : ¬ (m.pending ++ [b]).length = f.size := by
        rw [List.length_append, List.length_singleton]
        omega
      have first : f.take m (mark, b) = ⟨m.state, m.pending ++ [b], m.written⟩ := by
        rw [take, if_pos framed]
        exact if_neg incomplete
      rw [List.map_cons, List.foldl_cons, first, ih]
      · rw [List.append_assoc]
        rfl
      · rw [List.length_append, List.length_singleton]
        omega

/-- **A whole frame is served**, when nothing is pending before it. -/
theorem foldl_frame (framed : f.framed mark = true) (idle : m.pending = [])
    (positive : 0 < f.size) (full : bytes.length = f.size) :
    (bytes.map (Prod.mk mark)).foldl f.take m =
      ⟨(f.serve m.state bytes).1, [], m.written ++ (f.serve m.state bytes).2⟩ := by
  obtain rfl | ⟨front, last, rfl⟩ := List.eq_nil_or_concat bytes
  · rw [List.length_nil] at full
    omega
  · rw [List.concat_eq_append] at full ⊢
    rw [List.length_append, List.length_singleton] at full
    have short : m.pending.length + front.length < f.size := by
      rw [idle, List.length_nil]
      omega
    have complete : (front ++ [last]).length = f.size := by
      rw [List.length_append, List.length_singleton, full]
    rw [List.map_append, List.foldl_append, foldl_pending framed short, idle, List.nil_append]
    show f.take _ (mark, last) = _
    rw [take, if_pos framed]
    exact if_pos complete

/-- Bytes of other marks change the state only. -/
theorem foldl_other (unframed : f.framed mark = false) :
    (bytes.map (Prod.mk mark)).foldl f.take m =
      ⟨bytes.foldl f.other m.state, m.pending, m.written⟩ := by
  induction bytes generalizing m with
  | nil => rfl
  | cons b bs ih =>
      have first : f.take m (mark, b) = ⟨f.other m.state b, m.pending, m.written⟩ := by
        rw [take, unframed]
        rfl
      rw [List.map_cons, List.foldl_cons, first, ih]
      rfl

end Bytes

/-- A server never writes less when it is sent more, one frame at a time: what it writes
for a frame follows what it had written. -/
theorem after_frame {f : FrameServer τ σ} {mark : τ} {start : σ} {sent : List (τ × UInt8)}
    {bytes : List UInt8} (framed : f.framed mark = true)
    (idle : (f.after start sent).pending = []) (positive : 0 < f.size)
    (full : bytes.length = f.size) :
    f.after start (sent ++ bytes.map (Prod.mk mark)) =
      ⟨(f.serve (f.after start sent).state bytes).1, [],
        (f.after start sent).written ++ (f.serve (f.after start sent).state bytes).2⟩ := by
  rw [after_append]
  exact foldl_frame framed idle positive full

end FrameServer

end Foundations
