import SwupdateIpc.Progress.ReplacedDaemons

/-!
# Messages of the unpacked header

A daemon of an older release writes its messages as its compiler lays the unpacked
header out, and the client reads them into a struct of its own, in which the padding is
written out as members. The padding of the header depends on the alignment of an
`unsigned long long` in a struct, and that of the client does not. So messages arrive as
they are, however many there are, exactly on the targets that align it to eight bytes
(`unpacked_messages_decoded_iff`). The client compiles on the others as well, since its
struct has 2416 bytes on every target (`size_rawProgressMsgUnpacked`).
-/

set_option autoImplicit false

namespace SwupdateIpc

open Foundations Wire

/-- A message in the memory of a daemon: its members are written over whatever the
bytes were before. -/
structure DaemonMsg (T : Target) where
  msg : ProgressMsg
  memory : Record (Header.progressMsgUnpacked T.longLongAlign)

/-- The message as the compiler of the daemon lays it out. -/
def DaemonMsg.record {T : Target} (x : DaemonMsg T) :
    Record (Header.progressMsgUnpacked T.longLongAlign) :=
  x.memory.fill (ProgressMsg.wellAligned_unpacked _) (x.msg.members T)

/-- What a daemon writes for some messages. -/
def written {T : Target} (xs : List (DaemonMsg T)) : List UInt8 :=
  xs.flatMap fun x => x.record.bytes

/-- The struct that the client reads from the bytes of a frame. -/
def rawUnpacked (T : Target) (frame : List UInt8) : RawProgressMsgUnpacked T :=
  (Record.zeroed (rawProgressMsgUnpacked T.longLongAlign)).overwrite frame

/-- A step delivers a message: every member of the struct that it read is the one of the
message, and it returns the event of the message. -/
def Delivers (T : Target) (e : Transition ProgressSession ProgressDone) (m : ProgressMsg) : Prop :=
  (∃ frame, e.after.conn.reads = e.before.conn.reads ++ [⟨frame, true⟩] ∧
    ∀ f ∈ m.members T, (rawUnpacked T frame).read f.1 = f.2) ∧
  e.label.outcome = .ok m.event

/-- Some messages are decoded: when a client with the unpacked layout receives as often
as they are, from a connection that holds what the daemon writes for them, it is
delivered these messages in order. -/
def Decoded (T : Target) (xs : List (DaemonMsg T)) : Prop :=
  ∀ (s s' : ProgressSession) (es : List (Transition ProgressSession ProgressDone)),
    s.client.layout = .unpacked → s.conn.available = written xs →
      Run (ProgressServed T) s es s' → (∀ e ∈ es, e.label.action = .receive) →
        es.length = xs.length → List.Forall₂ (Delivers T) es (xs.map DaemonMsg.msg)

/-- The members of a message that both sides declare. -/
def progressMembers : List Ident := [
  .apiversion, .status, .dwlPercent, .dwlBytes, .nsteps, .curStep, .curPercent, .curImage, .hndName,
  .source, .infolen, .info]

/-- Both sides place every member at the same bytes. -/
def SamePlaces (align : Width) : Prop :=
  ∀ name ∈ progressMembers,
    (rawProgressMsgUnpacked align).span? [name] = (Header.progressMsgUnpacked align).span? [name]

instance (align : Width) : Decidable (SamePlaces align) :=
  inferInstanceAs (Decidable (∀ name ∈ progressMembers, _ = _))

section Eight

variable {T : Target}

/-- A message carries its members on every target. -/
theorem ProgressMsg.carries_unpacked_on (T : Target) (m : ProgressMsg) (align : Width)
    (base : Record (Header.progressMsgUnpacked align)) :
    (base.fill (wellAligned_unpacked align) (m.members T)).Carries (m.members T)
      Record.anywhere := by
  refine m.carries_laidOut T (wellAligned_unpacked align) base ?_ ?_
  · cases align <;> rfl
  · simp only [members, List.map_cons, List.map_nil]
    cases align <;> decide +kernel

/-- Where an `unsigned long long` is aligned to eight bytes, the client reads the
members and the event of a message. -/
theorem DaemonMsg.read_eight (eight : T.longLongAlign = .eight) (x : DaemonMsg T) :
    x.record.bytes.length = 2416 ∧
      (∀ f ∈ x.msg.members T, (rawUnpacked T x.record.bytes).read f.1 = f.2) ∧
      ProgressLayout.unpacked.decode T x.record.bytes = x.msg.event := by
  have size : x.record.bytes.length = (rawProgressMsgUnpacked T.longLongAlign).size := by
    rw [x.record.length_eq, eight]
    rfl
  have bytes : (rawUnpacked T x.record.bytes).bytes = x.record.bytes :=
    Record.bytes_overwrite _ size
  have carried : (rawUnpacked T x.record.bytes).Carries (x.msg.members T) Record.anywhere := by
    refine x.msg.carries_reread T (x.msg.carries_unpacked_on T _ x.memory) _ bytes ?_
    rw [eight]
    rfl
  refine ⟨by rw [size, size_rawProgressMsgUnpacked]; rfl, ?_, ?_⟩
  · exact fun f member => carried.read_of_mem member
  · show ProgressEvent.fromRawUnpacked T (rawUnpacked T x.record.bytes) = _
    rw [ProgressEvent.fromRawUnpacked, ProgressFields.fromRawProgressMsgUnpacked,
      x.msg.extract_carried T carried, ProgressMsg.fromFields_fields]

/-- A receive takes the first message of those that are written. -/
theorem receive_delivers (eight : T.longLongAlign = .eight)
    {e : Transition ProgressSession ProgressDone} (served : ProgressServed T e)
    (receives : e.label.action = .receive) (layout : e.before.client.layout = .unpacked)
    {x : DaemonMsg T} {rest : List UInt8}
    (available : e.before.conn.available = x.record.bytes ++ rest) :
    Delivers T e x.msg ∧ e.after.client.layout = .unpacked ∧ e.after.conn.available = rest := by
  obtain ⟨s, ⟨action, o⟩, s'⟩ := e
  obtain rfl : action = .receive := receives
  obtain ⟨rfl, rfl⟩ := ended_same served (served_receive T s)
  change s.client.layout = .unpacked at layout
  change s.conn.available = _ at available
  obtain ⟨length, members, event⟩ := x.read_eight eight
  have size : s.client.layout.msgSize = x.record.bytes.length := by
    rw [layout, length]
    rfl
  have enough : s.client.layout.msgSize ≤ s.conn.available.length := by
    rw [available, size, List.length_append]
    exact Nat.le_add_right _ _
  have frame : s.conn.available.take s.client.layout.msgSize = x.record.bytes := by
    rw [available, size, List.take_left]
  refine ⟨⟨⟨x.record.bytes, ?_, members⟩, ?_⟩, layout, ?_⟩
  · show s.pulled.conn.reads = s.conn.reads ++ _
    rw [s.conn_pulled, Conn.pull, frame, decide_eq_true enough, Conn.reads_record]
  · show s.next T = _
    rw [ProgressSession.next, if_pos enough, frame, layout, event]
  · show s.pulled.conn.available = _
    rw [s.conn_pulled, Conn.available_pull, available, size, List.drop_left]

/-- **All messages are decoded** where an `unsigned long long` is aligned to eight
bytes. -/
theorem decoded_of_eight (eight : T.longLongAlign = .eight) (xs : List (DaemonMsg T)) :
    Decoded T xs := by
  intro s s' es layout available run receives count
  induction xs generalizing s es with
  | nil =>
      obtain rfl := List.length_eq_zero_iff.mp count
      exact .nil
  | cons x xs ih =>
      obtain ⟨e, es, rfl⟩ := List.exists_cons_of_length_eq_add_one count
      obtain ⟨rfl, served, later⟩ := run.uncons
      obtain ⟨delivers, layout', rest⟩ :=
        receive_delivers eight served (receives e List.mem_cons_self) layout available
      refine .cons delivers (ih _ es layout' rest later ?_ (Nat.succ.inj count))
      exact fun e' member => receives e' (List.mem_cons_of_mem _ member)

end Eight

/-! ## Targets that align to four bytes -/

/-- A message of zeros. -/
def ProgressMsg.idle : ProgressMsg where
  apiversion := 0
  status := 0
  dwlPercent := 0
  dwlBytes := 0
  nsteps := 0
  curStep := 0
  curPercent := 0
  curImage := List.replicate 256 0
  hndName := List.replicate 64 0
  source := 0
  infolen := 0
  info := List.replicate PRINFOSIZE 0
  length_curImage := List.length_replicate
  length_hndName := List.length_replicate
  length_info := List.length_replicate

def DaemonMsg.idle (T : Target) : DaemonMsg T := ⟨.idle, .zeroed _⟩

/-- Where an `unsigned long long` is aligned to four bytes, a message is shorter than
the struct of the client, and a receive of it fails. -/
theorem not_decoded_of_four {T : Target} (four : T.longLongAlign = .four) :
    ¬ Decoded T [DaemonMsg.idle T] := by
  intro decoded
  obtain ⟨s, started, _, left, _⟩ :=
    started_documented T 2024 5 (written [DaemonMsg.idle T]) []
  have layout : s.client.layout = .unpacked := started.layout
  have short : s.conn.available.length < s.client.layout.msgSize := by
    have size : (DaemonMsg.idle T).record.bytes.length = 2408 := by
      rw [Record.length_eq, four]
      rfl
    rw [left, written, List.flatMap_singleton, size, layout]
    decide
  have delivered := decoded s _ [_] layout left (Run.start.step (served_receive T s)) (by simp) rfl
  obtain ⟨_, returned⟩ := (List.forall₂_cons.mp delivered).1
  change s.next T = _ at returned
  rw [ProgressSession.next, if_neg (Nat.not_le.mpr short)] at returned
  cases returned

/-- **When the messages of the unpacked header arrive.** On every target, all messages
are decoded exactly if an `unsigned long long` is aligned to eight bytes in a struct. So
are the size of a message the same on both sides, and the places of its members. -/
theorem unpacked_messages_decoded_iff (T : Target) :
    ((∀ xs : List (DaemonMsg T), Decoded T xs) ↔ T.longLongAlign = .eight) ∧
    ((rawProgressMsgUnpacked T.longLongAlign).size =
      (Header.progressMsgUnpacked T.longLongAlign).size ↔ T.longLongAlign = .eight) ∧
    (SamePlaces T.longLongAlign ↔ T.longLongAlign = .eight) := by
  refine ⟨⟨fun decoded => ?_, fun eight => decoded_of_eight eight⟩, ?_, ?_⟩
  · cases align : T.longLongAlign with
    | four => exact absurd (decoded _) (not_decoded_of_four align)
    | eight => rfl
  · cases T.longLongAlign <;> decide +kernel
  · cases T.longLongAlign <;> decide +kernel

/-- A PC of 32 bits, which aligns an `unsigned long long` in a struct to four bytes. -/
def Target.i686 : Target where
  order := .little
  sizeT := .four
  longLongAlign := .four
  padding := fun _ => 0

/-- On a PC of 32 bits a message of the unpacked header is not decoded. -/
theorem message_lost_on_i686 :
    ¬ ∀ (T : Target), (∀ xs : List (DaemonMsg T), Decoded T xs) ∧
      (rawProgressMsgUnpacked T.longLongAlign).size =
        (Header.progressMsgUnpacked T.longLongAlign).size ∧ SamePlaces T.longLongAlign := by
  intro claim
  exact @not_decoded_of_four .i686 rfl ((claim .i686).1 _)

end SwupdateIpc
