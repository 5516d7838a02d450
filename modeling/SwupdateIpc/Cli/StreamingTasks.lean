import SwupdateIpc.Cli.Tasks

/-!
# Streaming while another task runs

The other task of an installation uses the connection next to that of the control client.
Whatever it does there, and wherever streaming stops, a part of the image was sent, and
the line about it is printed only after all of it (`safe_streamImage`).
-/

set_option autoImplicit false

namespace SwupdateIpc

open Foundations Wire

variable {T : Target} {τ : Type} {mark : τ}

/-- What is printed when an image was streamed. -/
def streamedLine (contents : List ReadResult) : String :=
  s!"Streamed {UInt64.ofNat (delivered contents).length} bytes"

section Streaming

variable {contents : List ReadResult} {base : World τ} {fd : Nat}

/-- Some bytes were sent on a connection, and the connections but the next one are
otherwise as they were. -/
structure Sending (mark : τ) (base : World τ) (fd : Nat) (part : List UInt8) (w : World τ) :
    Prop where
  others : ∀ other, other ≠ fd → other ≠ fd + 1 → w.conns other = base.conns other
  opened : w.opened = base.opened
  conn : w.conns fd = (base.conns fd).send mark part

theorem Sending.start : Sending mark base fd [] base :=
  ⟨fun _ _ _ => rfl, rfl, (Conn.send_nil _ mark).symm⟩

theorem Sending.more {part chunk : List UInt8} {w : World τ}
    (sending : Sending mark base fd part w) :
    Sending mark base fd (part ++ chunk) (w.send mark fd chunk) where
  others other apart next := by
    rw [World.send, World.conns_onConn_other _ _ apart, sending.others other apart next]
  opened := sending.opened
  conn := by rw [World.send, World.conns_onConn_same, sending.conn, Conn.send_send]

/-- What others do, they do on the next connection. -/
theorem Sending.later {part : List UInt8} {w : World τ} (sending : Sending mark base fd part w)
    (conn : Conn τ) : Sending mark base fd part (w.onConn (fd + 1) fun _ => conn) where
  others other apart next := by
    rw [World.conns_onConn_other _ _ next, sending.others other apart next]
  opened := sending.opened
  conn := by rw [World.conns_onConn_other _ _ (Nat.ne_of_lt (Nat.lt_succ_self fd)), sending.conn]

/-- A part of the image was sent, and the line about it is printed when this was the whole
image. -/
def Streaming (mark : τ) (contents : List ReadResult) (base : World τ) (fd : Nat) (w : World τ) :
    Prop :=
  ∃ part, Sending mark base fd part w ∧ part <+: delivered contents ∧
    (w.printed = base.printed ∨ part = delivered contents ∧ readError contents = none ∧
      w.printed = base.printed ++ [streamedLine contents])

/-- The other task uses the next connection. -/
def streamingConditions (mark : τ) (contents : List ReadResult) (base : World τ) (fd : Nat) :
    Conditions (World τ) where
  rely w w' := ∃ conn, w' = w.onConn (fd + 1) fun _ => conn
  kept := Streaming mark contents base fd
  refl w := ⟨_, (w.onConn_self (fd + 1)).symm⟩
  trans := by
    rintro w _ _ ⟨conn, rfl⟩ ⟨conn', rfl⟩
    refine ⟨conn', ?_⟩
    rw [World.onConn, World.onConn, World.onConn]
    exact congrArg (fun conns => { w with conns := conns }) (Function.update_idem _ _ _)
  stable := by
    rintro w _ ⟨conn, rfl⟩ ⟨part, sending, inside, told⟩
    exact ⟨part, sending.later conn, inside, told⟩

/-- The loop has sent what it has read, and nothing is printed about it. -/
structure Round (mark : τ) (contents : List ReadResult) (base : World τ) (fd reader : Nat)
    (part : List UInt8) (w : World τ) : Prop where
  sending : Sending mark base fd part w
  printed : w.printed = base.printed
  left : delivered contents = part ++ delivered (w.readers reader)
  error : readError contents = readError (w.readers reader)

theorem Round.kept {reader : Nat} {part : List UInt8} {w : World τ}
    (round : Round mark contents base fd reader part w) : Streaming mark contents base fd w :=
  ⟨part, round.sending, by rw [round.left]; exact List.prefix_append _ _, .inl round.printed⟩

theorem Round.later {reader : Nat} {part : List UInt8} {w w' : World τ}
    (round : Round mark contents base fd reader part w)
    (others : (streamingConditions mark contents base fd).rely w w') :
    Round mark contents base fd reader part w' := by
  obtain ⟨conn, rfl⟩ := others
  exact ⟨round.sending.later conn, round.printed, round.left, round.error⟩

/-- The whole image was sent. -/
structure Whole (mark : τ) (contents : List ReadResult) (base : World τ) (fd : Nat) (n : UInt64)
    (w : World τ) : Prop where
  sending : Sending mark base fd (delivered contents) w
  printed : w.printed = base.printed
  clean : readError contents = none
  count : n = UInt64.ofNat (delivered contents).length

/-- A chunk is written, and the program goes on after all of it. -/
theorem safe_write {part chunk : List UInt8} {client : ControlClient} {w : World τ}
    {next : ControlM UInt64} {post : UInt64 → ControlClient → World τ → Prop}
    (held : client.stream = fd) (sending : Sending mark base fd part w)
    (printed : w.printed = base.printed) (inside : part ++ chunk <+: delivered contents)
    (goes : ∀ w', Sending mark base fd (part ++ chunk) w' → w'.printed = base.printed →
      w'.readers = w.readers →
        next.Safe (World.device mark) (streamingConditions mark contents base fd) post client w') :
    (do let self ← get
        orConnection (← await (.writeAll self.stream chunk))
        next : ControlM UInt64).Safe (World.device mark)
      (streamingConditions mark contents base fd) post client w := by
  have begun : ∀ cut, cut <+: chunk → part ++ cut <+: delivered contents := fun cut written =>
    ((List.prefix_append_right_inj part).mpr written).trans inside
  refine ⟨⟨part, sending, (List.prefix_append _ _).trans inside, .inl printed⟩, ?_⟩
  rintro _ ⟨conn, rfl⟩
  have wrote : ∀ cut, cut <+: chunk → Streaming mark contents base fd
      ((w.onConn (fd + 1) fun _ => conn).send mark client.stream cut) := by
    intro cut written
    rw [held]
    exact ⟨part ++ cut, (sending.later conn).more, begun cut written, .inl printed⟩
  refine ⟨?_, ?_⟩
  · rintro r w₃ (⟨rfl, _, rfl⟩ | ⟨e, cut, rfl, written, _, rfl⟩)
    · refine goes _ ?_ printed rfl
      rw [held]
      exact (sending.later conn).more
    · exact wrote cut written
  · rintro _ ⟨cut, written, _, rfl⟩
    exact wrote cut written

/-- **The loop is safe** while the other task uses the next connection. -/
theorem safe_streamLoop {reader fuel : Nat} {buf part : List UInt8} {total : UInt64}
    {client : ControlClient} {w : World τ} (room : 0 < buf.length) (held : client.stream = fd)
    (count : total = UInt64.ofNat part.length)
    (round : Round mark contents base fd reader part w) :
    (Installation.streamLoop reader fuel buf total).Safe (World.device mark)
      (streamingConditions mark contents base fd)
      (fun n _ w' => Whole mark contents base fd n w') client w := by
  induction fuel generalizing buf part total w with
  | zero => exact round.kept
  | succ fuel ih =>
      refine ⟨round.kept, ?_⟩
      rintro w₁ others
      replace round := round.later others
      refine ⟨fun r w₂ answer => ?_, ?_⟩
      · obtain ⟨left, after, cases⟩ := w₁.readFrom_cases reader room
        have value : r = (w₁.readFrom reader buf.length).1 := congrArg Prod.fst answer
        have world : w₂ = (w₁.readFrom reader buf.length).2 := congrArg Prod.snd answer
        rw [after] at world
        have sending : Sending mark base fd part w₂ := by
          rw [world]
          exact ⟨round.sending.others, round.sending.opened, round.sending.conn⟩
        have printed : w₂.printed = base.printed := by rw [world, ← round.printed]
        have inside : part <+: delivered contents := by
          rw [round.left]
          exact List.prefix_append _ _
        rcases cases with ⟨ended, empty, clean⟩ | ⟨e, failed, empty, error⟩ |
          ⟨chunk, read, positive, short, whole, same⟩
        · obtain rfl := value.trans ended
          have all : delivered contents = part := by rw [round.left, empty, List.append_nil]
          refine ⟨⟨part, sending, inside, .inl printed⟩, ?_⟩
          rintro _ ⟨conn, rfl⟩
          refine ⟨?_, printed, round.error.trans clean, by rw [count, all]⟩
          rw [all]
          exact sending.later conn
        · obtain rfl := value.trans failed
          exact ⟨part, sending, inside, .inl printed⟩
        · obtain rfl := value.trans read
          show Async.Safe _ _ _ (ite _ _ _) _ _
          rw [if_neg positive.ne', take_splice_self]
          have split : delivered contents = part ++ chunk ++ delivered left := by
            rw [round.left, whole, List.append_assoc]
          refine safe_write held sending printed ?_ fun w₃ sent unprinted kept => ?_
          · rw [split]
            exact List.prefix_append _ _
          · have rest : w₃.readers reader = left := by
              rw [kept, world]
              exact Function.update_self ..
            refine @ih _ (part ++ chunk) _ _ (splice_positive room short) ?_
              ⟨sent, unprinted, ?_, ?_⟩
            · rw [count, List.length_append, UInt64.ofNat_add]
            · rw [rest, split]
            · rw [rest, round.error, same]
      · rintro _ rfl
        exact round.kept

/-- Streaming an image is safe. -/
theorem safe_image {image : Image} {fuel : Nat} {client : ControlClient}
    (held : client.stream = fd) (gives : image.contents base = contents) :
    (image.stream fuel).Safe (World.device mark) (streamingConditions mark contents base fd)
      (fun n _ w' => Whole mark contents base fd n w') client base := by
  have room := Installation.buffer_positive
  cases image with
  | reader reader =>
      obtain rfl : base.readers reader = contents := gives
      exact safe_streamLoop room held rfl ⟨.start, rfl, rfl, rfl⟩
  | file path =>
      have kept : ∀ {w}, Sending mark base fd [] w → w.printed = base.printed →
          Streaming mark contents base fd w :=
        fun sending printed => ⟨[], sending, List.nil_prefix, .inl printed⟩
      refine ⟨kept .start rfl, ?_⟩
      rintro _ ⟨conn, rfl⟩
      have sending := (@Sending.start τ mark base fd).later conn
      refine ⟨fun r w₂ answer => ?_, ?_⟩
      · change (r, w₂) = (base.onConn (fd + 1) fun _ => conn).openFile path at answer
        have files : (base.onConn (fd + 1) fun _ => conn).files path = base.files path := rfl
        cases file : base.files path with
        | error e =>
            simp only [World.openFile, files, file] at answer
            obtain ⟨rfl, rfl⟩ := answer
            exact kept sending rfl
        | ok given =>
            simp only [World.openFile, files, file] at answer
            obtain ⟨rfl, rfl⟩ := answer
            obtain rfl : given = contents := (Image.contents_file file).symm.trans gives
            have opened : Function.update base.readers base.started given base.started = given :=
              Function.update_self ..
            exact safe_streamLoop room held rfl ⟨⟨sending.others, sending.opened, sending.conn⟩,
              rfl, congrArg delivered opened.symm, congrArg readError opened.symm⟩
      · rintro _ rfl
        exact kept sending rfl

/-- Streaming an image and printing its line is safe. -/
theorem safe_streamImage {file : Option String} {fuel : Nat} {client : ControlClient}
    (held : client.stream = fd) (gives : (imageOf file).contents base = contents) :
    (streamImage file fuel).Safe (World.device mark) (streamingConditions mark contents base fd)
      (fun _ _ w' => Sending mark base fd (delivered contents) w' ∧ readError contents = none ∧
        w'.printed = base.printed ++ [streamedLine contents]) client base := by
  rw [streamImage_eq]
  refine .bind ((safe_image held gives).imp fun n s w _ whole => ?_)
  refine ⟨⟨_, whole.sending, List.prefix_refl _, .inl whole.printed⟩, ?_⟩
  rintro _ ⟨conn, rfl⟩
  refine ⟨?_, fun _ never => never.elim⟩
  rintro _ _ rfl
  have line : w.printed ++ [s!"Streamed {n} bytes"] = base.printed ++ [streamedLine contents] := by
    rw [whole.printed, whole.count]
    rfl
  have sending := whole.sending.later conn
  refine ⟨⟨_, ⟨sending.others, sending.opened, sending.conn⟩, List.prefix_refl _,
    .inr ⟨rfl, whole.clean, line⟩⟩, ?_⟩
  rintro _ ⟨conn', rfl⟩
  have sending := (whole.sending.later conn).later conn'
  exact ⟨⟨sending.others, sending.opened, sending.conn⟩, whole.clean, line⟩

end Streaming

end SwupdateIpc
