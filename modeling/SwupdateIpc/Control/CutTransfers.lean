import SwupdateIpc.Control.Session

/-!
# After a transfer was cut

An image has no length and no end on the wire. When `stream` fails, or is
dropped, the connection carries a prefix of the image, and nothing in the client
remembers it: the handle can be dropped, and the client can be used again.

`Connected.sent_after_cut` says what is written on that connection afterwards. The
code writes nothing of its own accord: dropping the handle and reconnecting write
nothing, and after a reconnect that succeeded, or once the connection is shut
down, no byte is written on it any more. As long as the client holds the
connection, every byte is one of a message or of an image that its owner sends
next. That such a byte can follow the cut image directly is
`request_follows_cut_image`.
-/

set_option autoImplicit false

namespace SwupdateIpc

open Foundations Wire

/-- The bytes an operation may write: the first ones of its message or of its
image. -/
def Sends (T : Target) (s : Session) (a : Action) (bytes : List (Origin × UInt8)) : Prop :=
  match a with
  | .request r => ∃ part, part <+: (r.message T).bytes ∧ bytes = part.map (Prod.mk .request)
  | .stream image _ =>
      ∃ part, part <+: delivered (image.contents s.net) ∧ bytes = part.map (Prod.mk .image)
  | .release | .reconnect => bytes = []

section Effects

variable {T : Target} {s : Session} {done : Done} {conn : Conn Origin}

theorem Effect.sends (effect : Effect T s done conn) :
    ∃ bytes, conn.sent = s.conn.sent ++ bytes ∧ Sends T s done.action bytes ∧
      (s.conn.closed = true → bytes = []) := by
  cases effect with
  | cutWrite written unsent cut =>
      exact ⟨_, rfl, ⟨_, written, rfl⟩, fun closed => by rw [unsent closed, List.map_nil]⟩
  | cutRead writable read short cut =>
      refine ⟨_, rfl, ⟨_, List.prefix_refl _, rfl⟩, ?_⟩
      intro closed
      rw [writable] at closed
      cases closed
  | complete resp writable read =>
      refine ⟨_, rfl, ⟨_, List.prefix_refl _, rfl⟩, ?_⟩
      intro closed
      rw [writable] at closed
      cases closed
  | streamed inside unsent whole =>
      exact ⟨_, rfl, ⟨_, inside, rfl⟩, fun closed => by rw [unsent closed, List.map_nil]⟩
  | released => exact ⟨[], (List.append_nil _).symm, rfl, fun _ => rfl⟩
  | reconnected shut =>
      refine ⟨[], ?_, rfl, fun _ => rfl⟩
      rcases shut with rfl | rfl <;> exact (List.append_nil _).symm

end Effects

/-- A transition that streams and does not return. -/
def CutShort (e : Transition Session Done) : Prop :=
  ∃ image fuel o, e.label = ⟨.stream image fuel, o⟩ ∧ ∀ n, o ≠ .ok n

theorem CutShort.not_reconnected {e : Transition Session Done} (cut : CutShort e) :
    e.label.reconnected = false := by
  obtain ⟨image, fuel, o, label, _⟩ := cut
  rw [label]
  rfl

/-- A transfer leaves a prefix of its image on the connection. -/
theorem CutShort.sent {T : Target} {e : Transition Session Done} (cut : CutShort e)
    (step : Step T e) (proper : e.before.Proper) :
    ∃ image fuel o part, e.label = ⟨.stream image fuel, o⟩ ∧
      part <+: delivered (image.contents e.before.net) ∧
        (connAfter e).sent = e.before.conn.sent ++ part.map (Prod.mk .image) := by
  obtain ⟨image, fuel, o, label, _⟩ := cut
  obtain ⟨effect, _⟩ := step.effect proper
  obtain ⟨bytes, sent, sends, _⟩ := effect.sends
  rw [label] at sends
  obtain ⟨part, inside, rfl⟩ := sends
  exact ⟨image, fuel, o, part, label, inside, sent⟩

/-! ## A request after a cut image -/

/-- A reader that fails after three bytes. -/
def failingReader : List ReadResult := [.data [1, 2, 3], .error "connection reset"]

/-- A client that has just connected to a server that acknowledges once. -/
def acknowledgedOnce (T : Target) : Session :=
  .answeredOnce (RawIpcMessage.new T .ack) failingReader

/-- An install request is accepted, its image fails after three bytes, the handle
is dropped, and the status is queried. -/
theorem request_follows_cut_image (T : Target) :
    ∃ e₁ e₂ e₃ e₄ : Transition Session Done,
      Run (Step T) (acknowledgedOnce T) ([e₁] ++ e₂ :: ([e₃] ++ [e₄])) e₄.after ∧ CutShort e₂ ∧
        e₃.label.reconnected = false ∧ e₄.before.client.stream = e₂.before.client.stream ∧
          e₄.before.conn = connAfter e₂ ∧
            (connAfter e₄).sent = e₄.before.conn.sent ++
              (Request.getStatus.message T).bytes.map (Prod.mk .request) := by
  obtain ⟨e₁, e₂, o, run, _, _, label, _, held, writable, _, failed⟩ :=
    @installed_and_streamed T _ (RawIpcMessage.msgType_new .ack) failingReader 4 (by decide)
  obtain ⟨e, rfl⟩ := failed rfl
  have borrowed : e₂.after.installing = true := by
    obtain ⟨_, _, _, _, step, _⟩ := run.at_mem (List.mem_cons_of_mem e₁ List.mem_cons_self)
    rw [step.2.2, label]
    rfl
  let e₃ := e₂.after.served T .release
  have step₃ : Step T e₃ := step_served borrowed.symm
  let e₄ := e₃.after.waiting T .getStatus
  have step₄ : Step T e₄ := step_waiting rfl writable
  refine ⟨e₁, e₂, e₃, e₄, (run.step step₃).step step₄, ⟨_, _, _, label, by rintro _ ⟨⟩⟩, rfl,
    congrArg ControlClient.stream held, ?_, ?_⟩
  · show e₂.after.conn = connAfter e₂
    rw [Session.conn, held]
    rfl
  · rw [connAfter_waiting]
    rfl

/-! ## What is written after a cut transfer -/

/-- **What is written after a transfer was cut.** The transfer left a prefix of
its image on the connection. A later operation adds bytes of its own while the
client still holds the connection, and none once a reconnect has succeeded or the
connection is shut down. -/
theorem Connected.sent_after_cut {T : Target} {s s' : Session}
    {es₁ es₂ : List (Transition Session Done)} {e e' : Transition Session Done}
    (connected : Connected s) (run : Run (Step T) s (es₁ ++ e :: (es₂ ++ [e'])) s')
    (cut : CutShort e) :
    (∃ image fuel o part, e.label = ⟨.stream image fuel, o⟩ ∧
        part <+: delivered (image.contents e.before.net) ∧
          (connAfter e).sent = e.before.conn.sent ++ part.map (Prod.mk .image)) ∧
      ∃ bytes, (e'.after.net.conns e.before.client.stream).sent =
          (e'.before.net.conns e.before.client.stream).sent ++ bytes ∧
        ((∃ x ∈ es₂, x.label.reconnected = true) → bytes = []) ∧
        ((e'.before.net.conns e.before.client.stream).closed = true → bytes = []) ∧
        ((∀ x ∈ es₂, x.label.reconnected = false) →
          e'.before.client.stream = e.before.client.stream ∧
            Sends T e'.before e'.label.action bytes) := by
  obtain ⟨before, step, later⟩ := run.cut
  obtain ⟨between, step', _⟩ := later.cut
  have proper := connected.run_proper before
  obtain ⟨_, frame⟩ := step.effect proper
  have held : e.after.client.stream = e.before.client.stream := by
    rw [(frame.held cut.not_reconnected).1]
  refine ⟨cut.sent step proper, ?_⟩
  obtain ⟨proper', ⟨never, same⟩ | ⟨⟨x, member, once⟩, opened, other⟩⟩ :=
    held_or_abandoned between (step.proper proper)
  · obtain ⟨effect, _⟩ := step'.effect proper'
    obtain ⟨bytes, sent, sends, unsent⟩ := effect.sends
    have here : e'.before.client.stream = e.before.client.stream := same.trans held
    rw [here] at sent
    rw [Session.conn, here] at sent unsent
    refine ⟨bytes, sent, ?_, unsent, fun _ => ⟨here, sends⟩⟩
    rintro ⟨x, member, once⟩
    rw [never x member] at once
    cases once
  · rw [held] at opened other
    obtain ⟨_, _, kept⟩ := step'.abandoned proper' opened other
    refine ⟨[], by rw [kept, List.append_nil], fun _ => rfl, fun _ => rfl, ?_⟩
    intro never
    rw [never x member] at once
    cases once

/-- The status query after a cut image. -/
theorem sent_after_cut_image :
    ∃ e e₁ e' : Transition Session Done, CutShort e ∧ e₁.label.reconnected = false ∧
      (∃ image fuel o part, e.label = ⟨.stream image fuel, o⟩ ∧
        part <+: delivered (image.contents e.before.net) ∧
          (connAfter e).sent = e.before.conn.sent ++ part.map (Prod.mk .image)) ∧
      ∃ bytes, (e'.after.net.conns e.before.client.stream).sent =
          (e'.before.net.conns e.before.client.stream).sent ++ bytes ∧
        ((∃ x ∈ [e₁], x.label.reconnected = true) → bytes = []) ∧
        ((e'.before.net.conns e.before.client.stream).closed = true → bytes = []) ∧
        ((∀ x ∈ [e₁], x.label.reconnected = false) →
          e'.before.client.stream = e.before.client.stream ∧
            Sends .x86_64 e'.before e'.label.action bytes) := by
  obtain ⟨e₁, e₂, e₃, e₄, run, cut, kept, _⟩ := request_follows_cut_image .x86_64
  exact ⟨e₂, e₃, e₄, cut, kept, (connected_opened _ _ _).sent_after_cut run cut⟩

/-- The status query is written on the connection that carries the cut image, and
no reconnect came between. -/
theorem cut_image_does_not_silence :
    ¬ ∀ (T : Target) (s s' : Session) (es₁ es₂ : List (Transition Session Done))
        (e e' : Transition Session Done),
        Connected s → Run (Step T) s (es₁ ++ e :: (es₂ ++ [e'])) s' → CutShort e →
        (∀ x ∈ es₂, x.label.reconnected = false) →
        (e'.after.net.conns e.before.client.stream).sent =
          (e'.before.net.conns e.before.client.stream).sent := by
  intro silent
  obtain ⟨e₁, e₂, e₃, e₄, run, cut, kept, held, _, sent⟩ := request_follows_cut_image .x86_64
  have same := silent .x86_64 _ _ _ _ _ _ (connected_opened _ _ _) run cut (by simpa using kept)
  rw [← held] at same
  have positive := sizeOfMessage_pos .x86_64
  have longer := congrArg List.length (same.symm.trans sent)
  rw [List.length_append, List.length_map, RawIpcMessage.length_bytes] at longer
  change e₄.before.conn.sent.length = e₄.before.conn.sent.length + _ at longer
  omega

end SwupdateIpc
