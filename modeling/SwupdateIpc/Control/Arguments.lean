import SwupdateIpc.Control.Requests

/-!
# How the arguments of a request arrive

The daemon reads a text up to its first NUL. A text is written without a check, cut
to leave room for a NUL, so the daemon reads what stands before the first NUL of the
argument, and no more than fits. This is the argument exactly when it fits and has no
NUL of its own (`cString_textField_iff`), and requests of which every text does are
told apart by their texts (`texts_of_readTexts`).

The length of an image is written as a `size_t`. It arrives exactly when the target
has the width for it (`length_arrives_iff`).
-/

set_option autoImplicit false

namespace SwupdateIpc

open Foundations Wire

/-! ## Texts -/

/-- A text argument: the member it is written to, the size of this member, and the
text. -/
structure TextArgument where
  member : List Ident
  size : Nat
  text : String

/-- The text fits into its member, and has no NUL. -/
def TextArgument.Representable (a : TextArgument) : Prop :=
  (utf8Bytes a.text).length ≤ a.size - 1 ∧ 0 ∉ utf8Bytes a.text

theorem cString_textField_iff (a : TextArgument) :
    cString (textField a.size a.text) = utf8Bytes a.text ↔ a.Representable := by
  rw [cString_textField, TextArgument.Representable]
  constructor
  · intro whole
    have within : utf8Bytes a.text <+: (utf8Bytes a.text).take (a.size - 1) := by
      conv_lhs => rw [← whole]
      exact List.takeWhile_prefix _
    have le := within.length_le
    rw [List.length_take] at le
    have short : (utf8Bytes a.text).length ≤ a.size - 1 := by omega
    rw [List.take_of_length_le short] at whole
    exact ⟨short, cString_eq_self_iff.mp whole⟩
  · rintro ⟨short, absent⟩
    rw [List.take_of_length_le short]
    exact cString_eq_self_iff.mpr absent

namespace Request

/-- The text arguments of a request. -/
def texts : Request → List TextArgument
  | .install req => [
      ⟨[.data, .instmsg, .req, .info], 512, req.info⟩,
      ⟨[.data, .instmsg, .req, .softwareSet], 256, req.softwareSet.getD ""⟩,
      ⟨[.data, .instmsg, .req, .runningMode], 256, req.runningMode.getD ""⟩]
  | .setAesKey key iv => [
      ⟨[.data, .aeskeymsg, .keyAscii], 65, key⟩,
      ⟨[.data, .aeskeymsg, .ivtAscii], 33, iv⟩]
  | .setVersionsRange minimum maximum current updateType => [
      ⟨[.data, .versions, .minimumVersion], 256, minimum⟩,
      ⟨[.data, .versions, .maximumVersion], 256, maximum⟩,
      ⟨[.data, .versions, .currentVersion], 256, current⟩,
      ⟨[.data, .versions, .updateType], 256, updateType⟩]
  | .setSwupdateVar varNamespace name value => [
      ⟨[.data, .vars, .varnamespace], 256, varNamespace⟩,
      ⟨[.data, .vars, .varname], 256, name⟩,
      ⟨[.data, .vars, .varvalue], 256, value⟩]
  | .getSwupdateVar varNamespace name => [
      ⟨[.data, .vars, .varnamespace], 256, varNamespace⟩,
      ⟨[.data, .vars, .varname], 256, name⟩]
  | .setDeltaUrl filename url => [
      ⟨[.data, .dwlUrl, .filename], 256, filename⟩,
      ⟨[.data, .dwlUrl, .url], 1024, url⟩]
  | .getStatus | .getUpdateState | .setUpdateState _ | .postUpdate | .getHwRevision
  | .subprocessCmd _ _ _ => []

variable (T : Target)

/-- The text that the daemon reads in a member of the message of a request. -/
def textAt (r : Request) (member : List Ident) : List UInt8 :=
  cString ((r.asHeader T).read member)

/-- The texts that the daemon reads. -/
def readTexts (r : Request) : List (List UInt8) := r.texts.map fun a => r.textAt T a.member

variable {T}

theorem textAt_eq {r : Request} {a : TextArgument} (argument : a ∈ r.texts) :
    r.textAt T a.member = cString (textField a.size a.text) := by
  have carried : (a.member, textField a.size a.text) ∈ r.headerFields T := by
    cases r <;> simp only [texts, List.mem_cons, List.not_mem_nil, or_false] at argument
    case install req =>
      rcases argument with rfl | rfl | rfl <;>
        simp [headerFields, arguments, installArguments]
    case setAesKey key iv => rcases argument with rfl | rfl <;> simp [headerFields, arguments]
    case setVersionsRange minimum maximum current updateType =>
      rcases argument with rfl | rfl | rfl | rfl <;> simp [headerFields, arguments]
    case setSwupdateVar varNamespace name value =>
      rcases argument with rfl | rfl | rfl <;> simp [headerFields, arguments]
    case getSwupdateVar varNamespace name =>
      rcases argument with rfl | rfl <;> simp [headerFields, arguments]
    case setDeltaUrl filename url =>
      rcases argument with rfl | rfl <;> simp [headerFields, arguments]
  rw [textAt, (carries_asHeader T r).read_of_mem carried]

/-- Requests of which every text is representable are told apart by their texts. -/
theorem texts_of_readTexts {r r' : Request} (all : ∀ a ∈ r.texts, a.Representable)
    (all' : ∀ a ∈ r'.texts, a.Representable) (same : r.readTexts T = r'.readTexts T) :
    r.texts.map TextArgument.text = r'.texts.map TextArgument.text := by
  have read : ∀ {r : Request}, (∀ a ∈ r.texts, a.Representable) →
      r.readTexts T = (r.texts.map TextArgument.text).map utf8Bytes := by
    intro r all
    rw [readTexts, List.map_map]
    apply List.map_congr_left
    intro a argument
    rw [textAt_eq argument]
    exact (cString_textField_iff a).mpr (all a argument)
  rw [read all, read all'] at same
  exact List.map_injective_iff.mpr utf8Bytes_injective same

end Request

/-! ## What a request that succeeds has sent -/

/-- A request that returns a value has sent its message. -/
theorem sent_of_performed {T : Target} {τ : Type} {mark : τ} {r : Request}
    {c c' : Config ControlClient (World τ)} {v : Value}
    (exec : Exec (World.device mark) (r.perform T) c (.ok v) c') :
    (c'.world.conns c.own.stream).sent =
      (c.world.conns c.own.stream).sent ++ (r.asHeader T).bytes.map (Prod.mk mark) := by
  obtain ⟨_, exchange⟩ := exec_perform exec
  obtain ⟨resp, world⟩ := exchange.of_ok
  rw [world, World.record, World.conns_onConn_same, World.send, World.conns_onConn_same,
    Conn.sent_record, Conn.sent_send]
  rfl

/-- **How the text arguments of a request arrive.** A request that returns a value has
sent its message, in which the daemon reads of each text what stands before its first
NUL, and no more than fits. This is the whole text exactly when the text is
representable. Two requests of representable texts that read the same have the same
texts. -/
theorem texts_arrive_cut (T : Target) (r : Request) :
    (∀ (τ : Type) (mark : τ) (c c' : Config ControlClient (World τ)) (v : Value),
      Exec (World.device mark) (r.perform T) c (.ok v) c' →
        (c'.world.conns c.own.stream).sent =
          (c.world.conns c.own.stream).sent ++ (r.asHeader T).bytes.map (Prod.mk mark)) ∧
    (∀ a ∈ r.texts,
      r.textAt T a.member = cString ((utf8Bytes a.text).take (a.size - 1)) ∧
      (r.textAt T a.member = utf8Bytes a.text ↔ a.Representable)) ∧
    ∀ r' : Request, (∀ a ∈ r.texts, a.Representable) → (∀ a ∈ r'.texts, a.Representable) →
      r.readTexts T = r'.readTexts T →
        r.texts.map TextArgument.text = r'.texts.map TextArgument.text := by
  refine ⟨fun _ _ _ _ _ => sent_of_performed, fun a argument => ⟨?_, ?_⟩,
    fun _ => Request.texts_of_readTexts⟩
  · rw [Request.textAt_eq argument, cString_textField]
  · rw [Request.textAt_eq argument]
    exact cString_textField_iff a

/-- Any request whose reply is an acknowledgement can succeed. -/
theorem exec_acknowledged (T : Target) {r : Request} (ack : r.isAcknowledged = true) :
    ∃ c c' : Config ControlClient (World Unit),
      Exec (World.device ()) (r.perform T) c (.ok r.ackValue) c' := by
  let reply : RawIpcMessage T := .new T .ack
  let w : World Unit := (World.initial fun _ => []).accept "" (.scripted reply.bytes)
  have fresh : w.conns 0 = .fresh (.scripted reply.bytes) :=
    World.conns_accept_new (World.initial fun _ => []) "" (.scripted reply.bytes)
  have ran := @run_perform T Unit () r ⟨0, ⟨"", "", 0⟩⟩ w reply (by rw [fresh]; rfl)
    (by rw [World.send, World.conns_onConn_same, fresh]; exact List.prefix_refl _)
  have accepted : r.decode reply = .ok r.ackValue := by
    rw [Request.decode_acknowledged ack]
    simp only [Request.acknowledged, reply, RawIpcMessage.msgType_new]
    rfl
  have exec := World.exec_serve () (r.perform T) ⟨⟨0, ⟨"", "", 0⟩⟩, w⟩
  rw [ran, accepted] at exec
  exact ⟨_, _, exec⟩

/-- A key of 65 characters is accepted, and the daemon reads another one. -/
theorem long_key_is_cut :
    ¬ ∀ (T : Target) (r : Request) (c c' : Config ControlClient (World Unit)) (v : Value),
        Exec (World.device ()) (r.perform T) c (.ok v) c' →
          ∀ a ∈ r.texts, r.textAt T a.member = utf8Bytes a.text := by
  intro claim
  let key : String := String.ofList (List.replicate 65 'a')
  obtain ⟨c, c', exec⟩ := exec_acknowledged .x86_64 (r := .setAesKey key "") rfl
  have whole := claim _ _ _ _ _ exec ⟨[.data, .aeskeymsg, .keyAscii], 65, key⟩ List.mem_cons_self
  rw [Request.textAt_eq List.mem_cons_self] at whole
  obtain ⟨short, _⟩ := (cString_textField_iff _).mp whole
  exact absurd short (by decide)

/-! ## The length of an image -/

/-- The length that the daemon reads in a message. -/
def Request.lengthAt (T : Target) (r : Request) : Nat :=
  T.order.decode ((r.asHeader T).read [.data, .instmsg, .req, .len])

/-- The daemon reads as much of the length as a `size_t` holds. -/
theorem lengthAt_install (T : Target) (req : InstallRequest) :
    (Request.install req).lengthAt T = (req.len.getD 0).toNat % 256 ^ T.sizeT.bytes := by
  have carried : ([.data, .instmsg, .req, .len], usizeToNeBytes T (req.len.getD 0).toNat) ∈
      (Request.install req).headerFields T := by
    simp [Request.headerFields, Request.arguments, Request.installArguments]
  rw [Request.lengthAt, (carries_asHeader T _).read_of_mem carried, usizeToNeBytes,
    ByteOrder.decode_encode]

/-- **When the length of an image arrives.** An install request hands over its message
whatever the length is, and the daemon reads this length exactly when a `size_t` holds
it. -/
theorem length_arrives_iff (T : Target) (req : InstallRequest) (len : UInt64) :
    HandsOver ((Request.install { req with len := some len }).perform T)
        ((Request.install { req with len := some len }).asHeader T).bytes ∧
      ((Request.install { req with len := some len }).lengthAt T = len.toNat ↔
        T.sizeT = .eight ∨ len.toNat < 2 ^ 32) := by
  refine ⟨handsOver_message T _, ?_⟩
  have bounded : len.toNat < 2 ^ 64 := len.toNat_lt
  rw [lengthAt_install, Option.getD_some]
  cases width : T.sizeT with
  | eight =>
      refine iff_of_true (Nat.mod_eq_of_lt ?_) (.inl rfl)
      exact bounded
  | four =>
      have narrow : 256 ^ Width.four.bytes = 2 ^ 32 := rfl
      rw [narrow]
      constructor
      · intro arrived
        exact .inr (arrived ▸ Nat.mod_lt _ (by decide))
      · rintro (wide | short)
        · cases wide
        · exact Nat.mod_eq_of_lt short

/-- On a target of 32 bits a length of 4 GiB arrives as zero. -/
theorem large_length_is_lost :
    ¬ ∀ (T : Target) (req : InstallRequest) (len : UInt64),
        (Request.install { req with len := some len }).lengthAt T = len.toNat := by
  intro claim
  have lost := claim ⟨.little, .four, .four, fun _ => 0⟩ .new 4294967296
  rw [lengthAt_install] at lost
  revert lost
  decide

end SwupdateIpc
