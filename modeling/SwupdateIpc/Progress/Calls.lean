import SwupdateIpc.Progress.Client
import SwupdateIpc.Progress.Releases

/-!
# What the operations of the progress client do

An acknowledgement is accepted when its last four bytes are the magic and its
version has the right major part (`AckAccepted`, `checkAck_eq_ok`). Both the
handshake and `receive` are one read of the connection held, whole or cut
(`exec_handshake`, `exec_receive`), and a reconnect is a connection attempt
followed by a handshake on what it opened (`exec_reconnect`).

On sockets without failures of their own each of them is a function of the bytes
left on the connection (`run_handshake`, `run_receive`, `run_reconnect`).
-/

set_option autoImplicit false

namespace SwupdateIpc

open Foundations Wire

/-! ## Acknowledgements -/

section Acknowledgements

variable (T : Target)

/-- The major part of a version. -/
def majorOf (version : UInt32) : UInt32 := (version >>> 16) &&& 0xFFFF

/-- The check of an acknowledgement. -/
def checkAck (ack : RawProgressAck) : Except Error Unit :=
  if ack.read [.magic] ≠ PROGRESS_CONNECT_ACK_MAGIC then
    .error (.protocol s!"invalid ACK magic: {ack.read [.magic]}")
  else if majorOf (u32FromNeBytes T (ack.read [.apiversion])) ≠ majorOf PROGRESS_API_VERSION then
    .error (.versionMismatch PROGRESS_API_VERSION (u32FromNeBytes T (ack.read [.apiversion])))
  else .ok ()

/-- The bytes of an acknowledgement that is accepted: a version with the major
part 2, and the magic. -/
def AckAccepted (bytes : List UInt8) : Prop :=
  bytes.length = 8 ∧ slice 4 4 bytes = PROGRESS_CONNECT_ACK_MAGIC ∧
    T.order.decode (bytes.take 4) / 65536 = 2

/-- A stream that begins with an acknowledgement that is accepted. -/
def Greets (bytes : List UInt8) : Prop := AckAccepted T (bytes.take 8)

variable {T}

theorem toNat_majorOf (version : UInt32) : (majorOf version).toNat = version.toNat / 65536 := by
  have small : version.toNat < 2 ^ 32 := version.toNat_lt
  have shifted : version.toNat >>> 16 = version.toNat / 65536 := Nat.shiftRight_eq_div_pow _ _
  have masked : version.toNat / 65536 &&& 65535 = version.toNat / 65536 % 65536 :=
    Nat.and_two_pow_sub_one_eq_mod _ 16
  rw [majorOf, UInt32.toNat_and, UInt32.toNat_shiftRight]
  show version.toNat >>> 16 &&& 65535 = _
  rw [shifted, masked]
  omega

/-- The check accepts these acknowledgements, and no others. -/
theorem checkAck_eq_ok {ack : RawProgressAck} :
    checkAck T ack = .ok () ↔ AckAccepted T ack.bytes := by
  have placed : rawProgressAck.place? [.magic] = some (4, u8s 4) := rfl
  have magic : ack.read [.magic] = slice 4 4 ack.bytes := ack.read_eq placed
  have first : rawProgressAck.place? [.apiversion] = some (0, u32) := rfl
  have version : ack.read [.apiversion] = ack.bytes.take 4 := ack.read_eq first
  have small : T.order.decode (ack.bytes.take 4) < 2 ^ 32 := by
    have bound := T.order.decode_lt (ack.bytes.take 4)
    have four : (ack.bytes.take 4).length = 4 := by
      rw [List.length_take, ack.length_eq]
      rfl
    rwa [four] at bound
  have major : majorOf (u32FromNeBytes T (ack.bytes.take 4)) = majorOf PROGRESS_API_VERSION ↔
      T.order.decode (ack.bytes.take 4) / 65536 = 2 := by
    rw [← UInt32.toNat_inj, toNat_majorOf, u32FromNeBytes, UInt32.toNat_ofNat',
      Nat.mod_eq_of_lt small]
    rfl
  rw [checkAck, AckAccepted, magic, version, ← major]
  by_cases same : slice 4 4 ack.bytes = PROGRESS_CONNECT_ACK_MAGIC
  · by_cases two : majorOf (u32FromNeBytes T (ack.bytes.take 4)) = majorOf PROGRESS_API_VERSION
    · simp only [same, two, ne_eq, not_true_eq_false, if_false, true_iff, and_self, and_true]
      exact ack.length_eq
    · simp [same, two]
  · simp [same]

end Acknowledgements

/-- The event of the bytes of a message. -/
def Wire.ProgressLayout.decode (T : Target) : ProgressLayout → List UInt8 → ProgressEvent
  | .packed, bytes => .fromRaw T ((Record.zeroed _).overwrite bytes)
  | .unpacked, bytes => .fromRawUnpacked T ((Record.zeroed _).overwrite bytes)

theorem Wire.ProgressLayout.msgSize_le (layout : ProgressLayout) : layout.msgSize ≤ 2416 := by
  cases layout <;> decide

theorem Wire.ProgressLayout.msgSize_pos (layout : ProgressLayout) : 0 < layout.msgSize := by
  cases layout <;> decide

namespace ProgressClient

variable {T : Target}

/-- The handshake reads an acknowledgement in time, and checks it. -/
theorem handshake_eq : handshake T = (do
    match ← readAck.timeout (Duration.fromSecs 5) with
    | none => Async.throw (.timeout (Duration.fromSecs 5))
    | some ack => match checkAck T ack with
      | .ok () => pure ()
      | .error e => Async.throw e) := by
  simp only [handshake]
  congr 1
  funext found
  cases found with
  | none => rfl
  | some ack =>
      by_cases magic : ack.read [.magic] ≠ PROGRESS_CONNECT_ACK_MAGIC
      · simp only [checkAck, if_pos magic]
      · by_cases major : majorOf (u32FromNeBytes T (ack.read [.apiversion])) ≠
            majorOf PROGRESS_API_VERSION
        · simp only [checkAck, if_neg magic, if_pos major]
          exact if_pos major
        · simp only [checkAck, if_neg magic, if_neg major]
          exact if_neg major

/-- A read of a message gives its event. -/
theorem receive_eq : receive T = (do
    let self ← get
    let reader ← get
    let bytes ← orConnection (← await (.readExact reader.stream self.layout.msgSize))
    pure (self.layout.decode T bytes)) := by
  unfold receive
  congr 1
  funext self
  obtain ⟨order, sizeT, align, padding⟩ := T
  obtain ⟨stream, config, layout⟩ := self
  cases layout with
  | packed =>
      simp only [readRawPacked, bind_assoc, pure_bind]
      cases align <;> rfl
  | unpacked =>
      simp only [readRawUnpacked, bind_assoc, pure_bind]
      cases align <;> rfl

/-! ## On sockets that may fail -/

section Failures

variable {τ : Type} {mark : τ} {c c' : Config ProgressClient (World τ)}

/-- The acknowledgement is read whole and in time, or the read is cut. -/
theorem exec_readAck {deadline : Nat} {o : Outcome Error (Option RawProgressAck)}
    (exec : Exec (World.device mark) (readAck.timeout deadline) c o c') :
    c'.own = c.own ∧ ∃ stretch, stretch.bytes <+: (c.world.conns c.own.stream).available ∧
      c'.world = c.world.record c.own.stream stretch ∧
      (stretch.full = true → stretch.bytes.length = 8) ∧
      ∀ ack, o = .ok (some ack) → stretch.full = true ∧ ack.bytes = stretch.bytes := by
  rw [readAck, timeout_get_bind, exec_get_bind, exec_await_bind_timeout] at exec
  rcases exec with ⟨_ | r, w, answer, rest⟩ | ⟨w, ⟨part, read, _, rfl⟩, rfl, rfl⟩
  · obtain ⟨part, read, _, rfl⟩ := answer
    obtain ⟨rfl, rfl⟩ := rest
    exact ⟨rfl, _, read, rfl, by simp, by simp⟩
  · rcases answer with ⟨bytes, rfl, read, full, rfl⟩ | ⟨e, part, rfl, read, _, rfl⟩
    · obtain ⟨rfl, rfl⟩ := rest
      refine ⟨rfl, _, read, rfl, fun _ => full, ?_⟩
      rintro ack ⟨⟩
      exact ⟨rfl, Record.bytes_overwrite _ full⟩
    · obtain ⟨rfl, rfl⟩ := rest
      exact ⟨rfl, _, read, rfl, by simp, by simp⟩
  · exact ⟨rfl, _, read, rfl, by simp, by simp⟩

/-- **What a handshake can do.** It reads the connection held, and it succeeds only
on a whole acknowledgement that is accepted. -/
theorem exec_handshake {o : Outcome Error Unit}
    (exec : Exec (World.device mark) (handshake T) c o c') :
    c'.own = c.own ∧ ∃ stretch, stretch.bytes <+: (c.world.conns c.own.stream).available ∧
      c'.world = c.world.record c.own.stream stretch ∧
      (stretch.full = true → stretch.bytes.length = 8) ∧
      (o = .ok () → stretch.full = true ∧ AckAccepted T stretch.bytes) := by
  rw [handshake_eq, exec_bind] at exec
  rcases exec with ⟨found, c₁, first, last⟩ | ⟨e, rfl, first⟩ | ⟨rfl, first⟩
  · obtain ⟨own, stretch, read, world, size, whole⟩ := exec_readAck first
    cases found with
    | none =>
        obtain ⟨rfl, rfl⟩ := last
        exact ⟨own, stretch, read, world, size, by simp⟩
    | some ack =>
        obtain ⟨full, same⟩ := whole ack rfl
        cases checked : checkAck T ack with
        | ok u =>
            simp only [checked] at last
            obtain ⟨rfl, rfl⟩ := last
            refine ⟨own, stretch, read, world, size, fun _ => ⟨full, ?_⟩⟩
            rw [← same]
            exact checkAck_eq_ok.mp checked
        | error e =>
            simp only [checked] at last
            obtain ⟨rfl, rfl⟩ := last
            exact ⟨own, stretch, read, world, size, by simp⟩
  · obtain ⟨own, stretch, read, world, size, _⟩ := exec_readAck first
    exact ⟨own, stretch, read, world, size, by simp⟩
  · obtain ⟨own, stretch, read, world, size, _⟩ := exec_readAck first
    exact ⟨own, stretch, read, world, size, by simp⟩

/-- **What a receive can do.** It reads a whole message and returns its event, or
the read is cut. -/
theorem exec_receive {o : Outcome Error ProgressEvent}
    (exec : Exec (World.device mark) (receive T) c o c') :
    c'.own = c.own ∧ ∃ stretch, stretch.bytes <+: (c.world.conns c.own.stream).available ∧
      c'.world = c.world.record c.own.stream stretch ∧
      ((o = .ok (c.own.layout.decode T stretch.bytes) ∧ stretch.full = true ∧
          stretch.bytes.length = c.own.layout.msgSize) ∨
        (Cut o ∧ stretch.full = false)) := by
  rw [receive_eq] at exec
  simp only [exec_get_bind, exec_await_bind] at exec
  rcases exec with ⟨r, w, (⟨bytes, rfl, read, full, rfl⟩ | ⟨e, part, rfl, read, _, rfl⟩), rest⟩ |
    ⟨w, ⟨part, read, _, rfl⟩, rfl, rfl⟩
  · obtain ⟨rfl, rfl⟩ := rest
    exact ⟨rfl, _, read, rfl, .inl ⟨rfl, rfl, full⟩⟩
  · obtain ⟨rfl, rfl⟩ := rest
    exact ⟨rfl, _, read, rfl, .inr ⟨.inr ⟨e, rfl⟩, rfl⟩⟩
  · exact ⟨rfl, _, read, rfl, .inr ⟨.inl rfl, rfl⟩⟩

/-- **What a reconnect can do.** It may shut down the connection held. Then it holds
a new connection, on which it made a handshake, or it keeps the one it held. -/
theorem exec_reconnect {o : Outcome Error Unit}
    (exec : Exec (World.device mark) (reconnect T) c o c') :
    ∃ w, (w = c.world ∨ w = c.world.close c.own.stream) ∧
      ((∃ path peer stretch, c'.own = { c.own with stream := c.world.opened } ∧
          stretch.bytes <+: (Conn.fresh peer).available ∧
          c'.world = (w.accept path peer).record c.world.opened stretch ∧
          (stretch.full = true → stretch.bytes.length = 8) ∧
          (o = .ok () → stretch.full = true ∧ AckAccepted T stretch.bytes)) ∨
        (o ≠ .ok () ∧ c'.own = c.own ∧ c'.world.conns = w.conns ∧
          c'.world.opened = w.opened)) := by
  rw [reconnect, exec_get_bind] at exec
  obtain ⟨w, shut, ⟨peer, rest⟩ | ⟨failed, kept⟩⟩ := SocketConfig.exec_renew exec
  · have opened : w.opened = c.world.opened := by
      rcases shut with rfl | rfl <;> rfl
    rw [exec_set_bind] at rest
    obtain ⟨own, stretch, read, world, size, accepted⟩ := exec_handshake rest
    have fresh : (w.accept c.own.config.progressPath peer).conns c.world.opened = .fresh peer := by
      rw [← opened, World.conns_accept_new]
    refine ⟨w, shut, .inl ⟨_, peer, stretch, own, ?_, world, size, accepted⟩⟩
    rw [← fresh]
    exact read
  · exact ⟨w, shut, .inr ⟨failed (), kept⟩⟩

/-- A connect that succeeds holds a new connection, of which it has taken an
acknowledgement that is accepted, and the layout of the version output. -/
theorem exec_connect_ok {config : SocketConfig}
    (exec : Exec (World.device mark) (connect T config) c (.ok ()) c') :
    ∃ peer ack, ack <+: (Conn.fresh peer).available ∧ AckAccepted T ack ∧
      c'.own = ⟨c.world.opened, config, layoutOfOutput c.world.output.1⟩ ∧
      c'.world = (World.accept { c.world with outputs := c.world.outputs.tail }
        config.progressPath peer).record c.world.opened ⟨ack, true⟩ := by
  obtain ⟨layout, c₀, detected, rest⟩ := exec_bind_ok exec
  obtain ⟨⟨⟩, same⟩ | ⟨⟨⟩, _⟩ := exec_detectLayout detected
  have world : c₀.world = { c.world with outputs := c.world.outputs.tail } := by
    rw [same, ← World.snd_output]
  have count : c₀.world.opened = c.world.opened := by rw [world]
  obtain ⟨fd, c₁, first, last⟩ := exec_bind_ok rest
  obtain ⟨_, ⟨peer, ⟨⟩, opened⟩ | ⟨failed, _⟩⟩ := SocketConfig.exec_connectSocket first
  · rw [exec_set_bind] at last
    obtain ⟨own, ⟨ack, whole⟩, read, world', _, accepted⟩ := exec_handshake last
    obtain ⟨full, ack_ok⟩ := accepted rfl
    cases full
    change ack <+: (c₁.world.conns c₀.world.opened).available at read
    change c'.world = c₁.world.record c₀.world.opened _ at world'
    rw [opened, World.conns_accept_new] at read
    refine ⟨peer, ack, read, ack_ok, ?_, ?_⟩
    · rw [← count]
      exact own
    · rw [world', opened, count, world]
  · exact absurd rfl (failed fd)

end Failures

/-! ## On sockets without failures of their own -/

section Served

variable {τ : Type} (T : Target) (mark : τ) (c : Config ProgressClient (World τ))

theorem run_readAck (deadline : Nat) :
    run (World.serve mark) (readAck.timeout deadline) c =
      (match c.world.pulled c.own.stream 8 with
        | .ok bytes => .ok (some ((Record.zeroed rawProgressAck).overwrite bytes))
        | .error e => .err (.connection e), ⟨c.own, c.world.pull c.own.stream 8⟩) := by
  have served : World.serve mark (.within deadline (.readExact c.own.stream rawProgressAck.size))
      c.world = some (some (c.world.pulled c.own.stream 8), c.world.pull c.own.stream 8) := by
    rw [World.serve, World.serve_readExact]
    rfl
  rw [readAck, timeout_get_bind, run_get_bind, run_await_bind_timeout, served]
  cases c.world.pulled c.own.stream 8 <;> rfl

/-- A handshake takes eight bytes, and it succeeds when they are an acknowledgement
that is accepted. -/
theorem run_handshake :
    ∃ o, run (World.serve mark) (handshake T) c =
        (o, ⟨c.own, c.world.pull c.own.stream 8⟩) ∧
      (o = .ok () ↔ Greets T (c.world.conns c.own.stream).available) := by
  rw [handshake_eq, run_bind, run_readAck, World.pulled]
  by_cases enough : 8 ≤ (c.world.conns c.own.stream).available.length
  · rw [if_pos enough]
    have full : ((c.world.conns c.own.stream).available.take 8).length = rawProgressAck.size :=
      List.length_take_of_le enough
    have whole := Record.bytes_overwrite (Record.zeroed rawProgressAck) full
    simp only
    generalize (Record.zeroed rawProgressAck).overwrite _ = ack at whole ⊢
    have accepted : checkAck T ack = .ok () ↔
        Greets T (c.world.conns c.own.stream).available := by
      rw [checkAck_eq_ok, whole]
      exact Iff.rfl
    refine ⟨outcomeOf (checkAck T ack), ?_, Iff.trans ?_ accepted⟩
    · cases checkAck T ack <;> rfl
    · cases checkAck T ack <;> simp [outcomeOf]
  · rw [if_neg enough]
    refine ⟨_, rfl, by simp, ?_⟩
    intro accepted
    have eight := accepted.1
    rw [List.length_take] at eight
    omega

/-- A receive takes the bytes of one message, and returns its event when they are
enough. -/
theorem run_receive :
    run (World.serve mark) (receive T) c =
      (if c.own.layout.msgSize ≤ (c.world.conns c.own.stream).available.length then
        .ok (c.own.layout.decode T
          ((c.world.conns c.own.stream).available.take c.own.layout.msgSize))
      else .err (.connection "early eof"),
        ⟨c.own, c.world.pull c.own.stream c.own.layout.msgSize⟩) := by
  rw [receive_eq, run_get_bind, run_get_bind, run_await_bind, World.serve_readExact, World.pulled]
  by_cases enough : c.own.layout.msgSize ≤ (c.world.conns c.own.stream).available.length
  · rw [if_pos enough, if_pos enough]
    rfl
  · rw [if_neg enough, if_neg enough]
    rfl

/-- A connection attempt on sockets without failures gives a new connection, or an
error and no connection. -/
theorem run_connectProgress (config : SocketConfig) :
    (∃ peer rest, c.world.attempts config.progressPath = .accepted peer :: rest ∧
      run (World.serve mark) config.connectProgress c =
        (.ok c.world.opened, ⟨c.own, c.world.accept config.progressPath peer⟩)) ∨
      ((∀ peer rest, c.world.attempts config.progressPath ≠ .accepted peer :: rest) ∧
        ∃ e w, run (World.serve mark) config.connectProgress c = (.err e, ⟨c.own, w⟩) ∧
          w.conns = c.world.conns ∧ w.opened = c.world.opened) := by
  rw [SocketConfig.connectProgress, SocketConfig.run_connectSocket]
  rcases c.world.attempts config.progressPath with _ | ⟨_ | e | _ | peer, rest⟩
  · exact .inr ⟨by simp, _, _, rfl, rfl, rfl⟩
  · exact .inr ⟨by simp, _, _, rfl, rfl, rfl⟩
  · exact .inr ⟨by simp, _, _, rfl, rfl, rfl⟩
  · exact .inr ⟨by simp, _, _, rfl, rfl, rfl⟩
  · exact .inl ⟨peer, rest, rfl, rfl⟩

/-- A handshake on a new connection looks at what its peer writes. -/
theorem run_handshake_new (w : World τ) (path : String) (peer : Peer τ) {own : ProgressClient}
    (held : own.stream = w.opened) :
    ∃ o, run (World.serve mark) (handshake T) ⟨own, w.accept path peer⟩ =
        (o, ⟨own, (w.accept path peer).pull w.opened 8⟩) ∧
      (o = .ok () ↔ Greets T (peer.wrote [])) := by
  obtain ⟨o, ran, accepted⟩ :=
    run_handshake T mark ⟨own, w.accept path peer⟩
  rw [held] at ran accepted
  rw [World.conns_accept_new] at accepted
  exact ⟨o, ran, accepted⟩

/-- **A reconnect on sockets without failures** shuts down the connection held. It
succeeds exactly when the next attempt is accepted by a peer that greets. -/
theorem run_reconnect :
    (∃ peer rest o, c.world.attempts c.own.config.progressPath = .accepted peer :: rest ∧
      run (World.serve mark) (reconnect T) c =
        (o, ⟨{ c.own with stream := c.world.opened },
          ((c.world.close c.own.stream).accept c.own.config.progressPath peer).pull
            c.world.opened 8⟩) ∧
      (o = .ok () ↔ Greets T (peer.wrote []))) ∨
    ((∀ peer rest, c.world.attempts c.own.config.progressPath ≠ .accepted peer :: rest) ∧
      ∃ e w, run (World.serve mark) (reconnect T) c = (.err e, ⟨c.own, w⟩) ∧
        w.conns = (c.world.close c.own.stream).conns ∧ w.opened = c.world.opened) := by
  have closed : run (World.serve mark) (reconnect T) c =
      run (World.serve mark) (do
        let stream ← c.own.config.connectProgress
        set { c.own with stream := stream }
        handshake T) ⟨c.own, c.world.close c.own.stream⟩ := rfl
  rw [closed]
  rcases run_connectProgress mark ⟨c.own, c.world.close c.own.stream⟩ c.own.config with
    ⟨peer, rest, next, opens⟩ | ⟨never, e, w, fails, same⟩
  · rw [run_bind_ok opens, run_set_bind]
    obtain ⟨o, ran, accepted⟩ := @run_handshake_new _ T mark (c.world.close c.own.stream)
      c.own.config.progressPath peer { c.own with stream := c.world.opened } rfl
    exact .inl ⟨peer, rest, o, next, ran, accepted⟩
  · exact .inr ⟨never, e, w, run_bind_err fails, same⟩

/-- **A connect on sockets without failures** succeeds exactly when the next attempt
is accepted by a peer that greets. -/
theorem run_connect (config : SocketConfig) :
    (∃ peer rest o layout w, c.world.attempts config.progressPath = .accepted peer :: rest ∧
      run (World.serve mark) (connect T config) c =
        (o, ⟨⟨c.world.opened, config, layout⟩, w⟩) ∧
      w.opened = c.world.opened + 1 ∧ w.conns c.world.opened = (Conn.fresh peer).pull 8 ∧
      w.attempts config.progressPath = rest ∧ (o = .ok () ↔ Greets T (peer.wrote []))) ∨
    ((∀ peer rest, c.world.attempts config.progressPath ≠ .accepted peer :: rest) ∧
      ∃ e c', run (World.serve mark) (connect T config) c = (.err e, c')) := by
  obtain ⟨layout, w, detected, attempts, opened⟩ : ∃ layout w,
      run (World.serve mark) detectLayout c = (.ok layout, (⟨c.own, w⟩ : Config _ _)) ∧
        w.attempts = c.world.attempts ∧ w.opened = c.world.opened := by
    refine ⟨_, _, rfl, ?_, ?_⟩ <;> cases c.world.outputs <;> rfl
  rw [connect, run_bind_ok detected]
  rcases run_connectProgress mark ⟨c.own, w⟩ config with
    ⟨peer, rest, next, opens⟩ | ⟨never, e, w', fails, same⟩
  · rw [run_bind_ok opens, run_set_bind]
    obtain ⟨o, ran, accepted⟩ := @run_handshake_new _ T mark w config.progressPath peer
      ⟨w.opened, config, layout⟩ rfl
    change w.attempts _ = _ at next
    rw [attempts] at next
    refine .inl ⟨peer, rest, o, layout, (w.accept config.progressPath peer).pull w.opened 8, next,
      ?_, ?_, ?_, ?_, accepted⟩
    · rw [← opened]
      exact ran
    · rw [← opened]
      rfl
    · rw [← opened, World.conns_pull_same, World.conns_accept_new]
    · show Function.update w.attempts _ (w.attempts _).tail _ = rest
      rw [Function.update_self, attempts, next, List.tail_cons]
  · change ∀ peer rest, w.attempts _ ≠ _ at never
    rw [attempts] at never
    exact .inr ⟨never, e, _, run_bind_err fails⟩

/-- While a whole message is there, a receive with reconnect is a receive. -/
theorem run_receiveOrReconnect_received
    (enough : c.own.layout.msgSize ≤ (c.world.conns c.own.stream).available.length) :
    run (World.serve mark) (receiveOrReconnect T) c = run (World.serve mark) (receive T) c := by
  rw [receiveOrReconnect, run_bind, run_attempt, run_receive, if_pos enough]
  rfl

/-- When less than a message is left, it takes the rest, and then it reconnects and
receives. -/
theorem run_receiveOrReconnect_reconnects
    (short : (c.world.conns c.own.stream).available.length < c.own.layout.msgSize) :
    run (World.serve mark) (receiveOrReconnect T) c =
      run (World.serve mark) (reconnect T >>= fun _ => receive T)
        ⟨c.own, c.world.pull c.own.stream c.own.layout.msgSize⟩ := by
  rw [receiveOrReconnect, run_bind, run_attempt, run_receive, if_neg (by omega)]

end Served

end ProgressClient

end SwupdateIpc
