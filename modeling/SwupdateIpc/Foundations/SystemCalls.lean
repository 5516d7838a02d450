import SwupdateIpc.Foundations.AsyncPrograms

/-!
# Stream sockets and readers

The environment of a program that talks over stream sockets. A connection has a
peer, and the peer is given by everything it writes as a function of everything
it has been sent: this covers a peer that only sends, a peer that answers, and
any mixture. A connection remembers what was sent on it, with a mark on every
byte that says in which capacity it was sent, and what each read took from it.

Writing all of a byte string either writes all of it, or fails or is dropped
after any prefix of it; nothing is written once the connection is shut down for
writing. Reading an exact number of bytes either takes that many
of the bytes that the peer has written and that are not yet taken, or fails or
is dropped after fewer or as many. A connection to a path is accepted by a peer,
or refused, or not answered at all, as the list of attempts at that path says.
A reader gives a list of chunks and errors and then its end.

`World.device` is this environment with every failure it may have.
`World.serve` is the environment without failures of its own: it writes and
reads everything that can be, and a read that finds too few bytes fails at the
end of the stream. `World.Changed` says what a call can change in it, whether it
is answered or given up.
-/

set_option autoImplicit false

namespace Foundations

/-- An error of the operating system, as its text. -/
abbrev IoError := String

/-- The calls a program makes. -/
inductive SysCall where
  | pathExists (path : String)
  | connect (path : String)
  | writeAll (fd : Nat) (bytes : List UInt8)
  | readExact (fd : Nat) (count : Nat)
  | shutdown (fd : Nat)
  | openFile (path : String)
  | read (reader : Nat) (capacity : Nat)
  | output (program : String) (arguments : List String)
  | print (line : String)
  | within (deadline : Nat) (call : SysCall)

/-- The answers of a call. -/
def SysCall.Answer : SysCall → Type
  | .pathExists _ => Bool
  | .connect _ => Except IoError Nat
  | .writeAll _ _ => Except IoError Unit
  | .readExact _ _ => Except IoError (List UInt8)
  | .shutdown _ => Except IoError Unit
  | .openFile _ => Except IoError Nat
  | .read _ _ => Except IoError (List UInt8)
  | .output _ _ => Except IoError (List UInt8)
  | .print _ => Unit
  | .within _ call => Option call.Answer

/-- The calls as an interface. -/
abbrev system : Interface where
  Call := SysCall
  Answer := SysCall.Answer
  within := .within
  timely := id

/-- Make one call. -/
def await {ε σ : Type} (call : SysCall) : Async system ε σ call.Answer := .call call .ret

section Await

variable {ε σ ω α : Type} {call : SysCall} {f : call.Answer → Async system ε σ α}
  {c c' : Config σ ω}

/-- The call is answered and the program goes on, or the program is dropped
there. -/
theorem exec_await_bind {D : Device system ω} {o : Outcome ε α} :
    Exec D (await call >>= f) c o c' ↔
      (∃ r w, D.answers call c.world r w ∧ Exec D (f r) ⟨c.own, w⟩ o c') ∨
        (∃ w, D.drops call c.world w ∧ o = .dropped ∧ c' = ⟨c.own, w⟩) := Iff.rfl

/-- A call with a deadline is answered in time and the program goes on, or it ends
there. -/
theorem exec_await_bind_timeout {D : Device system ω} {deadline : Nat}
    {o : Outcome ε (Option α)} :
    Exec D ((await call >>= f).timeout deadline) c o c' ↔
      (∃ (r : Option call.Answer) (w : ω), D.answers (.within deadline call) c.world r w ∧
          Exec D (match r with
            | some answer => (f answer).timeout deadline
            | none => .ret none) ⟨c.own, w⟩ o c') ∨
        (∃ w, D.drops (.within deadline call) c.world w ∧ o = .dropped ∧ c' = ⟨c.own, w⟩) := by
  show Exec D (Async.timeout deadline (.call call f)) c o c' ↔ _
  rw [Async.timeout, Exec]
  refine or_congr (exists_congr fun r => exists_congr fun w => and_congr_right fun _ => ?_) Iff.rfl
  change Option call.Answer at r
  cases r <;> exact Iff.rfl

/-- A call with a deadline returns what came in time. -/
theorem exec_await_timeout {D : Device system ω} {deadline : Nat}
    {o : Outcome ε (Option call.Answer)} :
    Exec D ((await call).timeout deadline) c o c' ↔
      (∃ r w, D.answers (.within deadline call) c.world r w ∧ o = .ok r ∧ c' = ⟨c.own, w⟩) ∨
        (∃ w, D.drops (.within deadline call) c.world w ∧ o = .dropped ∧ c' = ⟨c.own, w⟩) := by
  rw [← bind_pure (await call), exec_await_bind_timeout]
  refine or_congr (exists_congr fun r => exists_congr fun w => and_congr_right fun _ => ?_) Iff.rfl
  cases r <;> exact Iff.rfl

theorem run_await_bind {h : Handler system ω} :
    run h (await call >>= f) c =
      match h call c.world with
      | some (r, w) => run h (f r) ⟨c.own, w⟩
      | none => (.dropped, c) := by
  show run h (.call call f) c = _
  rw [run]
  cases h call c.world <;> rfl

theorem run_await_bind_timeout {h : Handler system ω} {deadline : Nat} :
    run h ((await call >>= f).timeout deadline) c =
      match h (.within deadline call) c.world with
      | some ((r : Option call.Answer), w) => run h (match r with
        | some answer => (f answer).timeout deadline
        | none => .ret none) ⟨c.own, w⟩
      | none => (.dropped, c) := by
  show run h (Async.timeout deadline (.call call f)) c = _
  rw [Async.timeout, run]
  rcases h (.within deadline call) c.world with _ | ⟨r, w⟩
  · rfl
  · change Option call.Answer at r
    cases r <;> rfl

theorem run_await_timeout {h : Handler system ω} {deadline : Nat} :
    run h ((await call).timeout deadline : Async system ε σ (Option call.Answer)) c =
      match h (.within deadline call) c.world with
      | some (r, w) => (.ok r, ⟨c.own, w⟩)
      | none => (.dropped, c) := by
  rw [await, Async.timeout, run]
  rcases h (.within deadline call) c.world with _ | ⟨r, w⟩
  · rfl
  · change Option call.Answer at r
    cases r <;> rfl

end Await

/-- A peer: what it has written when it has been sent the given bytes. Being
sent more, it takes nothing back. -/
structure Peer (τ : Type) where
  wrote : List (τ × UInt8) → List UInt8
  grows : ∀ sent more, wrote sent <+: wrote (sent ++ more)

/-- What one read took, and whether the read returned it. -/
structure Stretch where
  bytes : List UInt8
  full : Bool
  deriving DecidableEq, Repr

/-- A connection. It is closed when it is shut down for writing. -/
structure Conn (τ : Type) where
  peer : Peer τ
  sent : List (τ × UInt8)
  reads : List Stretch
  closed : Bool

/-- What becomes of a connection attempt. -/
inductive Attempt (τ : Type) where
  | missing
  | refused (e : IoError)
  | stalled
  | accepted (peer : Peer τ)

/-- What one read of a reader gives. -/
inductive ReadResult where
  | data (bytes : List UInt8)
  | error (e : IoError)
  deriving DecidableEq, Repr

/-- The bytes a reader gives before it ends or meets an error. -/
def delivered : List ReadResult → List UInt8
  | .data (b :: bs) :: rest => (b :: bs) ++ delivered rest
  | _ => []

/-- Whether a reader gives its bytes without an error. -/
def endsCleanly : List ReadResult → Bool
  | [] => true
  | .error _ :: _ => false
  | .data [] :: _ => true
  | .data (_ :: _) :: rest => endsCleanly rest

/-- The error a reader meets after its bytes. -/
def readError : List ReadResult → Option IoError
  | .error e :: _ => some e
  | .data (_ :: _) :: rest => readError rest
  | _ => none

theorem endsCleanly_iff {contents : List ReadResult} :
    endsCleanly contents = true ↔ readError contents = none := by
  induction contents with
  | nil => simp [endsCleanly, readError]
  | cons first rest ih =>
      rcases first with (_ | ⟨b, bs⟩) | e
      · simp [endsCleanly, readError]
      · simpa only [endsCleanly, readError] using ih
      · simp [endsCleanly, readError]

/-- The state of the environment. -/
structure World (τ : Type) where
  conns : Nat → Conn τ
  opened : Nat
  attempts : String → List (Attempt τ)
  files : String → Except IoError (List ReadResult)
  readers : Nat → List ReadResult
  started : Nat
  outputs : List (Except IoError (List UInt8))
  printed : List String

variable {τ : Type}

/-- A peer that has written some bytes from the start, and no others. -/
def Peer.scripted (bytes : List UInt8) : Peer τ where
  wrote _ := bytes
  grows _ _ := List.prefix_refl bytes

/-! ## Connections -/

namespace Conn

/-- A connection just accepted by a peer. -/
def fresh (peer : Peer τ) : Conn τ := ⟨peer, [], [], false⟩

/-- Every byte the reads on a connection took. -/
def taken (c : Conn τ) : List UInt8 := c.reads.flatMap Stretch.bytes

/-- Every byte the peer has written. -/
def inbound (c : Conn τ) : List UInt8 := c.peer.wrote c.sent

/-- The bytes that the peer has written and that no read has taken. -/
def available (c : Conn τ) : List UInt8 := c.inbound.drop c.taken.length

/-- Send bytes with a mark. -/
def send (c : Conn τ) (mark : τ) (bytes : List UInt8) : Conn τ :=
  { c with sent := c.sent ++ bytes.map (Prod.mk mark) }

/-- Record a read. -/
def record (c : Conn τ) (stretch : Stretch) : Conn τ := { c with reads := c.reads ++ [stretch] }

/-- Shut down for writing. -/
def close (c : Conn τ) : Conn τ := { c with closed := true }

@[simp] theorem taken_send (c : Conn τ) (mark : τ) (bytes : List UInt8) :
    (c.send mark bytes).taken = c.taken := rfl

@[simp] theorem reads_send (c : Conn τ) (mark : τ) (bytes : List UInt8) :
    (c.send mark bytes).reads = c.reads := rfl

@[simp] theorem peer_send (c : Conn τ) (mark : τ) (bytes : List UInt8) :
    (c.send mark bytes).peer = c.peer := rfl

@[simp] theorem sent_send (c : Conn τ) (mark : τ) (bytes : List UInt8) :
    (c.send mark bytes).sent = c.sent ++ bytes.map (Prod.mk mark) := rfl

@[simp] theorem send_nil (c : Conn τ) (mark : τ) : c.send mark [] = c := by
  simp only [send, List.map_nil, List.append_nil]

theorem send_send (c : Conn τ) (mark : τ) (first second : List UInt8) :
    (c.send mark first).send mark second = c.send mark (first ++ second) := by
  simp only [send, List.append_assoc, List.map_append]

@[simp] theorem taken_record (c : Conn τ) (stretch : Stretch) :
    (c.record stretch).taken = c.taken ++ stretch.bytes := by
  simp only [taken, record, List.flatMap_append, List.flatMap_singleton]

@[simp] theorem reads_record (c : Conn τ) (stretch : Stretch) :
    (c.record stretch).reads = c.reads ++ [stretch] := rfl

@[simp] theorem sent_record (c : Conn τ) (stretch : Stretch) :
    (c.record stretch).sent = c.sent := rfl

@[simp] theorem closed_send (c : Conn τ) (mark : τ) (bytes : List UInt8) :
    (c.send mark bytes).closed = c.closed := rfl

@[simp] theorem taken_close (c : Conn τ) : c.close.taken = c.taken := rfl

@[simp] theorem closed_record (c : Conn τ) (stretch : Stretch) :
    (c.record stretch).closed = c.closed := rfl

/-- A connection of which no more was taken than the peer has written. -/
def Sound (c : Conn τ) : Prop := c.taken <+: c.inbound

theorem inbound_send (c : Conn τ) (mark : τ) (bytes : List UInt8) :
    c.inbound <+: (c.send mark bytes).inbound := c.peer.grows _ _

theorem Sound.send {c : Conn τ} (sound : c.Sound) (mark : τ) (bytes : List UInt8) :
    (c.send mark bytes).Sound :=
  List.IsPrefix.trans sound (c.inbound_send mark bytes)

/-- What is taken stands where the last read ended. -/
theorem Sound.taken_append {c : Conn τ} (sound : c.Sound) {bytes : List UInt8}
    (read : bytes <+: c.available) : c.taken ++ bytes <+: c.inbound := by
  have split : c.taken ++ c.available = c.inbound := List.prefix_iff_eq_append.mp sound
  rw [← split]
  exact (List.prefix_append_right_inj c.taken).mpr read

theorem Sound.record {c : Conn τ} (sound : c.Sound) {stretch : Stretch}
    (read : stretch.bytes <+: c.available) : (c.record stretch).Sound := by
  rw [Sound, taken_record]
  exact sound.taken_append read

/-- A read without a failure of the device: it takes as many bytes as there are, and
returns them if they are enough. -/
def pull (c : Conn τ) (count : Nat) : Conn τ :=
  c.record ⟨c.available.take count, count ≤ c.available.length⟩

theorem available_pull (c : Conn τ) (count : Nat) :
    (c.pull count).available = c.available.drop count := by
  have same : (c.pull count).inbound = c.inbound := rfl
  rw [available, same, pull, taken_record, List.length_append, ← List.drop_drop, List.length_take]
  show c.available.drop _ = _
  by_cases enough : count ≤ c.available.length
  · rw [Nat.min_eq_left enough]
  · have short : c.available.length ≤ count := by omega
    rw [Nat.min_eq_right short, List.drop_length, List.drop_of_length_le short]

end Conn

namespace World

/-- An environment in which nothing has happened yet. -/
def initial (attempts : String → List (Attempt τ)) : World τ where
  conns _ := .fresh (.scripted [])
  opened := 0
  attempts := attempts
  files _ := .error "No such file or directory"
  readers _ := []
  started := 0
  outputs := []
  printed := []

/-- Change one connection. -/
def onConn (w : World τ) (fd : Nat) (change : Conn τ → Conn τ) : World τ :=
  { w with conns := Function.update w.conns fd (change (w.conns fd)) }

/-- Send bytes on a connection. -/
def send (w : World τ) (mark : τ) (fd : Nat) (bytes : List UInt8) : World τ :=
  w.onConn fd fun c => c.send mark bytes

/-- Record a read on a connection. -/
def record (w : World τ) (fd : Nat) (stretch : Stretch) : World τ :=
  w.onConn fd fun c => c.record stretch

/-- Read a connection without a failure of the device. -/
def pull (w : World τ) (fd count : Nat) : World τ := w.onConn fd fun c => c.pull count

/-- Shut a connection down for writing. -/
def close (w : World τ) (fd : Nat) : World τ := w.onConn fd Conn.close

/-- The next attempt at a path is over. -/
def attempted (w : World τ) (path : String) : World τ :=
  { w with attempts := Function.update w.attempts path (w.attempts path).tail }

/-- The attempts that are left are some of those before. -/
theorem attempts_attempted (w : World τ) (path other : String) :
    (w.attempted path).attempts other <:+ w.attempts other := by
  by_cases same : other = path
  · rw [same, attempted]
    simp only [Function.update_self]
    exact List.tail_suffix _
  · rw [attempted]
    simp only [Function.update_of_ne same]
    exact List.suffix_rfl

/-- A connection is opened. Its descriptor is the number of those opened
before. -/
def accept (w : World τ) (path : String) (peer : Peer τ) : World τ :=
  { w.attempted path with
    conns := Function.update w.conns w.opened (.fresh peer)
    opened := w.opened + 1 }

@[simp] theorem conns_onConn_same (w : World τ) (fd : Nat) (change : Conn τ → Conn τ) :
    (w.onConn fd change).conns fd = change (w.conns fd) := by
  simp only [onConn, Function.update_self]

@[simp] theorem conns_pull_same (w : World τ) (fd count : Nat) :
    (w.pull fd count).conns fd = (w.conns fd).pull count := by
  rw [pull, conns_onConn_same]

theorem conns_onConn_other (w : World τ) {fd other : Nat} (change : Conn τ → Conn τ)
    (distinct : other ≠ fd) : (w.onConn fd change).conns other = w.conns other := by
  simp only [onConn, Function.update_of_ne distinct]

/-- A change keeps of every connection what it keeps of the one it is made to. -/
theorem observe_onConn {α : Type} (observe : Conn τ → α) (change : Conn τ → Conn τ)
    (kept : ∀ c, observe (change c) = observe c) (w : World τ) (fd other : Nat) :
    observe ((w.onConn fd change).conns other) = observe (w.conns other) := by
  by_cases held : other = fd
  · rw [held, conns_onConn_same, kept]
  · rw [conns_onConn_other _ _ held]

@[simp] theorem attempts_onConn (w : World τ) (fd : Nat) (change : Conn τ → Conn τ) :
    (w.onConn fd change).attempts = w.attempts := rfl

@[simp] theorem readers_onConn (w : World τ) (fd : Nat) (change : Conn τ → Conn τ) :
    (w.onConn fd change).readers = w.readers := rfl

@[simp] theorem send_nil (w : World τ) (mark : τ) (fd : Nat) : w.send mark fd [] = w := by
  simp only [send, onConn, Conn.send_nil, Function.update_eq_self]

@[simp] theorem conns_accept_new (w : World τ) (path : String) (peer : Peer τ) :
    (w.accept path peer).conns w.opened = .fresh peer := by
  simp only [accept, Function.update_self]

theorem conns_accept_old (w : World τ) (path : String) (peer : Peer τ) {fd : Nat}
    (old : fd < w.opened) : (w.accept path peer).conns fd = w.conns fd := by
  simp only [accept, Function.update_of_ne (Nat.ne_of_lt old)]

@[simp] theorem opened_accept (w : World τ) (path : String) (peer : Peer τ) :
    (w.accept path peer).opened = w.opened + 1 := rfl

/-- A connection just opened, after a change of it. -/
theorem accept_onConn (w : World τ) (path : String) (peer : Peer τ)
    (change : Conn τ → Conn τ) :
    (∀ fd, fd < w.opened →
        ((w.accept path peer).onConn w.opened change).conns fd = w.conns fd) ∧
      ((w.accept path peer).onConn w.opened change).conns w.opened = change (.fresh peer) := by
  refine ⟨fun fd old => ?_, ?_⟩
  · rw [conns_onConn_other _ _ (Nat.ne_of_lt old), conns_accept_old _ _ _ old]
  · rw [conns_onConn_same, conns_accept_new]

theorem record_send (w : World τ) (mark : τ) (fd : Nat) (bytes : List UInt8)
    (stretch : Stretch) :
    (w.send mark fd bytes).record fd stretch =
      w.onConn fd fun c => (c.send mark bytes).record stretch := by
  rw [record, send, onConn, conns_onConn_same, onConn]
  exact congrArg (fun conns => { w with conns := conns }) (Function.update_idem _ _ _)

/-! ## The environment with its failures -/

/-- A read of a reader, at most `capacity` bytes. -/
def readFrom (w : World τ) (reader capacity : Nat) : Except IoError (List UInt8) × World τ :=
  match w.readers reader with
  | [] => (.ok [], w)
  | .error e :: rest => (.error e, { w with readers := Function.update w.readers reader rest })
  | .data bytes :: rest =>
      let left := if bytes.length ≤ capacity then rest else .data (bytes.drop capacity) :: rest
      (.ok (bytes.take capacity), { w with readers := Function.update w.readers reader left })

/-- What a read of a reader can be: the end, an error, or the next of its bytes. -/
theorem readFrom_cases (w : World τ) (reader : Nat) {capacity : Nat} (room : 0 < capacity) :
    ∃ left, (w.readFrom reader capacity).2 =
        { w with readers := Function.update w.readers reader left } ∧
      (((w.readFrom reader capacity).1 = .ok [] ∧ delivered (w.readers reader) = [] ∧
          readError (w.readers reader) = none) ∨
        (∃ e, (w.readFrom reader capacity).1 = .error e ∧
          delivered (w.readers reader) = [] ∧ readError (w.readers reader) = some e) ∨
        (∃ chunk, (w.readFrom reader capacity).1 = .ok chunk ∧ 0 < chunk.length ∧
          chunk.length ≤ capacity ∧ delivered (w.readers reader) = chunk ++ delivered left ∧
          readError (w.readers reader) = readError left)) := by
  rcases contents : w.readers reader with _ | ⟨first, rest⟩
  · refine ⟨w.readers reader, ?_, .inl ⟨by simp only [readFrom, contents], rfl, rfl⟩⟩
    simp only [readFrom, contents]
    rw [← contents, Function.update_eq_self]
  · cases first with
    | error e =>
        exact ⟨rest, by simp only [readFrom, contents],
          .inr (.inl ⟨e, by simp only [readFrom, contents], rfl, rfl⟩)⟩
    | data bytes =>
        refine ⟨if bytes.length ≤ capacity then rest else .data (bytes.drop capacity) :: rest,
          by simp only [readFrom, contents], ?_⟩
        cases bytes with
        | nil => exact .inl ⟨by simp only [readFrom, contents, List.take_nil], rfl, rfl⟩
        | cons b bs =>
            refine .inr (.inr ⟨(b :: bs).take capacity, by simp only [readFrom, contents],
              ?_, ?_, ?_⟩)
            · simp only [List.length_take, List.length_cons]
              omega
            · exact List.length_take_le _ _
            · by_cases whole : (b :: bs).length ≤ capacity
              · rw [if_pos whole, List.take_of_length_le whole]
                exact ⟨rfl, rfl⟩
              · rw [if_neg whole]
                obtain ⟨d, ds, more⟩ : ∃ d ds, (b :: bs).drop capacity = d :: ds := by
                  refine List.exists_cons_of_ne_nil fun none => whole ?_
                  exact List.drop_eq_nil_iff.mp none
                rw [more, delivered, delivered, readError, readError, ← more,
                  ← List.append_assoc, List.take_append_drop]
                exact ⟨rfl, rfl⟩

/-- Open a file as a new reader. -/
def openFile (w : World τ) (path : String) : Except IoError Nat × World τ :=
  match w.files path with
  | .error e => (.error e, w)
  | .ok contents =>
      (.ok w.started, { w with
        readers := Function.update w.readers w.started contents
        started := w.started + 1 })

/-- Run a program for its output. -/
def output (w : World τ) : Except IoError (List UInt8) × World τ :=
  match w.outputs with
  | [] => (.error "No such file or directory", w)
  | answer :: rest => (answer, { w with outputs := rest })

theorem snd_output (w : World τ) : w.output.2 = { w with outputs := w.outputs.tail } := by
  obtain ⟨conns, opened, attempts, files, readers, started, outputs, printed⟩ := w
  cases outputs <;> rfl

/-- Whether something is at a path. Nothing is there when the next attempt says
so, and then that attempt is over. -/
def pathExists (w : World τ) (path : String) : Bool × World τ :=
  match w.attempts path with
  | [] => (false, w)
  | .missing :: _ => (false, w.attempted path)
  | _ => (true, w)

/-- Connect to a path. A stalled attempt is not answered. -/
def connectTo (w : World τ) (path : String) : Option (Except IoError Nat × World τ) :=
  match w.attempts path with
  | .accepted peer :: _ => some (.ok w.opened, w.accept path peer)
  | .refused e :: _ => some (.error e, w.attempted path)
  | .stalled :: _ => none
  | _ => some (.error "No such file or directory", w)

/-- What the environment may answer to a call. -/
def Answers (mark : τ) : (call : SysCall) → World τ → call.Answer → World τ → Prop
  | .pathExists path, w, r, w' => (r, w') = w.pathExists path
  | .connect path, w, r, w' => w.connectTo path = some (r, w')
  | .writeAll fd bytes, w, r, w' =>
      (r = .ok () ∧ (w.conns fd).closed = false ∧ w' = w.send mark fd bytes) ∨
        ∃ e part, r = .error e ∧ part <+: bytes ∧ ((w.conns fd).closed = true → part = []) ∧
          w' = w.send mark fd part
  | .readExact fd count, w, r, w' =>
      (∃ bytes, r = .ok bytes ∧ bytes <+: (w.conns fd).available ∧ bytes.length = count ∧
          w' = w.record fd ⟨bytes, true⟩) ∨
        ∃ e part, r = .error e ∧ part <+: (w.conns fd).available ∧ part.length ≤ count ∧
          w' = w.record fd ⟨part, false⟩
  | .shutdown fd, w, r, w' =>
      (r = .ok () ∧ w' = w.close fd) ∨ ∃ e, r = .error e ∧ w' = w
  | .openFile path, w, r, w' => (r, w') = w.openFile path
  | .read reader capacity, w, r, w' => (r, w') = w.readFrom reader capacity
  | .output _ _, w, r, w' => (r, w') = w.output
  | .print line, w, _, w' => w' = { w with printed := w.printed ++ [line] }
  | .within _ call, w, r, w' =>
      match r with
      | some answer => Answers mark call w answer w'
      | none => Drops mark call w w'
where
  /-- What may be left of a call when the program is dropped there. -/
  Drops (mark : τ) : SysCall → World τ → World τ → Prop
    | .pathExists _, _, _ => False
    | .connect path, w, w' => w' = w ∨ w' = w.attempted path
    | .writeAll fd bytes, w, w' =>
        ∃ part, part <+: bytes ∧ ((w.conns fd).closed = true → part = []) ∧
          w' = w.send mark fd part
    | .readExact fd count, w, w' =>
        ∃ part, part <+: (w.conns fd).available ∧ part.length ≤ count ∧
          w' = w.record fd ⟨part, false⟩
    | .shutdown fd, w, w' => w' = w ∨ w' = w.close fd
    | .openFile _, w, w' => w' = w
    | .read _ _, w, w' => w' = w
    | .output _ _, w, w' => w' = w
    | .print _, _, _ => False
    | .within _ call, w, w' => Drops mark call w w'

/-- The environment with every failure it may have, for a program that sends
with a mark. -/
def device (mark : τ) : Device system (World τ) where
  answers := Answers mark
  drops := Answers.Drops mark

theorem pathExists_cases (w : World τ) (path : String) :
    w.pathExists path = (true, w) ∨ w.pathExists path = (false, w) ∨
      w.pathExists path = (false, w.attempted path) := by
  unfold pathExists
  split
  · exact .inr (.inl rfl)
  · exact .inr (.inr rfl)
  · exact .inl rfl

/-- A connection is accepted, or no connection is opened. -/
theorem connectTo_cases {w w' : World τ} {path : String} {r : Except IoError Nat}
    (connected : w.connectTo path = some (r, w')) :
    (∃ peer, r = .ok w.opened ∧ w' = w.accept path peer) ∨
      (∃ e, r = .error e ∧ w'.conns = w.conns ∧ w'.opened = w.opened) := by
  unfold connectTo at connected
  split at connected <;> cases connected
  · exact .inl ⟨_, rfl, rfl⟩
  · exact .inr ⟨_, rfl, rfl, rfl⟩
  · exact .inr ⟨_, rfl, rfl, rfl⟩

/-! ## The environment without failures of its own -/

/-- What is left of a call that is given up. -/
def givenUp (w : World τ) : SysCall → World τ
  | .connect path => w.attempted path
  | .within _ call => w.givenUp call
  | _ => w

/-- The environment that writes and reads everything that can be. -/
def serve (mark : τ) : (call : SysCall) → World τ → Option (call.Answer × World τ)
  | .pathExists path, w => some (w.pathExists path)
  | .connect path, w => w.connectTo path
  | .writeAll fd bytes, w =>
      if (w.conns fd).closed then some (.error "Broken pipe", w)
      else some (.ok (), w.send mark fd bytes)
  | .readExact fd count, w =>
      let bytes := (w.conns fd).available.take count
      if count ≤ (w.conns fd).available.length then
        some (.ok bytes, w.record fd ⟨bytes, true⟩)
      else some (.error "early eof", w.record fd ⟨bytes, false⟩)
  | .shutdown fd, w => some (.ok (), w.close fd)
  | .openFile path, w => some (w.openFile path)
  | .read reader capacity, w => some (w.readFrom reader capacity)
  | .output _ _, w => some w.output
  | .print line, w => some ((), { w with printed := w.printed ++ [line] })
  | .within _ call, w =>
      match serve mark call w with
      | some (r, w') => some (some r, w')
      | none => some (none, w.givenUp call)

/-- What a read of an exact number of bytes gives, when the device does not fail. -/
def pulled (w : World τ) (fd count : Nat) : Except IoError (List UInt8) :=
  if count ≤ (w.conns fd).available.length then .ok ((w.conns fd).available.take count)
  else .error "early eof"

theorem serve_readExact (mark : τ) (w : World τ) (fd count : Nat) :
    serve mark (.readExact fd count) w = some (w.pulled fd count, w.pull fd count) := by
  have whole : w.pull fd count = w.record fd ⟨(w.conns fd).available.take count,
      count ≤ (w.conns fd).available.length⟩ := rfl
  by_cases enough : count ≤ (w.conns fd).available.length
  · rw [whole, pulled, if_pos enough, decide_eq_true enough]
    exact if_pos enough
  · rw [whole, pulled, if_neg enough, decide_eq_false enough]
    exact if_neg enough

theorem serve_cases (mark : τ) (call : SysCall) (w : World τ) :
    (∃ r w', serve mark call w = some (r, w') ∧ Answers mark call w r w') ∨
      (serve mark call w = none ∧ Answers.Drops mark call w w ∧
        Answers.Drops mark call w (w.givenUp call)) := by
  induction call with
  | pathExists path => exact .inl ⟨_, _, rfl, rfl⟩
  | connect path =>
      cases result : w.connectTo path with
      | none => exact .inr ⟨result, .inl rfl, .inr rfl⟩
      | some answer => exact .inl ⟨answer.1, answer.2, result, result⟩
  | writeAll fd bytes =>
      cases shut : (w.conns fd).closed with
      | false => exact .inl ⟨.ok (), _, by simp [serve, shut], .inl ⟨rfl, shut, rfl⟩⟩
      | true =>
          refine .inl ⟨.error "Broken pipe", w, by simp [serve, shut], .inr ⟨_, [], rfl, ?_⟩⟩
          exact ⟨List.nil_prefix, fun _ => rfl, (w.send_nil mark fd).symm⟩
  | readExact fd count =>
      by_cases enough : count ≤ (w.conns fd).available.length
      · refine .inl ⟨_, _, if_pos enough, .inl ⟨_, rfl, List.take_prefix _ _, ?_, rfl⟩⟩
        exact List.length_take_of_le enough
      · refine .inl ⟨_, _, if_neg enough, .inr ⟨_, _, rfl, List.take_prefix _ _, ?_, rfl⟩⟩
        exact List.length_take_le _ _
  | shutdown fd => exact .inl ⟨_, _, rfl, .inl ⟨rfl, rfl⟩⟩
  | openFile path => exact .inl ⟨_, _, rfl, rfl⟩
  | read reader capacity => exact .inl ⟨_, _, rfl, rfl⟩
  | output program arguments => exact .inl ⟨_, _, rfl, rfl⟩
  | print line => exact .inl ⟨_, _, rfl, rfl⟩
  | within deadline call ih =>
      rcases ih with ⟨r, w', served, answered⟩ | ⟨unserved, _, givenUp⟩
      · exact .inl ⟨some r, w', by simp only [serve, served], answered⟩
      · exact .inl ⟨none, _, by simp only [serve, unserved], givenUp⟩

/-- Every call but a connect without a deadline is answered. -/
theorem serve_ne_none {mark : τ} {call : SysCall} (other : ∀ path, call ≠ .connect path)
    (w : World τ) : serve mark call w ≠ none := by
  cases call with
  | connect path => exact absurd rfl (other path)
  | writeAll fd bytes =>
      rw [serve]
      split <;> exact nofun
  | readExact fd count =>
      rw [serve_readExact]
      exact nofun
  | within deadline call =>
      rw [serve]
      split <;> exact nofun
  | _ => exact nofun

/-- A run on the environment without failures is an execution on the one with
failures. -/
theorem exec_serve {ε σ α : Type} (mark : τ) (m : Async system ε σ α) (c : Config σ (World τ)) :
    Exec (device mark) m c (run (serve mark) m c).1 (run (serve mark) m c).2 := by
  refine exec_run ?_ ?_ m c
  · intro q w r w' served
    rcases serve_cases mark q w with ⟨r', w'', served', answered⟩ | ⟨unserved, _⟩
    · cases served.symm.trans served'
      exact answered
    · cases served.symm.trans unserved
  · intro q w unserved
    rcases serve_cases mark q w with ⟨r', w'', served', _⟩ | ⟨_, dropped, _⟩
    · cases unserved.symm.trans served'
    · exact dropped

/-! ## What calls change -/

/-- What a call can change, whether it is answered or given up. -/
inductive Changed (mark : τ) (w : World τ) : SysCall → World τ → Prop
  | nothing (call : SysCall) : Changed mark w call w
  | missed (path : String) : Changed mark w (.pathExists path) (w.attempted path)
  | tried (path : String) : Changed mark w (.connect path) (w.attempted path)
  | accepted {path : String} {peer : Peer τ} {rest : List (Attempt τ)}
      (next : w.attempts path = .accepted peer :: rest) :
      Changed mark w (.connect path) (w.accept path peer)
  | wrote (fd : Nat) {bytes part : List UInt8} (inside : part <+: bytes) :
      Changed mark w (.writeAll fd bytes) (w.send mark fd part)
  | took (fd count : Nat) {stretch : Stretch}
      (inside : stretch.bytes <+: (w.conns fd).available) :
      Changed mark w (.readExact fd count) (w.record fd stretch)
  | shut (fd : Nat) : Changed mark w (.shutdown fd) (w.close fd)
  | opened (path : String) : Changed mark w (.openFile path) (w.openFile path).2
  | read (reader capacity : Nat) :
      Changed mark w (.read reader capacity) (w.readFrom reader capacity).2
  | ran (program : String) (arguments : List String) :
      Changed mark w (.output program arguments) w.output.2
  | printed (line : String) :
      Changed mark w (.print line) { w with printed := w.printed ++ [line] }
  | within (deadline : Nat) {call : SysCall} {w' : World τ} (changed : Changed mark w call w') :
      Changed mark w (.within deadline call) w'

theorem changed_drops {mark : τ} {call : SysCall} {w w' : World τ}
    (dropped : Answers.Drops mark call w w') : Changed mark w call w' := by
  induction call with
  | pathExists path => exact dropped.elim
  | print line => exact dropped.elim
  | within deadline call ih => exact .within deadline (ih dropped)
  | connect path =>
      rcases dropped with rfl | rfl
      · exact .nothing _
      · exact .tried path
  | writeAll fd bytes =>
      obtain ⟨part, inside, _, rfl⟩ := dropped
      exact .wrote fd inside
  | readExact fd count =>
      obtain ⟨part, inside, _, rfl⟩ := dropped
      exact .took fd count inside
  | shutdown fd =>
      rcases dropped with rfl | rfl
      · exact .nothing _
      · exact .shut fd
  | openFile path | read reader capacity | output program arguments =>
      obtain rfl := dropped
      exact .nothing _

theorem changed_answers {mark : τ} {call : SysCall} {w w' : World τ} {r : call.Answer}
    (answered : Answers mark call w r w') : Changed mark w call w' := by
  induction call with
  | pathExists path =>
      obtain rfl : w' = (w.pathExists path).2 := congrArg Prod.snd answered
      rcases w.pathExists_cases path with found | absent | missed
      · rw [found]
        exact .nothing _
      · rw [absent]
        exact .nothing _
      · rw [missed]
        exact .missed path
  | connect path =>
      change w.connectTo path = some (r, w') at answered
      rcases next : w.attempts path with _ | ⟨_ | e | _ | peer, rest⟩
      all_goals
        simp only [connectTo, next] at answered
        cases answered
      · exact .nothing _
      · exact .nothing _
      · exact .tried path
      · exact .accepted next
  | writeAll fd bytes =>
      rcases answered with ⟨_, _, rfl⟩ | ⟨_, part, _, inside, _, rfl⟩
      · exact .wrote fd (List.prefix_refl bytes)
      · exact .wrote fd inside
  | readExact fd count =>
      rcases answered with ⟨bytes, _, inside, _, rfl⟩ | ⟨_, part, _, inside, _, rfl⟩
      · exact .took fd count inside
      · exact .took fd count inside
  | shutdown fd =>
      rcases answered with ⟨_, rfl⟩ | ⟨_, _, rfl⟩
      · exact .shut fd
      · exact .nothing _
  | openFile path =>
      obtain rfl : w' = (w.openFile path).2 := congrArg Prod.snd answered
      exact .opened path
  | read reader capacity =>
      obtain rfl : w' = (w.readFrom reader capacity).2 := congrArg Prod.snd answered
      exact .read reader capacity
  | output program arguments =>
      obtain rfl : w' = w.output.2 := congrArg Prod.snd answered
      exact .ran program arguments
  | print line =>
      obtain rfl := answered
      exact .printed line
  | within deadline call ih =>
      cases r with
      | some r => exact .within deadline (ih answered)
      | none => exact .within deadline (@changed_drops τ mark call w w' answered)

theorem Changed.files {mark : τ} {call : SysCall} {w w' : World τ}
    (changed : Changed mark w call w') : w'.files = w.files := by
  induction changed with
  | opened path =>
      rw [openFile]
      split <;> rfl
  | read reader capacity =>
      rw [readFrom]
      split <;> rfl
  | ran program arguments => rw [snd_output]
  | within deadline changed ih => exact ih
  | _ => rfl

/-- Files stay as they are. -/
theorem exec_files {ε σ α : Type} {mark : τ} {m : Async system ε σ α} {c c' : Config σ (World τ)}
    {o : Outcome ε α} (exec : Exec (device mark) m c o c') : c'.world.files = c.world.files := by
  let Kept (w : World τ) : Prop := w.files = c.world.files
  have answers : ∀ q w r w', (device mark).answers q w r w' → Kept w → Kept w' :=
    fun _ _ _ _ answered same => (changed_answers answered).files.trans same
  have drops : ∀ q w w', (device mark).drops q w w' → Kept w → Kept w' :=
    fun _ _ _ dropped same => (changed_drops dropped).files.trans same
  exact exec_keeps answers drops exec rfl

end World

end Foundations
