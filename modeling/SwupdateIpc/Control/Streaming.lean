import SwupdateIpc.Control.Exchange

/-!
# Streaming an image

The loop of `stream` takes the chunks of a reader one by one and writes each of
them before it takes the next (`exec_round_chunk`). On sockets that may fail, it
forwards a prefix of what the reader gives, and all of it when it returns
(`exec_streamLoop`). On sockets without failures it forwards everything, and then it
returns the number of bytes, or the error of the reader (`run_streamLoop`).

A file is a reader that is opened first (`Image.exec_stream`).
-/

set_option autoImplicit false

namespace SwupdateIpc

open Foundations Wire

variable {τ : Type} {mark : τ}

/-- Where an image comes from. -/
inductive Image where
  | reader (n : Nat)
  | file (path : String)
  deriving DecidableEq, Repr

/-- What a source gives when it is read. -/
def Image.contents (w : World τ) : Image → List ReadResult
  | .reader n => w.readers n
  | .file path =>
      match w.files path with
      | .ok contents => contents
      | .error e => [.error e]

theorem Image.contents_file {w : World τ} {path : String} {contents : List ReadResult}
    (file : w.files path = .ok contents) : (Image.file path).contents w = contents := by
  simp only [Image.contents, file]

/-- Stream an image. -/
def Image.stream : Image → Nat → ControlM UInt64
  | .reader n, fuel => Installation.stream n fuel
  | .file path, fuel => Installation.streamFile path fuel

/-! ## What streaming does to its connection -/

/-- The environment after part of some contents was forwarded on a connection. -/
structure Forwarded (mark : τ) (contents : List ReadResult) (fd : Nat) (w : World τ)
    (part : List UInt8) (w' : World τ) : Prop where
  inside : part <+: delivered contents
  unsent : (w.conns fd).closed = true → part = []
  conns : w'.conns = Function.update w.conns fd ((w.conns fd).send mark part)
  opened : w'.opened = w.opened

theorem Forwarded.nothing {contents : List ReadResult} {fd : Nat} {w w' : World τ}
    (conns : w'.conns = w.conns) (opened : w'.opened = w.opened) :
    Forwarded mark contents fd w [] w' where
  inside := List.nil_prefix
  unsent _ := rfl
  conns := by rw [conns, Conn.send_nil, Function.update_eq_self]
  opened := opened

/-- A chunk is forwarded, and then part of what is left. -/
theorem Forwarded.more {contents left : List ReadResult} {fd : Nat} {w w₁ w' : World τ}
    {chunk part : List UInt8} (whole : delivered contents = chunk ++ delivered left)
    (writable : (w.conns fd).closed = false) (conns : w₁.conns = (w.send mark fd chunk).conns)
    (opened : w₁.opened = w.opened) (rest : Forwarded mark left fd w₁ part w') :
    Forwarded mark contents fd w (chunk ++ part) w' where
  inside := by
    rw [whole]
    exact (List.prefix_append_right_inj chunk).mpr rest.inside
  unsent closed := by rw [writable] at closed; cases closed
  conns := by
    have here : w₁.conns fd = (w.conns fd).send mark chunk := by
      rw [conns, World.send, World.conns_onConn_same]
    rw [rest.conns, here, Conn.send_send, conns, World.send, World.onConn]
    exact Function.update_idem _ _ _
  opened := rest.opened.trans opened

theorem take_splice_self {read buf : List UInt8} : (splice 0 read buf).take read.length = read := by
  simp only [splice, List.take_zero, List.nil_append, List.take_left]

theorem splice_positive {read buf : List UInt8} (room : 0 < buf.length)
    (short : read.length ≤ buf.length) : 0 < (splice 0 read buf).length := by
  rw [length_splice (by omega)]
  exact room

/-- How a transfer ends, with the bytes it has written. At the end of the reader and at
its error, these are all the bytes before it. Given up at a write, they are what was read
before the last chunk and part of that chunk, and given up at a read, what was read. The
reader still has `left` to give then. -/
inductive Streamed (contents left : List ReadResult) (total : UInt64) :
    List UInt8 → Outcome Error UInt64 → Prop where
  | finished (clean : readError contents = none) :
      Streamed contents left total (delivered contents)
        (.ok (total + UInt64.ofNat (delivered contents).length))
  | unreadable {e : IoError} (error : readError contents = some e) :
      Streamed contents left total (delivered contents) (.err (.connection e))
  | unwritten {before chunk part : List UInt8} {o : Outcome Error UInt64}
      (taken : delivered contents = before ++ chunk ++ delivered left)
      (positive : 0 < chunk.length) (inside : part <+: chunk) (cut : Cut o) :
      Streamed contents left total (before ++ part) o
  | waiting {read : List UInt8} (taken : delivered contents = read ++ delivered left) :
      Streamed contents left total read .dropped

/-- A chunk is written before what is left is streamed. -/
theorem Streamed.more {contents rest left : List ReadResult} {total : UInt64}
    {chunk part : List UInt8} {o : Outcome Error UInt64}
    (whole : delivered contents = chunk ++ delivered rest)
    (same : readError contents = readError rest)
    (streamed : Streamed rest left (total + UInt64.ofNat chunk.length) part o) :
    Streamed contents left total (chunk ++ part) o := by
  cases streamed with
  | finished clean =>
      have count : total + UInt64.ofNat chunk.length + UInt64.ofNat (delivered rest).length =
          total + UInt64.ofNat (delivered contents).length := by
        rw [whole, List.length_append, UInt64.ofNat_add, UInt64.add_assoc]
      rw [← whole, count]
      exact .finished (same.trans clean)
  | unreadable error =>
      rw [← whole]
      exact .unreadable (same.trans error)
  | unwritten taken positive inside cut =>
      rw [← List.append_assoc]
      refine .unwritten ?_ positive inside cut
      rw [whole, taken]
      simp only [List.append_assoc]
  | waiting taken =>
      refine .waiting ?_
      rw [whole, taken, List.append_assoc]

/-! ## A round of the loop -/

section Rounds

variable {reader fuel : Nat} {buf : List UInt8} {total : UInt64}
  {c c' : Config ControlClient (World τ)} {o : Outcome Error UInt64}

/-- A read is dropped, or it is answered with the next of the reader. -/
theorem exec_read_bind {α : Type} {capacity : Nat} {o : Outcome Error α}
    {f : Except IoError (List UInt8) → ControlM α} :
    Exec (World.device mark) (await (.read reader capacity) >>= f) c o c' ↔
      (o = .dropped ∧ c' = c) ∨
        Exec (World.device mark) (f (c.world.readFrom reader capacity).1)
          ⟨c.own, (c.world.readFrom reader capacity).2⟩ o c' := by
  constructor
  · intro exec
    rcases exec_await_bind.mp exec with ⟨r, w, answer, rest⟩ | ⟨w, unread, rfl, rfl⟩
    · change (r, w) = c.world.readFrom reader capacity at answer
      rw [← answer]
      exact .inr rest
    · obtain rfl := unread
      exact .inl ⟨rfl, rfl⟩
  · rintro (⟨rfl, rfl⟩ | rest)
    · exact exec_await_bind.mpr (.inr ⟨_, rfl, rfl, rfl⟩)
    · exact exec_await_bind.mpr (.inl ⟨_, _, rfl, rest⟩)

/-- A round that finds the end of the reader returns. -/
theorem exec_round_ended (ended : (c.world.readFrom reader buf.length).1 = .ok []) :
    Exec (World.device mark) (Installation.streamLoop reader (fuel + 1) buf total) c o c' ↔
      (o = .dropped ∧ c' = c) ∨
        o = .ok total ∧ c' = ⟨c.own, (c.world.readFrom reader buf.length).2⟩ := by
  refine exec_read_bind.trans ?_
  rw [ended]
  exact Iff.rfl

/-- A round that finds an error of the reader fails. -/
theorem exec_round_failed {e : IoError}
    (failed : (c.world.readFrom reader buf.length).1 = .error e) :
    Exec (World.device mark) (Installation.streamLoop reader (fuel + 1) buf total) c o c' ↔
      (o = .dropped ∧ c' = c) ∨
        o = .err (.connection e) ∧ c' = ⟨c.own, (c.world.readFrom reader buf.length).2⟩ := by
  refine exec_read_bind.trans ?_
  rw [failed]
  exact Iff.rfl

/-- **A round that reads a chunk writes it**, and the loop goes on with what is left, or
the write is cut. -/
theorem exec_round_chunk {chunk : List UInt8}
    (read : (c.world.readFrom reader buf.length).1 = .ok chunk) (positive : 0 < chunk.length) :
    Exec (World.device mark) (Installation.streamLoop reader (fuel + 1) buf total) c o c' ↔
      (o = .dropped ∧ c' = c) ∨
        ((((c.world.readFrom reader buf.length).2.conns c.own.stream).closed = false ∧
            Exec (World.device mark)
              (Installation.streamLoop reader fuel (splice 0 chunk buf)
                (total + UInt64.ofNat chunk.length))
              ⟨c.own, (c.world.readFrom reader buf.length).2.send mark c.own.stream chunk⟩ o c') ∨
          ∃ part, part <+: chunk ∧
            (((c.world.readFrom reader buf.length).2.conns c.own.stream).closed = true →
              part = []) ∧
            Cut o ∧
            c' = ⟨c.own, (c.world.readFrom reader buf.length).2.send mark c.own.stream part⟩) := by
  refine exec_read_bind.trans ?_
  rw [read]
  refine or_congr Iff.rfl ?_
  simp only [orConnection, Async.pure_eq, Async.ret_bind, if_neg positive.ne', exec_get_bind]
  rw [take_splice_self]
  exact exec_write_bind

end Rounds

/-! ## What streaming can do -/

/-- **What streaming can do.** It forwards what it reads. -/
theorem exec_streamLoop {reader fuel : Nat} {buf : List UInt8} {total : UInt64}
    (room : 0 < buf.length) {contents : List ReadResult}
    {c c' : Config ControlClient (World τ)} (holds : c.world.readers reader = contents)
    {o : Outcome Error UInt64}
    (exec : Exec (World.device mark) (Installation.streamLoop reader fuel buf total) c o c') :
    c'.own = c.own ∧ ∃ part, Forwarded mark contents c.own.stream c.world part c'.world ∧
      Streamed contents (c'.world.readers reader) total part o := by
  induction fuel generalizing buf total c contents with
  | zero =>
      obtain ⟨rfl, rfl⟩ := exec
      refine ⟨rfl, [], .nothing rfl rfl, ?_⟩
      rw [holds]
      exact .waiting rfl
  | succ fuel ih =>
      have idle : Streamed contents (c.world.readers reader) total [] .dropped := by
        rw [holds]
        exact .waiting rfl
      obtain ⟨left, after, cases⟩ := c.world.readFrom_cases reader room
      rw [holds] at cases
      rcases cases with ⟨ended, empty, clean⟩ | ⟨e, failed, empty, error⟩ |
        ⟨chunk, read, positive, short, whole, same⟩
      · rcases (exec_round_ended ended).mp exec with ⟨rfl, rfl⟩ | ⟨rfl, rfl⟩
        · exact ⟨rfl, [], .nothing rfl rfl, idle⟩
        · rw [after]
          have count : total + UInt64.ofNat (delivered contents).length = total := by simp [empty]
          have finished := fun left => @Streamed.finished contents left total clean
          rw [count, empty] at finished
          exact ⟨rfl, [], .nothing rfl rfl, finished _⟩
      · rcases (exec_round_failed failed).mp exec with ⟨rfl, rfl⟩ | ⟨rfl, rfl⟩
        · exact ⟨rfl, [], .nothing rfl rfl, idle⟩
        · rw [after]
          refine ⟨rfl, [], .nothing rfl rfl, ?_⟩
          rw [← empty]
          exact .unreadable error
      · rcases (exec_round_chunk read positive).mp exec with
          ⟨rfl, rfl⟩ | ⟨writable, last⟩ | ⟨part, written, unsent, cut, rfl⟩
        · exact ⟨rfl, [], .nothing rfl rfl, idle⟩
        · rw [after] at writable last
          obtain ⟨own, part, forwarded, streamed⟩ :=
            ih (splice_positive room short) (Function.update_self ..) last
          refine ⟨own, chunk ++ part, .more whole writable ?_ ?_ forwarded,
            streamed.more whole same⟩
          · rfl
          · rfl
        · rw [after] at unsent ⊢
          have inside : part <+: delivered contents := by
            rw [whole]
            exact written.trans (List.prefix_append _ _)
          refine ⟨rfl, part, ⟨inside, unsent, rfl, rfl⟩, ?_⟩
          refine @Streamed.unwritten _ _ _ [] _ _ _ ?_ positive written cut
          rw [whole]
          show _ = _ ++ delivered (Function.update c.world.readers reader left reader)
          rw [Function.update_self, List.nil_append]

/-- A transfer that returns has streamed everything. -/
theorem Streamed.returned {contents left : List ReadResult} {part : List UInt8} {n : UInt64}
    (streamed : Streamed contents left 0 part (.ok n)) :
    part = delivered contents ∧ endsCleanly contents = true ∧ n = UInt64.ofNat part.length := by
  cases streamed with
  | finished clean => exact ⟨rfl, endsCleanly_iff.mpr clean, UInt64.zero_add _⟩
  | unwritten _ _ _ cut => exact absurd cut (not_cut_ok n)

/-- **What streaming does when no socket fails.** With enough rounds it forwards
all that the reader gives, and returns the number of bytes, or fails with the
error of the reader. -/
theorem run_streamLoop {reader fuel : Nat} {buf : List UInt8} {total : UInt64}
    (room : 0 < buf.length) {contents : List ReadResult}
    {c : Config ControlClient (World τ)} (holds : c.world.readers reader = contents)
    (writable : (c.world.conns c.own.stream).closed = false)
    (enough : (delivered contents).length < fuel) :
    ∃ o w', run (World.serve mark) (Installation.streamLoop reader fuel buf total) c =
        (o, ⟨c.own, w'⟩) ∧
      Forwarded mark contents c.own.stream c.world (delivered contents) w' ∧
      (endsCleanly contents = true →
        o = .ok (total + UInt64.ofNat (delivered contents).length)) ∧
      (endsCleanly contents = false → ∃ e, o = .err (.connection e)) := by
  induction fuel generalizing buf total c contents with
  | zero => omega
  | succ fuel ih =>
      obtain ⟨left, after, cases⟩ := c.world.readFrom_cases reader room
      rw [holds] at cases
      simp only [Installation.streamLoop, run_await_bind, World.serve]
      rcases cases with ⟨ended, empty, clean⟩ | ⟨e, failed, empty, error⟩ |
        ⟨chunk, read, positive, short, whole, same⟩
      · rw [ended, after]
        simp only [orConnection, Async.pure_eq, Async.ret_bind, List.length_nil, if_pos, run_ret]
        refine ⟨_, _, rfl, ?_, ?_, ?_⟩
        · rw [empty]
          exact .nothing rfl rfl
        · intro _
          rw [empty]
          simp
        · intro unclean
          rw [endsCleanly_iff.mpr clean] at unclean
          cases unclean
      · rw [failed, after]
        refine ⟨_, _, rfl, ?_, ?_, fun _ => ⟨e, rfl⟩⟩
        · rw [empty]
          exact .nothing rfl rfl
        · intro clean
          rw [endsCleanly_iff.mp clean] at error
          cases error
      · have chunk_eq : (splice 0 chunk buf).take chunk.length = chunk := take_splice_self
        have fewer : (delivered left).length < fuel := by
          rw [whole, List.length_append] at enough
          omega
        rw [read, after]
        simp only [orConnection, Async.pure_eq, Async.ret_bind, if_neg positive.ne', run_get_bind,
          run_await_bind, World.serve, writable, Bool.false_eq_true, if_false, chunk_eq]
        have same : endsCleanly contents = endsCleanly left := by
          rw [Bool.eq_iff_iff, endsCleanly_iff, endsCleanly_iff, same]
        generalize sent : World.send _ mark c.own.stream chunk = w₁
        have conns : w₁.conns = (c.world.send mark c.own.stream chunk).conns := by
          rw [← sent]
          rfl
        have readers : w₁.readers reader = left := by
          rw [← sent]
          exact Function.update_self ..
        have open_ : (w₁.conns c.own.stream).closed = false := by
          rw [conns, World.send, World.conns_onConn_same]
          exact writable
        obtain ⟨o, w', ran, forwarded, ok, failed⟩ := @ih _ (total + UInt64.ofNat chunk.length)
          (splice_positive room short) _ ⟨c.own, w₁⟩ readers open_ fewer
        refine ⟨o, w', ran, ?_, ?_, fun unclean => failed (same ▸ unclean)⟩
        · rw [whole]
          exact .more whole writable conns (by rw [← sent]; rfl) forwarded
        · intro clean
          rw [ok (same ▸ clean), whole, List.length_append, UInt64.ofNat_add, UInt64.add_assoc]

/-- The buffer of `stream` has room. -/
theorem Installation.buffer_positive : 0 < (List.replicate 8192 (0 : UInt8)).length := by
  rw [List.length_replicate]
  omega

theorem Image.exec_stream {image : Image} {fuel : Nat}
    {c c' : Config ControlClient (World τ)} {o : Outcome Error UInt64}
    (exec : Exec (World.device mark) (image.stream fuel) c o c') :
    c'.own = c.own ∧ ∃ part,
      Forwarded mark (image.contents c.world) c.own.stream c.world part c'.world ∧
        ∀ n, o = .ok n → part = delivered (image.contents c.world) ∧
          endsCleanly (image.contents c.world) = true ∧ n = UInt64.ofNat part.length := by
  have room := Installation.buffer_positive
  cases image with
  | reader reader =>
      obtain ⟨own, part, forwarded, streamed⟩ := exec_streamLoop room rfl exec
      exact ⟨own, part, forwarded, fun n returned => (returned ▸ streamed).returned⟩
  | file path =>
      simp only [Image.stream, Installation.streamFile] at exec
      rcases exec with ⟨r, w, answer, rest⟩ | ⟨w, unopened, rfl, rfl⟩
      · change (r, w) = c.world.openFile path at answer
        cases file : c.world.files path with
        | error e =>
            simp only [World.openFile, file] at answer
            obtain ⟨rfl, rfl⟩ := answer
            obtain ⟨rfl, rfl⟩ := rest
            exact ⟨rfl, [], .nothing rfl rfl, by simp⟩
        | ok contents =>
            simp only [World.openFile, file] at answer
            obtain ⟨rfl, rfl⟩ := answer
            obtain ⟨own, part, forwarded, streamed⟩ :=
              exec_streamLoop room (Function.update_self ..) rest
            rw [Image.contents_file file]
            exact ⟨own, part, ⟨forwarded.inside, forwarded.unsent, forwarded.conns,
              forwarded.opened⟩, fun n returned => (returned ▸ streamed).returned⟩
      · obtain rfl := unopened
        exact ⟨rfl, [], .nothing rfl rfl, by simp⟩

/-- A reader of one chunk, streamed when no socket fails. -/
theorem run_streamLoop_chunk {n : Nat} {chunk buf : List UInt8} {total : UInt64}
    {client : ControlClient} {w : World τ} (holds : w.readers n = [.data chunk])
    (positive : 0 < chunk.length) (short : chunk.length ≤ buf.length)
    (writable : (w.conns client.stream).closed = false) :
    run (World.serve mark) (Installation.streamLoop n 2 buf total) ⟨client, w⟩ =
      (.ok (total + UInt64.ofNat chunk.length), ⟨client, World.send
        { w with readers := Function.update w.readers n [] } mark client.stream chunk⟩) := by
  have first : w.readFrom n buf.length =
      (.ok chunk, { w with readers := Function.update w.readers n [] }) := by
    simp only [World.readFrom, holds, List.take_of_length_le short, if_pos short]
  have last : ∀ {w : World τ}, w.readers n = [] →
      ∀ capacity, w.readFrom n capacity = (.ok [], w) := by
    intro w holds capacity
    simp only [World.readFrom, holds]
  simp only [Installation.streamLoop, run_await_bind, World.serve, first, orConnection,
    Async.pure_eq, Async.ret_bind, if_neg positive.ne', run_get_bind, writable,
    Bool.false_eq_true, if_false, take_splice_self]
  rw [last (Function.update_self ..)]
  rfl

/-- An image that is read without errors is streamed whole, when no socket
fails. -/
theorem Image.run_stream {image : Image} {fuel : Nat} {c : Config ControlClient (World τ)}
    (writable : (c.world.conns c.own.stream).closed = false)
    (clean : endsCleanly (image.contents c.world) = true)
    (enough : (delivered (image.contents c.world)).length < fuel) :
    ∃ n, (run (World.serve mark) (image.stream fuel) c).1 = .ok n := by
  have room := Installation.buffer_positive
  cases image with
  | reader n =>
      obtain ⟨o, w', ran, _, ok, _⟩ :=
        @run_streamLoop _ mark n fuel _ 0 room _ c rfl writable enough
      exact ⟨_, (congrArg Prod.fst ran).trans (ok clean)⟩
  | file path =>
      cases file : c.world.files path with
      | error e =>
          simp only [contents, file] at clean
          cases clean
      | ok contents =>
          rw [Image.contents_file file] at clean enough
          obtain ⟨o, w', ran, _, ok, _⟩ := @run_streamLoop _ mark c.world.started fuel _ 0 room
            contents ⟨c.own, (c.world.openFile path).2⟩
            (by simp only [World.openFile, file, Function.update_self])
            (by simpa only [World.openFile, file] using writable) enough
          have opened : run (World.serve mark) ((Image.file path).stream fuel) c =
              run (World.serve mark) (Installation.stream c.world.started fuel)
                ⟨c.own, (c.world.openFile path).2⟩ := by
            simp only [Image.stream, Installation.streamFile, run_await_bind, World.serve,
              World.openFile, file]
          rw [opened]
          exact ⟨_, (congrArg Prod.fst ran).trans (ok clean)⟩

/-- What an image gives is sent, also when reading it fails later. -/
theorem Image.run_delivered {image : Image} {fuel : Nat} {c : Config ControlClient (World τ)}
    (writable : (c.world.conns c.own.stream).closed = false)
    (enough : (delivered (image.contents c.world)).length < fuel) :
    ∃ o w', run (World.serve mark) (image.stream fuel) c = (o, ⟨c.own, w'⟩) ∧
      w'.conns = Function.update c.world.conns c.own.stream
        ((c.world.conns c.own.stream).send mark (delivered (image.contents c.world))) ∧
      (endsCleanly (image.contents c.world) = false → ∃ e, o = .err e) := by
  have room := Installation.buffer_positive
  cases image with
  | reader n =>
      obtain ⟨o, w', ran, forwarded, _, failed⟩ :=
        @run_streamLoop _ mark n fuel _ 0 room _ c rfl writable enough
      refine ⟨o, w', ran, forwarded.conns, fun unclean => ?_⟩
      obtain ⟨e, returned⟩ := failed unclean
      exact ⟨_, returned⟩
  | file path =>
      cases file : c.world.files path with
      | error e =>
          have nothing : (Image.file path).contents c.world = [.error e] := by
            simp only [contents, file]
          have unsent : Function.update c.world.conns c.own.stream
              ((c.world.conns c.own.stream).send mark []) = c.world.conns := by
            rw [Conn.send_nil, Function.update_eq_self]
          refine ⟨.err (.protocol s!"failed to open {path}: {e}"), c.world, ?_, ?_,
            fun _ => ⟨_, rfl⟩⟩
          · simp only [Image.stream, Installation.streamFile, run_await_bind, World.serve,
              World.openFile, file]
            rfl
          · rw [nothing]
            exact unsent.symm
      | ok contents =>
          rw [Image.contents_file file] at enough ⊢
          obtain ⟨o, w', ran, forwarded, _, failed⟩ :=
            @run_streamLoop _ mark c.world.started fuel _ 0 room contents
              ⟨c.own, (c.world.openFile path).2⟩
              (by simp only [World.openFile, file, Function.update_self])
              (by simpa only [World.openFile, file] using writable) enough
          have conns : (c.world.openFile path).2.conns = c.world.conns := by
            simp only [World.openFile, file]
          refine ⟨o, w', ?_, ?_, fun unclean => ?_⟩
          · rw [← ran]
            simp only [Image.stream, Installation.streamFile, run_await_bind, World.serve,
              World.openFile, file]
            rfl
          · rw [← conns]
            exact forwarded.conns
          · obtain ⟨e, returned⟩ := failed unclean
            exact ⟨_, returned⟩

end SwupdateIpc
