import SwupdateIpc.Cli.Commands

/-!
# The two tasks of an installation with progress

The events of some reads are those of the whole messages among them (`eventsIn`). The
loop that watches them returns exactly when the last of them is terminal and no other
one is, and it does so after a failure as it does after a success (`exec_watch`).
Streaming that returns has read the image without error and has sent all of it
(`exec_streamImage_ok`).

The two tasks use different connections, so that a join of them that returns has
streamed the image and then watched the events, on whatever schedule (`exec_tasks`).
-/

set_option autoImplicit false

namespace SwupdateIpc

open Foundations Wire

variable {T : Target} {τ : Type} {mark : τ}

/-! ## Watching -/

/-- The events of the whole messages among some reads. -/
def eventsIn (T : Target) (layout : ProgressLayout) (reads : List Stretch) : List ProgressEvent :=
  (reads.filter Stretch.full).map fun stretch => layout.decode T stretch.bytes

/-- The events received on a connection, whose first read is that of the
acknowledgement. -/
def received (T : Target) (layout : ProgressLayout) (c : Conn τ) : List ProgressEvent :=
  eventsIn T layout c.reads.tail

/-- The last event is terminal, and it is the first one that is. -/
def EndsWithTerminal (events : List ProgressEvent) : Prop :=
  ∃ front last, events = front ++ [last] ∧ last.isTerminal = true ∧
    ∀ event ∈ front, event.isTerminal = false

theorem EndsWithTerminal.cons {events : List ProgressEvent} (ends : EndsWithTerminal events)
    {event : ProgressEvent} (more : event.isTerminal = false) :
    EndsWithTerminal (event :: events) := by
  obtain ⟨front, last, rfl, terminal, others⟩ := ends
  exact ⟨event :: front, last, rfl, terminal, List.forall_mem_cons.mpr ⟨more, others⟩⟩

theorem eventsIn_cons (layout : ProgressLayout) (stretch : Stretch) (reads : List Stretch) :
    eventsIn T layout (stretch :: reads) =
      eventsIn T layout [stretch] ++ eventsIn T layout reads := by
  rw [eventsIn, eventsIn, eventsIn, ← List.map_append, ← List.filter_append]
  rfl

/-- A receive reads the connection held once. It returns the event of that read, or
the read has none. -/
theorem exec_receive_once {c c' : Config ProgressClient (World τ)} {o : Outcome Error ProgressEvent}
    (exec : Exec (World.device mark) (ProgressClient.receive T) c o c') :
    c'.own = c.own ∧ (∀ fd, fd ≠ c.own.stream → c'.world.conns fd = c.world.conns fd) ∧
      ∃ stretch, (c'.world.conns c.own.stream).reads =
          (c.world.conns c.own.stream).reads ++ [stretch] ∧
        ((∃ event, o = .ok event ∧ eventsIn T c.own.layout [stretch] = [event]) ∨
          ((∀ event, o ≠ .ok event) ∧ eventsIn T c.own.layout [stretch] = [])) := by
  obtain ⟨own, stretch, _, world, result⟩ := ProgressClient.exec_receive exec
  refine ⟨own, ?_, stretch, ?_, ?_⟩
  · intro fd other
    rw [world, World.record, World.conns_onConn_other _ _ other]
  · rw [world, World.record, World.conns_onConn_same, Conn.reads_record]
  · rcases result with ⟨rfl, full, _⟩ | ⟨cut, short⟩
    · exact .inl ⟨_, rfl, by simp [eventsIn, full]⟩
    · refine .inr ⟨?_, by simp [eventsIn, short]⟩
      rintro event rfl
      exact not_cut_ok event cut

/-- The loop has read the connection held, and it has returned exactly when it has
received a terminal event. -/
structure Watched (T : Target) (c : Config ProgressClient (World τ)) (o : Outcome Error Unit)
    (c' : Config ProgressClient (World τ)) : Prop where
  own : c'.own = c.own
  others : ∀ fd, fd ≠ c.own.stream → c'.world.conns fd = c.world.conns fd
  result : ∃ reads, (c'.world.conns c.own.stream).reads =
      (c.world.conns c.own.stream).reads ++ reads ∧
    ((o = .ok () ∧ EndsWithTerminal (eventsIn T c.own.layout reads)) ∨
      (o ≠ .ok () ∧ ∀ event ∈ eventsIn T c.own.layout reads, event.isTerminal = false))

/-- A receive without an event ends the loop. -/
theorem watched_silent {c c' : Config ProgressClient (World τ)}
    {r : Outcome Error ProgressEvent} {o : Outcome Error Unit}
    (last : Exec (World.device mark) (ProgressClient.receive T) c r c')
    (none : ∀ event, r ≠ .ok event) (failed : o ≠ .ok ()) : Watched T c o c' := by
  obtain ⟨own, others, stretch, reads, ⟨event, returned, _⟩ | ⟨_, events⟩⟩ :=
    exec_receive_once last
  · exact absurd returned (none event)
  · refine ⟨own, others, [stretch], reads, .inr ⟨failed, ?_⟩⟩
    rw [events]
    rintro event ⟨⟩

/-- **What watching can do**, on sockets that may fail. -/
theorem exec_watch {fuel : Nat} {c c' : Config ProgressClient (World τ)} {o : Outcome Error Unit}
    (exec : Exec (World.device mark) (watch T fuel) c o c') : Watched T c o c' := by
  induction fuel generalizing c with
  | zero =>
      obtain ⟨rfl, rfl⟩ := exec
      refine ⟨rfl, fun _ _ => rfl, [], (List.append_nil _).symm, .inr ⟨by simp, ?_⟩⟩
      rintro event ⟨⟩
  | succ fuel ih =>
      rw [watch] at exec
      rcases exec_bind.mp exec with ⟨event, c₁, first, rest⟩ | ⟨e, rfl, last⟩ | ⟨rfl, last⟩
      · obtain ⟨own, others, stretch, reads, ⟨_, ⟨⟩, events⟩ | ⟨none, _⟩⟩ :=
          exec_receive_once first
        · by_cases terminal : event.isTerminal = true
          · rw [if_pos terminal] at rest
            obtain ⟨rfl, rfl⟩ := rest
            refine ⟨own, others, [stretch], reads, .inl ⟨rfl, [], event, events, terminal, ?_⟩⟩
            rintro other ⟨⟩
          · rw [if_neg terminal] at rest
            obtain ⟨own', others', reads', more, result⟩ := ih rest
            have other : event.isTerminal = false := Bool.eq_false_iff.mpr terminal
            rw [own] at others' more result
            refine ⟨own'.trans own, fun fd apart => (others' fd apart).trans (others fd apart),
              stretch :: reads', ?_, ?_⟩
            · rw [more, reads, List.append_assoc]
              rfl
            · rw [eventsIn_cons, events]
              rcases result with ⟨returned, ends⟩ | ⟨failed, quiet⟩
              · exact .inl ⟨returned, ends.cons other⟩
              · exact .inr ⟨failed, List.forall_mem_cons.mpr ⟨other, quiet⟩⟩
        · exact absurd rfl (none event)
      · exact watched_silent last (by simp) (by simp)
      · exact watched_silent last (by simp) (by simp)

/-! ## Streaming -/

/-- The source of the image of a command line. -/
def imageOf : Option String → Image
  | some path => .file path
  | none => .reader stdin

theorem streamImage_eq (file : Option String) (fuel : Nat) :
    streamImage file fuel =
      (imageOf file).stream fuel >>= fun bytes => println s!"Streamed {bytes} bytes" := by
  cases file <;> rfl

theorem exec_println_ok {σ : Type} {line : String} {c c' : Config σ (World τ)}
    (exec : Exec (World.device mark) (println line) c (.ok ()) c') :
    c'.own = c.own ∧ c'.world = { c.world with printed := c.world.printed ++ [line] } := by
  rcases exec with ⟨_, w, answered, _, rfl⟩ | ⟨_, impossible, _⟩
  · exact ⟨rfl, answered⟩
  · exact impossible.elim

/-- Streaming that returns has read the image without error, and has sent all of it. -/
theorem exec_streamImage_ok {file : Option String} {fuel : Nat}
    {c c' : Config ControlClient (World τ)}
    (exec : Exec (World.device mark) (streamImage file fuel) c (.ok ()) c') :
    c'.own = c.own ∧ endsCleanly ((imageOf file).contents c.world) = true ∧
      c'.world.conns = (c.world.send mark c.own.stream
        (delivered ((imageOf file).contents c.world))).conns := by
  rw [streamImage_eq] at exec
  obtain ⟨bytes, c₁, first, last⟩ := exec_bind_ok exec
  obtain ⟨own, part, forwarded, whole⟩ := Image.exec_stream first
  obtain ⟨rfl, clean, _⟩ := whole bytes rfl
  obtain ⟨same, world⟩ := exec_println_ok last
  refine ⟨by rw [same, own], clean, ?_⟩
  rw [world]
  exact forwarded.conns

/-! ## The two tasks together -/

/-- The loop of streaming reads its reader and writes on the connection of its client. -/
theorem calls_streamLoop {allowed : SysCall → Prop} {client : ControlClient} {reader : Nat}
    (reads : ∀ capacity, allowed (.read reader capacity))
    (writes : ∀ bytes, allowed (.writeAll client.stream bytes)) (fuel : Nat) (buf : List UInt8)
    (total : UInt64) :
    (Installation.streamLoop reader fuel buf total).Calls allowed client := by
  induction fuel generalizing buf total with
  | zero => trivial
  | succ fuel ih =>
      refine ⟨reads _, ?_⟩
      intro answer
      cases answer with
      | error e => trivial
      | ok read =>
          show Async.Calls _ (ite _ _ _) _
          split
          · trivial
          · refine ⟨writes _, ?_⟩
            intro written
            cases written with
            | error e => trivial
            | ok done => exact ih _ _

/-- Streaming uses the connection of its client, and no other one. -/
theorem calls_streamImage {client : ControlClient} {fd : Nat} (distinct : client.stream ≠ fd)
    (file : Option String) (fuel : Nat) :
    (streamImage file fuel).Calls (SysCall.Apart fd) client := by
  have loops : ∀ reader, (Installation.stream reader fuel).Calls (SysCall.Apart fd) client :=
    fun _ => calls_streamLoop (fun _ => trivial) (fun _ => distinct) fuel _ _
  rw [streamImage_eq]
  refine Async.Calls.bind ?_ fun bytes _ => ⟨trivial, fun _ => trivial⟩
  cases file with
  | none => exact loops stdin
  | some path =>
      refine ⟨trivial, ?_⟩
      intro opened
      cases opened with
      | error e => trivial
      | ok reader => exact loops reader

/-- Watching only reads, from the connection of its client. -/
theorem calls_watch (client : ProgressClient) (fuel : Nat) :
    (watch T fuel).Calls (SysCall.ReadsFrom client.stream) client := by
  induction fuel with
  | zero => trivial
  | succ fuel ih =>
      rw [watch, ProgressClient.receive_eq]
      refine ⟨⟨_, rfl⟩, ?_⟩
      intro answer
      cases answer with
      | error e => trivial
      | ok bytes =>
          show Async.Calls _ (ite _ _ _) _
          split
          · trivial
          · exact ih

/-- **The tasks of an installation with progress**: in whatever order they take turns,
when their join returns, the image was streamed and then the events were watched. -/
theorem exec_tasks {file : Option String} {schedule : List Turn} {fuel : Nat}
    {client : ControlClient} {progress : ProgressClient} {w : World τ} {both : Unit × Unit}
    {c' : Config (ControlClient × ProgressClient) (World τ)}
    (distinct : client.stream ≠ progress.stream)
    (exec : Exec (World.device mark) (Async.tryJoin schedule (streamImage file fuel)
      (watch T fuel)) ⟨(client, progress), w⟩ (.ok both) c') :
    ∃ w₁, Exec (World.device mark) (streamImage file fuel) ⟨client, w⟩ (.ok ()) ⟨c'.own.1, w₁⟩ ∧
      Exec (World.device mark) (watch T fuel) ⟨progress, w₁⟩ (.ok ())
        ⟨c'.own.2, c'.world⟩ := by
  refine exec_tryJoin_ok ?_ (calls_streamImage distinct file fuel) (calls_watch progress fuel) exec
  exact fun earlier later reads apart => World.commute_reads reads apart

/-! ## On sockets without failures of their own -/

/-- An image that is read without error is streamed. -/
theorem run_streamImage {file : Option String} {fuel : Nat} {c : Config ControlClient (World τ)}
    (writable : (c.world.conns c.own.stream).closed = false)
    (clean : endsCleanly ((imageOf file).contents c.world) = true)
    (enough : (delivered ((imageOf file).contents c.world)).length < fuel) :
    ∃ w', run (World.serve mark) (streamImage file fuel) c = (.ok (), ⟨c.own, w'⟩) ∧
      w'.conns = (c.world.send mark c.own.stream
        (delivered ((imageOf file).contents c.world))).conns := by
  obtain ⟨n, returned⟩ := Image.run_stream writable clean enough
  have exec := World.exec_serve mark (streamImage file fuel) c
  rcases ran : run (World.serve mark) (streamImage file fuel) c with ⟨o, own, w⟩
  obtain rfl : o = .ok () := by
    have ends := congrArg Prod.fst ran
    rw [streamImage_eq, run_bind, ← Prod.eta (run _ (Image.stream _ _) c), returned] at ends
    exact ends.symm
  rw [ran] at exec
  obtain ⟨kept, _, conns⟩ := exec_streamImage_ok exec
  obtain rfl : own = c.own := kept
  exact ⟨w, ran, conns⟩

end SwupdateIpc
