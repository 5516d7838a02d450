import SwupdateIpc.Foundations.FairSchedules
import SwupdateIpc.Foundations.Interference
import SwupdateIpc.Foundations.SystemCalls

/-!
# Independent calls

A call is apart from a connection when it neither uses that connection nor opens one
(`SysCall.Apart`). Its answers do not depend on what happens on the connection, and it
leaves the connection as it is (`World.answers_onConn`), so that it can be made before
a read of the connection as well as after it (`World.commute_reads`).

What calls of some kinds guarantee is stated for programs under interference
(`World.apart_guarantees`, `World.reads_guarantee`, `World.quiet_guarantees`).
-/

set_option autoImplicit false

namespace Foundations

/-- A call without a deadline that uses other connections only, and opens none. -/
def SysCall.Apart (fd : Nat) : SysCall → Prop
  | .connect _ => False
  | .writeAll other _ => other ≠ fd
  | .readExact other _ => other ≠ fd
  | .shutdown other => other ≠ fd
  | .within _ _ => False
  | _ => True

/-- A read of a connection. -/
def SysCall.ReadsFrom (fd : Nat) (call : SysCall) : Prop := ∃ count, call = .readExact fd count

namespace World

variable {τ : Type} {mark : τ} {w w' : World τ} {fd : Nat} {change : Conn τ → Conn τ}

theorem pathExists_onConn (path : String) :
    (w.onConn fd change).pathExists path =
        ((w.pathExists path).1, (w.pathExists path).2.onConn fd change) ∧
      (w.pathExists path).2.conns = w.conns := by
  rcases next : w.attempts path with _ | ⟨first, rest⟩
  · simp only [pathExists, attempts_onConn, next, and_self]
  · cases first with
    | missing =>
        simp only [pathExists, attempts_onConn, next]
        exact ⟨rfl, rfl⟩
    | _ => simp only [pathExists, attempts_onConn, next, and_self]

theorem openFile_onConn (path : String) :
    (w.onConn fd change).openFile path =
        ((w.openFile path).1, (w.openFile path).2.onConn fd change) ∧
      (w.openFile path).2.conns = w.conns := by
  have same : (w.onConn fd change).files path = w.files path := rfl
  cases file : w.files path with
  | error e => simp only [openFile, same, file, and_self]
  | ok contents =>
      simp only [openFile, same, file, and_true]
      rfl

theorem readFrom_onConn (reader capacity : Nat) :
    (w.onConn fd change).readFrom reader capacity =
        ((w.readFrom reader capacity).1, (w.readFrom reader capacity).2.onConn fd change) ∧
      (w.readFrom reader capacity).2.conns = w.conns := by
  rcases contents : w.readers reader with _ | ⟨first, rest⟩
  · simp only [readFrom, readers_onConn, contents, and_self]
  · cases first with
    | data bytes =>
        simp only [readFrom, readers_onConn, contents, and_true]
        rfl
    | error e =>
        simp only [readFrom, readers_onConn, contents, and_true]
        rfl

theorem output_onConn :
    (w.onConn fd change).output = (w.output.1, w.output.2.onConn fd change) ∧
      w.output.2.conns = w.conns := by
  have same : (w.onConn fd change).outputs = w.outputs := rfl
  cases next : w.outputs with
  | nil => simp only [output, same, next, and_self]
  | cons answer rest =>
      simp only [output, same, next, and_true]
      rfl

/-- Changes of different connections can be made in either order. -/
theorem onConn_comm {other : Nat} (distinct : other ≠ fd) (change' : Conn τ → Conn τ) :
    (w.onConn fd change).onConn other change' = (w.onConn other change').onConn fd change := by
  rw [onConn, onConn, onConn, onConn]
  simp only [Function.update_of_ne distinct, Function.update_of_ne distinct.symm]
  rw [Function.update_comm distinct.symm]

/-- What a call does on one connection, after a change on another one, it does before
that change. -/
theorem conns_other {other : Nat} (distinct : other ≠ fd) :
    (w.onConn fd change).conns other = w.conns other :=
  w.conns_onConn_other change distinct

/-- **A call that is apart from a connection** answers as if nothing had changed there,
and it changes nothing there. -/
theorem answers_onConn {call : SysCall} (apart : call.Apart fd) {r : call.Answer}
    (answered : Answers mark call (w.onConn fd change) r w') :
    ∃ w₁, Answers mark call w r w₁ ∧ w₁.conns fd = w.conns fd ∧ w' = w₁.onConn fd change := by
  cases call with
  | pathExists path =>
      obtain ⟨moved, same⟩ := w.pathExists_onConn path
      obtain ⟨rfl, rfl⟩ := Prod.mk.inj (answered.trans moved)
      exact ⟨_, rfl, congrFun same fd, rfl⟩
  | connect path => exact apart.elim
  | writeAll other bytes =>
      change other ≠ fd at apart
      have open_ : ((w.onConn fd change).conns other).closed = (w.conns other).closed := by
        rw [w.conns_other apart]
      rcases answered with ⟨rfl, writable, rfl⟩ | ⟨e, part, rfl, written, unsent, rfl⟩
      · refine ⟨w.send mark other bytes, .inl ⟨rfl, open_ ▸ writable, rfl⟩, ?_, ?_⟩
        · exact w.conns_other apart.symm
        · exact w.onConn_comm apart _
      · refine ⟨w.send mark other part, .inr ⟨e, part, rfl, written, open_ ▸ unsent, rfl⟩, ?_, ?_⟩
        · exact w.conns_other apart.symm
        · exact w.onConn_comm apart _
  | readExact other count =>
      change other ≠ fd at apart
      have same : (w.onConn fd change).conns other = w.conns other := w.conns_other apart
      rcases answered with ⟨bytes, rfl, read, full, rfl⟩ | ⟨e, part, rfl, read, short, rfl⟩
      · rw [same] at read
        refine ⟨w.record other ⟨bytes, true⟩, .inl ⟨bytes, rfl, read, full, rfl⟩, ?_, ?_⟩
        · exact w.conns_other apart.symm
        · exact w.onConn_comm apart _
      · rw [same] at read
        refine ⟨w.record other ⟨part, false⟩, .inr ⟨e, part, rfl, read, short, rfl⟩, ?_, ?_⟩
        · exact w.conns_other apart.symm
        · exact w.onConn_comm apart _
  | shutdown other =>
      change other ≠ fd at apart
      rcases answered with ⟨rfl, rfl⟩ | ⟨e, rfl, rfl⟩
      · exact ⟨w.close other, .inl ⟨rfl, rfl⟩, w.conns_other apart.symm, w.onConn_comm apart _⟩
      · exact ⟨w, .inr ⟨e, rfl, rfl⟩, rfl, rfl⟩
  | openFile path =>
      obtain ⟨moved, same⟩ := w.openFile_onConn path
      obtain ⟨rfl, rfl⟩ := Prod.mk.inj (answered.trans moved)
      exact ⟨_, rfl, congrFun same fd, rfl⟩
  | read reader capacity =>
      obtain ⟨moved, same⟩ := w.readFrom_onConn reader capacity
      obtain ⟨rfl, rfl⟩ := Prod.mk.inj (answered.trans moved)
      exact ⟨_, rfl, congrFun same fd, rfl⟩
  | output program arguments =>
      obtain ⟨moved, same⟩ := w.output_onConn
      obtain ⟨rfl, rfl⟩ := Prod.mk.inj (answered.trans moved)
      exact ⟨_, rfl, congrFun same fd, rfl⟩
  | print line =>
      obtain rfl := answered
      exact ⟨_, rfl, rfl, rfl⟩
  | within deadline call => exact apart.elim

/-- **A read of a connection commutes** with every later call that is apart from it. -/
theorem commute_reads {earlier later : SysCall} (reads : earlier.ReadsFrom fd)
    (apart : later.Apart fd) : Commute (device mark) earlier later := by
  obtain ⟨count, rfl⟩ := reads
  intro w w₁ w₂ r r' read answered
  rcases read with ⟨bytes, rfl, read, full, rfl⟩ | ⟨e, part, rfl, read, short, rfl⟩
  · obtain ⟨w', first, same, rfl⟩ := answers_onConn apart answered
    rw [← same] at read
    exact ⟨w', first, .inl ⟨bytes, rfl, read, full, rfl⟩⟩
  · obtain ⟨w', first, same, rfl⟩ := answers_onConn apart answered
    rw [← same] at read
    exact ⟨w', first, .inr ⟨e, part, rfl, read, short, rfl⟩⟩

/-! ## On sockets without failures of their own -/

/-- A call that is apart from a connection is answered, as if nothing had changed there. -/
theorem serve_onConn {call : SysCall} (apart : call.Apart fd) (w : World τ)
    (change : Conn τ → Conn τ) :
    ∃ r w₁, serve mark call w = some (r, w₁) ∧
      serve mark call (w.onConn fd change) = some (r, w₁.onConn fd change) ∧
      w₁.conns fd = w.conns fd := by
  cases call with
  | pathExists path =>
      obtain ⟨moved, same⟩ := @w.pathExists_onConn τ fd change path
      exact ⟨_, _, rfl, congrArg some moved, congrFun same fd⟩
  | connect path => exact apart.elim
  | writeAll other bytes =>
      change other ≠ fd at apart
      have same : (w.onConn fd change).conns other = w.conns other := w.conns_other apart
      simp only [serve, same]
      cases (w.conns other).closed with
      | true => exact ⟨_, _, rfl, rfl, rfl⟩
      | false =>
          refine ⟨_, _, rfl, ?_, w.conns_other apart.symm⟩
          exact congrArg (fun w => some (_, w)) (w.onConn_comm apart _)
  | readExact other count =>
      change other ≠ fd at apart
      have same : (w.onConn fd change).conns other = w.conns other := w.conns_other apart
      refine ⟨_, _, serve_readExact mark w other count, ?_, w.conns_other apart.symm⟩
      rw [serve_readExact, pulled, same]
      exact congrArg (fun w => some (_, w)) (w.onConn_comm apart _)
  | shutdown other =>
      change other ≠ fd at apart
      refine ⟨_, _, rfl, ?_, w.conns_other apart.symm⟩
      exact congrArg (fun w => some (_, w)) (w.onConn_comm apart _)
  | openFile path =>
      obtain ⟨moved, same⟩ := @w.openFile_onConn τ fd change path
      exact ⟨_, _, rfl, congrArg some moved, congrFun same fd⟩
  | read reader capacity =>
      obtain ⟨moved, same⟩ := @w.readFrom_onConn τ fd change reader capacity
      exact ⟨_, _, rfl, congrArg some moved, congrFun same fd⟩
  | output program arguments =>
      obtain ⟨moved, same⟩ := @w.output_onConn τ fd change
      exact ⟨_, _, rfl, congrArg some moved, congrFun same fd⟩
  | print line => exact ⟨_, _, rfl, rfl, rfl⟩
  | within deadline call => exact apart.elim

/-- Calls that are apart from a connection and reads of it can be joined. -/
theorem joinable_reads (mark : τ) (fd : Nat) :
    Joinable (I := system) (serve mark) (SysCall.Apart fd) (SysCall.ReadsFrom fd) where
  independent := by
    rintro call _ apart ⟨count, rfl⟩ w
    obtain ⟨r, w₁, alone, after, same⟩ :=
      @serve_onConn τ mark fd call apart w fun c => c.pull count
    refine ⟨r, w₁, _, _, _, alone, serve_readExact mark w fd count, ?_, after⟩
    rw [serve_readExact, pulled, same]
    rfl
  answers := by
    intro call apart w
    obtain ⟨r, w₁, alone, _⟩ := @serve_onConn τ mark fd call apart w id
    rw [alone]
    exact Option.some_ne_none _
  answers' := by
    rintro _ ⟨count, rfl⟩ w
    rw [serve_readExact]
    exact Option.some_ne_none _
  abandons := by
    intro call apart w
    obtain ⟨r, w₁, alone, _⟩ := @serve_onConn τ mark fd call apart w id
    refine ⟨(some r, w₁), ?_⟩
    show serve mark (.within 0 call) w = _
    rw [serve, alone]
  abandons' := by
    rintro _ ⟨count, rfl⟩ w
    refine ⟨(some (w.pulled fd count), w.pull fd count), ?_⟩
    show serve mark (.within 0 _) w = _
    rw [serve, serve_readExact]

/-! ## What calls guarantee -/

/-- A change of a connection that changes nothing. -/
theorem onConn_self (w : World τ) (fd : Nat) : w.onConn fd (fun _ => w.conns fd) = w := by
  rw [onConn, Function.update_eq_self]

theorem timely : (device mark).Timely where
  answers := by
    intro deadline c w r w' answered
    change Option c.Answer at r
    cases r with
    | some answer => exact .inl ⟨answer, answered⟩
    | none => exact .inr answered
  drops dropped := dropped

/-- A call does what each of its changes does. -/
theorem guarantees_of_changed {does : World τ → World τ → Prop} {call : SysCall}
    (changes : ∀ w w', Changed mark w call w' → does w w') :
    Guarantees (device mark) does call := by
  intro w w'
  constructor
  · rintro ⟨r, answered⟩
    exact changes w w' (changed_answers answered)
  · intro dropped
    exact changes w w' (changed_drops dropped)

/-- A call that is apart from a connection leaves it as it is. -/
theorem apart_guarantees {call : SysCall} (apart : call.Apart fd) :
    Guarantees (device mark) (fun w w' => w'.conns fd = w.conns fd) call := by
  refine guarantees_of_changed ?_
  intro w w' changed
  cases changed with
  | tried path => exact apart.elim
  | accepted next => exact apart.elim
  | within deadline changed => exact apart.elim
  | wrote other inside => exact conns_onConn_other _ _ (Ne.symm apart)
  | took other count inside => exact conns_onConn_other _ _ (Ne.symm apart)
  | shut other => exact conns_onConn_other _ _ (Ne.symm apart)
  | opened path =>
      rw [openFile]
      split <;> rfl
  | read reader capacity =>
      rw [readFrom]
      split <;> rfl
  | ran program arguments => rw [snd_output]
  | _ => rfl

/-- A read of a connection is recorded there, and nothing else happens. -/
theorem reads_guarantee {call : SysCall} (reads : call.ReadsFrom fd) :
    Guarantees (device mark) (fun w w' => ∃ stretch, w' = w.record fd stretch) call := by
  obtain ⟨count, rfl⟩ := reads
  intro w w'
  constructor
  · rintro ⟨r, ⟨bytes, _, _, _, rfl⟩ | ⟨e, part, _, _, _, rfl⟩⟩
    · exact ⟨_, rfl⟩
    · exact ⟨_, rfl⟩
  · rintro ⟨part, _, _, rfl⟩
    exact ⟨_, rfl⟩

/-- The lines printed and what readers and files have to give are as before. -/
structure Undisturbed (w w' : World τ) : Prop where
  printed : w'.printed = w.printed
  readers : w'.readers = w.readers
  files : w'.files = w.files

theorem Undisturbed.refl (w : World τ) : Undisturbed w w := ⟨rfl, rfl, rfl⟩

theorem Undisturbed.trans {w₁ : World τ} (first : Undisturbed w w₁) (second : Undisturbed w₁ w') :
    Undisturbed w w' where
  printed := second.printed.trans first.printed
  readers := second.readers.trans first.readers
  files := second.files.trans first.files

end World

/-- A call that prints nothing, and neither reads nor opens an image. -/
def SysCall.Quiet : SysCall → Prop
  | .openFile _ => False
  | .read _ _ => False
  | .print _ => False
  | .within _ call => call.Quiet
  | _ => True

theorem World.quiet_guarantees {τ : Type} {mark : τ} {call : SysCall} (quiet : call.Quiet) :
    Guarantees (World.device mark) World.Undisturbed call := by
  refine World.guarantees_of_changed ?_
  intro w w' changed
  induction changed with
  | opened path => exact quiet.elim
  | read reader capacity => exact quiet.elim
  | printed line => exact quiet.elim
  | within deadline changed ih => exact ih quiet
  | ran program arguments =>
      rw [World.snd_output]
      exact ⟨rfl, rfl, rfl⟩
  | _ => exact ⟨rfl, rfl, rfl⟩

end Foundations
