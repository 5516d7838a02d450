import Mathlib.Logic.Function.Basic
import Mathlib.Tactic.Common

/-!
# Asynchronous programs

An asynchronous program has state of its own and calls its environment. Every
call is a point at which the program waits, and at which it can be dropped: it
then never goes on, and whatever part of the call has taken effect stays. A
program ends with a value or with an error, or it is dropped.

A `Device` says what the environment may do with a call: answer it, or leave it
unfinished. `Exec` is the set of executions of a program on a device, given by
recursion on the program, so that it computes on every program written out.
Sequencing is `exec_bind`: an execution of `m >>= f` is an execution of `m`
followed by one of `f`, unless `m` failed or was dropped.

A deterministic environment is a handler, and `run` is the execution on it. It
is an execution on every device that may act as the handler does (`exec_run`).

`attempt` turns an error into a value, and `timeout` bounds every call of a
program by a deadline, after which the call is dropped.
-/

set_option autoImplicit false

namespace Foundations

/-- Calls to an environment, each with the type of its answers. A call can be
made with a deadline, and is then answered in time or not at all. -/
structure Interface where
  Call : Type
  Answer : Call → Type
  within : Nat → Call → Call
  timely : {deadline : Nat} → {c : Call} → Answer (within deadline c) → Option (Answer c)

/-- How the execution of a program ends. -/
inductive Outcome (ε α : Type) where
  | ok (a : α)
  | err (e : ε)
  | dropped
  deriving DecidableEq, Repr

/-- An asynchronous program with errors in `ε` and state in `σ`. A `pending`
program waits for something that never comes. -/
inductive Async (I : Interface) (ε σ α : Type) : Type where
  | ret (a : α)
  | fail (e : ε)
  | get (k : σ → Async I ε σ α)
  | set (s : σ) (k : Async I ε σ α)
  | call (c : I.Call) (k : I.Answer c → Async I ε σ α)
  | pending

variable {I : Interface} {ε σ ω α β : Type}

namespace Async

/-! ## The monad -/

/-- Run `m`, then the program `f` gives for its value. -/
def bind : Async I ε σ α → (α → Async I ε σ β) → Async I ε σ β
  | .ret a, f => f a
  | .fail e, _ => .fail e
  | .get k, f => .get fun s => (k s).bind f
  | .set s k, f => .set s (k.bind f)
  | .call c k, f => .call c fun r => (k r).bind f
  | .pending, _ => .pending

instance : Monad (Async I ε σ) where
  pure := .ret
  bind := bind

instance : MonadStateOf σ (Async I ε σ) where
  get := .get .ret
  set s := .set s (.ret ())
  modifyGet f := .get fun s => .set (f s).2 (.ret (f s).1)

/-- End with an error. -/
def throw (e : ε) : Async I ε σ α := .fail e

/-- Turn an error of a program into a value. -/
def attempt : Async I ε σ α → Async I ε σ (Except ε α)
  | .ret a => .ret (.ok a)
  | .fail e => .ret (.error e)
  | .get k => .get fun s => (k s).attempt
  | .set s k => .set s k.attempt
  | .call c k => .call c fun r => (k r).attempt
  | .pending => .pending

/-- Bound the calls of a program by a deadline. The value is `none` when a call
was not answered in time. -/
def timeout (deadline : Nat) : Async I ε σ α → Async I ε σ (Option α)
  | .ret a => .ret (some a)
  | .fail e => .fail e
  | .get k => .get fun s => (k s).timeout deadline
  | .set s k => .set s (k.timeout deadline)
  | .call c k => .call (I.within deadline c) fun r =>
      match I.timely r with
      | some answer => (k answer).timeout deadline
      | none => .ret none
  | .pending => .pending

@[simp] theorem pure_eq (a : α) : (pure a : Async I ε σ α) = .ret a := rfl

@[simp] theorem ret_bind (a : α) (f : α → Async I ε σ β) : (Async.ret a >>= f) = f a := rfl

theorem bind_assoc' (m : Async I ε σ α) {γ : Type} (f : α → Async I ε σ β)
    (g : β → Async I ε σ γ) : (m.bind f).bind g = m.bind fun a => (f a).bind g := by
  induction m with
  | ret a => rfl
  | fail e => rfl
  | get k ih => simp only [bind, ih]
  | set s k ih => simp only [bind, ih]
  | call c k ih => simp only [bind, ih]
  | pending => rfl

theorem bind_ret (m : Async I ε σ α) : m.bind .ret = m := by
  induction m with
  | ret a => rfl
  | fail e => rfl
  | get k ih => simp only [bind, ih]
  | set s k ih => simp only [bind, ih]
  | call c k ih => simp only [bind, ih]
  | pending => rfl

instance : LawfulMonad (Async I ε σ) :=
  LawfulMonad.mk' (Async I ε σ) bind_ret (fun _ _ => rfl) fun m f g => bind_assoc' m f g

end Async

theorem timeout_get_bind (deadline : Nat) (f : σ → Async I ε σ α) :
    Async.timeout deadline (get >>= f) = get >>= fun s => (f s).timeout deadline := rfl

/-! ## Executions -/

/-- What an environment with states in `ω` may do with a call: answer it, or
leave it unfinished when the program is dropped. -/
structure Device (I : Interface) (ω : Type) where
  answers : (c : I.Call) → ω → I.Answer c → ω → Prop
  drops : I.Call → ω → ω → Prop

/-- The state of a program and the state of its environment. -/
structure Config (σ ω : Type) where
  own : σ
  world : ω

/-- The program, started in the first configuration, can end with the outcome
in the second one. -/
def Exec (D : Device I ω) :
    Async I ε σ α → Config σ ω → Outcome ε α → Config σ ω → Prop
  | .ret a, c, o, c' => o = .ok a ∧ c' = c
  | .fail e, c, o, c' => o = .err e ∧ c' = c
  | .get k, c, o, c' => Exec D (k c.own) c o c'
  | .set s k, c, o, c' => Exec D k ⟨s, c.world⟩ o c'
  | .call q k, c, o, c' =>
      (∃ r w, D.answers q c.world r w ∧ Exec D (k r) ⟨c.own, w⟩ o c') ∨
        (∃ w, D.drops q c.world w ∧ o = .dropped ∧ c' = ⟨c.own, w⟩)
  | .pending, c, o, c' => o = .dropped ∧ c' = c

section Exec

variable {D : Device I ω} {c c' : Config σ ω}

@[simp] theorem exec_ret {a : α} {o : Outcome ε α} :
    Exec D (.ret a) c o c' ↔ o = .ok a ∧ c' = c := Iff.rfl

@[simp] theorem exec_throw {e : ε} {o : Outcome ε α} :
    Exec D (Async.throw e) c o c' ↔ o = .err e ∧ c' = c := Iff.rfl

@[simp] theorem exec_get_bind {f : σ → Async I ε σ α} {o : Outcome ε α} :
    Exec D (get >>= f) c o c' ↔ Exec D (f c.own) c o c' := Iff.rfl

@[simp] theorem exec_set_bind {s : σ} {f : PUnit → Async I ε σ α} {o : Outcome ε α} :
    Exec D (set s >>= f) c o c' ↔ Exec D (f ()) ⟨s, c.world⟩ o c' := Iff.rfl

/-- **Sequencing.** The first program returns and the second goes on from
there, or the first one fails or is dropped. -/
theorem exec_bind {m : Async I ε σ α} {f : α → Async I ε σ β} {o : Outcome ε β} :
    Exec D (m >>= f) c o c' ↔
      (∃ a c₁, Exec D m c (.ok a) c₁ ∧ Exec D (f a) c₁ o c') ∨
        (∃ e, o = .err e ∧ Exec D m c (.err e) c') ∨ (o = .dropped ∧ Exec D m c .dropped c') := by
  show Exec D (m.bind f) c o c' ↔ _
  induction m generalizing c with
  | ret a => simp [Async.bind, Exec]
  | fail e => simp [Async.bind, Exec, eq_comm, and_comm]
  | get k ih => exact ih c.own
  | set s k ih => exact ih
  | call q k ih =>
      simp only [Async.bind, Exec, ih]
      constructor
      · rintro (⟨r, w, answered, ⟨a, c₁, first, second⟩ | ⟨e, rfl, first⟩ | ⟨rfl, first⟩⟩ |
          ⟨w, left, rfl, rfl⟩)
        · exact .inl ⟨a, c₁, .inl ⟨r, w, answered, first⟩, second⟩
        · exact .inr (.inl ⟨e, rfl, .inl ⟨r, w, answered, first⟩⟩)
        · exact .inr (.inr ⟨rfl, .inl ⟨r, w, answered, first⟩⟩)
        · exact .inr (.inr ⟨rfl, .inr ⟨w, left, trivial, rfl⟩⟩)
      · rintro (⟨a, c₁, ⟨r, w, answered, first⟩ | ⟨_, _, impossible, _⟩, second⟩ |
          ⟨e, rfl, ⟨r, w, answered, first⟩ | ⟨_, _, impossible, _⟩⟩ |
          ⟨rfl, ⟨r, w, answered, first⟩ | ⟨w, left, _, rfl⟩⟩)
        · exact .inl ⟨r, w, answered, .inl ⟨a, c₁, first, second⟩⟩
        · cases impossible
        · exact .inl ⟨r, w, answered, .inr (.inl ⟨e, rfl, first⟩)⟩
        · cases impossible
        · exact .inl ⟨r, w, answered, .inr (.inr ⟨rfl, first⟩)⟩
        · exact .inr ⟨w, left, rfl, rfl⟩
  | pending => simp [Async.bind, Exec]

/-- A sequence that returns is a program that returned and one that returned after
it. -/
theorem exec_bind_ok {m : Async I ε σ α} {f : α → Async I ε σ β} {b : β}
    (exec : Exec D (m >>= f) c (.ok b) c') :
    ∃ a c₁, Exec D m c (.ok a) c₁ ∧ Exec D (f a) c₁ (.ok b) c' := by
  rcases exec_bind.mp exec with returned | ⟨e, ⟨⟩, _⟩ | ⟨⟨⟩, _⟩
  exact returned

/-- An attempted program ends as the program does, with its error for a
value. -/
theorem exec_attempt {m : Async I ε σ α} {o : Outcome ε (Except ε α)} :
    Exec D m.attempt c o c' ↔
      (∃ a, o = .ok (.ok a) ∧ Exec D m c (.ok a) c') ∨
        (∃ e, o = .ok (.error e) ∧ Exec D m c (.err e) c') ∨
          (o = .dropped ∧ Exec D m c .dropped c') := by
  induction m generalizing c with
  | ret a => simp [Async.attempt, Exec, eq_comm, and_comm]
  | fail e => simp [Async.attempt, Exec, eq_comm, and_comm]
  | get k ih => exact ih c.own
  | set s k ih => exact ih
  | call q k ih =>
      simp only [Async.attempt, Exec, ih]
      constructor
      · rintro (⟨r, w, answered, ⟨a, rfl, rest⟩ | ⟨e, rfl, rest⟩ | ⟨rfl, rest⟩⟩ |
          ⟨w, left, rfl, rfl⟩)
        · exact .inl ⟨a, rfl, .inl ⟨r, w, answered, rest⟩⟩
        · exact .inr (.inl ⟨e, rfl, .inl ⟨r, w, answered, rest⟩⟩)
        · exact .inr (.inr ⟨rfl, .inl ⟨r, w, answered, rest⟩⟩)
        · exact .inr (.inr ⟨rfl, .inr ⟨w, left, trivial, rfl⟩⟩)
      · rintro (⟨a, rfl, ⟨r, w, answered, rest⟩ | ⟨_, _, impossible, _⟩⟩ |
          ⟨e, rfl, ⟨r, w, answered, rest⟩ | ⟨_, _, impossible, _⟩⟩ |
          ⟨rfl, ⟨r, w, answered, rest⟩ | ⟨w, left, _, rfl⟩⟩)
        · exact .inl ⟨r, w, answered, .inl ⟨a, rfl, rest⟩⟩
        · cases impossible
        · exact .inl ⟨r, w, answered, .inr (.inl ⟨e, rfl, rest⟩)⟩
        · cases impossible
        · exact .inl ⟨r, w, answered, .inr (.inr ⟨rfl, rest⟩)⟩
        · exact .inr ⟨w, left, rfl, rfl⟩
  | pending => simp [Async.attempt, Exec]

/-- What every call keeps of the environment, an execution keeps. -/
theorem exec_keeps {kept : ω → Prop} (answers : ∀ q w r w', D.answers q w r w' → kept w → kept w')
    (drops : ∀ q w w', D.drops q w w' → kept w → kept w') {m : Async I ε σ α} {o : Outcome ε α}
    (exec : Exec D m c o c') (first : kept c.world) : kept c'.world := by
  induction m generalizing c with
  | ret a =>
      obtain ⟨_, rfl⟩ := exec
      exact first
  | fail e =>
      obtain ⟨_, rfl⟩ := exec
      exact first
  | get k ih => exact ih c.own exec first
  | set s k ih => exact ih exec first
  | call q k ih =>
      rcases exec with ⟨r, w, answered, rest⟩ | ⟨w, dropped, _, rfl⟩
      · exact ih r rest (answers q _ r w answered first)
      · exact drops q _ w dropped first
  | pending =>
      obtain ⟨_, rfl⟩ := exec
      exact first

end Exec

/-! ## Deterministic environments -/

/-- A deterministic environment: it answers a call, or never does. -/
abbrev Handler (I : Interface) (ω : Type) := (c : I.Call) → ω → Option (I.Answer c × ω)

/-- The execution of a program on a handler. -/
def run (h : Handler I ω) : Async I ε σ α → Config σ ω → Outcome ε α × Config σ ω
  | .ret a, c => (.ok a, c)
  | .fail e, c => (.err e, c)
  | .get k, c => run h (k c.own) c
  | .set s k, c => run h k ⟨s, c.world⟩
  | .call q k, c =>
      match h q c.world with
      | some (r, w) => run h (k r) ⟨c.own, w⟩
      | none => (.dropped, c)
  | .pending, c => (.dropped, c)

section Run

variable {h : Handler I ω}

@[simp] theorem run_ret (a : α) (c : Config σ ω) :
    run h (.ret a : Async I ε σ α) c = (.ok a, c) := rfl

@[simp] theorem run_get_bind (f : σ → Async I ε σ α) (c : Config σ ω) :
    run h (get >>= f) c = run h (f c.own) c := rfl

@[simp] theorem run_set_bind (s : σ) (f : PUnit → Async I ε σ α) (c : Config σ ω) :
    run h (set s >>= f) c = run h (f ()) ⟨s, c.world⟩ := rfl

/-- Running a sequence goes on where the first program returned. -/
theorem run_bind (m : Async I ε σ α) (f : α → Async I ε σ β) (c : Config σ ω) :
    run h (m >>= f) c =
      match run h m c with
      | (.ok a, c₁) => run h (f a) c₁
      | (.err e, c₁) => (.err e, c₁)
      | (.dropped, c₁) => (.dropped, c₁) := by
  show run h (m.bind f) c = _
  induction m generalizing c with
  | ret a => rfl
  | fail e => rfl
  | get k ih => exact ih c.own c
  | set s k ih => exact ih _
  | call q k ih =>
      simp only [Async.bind, run]
      cases h q c.world with
      | none => rfl
      | some answer => exact ih answer.1 _
  | pending => rfl

theorem run_bind_ok {m : Async I ε σ α} {f : α → Async I ε σ β} {c c₁ : Config σ ω} {a : α}
    (first : run h m c = (.ok a, c₁)) : run h (m >>= f) c = run h (f a) c₁ := by
  rw [run_bind, first]

theorem run_bind_err {m : Async I ε σ α} {f : α → Async I ε σ β} {c c₁ : Config σ ω} {e : ε}
    (first : run h m c = (.err e, c₁)) : run h (m >>= f) c = (.err e, c₁) := by
  rw [run_bind, first]

theorem run_bind_returned {m : Async I ε σ α} {f : α → Async I ε σ β} {c c' : Config σ ω} {b : β}
    (ran : run h (m >>= f) c = (.ok b, c')) :
    ∃ a c₁, run h m c = (.ok a, c₁) ∧ run h (f a) c₁ = (.ok b, c') := by
  rw [run_bind] at ran
  rcases first : run h m c with ⟨_ | _ | _, c₁⟩
  · rw [first] at ran
    exact ⟨_, c₁, rfl, ran⟩
  · rw [first] at ran
    cases ran
  · rw [first] at ran
    cases ran

theorem run_attempt (m : Async I ε σ α) (c : Config σ ω) :
    run h m.attempt c =
      match run h m c with
      | (.ok a, c₁) => (.ok (.ok a), c₁)
      | (.err e, c₁) => (.ok (.error e), c₁)
      | (.dropped, c₁) => (.dropped, c₁) := by
  induction m generalizing c with
  | ret a => rfl
  | fail e => rfl
  | get k ih => exact ih c.own c
  | set s k ih => exact ih _
  | call q k ih =>
      simp only [Async.attempt, run]
      cases h q c.world with
      | none => rfl
      | some answer => exact ih answer.1 _
  | pending => rfl

/-- **A run is an execution** on every device that may do what the handler
does. -/
theorem exec_run {D : Device I ω}
    (answered : ∀ q w r w', h q w = some (r, w') → D.answers q w r w')
    (unanswered : ∀ q w, h q w = none → D.drops q w w) (m : Async I ε σ α) (c : Config σ ω) :
    Exec D m c (run h m c).1 (run h m c).2 := by
  induction m generalizing c with
  | ret a => exact ⟨rfl, rfl⟩
  | fail e => exact ⟨rfl, rfl⟩
  | get k ih => exact ih c.own c
  | set s k ih => exact ih _
  | call q k ih =>
      simp only [Exec, run]
      cases result : h q c.world with
      | none => exact .inr ⟨c.world, unanswered q _ result, rfl, rfl⟩
      | some answer => exact .inl ⟨answer.1, answer.2, answered q _ _ _ result, ih answer.1 _⟩
  | pending => exact ⟨rfl, rfl⟩

end Run

/-! ## Programs that terminate -/

/-- A program terminates when it returns or fails. Otherwise it waits for ever. -/
def Terminates (h : Handler I ω) (m : Async I ε σ α) (c : Config σ ω) : Prop :=
  (run h m c).1 ≠ .dropped

namespace Terminates

variable {h : Handler I ω} {m : Async I ε σ α} {c : Config σ ω}

theorem of_ok {a : α} {c' : Config σ ω} (ran : run h m c = (.ok a, c')) : Terminates h m c := by
  rw [Terminates, ran]
  rintro ⟨⟩

theorem of_err {e : ε} {c' : Config σ ω} (ran : run h m c = (.err e, c')) :
    Terminates h m c := by
  rw [Terminates, ran]
  rintro ⟨⟩

theorem ret (a : α) : Terminates h (.ret a : Async I ε σ α) c := of_ok rfl

theorem fail (e : ε) : Terminates h (.fail e : Async I ε σ α) c := of_err rfl

theorem get : Terminates h (MonadStateOf.get : Async I ε σ σ) c := of_ok rfl

theorem set (s : σ) : Terminates h (MonadStateOf.set s : Async I ε σ PUnit) c := of_ok rfl

/-- A call that is answered terminates when what comes after it does. -/
theorem call {q : I.Call} {k : I.Answer q → Async I ε σ α} (answers : h q c.world ≠ none)
    (rest : ∀ r w, h q c.world = some (r, w) → Terminates h (k r) ⟨c.own, w⟩) :
    Terminates h (.call q k) c := by
  rw [Terminates, run]
  cases answer : h q c.world with
  | none => exact absurd answer answers
  | some answered => exact rest _ _ answer

/-- **Sequencing.** A sequence terminates when its first part does, and its second part
wherever the first one returns. -/
theorem bind {f : α → Async I ε σ β} (first : Terminates h m c)
    (rest : ∀ a c', run h m c = (.ok a, c') → Terminates h (f a) c') :
    Terminates h (m >>= f) c := by
  rw [Terminates, run_bind]
  rcases ran : run h m c with ⟨_ | _ | _, c₁⟩
  · exact rest _ _ ran
  · rintro ⟨⟩
  · exact absurd (congrArg Prod.fst ran) first

/-- The first part of a sequence that terminates does. -/
theorem of_bind {f : α → Async I ε σ β} (both : Terminates h (m >>= f) c) :
    Terminates h m c := by
  intro never
  rcases ran : run h m c with ⟨o, c₁⟩
  obtain rfl : o = .dropped := (congrArg Prod.fst ran).symm.trans never
  rw [Terminates, run_bind, ran] at both
  exact both rfl

end Terminates

end Foundations
