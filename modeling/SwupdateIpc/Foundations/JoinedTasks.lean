import SwupdateIpc.Foundations.AsyncPrograms

/-!
# Joined tasks

Two programs, each with state of its own, are joined on one environment. A schedule
says which of them goes on next, by one access to its state or by one call. The join
returns when both have returned. When one of them fails, the join fails at once with
its error, and the call that the other one waits for is given up (`tryJoin`).

Two calls commute when the later one can be made first, with the same answers
(`Commute`). When every call of the first program commutes with every call of the
second, a join that returns has done what the first program does and then what the
second one does (`exec_tryJoin_ok`). What the two do one after the other, the join
does on some schedule (`run_tryJoin`).
-/

set_option autoImplicit false

namespace Foundations

variable {I : Interface} {ε σ ρ ω α β γ : Type}

/-- Which of two joined programs goes on. -/
inductive Turn where
  | first
  | second
  deriving DecidableEq, Repr

namespace Async

/-! ## Programs on a pair of states -/

/-- The first thing a program does, on the first of two states, and then what `next`
gives for the rest of the program. -/
def stepFirst : Async I ε σ α → (Async I ε σ α → Async I ε (σ × ρ) γ) → Async I ε (σ × ρ) γ
  | .get k, next => .get fun s => next (k s.1)
  | .set s k, next => .get fun both => .set (s, both.2) (next k)
  | .call c k, next => .call c fun r => next (k r)
  | ended, next => next ended

/-- The first thing a program does, on the second of two states, and then what `next`
gives for the rest of the program. -/
def stepSecond : Async I ε ρ α → (Async I ε ρ α → Async I ε (σ × ρ) γ) → Async I ε (σ × ρ) γ
  | .get k, next => .get fun s => next (k s.2)
  | .set s k, next => .get fun both => .set (both.1, s) (next k)
  | .call c k, next => .call c fun r => next (k r)
  | ended, next => next ended

/-- A program on the first of two states. -/
def first : Async I ε σ α → Async I ε (σ × ρ) α
  | .ret a => .ret a
  | .fail e => .fail e
  | .get k => .get fun s => (k s.1).first
  | .set s k => .get fun both => .set (s, both.2) k.first
  | .call c k => .call c fun r => (k r).first
  | .pending => .pending

/-- A program on the second of two states. -/
def second : Async I ε ρ α → Async I ε (σ × ρ) α
  | .ret a => .ret a
  | .fail e => .fail e
  | .get k => .get fun s => (k s.2).second
  | .set s k => .get fun both => .set (both.1, s) k.second
  | .call c k => .call c fun r => (k r).second
  | .pending => .pending

theorem first_bind (m : Async I ε σ α) (f : α → Async I ε σ β) :
    ((m >>= f).first : Async I ε (σ × ρ) β) = m.first >>= fun a => (f a).first := by
  show (m.bind f).first = m.first.bind fun a => (f a).first
  induction m with
  | ret a => rfl
  | fail e => rfl
  | get k ih => simp only [bind, first, ih]
  | set s k ih => simp only [bind, first, ih]
  | call c k ih => simp only [bind, first, ih]
  | pending => rfl

/-! ## Joining two programs -/

/-- Fail with an error, and give up the call that a program waits for. -/
def abandon (e : ε) : Async I ε σ α → Async I ε ρ β
  | .call c _ => .call (I.within 0 c) fun _ => .fail e
  | _ => .fail e

/-- What is settled of two joined programs, or what comes next. -/
def settle : Async I ε σ α → Async I ε ρ β → Async I ε (σ × ρ) (α × β) →
    Async I ε (σ × ρ) (α × β)
  | .ret a, .ret b, _ => .ret (a, b)
  | .fail e, q, _ => q.abandon e
  | p, .fail e, _ => p.abandon e
  | _, _, next => next

/-- Join two programs on a schedule. -/
def tryJoin : List Turn → Async I ε σ α → Async I ε ρ β → Async I ε (σ × ρ) (α × β)
  | [], p, q => settle p q .pending
  | .first :: rest, p, q => settle p q (p.stepFirst fun p' => tryJoin rest p' q)
  | .second :: rest, p, q => settle p q (q.stepSecond fun q' => tryJoin rest p q')

/-- Every call of a program, started in a state, is allowed. -/
def Calls (allowed : I.Call → Prop) : Async I ε σ α → σ → Prop
  | .ret _, _ => True
  | .fail _, _ => True
  | .get k, s => (k s).Calls allowed s
  | .set s k, _ => k.Calls allowed s
  | .call c k, s => allowed c ∧ ∀ r, (k r).Calls allowed s
  | .pending, _ => True

theorem Calls.mono {allowed allowed' : I.Call → Prop} {m : Async I ε σ α} {s : σ}
    (calls : m.Calls allowed s) (implies : ∀ c, allowed c → allowed' c) : m.Calls allowed' s := by
  induction m generalizing s with
  | ret a => trivial
  | fail e => trivial
  | get k ih => exact ih s calls
  | set t k ih => exact ih calls
  | call c k ih => exact ⟨implies c calls.1, fun r => ih r (calls.2 r)⟩
  | pending => trivial

theorem Calls.bind {allowed : I.Call → Prop} {m : Async I ε σ α} {f : α → Async I ε σ β} {s : σ}
    (calls : m.Calls allowed s) (rest : ∀ a t, (f a).Calls allowed t) :
    (m >>= f).Calls allowed s := by
  show (m.bind f).Calls allowed s
  induction m generalizing s with
  | ret a => exact rest a s
  | fail e => trivial
  | get k ih => exact ih s calls
  | set t k ih => exact ih calls
  | call c k ih => exact ⟨calls.1, fun r => ih r (calls.2 r)⟩
  | pending => trivial

/-- Whatever is answered, a program that returns does so with a value and a state as
wanted. -/
def Returns (post : α → σ → Prop) : Async I ε σ α → σ → Prop
  | .ret a, s => post a s
  | .fail _, _ => True
  | .get k, s => (k s).Returns post s
  | .set s k, _ => k.Returns post s
  | .call _ k, s => ∀ r, (k r).Returns post s
  | .pending, _ => True

theorem Returns.trivially (m : Async I ε σ α) (s : σ) : m.Returns (fun _ _ => True) s := by
  induction m generalizing s with
  | get k ih => exact ih s s
  | set t k ih => exact ih t
  | call c k ih => exact fun r => ih r s
  | _ => trivial

theorem Returns.bind {post : α → σ → Prop} {post' : β → σ → Prop} {m : Async I ε σ α}
    {f : α → Async I ε σ β} {s : σ} (returns : m.Returns post s)
    (rest : ∀ a t, post a t → (f a).Returns post' t) : (m >>= f).Returns post' s := by
  show (m.bind f).Returns post' s
  induction m generalizing s with
  | ret a => exact rest a s returns
  | fail e => trivial
  | get k ih => exact ih s returns
  | set t k ih => exact ih returns
  | call c k ih => exact fun r => ih r (returns r)
  | pending => trivial

theorem Returns.first {post : α → σ → Prop} {m : Async I ε σ α} {s : σ} {t : ρ}
    (returns : m.Returns post s) :
    (m.first : Async I ε (σ × ρ) α).Returns (fun a both => post a both.1) (s, t) := by
  induction m generalizing s with
  | ret a => exact returns
  | fail e => trivial
  | get k ih => exact ih s returns
  | set s' k ih => exact ih returns
  | call c k ih => exact fun r => ih r (returns r)
  | pending => trivial

end Async

/-! ## Executions on a pair of states -/

section Pairs

variable {D : Device I ω} {h : Handler I ω}

/-- A program on the first state is executed there. -/
theorem exec_first {m : Async I ε σ α} {c c' : Config (σ × ρ) ω} {o : Outcome ε α}
    (exec : Exec D m.first c o c') :
    Exec D m ⟨c.own.1, c.world⟩ o ⟨c'.own.1, c'.world⟩ ∧ c'.own.2 = c.own.2 := by
  induction m generalizing c with
  | get k ih => exact ih c.own.1 exec
  | set s k ih => exact @ih ⟨(s, c.own.2), c.world⟩ exec
  | call q k ih =>
      rcases exec with ⟨r, w, answered, rest⟩ | ⟨w, left, rfl, rfl⟩
      · obtain ⟨later, kept⟩ := @ih r ⟨c.own, w⟩ rest
        exact ⟨.inl ⟨r, w, answered, later⟩, kept⟩
      · exact ⟨.inr ⟨w, left, rfl, rfl⟩, rfl⟩
  | _ =>
      obtain ⟨rfl, rfl⟩ := exec
      exact ⟨⟨rfl, rfl⟩, rfl⟩

theorem exec_second {m : Async I ε ρ α} {c c' : Config (σ × ρ) ω} {o : Outcome ε α}
    (exec : Exec D m.second c o c') :
    Exec D m ⟨c.own.2, c.world⟩ o ⟨c'.own.2, c'.world⟩ ∧ c'.own.1 = c.own.1 := by
  induction m generalizing c with
  | get k ih => exact ih c.own.2 exec
  | set s k ih => exact @ih ⟨(c.own.1, s), c.world⟩ exec
  | call q k ih =>
      rcases exec with ⟨r, w, answered, rest⟩ | ⟨w, left, rfl, rfl⟩
      · obtain ⟨later, kept⟩ := @ih r ⟨c.own, w⟩ rest
        exact ⟨.inl ⟨r, w, answered, later⟩, kept⟩
      · exact ⟨.inr ⟨w, left, rfl, rfl⟩, rfl⟩
  | _ =>
      obtain ⟨rfl, rfl⟩ := exec
      exact ⟨⟨rfl, rfl⟩, rfl⟩

theorem run_first (m : Async I ε σ α) (c : Config (σ × ρ) ω) :
    run h m.first c =
      ((run h m ⟨c.own.1, c.world⟩).1,
        ⟨((run h m ⟨c.own.1, c.world⟩).2.own, c.own.2), (run h m ⟨c.own.1, c.world⟩).2.world⟩) := by
  induction m generalizing c with
  | get k ih => exact ih c.own.1 c
  | set s k ih => exact ih ⟨(s, c.own.2), c.world⟩
  | call q k ih =>
      simp only [Async.first, run]
      cases h q c.world with
      | none => rfl
      | some answer => exact ih answer.1 ⟨c.own, answer.2⟩
  | _ => rfl

theorem run_second (m : Async I ε ρ α) (c : Config (σ × ρ) ω) :
    run h m.second c =
      ((run h m ⟨c.own.2, c.world⟩).1,
        ⟨(c.own.1, (run h m ⟨c.own.2, c.world⟩).2.own), (run h m ⟨c.own.2, c.world⟩).2.world⟩) := by
  induction m generalizing c with
  | get k ih => exact ih c.own.2 c
  | set s k ih => exact ih ⟨(c.own.1, s), c.world⟩
  | call q k ih =>
      simp only [Async.second, run]
      cases h q c.world with
      | none => rfl
      | some answer => exact ih answer.1 ⟨c.own, answer.2⟩
  | _ => rfl

theorem Terminates.first {m : Async I ε σ α} {c : Config (σ × ρ) ω}
    (terminates : Terminates h m ⟨c.own.1, c.world⟩) : Terminates h m.first c := by
  rw [Terminates, run_first]
  exact terminates

theorem Terminates.second {m : Async I ε ρ α} {c : Config (σ × ρ) ω}
    (terminates : Terminates h m ⟨c.own.2, c.world⟩) : Terminates h m.second c := by
  rw [Terminates, run_second]
  exact terminates

end Pairs

/-! ## Moves -/

/-- A program does one thing, or it has ended or waits for ever. -/
inductive Move (D : Device I ω) :
    Async I ε σ α → Config σ ω → Async I ε σ α → Config σ ω → Prop where
  | stay {m : Async I ε σ α} {c : Config σ ω} : Move D m c m c
  | get {k : σ → Async I ε σ α} {c : Config σ ω} : Move D (.get k) c (k c.own) c
  | set {s : σ} {k : Async I ε σ α} {c : Config σ ω} : Move D (.set s k) c k ⟨s, c.world⟩
  | call {q : I.Call} {k : I.Answer q → Async I ε σ α} {c : Config σ ω} {r : I.Answer q} {w : ω}
      (answered : D.answers q c.world r w) : Move D (.call q k) c (k r) ⟨c.own, w⟩

section Moves

variable {D : Device I ω} {s : σ} {t : ρ} {w : ω}

theorem Move.exec {m m' : Async I ε σ α} {c c₁ c' : Config σ ω} {o : Outcome ε α}
    (move : Move D m c m' c₁) (rest : Exec D m' c₁ o c') : Exec D m c o c' := by
  cases move with
  | stay => exact rest
  | get => exact rest
  | set => exact rest
  | call answered => exact .inl ⟨_, _, answered, rest⟩

theorem Move.calls {m m' : Async I ε σ α} {c c₁ : Config σ ω} {allowed : I.Call → Prop}
    (move : Move D m c m' c₁) (calls : m.Calls allowed c.own) : m'.Calls allowed c₁.own := by
  cases move with
  | stay => exact calls
  | get => exact calls
  | set => exact calls
  | call answered => exact calls.2 _

theorem exec_stepFirst {p : Async I ε σ α} {next : Async I ε σ α → Async I ε (σ × ρ) γ} {a : γ}
    {c' : Config (σ × ρ) ω} (exec : Exec D (p.stepFirst next) ⟨(s, t), w⟩ (.ok a) c') :
    ∃ p' s₁ w₁, Move D p ⟨s, w⟩ p' ⟨s₁, w₁⟩ ∧ Exec D (next p') ⟨(s₁, t), w₁⟩ (.ok a) c' := by
  cases p with
  | get k => exact ⟨_, _, _, .get, exec⟩
  | set s' k => exact ⟨_, _, _, .set, exec⟩
  | call q k =>
      rcases exec with ⟨r, w₁, answered, rest⟩ | ⟨_, _, ⟨⟩, _⟩
      exact ⟨_, _, _, .call answered, rest⟩
  | _ => exact ⟨_, _, _, .stay, exec⟩

theorem exec_stepSecond {q : Async I ε ρ α} {next : Async I ε ρ α → Async I ε (σ × ρ) γ} {a : γ}
    {c' : Config (σ × ρ) ω} (exec : Exec D (q.stepSecond next) ⟨(s, t), w⟩ (.ok a) c') :
    ∃ q' t₁ w₁, Move D q ⟨t, w⟩ q' ⟨t₁, w₁⟩ ∧ Exec D (next q') ⟨(s, t₁), w₁⟩ (.ok a) c' := by
  cases q with
  | get k => exact ⟨_, _, _, .get, exec⟩
  | set s' k => exact ⟨_, _, _, .set, exec⟩
  | call q k =>
      rcases exec with ⟨r, w₁, answered, rest⟩ | ⟨_, _, ⟨⟩, _⟩
      exact ⟨_, _, _, .call answered, rest⟩
  | _ => exact ⟨_, _, _, .stay, exec⟩

/-! ## A join that returns -/

theorem not_exec_abandon {p : Async I ε σ α} {e : ε} {b : β} {c c' : Config ρ ω} :
    ¬ Exec D (p.abandon e) c (.ok b) c' := by
  intro exec
  cases p with
  | call q k =>
      rcases exec with ⟨_, _, _, failed⟩ | ⟨_, _, dropped⟩
      · cases failed.1
      · cases dropped.1
  | _ => cases exec.1

/-- Two programs are settled when both have returned, else the next one returns. -/
theorem exec_settle {p : Async I ε σ α} {q : Async I ε ρ β} {next : Async I ε (σ × ρ) (α × β)}
    {a : α} {b : β} {c c' : Config (σ × ρ) ω}
    (exec : Exec D (Async.settle p q next) c (.ok (a, b)) c') :
    (p = .ret a ∧ q = .ret b ∧ c' = c) ∨ Exec D next c (.ok (a, b)) c' := by
  unfold Async.settle at exec
  split at exec
  · obtain ⟨same, rfl⟩ := exec
    cases same
    exact .inl ⟨rfl, rfl, rfl⟩
  · exact absurd exec not_exec_abandon
  · exact absurd exec not_exec_abandon
  · exact .inr exec

/-- Two calls commute when the later one can be made first, with the same
answers. -/
def Commute (D : Device I ω) (earlier later : I.Call) : Prop :=
  ∀ {w w₁ w₂ r r'}, D.answers earlier w r w₁ → D.answers later w₁ r' w₂ →
    ∃ w', D.answers later w r' w' ∧ D.answers earlier w' r w₂

/-- A call made before a program that returns can be made after it. -/
theorem exec_before {allowed : I.Call → Prop} {p : Async I ε σ α} {q : I.Call} {r : I.Answer q}
    {w₁ : ω} {a : α} {c' : Config σ ω} (commute : ∀ later, allowed later → Commute D q later)
    (calls : p.Calls allowed s) (answered : D.answers q w r w₁)
    (exec : Exec D p ⟨s, w₁⟩ (.ok a) c') :
    ∃ w', Exec D p ⟨s, w⟩ (.ok a) ⟨c'.own, w'⟩ ∧ D.answers q w' r c'.world := by
  induction p generalizing s w w₁ with
  | get k ih => exact ih s calls answered exec
  | set s' k ih => exact ih calls answered exec
  | call later k ih =>
      rcases exec with ⟨r', w₂, next, rest⟩ | ⟨_, _, ⟨⟩, _⟩
      obtain ⟨w', first, then_⟩ := commute later calls.1 answered next
      obtain ⟨w'', moved, last⟩ := ih r' (calls.2 r') then_ rest
      exact ⟨w'', .inl ⟨r', w', first, moved⟩, last⟩
  | ret b =>
      obtain ⟨same, rfl⟩ := exec
      exact ⟨w, ⟨same, rfl⟩, answered⟩
  | fail e => cases exec.1
  | pending => cases exec.1

/-- **A join that returns** has done what the first program does, and then what the
second one does, when every call of the second commutes with every call of the
first. -/
theorem exec_tryJoin_ok {allowed allowed' : I.Call → Prop}
    (commute : ∀ earlier later, allowed' earlier → allowed later → Commute D earlier later)
    {schedule : List Turn} {p : Async I ε σ α} {q : Async I ε ρ β} {a : α} {b : β}
    {c' : Config (σ × ρ) ω} (calls : p.Calls allowed s) (calls' : q.Calls allowed' t)
    (exec : Exec D (Async.tryJoin schedule p q) ⟨(s, t), w⟩ (.ok (a, b)) c') :
    ∃ w₁, Exec D p ⟨s, w⟩ (.ok a) ⟨c'.own.1, w₁⟩ ∧
      Exec D q ⟨t, w₁⟩ (.ok b) ⟨c'.own.2, c'.world⟩ := by
  induction schedule generalizing p q s t w with
  | nil =>
      rcases exec_settle exec with ⟨rfl, rfl, rfl⟩ | ⟨⟨⟩, _⟩
      exact ⟨w, ⟨rfl, rfl⟩, ⟨rfl, rfl⟩⟩
  | cons turn rest ih =>
      cases turn with
      | first =>
          rcases exec_settle exec with ⟨rfl, rfl, rfl⟩ | later
          · exact ⟨w, ⟨rfl, rfl⟩, ⟨rfl, rfl⟩⟩
          · obtain ⟨p', s₁, w₁, move, joined⟩ := exec_stepFirst later
            obtain ⟨w₂, first, second⟩ := ih (move.calls calls) calls' joined
            exact ⟨w₂, move.exec first, second⟩
      | second =>
          rcases exec_settle exec with ⟨rfl, rfl, rfl⟩ | later
          · exact ⟨w, ⟨rfl, rfl⟩, ⟨rfl, rfl⟩⟩
          · obtain ⟨q', t₁, w₁, move, joined⟩ := exec_stepSecond later
            obtain ⟨w₂, first, second⟩ := ih calls (move.calls calls') joined
            cases move with
            | stay => exact ⟨w₂, first, second⟩
            | get => exact ⟨w₂, first, second⟩
            | set => exact ⟨w₂, first, second⟩
            | @call call k _ r _ answered =>
                obtain ⟨w', moved, last⟩ :=
                  exec_before (fun later => commute call later calls'.1) calls answered first
                exact ⟨w', moved, .inl ⟨r, w₂, last, second⟩⟩

end Moves

/-! ## A schedule for two programs that return -/

section Schedules

variable {h : Handler I ω} {s s' : σ} {t t' : ρ} {w w₁ w' : ω}

theorem settle_running (p : Async I ε σ α) (q : Async I ε ρ β) {next : Async I ε (σ × ρ) (α × β)}
    (running : (∀ a, p ≠ .ret a) ∨ ∀ b, q ≠ .ret b) (unfailed : ∀ e, p ≠ .fail e)
    (unfailed' : ∀ e, q ≠ .fail e) : Async.settle p q next = next := by
  unfold Async.settle
  split
  · rcases running with running | running
    · exact absurd rfl (running _)
    · exact absurd rfl (running _)
  · exact absurd rfl (unfailed _)
  · exact absurd rfl (unfailed' _)
  · rfl

/-- When the first program has returned, the join goes on with the second one. -/
theorem run_tryJoin_second {q : Async I ε ρ β} (a : α) {b : β}
    (ran : run h q ⟨t, w⟩ = (.ok b, ⟨t', w'⟩)) :
    ∃ schedule, run h (Async.tryJoin schedule (.ret a) q) ⟨(s, t), w⟩ =
      (.ok (a, b), ⟨(s, t'), w'⟩) := by
  induction q generalizing t w with
  | ret b' =>
      cases ran
      exact ⟨[], rfl⟩
  | fail e => cases ran
  | get k ih =>
      obtain ⟨schedule, joined⟩ := ih t ran
      exact ⟨.second :: schedule, joined⟩
  | set t₁ k ih =>
      obtain ⟨schedule, joined⟩ := ih ran
      exact ⟨.second :: schedule, joined⟩
  | call q k ih =>
      rw [run] at ran
      rcases answer : h q w with _ | ⟨r, w₁⟩
      · rw [answer] at ran
        cases ran
      · rw [answer] at ran
        obtain ⟨schedule, joined⟩ := ih r ran
        refine ⟨.second :: schedule, ?_⟩
        rw [Async.tryJoin, settle_running (.ret a) (.call q k) (.inr (by simp)) (by simp) (by simp),
          Async.stepSecond, run, answer]
        exact joined
  | pending => cases ran

/-- **What two programs do one after the other**, their join does on some
schedule. -/
theorem run_tryJoin {p : Async I ε σ α} {q : Async I ε ρ β} {a : α} {b : β}
    (first : run h p ⟨s, w⟩ = (.ok a, ⟨s', w₁⟩)) (second : run h q ⟨t, w₁⟩ = (.ok b, ⟨t', w'⟩)) :
    ∃ schedule, run h (Async.tryJoin schedule p q) ⟨(s, t), w⟩ =
      (.ok (a, b), ⟨(s', t'), w'⟩) := by
  have unfailed : ∀ e, q ≠ .fail e := by
    rintro e rfl
    cases second
  induction p generalizing s w with
  | ret a' =>
      cases first
      exact run_tryJoin_second a second
  | fail e => cases first
  | get k ih =>
      obtain ⟨schedule, joined⟩ := ih s first
      refine ⟨.first :: schedule, ?_⟩
      rw [Async.tryJoin, settle_running (.get k) q (.inl (by simp)) (by simp) unfailed]
      exact joined
  | set s₁ k ih =>
      obtain ⟨schedule, joined⟩ := ih first
      refine ⟨.first :: schedule, ?_⟩
      rw [Async.tryJoin, settle_running (.set s₁ k) q (.inl (by simp)) (by simp) unfailed]
      exact joined
  | call call k ih =>
      rw [run] at first
      rcases answer : h call w with _ | ⟨r, w₂⟩
      · rw [answer] at first
        cases first
      · rw [answer] at first
        obtain ⟨schedule, joined⟩ := ih r first
        refine ⟨.first :: schedule, ?_⟩
        rw [Async.tryJoin, settle_running (.call call k) q (.inl (by simp)) (by simp) unfailed,
          Async.stepFirst, run, answer]
        exact joined
  | pending => cases first

end Schedules

end Foundations
