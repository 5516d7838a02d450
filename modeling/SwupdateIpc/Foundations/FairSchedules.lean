import SwupdateIpc.Foundations.JoinedTasks

/-!
# Fair schedules

Two calls are independent on a deterministic environment when each is answered as if the
other one had not been made, and when the order does not show afterwards (`Independent`).

When all calls of one program are independent of all calls of another one, their join
ends as they do alone, on every schedule on which both have enough turns: it returns when
both return, it fails when one of them fails, and it waits for ever otherwise
(`joined_tryJoin`). Where it returns, everything is as after the one and then the other,
so that no schedule can be told from another one (`run_tryJoin_ok`).
-/

set_option autoImplicit false

namespace Foundations

variable {I : Interface} {ε σ ρ ω α β γ : Type}

/-! ## The device of a handler -/

/-- The device that does what a handler does, and nothing else. -/
def Handler.device (h : Handler I ω) : Device I ω where
  answers q w r w' := h q w = some (r, w')
  drops q w w' := h q w = none ∧ w' = w

/-- The runs of a handler are the executions on its device. -/
theorem exec_device {h : Handler I ω} {m : Async I ε σ α} {c c' : Config σ ω} {o : Outcome ε α}
    (exec : Exec (Handler.device h) m c o c') : run h m c = (o, c') := by
  induction m generalizing c with
  | get k ih => exact ih c.own exec
  | set s k ih => exact ih exec
  | call q k ih =>
      rw [run]
      rcases exec with ⟨r, w, answered, rest⟩ | ⟨w, ⟨unanswered, rfl⟩, rfl, rfl⟩
      · change h q c.world = _ at answered
        rw [answered]
        exact ih r rest
      · rw [unanswered]
  | _ =>
      obtain ⟨rfl, rfl⟩ := exec
      rfl

theorem device_run (h : Handler I ω) (m : Async I ε σ α) (c : Config σ ω) :
    Exec (Handler.device h) m c (run h m c).1 (run h m c).2 :=
  exec_run (fun _ _ _ _ answered => answered)
    (fun _ _ => fun unanswered => And.intro unanswered rfl) m c

/-! ## Independent calls -/

/-- Both calls are answered, each of them as if the other one had not been made, and the
order does not show afterwards. -/
def Independent (h : Handler I ω) (q q' : I.Call) : Prop :=
  ∀ w, ∃ r w₁ r' w₂ w', h q w = some (r, w₁) ∧ h q' w = some (r', w₂) ∧
    h q' w₁ = some (r', w') ∧ h q w₂ = some (r, w')

theorem Independent.symm {h : Handler I ω} {q q' : I.Call} (independent : Independent h q q') :
    Independent h q' q := by
  intro w
  obtain ⟨r, w₁, r', w₂, w', first, second, later, earlier⟩ := independent w
  exact ⟨r', w₂, r, w₁, w', second, first, earlier, later⟩

theorem Independent.commute {h : Handler I ω} {earlier later : I.Call}
    (independent : Independent h earlier later) : Commute (Handler.device h) earlier later := by
  intro w w₁ w₂ r r' first second
  obtain ⟨_, _, _, w₃, w', first', alone, second', last⟩ := independent w
  cases first.symm.trans first'
  cases second.symm.trans second'
  exact ⟨w₃, alone, last⟩

/-- How many things a program does. -/
def steps (h : Handler I ω) : Async I ε σ α → Config σ ω → Nat
  | .ret _, _ => 0
  | .fail _, _ => 0
  | .get k, c => steps h (k c.own) c + 1
  | .set s k, c => steps h k ⟨s, c.world⟩ + 1
  | .call q k, c =>
      match h q c.world with
      | some (r, w) => steps h (k r) ⟨c.own, w⟩ + 1
      | none => 0
  | .pending, _ => 0

section Alone

variable {h : Handler I ω} {allowed : I.Call → Prop} {q : I.Call} {r : I.Answer q} {s : σ}
  {w w₁ : ω}

theorem run_call {k : I.Answer q → Async I ε σ α} (answered : h q w = some (r, w₁)) :
    run h (.call q k) ⟨s, w⟩ = run h (k r) ⟨s, w₁⟩ := by
  rw [run, answered]

theorem steps_call {k : I.Answer q → Async I ε σ α} (answered : h q w = some (r, w₁)) :
    steps h (.call q k) ⟨s, w⟩ = steps h (k r) ⟨s, w₁⟩ + 1 := by
  rw [steps, answered]

/-- **A program does not see an independent call** that is made before it, and it leaves
the environment as if the call were made after it. -/
theorem run_after {p : Async I ε σ α} (calls : p.Calls allowed s)
    (independent : ∀ later, allowed later → Independent h q later)
    (answered : h q w = some (r, w₁)) :
    steps h p ⟨s, w₁⟩ = steps h p ⟨s, w⟩ ∧
      ∃ w', run h p ⟨s, w₁⟩ = ((run h p ⟨s, w⟩).1, ⟨(run h p ⟨s, w⟩).2.own, w'⟩) ∧
        h q (run h p ⟨s, w⟩).2.world = some (r, w') := by
  induction p generalizing s w w₁ with
  | ret a => exact ⟨rfl, w₁, rfl, answered⟩
  | fail e => exact ⟨rfl, w₁, rfl, answered⟩
  | get k ih =>
      obtain ⟨same, rest⟩ := ih s calls answered
      exact ⟨congrArg (· + 1) same, rest⟩
  | set t k ih =>
      obtain ⟨same, rest⟩ := ih calls answered
      exact ⟨congrArg (· + 1) same, rest⟩
  | call later k ih =>
      obtain ⟨_, _, r', w₂, w₃, first, alone, second, last⟩ := independent later calls.1 w
      cases answered.symm.trans first
      obtain ⟨same, rest⟩ := ih r' (calls.2 r') last
      rw [steps_call alone, steps_call second, run_call alone, run_call second]
      exact ⟨congrArg (· + 1) same, rest⟩
  | pending => exact ⟨rfl, w₁, rfl, answered⟩

end Alone

/-! ## Joining -/

/-- How two programs that end alone can end when they are joined. -/
inductive Joined : Outcome ε α → Outcome ε β → Outcome ε (α × β) → Prop where
  | returned (a : α) (b : β) : Joined (.ok a) (.ok b) (.ok (a, b))
  | first (e : ε) (o : Outcome ε β) : Joined (.err e) o (.err e)
  | second (o : Outcome ε α) (e : ε) : Joined o (.err e) (.err e)
  | waits {o : Outcome ε α} {o' : Outcome ε β} (unfailed : ∀ e, o ≠ .err e)
      (unfailed' : ∀ e, o' ≠ .err e) (never : o = .dropped ∨ o' = .dropped) : Joined o o' .dropped

/-- Two ends that are both possible are alike, up to the error. -/
theorem Joined.alike {o₁ : Outcome ε α} {o₂ : Outcome ε β} {o o' : Outcome ε (α × β)}
    (joined : Joined o₁ o₂ o) (joined' : Joined o₁ o₂ o') :
    o = o' ∨ ((∃ e, o = .err e) ∧ ∃ e, o' = .err e) := by
  cases joined with
  | returned a b =>
      cases joined' with
      | returned => exact .inl rfl
      | waits _ _ never => exact absurd never (by simp)
  | first e o =>
      cases joined' with
      | first => exact .inl rfl
      | second _ e' => exact .inr ⟨⟨e, rfl⟩, e', rfl⟩
      | waits unfailed => exact absurd rfl (unfailed e)
  | second o e =>
      cases joined' with
      | first e' => exact .inr ⟨⟨e, rfl⟩, e', rfl⟩
      | second => exact .inl rfl
      | waits _ unfailed' => exact absurd rfl (unfailed' e)
  | waits unfailed unfailed' never =>
      cases joined' with
      | returned => exact absurd never (by simp)
      | first e => exact absurd rfl (unfailed e)
      | second _ e => exact absurd rfl (unfailed' e)
      | waits => exact .inl rfl

/-- A join returns when both programs do. -/
theorem Joined.returned_iff {o₁ : Outcome ε α} {o₂ : Outcome ε β} {o : Outcome ε (α × β)}
    (joined : Joined o₁ o₂ o) :
    (∃ both, o = .ok both) ↔ (∃ a, o₁ = .ok a) ∧ ∃ b, o₂ = .ok b := by
  cases joined with
  | returned a b => exact ⟨fun _ => ⟨⟨a, rfl⟩, b, rfl⟩, fun _ => ⟨_, rfl⟩⟩
  | waits _ _ never =>
      constructor
      · rintro ⟨_, ⟨⟩⟩
      · rintro ⟨⟨_, rfl⟩, _, rfl⟩
        simp at never
  | first e o =>
      constructor
      · rintro ⟨_, ⟨⟩⟩
      · rintro ⟨⟨_, ⟨⟩⟩, _⟩
  | second o e =>
      constructor
      · rintro ⟨_, ⟨⟩⟩
      · rintro ⟨_, _, ⟨⟩⟩

section Joining

variable {h : Handler I ω} {allowed allowed' : I.Call → Prop} {s : σ} {t : ρ} {w : ω}

/-- A call can be given up, and the environment goes on. -/
def Abandons (h : Handler I ω) (q : I.Call) : Prop :=
  ∀ w, ∃ answer, h (I.within 0 q) w = some answer

theorem run_abandon {p : Async I ε σ α} (calls : p.Calls allowed s)
    (abandons : ∀ q, allowed q → Abandons h q) (e : ε) (c : Config ρ ω) :
    (run h (p.abandon e : Async I ε ρ β) c).1 = .err e := by
  cases p with
  | call q k =>
      obtain ⟨answer, answered⟩ := abandons q calls.1 c.world
      rw [Async.abandon, run, answered]
      rfl
  | _ => rfl

/-- The calls of two programs are all answered, can all be given up, and are independent. -/
structure Joinable (h : Handler I ω) (allowed allowed' : I.Call → Prop) : Prop where
  independent : ∀ q q', allowed q → allowed' q' → Independent h q q'
  answers : ∀ q, allowed q → ∀ w, h q w ≠ none
  answers' : ∀ q, allowed' q → ∀ w, h q w ≠ none
  abandons : ∀ q, allowed q → Abandons h q
  abandons' : ∀ q, allowed' q → Abandons h q

/-- A schedule on which each of two programs has a number of turns. -/
def Fair (n m : Nat) (schedule : List Turn) : Prop :=
  n ≤ schedule.count .first ∧ m ≤ schedule.count .second

/-- Two programs that are not settled go on, and so it is enough to look at what comes
next. -/
theorem joined_settle (joinable : Joinable h allowed allowed') {p : Async I ε σ α}
    {q : Async I ε ρ β} {next : Async I ε (σ × ρ) (α × β)} (calls : p.Calls allowed s)
    (calls' : q.Calls allowed' t)
    (later : (∀ e, p ≠ .fail e) → (∀ e, q ≠ .fail e) → (∀ a b, p = .ret a → q ≠ .ret b) →
      Joined (run h p ⟨s, w⟩).1 (run h q ⟨t, w⟩).1 (run h next ⟨(s, t), w⟩).1) :
    Joined (run h p ⟨s, w⟩).1 (run h q ⟨t, w⟩).1 (run h (Async.settle p q next) ⟨(s, t), w⟩).1 := by
  unfold Async.settle
  split
  · exact .returned _ _
  · rw [run_abandon calls' joinable.abandons']
    exact .first _ _
  · rw [run_abandon calls joinable.abandons]
    exact .second _ _
  next unfailed unfailed' unreturned => exact later unfailed unfailed' unreturned

/-- A program that has nothing to do has ended, or it waits for ever. -/
theorem run_idle {p : Async I ε σ α} (answers : ∀ q, allowed q → ∀ w, h q w ≠ none)
    (calls : p.Calls allowed s) (idle : steps h p ⟨s, w⟩ = 0) :
    (∃ a, p = .ret a) ∨ (∃ e, p = .fail e) ∨ p = .pending := by
  cases p with
  | ret a => exact .inl ⟨a, rfl⟩
  | fail e => exact .inr (.inl ⟨e, rfl⟩)
  | pending => exact .inr (.inr rfl)
  | get k => cases idle
  | set t k => cases idle
  | call q k =>
      obtain ⟨answer, answered⟩ := Option.ne_none_iff_exists'.mp (answers q calls.1 w)
      rw [steps_call answered] at idle
      cases idle

/-- Two programs that have nothing to do, and are not settled, wait for ever. -/
theorem joined_idle (joinable : Joinable h allowed allowed') {p : Async I ε σ α} {q : Async I ε ρ β}
    (calls : p.Calls allowed s) (calls' : q.Calls allowed' t)
    (idle : steps h p ⟨s, w⟩ = 0) (idle' : steps h q ⟨t, w⟩ = 0)
    (unfailed : ∀ e, p ≠ .fail e) (unfailed' : ∀ e, q ≠ .fail e)
    (unreturned : ∀ a b, p = .ret a → q ≠ .ret b) :
    Joined (run h p ⟨s, w⟩).1 (run h q ⟨t, w⟩).1 .dropped := by
  rcases run_idle joinable.answers calls idle with ⟨a, rfl⟩ | ⟨e, rfl⟩ | rfl
  · rcases run_idle joinable.answers' calls' idle' with ⟨b, rfl⟩ | ⟨e, rfl⟩ | rfl
    · exact absurd rfl (unreturned a b rfl)
    · exact absurd rfl (unfailed' e)
    · exact .waits (by rintro e ⟨⟩) (by rintro e ⟨⟩) (.inr rfl)
  · exact absurd rfl (unfailed e)
  · rcases run_idle joinable.answers' calls' idle' with ⟨b, rfl⟩ | ⟨e, rfl⟩ | rfl
    · exact .waits (by rintro e ⟨⟩) (by rintro e ⟨⟩) (.inl rfl)
    · exact absurd rfl (unfailed' e)
    · exact .waits (by rintro e ⟨⟩) (by rintro e ⟨⟩) (.inl rfl)

/-- A turn of the first program takes one thing off what it has to do, and the second one
has as much to do as before. -/
theorem joined_stepFirst (joinable : Joinable h allowed allowed') {p : Async I ε σ α}
    {q : Async I ε ρ β} {next : Async I ε σ α → Async I ε (σ × ρ) (α × β)}
    (calls : p.Calls allowed s) (calls' : q.Calls allowed' t)
    (later : ∀ p' s' w', p'.Calls allowed s' → steps h p' ⟨s', w'⟩ ≤ steps h p ⟨s, w⟩ - 1 →
      steps h q ⟨t, w'⟩ = steps h q ⟨t, w⟩ →
      Joined (run h p' ⟨s', w'⟩).1 (run h q ⟨t, w'⟩).1 (run h (next p') ⟨(s', t), w'⟩).1) :
    Joined (run h p ⟨s, w⟩).1 (run h q ⟨t, w⟩).1 (run h (p.stepFirst next) ⟨(s, t), w⟩).1 := by
  cases p with
  | ret a => exact later (.ret a) s w calls (Nat.le_refl _) rfl
  | fail e => exact later (.fail e) s w calls (Nat.le_refl _) rfl
  | pending => exact later .pending s w calls (Nat.le_refl _) rfl
  | get k => exact later (k s) s w calls (Nat.le_refl _) rfl
  | set s' k => exact later k s' w calls (Nat.le_refl _) rfl
  | call c k =>
      obtain ⟨⟨r, w₁⟩, answered⟩ := Option.ne_none_iff_exists'.mp (joinable.answers c calls.1 w)
      obtain ⟨same, w', ran, _⟩ := run_after calls'
        (fun later allowed => joinable.independent c later calls.1 allowed) answered
      have joined := later (k r) s w₁ (calls.2 r) (by
        rw [steps_call answered]
        exact Nat.le_refl _) same
      rw [ran] at joined
      rw [run_call answered, Async.stepFirst, run_call answered]
      exact joined

/-- A turn of the second program takes one thing off what it has to do, and the first one
has as much to do as before. -/
theorem joined_stepSecond (joinable : Joinable h allowed allowed') {p : Async I ε σ α}
    {q : Async I ε ρ β} {next : Async I ε ρ β → Async I ε (σ × ρ) (α × β)}
    (calls : p.Calls allowed s) (calls' : q.Calls allowed' t)
    (later : ∀ q' t' w', q'.Calls allowed' t' → steps h q' ⟨t', w'⟩ ≤ steps h q ⟨t, w⟩ - 1 →
      steps h p ⟨s, w'⟩ = steps h p ⟨s, w⟩ →
      Joined (run h p ⟨s, w'⟩).1 (run h q' ⟨t', w'⟩).1 (run h (next q') ⟨(s, t'), w'⟩).1) :
    Joined (run h p ⟨s, w⟩).1 (run h q ⟨t, w⟩).1 (run h (q.stepSecond next) ⟨(s, t), w⟩).1 := by
  cases q with
  | ret b => exact later (.ret b) t w calls' (Nat.le_refl _) rfl
  | fail e => exact later (.fail e) t w calls' (Nat.le_refl _) rfl
  | pending => exact later .pending t w calls' (Nat.le_refl _) rfl
  | get k => exact later (k t) t w calls' (Nat.le_refl _) rfl
  | set t' k => exact later k t' w calls' (Nat.le_refl _) rfl
  | call c k =>
      obtain ⟨⟨r, w₁⟩, answered⟩ := Option.ne_none_iff_exists'.mp (joinable.answers' c calls'.1 w)
      obtain ⟨same, w', ran, _⟩ := run_after calls
        (fun later allowed => (joinable.independent later c allowed calls'.1).symm) answered
      have joined := later (k r) t w₁ (calls'.2 r) (by
        rw [steps_call answered]
        exact Nat.le_refl _) same
      rw [ran] at joined
      rw [run_call answered, Async.stepSecond, run_call answered]
      exact joined

/-- **On a fair schedule two programs end as they do alone.** -/
theorem joined_tryJoin (joinable : Joinable h allowed allowed') {schedule : List Turn}
    {p : Async I ε σ α} {q : Async I ε ρ β} (calls : p.Calls allowed s)
    (calls' : q.Calls allowed' t)
    (fair : Fair (steps h p ⟨s, w⟩) (steps h q ⟨t, w⟩) schedule) :
    Joined (run h p ⟨s, w⟩).1 (run h q ⟨t, w⟩).1
      (run h (Async.tryJoin schedule p q) ⟨(s, t), w⟩).1 := by
  induction schedule generalizing p q s t w with
  | nil =>
      refine joined_settle joinable calls calls' ?_
      exact joined_idle joinable calls calls' (Nat.le_zero.mp fair.1) (Nat.le_zero.mp fair.2)
  | cons turn rest ih =>
      obtain ⟨enough, enough'⟩ := fair
      cases turn with
      | first =>
          rw [List.count_cons_self] at enough
          rw [List.count_cons_of_ne (by decide)] at enough'
          refine joined_settle joinable calls calls' fun _ _ _ => ?_
          refine joined_stepFirst joinable calls calls' ?_
          intro p' s' w' here fewer same
          exact ih here calls' ⟨by omega, by omega⟩
      | second =>
          rw [List.count_cons_of_ne (by decide)] at enough
          rw [List.count_cons_self] at enough'
          refine joined_settle joinable calls calls' fun _ _ _ => ?_
          refine joined_stepSecond joinable calls calls' ?_
          intro q' t' w' here fewer same
          exact ih calls here ⟨by omega, by omega⟩

/-- A longer schedule is fair to shorter programs. -/
theorem Fair.mono {n n' m m' : Nat} {schedule : List Turn} (fair : Fair n m schedule)
    (fewer : n' ≤ n) (fewer' : m' ≤ m) : Fair n' m' schedule :=
  ⟨Nat.le_trans fewer fair.1, Nat.le_trans fewer' fair.2⟩

/-- Two programs that terminate alone terminate together on a fair schedule. -/
theorem Terminates.tryJoin (joinable : Joinable h allowed allowed') {schedule : List Turn}
    {p : Async I ε σ α} {q : Async I ε ρ β} (calls : p.Calls allowed s)
    (calls' : q.Calls allowed' t) (terminates : Terminates h p ⟨s, w⟩)
    (terminates' : Terminates h q ⟨t, w⟩)
    (fair : Fair (steps h p ⟨s, w⟩) (steps h q ⟨t, w⟩) schedule) :
    Terminates h (Async.tryJoin schedule p q) ⟨(s, t), w⟩ := by
  have joined := joined_tryJoin joinable calls calls' fair
  intro never
  rw [never] at joined
  generalize first : (run h p ⟨s, w⟩).1 = o at joined
  generalize second : (run h q ⟨t, w⟩).1 = o' at joined
  cases joined with
  | waits _ _ waiting =>
      rcases waiting with rfl | rfl
      · exact terminates first
      · exact terminates' second

/-- Two programs are settled, whatever comes next, or they go on with it. -/
theorem settle_cases (p : Async I ε σ α) (q : Async I ε ρ β) :
    (∀ next next', Async.settle p q next = Async.settle p q next') ∨
      ∀ next, Async.settle p q next = next := by
  cases p with
  | fail e => exact .inl fun _ _ => rfl
  | ret a =>
      cases q with
      | ret b => exact .inl fun _ _ => rfl
      | fail e => exact .inl fun _ _ => rfl
      | _ => exact .inr fun _ => rfl
  | _ =>
      cases q with
      | fail e => exact .inl fun _ _ => rfl
      | _ => exact .inr fun _ => rfl

theorem run_stepFirst {p : Async I ε σ α} {next next' : Async I ε σ α → Async I ε (σ × ρ) γ}
    {c : Config (σ × ρ) ω} (ended : (run h (p.stepFirst next) c).1 ≠ .dropped)
    (same : ∀ p' c', (run h (next p') c').1 ≠ .dropped → run h (next' p') c' = run h (next p') c') :
    run h (p.stepFirst next') c = run h (p.stepFirst next) c := by
  cases p with
  | get k => exact same _ _ ended
  | set s k => exact same _ _ ended
  | call q k =>
      simp only [Async.stepFirst, run] at ended ⊢
      cases answer : h q c.world with
      | none => rfl
      | some answered =>
          rw [answer] at ended
          exact same _ _ ended
  | _ => exact same _ _ ended

theorem run_stepSecond {q : Async I ε ρ β} {next next' : Async I ε ρ β → Async I ε (σ × ρ) γ}
    {c : Config (σ × ρ) ω} (ended : (run h (q.stepSecond next) c).1 ≠ .dropped)
    (same : ∀ q' c', (run h (next q') c').1 ≠ .dropped → run h (next' q') c' = run h (next q') c') :
    run h (q.stepSecond next') c = run h (q.stepSecond next) c := by
  cases q with
  | get k => exact same _ _ ended
  | set s k => exact same _ _ ended
  | call q k =>
      simp only [Async.stepSecond, run] at ended ⊢
      cases answer : h q c.world with
      | none => rfl
      | some answered =>
          rw [answer] at ended
          exact same _ _ ended
  | _ => exact same _ _ ended

/-- A join that has ended has no use for more turns. -/
theorem run_tryJoin_append {schedule : List Turn} (more : List Turn) {p : Async I ε σ α}
    {q : Async I ε ρ β} {c : Config (σ × ρ) ω}
    (ended : (run h (Async.tryJoin schedule p q) c).1 ≠ .dropped) :
    run h (Async.tryJoin (schedule ++ more) p q) c = run h (Async.tryJoin schedule p q) c := by
  induction schedule generalizing p q c with
  | nil =>
      rcases settle_cases p q with settled | running
      · rcases more with _ | ⟨turn, rest⟩
        · rfl
        · cases turn <;> exact congrArg (run h · c) (settled _ _)
      · rw [Async.tryJoin, running] at ended
        exact absurd rfl ended
  | cons turn rest ih =>
      rcases settle_cases p q with settled | running
      · cases turn <;> exact congrArg (run h · c) (settled _ _)
      · cases turn with
        | first =>
            rw [Async.tryJoin, running] at ended
            rw [List.cons_append, Async.tryJoin, Async.tryJoin, running, running]
            exact run_stepFirst ended fun _ _ => ih
        | second =>
            rw [Async.tryJoin, running] at ended
            rw [List.cons_append, Async.tryJoin, Async.tryJoin, running, running]
            exact run_stepSecond ended fun _ _ => ih

/-- **A join that returns** leaves what the first program leaves and then the second one. -/
theorem run_tryJoin_ok (joinable : Joinable h allowed allowed') {schedule : List Turn}
    {p : Async I ε σ α} {q : Async I ε ρ β} {a : α} {b : β} {c' : Config (σ × ρ) ω}
    (calls : p.Calls allowed s) (calls' : q.Calls allowed' t)
    (ran : run h (Async.tryJoin schedule p q) ⟨(s, t), w⟩ = (.ok (a, b), c')) :
    ∃ w₁, run h p ⟨s, w⟩ = (.ok a, ⟨c'.own.1, w₁⟩) ∧
      run h q ⟨t, w₁⟩ = (.ok b, ⟨c'.own.2, c'.world⟩) := by
  have exec := device_run h (Async.tryJoin schedule p q) ⟨(s, t), w⟩
  rw [ran] at exec
  have commute : ∀ earlier later, allowed' earlier → allowed later →
      Commute (Handler.device h) earlier later := by
    intro earlier later second first
    exact (joinable.independent later earlier first second).symm.commute
  obtain ⟨w₁, first, second⟩ := exec_tryJoin_ok commute calls calls' exec
  exact ⟨w₁, exec_device first, exec_device second⟩

/-- Two joins that return the same leave the same. -/
theorem run_tryJoin_unique (joinable : Joinable h allowed allowed') {schedule schedule' : List Turn}
    {p : Async I ε σ α} {q : Async I ε ρ β} {both : α × β} {c c' : Config (σ × ρ) ω}
    (calls : p.Calls allowed s) (calls' : q.Calls allowed' t)
    (ran : run h (Async.tryJoin schedule p q) ⟨(s, t), w⟩ = (.ok both, c))
    (ran' : run h (Async.tryJoin schedule' p q) ⟨(s, t), w⟩ = (.ok both, c')) : c = c' := by
  obtain ⟨⟨s₁, t₁⟩, w₁⟩ := c
  obtain ⟨⟨s₂, t₂⟩, w₂⟩ := c'
  obtain ⟨w, first, second⟩ := run_tryJoin_ok joinable calls calls' ran
  obtain ⟨w', first', second'⟩ := run_tryJoin_ok joinable calls calls' ran'
  cases first.symm.trans first'
  cases second.symm.trans second'
  rfl

/-- A run agrees with another one that ends: both are the same, or both fail. -/
def Agrees (x y : Outcome ε α × Config σ ω) : Prop :=
  y.1 = .dropped ∨ x = y ∨ ((∃ e, x.1 = .err e) ∧ ∃ e, y.1 = .err e)

theorem Agrees.refl (x : Outcome ε α × Config σ ω) : Agrees x x := .inr (.inl rfl)

/-- What comes next does not change that. -/
theorem Agrees.bind {m m' : Async I ε σ α} {c : Config σ ω}
    (agrees : Agrees (run h m c) (run h m' c))
    (f : α → Async I ε σ β) : Agrees (run h (m >>= f) c) (run h (m' >>= f) c) := by
  rw [run_bind, run_bind]
  generalize run h m c = x at agrees
  generalize run h m' c = y at agrees
  obtain ⟨o, c₁⟩ := x
  obtain ⟨o', c₂⟩ := y
  rcases agrees with never | same | ⟨⟨e, failed⟩, e', failed'⟩
  · obtain rfl : o' = .dropped := never
    exact .inl rfl
  · cases same
    exact .refl _
  · obtain rfl : o = .err e := failed
    obtain rfl : o' = .err e' := failed'
    exact .inr (.inr ⟨⟨e, rfl⟩, e', rfl⟩)

/-- **Schedules agree.** A fair schedule ends a join as any other one does, if that one ends
it at all, up to which error it is. -/
theorem run_tryJoin_fair (joinable : Joinable h allowed allowed') {schedule : List Turn}
    {p : Async I ε σ α} {q : Async I ε ρ β} (calls : p.Calls allowed s)
    (calls' : q.Calls allowed' t)
    (fair : Fair (steps h p ⟨s, w⟩) (steps h q ⟨t, w⟩) schedule) (schedule' : List Turn) :
    Agrees (run h (Async.tryJoin schedule p q) ⟨(s, t), w⟩)
      (run h (Async.tryJoin schedule' p q) ⟨(s, t), w⟩) := by
  by_cases ended : (run h (Async.tryJoin schedule' p q) ⟨(s, t), w⟩).1 = .dropped
  · exact .inl ended
  refine .inr ?_
  let more : List Turn := List.replicate (steps h p ⟨s, w⟩) .first ++
    List.replicate (steps h q ⟨t, w⟩) .second
  have enough : Fair (steps h p ⟨s, w⟩) (steps h q ⟨t, w⟩) (schedule' ++ more) := by
    refine ⟨?_, ?_⟩
    · rw [List.count_append, List.count_append, List.count_replicate_self]
      omega
    · rw [List.count_append, List.count_append, List.count_replicate_self]
      omega
  have joined := joined_tryJoin joinable calls calls' fair
  have joined' := joined_tryJoin joinable calls calls' enough
  rw [run_tryJoin_append more ended] at joined'
  rcases ran : run h (Async.tryJoin schedule p q) ⟨(s, t), w⟩ with ⟨o, c⟩
  rcases ran' : run h (Async.tryJoin schedule' p q) ⟨(s, t), w⟩ with ⟨o', c'⟩
  rw [ran] at joined
  rw [ran'] at joined' ended
  rcases joined.alike joined' with same | failed
  · obtain rfl : o = o' := same
    cases o with
    | ok both =>
        rw [run_tryJoin_unique joinable calls calls' ran ran']
        exact .inl rfl
    | err e => exact .inr ⟨⟨e, rfl⟩, e, rfl⟩
    | dropped => exact absurd rfl ended
  · exact .inr failed

end Joining

end Foundations
