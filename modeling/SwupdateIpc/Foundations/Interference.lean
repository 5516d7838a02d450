import SwupdateIpc.Foundations.JoinedTasks

/-!
# Programs under interference

While a program waits, other programs change the environment, as far as a relation
allows. A program is safe when the environment keeps a property wherever it stops, and
when what it returns is as wanted (`Async.Safe`). Safety is proved call by call, with one
rule for sequences (`Async.Safe.bind`), and it says what an execution does
(`Async.Safe.exec`).

Two programs, each of them safe under whatever the calls of the other one do, are safe
when they are joined: on every schedule, and also when one of them fails and the other
one is given up (`exec_tryJoin_safe`).

A program that nothing interferes with ends with a value or without one, and what is
wanted of either end is proved part by part (`Ends.bind`).
-/

set_option autoImplicit false

namespace Foundations

variable {I : Interface} {ε σ ρ ω α β : Type}

/-- What other programs may do to the environment, and a property that it keeps then. -/
structure Conditions (ω : Type) where
  rely : ω → ω → Prop
  kept : ω → Prop
  refl : ∀ w, rely w w
  trans : ∀ {w w₁ w₂}, rely w w₁ → rely w₁ w₂ → rely w w₂
  stable : ∀ {w w'}, rely w w' → kept w → kept w'

/-- A call does to the environment what a relation allows, whether it is answered or
dropped. -/
def Guarantees (D : Device I ω) (allowed : ω → ω → Prop) (c : I.Call) : Prop :=
  ∀ w w', ((∃ r, D.answers c w r w') → allowed w w') ∧ (D.drops c w w' → allowed w w')

theorem Guarantees.imp {D : Device I ω} {allowed allowed' : ω → ω → Prop} {c : I.Call}
    (guarantees : Guarantees D allowed c) (implies : ∀ w w', allowed w w' → allowed' w w') :
    Guarantees D allowed' c := by
  intro w w'
  obtain ⟨answered, dropped⟩ := guarantees w w'
  exact ⟨fun answer => implies w w' (answered answer), fun drop => implies w w' (dropped drop)⟩

/-- A call with a deadline is answered as the call is, or it is dropped. -/
structure Device.Timely (D : Device I ω) : Prop where
  answers : ∀ {deadline c w r w'}, D.answers (I.within deadline c) w r w' →
    (∃ r', D.answers c w r' w') ∨ D.drops c w w'
  drops : ∀ {deadline c w w'}, D.drops (I.within deadline c) w w' → D.drops c w w'

/-! ## What the calls of a program do -/

section Calls

variable {D : Device I ω} {allowed : I.Call → Prop} {m : Async I ε σ α}

theorem Async.Calls.timeout {deadline : Nat} {s : σ} (calls : m.Calls allowed s)
    (bounded : ∀ c, allowed c → allowed (I.within deadline c)) :
    (m.timeout deadline).Calls allowed s := by
  induction m generalizing s with
  | ret a => trivial
  | fail e => trivial
  | get k ih => exact ih s calls
  | set t k ih => exact ih calls
  | call c k ih =>
      rw [Async.timeout]
      refine ⟨bounded c calls.1, fun r => ?_⟩
      beta_reduce
      split
      · exact ih _ (calls.2 _)
      · trivial
  | pending => trivial

/-- What every call of a program does to the environment, its executions do. -/
theorem Async.Calls.exec {does : ω → ω → Prop} (refl : ∀ w, does w w)
    (trans : ∀ {w w₁ w₂}, does w w₁ → does w₁ w₂ → does w w₂) {c c' : Config σ ω}
    {o : Outcome ε α} (calls : m.Calls (Guarantees D does) c.own) (exec : Exec D m c o c') :
    does c.world c'.world := by
  induction m generalizing c with
  | ret a =>
      obtain ⟨_, rfl⟩ := exec
      exact refl _
  | fail e =>
      obtain ⟨_, rfl⟩ := exec
      exact refl _
  | get k ih => exact ih c.own calls exec
  | set t k ih => exact @ih ⟨t, c.world⟩ calls exec
  | call q k ih =>
      rcases exec with ⟨r, w, answer, rest⟩ | ⟨w, drop, _, rfl⟩
      · exact trans ((calls.1 _ _).1 ⟨r, answer⟩) (@ih r ⟨c.own, w⟩ (calls.2 r) rest)
      · exact (calls.1 _ _).2 drop
  | pending =>
      obtain ⟨_, rfl⟩ := exec
      exact refl _

end Calls

/-! ## Safety -/

/-- Wherever a program stops, the environment has its property, and when the program
returns, the value and the states are as wanted. -/
def Async.Safe (D : Device I ω) (C : Conditions ω) (post : α → σ → ω → Prop) :
    Async I ε σ α → σ → ω → Prop
  | .ret a, s, w => C.kept w ∧ ∀ w', C.rely w w' → post a s w'
  | .get k, s, w => (k s).Safe D C post s w
  | .set s k, _, w => k.Safe D C post s w
  | .call c k, s, w => C.kept w ∧ ∀ w₁, C.rely w w₁ →
      (∀ r w₂, D.answers c w₁ r w₂ → (k r).Safe D C post s w₂) ∧
        ∀ w₂, D.drops c w₁ w₂ → C.kept w₂
  | _, _, w => C.kept w

namespace Async.Safe

variable {D : Device I ω} {C : Conditions ω} {post : α → σ → ω → Prop} {m : Async I ε σ α}
  {s : σ} {w w' : ω}

theorem kept (safe : m.Safe D C post s w) : C.kept w := by
  induction m generalizing s with
  | ret a => exact safe.1
  | fail e => exact safe
  | get k ih => exact ih s safe
  | set t k ih => exact ih safe
  | call c k ih => exact safe.1
  | pending => exact safe

/-- What others do leaves a program safe. -/
theorem later (safe : m.Safe D C post s w) (others : C.rely w w') : m.Safe D C post s w' := by
  induction m generalizing s with
  | ret a =>
      refine ⟨C.stable others safe.1, ?_⟩
      exact fun w₁ more => safe.2 w₁ (C.trans others more)
  | fail e => exact C.stable others safe
  | get k ih => exact ih s safe
  | set t k ih => exact ih safe
  | call c k ih =>
      refine ⟨C.stable others safe.1, ?_⟩
      exact fun w₁ more => safe.2 w₁ (C.trans others more)
  | pending => exact C.stable others safe

theorem imp {post' : α → σ → ω → Prop} (safe : m.Safe D C post s w)
    (implies : ∀ a s w, C.kept w → post a s w → post' a s w) : m.Safe D C post' s w := by
  induction m generalizing s w with
  | ret a =>
      refine ⟨safe.1, fun w₁ others => ?_⟩
      exact implies a s w₁ (C.stable others safe.1) (safe.2 w₁ others)
  | fail e => exact safe
  | get k ih => exact ih s safe
  | set t k ih => exact ih safe
  | call c k ih =>
      refine ⟨safe.1, fun w₁ others => ?_⟩
      obtain ⟨answered, dropped⟩ := safe.2 w₁ others
      exact ⟨fun r w₂ answer => ih r (answered r w₂ answer), dropped⟩
  | pending => exact safe

/-- **Sequencing.** The second program is safe wherever the first one returns. -/
theorem bind {f : α → Async I ε σ β} {post' : β → σ → ω → Prop}
    (safe : m.Safe D C (fun a s w => (f a).Safe D C post' s w) s w) :
    (m >>= f).Safe D C post' s w := by
  show (m.bind f).Safe D C post' s w
  induction m generalizing s w with
  | ret a => exact safe.2 w (C.refl w)
  | fail e => exact safe
  | get k ih => exact ih s safe
  | set t k ih => exact ih safe
  | call c k ih =>
      refine ⟨safe.1, fun w₁ others => ?_⟩
      obtain ⟨answered, dropped⟩ := safe.2 w₁ others
      exact ⟨fun r w₂ answer => ih r (answered r w₂ answer), dropped⟩
  | pending => exact safe

/-- A safe program is safe when nothing interferes. -/
theorem exec {c c' : Config σ ω} {o : Outcome ε α} (safe : m.Safe D C post c.own c.world)
    (exec : Exec D m c o c') :
    C.kept c'.world ∧ ∀ a, o = .ok a → post a c'.own c'.world := by
  induction m generalizing c with
  | ret a =>
      obtain ⟨rfl, rfl⟩ := exec
      refine ⟨safe.1, ?_⟩
      rintro b ⟨⟩
      exact safe.2 c'.world (C.refl _)
  | fail e =>
      obtain ⟨rfl, rfl⟩ := exec
      exact ⟨safe, nofun⟩
  | get k ih => exact ih c.own safe exec
  | set t k ih => exact @ih ⟨t, c.world⟩ safe exec
  | call q k ih =>
      obtain ⟨answered, dropped⟩ := safe.2 c.world (C.refl _)
      rcases exec with ⟨r, w, answer, rest⟩ | ⟨w, drop, rfl, rfl⟩
      · exact @ih r ⟨c.own, w⟩ (answered r w answer) rest
      · exact ⟨dropped w drop, nofun⟩
  | pending =>
      obtain ⟨rfl, rfl⟩ := exec
      exact ⟨safe, nofun⟩

/-- A move of a safe program leaves it safe. -/
theorem move {m' : Async I ε σ α} {s' : σ} (safe : m.Safe D C post s w)
    (move : Move D m ⟨s, w⟩ m' ⟨s', w'⟩) : m'.Safe D C post s' w' := by
  cases move with
  | stay => exact safe
  | get => exact safe
  | set => exact safe
  | call answered => exact (safe.2 w (C.refl w)).1 _ _ answered

/-- A program that is given up leaves the property. -/
theorem abandon {e : ε} {c c' : Config ρ ω} {o : Outcome ε β} (timely : D.Timely)
    (safe : m.Safe D C post s c.world) (given : Exec D (m.abandon e) c o c') :
    C.kept c'.world ∧ ∀ b, o ≠ .ok b := by
  cases m with
  | call q k =>
      obtain ⟨answered, dropped⟩ := safe.2 c.world (C.refl _)
      rcases given with ⟨r, w, answer, rfl, rfl⟩ | ⟨w, drop, rfl, rfl⟩
      · refine ⟨?_, nofun⟩
        rcases timely.answers answer with ⟨r', answer⟩ | drop
        · exact (answered r' w answer).kept
        · exact dropped w drop
      · exact ⟨dropped w (timely.drops drop), nofun⟩
  | _ =>
      obtain ⟨rfl, rfl⟩ := given
      exact ⟨safe.kept, nofun⟩

end Async.Safe

/-- A program whose calls all keep the property is safe. -/
theorem Async.Calls.safe {D : Device I ω} {C : Conditions ω} {m : Async I ε σ α} {s : σ} {w : ω}
    (calls : m.Calls (Guarantees D fun w w' => C.kept w → C.kept w') s) (kept : C.kept w) :
    m.Safe D C (fun _ _ _ => True) s w := by
  induction m generalizing s w with
  | ret a => exact ⟨kept, fun _ _ => trivial⟩
  | fail e => exact kept
  | get k ih => exact ih s calls kept
  | set t k ih => exact ih calls kept
  | call c k ih =>
      refine ⟨kept, fun w₁ others => ⟨fun r w₂ answer => ?_, fun w₂ drop => ?_⟩⟩
      · exact ih r (calls.2 r) ((calls.1 _ _).1 ⟨r, answer⟩ (C.stable others kept))
      · exact (calls.1 _ _).2 drop (C.stable others kept)
  | pending => exact kept

/-! ## Joined programs -/

section Joins

variable {D : Device I ω} {C C' : Conditions ω} {p : Async I ε σ α} {q : Async I ε ρ β}
  {post : α → σ → ω → Prop} {post' : β → ρ → ω → Prop} {s : σ} {t : ρ} {w : ω}

/-- What the calls of a program guarantee, its moves do. -/
theorem Move.guarantees {p' : Async I ε σ α} {s' : σ} {w' : ω} (move : Move D p ⟨s, w⟩ p' ⟨s', w'⟩)
    (calls : p.Calls (Guarantees D C.rely) s) : C.rely w w' := by
  cases move with
  | stay => exact C.refl w
  | get => exact C.refl w
  | set => exact C.refl w
  | call answered => exact (calls.1 _ _).1 ⟨_, answered⟩

/-- What the calls of a program guarantee is done also when it is given up. -/
theorem Async.Calls.abandon {e : ε} {c c' : Config ρ ω} {o : Outcome ε β} (timely : D.Timely)
    (calls : p.Calls (Guarantees D C.rely) s) (given : Exec D (p.abandon e) c o c') :
    C.rely c.world c'.world := by
  cases p with
  | call call k =>
      rcases given with ⟨r, w, answer, rfl, rfl⟩ | ⟨w, drop, rfl, rfl⟩
      · rcases timely.answers answer with answer | drop
        · exact (calls.1 _ _).1 answer
        · exact (calls.1 _ _).2 drop
      · exact (calls.1 _ _).2 (timely.drops drop)
  | _ =>
      obtain ⟨rfl, rfl⟩ := given
      exact C.refl _

/-- The first program of two goes on, or it is dropped at its call. -/
theorem exec_stepFirst_any {next : Async I ε σ α → Async I ε (σ × ρ) β} {o : Outcome ε β}
    {c' : Config (σ × ρ) ω} (exec : Exec D (p.stepFirst next) ⟨(s, t), w⟩ o c') :
    (∃ p' s₁ w₁, Move D p ⟨s, w⟩ p' ⟨s₁, w₁⟩ ∧ Exec D (next p') ⟨(s₁, t), w₁⟩ o c') ∨
      ∃ call k, p = .call call k ∧ D.drops call w c'.world ∧ o = .dropped := by
  cases p with
  | get k => exact .inl ⟨_, _, _, .get, exec⟩
  | set s' k => exact .inl ⟨_, _, _, .set, exec⟩
  | call q k =>
      rcases exec with ⟨r, w₁, answered, rest⟩ | ⟨w₁, dropped, rfl, rfl⟩
      · exact .inl ⟨_, _, _, .call answered, rest⟩
      · exact .inr ⟨q, k, rfl, dropped, rfl⟩
  | _ => exact .inl ⟨_, _, _, .stay, exec⟩

theorem exec_stepSecond_any {γ : Type} {next : Async I ε ρ β → Async I ε (σ × ρ) γ}
    {o : Outcome ε γ} {c' : Config (σ × ρ) ω}
    (exec : Exec D (q.stepSecond next) ⟨(s, t), w⟩ o c') :
    (∃ q' t₁ w₁, Move D q ⟨t, w⟩ q' ⟨t₁, w₁⟩ ∧ Exec D (next q') ⟨(s, t₁), w₁⟩ o c') ∨
      ∃ call k, q = .call call k ∧ D.drops call w c'.world ∧ o = .dropped := by
  cases q with
  | get k => exact .inl ⟨_, _, _, .get, exec⟩
  | set s' k => exact .inl ⟨_, _, _, .set, exec⟩
  | call call k =>
      rcases exec with ⟨r, w₁, answered, rest⟩ | ⟨w₁, dropped, rfl, rfl⟩
      · exact .inl ⟨_, _, _, .call answered, rest⟩
      · exact .inr ⟨call, k, rfl, dropped, rfl⟩
  | _ => exact .inl ⟨_, _, _, .stay, exec⟩

/-- Two safe programs are settled, and then all is as wanted, or what comes next runs. -/
theorem exec_settle_safe (timely : D.Timely) {next : Async I ε (σ × ρ) (α × β)}
    {o : Outcome ε (α × β)} {c' : Config (σ × ρ) ω} (safe : p.Safe D C post s w)
    (safe' : q.Safe D C' post' t w) (calls : p.Calls (Guarantees D C'.rely) s)
    (calls' : q.Calls (Guarantees D C.rely) t)
    (exec : Exec D (Async.settle p q next) ⟨(s, t), w⟩ o c') :
    (C.kept c'.world ∧ C'.kept c'.world ∧ ∀ a b, o = .ok (a, b) →
      post a c'.own.1 c'.world ∧ post' b c'.own.2 c'.world) ∨
    Exec D next ⟨(s, t), w⟩ o c' := by
  unfold Async.settle at exec
  split at exec
  · obtain ⟨rfl, rfl⟩ := exec
    refine .inl ⟨safe.1, safe'.1, ?_⟩
    rintro a b ⟨⟩
    exact ⟨safe.2 w (C.refl w), safe'.2 w (C'.refl w)⟩
  · obtain ⟨kept', failed⟩ := safe'.abandon timely exec
    refine .inl ⟨C.stable (calls'.abandon timely exec) safe.kept, kept', ?_⟩
    exact fun a b returned => absurd returned (failed _)
  · obtain ⟨kept, failed⟩ := safe.abandon timely exec
    refine .inl ⟨kept, C'.stable (calls.abandon timely exec) safe'.kept, ?_⟩
    exact fun a b returned => absurd returned (failed _)
  · exact .inr exec

/-- **Joined programs.** Two programs that are safe under the calls of each other are safe
together, on every schedule and with every outcome. -/
theorem exec_tryJoin_safe (timely : D.Timely) {schedule : List Turn} {o : Outcome ε (α × β)}
    {c' : Config (σ × ρ) ω} (safe : p.Safe D C post s w) (safe' : q.Safe D C' post' t w)
    (calls : p.Calls (Guarantees D C'.rely) s) (calls' : q.Calls (Guarantees D C.rely) t)
    (exec : Exec D (Async.tryJoin schedule p q) ⟨(s, t), w⟩ o c') :
    C.kept c'.world ∧ C'.kept c'.world ∧ ∀ a b, o = .ok (a, b) →
      post a c'.own.1 c'.world ∧ post' b c'.own.2 c'.world := by
  induction schedule generalizing p q s t w with
  | nil =>
      rcases exec_settle_safe timely safe safe' calls calls' exec with done | ⟨rfl, rfl⟩
      · exact done
      · exact ⟨safe.kept, safe'.kept, nofun⟩
  | cons turn rest ih =>
      cases turn with
      | first =>
          rcases exec_settle_safe timely safe safe' calls calls' exec with done | later
          · exact done
          · rcases exec_stepFirst_any later with ⟨p', s₁, w₁, move, joined⟩ |
              ⟨call, k, rfl, dropped, rfl⟩
            · exact ih (safe.move move) (safe'.later (move.guarantees calls)) (move.calls calls)
                calls' joined
            · refine ⟨(safe.2 w (C.refl w)).2 _ dropped, ?_, nofun⟩
              exact C'.stable ((calls.1 _ _).2 dropped) safe'.kept
      | second =>
          rcases exec_settle_safe timely safe safe' calls calls' exec with done | later
          · exact done
          · rcases exec_stepSecond_any later with ⟨q', t₁, w₁, move, joined⟩ |
              ⟨call, k, rfl, dropped, rfl⟩
            · exact ih (safe.later (move.guarantees calls')) (safe'.move move) calls
                (move.calls calls') joined
            · refine ⟨?_, (safe'.2 w (C'.refl w)).2 _ dropped, nofun⟩
              exact C.stable ((calls'.1 _ _).2 dropped) safe.kept

end Joins

/-! ## Programs alone -/

/-- Whether a program returns or not, it ends as wanted. -/
def Ends (D : Device I ω) (m : Async I ε σ α) (failed : ω → Prop)
    (post : α → Config σ ω → Prop) (c : Config σ ω) : Prop :=
  ∀ o c', Exec D m c o c' →
    (∀ a, o = .ok a → post a c') ∧ ((∀ a, o ≠ .ok a) → failed c'.world)

namespace Ends

variable {D : Device I ω} {m : Async I ε σ α} {failed : ω → Prop} {post : α → Config σ ω → Prop}
  {c : Config σ ω}

theorem imp {failed' : ω → Prop} {post' : α → Config σ ω → Prop} (ends : Ends D m failed post c)
    (failure : ∀ w, failed w → failed' w) (value : ∀ a c', post a c' → post' a c') :
    Ends D m failed' post' c := by
  intro o c' exec
  obtain ⟨returned, not⟩ := ends o c' exec
  exact ⟨fun a same => value a c' (returned a same), fun none => failure _ (not none)⟩

/-- The two ends of an execution. -/
theorem either {o : Outcome ε α} {c' : Config σ ω} (ends : Ends D m failed post c)
    (exec : Exec D m c o c') :
    (∃ a, o = .ok a ∧ post a c') ∨ (∀ a, o ≠ .ok a) ∧ failed c'.world := by
  obtain ⟨returned, not⟩ := ends o c' exec
  cases o with
  | ok a => exact .inl ⟨a, rfl, returned a rfl⟩
  | err e => exact .inr ⟨nofun, not nofun⟩
  | dropped => exact .inr ⟨nofun, not nofun⟩

theorem ret {a : α} (wanted : post a c) : Ends D (.ret a : Async I ε σ α) failed post c := by
  rintro o c' ⟨rfl, rfl⟩
  refine ⟨?_, fun none => absurd rfl (none a)⟩
  rintro b ⟨⟩
  exact wanted

theorem bind {f : α → Async I ε σ β} {post' : β → Config σ ω → Prop}
    (ends : Ends D m failed (fun a c₁ => Ends D (f a) failed post' c₁) c) :
    Ends D (m >>= f) failed post' c := by
  intro o c' exec
  rcases exec_bind.mp exec with ⟨a, c₁, first, last⟩ | ⟨e, rfl, first⟩ | ⟨rfl, first⟩
  · exact (ends _ _ first).1 a rfl o c' last
  · exact ⟨nofun, fun _ => (ends _ _ first).2 nofun⟩
  · exact ⟨nofun, fun _ => (ends _ _ first).2 nofun⟩

/-- A safe program ends as wanted. -/
theorem of_safe {C : Conditions ω} {post : α → σ → ω → Prop}
    (safe : m.Safe D C post c.own c.world) :
    Ends D m C.kept (fun a c' => post a c'.own c'.world) c := by
  intro o c' exec
  obtain ⟨kept, returned⟩ := safe.exec exec
  exact ⟨returned, fun _ => kept⟩

theorem first {p : Async I ε σ α} {c : Config (σ × ρ) ω}
    (ends : Ends D p failed post ⟨c.own.1, c.world⟩) :
    Ends D (p.first : Async I ε (σ × ρ) α) failed
      (fun a c' => post a ⟨c'.own.1, c'.world⟩ ∧ c'.own.2 = c.own.2) c := by
  intro o c' exec
  obtain ⟨alone, kept⟩ := exec_first exec
  obtain ⟨returned, not⟩ := ends _ _ alone
  exact ⟨fun a same => ⟨returned a same, kept⟩, not⟩

theorem second {p : Async I ε ρ α} {post : α → Config ρ ω → Prop} {c : Config (σ × ρ) ω}
    (ends : Ends D p failed post ⟨c.own.2, c.world⟩) :
    Ends D (p.second : Async I ε (σ × ρ) α) failed
      (fun a c' => post a ⟨c'.own.2, c'.world⟩ ∧ c'.own.1 = c.own.1) c := by
  intro o c' exec
  obtain ⟨alone, kept⟩ := exec_second exec
  obtain ⟨returned, not⟩ := ends _ _ alone
  exact ⟨fun a same => ⟨returned a same, kept⟩, not⟩

end Ends

end Foundations
