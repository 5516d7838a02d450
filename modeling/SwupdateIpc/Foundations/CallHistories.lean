import SwupdateIpc.Foundations.JoinedTasks

/-!
# Call histories

Which calls a program may make can depend on the calls that were answered before: a
program that may use what it was given makes calls that it may not make at first
(`Async.CallsAfter`). When more of the past never forbids a call (`Monotonic`), the rules
for sequences, for programs on a pair of states and for joins are those of programs whose
calls are allowed from the start, and such programs are the special case
(`Async.Calls.after`).

An invariant of the past and of the environment that every allowed call keeps is kept by
every execution (`Async.CallsAfter.exec`).
-/

set_option autoImplicit false

namespace Foundations

variable {I : Interface} {ε σ ρ ω α β γ : Type}

/-- A call that was answered, with its answer. -/
structure Event (I : Interface) where
  call : I.Call
  answer : I.Answer call

/-- Every call of a program, started in a state after some calls were answered, is allowed
by what was answered until then. -/
def Async.CallsAfter (allowed : List (Event I) → I.Call → Prop) :
    Async I ε σ α → List (Event I) → σ → Prop
  | .ret _, _, _ => True
  | .fail _, _, _ => True
  | .get k, past, s => (k s).CallsAfter allowed past s
  | .set s k, past, _ => k.CallsAfter allowed past s
  | .call c k, past, s => allowed past c ∧ ∀ r, (k r).CallsAfter allowed (⟨c, r⟩ :: past) s
  | .pending, _, _ => True

/-- What is allowed stays allowed when more calls were answered. -/
def Monotonic (allowed : List (Event I) → I.Call → Prop) : Prop :=
  ∀ ⦃past more c⦄, past ⊆ more → allowed past c → allowed more c

namespace Async

section Rules

variable {allowed : List (Event I) → I.Call → Prop} {past more : List (Event I)}

theorem CallsAfter.mono (monotonic : Monotonic allowed) {m : Async I ε σ α} {s : σ}
    (calls : m.CallsAfter allowed past s) (inside : past ⊆ more) :
    m.CallsAfter allowed more s := by
  induction m generalizing past more s with
  | ret a => trivial
  | fail e => trivial
  | get k ih => exact ih s calls inside
  | set t k ih => exact ih calls inside
  | call c k ih =>
      exact ⟨monotonic inside calls.1, fun r => ih r (calls.2 r) (List.cons_subset_cons _ inside)⟩
  | pending => trivial

/-- Calls that are allowed now are allowed later. -/
theorem Calls.after (monotonic : Monotonic allowed) {m : Async I ε σ α} {s : σ}
    (calls : m.Calls (allowed past) s) : m.CallsAfter allowed past s := by
  induction m generalizing past s with
  | ret a => trivial
  | fail e => trivial
  | get k ih => exact ih s calls
  | set t k ih => exact ih calls
  | call c k ih =>
      refine ⟨calls.1, fun r => ih r ((calls.2 r).mono ?_)⟩
      exact fun q now => monotonic (List.subset_cons_self _ past) now
  | pending => trivial

/-- **Sequencing.** What the first program returns and what it was answered may be used by
the second one. -/
theorem CallsAfter.bind {post : α → σ → Prop} {m : Async I ε σ α} {f : α → Async I ε σ β} {s : σ}
    (calls : m.CallsAfter allowed past s) (returns : m.Returns post s)
    (rest : ∀ a t more, past ⊆ more → post a t → (f a).CallsAfter allowed more t) :
    (m >>= f).CallsAfter allowed past s := by
  show (m.bind f).CallsAfter allowed past s
  induction m generalizing past s with
  | ret a => exact rest a s past (List.Subset.refl past) returns
  | fail e => trivial
  | get k ih => exact ih s calls returns rest
  | set t k ih => exact ih calls returns rest
  | call c k ih =>
      refine ⟨calls.1, fun r => ih r (calls.2 r) (returns r) ?_⟩
      intro a t more inside wanted
      exact rest a t more (List.subset_of_cons_subset inside) wanted
  | pending => trivial

theorem CallsAfter.first {m : Async I ε σ α} {s : σ} {t : ρ}
    (calls : m.CallsAfter allowed past s) :
    (m.first : Async I ε (σ × ρ) α).CallsAfter allowed past (s, t) := by
  induction m generalizing past s with
  | ret a => trivial
  | fail e => trivial
  | get k ih => exact ih s calls
  | set s' k ih => exact ih calls
  | call c k ih => exact ⟨calls.1, fun r => ih r (calls.2 r)⟩
  | pending => trivial

theorem CallsAfter.second {m : Async I ε ρ α} {s : σ} {t : ρ}
    (calls : m.CallsAfter allowed past t) :
    (m.second : Async I ε (σ × ρ) α).CallsAfter allowed past (s, t) := by
  induction m generalizing past t with
  | ret a => trivial
  | fail e => trivial
  | get k ih => exact ih t calls
  | set t' k ih => exact ih calls
  | call c k ih => exact ⟨calls.1, fun r => ih r (calls.2 r)⟩
  | pending => trivial

theorem CallsAfter.abandoned {m : Async I ε σ α} {s : σ} {t : ρ}
    (calls : m.CallsAfter allowed past s)
    (bounded : ∀ past c, allowed past c → allowed past (I.within 0 c)) (e : ε) :
    (m.abandon e : Async I ε ρ β).CallsAfter allowed past t := by
  cases m with
  | call c k => exact ⟨bounded past c calls.1, fun _ => trivial⟩
  | _ => trivial

theorem CallsAfter.settle {p : Async I ε σ α} {q : Async I ε ρ β} {s : σ} {t : ρ}
    {next : Async I ε (σ × ρ) (α × β)} (calls : p.CallsAfter allowed past s)
    (calls' : q.CallsAfter allowed past t)
    (bounded : ∀ past c, allowed past c → allowed past (I.within 0 c))
    (later : next.CallsAfter allowed past (s, t)) :
    (Async.settle p q next).CallsAfter allowed past (s, t) := by
  unfold Async.settle
  split
  · trivial
  · exact calls'.abandoned bounded _
  · exact calls.abandoned bounded _
  · exact later

/-- **Joining.** Each of two joined programs makes its calls also after those of the other
one. -/
theorem CallsAfter.tryJoin (monotonic : Monotonic allowed) {schedule : List Turn}
    {p : Async I ε σ α} {q : Async I ε ρ β} {s : σ} {t : ρ}
    (calls : p.CallsAfter allowed past s) (calls' : q.CallsAfter allowed past t)
    (bounded : ∀ past c, allowed past c → allowed past (I.within 0 c)) :
    (Async.tryJoin schedule p q).CallsAfter allowed past (s, t) := by
  induction schedule generalizing p q s t past with
  | nil => exact calls.settle calls' bounded trivial
  | cons turn rest ih =>
      cases turn with
      | first =>
          refine calls.settle calls' bounded ?_
          cases p with
          | get k => exact @ih past (k s) q s t calls calls'
          | set s' k => exact @ih past k q s' t calls calls'
          | call c k =>
              refine ⟨calls.1, fun r => ih (calls.2 r) ?_⟩
              exact calls'.mono monotonic (List.subset_cons_self _ past)
          | _ => exact ih calls calls'
      | second =>
          refine calls.settle calls' bounded ?_
          cases q with
          | get k => exact @ih past p (k t) s t calls calls'
          | set t' k => exact @ih past p k s t' calls calls'
          | call c k =>
              refine ⟨calls'.1, fun r => ih ?_ (calls'.2 r)⟩
              exact calls.mono monotonic (List.subset_cons_self _ past)
          | _ => exact ih calls calls'

end Rules

/-- **What every allowed call keeps, every execution keeps**: a property of the calls
answered so far and of the environment. -/
theorem CallsAfter.exec {D : Device I ω} {allowed : List (Event I) → I.Call → Prop}
    {kept : List (Event I) → ω → Prop}
    (answers : ∀ past q w r w', allowed past q → kept past w → D.answers q w r w' →
      kept (⟨q, r⟩ :: past) w')
    (drops : ∀ past q w w', allowed past q → kept past w → D.drops q w w' → kept past w')
    {m : Async I ε σ α} {past : List (Event I)} {c c' : Config σ ω} {o : Outcome ε α}
    (calls : m.CallsAfter allowed past c.own) (holds : kept past c.world)
    (exec : Exec D m c o c') : ∃ more, kept more c'.world := by
  induction m generalizing past c with
  | get k ih => exact ih c.own calls holds exec
  | set t k ih => exact @ih past ⟨t, c.world⟩ calls holds exec
  | call q k ih =>
      rcases exec with ⟨r, w, answer, rest⟩ | ⟨w, drop, _, rfl⟩
      · exact @ih r (⟨q, r⟩ :: past) ⟨c.own, w⟩ (calls.2 r)
          (answers past q _ r w calls.1 holds answer) rest
      · exact ⟨past, drops past q _ w calls.1 holds drop⟩
  | _ =>
      obtain ⟨_, rfl⟩ := exec
      exact ⟨past, holds⟩

end Async

end Foundations
