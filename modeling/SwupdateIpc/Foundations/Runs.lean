import Mathlib.Algebra.BigOperators.Group.List.Basic
import Mathlib.Algebra.GroupWithZero.Nat

/-!
# Runs of a transition system

A transition is recorded with the states before and after it. A run from a state
is a list of transitions that a predicate allows, each beginning where the one
before it ended.

A run can be cut at each of its transitions (`Run.cut`). A predicate on states
that every allowed transition keeps is kept by every run (`Run.keeps`), and a
quantity that each transition increases by some amount is increased by the sum of
these amounts (`Run.total`). Two such sums are compared amount by amount
(`sum_map_eq_iff_of_le`).
-/

set_option autoImplicit false

namespace Foundations

/-- A transition with a label, and the states before and after it. -/
structure Transition (S L : Type) where
  before : S
  label : L
  after : S

variable {S L : Type}

/-- A run of allowed transitions between two states. -/
inductive Run (allowed : Transition S L → Prop) (s : S) :
    List (Transition S L) → S → Prop where
  | start : Run allowed s [] s
  | step {es : List (Transition S L)} {e : Transition S L}
      (run : Run allowed s es e.before) (permitted : allowed e) :
      Run allowed s (es ++ [e]) e.after

namespace Run

variable {allowed : Transition S L → Prop} {s s' : S} {es : List (Transition S L)}

/-- Two transitions that meet. -/
theorem pair {e₁ e₂ : Transition S L} (first : allowed e₁) (second : allowed e₂)
    (meet : e₂.before = e₁.after) : Run allowed e₁.before [e₁, e₂] e₂.after := by
  have run : Run allowed e₁.before [e₁] e₁.after := Run.start.step first
  rw [← meet] at run
  exact run.step second

/-- A run can be cut at each of its transitions. -/
theorem cut {es₁ es₂ : List (Transition S L)} {e : Transition S L}
    (run : Run allowed s (es₁ ++ e :: es₂) s') :
    Run allowed s es₁ e.before ∧ allowed e ∧ Run allowed e.after es₂ s' := by
  generalize whole : es₁ ++ e :: es₂ = es at run
  induction run generalizing es₂ with
  | start => simp at whole
  | @step es last run permitted ih =>
      rcases List.eq_nil_or_concat es₂ with rfl | ⟨front, final, rfl⟩
      · obtain ⟨rfl, same⟩ := List.append_inj' whole rfl
        cases same
        exact ⟨run, permitted, .start⟩
      · rw [List.concat_eq_append, ← List.cons_append, ← List.append_assoc] at whole
        obtain ⟨shorter, same⟩ := List.append_inj' whole rfl
        cases same
        obtain ⟨before, here, rest⟩ := ih shorter
        rw [List.concat_eq_append]
        exact ⟨before, here, rest.step permitted⟩

theorem eq_of_nil (run : Run allowed s [] s') : s' = s := by
  generalize whole : [] = es at run
  cases run with
  | start => rfl
  | step => simp at whole

/-- The first transition of a run begins where the run does. -/
theorem uncons {e : Transition S L} (run : Run allowed s (e :: es) s') :
    e.before = s ∧ allowed e ∧ Run allowed e.after es s' := by
  obtain ⟨first, here, rest⟩ := @cut _ _ _ s s' [] es e run
  exact ⟨first.eq_of_nil, here, rest⟩

/-- Every transition of a run is allowed, and a run leads to it and from it. -/
theorem at_mem {e : Transition S L} (run : Run allowed s es s') (member : e ∈ es) :
    ∃ es₁ es₂, es = es₁ ++ e :: es₂ ∧ Run allowed s es₁ e.before ∧ allowed e ∧
      Run allowed e.after es₂ s' := by
  obtain ⟨es₁, es₂, rfl⟩ := List.append_of_mem member
  exact ⟨es₁, es₂, rfl, run.cut⟩

/-- **The invariant rule.** What every transition of a run keeps, the run
keeps. -/
theorem keeps {kept : S → Prop} (run : Run allowed s es s')
    (preserved : ∀ e ∈ es, allowed e → kept e.before → kept e.after) (first : kept s) :
    kept s' := by
  induction run with
  | start => exact first
  | @step es e run permitted ih =>
      have earlier := ih fun e' member => preserved e' (List.mem_append_left _ member)
      exact preserved e (by simp) permitted earlier

/-- A quantity that each transition increases by some amount is increased by
the sum of the amounts. -/
theorem total {quantity : S → Nat} {amount : Transition S L → Nat} (run : Run allowed s es s')
    (increased : ∀ e ∈ es, allowed e → quantity e.after = quantity e.before + amount e) :
    quantity s' = quantity s + (es.map amount).sum := by
  induction run with
  | start => simp
  | @step es e run permitted ih =>
      have earlier := ih fun e' member => increased e' (List.mem_append_left _ member)
      rw [increased e (by simp) permitted, earlier, List.map_append, List.sum_append]
      simp only [List.map_cons, List.map_nil, List.sum_singleton, Nat.add_assoc]

end Run

/-- Amounts that are bounded one by one have equal sums exactly when they are
equal one by one. -/
theorem sum_map_eq_iff_of_le {α : Type} {f g : α → Nat} {as : List α}
    (bounded : ∀ a ∈ as, f a ≤ g a) :
    (as.map f).sum ≤ (as.map g).sum ∧
      ((as.map f).sum = (as.map g).sum ↔ ∀ a ∈ as, f a = g a) := by
  induction as with
  | nil => simp
  | cons a as ih =>
      have first := bounded a List.mem_cons_self
      obtain ⟨le, eq_iff⟩ := ih fun b member => bounded b (List.mem_cons_of_mem _ member)
      simp only [List.map_cons, List.sum_cons, List.forall_mem_cons]
      refine ⟨by omega, fun same => ⟨by omega, eq_iff.mp (by omega)⟩, fun ⟨here, rest⟩ => ?_⟩
      rw [here, eq_iff.mpr rest]

end Foundations
