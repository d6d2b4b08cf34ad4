import Aubstream.Transitions

/-!
# Refinement between two step functions

A relation between the states of two systems that every step keeps is kept by
every run.
-/

namespace Refinement
open Transitions

universe u v w x

variable {S : Type u} {A : Type w} {O : Type v} {step : S → O → Option S} {step' : A → O → Option A}
  {ok : O → Prop} {R : S → A → Prop}

/-- Each step of the first system is one of the second. -/
def Simulates (step : S → O → Option S) (step' : A → O → Option A) (ok : O → Prop)
    (R : S → A → Prop) : Prop :=
  ∀ s a o s', ok o → R s a → step s o = some s' → ∃ a', step' a o = some a' ∧ R s' a'

theorem Simulates.runAll (sim : Simulates step step' ok R) (ops : List O) {s s' : S} {a : A}
    (allowed : ∀ o ∈ ops, ok o) (related : R s a) (run : Transitions.runAll step s ops = some s') :
    ∃ a', Transitions.runAll step' a ops = some a' ∧ R s' a' := by
  induction ops generalizing s a with
  | nil =>
    obtain rfl := Option.some.inj run
    exact ⟨a, rfl, related⟩
  | cons o rest ih =>
    obtain ⟨next, first, later⟩ := Option.bind_eq_some_iff.mp run
    obtain ⟨middle, hmiddle, between⟩ := sim s a o next (allowed o List.mem_cons_self) related first
    obtain ⟨last, hlast, after⟩ :=
      ih (fun o' mem => allowed o' (List.mem_cons_of_mem o mem)) between later
    exact ⟨last, by rw [Transitions.runAll, hmiddle, Option.bind_some, hlast], after⟩

end Refinement
