import Mathlib.Logic.Basic

/-!
# Finite runs of a partial step function

A run is a finite sequence of operations, each of which must complete and each
of which may be restricted by a side condition on the state before it. The rules
below are the inductions over runs that the developments above use.
-/

namespace Transitions

universe u v w

/-- States reached from `start` by completed operations that all satisfy `ok`. -/
inductive Reach {S : Type u} {O : Type v} (step : S → O → Option S)
    (ok : S → O → Prop) (start : S) : S → Prop where
  | start : Reach step ok start start
  | step {s s' : S} {o : O} (reached : Reach step ok start s) (allowed : ok s o)
      (done : step s o = some s') : Reach step ok start s'

/-- The condition that restricts nothing. -/
def Any {S : Type u} {O : Type v} : S → O → Prop := fun _ _ => True

theorem Reach.invariant {S : Type u} {O : Type v} {step : S → O → Option S}
    {ok : S → O → Prop} {start : S} {I : S → Prop} (init : I start)
    (preserved : ∀ s o s', I s → ok s o → step s o = some s' → I s')
    {s : S} (reached : Reach step ok start s) : I s := by
  induction reached with
  | start => exact init
  | step _ allowed done ih => exact preserved _ _ _ ih allowed done

theorem Reach.mono {S : Type u} {O : Type v} {step : S → O → Option S}
    {ok ok' : S → O → Prop} {start : S} (weaker : ∀ s o, ok s o → ok' s o)
    {s : S} (reached : Reach step ok start s) : Reach step ok' start s := by
  induction reached with
  | start => exact .start
  | step _ allowed done ih => exact .step ih (weaker _ _ allowed) done

/-- Run a list of operations; an operation that does not complete ends the run. -/
def runAll {S : Type u} {O : Type v} (step : S → O → Option S) : S → List O → Option S
  | s, [] => some s
  | s, o :: rest => (step s o).bind fun s' => runAll step s' rest

theorem runAll_append {S : Type u} {O : Type v} {step : S → O → Option S} (xs ys : List O) (s : S) :
    runAll step s (xs ++ ys) = (runAll step s xs).bind fun s' => runAll step s' ys := by
  induction xs generalizing s with
  | nil => rfl
  | cons x xs ih =>
    rw [List.cons_append, runAll, runAll, Option.bind_assoc]
    congr 1
    funext s'
    exact ih s'

theorem runAll_reach {S : Type u} {O : Type v} {step : S → O → Option S} {start : S}
    (ops : List O) {s s' : S} (reached : Reach step Any start s)
    (done : runAll step s ops = some s') : Reach step Any start s' := by
  induction ops generalizing s with
  | nil =>
    simp only [runAll, Option.some.injEq] at done
    exact done ▸ reached
  | cons o rest ih =>
    simp only [runAll, Option.bind_eq_some_iff] at done
    obtain ⟨next, first, later⟩ := done
    exact ih (.step reached trivial first) later

/-- A side condition at each operation of a list that is run. -/
def AllAlong {S : Type u} {O : Type v} (step : S → O → Option S) (ok : S → O → Prop) :
    S → List O → Prop
  | _, [] => True
  | s, o :: rest => ok s o ∧ ∀ s', step s o = some s' → AllAlong step ok s' rest

theorem AllAlong.of_forall {S : Type u} {O : Type v} {step : S → O → Option S}
    {ok : S → O → Prop} {ops : List O} (all : ∀ o ∈ ops, ∀ s, ok s o) {s : S} :
    AllAlong step ok s ops := by
  induction ops generalizing s with
  | nil => trivial
  | cons o rest ih =>
    refine And.intro (all o List.mem_cons_self s) fun s' _ => ?_
    exact ih fun o' mem => all o' (List.mem_cons_of_mem o mem)

theorem Reach.runAll {S : Type u} {O : Type v} {step : S → O → Option S} {ok : S → O → Prop}
    {start : S} (ops : List O) {s s' : S} (reached : Reach step ok start s)
    (allowed : AllAlong step ok s ops) (done : runAll step s ops = some s') :
    Reach step ok start s' := by
  induction ops generalizing s with
  | nil =>
    simp only [Transitions.runAll, Option.some.injEq] at done
    exact done ▸ reached
  | cons o rest ih =>
    simp only [Transitions.runAll, Option.bind_eq_some_iff] at done
    obtain ⟨next, first, later⟩ := done
    exact ih (.step reached allowed.1 first) (allowed.2 next first) later

/-- A run of operations that are lists of calls is a run of calls. -/
theorem Reach.calls {S : Type u} {O : Type v} {P : Type w} {step : S → O → Option S}
    {ok : S → O → Prop} {calls : S → P → List O} {start s : S}
    (reached : Reach (fun s p => Transitions.runAll step s (calls s p))
      (fun s p => AllAlong step ok s (calls s p)) start s) : Reach step ok start s := by
  induction reached with
  | start => exact .start
  | step _ allowed done ih => exact ih.runAll _ allowed done

end Transitions
