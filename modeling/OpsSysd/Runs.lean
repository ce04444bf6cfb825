import Mathlib.Data.List.Basic

/-!
Runs of a step that reads an input and may fail. A run may be restricted to
steps that meet a guard, which speaks of the input and of the state before the
step.
-/

namespace OpsSysd.Runs

variable {σ ι ε : Type}

/-- A run of the inputs from one state to another, each step within the guard. -/
inductive Run (step : ι → σ → Except ε σ) (guard : ι → σ → Prop) (s : σ) : List ι → σ → Prop
  | start : Run step guard s [] s
  | next {inputs : List ι} {i : ι} {s' s'' : σ} (run : Run step guard s inputs s')
      (meets : guard i s') (done : step i s' = .ok s'') : Run step guard s (inputs ++ [i]) s''

/-- Every step passes. -/
def unguarded : ι → σ → Prop := fun _ _ => True

variable {step : ι → σ → Except ε σ} {guard : ι → σ → Prop} {s s' : σ} {inputs : List ι}

theorem Run.inv {I : σ → Prop} (h : Run step guard s inputs s') (hs : I s)
    (hstep : ∀ i t t', I t → guard i t → step i t = .ok t' → I t') : I s' := by
  induction h with
  | start => exact hs
  | next _ hmeets hdone ih => exact hstep _ _ _ ih hmeets hdone

/-- A step that can be computed: its result and what is read off it. -/
theorem exists_ok {α β : Type} {r : Except ε α} {f : α → β} {b : β}
    (h : r.toOption.map f = some b) : ∃ a, r = .ok a ∧ f a = b := by
  cases r with
  | error e => cases h
  | ok a => exact ⟨a, rfl, Option.some.inj h⟩

theorem Run.mono {guard' : ι → σ → Prop} (h : Run step guard s inputs s')
    (hguard : ∀ i t, guard i t → guard' i t) : Run step guard' s inputs s' := by
  induction h with
  | start => exact .start
  | next _ hmeets hdone ih => exact .next ih (hguard _ _ hmeets) hdone

theorem run_nil_iff : Run step guard s [] s' ↔ s' = s := by
  constructor
  · intro h
    generalize hinputs : ([] : List ι) = inputs at h
    cases h with
    | start => rfl
    | next _ _ _ => exact absurd hinputs.symm (List.append_ne_nil_of_right_ne_nil _ (by simp))
  · rintro rfl
    exact .start

theorem Run.cons {i : ι} {s'' : σ} (hmeets : guard i s) (hdone : step i s = .ok s')
    (h : Run step guard s' inputs s'') : Run step guard s (i :: inputs) s'' := by
  induction h with
  | start => exact .next .start hmeets hdone
  | next _ hmeets' hdone' ih => exact .next ih hmeets' hdone'

theorem run_cons_iff {i : ι} {s'' : σ} : Run step guard s (i :: inputs) s'' ↔
    ∃ s', guard i s ∧ step i s = .ok s' ∧ Run step guard s' inputs s'' := by
  constructor
  · intro h
    generalize hlist : i :: inputs = list at h
    induction h generalizing inputs with
    | start => cases hlist
    | @next before j t t' hbefore hmeets hdone ih =>
      cases before with
      | nil =>
        cases hlist
        rw [run_nil_iff.mp hbefore] at hmeets hdone
        exact ⟨t', hmeets, hdone, .start⟩
      | cons first rest =>
        obtain ⟨rfl, rfl⟩ := List.cons.inj hlist
        obtain ⟨u, hfirst, hstep, hrest⟩ := ih rfl
        exact ⟨u, hfirst, hstep, .next hrest hmeets hdone⟩
  · rintro ⟨t, hmeets, hdone, h⟩
    exact .cons hmeets hdone h

end OpsSysd.Runs
