import Mathlib.Algebra.BigOperators.Group.List.Basic
import Mathlib.Algebra.GroupWithZero.Nat

/-!
Updates of a state that add to a bounded count. Each one is described exactly:
by the condition under which it succeeds and by what it adds. Such descriptions
compose along sequences and loops.
-/

namespace OpsSysd

variable {σ α : Type}

/-- The count of the states in `I` is within the limit. -/
structure Meter (σ : Type) where
  I : σ → Prop
  count : σ → ℕ
  limit : ℕ
  within : ∀ s, I s → count s ≤ limit

/-- The update `f` is the total update `g`, and succeeds exactly if `p` holds and the cost is
within the limit. -/
structure Metered (M : Meter σ) (f : σ → Option σ) (g : σ → σ) (p : Prop) (cost : ℕ) : Prop where
  succeeds : ∀ s, M.I s → p → M.count s + cost ≤ M.limit →
    f s = some (g s) ∧ M.I (g s) ∧ M.count (g s) = M.count s + cost
  fails : ∀ s, M.I s → ¬ (p ∧ M.count s + cost ≤ M.limit) → f s = none

namespace Metered

variable {M : Meter σ} {f f' : σ → Option σ} {g g' : σ → σ} {p q : Prop} {c d : ℕ}

theorem congr (h : Metered M f g p c) (hg : g = g') (hp : p ↔ q) (hc : c = d) :
    Metered M f g' q d := by
  rw [← hg, ← propext hp, ← hc]
  exact h

theorem skip (M : Meter σ) : Metered M some id True 0 where
  succeeds _ hs _ _ := ⟨rfl, hs, rfl⟩
  fails s hs hnot := (hnot ⟨trivial, M.within s hs⟩).elim

theorem fail (M : Meter σ) (g : σ → σ) (c : ℕ) : Metered M (fun _ => none) g False c where
  succeeds _ _ hp := hp.elim
  fails _ _ _ := rfl

theorem bind (hf : Metered M f g p c) (hf' : Metered M f' g' q d) :
    Metered M (fun s => f s >>= f') (fun s => g' (g s)) (p ∧ q) (c + d) where
  succeeds := by
    intro s hs hpq hle
    obtain ⟨hfirst, hs₁, hcount₁⟩ := hf.succeeds s hs hpq.1 (by omega)
    obtain ⟨hsecond, hs₂, hcount₂⟩ := hf'.succeeds (g s) hs₁ hpq.2 (by omega)
    refine ⟨?_, hs₂, by omega⟩
    rw [hfirst]
    exact hsecond
  fails := by
    intro s hs hnot
    by_cases hfirst : p ∧ M.count s + c ≤ M.limit
    · obtain ⟨hfirst', hs₁, hcount₁⟩ := hf.succeeds s hs hfirst.1 hfirst.2
      have hrest : ¬ (q ∧ M.count (g s) + d ≤ M.limit) :=
        fun h => hnot ⟨⟨hfirst.1, h.1⟩, by omega⟩
      rw [hfirst']
      exact hf'.fails (g s) hs₁ hrest
    · rw [hf.fails s hs hfirst]
      rfl

theorem foldlM {step : σ → α → Option σ} {next : σ → α → σ} {r : α → Prop} {cost : α → ℕ}
    {l : List α} (h : ∀ a ∈ l, Metered M (fun s => step s a) (fun s => next s a) (r a) (cost a)) :
    Metered M (fun s => l.foldlM step s) (fun s => l.foldl next s) (∀ a ∈ l, r a)
      (l.map cost).sum := by
  induction l with
  | nil => exact (skip M).congr rfl (by simp) rfl
  | cons a rest ih =>
    have hrest := ih (fun b hb => h b (by simp [hb]))
    refine ((h a (by simp)).bind hrest).congr rfl (by simp) ?_
    rw [List.map_cons, List.sum_cons]

theorem isSome_iff (h : Metered M f g p c) {s : σ} (hs : M.I s) :
    (f s).isSome = true ↔ p ∧ M.count s + c ≤ M.limit := by
  constructor
  · intro hsome
    by_contra hnot
    rw [h.fails s hs hnot] at hsome
    cases hsome
  · intro hp
    rw [(h.succeeds s hs hp.1 hp.2).1]
    rfl

/-- What a run that succeeds has done. -/
theorem of_some (h : Metered M f g p c) {s s' : σ} (hs : M.I s) (hrun : f s = some s') :
    s' = g s ∧ M.I s' := by
  obtain ⟨hp, hle⟩ := (h.isSome_iff hs).mp (by rw [hrun]; rfl)
  obtain ⟨hsome, hs', _⟩ := h.succeeds s hs hp hle
  rw [hrun, Option.some.injEq] at hsome
  exact ⟨hsome, hsome ▸ hs'⟩

end Metered

end OpsSysd
