import Mathlib.Init

/-!
Computations over a state that report what they do. Reports made before a
failure are kept. Forgetting the reports leaves a computation without them, so
a program can be written with its reports and compared with the program itself.
-/

namespace OpsSysd

def Logged (L σ ε α : Type) : Type := σ → List L × Except ε (α × σ)

namespace Logged

variable {L σ ε α β : Type}

instance : Monad (Logged L σ ε) where
  pure a := fun s => ([], .ok (a, s))
  bind m f := fun s =>
    match m s with
    | (l, .error e) => (l, .error e)
    | (l, .ok (a, s')) => (l ++ (f a s').1, (f a s').2)

def report (e : L) : Logged L σ ε Unit := fun s => ([e], .ok ((), s))

/-- A computation that reports nothing. -/
def silent (m : StateT σ (Except ε) α) : Logged L σ ε α := fun s => ([], m s)

instance : MonadLift (StateT σ (Except ε)) (Logged L σ ε) := ⟨silent⟩

/-- The computation without its reports. -/
def run (m : Logged L σ ε α) : StateT σ (Except ε) α := fun s => (m s).2

section Run

variable {m : Logged L σ ε α} {f : α → Logged L σ ε β} {s s' : σ} {l : List L} {a : α}

theorem bind_ok (h : m s = (l, .ok (a, s'))) :
    (m >>= f) s = (l ++ (f a s').1, (f a s').2) := by
  simp only [bind, h]

theorem bind_error {e : ε} (h : m s = (l, .error e)) : (m >>= f) s = (l, .error e) := by
  simp only [bind, h]

@[simp] theorem run_pure (a : α) : run (pure a : Logged L σ ε α) = pure a := rfl

@[simp] theorem run_lift (m : StateT σ (Except ε) α) : run (liftM m : Logged L σ ε α) = m := rfl

@[simp] theorem run_bind (m : Logged L σ ε α) (f : α → Logged L σ ε β) :
    run (m >>= f) = run m >>= fun a => run (f a) := by
  funext s
  show ((m >>= f) s).2 = (m s).2 >>= fun p => (f p.1 p.2).2
  cases hm : m s with
  | mk l r =>
    cases r with
    | error e =>
      rw [bind_error hm]
      rfl
    | ok p =>
      rw [bind_ok hm]
      rfl

theorem run_forM (f : α → Logged L σ ε PUnit) (l : List α) :
    run (l.forM f) = l.forM (fun a => run (f a)) := by
  induction l with
  | nil => rfl
  | cons a rest ih =>
    have hcons : (a :: rest).forM f = f a >>= fun _ => rest.forM f := rfl
    rw [hcons, run_bind, ih]
    rfl

end Run

theorem mem_bind {m : Logged L σ ε α} {f : α → Logged L σ ε β} {s s' : σ} {a : α} {e : L}
    (hm : run m s = .ok (a, s')) (he : e ∈ (f a s').1) : e ∈ ((m >>= f) s).1 := by
  cases hs : m s with
  | mk l r =>
    have hr : r = .ok (a, s') := by
      rw [← hm]
      exact congrArg Prod.snd hs.symm
    subst hr
    rw [bind_ok hs]
    exact List.mem_append_right _ he

theorem mem_bind_left {m : Logged L σ ε α} {f : α → Logged L σ ε β} {s : σ} {e : L}
    (he : e ∈ (m s).1) : e ∈ ((m >>= f) s).1 := by
  cases hs : m s with
  | mk l r =>
    rw [hs] at he
    cases r with
    | error _ => rwa [bind_error hs]
    | ok p =>
      rw [bind_ok hs]
      exact List.mem_append_left _ he

/-- From a state in `pre` every report is in `P`, and a result is in `post`. -/
def Reports (pre : σ → Prop) (P : L → Prop) (m : Logged L σ ε α) (post : α → σ → Prop) : Prop :=
  ∀ s, pre s → (∀ e ∈ (m s).1, P e) ∧ ∀ a s', run m s = .ok (a, s') → post a s'

/-- Every report is in `P`, from any state. -/
abbrev All (P : L → Prop) (m : Logged L σ ε α) : Prop :=
  Reports (fun _ => True) P m (fun _ _ => True)

namespace Reports

variable {pre pre' : σ → Prop} {P P' : L → Prop} {m : Logged L σ ε α} {f : α → Logged L σ ε β}
  {post post' : α → σ → Prop} {final : β → σ → Prop}

theorem pure {a : α} (h : ∀ s, pre s → post a s) :
    Reports pre P (Pure.pure a : Logged L σ ε α) post := by
  intro s hs
  refine ⟨fun _ he => (List.not_mem_nil he).elim, fun b s' hok => ?_⟩
  cases hok
  exact h s hs

theorem report {e : L} (he : P e) :
    Reports pre P (report e : Logged L σ ε Unit) (fun _ => pre) := by
  intro s hs
  refine ⟨fun e' he' => ?_, fun b s' hok => ?_⟩
  · rwa [List.mem_singleton.mp he']
  · cases hok
    exact hs

theorem lift {m : StateT σ (Except ε) α}
    (h : ∀ s, pre s → ∀ a s', m s = .ok (a, s') → post a s') :
    Reports pre P (liftM m : Logged L σ ε α) post :=
  fun s hs => ⟨fun _ he => (List.not_mem_nil he).elim, h s hs⟩

theorem mono (h : Reports pre P m post) (hpre : ∀ s, pre' s → pre s) (hP : ∀ e, P e → P' e)
    (hpost : ∀ a s, post a s → post' a s) : Reports pre' P' m post' := by
  intro s hs
  obtain ⟨hreports, hresult⟩ := h s (hpre s hs)
  exact ⟨fun e he => hP e (hreports e he), fun a s' hok => hpost a s' (hresult a s' hok)⟩

/-- A part that needs nothing of the state. -/
theorem of_always (h : Reports (fun _ => True) P m post) : Reports pre P m post :=
  fun s _ => h s trivial

/-- What is known of the result in another way. -/
theorem and (h : Reports pre P m post)
    (h' : ∀ s, pre s → ∀ a s', run m s = .ok (a, s') → post' a s') :
    Reports pre P m (fun a s => post a s ∧ post' a s) :=
  fun s hs => ⟨(h s hs).1, fun a s' hok => ⟨(h s hs).2 a s' hok, h' s hs a s' hok⟩⟩

theorem bind (hm : Reports pre P m post) (hf : ∀ a, Reports (post a) P (f a) final) :
    Reports pre P (m >>= f) final := by
  intro s hs
  obtain ⟨hreports, hresult⟩ := hm s hs
  cases hms : m s with
  | mk l r =>
    rw [hms] at hreports
    cases r with
    | error x =>
      have hfail : run (m >>= f) s = .error x := by
        show ((m >>= f) s).2 = _
        rw [bind_error hms]
      rw [bind_error hms]
      exact ⟨hreports, fun b s' hok => by rw [hfail] at hok; cases hok⟩
    | ok p =>
      obtain ⟨a, s₁⟩ := p
      obtain ⟨hrest, hfinal⟩ := hf a s₁ (hresult a s₁ (congrArg Prod.snd hms))
      have hlast : run (m >>= f) s = run (f a) s₁ := by
        show ((m >>= f) s).2 = _
        rw [bind_ok hms]
        rfl
      rw [bind_ok hms, hlast]
      refine ⟨fun e he => ?_, hfinal⟩
      rcases List.mem_append.mp he with he | he
      · exact hreports e he
      · exact hrest e he

theorem bind_known {q : α → Prop} {mid : σ → Prop} (hm : Reports pre P m (fun a s => q a ∧ mid s))
    (hf : ∀ a, q a → Reports mid P (f a) final) : Reports pre P (m >>= f) final :=
  hm.bind (fun a s hs => hf a hs.1 s hs.2)

theorem forM {g : α → Logged L σ ε PUnit} {l : List α}
    (hg : ∀ a ∈ l, Reports pre P (g a) (fun _ => pre)) :
    Reports pre P (l.forM g) (fun _ => pre) := by
  induction l with
  | nil => exact pure (fun _ hs => hs)
  | cons a rest ih =>
    have hcons : (a :: rest).forM g = g a >>= fun _ => rest.forM g := rfl
    rw [hcons]
    exact (hg a (by simp)).bind (fun _ => ih (fun b hb => hg b (by simp [hb])))

end Reports

end Logged

end OpsSysd
