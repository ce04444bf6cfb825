import OpsSysd.Locking

/-!
What no commit of a filled store and no other client changes stays as it is, in
every interleaving. The relation between a store and a later one is a parameter;
the commits that may break it are those that add rows to the table that is filled
only once.
-/

namespace OpsSysd.Locking

variable {σ ι δ κ υ : Type} {M : Program σ ι δ κ} {R : δ → δ → Prop} {P : κ → Prop}
  {rows : δ → List υ} {added : κ → List υ} {good : σ → Prop} {net net₀ net' : Net σ δ κ}

/-- The program among other clients that keep to a relation as well. -/
def Program.among (M : Program σ ι δ κ) (R : δ → δ → Prop) : Program σ ι δ κ :=
  { M with others := fun d d' => M.others d d' ∧ R d d' }

/-- The program on the inputs that meet a condition. -/
def Program.within (M : Program σ ι δ κ) (G : ι → Prop) : Program σ { input // G input } δ κ :=
  { M with
    seen := fun input => M.seen input.val
    pass := fun input => M.pass input.val }

/-- The program of the processes that start in some of the states. -/
def Program.starting (M : Program σ ι δ κ) (K : σ → Prop) : Program σ ι δ κ :=
  { M with starts := fun s => M.starts s ∧ K s }

theorem FilledOnce.within (h : FilledOnce M rows added good) (G : ι → Prop) :
    FilledOnce (M.within G) rows added good where
  starts := h.starts
  kept input := h.kept input.val
  apply := h.apply
  others := h.others
  agrees := h.agrees
  later input := h.later input.val
  first input := h.first input.val

theorem FilledOnce.starting {K : σ → Prop} (h : FilledOnce M rows added good)
    (hK : ∀ input s s', K s → (M.pass input s).2 = some s' → K s') :
    FilledOnce (M.starting K) rows added (fun s => good s ∧ K s) where
  starts s hs := ⟨h.starts s hs.1, hs.2⟩
  kept input s s' hs hs' := ⟨h.kept input s s' hs.1 hs', hK input s s' hs.2 hs'⟩
  apply := h.apply
  others := h.others
  agrees := h.agrees
  later input s hs := h.later input s hs.1
  first input s hs := h.first input s hs.1

theorem Step.of_among (h : Step (M.among R) net net') : Step M net net' := by
  cases h with
  | start free starts => exact .start free starts
  | stop i => exact .stop i
  | disconnect running => exact .disconnect running
  | grant running free => exact .grant running free
  | others change => exact .others change.1
  | pass input waits informed => exact .pass input waits informed
  | commit passes next lock => exact .commit passes next lock
  | refuse passes next told => exact .refuse passes next told
  | finish passes done after => exact .finish passes done after

/-- Every commit under way meets the condition. -/
def Committing (P : κ → Prop) (net : Net σ δ κ) : Prop :=
  ∀ i pass, net.process i = some (.passing pass) → ∀ c ∈ pass.commits, P c

theorem Committing.place {i : ℕ} {q : Option (Process σ δ κ)} (h : Committing P net)
    (hq : ∀ pass, q = some (.passing pass) → ∀ c ∈ pass.commits, P c) :
    Committing P (net.place i q) := by
  intro j pass hpass
  rcases process_place hpass with ⟨_, hnew⟩ | ⟨_, hold⟩
  · exact hq pass hnew
  · exact h j pass hold

theorem Committing.advanced {i : ℕ} {pass : Pass σ δ κ} {c : κ} {rest : List κ}
    (h : Committing P net) (hnext : pass.commits = c :: rest)
    (hpass : ∀ c ∈ pass.commits, P c) : Committing P (net.advanced i pass rest) := by
  refine h.place (fun pass' heq c' hc' => ?_)
  cases heq
  apply hpass
  rw [hnext]
  exact List.mem_cons_of_mem c hc'

/-- What the passes of good states commit is all there is to commit. -/
theorem Committing.step (hpass : ∀ input s, good s → ∀ c ∈ (M.pass input s).1, P c)
    (hinv : Inv rows added good net) (h : Committing P net) (hstep : Step M net net') :
    Committing P net' := by
  cases hstep with
  | start _ _ => exact h.place (fun _ heq => by cases heq)
  | stop i =>
    have hplaced : Committing P (net.place i none) := h.place (fun _ heq => by cases heq)
    exact hplaced
  | @disconnect i q running =>
    have hplaced : Committing P (net.place i (some q.disconnected)) := by
      refine h.place (fun pass heq c hc => ?_)
      cases q with
      | waiting s => cases heq
      | passing before =>
        cases heq
        exact h i before running c hc
    exact hplaced
  | grant _ _ => exact h
  | others _ => exact h
  | @pass i s input waits _ =>
    refine h.place (fun pass heq c hc => ?_)
    cases heq
    exact hpass input s (hinv.process i _ waits) c hc
  | @commit i pass c rest passes next _ =>
    have hchanged : Committing P (net.changed i M pass c) := h
    exact hchanged.advanced next (h i pass passes)
  | @refuse i pass c rest passes next _ => exact h.advanced next (h i pass passes)
  | finish _ _ _ => exact h.place (fun _ heq => by cases heq)

theorem committing_of_reaches (hM : FilledOnce M rows added good) (hinitial : net₀.Initial)
    (hempty : rows net₀.store = [])
    (hpass : ∀ input s, good s → ∀ c ∈ (M.pass input s).1, P c) (h : Reaches M net₀ net) :
    Committing P net := by
  induction h with
  | refl =>
    intro i pass hpass
    rw [hinitial.process i] at hpass
    cases hpass
  | tail hreach hstep ih =>
    exact ih.step hpass (inv_of_reaches hM hinitial hempty hreach) hstep

/-- A commit that takes effect over a filled store adds no rows to the table. -/
theorem Inv.added_eq_nil {i : ℕ} {pass : Pass σ δ κ} {c : κ} {rest : List κ}
    (h : Inv rows added good net) (hrows : rows net.store ≠ [])
    (hpasses : net.process i = some (.passing pass)) (hnext : pass.commits = c :: rest)
    (hdropped : pass.dropped = false) : added c = [] := by
  by_contra hadded
  have hfits : PassFits rows added good net i pass := h.process i _ hpasses
  have hhead : c ∈ pass.commits.head? := by rw [hnext]; rfl
  exact hrows (hfits.first c hhead hadded hdropped).1.2

/-- From a filled store on, what the commits without rows for the table and the other
clients keep is kept. -/
theorem retained_of_reaches (hrefl : ∀ d, R d d)
    (htrans : ∀ d d' d'', R d d' → R d' d'' → R d d'') (hM : FilledOnce M rows added good)
    (hfilled : ∀ d d', R d d' → rows d ≠ [] → rows d' ≠ [])
    (hkeeps : ∀ input s, good s → ∀ c ∈ (M.pass input s).1,
      added c ≠ [] ∨ ∀ d, R d (M.apply c d)) (hinitial : net₀.Initial)
    (hempty : rows net₀.store = []) (hreach : Reaches M net₀ net) (hrows : rows net.store ≠ [])
    (h : Reaches (M.among R) net net') : R net.store net'.store := by
  suffices hall : Reaches M net₀ net' ∧ R net.store net'.store from hall.2
  induction h with
  | refl => exact ⟨hreach, hrefl _⟩
  | @tail net₁ net₂ _ hstep ih =>
    obtain ⟨hreach₁, hkept⟩ := ih
    refine ⟨hreach₁.tail hstep.of_among, htrans _ _ _ hkept ?_⟩
    have hinv := inv_of_reaches hM hinitial hempty hreach₁
    have hcommitting := committing_of_reaches hM hinitial hempty hkeeps hreach₁
    cases hstep with
    | others change => exact change.2
    | @commit i pass c rest passes next lock =>
      have hc : c ∈ pass.commits := by rw [next]; exact List.mem_cons_self
      rcases hcommitting i pass passes c hc with hadds | hall
      · exact absurd (hinv.added_eq_nil (hfilled _ _ hkept hrows) passes next lock.2) hadds
      · exact hall net₁.store
    | _ => exact hrefl _

/-- What every commit that fills the table establishes and nothing else breaks holds of
every filled store. -/
theorem established_of_reaches {F : δ → Prop} (hM : FilledOnce M rows added good)
    (hfills : ∀ input s, good s → ∀ c ∈ (M.pass input s).1,
      (added c ≠ [] ∧ ∀ d, F (M.apply c d)) ∨ (added c = [] ∧ ∀ d, F d → F (M.apply c d)))
    (hothers : ∀ d d', R d d' → F d → F d') (hinitial : net₀.Initial)
    (hempty : rows net₀.store = []) (h : Reaches (M.among R) net₀ net)
    (hrows : rows net.store ≠ []) : F net.store := by
  suffices hall : Reaches M net₀ net ∧ (rows net.store ≠ [] → F net.store) from hall.2 hrows
  clear hrows
  induction h with
  | refl => exact ⟨.refl, fun hrows => absurd hempty hrows⟩
  | @tail net₁ net₂ _ hstep ih =>
    obtain ⟨hreach₁, hholds⟩ := ih
    refine ⟨hreach₁.tail hstep.of_among, ?_⟩
    have hcommitting := committing_of_reaches hM hinitial hempty hfills hreach₁
    cases hstep with
    | @others d change =>
      intro hrows
      refine hothers _ _ change.2 (hholds (fun hnone => hrows ?_))
      have hsub := hM.others _ _ change.1
      rw [hnone] at hsub
      exact List.subperm_nil.mp hsub
    | @commit i pass c rest passes next lock =>
      intro hrows
      have hc : c ∈ pass.commits := by rw [next]; exact List.mem_cons_self
      rcases hcommitting i pass passes c hc with ⟨_, hestablishes⟩ | ⟨hadded, hkeeps⟩
      · exact hestablishes net₁.store
      · refine hkeeps net₁.store (hholds (fun hnone => hrows ?_))
        change rows (M.apply c net₁.store) = []
        rw [hM.apply, hnone, hadded]
        rfl
    | _ => exact hholds

/-- What every commit keeps, whatever the store, and the other clients keep as well, is kept in
every interleaving, whoever holds the lock. -/
theorem kept_of_reaches {F : δ → Prop} (hstarts : ∀ s, M.starts s → good s)
    (hkept : ∀ input s s', good s → (M.pass input s).2 = some s' → good s')
    (hcommits : ∀ input s, good s → ∀ c ∈ (M.pass input s).1, ∀ d, F d → F (M.apply c d))
    (hothers : ∀ d d', M.others d d' → F d → F d') (hinitial : net₀.Initial)
    (hF : F net₀.store) (h : Reaches M net₀ net) : F net.store := by
  have hM : FilledOnce M (fun _ => ([] : List Unit)) (fun _ => []) good :=
    ⟨hstarts, hkept, fun _ _ => rfl, fun _ _ _ => .refl _, fun _ _ _ _ => rfl, fun _ _ _ _ _ => rfl,
      fun _ _ _ _ _ hadded => absurd rfl hadded⟩
  induction h with
  | refl => exact hF
  | @tail net₁ net₂ hreach hstep ih =>
    have hcommitting := committing_of_reaches hM hinitial rfl hcommits hreach
    cases hstep with
    | others change => exact hothers _ _ change ih
    | @commit i pass c rest passes next _ =>
      have hc : c ∈ pass.commits := by rw [next]; exact List.mem_cons_self
      exact hcommitting i pass passes c hc net₁.store ih
    | _ => exact ih

/-- Nobody runs at the moment, and the store is what the last commit and the other clients
have made of it. -/
structure Net.Idle (net : Net σ δ κ) : Prop where
  current : net.store ∈ net.recent
  owner : net.owner = none
  process : ∀ i, net.process i = none

theorem Net.Initial.idle (h : net.Initial) : net.Idle :=
  ⟨by simp [h.recent], h.owner, h.process⟩

theorem Net.Idle.others (h : net.Idle) (d : δ) :
    ({ net with store := d, recent := net.recent ++ [d] } : Net σ δ κ).Idle :=
  ⟨List.mem_append_right _ (List.mem_singleton_self d), h.owner, h.process⟩

/-- A process that keeps the lock makes all the commits of its pass and stops. -/
theorem reaches_commits {i : ℕ} {pass : Pass σ δ κ}
    (hpasses : net.process i = some (.passing pass)) (howner : net.owner = some i)
    (hdropped : pass.dropped = false) (hcurrent : net.store ∈ net.recent)
    (hothers : ∀ j, j ≠ i → net.process j = none) : ∃ net', Reaches M net net' ∧ net'.Idle ∧
      net'.store = pass.commits.foldl (fun d c => M.apply c d) net.store := by
  generalize hcommits : pass.commits = commits
  induction commits generalizing net pass with
  | nil =>
    refine ⟨net.left i none, .single (.stop i), ⟨hcurrent, if_pos howner, fun j => ?_⟩, rfl⟩
    change Function.update net.process i none j = none
    by_cases hj : j = i
    · rw [hj, Function.update_self]
    · rw [Function.update_of_ne hj, hothers j hj]
  | cons c rest ih =>
    have hstep : Step M net ((net.changed i M pass c).advanced i pass rest) :=
      .commit hpasses hcommits ⟨howner, hdropped⟩
    have hnext : ((net.changed i M pass c).advanced i pass rest).owner = some i := howner
    have hnone : ∀ j, j ≠ i →
        ((net.changed i M pass c).advanced i pass rest).process j = none := by
      intro j hj
      change Function.update net.process i _ j = none
      rw [Function.update_of_ne hj, hothers j hj]
    obtain ⟨net', hreaches, hidle, hstore⟩ := ih (process_place_self (net.changed i M pass c) i _)
      hnext (by simp [Net.changed, howner]) (List.mem_singleton_self _) hnone rfl
    exact ⟨net', .head hstep hreaches, hidle, hstore⟩

/-- A process that is alone starts, is granted the lock, makes a whole pass and stops. -/
theorem reaches_alone_pass (hidle : net.Idle) {s : σ} {input : ι} (hstarts : M.starts s)
    (hagrees : ∀ snapshot, M.seen input s = some snapshot → M.agrees snapshot net.store) :
    ∃ net', Reaches M net net' ∧ net'.Idle ∧
      net'.store = (M.pass input s).1.foldl (fun d c => M.apply c d) net.store := by
  let waiting := net.place 0 (some (.waiting s))
  let holding : Net σ δ κ := { waiting with owner := some 0 }
  have hstart : Step M net waiting := .start (hidle.process 0) hstarts
  have hgrant : Step M waiting holding := .grant (process_place_self net 0 _) hidle.owner
  have hpass : Step M holding (holding.begun 0 M input s) :=
    .pass input (process_place_self net 0 _)
      (fun _ snapshot hseen => ⟨net.store, hidle.current, hagrees _ hseen⟩)
  have hnone : ∀ j, j ≠ 0 → (holding.begun 0 M input s).process j = none := by
    intro j hj
    change Function.update (Function.update net.process 0 _) 0 _ j = none
    rw [Function.update_of_ne hj, Function.update_of_ne hj, hidle.process]
  obtain ⟨net', hreaches, hidle', hstore⟩ := @reaches_commits _ _ _ _ M
    (holding.begun 0 M input s) 0 _ (process_place_self holding 0 _) rfl (by simp [holding])
    hidle.current hnone
  exact ⟨net', .head hstart (.head hgrant (.head hpass hreaches)), hidle', hstore⟩

end OpsSysd.Locking
