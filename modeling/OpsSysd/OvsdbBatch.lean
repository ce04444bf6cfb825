import OpsSysd.OvsdbRun

/-!
Commits one after another. Which of them succeed is fixed by the lock and the
server's replies before the first; what a table then holds is what it held
before with the rows of the successful ones added, as long as the other clients
leave it alone.
-/

namespace OpsSysd.Ovsdb

variable {S : Schema}

section Outcome

/-- The commit with this number succeeds, if every one before it asks the server. -/
def Idl.succeeds (s : Idl S) (i : ℕ) : Prop :=
  s.hasLock = true ∧ (∀ j < i, (s.replies j).hasLock = true) ∧ (s.replies i).status = .success

variable (s : Idl S) (t : Txn S)

@[simp] theorem Idl.met_replies : s.met.replies = fun i => s.replies (i + 1) :=
  Idl.deliverAll_replies _ _

@[simp] theorem Idl.change_replies (status : TxnStatus) :
    (s.change status t).replies = s.replies := by
  unfold Idl.change
  split_ifs <;> rfl

theorem Idl.replied_replies : (s.replied t).replies = fun i => s.replies (i + 1) := by
  unfold Idl.replied Idl.setLock
  simp

variable {t}

theorem Idl.commit_success_iff (ht : t.isEmpty = false) :
    (s.commit t).1 = .success ↔ s.succeeds 0 := by
  unfold Idl.succeeds
  cases hlock : s.hasLock with
  | false => simp [Idl.commit, hlock]
  | true => simp [Idl.commit_status s t hlock ht]

/-- The commits after this one are numbered from it. -/
theorem Idl.succeeds_commit (ht : t.isEmpty = false) (i : ℕ) :
    (s.commit t).2.succeeds i ↔ s.succeeds (i + 1) := by
  unfold Idl.succeeds
  cases hlock : s.hasLock with
  | false => simp [Idl.commit, Idl.finish, hlock]
  | true =>
    have hcommit : (s.commit t).2.hasLock = (s.replies 0).hasLock ∧
        (s.commit t).2.replies = fun i => s.replies (i + 1) := by
      unfold Idl.commit
      simp only [hlock, ht, Bool.true_eq_false, Bool.false_eq_true, if_false]
      exact ⟨rfl, s.replied_replies t⟩
    rw [hcommit.1, hcommit.2]
    simp only [true_and]
    constructor
    · rintro ⟨hfirst, hrest, hstatus⟩
      refine ⟨fun j hj => ?_, hstatus⟩
      cases j with
      | zero => exact hfirst
      | succ j => exact hrest j (by omega)
    · rintro ⟨hall, hstatus⟩
      exact ⟨hall 0 (by omega), fun j hj => hall (j + 1) (by omega), hstatus⟩

end Outcome

section Observation

variable {α : Type} (k : S.Table) (g : Row S → α)

/-- What is observed of the rows of a table. -/
def observe (db : Database S) : List α := (rowsOf k db).map g

/-- The client keeps what is observed. -/
def Observable : Prop := ∀ db : Database S, observe k g (replica db) = observe k g db

/-- The delivery leaves what is observed alone, up to the order of the rows. -/
def Leaves (d : Delivery S) : Prop := ∀ db, (observe k g (d db)).Perm (observe k g db)

/-- During commits the other clients leave the table alone. -/
def Idl.LeavesTable (s : Idl S) : Prop :=
  ∀ i, (∀ d ∈ (s.replies i).before, Leaves k g d) ∧ ∀ d ∈ (s.replies i).after, Leaves k g d

variable {k g}

theorem observe_deliverAll (hg : Observable k g) (s : Idl S) {ds : List (Delivery S)}
    (hds : ∀ d ∈ ds, Leaves k g d) :
    (observe k g (s.deliverAll ds).snapshot).Perm (observe k g s.snapshot) := by
  rw [Idl.deliverAll_snapshot]
  generalize s.snapshot = db
  induction ds generalizing db with
  | nil => exact .refl _
  | cons d rest ih =>
    rw [List.foldl_cons]
    refine (ih (fun d' hd' => hds d' (by simp [hd'])) _).trans ?_
    rw [hg]
    exact hds d (by simp) db

theorem observe_apply (t : Txn S) (h : ∀ w ∈ t.updates, S.tableOf w.column ≠ k)
    (db : Database S) : observe k g (t.apply db) = observe k g db ++ observe k g t.inserted := by
  have hupdated : ∀ (ws : List (Update S)) (db : Database S),
      (∀ w ∈ ws, S.tableOf w.column ≠ k) →
      rowsOf k (ws.foldl (fun db w => w.apply db) db) = rowsOf k db := by
    intro ws
    induction ws with
    | nil => intro db _; rfl
    | cons w rest ih =>
      intro db hws
      rw [List.foldl_cons, ih _ (fun w' hw' => hws w' (by simp [hw'])),
        rowsOf_apply_of_ne w (hws w (by simp))]
  unfold observe Txn.apply
  have happend : rowsOf k (t.updated db ++ t.inserted) =
      rowsOf k (t.updated db) ++ rowsOf k t.inserted := List.filter_append _ _
  rw [happend, List.map_append]
  unfold Txn.updated
  rw [hupdated t.updates db h]

theorem observe_commit (hg : Observable k g) {s : Idl S} (hs : s.LeavesTable k g) (t : Txn S)
    (h : ∀ w ∈ t.updates, S.tableOf w.column ≠ k) :
    (observe k g (s.commit t).2.snapshot).Perm (observe k g s.snapshot ++
      if (s.commit t).1 = .success then observe k g t.inserted else []) := by
  obtain ⟨hbefore, hafter⟩ := hs 0
  by_cases hlock : s.hasLock = false
  · have hcommit : s.commit t = (.notLocked, _) := if_pos hlock
    rw [hcommit]
    simp [Idl.finish]
  · by_cases hempty : t.isEmpty = true
    · have hcommit : s.commit t = (.unchanged, _) := (if_neg hlock).trans (if_pos hempty)
      rw [hcommit]
      simp [Idl.finish]
    · have hcommit : s.commit t = ((s.replies 0).status, _) :=
        (if_neg hlock).trans (if_neg hempty)
      rw [hcommit]
      show (observe k g (s.replied t).snapshot).Perm _
      refine (observe_deliverAll hg _ hafter).trans ?_
      have hmet : (observe k g s.met.snapshot).Perm (observe k g s.snapshot) :=
        observe_deliverAll hg { s with replies := fun i => s.replies (i + 1) } hbefore
      dsimp only
      unfold Idl.change
      split_ifs
      · show (observe k g (replica (t.apply s.met.snapshot))).Perm _
        rw [hg, observe_apply t h]
        exact hmet.append_right _
      · rw [List.append_nil]
        exact hmet

theorem Idl.LeavesTable.commit {s : Idl S} (hs : s.LeavesTable k g) (t : Txn S) :
    (s.commit t).2.LeavesTable k g := by
  unfold Idl.commit
  split_ifs
  · exact hs
  · exact hs
  · intro i
    show _ ∧ _
    simp only [Idl.finish, Idl.replied_replies]
    exact hs (i + 1)

end Observation

section Committed

/-- What the successful ones among the commits insert. -/
def stored (fs : List (Finished S)) : Database S :=
  (fs.filter (fun f => f.status = .success)).flatMap (fun f => f.txn.inserted)

variable {α : Type} (k : S.Table) (g : Row S → α)

/-- The second state comes from the first by these commits of insertions. -/
structure Committed (s₀ s : Idl S) (fs : List (Finished S)) : Prop where
  finished : s.finished = s₀.finished ++ fs
  updates : ∀ f ∈ fs, f.txn.updates = []
  status : ∀ i (h : i < fs.length), (fs[i].status = .success ↔ s₀.succeeds i)
  future : ∀ i, s.succeeds i ↔ s₀.succeeds (fs.length + i)
  observed : s₀.LeavesTable k g → s.LeavesTable k g ∧
    (observe k g s.snapshot).Perm (observe k g s₀.snapshot ++ observe k g (stored fs))

namespace Committed

variable {k g} {s₀ s s' : Idl S} {fs : List (Finished S)}

theorem refl (s : Idl S) : Committed k g s s [] := by
  refine ⟨by simp, by simp, by simp, by simp, fun h => ⟨h, ?_⟩⟩
  simp [stored, observe, rowsOf]

/-- Only the history, the snapshot, the lock and the replies matter. -/
theorem congr (h : Committed k g s₀ s fs) (hfinished : s'.finished = s.finished)
    (hsnapshot : s'.snapshot = s.snapshot) (hlock : s'.hasLock = s.hasLock)
    (hreplies : s'.replies = s.replies) : Committed k g s₀ s' fs := by
  refine ⟨hfinished.trans h.finished, h.updates, h.status, fun i => ?_, fun hs => ?_⟩
  · rw [← h.future]
    unfold Idl.succeeds
    rw [hlock, hreplies]
  · unfold Idl.LeavesTable
    rw [hreplies, hsnapshot]
    exact h.observed hs

theorem stored_append (fs : List (Finished S)) (f : Finished S) :
    stored (fs ++ [f]) = stored fs ++ if f.status = .success then f.txn.inserted else [] := by
  unfold stored
  rw [List.filter_append, List.flatMap_append]
  congr 1
  by_cases hf : f.status = .success
  · simp [hf]
  · simp [hf]

theorem commit (hg : Observable k g) (h : Committed k g s₀ s fs) {t : Txn S}
    (ht : t.isEmpty = false) (hupdates : t.updates = []) :
    ∃ f : Finished S, Committed k g s₀ (s.commit t).2 (fs ++ [f]) ∧ f.txn = t := by
  obtain ⟨f, hf, htxn, hstatus, _⟩ := s.commit_finished t
  refine ⟨f, ⟨?_, ?_, ?_, ?_, fun hs => ?_⟩, htxn⟩
  · rw [hf, h.finished, List.append_assoc]
  · intro f' hf'
    rcases List.mem_append.mp hf' with hold | hnew
    · exact h.updates f' hold
    · rw [List.mem_singleton.mp hnew, htxn, hupdates]
  · intro i hi
    by_cases hold : i < fs.length
    · rw [List.getElem_append_left hold]
      exact h.status i hold
    · have hlast : i = fs.length := by
        rw [List.length_append, List.length_singleton] at hi
        omega
      subst hlast
      rw [List.getElem_append_right (Nat.le_refl _)]
      simp only [Nat.sub_self, List.getElem_cons_zero]
      rw [hstatus, s.commit_success_iff ht, h.future, Nat.add_zero]
  · intro i
    rw [s.succeeds_commit ht, h.future, List.length_append, List.length_singleton]
    rw [show fs.length + 1 + i = fs.length + (i + 1) by omega]
  · obtain ⟨hleaves, hrows⟩ := h.observed hs
    refine ⟨hleaves.commit t, (observe_commit hg hleaves t (by simp [hupdates])).trans ?_⟩
    have happend : observe k g (stored (fs ++ [f])) = observe k g (stored fs) ++
        if (s.commit t).1 = .success then observe k g t.inserted else [] := by
      rw [stored_append, hstatus, htxn]
      unfold observe rowsOf
      split_ifs <;> simp
    rw [happend, ← List.append_assoc]
    exact hrows.append_right _

end Committed

end Committed

end OpsSysd.Ovsdb
