import OpsSysd.OvsdbBatch
import OpsSysd.OvsdbCells

/-!
A transaction row by row, and what is observed of a table through commits. Each
row of the snapshot is taken to the row that the updates leave; a column of it
depends on the same column before. Nothing here is about a particular program.
-/

namespace OpsSysd.Ovsdb

variable {S : Schema}

section Leave

variable (t : Txn S)

/-- A row of the snapshot as the transaction leaves it. -/
def Txn.leave (r : Row S) : Row S := t.updates.foldl (fun r w => w.applyRow r) r

theorem Txn.updated_eq_map (db : Database S) : t.updated db = db.map t.leave := by
  unfold Txn.updated Txn.leave
  induction t.updates generalizing db with
  | nil => exact (List.map_id db).symm
  | cons w rest ih =>
    rw [List.foldl_cons, ih, Update.apply, List.map_map]
    rfl

theorem Txn.leave_table (r : Row S) : (t.leave r).table = r.table := by
  unfold Txn.leave
  induction t.updates generalizing r with
  | nil => rfl
  | cons w rest ih => rw [List.foldl_cons, ih, w.applyRow_table]

@[simp] theorem Txn.leave_uuid (r : Row S) : (t.leave r).uuid = r.uuid := by
  unfold Txn.leave
  induction t.updates generalizing r with
  | nil => rfl
  | cons w rest ih => rw [List.foldl_cons, ih, w.applyRow_uuid]

/-- Two states of one row that agree in a column are left with the same value there. -/
theorem Txn.leave_col {r r' : Row S} {c : S.Column} (htable : r.table = r'.table)
    (huuid : r.uuid = r'.uuid) (hcol : r.col c = r'.col c) :
    (t.leave r).col c = (t.leave r').col c := by
  unfold Txn.leave
  induction t.updates generalizing r r' with
  | nil => exact hcol
  | cons w rest ih =>
    rw [List.foldl_cons, List.foldl_cons]
    refine ih (by simp [htable]) (by simp [huuid]) ?_
    by_cases his : r.is (S.tableOf w.column) w.uuid = true
    · have his' : r'.is (S.tableOf w.column) w.uuid = true := by
        rw [Row.is_iff] at his ⊢
        exact ⟨htable.symm.trans his.1, huuid.symm.trans his.2⟩
      rw [w.applyRow_col_of_is his, w.applyRow_col_of_is his']
      by_cases hc : c = w.column
      · subst hc
        rw [Function.update_self, Function.update_self]
      · rw [Function.update_of_ne hc, Function.update_of_ne hc, hcol]
    · have his' : ¬ r'.is (S.tableOf w.column) w.uuid = true := by
        rw [Row.is_iff] at his ⊢
        rwa [← htable, ← huuid]
      rw [w.applyRow_of_not_is his, w.applyRow_of_not_is his', hcol]

/-- A column that no update writes keeps its value. -/
theorem Txn.leave_col_of_ne {c : S.Column} (h : ∀ w ∈ t.updates, w.column ≠ c) (r : Row S) :
    (t.leave r).col c = r.col c := by
  unfold Txn.leave
  generalize t.updates = ws at h
  induction ws generalizing r with
  | nil => rfl
  | cons w rest ih =>
    rw [List.foldl_cons, ih (w.applyRow r) (fun w' hw' => h w' (List.mem_cons_of_mem w hw')),
      w.applyRow_col_of_column_ne (Ne.symm (h w List.mem_cons_self))]

theorem rowsOf_apply (k : S.Table) (db : Database S) :
    rowsOf k (t.apply db) = (rowsOf k db).map t.leave ++ rowsOf k t.inserted := by
  unfold rowsOf Txn.apply
  rw [List.filter_append, t.updated_eq_map, List.filter_map]
  congr 2
  apply List.filter_congr
  intro r _
  simp [t.leave_table]

/-- The only row of a table, as it is read through the open transaction. -/
theorem Txn.find_single {k : S.Table} {db : Database S} {r : Row S} (h : rowsOf k db = [r])
    (hnone : rowsOf k t.inserted = []) : t.find k r.uuid db = some (t.leave r) := by
  have hinserted : findRow k r.uuid t.inserted = none := by
    rw [findRow, List.find?_eq_none]
    intro q hq his
    have hmem : q ∈ rowsOf k t.inserted := mem_rowsOf.mpr ⟨hq, ((q.is_iff _ _).mp his).1⟩
    rw [hnone] at hmem
    cases hmem
  have hupdated : rowsOf k (t.updated db) = [t.leave r] := by
    have happly := rowsOf_apply t k db
    rw [hnone, List.append_nil, h] at happly
    have hsplit : rowsOf k (t.apply db) = rowsOf k (t.updated db) ++ rowsOf k t.inserted :=
      List.filter_append _ _
    rwa [hsplit, hnone, List.append_nil] at happly
  have hhead : (rowsOf k (t.updated db)).head? = some (t.leave r) := by rw [hupdated]; rfl
  have hfind := findRow_head hhead
  rw [t.leave_uuid] at hfind
  unfold Txn.find
  rw [hinserted, hfind]
  rfl

end Leave

section Observed

variable {α : Type} {k : S.Table} {g : Row S → α}

/-- Of a table that was empty only the inserted rows are observed. -/
theorem observe_apply_of_nil (t : Txn S) {db : Database S} (h : observe k g db = []) :
    observe k g (t.apply db) = observe k g t.inserted := by
  have hrows : rowsOf k db = [] := List.map_eq_nil_iff.mp h
  unfold observe
  rw [rowsOf_apply, hrows]
  rfl

/-- The lock is held, there is something to change and the server accepts it: what is observed
afterwards is what the transaction makes of any database that looks like the snapshot. -/
theorem observe_commit_success (hg : Observable k g) {s : Idl S} (hs : s.LeavesTable k g)
    {t : Txn S} {after : List α} (hlock : s.hasLock = true) (ht : t.isEmpty = false)
    (hstatus : (s.replies 0).status = .success)
    (h : ∀ db, (observe k g db).Perm (observe k g s.snapshot) →
      (observe k g (t.apply db)).Perm after) :
    (observe k g (s.commit t).2.snapshot).Perm after := by
  have hcommit : s.commit t = ((s.replies 0).status, _) :=
    (if_neg (by simp [hlock])).trans (if_neg (by simp [ht]))
  rw [hcommit]
  show (observe k g (s.replied t).snapshot).Perm _
  refine (observe_deliverAll hg _ (hs 0).2).trans ?_
  have hmet : (observe k g s.met.snapshot).Perm (observe k g s.snapshot) :=
    observe_deliverAll hg { s with replies := fun i => s.replies (i + 1) } (hs 0).1
  unfold Idl.change
  rw [if_pos hstatus]
  show (observe k g (replica (t.apply s.met.snapshot))).Perm _
  rw [hg]
  exact h _ hmet

/-- While a table is outside the footprint, only commits that leave it alone matter to a
property of the snapshot and the replies. -/
theorem commits_kept {F : Footprint S} (hk : ¬ F.tables k) {I : Idl S → Prop}
    (hsame : ∀ s s', s'.snapshot = s.snapshot → s'.replies = s.replies → I s → I s')
    (hcommit : ∀ s t, t.Untouched (fun c => S.tableOf c = k) → rowsOf k t.inserted = [] →
      I s → I (s.commit t).2) :
    Kept F (fun s => I s ∧ ∀ t, s.txn = .opened t → t.Untouched (fun c => S.tableOf c = k) ∧
      rowsOf k t.inserted = []) where
  create s _ h := by
    refine ⟨hsame s _ rfl rfl h.1, fun t ht => ?_⟩
    cases ht
    exact ⟨Txn.untouched_empty _, rfl⟩
  insert s t k' hk' ht h := by
    refine ⟨hsame s _ rfl rfl h.1, fun t' ht' => ?_⟩
    cases ht'
    have hgrows : t.Grows F _ := Txn.Grows.insert t k' ⟨s.client, s.nextSerial⟩ hk'
    have hC : ∀ c, S.tableOf c = k → ¬ F.columns c := fun c hc hF => hk (hc ▸ F.table_of c hF)
    exact ⟨hgrows.untouched hC (h.2 t ht).1, (hgrows.rows k hk).trans (h.2 t ht).2⟩
  write s t w hw ht h := by
    refine ⟨hsame s _ rfl rfl h.1, fun t' ht' => ?_⟩
    cases ht'
    have hgrows : t.Grows F _ := Txn.Grows.put t w hw
    have hC : ∀ c, S.tableOf c = k → ¬ F.columns c := fun c hc hF => hk (hc ▸ F.table_of c hF)
    exact ⟨hgrows.untouched hC (h.2 t ht).1, (hgrows.rows k hk).trans (h.2 t ht).2⟩
  commit s t ht h := by
    obtain ⟨huntouched, hnone⟩ := h.2 t ht
    refine ⟨hcommit s t huntouched hnone h.1, fun t' ht' => ?_⟩
    rw [Idl.commit_txn] at ht'
    cases ht'
  destroy s h := by
    refine ⟨hsame s _ rfl rfl h.1, fun t ht => ?_⟩
    cases ht

/-- A table outside the footprint looks the same through all steps. -/
theorem observe_kept {F : Footprint S} (hk : ¬ F.tables k) (hg : Observable k g)
    (before : List α) :
    Kept F (fun s => (s.LeavesTable k g ∧ (observe k g s.snapshot).Perm before) ∧
      ∀ t, s.txn = .opened t → t.Untouched (fun c => S.tableOf c = k) ∧
        rowsOf k t.inserted = []) := by
  refine commits_kept hk (fun s s' hsnapshot hreplies h => ?_) (fun s t huntouched hnone h => ?_)
  · unfold Idl.LeavesTable
    rw [hsnapshot, hreplies]
    exact h
  · have hinserted : observe k g t.inserted = [] := by
      unfold observe
      rw [hnone]
      rfl
    have hperm := observe_commit hg h.1 t huntouched.updates
    rw [hinserted, ite_self, List.append_nil] at hperm
    exact ⟨h.1.commit t, hperm.trans h.2⟩

end Observed

section Every

variable {c : S.Column} {Q : S.Value c → Prop}

/-- All rows of the column's table have such a value there. -/
def Every (c : S.Column) (Q : S.Value c → Prop) (db : Database S) : Prop :=
  ∀ r ∈ rowsOf (S.tableOf c) db, Q (r.col c)

/-- Where all values are such values, the delivery leaves such values. -/
def KeepsEvery (c : S.Column) (Q : S.Value c → Prop) (d : Delivery S) : Prop :=
  ∀ db, Every c Q db → Every c Q (d db)

/-- During commits the other clients leave such values. -/
def Idl.KeepsEvery (s : Idl S) (c : S.Column) (Q : S.Value c → Prop) : Prop :=
  ∀ i, (∀ d ∈ (s.replies i).before, Ovsdb.KeepsEvery c Q d) ∧
    ∀ d ∈ (s.replies i).after, Ovsdb.KeepsEvery c Q d

theorem Every.replica (hc : c ∈ S.alerting ∨ c ∈ S.writeOnly) {db : Database S}
    (h : Every c Q db) : Every c Q (replica db) := by
  intro r hr
  obtain ⟨hin, htable⟩ := mem_rowsOf.mp hr
  obtain ⟨q, hq, rfl⟩ := List.mem_map.mp hin
  have hcol : q.replicated.col c = q.col c := if_pos hc
  rw [hcol]
  exact h q (mem_rowsOf.mpr ⟨(List.mem_filter.mp hq).1, htable⟩)

theorem Every.apply {db : Database S} (h : Every c Q db) {t : Txn S}
    (hupdates : (∀ w ∈ t.updates, w.column ≠ c) ∨ rowsOf (S.tableOf c) db = [])
    (hinserted : Every c Q t.inserted) : Every c Q (t.apply db) := by
  intro r hr
  rw [rowsOf_apply] at hr
  rcases List.mem_append.mp hr with hold | hnew
  · obtain ⟨q, hq, rfl⟩ := List.mem_map.mp hold
    rcases hupdates with hupdates | hnone
    · rw [t.leave_col_of_ne hupdates]
      exact h q hq
    · rw [hnone] at hq
      cases hq
  · exact hinserted r hnew

theorem every_deliverAll (hc : c ∈ S.alerting ∨ c ∈ S.writeOnly) {s : Idl S}
    {ds : List (Delivery S)} (hds : ∀ d ∈ ds, KeepsEvery c Q d) (h : Every c Q s.snapshot) :
    Every c Q (s.deliverAll ds).snapshot := by
  rw [Idl.deliverAll_snapshot]
  generalize s.snapshot = db at h
  induction ds generalizing db with
  | nil => exact h
  | cons d rest ih =>
    have hd : Every c Q (d db) := hds d List.mem_cons_self db h
    exact ih (fun d' hd' => hds d' (List.mem_cons_of_mem d hd')) _ (hd.replica hc)

theorem Idl.KeepsEvery.met {s : Idl S} (hs : s.KeepsEvery c Q)
    (hc : c ∈ S.alerting ∨ c ∈ S.writeOnly) (h : Every c Q s.snapshot) :
    Every c Q s.met.snapshot :=
  every_deliverAll (s := { s with replies := fun i => s.replies (i + 1) }) hc (hs 0).1 h

/-- Whatever becomes of the commit, all values are such values afterwards. -/
theorem every_commit (hc : c ∈ S.alerting ∨ c ∈ S.writeOnly) {s : Idl S}
    (hs : s.KeepsEvery c Q) (h : Every c Q s.snapshot) {t : Txn S}
    (hupdates : (∀ w ∈ t.updates, w.column ≠ c) ∨ rowsOf (S.tableOf c) s.met.snapshot = [])
    (hinserted : Every c Q t.inserted) : Every c Q (s.commit t).2.snapshot := by
  have hmet := hs.met hc h
  unfold Idl.commit
  split_ifs
  · exact h
  · exact h
  · refine every_deliverAll hc (hs 0).2 ?_
    unfold Idl.change
    split_ifs
    · exact (hmet.apply hupdates hinserted).replica hc
    · exact hmet

theorem Idl.KeepsEvery.commit {s : Idl S} (hs : s.KeepsEvery c Q) (t : Txn S) :
    (s.commit t).2.KeepsEvery c Q := by
  unfold Idl.commit
  split_ifs
  · exact hs
  · exact hs
  · intro i
    show _ ∧ _
    simp only [Idl.finish, Idl.replied_replies]
    exact hs (i + 1)

/-- The values of a table outside the footprint stay such values through all steps. -/
theorem every_kept {F : Footprint S} (hF : ¬ F.tables (S.tableOf c))
    (hc : c ∈ S.alerting ∨ c ∈ S.writeOnly) :
    Kept F (fun s => (s.KeepsEvery c Q ∧ Every c Q s.snapshot) ∧
      ∀ t, s.txn = .opened t → t.Untouched (fun c' => S.tableOf c' = S.tableOf c) ∧
        rowsOf (S.tableOf c) t.inserted = []) := by
  refine commits_kept hF (fun s s' hsnapshot hreplies h => ?_) (fun s t huntouched hnone h => ?_)
  · unfold Idl.KeepsEvery
    rw [hsnapshot, hreplies]
    exact h
  · have hupdates : ∀ w ∈ t.updates, w.column ≠ c :=
      fun w hw heq => huntouched.updates w hw (congrArg S.tableOf heq)
    refine ⟨h.1.commit t, every_commit hc h.1 h.2 (Or.inl hupdates) (fun r hr => ?_)⟩
    rw [hnone] at hr
    cases hr

end Every

end OpsSysd.Ovsdb
