import OpsSysd.Ovsdb

/-!
Looking up rows and reading columns. A write changes what is read of its own
row and column and nothing else, whether the row was inserted by the open
transaction or lies in the snapshot.
-/

namespace OpsSysd.Ovsdb

variable {S : Schema}

section Bind

variable {α β : Type} {m : IdlM S α} {s s' : Idl S} {a : α}

theorem bind_ok (f : α → IdlM S β) (h : m s = .ok (a, s')) : (m >>= f) s = f a s' := by
  show (m s >>= fun p => f p.1 p.2) = _
  rw [h]
  rfl

theorem bind_error (f : α → IdlM S β) {e : Fault} (h : m s = .error e) :
    (m >>= f) s = .error e := by
  show (m s >>= fun p => f p.1 p.2) = _
  rw [h]
  rfl

theorem bind_eq_ok {f : α → IdlM S β} {b : β} (h : (m >>= f) s = .ok (b, s')) :
    ∃ a t, m s = .ok (a, t) ∧ f a t = .ok (b, s') := by
  cases hm : m s with
  | error e =>
    rw [bind_error f hm] at h
    cases h
  | ok q =>
    rw [bind_ok f hm] at h
    exact ⟨q.1, q.2, rfl, h⟩

theorem bind_pure_run (g : α → β) : (m >>= fun a => pure (g a)) s =
    (m s).map (fun q => (g q.1, q.2)) := by
  cases hm : m s with
  | error e => rw [bind_error _ hm]; rfl
  | ok q => rw [bind_ok _ hm]; rfl

end Bind

section Inversion

variable {s s' : Idl S}

theorem txnCreate_ok (h : (txnCreate : IdlM S Unit) s = .ok ((), s')) :
    s.txn = .none ∧ s' = { s with txn := .opened .empty, created := s.created + 1 } := by
  unfold txnCreate at h
  split at h
  · next ht =>
    cases h
    exact ⟨ht, rfl⟩
  · cases h

theorem txnCommitBlock_ok {status : TxnStatus}
    (h : (txnCommitBlock : IdlM S TxnStatus) s = .ok (status, s')) :
    ∃ t, s.txn = .opened t ∧ status = (s.commit t).1 ∧ s' = (s.commit t).2 := by
  unfold txnCommitBlock at h
  split at h
  · next t ht =>
    have hcommit : s.commit t = (status, s') := Except.ok.inj h
    exact ⟨t, ht, by rw [hcommit], by rw [hcommit]⟩
  · cases h

theorem txnDestroy_ok (h : (txnDestroy : IdlM S Unit) s = .ok ((), s')) :
    s' = { s with txn := .none } := by
  unfold txnDestroy at h
  split at h
  · cases h
  · cases h
    rfl

theorem txnInsert_ok {k : S.Table} {u : Uuid} (h : txnInsert k s = .ok (u, s')) :
    ∃ t, s.txn = .opened t ∧ u = ⟨s.client, s.nextSerial⟩ ∧
      s' = { s with
        nextSerial := s.nextSerial + 1
        txn := .opened { t with inserted := t.inserted ++ [⟨k, u, S.initial⟩] } } := by
  unfold txnInsert at h
  split at h
  · next t ht =>
    cases h
    exact ⟨t, ht, rfl, rfl⟩
  · cases h

/-- A write that succeeds was dropped or lies in the open transaction. -/
theorem txnWrite_ok {u : Uuid} {c : S.Column} {v : S.Value c}
    (h : txnWrite u c v s = .ok ((), s')) :
    s' = s ∨ ∃ t, s.txn = .opened t ∧ s' = { s with txn := .opened (t.put ⟨u, c, v⟩) } := by
  unfold txnWrite at h
  split at h
  · cases h
  · split_ifs at h
    · cases h
      exact .inl rfl
    · split at h
      · next t ht =>
        cases h
        exact .inr ⟨t, ht, rfl⟩
      · cases h

theorem deref_ok {α : Type} {o : Option α} {a : α} (h : (deref o : IdlM S α) s = .ok (a, s')) :
    o = some a ∧ s' = s := by
  cases o with
  | none => cases h
  | some b =>
    cases h
    exact ⟨rfl, rfl⟩

theorem rows_ok {k : S.Table} {l : List (Row S)} (h : rows k s = .ok (l, s')) :
    l = rowsOf k s.view ∧ s' = s := by
  cases h
  exact ⟨rfl, rfl⟩

end Inversion

theorem Row.is_iff (r : Row S) (k : S.Table) (u : Uuid) :
    r.is k u = true ↔ r.table = k ∧ r.uuid = u := by
  simp [Row.is]

@[simp] theorem Update.applyRow_table (w : Update S) (r : Row S) :
    (w.applyRow r).table = r.table := by
  unfold Update.applyRow
  split_ifs <;> rfl

@[simp] theorem Update.applyRow_uuid (w : Update S) (r : Row S) :
    (w.applyRow r).uuid = r.uuid := by
  unfold Update.applyRow
  split_ifs <;> rfl

theorem Update.applyRow_of_not_is (w : Update S) {r : Row S}
    (h : ¬ r.is (S.tableOf w.column) w.uuid = true) : w.applyRow r = r := if_neg h

theorem Update.applyRow_col_of_is (w : Update S) {r : Row S}
    (h : r.is (S.tableOf w.column) w.uuid = true) :
    (w.applyRow r).col = Function.update r.col w.column w.value := by
  unfold Update.applyRow
  rw [if_pos h]
  rfl

/-- A monitored row of one snapshot is in every snapshot that nothing alerting
separates from it, with the same alerting columns. -/
theorem Quiet.exists_row {db db' : Database S} (h : Quiet db db') {r : Row S} (hr : r ∈ db)
    (hmonitored : S.monitored r.table = true) :
    ∃ r' ∈ db', r'.table = r.table ∧ r'.uuid = r.uuid ∧
      ∀ c ∈ S.alerting, S.tableOf c = r.table → r'.col c = r.col c := by
  have hin : (r.table, r.uuid, (S.alerting.filter (fun c => S.tableOf c = r.table)).map
      (fun c => (⟨c, r.col c⟩ : (c : S.Column) × S.Value c))) ∈ signature db' := by
    refine h.subset (List.mem_map.mpr ⟨r, ?_, rfl⟩)
    exact List.mem_filter.mpr ⟨hr, hmonitored⟩
  obtain ⟨r', hr', heq⟩ := List.mem_map.mp hin
  have htable : r'.table = r.table := congrArg Prod.fst heq
  have huuid : r'.uuid = r.uuid := congrArg (fun q => q.2.1) heq
  have hcols := congrArg (fun q => q.2.2) heq
  simp only [htable] at hcols
  refine ⟨r', (List.mem_filter.mp hr').1, htable, huuid, fun c hc hct => ?_⟩
  have hpair := List.map_inj_left.mp hcols c (List.mem_filter.mpr ⟨hc, by simp [hct]⟩)
  simpa using hpair

theorem findRow_is {k : S.Table} {u : Uuid} {db : Database S} {r : Row S}
    (h : findRow k u db = some r) : r.is k u = true := by
  have hr := List.find?_some h
  exact hr

theorem findRow_apply (w : Update S) (k : S.Table) (u : Uuid) (db : Database S) :
    findRow k u (w.apply db) = (findRow k u db).map w.applyRow := by
  unfold findRow Update.apply
  rw [List.find?_map]
  congr 2
  funext r
  simp [Row.is]

theorem Update.applyRow_col_of_ne (w : Update S) {r : Row S} {c : S.Column} {u : Uuid}
    (hr : r.is (S.tableOf c) u = true) (h : ¬ (u = w.uuid ∧ c = w.column)) :
    (w.applyRow r).col c = r.col c := by
  by_cases his : r.is (S.tableOf w.column) w.uuid = true
  · rw [w.applyRow_col_of_is his]
    have hu : u = w.uuid := ((r.is_iff _ _).mp hr).2.symm.trans ((r.is_iff _ _).mp his).2
    rw [Function.update_of_ne (fun hc => h ⟨hu, hc⟩)]
  · rw [w.applyRow_of_not_is his]

theorem Update.applyRow_col_of_column_ne (w : Update S) {r : Row S} {c : S.Column}
    (h : c ≠ w.column) : (w.applyRow r).col c = r.col c := by
  unfold Update.applyRow
  split_ifs
  · exact Function.update_of_ne h _ _
  · rfl

theorem Txn.find_is (t : Txn S) {k : S.Table} {u : Uuid} {db : Database S} {r : Row S}
    (h : t.find k u db = some r) : r.is k u = true := by
  unfold Txn.find at h
  rcases Option.or_eq_some_iff.mp h with hin | ⟨_, hup⟩
  · exact findRow_is hin
  · exact findRow_is hup

theorem Txn.find_put (t : Txn S) (w : Update S) (k : S.Table) (u : Uuid) (db : Database S) :
    (t.put w).find k u db = (t.find k u db).map w.applyRow := by
  have hother : ∀ (db' : Database S) (r : Row S), findRow k u db' = some r →
      ¬ (k = S.tableOf w.column ∧ u = w.uuid) → w.applyRow r = r := by
    intro db' r hr hne
    apply w.applyRow_of_not_is
    intro his
    have hku := (r.is_iff _ _).mp (findRow_is hr)
    have hw := (r.is_iff _ _).mp his
    exact hne ⟨hku.1.symm.trans hw.1, hku.2.symm.trans hw.2⟩
  unfold Txn.put
  by_cases hin : (findRow (S.tableOf w.column) w.uuid t.inserted).isSome = true
  · rw [if_pos hin]
    unfold Txn.find Txn.updated
    simp only [findRow_apply]
    cases hfind : findRow k u t.inserted with
    | some r => rfl
    | none =>
      simp only [Option.map_none, Option.none_or]
      cases hup : findRow k u (t.updates.foldl (fun db w => w.apply db) db) with
      | none => rfl
      | some r =>
        rw [Option.map_some, hother _ r hup]
        rintro ⟨rfl, rfl⟩
        rw [hfind] at hin
        simp at hin
  · rw [if_neg hin]
    unfold Txn.find Txn.updated
    simp only [List.foldl_append, List.foldl_cons, List.foldl_nil, findRow_apply]
    cases hfind : findRow k u t.inserted with
    | none => rfl
    | some r =>
      simp only [Option.some_or, Option.map_some]
      rw [hother _ r hfind]
      rintro ⟨rfl, rfl⟩
      rw [hfind] at hin
      simp at hin

theorem rowsOf_apply_of_ne (w : Update S) {k : S.Table} (h : S.tableOf w.column ≠ k)
    (db : Database S) : rowsOf k (w.apply db) = rowsOf k db := by
  unfold rowsOf Update.apply
  induction db with
  | nil => rfl
  | cons r rest ih =>
    rw [List.map_cons, List.filter_cons, List.filter_cons, ih, w.applyRow_table]
    by_cases hr : r.is (S.tableOf w.column) w.uuid = true
    · have htable : r.table ≠ k := by
        rw [((r.is_iff _ _).mp hr).1]
        exact h
      simp [htable]
    · rw [w.applyRow_of_not_is hr]

/-- The identities of a table's rows. -/
def identities (k : S.Table) (db : Database S) : List Uuid := (rowsOf k db).map Row.uuid

theorem identities_apply_update (w : Update S) (k : S.Table) (db : Database S) :
    identities k (w.apply db) = identities k db := by
  unfold identities rowsOf Update.apply
  induction db with
  | nil => rfl
  | cons r rest ih =>
    rw [List.map_cons, List.filter_cons, List.filter_cons, w.applyRow_table]
    by_cases hr : r.table = k
    · simp only [hr, decide_true, if_true, List.map_cons, w.applyRow_uuid, ih]
    · simp only [hr, decide_false, Bool.false_eq_true, if_false, ih]

theorem identities_apply (t : Txn S) (k : S.Table) (db : Database S) :
    identities k (t.apply db) = identities k db ++ identities k t.inserted := by
  have hupdated : ∀ (ws : List (Update S)) (db : Database S),
      identities k (ws.foldl (fun db w => w.apply db) db) = identities k db := by
    intro ws
    induction ws with
    | nil => intro db; rfl
    | cons w rest ih =>
      intro db
      rw [List.foldl_cons, ih, identities_apply_update]
  rw [← hupdated t.updates db]
  unfold identities rowsOf Txn.apply Txn.updated
  rw [List.filter_append, List.map_append]

theorem identities_eq_nil {k : S.Table} {db : Database S} :
    identities k db = [] ↔ rowsOf k db = [] := List.map_eq_nil_iff

theorem rowsOf_replica {k : S.Table} (h : S.monitored k = true) (db : Database S) :
    rowsOf k (replica db) = (rowsOf k db).map Row.replicated := by
  unfold rowsOf replica
  rw [List.filter_map, List.filter_filter]
  congr 1
  apply List.filter_congr
  intro r _
  by_cases hr : r.table = k
  · simp [Row.replicated, hr, h]
  · simp [Row.replicated, hr]

theorem identities_replica {k : S.Table} (h : S.monitored k = true) (db : Database S) :
    identities k (replica db) = identities k db := by
  unfold identities
  rw [rowsOf_replica h, List.map_map]
  rfl

theorem identities_perm (k : S.Table) {db db' : Database S} (h : db.Perm db') :
    (identities k db).Perm (identities k db') := (h.filter _).map _

theorem Row.replicated_col (r : Row S) {c : S.Column} (h : c ∈ S.alerting ∨ c ∈ S.writeOnly) :
    r.replicated.col c = r.col c := if_pos h

theorem findRow_head {k : S.Table} {db : Database S} {r : Row S}
    (h : (rowsOf k db).head? = some r) : findRow k r.uuid db = some r := by
  unfold rowsOf at h
  unfold findRow
  induction db with
  | nil => cases h
  | cons q rest ih =>
    by_cases hq : q.table = k
    · have hqr : q = r := by simpa [hq] using h
      subst hqr
      simp [Row.is, hq]
    · have hrest : (rest.filter (fun r => r.table = k)).head? = some r := by simpa [hq] using h
      have his : q.is k r.uuid = false := by simp [Row.is, hq]
      rw [List.find?_cons, his]
      exact ih hrest

theorem txnWrite_closed {s : Idl S} (hs : s.txn = .none) (u : Uuid) (c : S.Column)
    (v : S.Value c) {r : Row S} (hr : findRow (S.tableOf c) u s.snapshot = some r)
    (hc : c ∈ S.writeOnly) :
    txnWrite u c v s = if r.col c = v then .ok ((), s) else .error .noTransaction := by
  have hfind : s.find (S.tableOf c) u = some r := by
    unfold Idl.find
    rw [hs]
    exact hr
  unfold txnWrite
  rw [hfind, hs]
  dsimp only
  by_cases hv : r.col c = v
  · rw [if_pos ⟨hc, hv⟩, if_pos hv]
  · rw [if_neg (fun h => hv h.2), if_neg hv]

section Write

variable {s s' : Idl S} {u : Uuid} {c : S.Column} {v : S.Value c}

theorem Idl.value_opened {t : Txn S} (ht : s.txn = .opened t) (u : Uuid) (c : S.Column) :
    s.value u c = (t.find (S.tableOf c) u s.snapshot).map (fun r => r.col c) := by
  unfold Idl.value Idl.find
  rw [ht]

theorem txnWrite_same (hc : c ∈ S.writeOnly) (h : s.value u c = some v) :
    txnWrite u c v s = .ok ((), s) := by
  obtain ⟨r, hr, hv⟩ := Option.map_eq_some_iff.mp h
  unfold txnWrite
  rw [hr]
  exact if_pos ⟨hc, hv⟩

theorem txnInsert_opened {t : Txn S} (ht : s.txn = .opened t) (k : S.Table) :
    ∃ u s' t', txnInsert k s = .ok (u, s') ∧ s'.txn = .opened t' ∧
      (findRow k u t'.inserted).isSome = true := by
  refine ⟨⟨s.client, s.nextSerial⟩, { s with
      nextSerial := s.nextSerial + 1
      txn := .opened { t with inserted :=
        t.inserted ++ [⟨k, ⟨s.client, s.nextSerial⟩, S.initial⟩] } }, _, ?_, rfl, ?_⟩
  · unfold txnInsert
    rw [ht]
  · simp [findRow, Row.is]

theorem txnWrite_inserted {t : Txn S} (ht : s.txn = .opened t)
    (hin : (findRow (S.tableOf c) u t.inserted).isSome = true) :
    ∃ t', txnWrite u c v s = .ok ((), { s with txn := .opened t' }) ∧
      ∀ k u', (findRow k u' t'.inserted).isSome = (findRow k u' t.inserted).isSome := by
  obtain ⟨r, hr⟩ := Option.isSome_iff_exists.mp hin
  have hfind : s.find (S.tableOf c) u = some r := by
    unfold Idl.find Txn.find
    rw [ht]
    simp [hr]
  unfold txnWrite
  rw [hfind]
  dsimp only
  split_ifs with hsame
  · exact ⟨t, by rw [← ht], fun _ _ => rfl⟩
  · refine ⟨t.put ⟨u, c, v⟩, by rw [ht], fun k u' => ?_⟩
    unfold Txn.put
    rw [if_pos hin]
    simp [findRow_apply]

theorem value_txnWrite (h : txnWrite u c v s = .ok ((), s')) :
    s'.value u c = some v ∧
      ∀ u' c', ¬ (u' = u ∧ c' = c) → s'.value u' c' = s.value u' c' := by
  unfold txnWrite at h
  cases hfind : s.find (S.tableOf c) u with
  | none =>
    rw [hfind] at h
    cases h
  | some r =>
    rw [hfind] at h
    dsimp only at h
    split_ifs at h with hsame
    · cases h
      refine ⟨?_, fun _ _ _ => rfl⟩
      unfold Idl.value
      rw [hfind, Option.map_some, hsame.2]
    · cases ht : s.txn with
      | none =>
        rw [ht] at h
        cases h
      | ended =>
        rw [ht] at h
        cases h
      | opened t =>
        rw [ht] at h
        cases h
        have hr : t.find (S.tableOf c) u s.snapshot = some r := by
          unfold Idl.find at hfind
          rwa [ht] at hfind
        constructor
        · rw [Idl.value_opened rfl, Txn.find_put, hr, Option.map_some, Option.map_some]
          rw [Update.applyRow_col_of_is _ (t.find_is hr)]
          simp
        · intro u' c' hne
          rw [Idl.value_opened rfl, Idl.value_opened ht, Txn.find_put]
          cases hr' : t.find (S.tableOf c') u' s.snapshot with
          | none => rfl
          | some r' =>
            rw [Option.map_some, Option.map_some, Option.map_some,
              Update.applyRow_col_of_ne ⟨u, c, v⟩ (t.find_is hr') hne]

end Write

end OpsSysd.Ovsdb
