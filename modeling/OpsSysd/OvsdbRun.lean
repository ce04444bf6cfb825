import OpsSysd.OvsdbFrame

/-!
What a commit leaves behind, and what holds across whole programs: the order of
snapshots, and properties that every step of a program within a footprint keeps.
-/

namespace OpsSysd.Ovsdb

variable {S : Schema}

section Commit

variable (s : Idl S) (t : Txn S)

/-- What a delivery leaves alone, deliveries one after another leave alone. -/
theorem Idl.deliverAll_eq {β : Type*} {field : Idl S → β}
    (h : ∀ (s : Idl S) (d : Delivery S), field (s.deliver d) = field s) (ds : List (Delivery S)) :
    field (s.deliverAll ds) = field s := by
  unfold Idl.deliverAll
  induction ds generalizing s with
  | nil => rfl
  | cons d rest ih => rw [List.foldl_cons, ih, h]

@[simp] theorem Idl.deliverAll_finished (ds : List (Delivery S)) :
    (s.deliverAll ds).finished = s.finished := s.deliverAll_eq (fun _ _ => rfl) ds

@[simp] theorem Idl.deliverAll_txn (ds : List (Delivery S)) : (s.deliverAll ds).txn = s.txn :=
  s.deliverAll_eq (fun _ _ => rfl) ds

@[simp] theorem Idl.met_finished : s.met.finished = s.finished := Idl.deliverAll_finished _ _

@[simp] theorem Idl.change_finished (status : TxnStatus) :
    (s.change status t).finished = s.finished := by
  unfold Idl.change
  split_ifs <;> rfl

@[simp] theorem Idl.replied_finished : (s.replied t).finished = s.finished := by
  unfold Idl.replied Idl.setLock
  simp

/-- A commit adds one entry to the history, for its own transaction and outcome. -/
theorem Idl.commit_finished :
    ∃ f : Finished S, (s.commit t).2.finished = s.finished ++ [f] ∧ f.txn = t ∧
      f.status = (s.commit t).1 ∧ f.seen = s.snapshot ∧
      (f.status = .success → f.base = s.met.snapshot) := by
  unfold Idl.commit
  split_ifs with hlock hempty
  · exact ⟨_, rfl, rfl, rfl, rfl, fun h => by cases h⟩
  · exact ⟨_, rfl, rfl, rfl, rfl, fun h => by cases h⟩
  · refine ⟨⟨t, (s.replies 0).status, s.snapshot, s.met.snapshot⟩, ?_, rfl, rfl, rfl,
      fun _ => rfl⟩
    simp [Idl.finish]

theorem Idl.deliverAll_snapshot (ds : List (Delivery S)) :
    (s.deliverAll ds).snapshot = ds.foldl (fun db d => replica (d db)) s.snapshot := by
  unfold Idl.deliverAll
  induction ds generalizing s with
  | nil => rfl
  | cons d rest ih =>
    rw [List.foldl_cons, List.foldl_cons, ih]
    rfl

/-- What other clients have made of the snapshot when a change takes effect. -/
theorem Idl.met_snapshot :
    s.met.snapshot = (s.replies 0).before.foldl (fun db d => replica (d db)) s.snapshot :=
  Idl.deliverAll_snapshot _ _

@[simp] theorem Idl.deliverAll_created (ds : List (Delivery S)) :
    (s.deliverAll ds).created = s.created := s.deliverAll_eq (fun _ _ => rfl) ds

@[simp] theorem Idl.deliverAll_replies (ds : List (Delivery S)) :
    (s.deliverAll ds).replies = s.replies := s.deliverAll_eq (fun _ _ => rfl) ds

@[simp] theorem Idl.deliverAll_hasLock (ds : List (Delivery S)) :
    (s.deliverAll ds).hasLock = s.hasLock := s.deliverAll_eq (fun _ _ => rfl) ds

/-- With the lock and something to change, the server's reply decides. -/
theorem Idl.commit_status (hlock : s.hasLock = true) (ht : t.isEmpty = false) :
    (s.commit t).1 = (s.replies 0).status := by
  unfold Idl.commit
  simp [hlock, ht]

@[simp] theorem Idl.commit_created : (s.commit t).2.created = s.created := by
  unfold Idl.commit
  split_ifs
  · rfl
  · rfl
  · unfold Idl.finish Idl.replied Idl.setLock Idl.change Idl.met
    simp only [Idl.deliverAll_created]
    split_ifs
    · exact Idl.deliverAll_created _ _
    · exact Idl.deliverAll_created _ _

@[simp] theorem Idl.commit_txn : (s.commit t).2.txn = .ended := by
  unfold Idl.commit
  split_ifs <;> rfl

end Commit

/-- The second state holds a snapshot at least as new, and one from which nothing
alerting separates it if the sequence numbers agree. -/
structure Later (s s' : Idl S) : Prop where
  seqno_le : s.seqno ≤ s'.seqno
  quiet : s'.seqno = s.seqno → Quiet s.snapshot s'.snapshot

namespace Later

variable {s s' s'' : Idl S}

theorem refl (s : Idl S) : Later s s := ⟨Nat.le_refl _, fun _ => .refl _⟩

theorem trans (h : Later s s') (h' : Later s' s'') : Later s s'' := by
  have hle := h.seqno_le
  have hle' := h'.seqno_le
  exact ⟨Nat.le_trans hle hle', fun heq => (h.quiet (by omega)).trans (h'.quiet (by omega))⟩

theorem of_eq (hseqno : s'.seqno = s.seqno) (hsnapshot : s'.snapshot = s.snapshot) :
    Later s s' := ⟨by omega, fun _ => by rw [hsnapshot]; exact .refl _⟩

theorem deliver (s : Idl S) (d : Delivery S) : Later s (s.deliver d) := by
  unfold Idl.deliver
  by_cases hquiet : Quiet s.snapshot (replica (d s.snapshot))
  · simp only [hquiet, if_true]
    exact ⟨Nat.le_refl _, fun _ => hquiet⟩
  · simp only [hquiet, if_false]
    exact ⟨Nat.le_succ _, fun h => by simp at h⟩

theorem deliverAll (s : Idl S) (ds : List (Delivery S)) : Later s (s.deliverAll ds) := by
  unfold Idl.deliverAll
  induction ds generalizing s with
  | nil => exact refl s
  | cons d rest ih => exact (deliver s d).trans (ih (s.deliver d))

theorem setLock (s : Idl S) (hasLock lockContended raises : Bool) :
    Later s (s.setLock hasLock lockContended raises) := by
  unfold Idl.setLock
  refine ⟨?_, fun _ => .refl _⟩
  simp only
  split_ifs <;> omega

theorem run (s : Idl S) (ds : List (Delivery S)) (hasLock lockContended raises : Bool) :
    Later s (s.run ds hasLock lockContended raises) :=
  (deliverAll s ds).trans (setLock _ _ _ _)

theorem change (s : Idl S) (status : TxnStatus) (t : Txn S) : Later s (s.change status t) := by
  unfold Idl.change
  split_ifs
  · exact deliver s t.apply
  · exact refl s

theorem met (s : Idl S) : Later s s.met := by
  have h : Later s { s with replies := fun i => s.replies (i + 1) } := of_eq rfl rfl
  exact h.trans (deliverAll _ _)

theorem replied (s : Idl S) (t : Txn S) : Later s (s.replied t) :=
  (((met s).trans (change _ _ t)).trans (deliverAll _ _)).trans (setLock _ _ _ _)

theorem commit (s : Idl S) (t : Txn S) : Later s (s.commit t).2 := by
  unfold Idl.commit
  split_ifs
  · exact of_eq rfl rfl
  · exact of_eq rfl rfl
  · exact (replied s t).trans (of_eq rfl rfl)

end Later

/-- A property of the replica that every step of a program within the footprint keeps. -/
structure Kept (F : Footprint S) (I : Idl S → Prop) : Prop where
  create : ∀ s, s.txn = .none → I s →
    I { s with txn := .opened .empty, created := s.created + 1 }
  insert : ∀ s t k, F.tables k → s.txn = .opened t → I s →
    I { s with
      nextSerial := s.nextSerial + 1
      txn := .opened
        { t with inserted := t.inserted ++ [⟨k, ⟨s.client, s.nextSerial⟩, S.initial⟩] } }
  write : ∀ s t (w : Update S), F.columns w.column → s.txn = .opened t → I s →
    I { s with txn := .opened (t.put w) }
  commit : ∀ s t, s.txn = .opened t → I s → I (s.commit t).2
  destroy : ∀ s, I s → I { s with txn := .none }

theorem Later.kept (F : Footprint S) (s₀ : Idl S) : Kept F (Later s₀) where
  create _ _ h := h.trans (.of_eq rfl rfl)
  insert _ _ _ _ _ h := h.trans (.of_eq rfl rfl)
  write _ _ _ _ _ h := h.trans (.of_eq rfl rfl)
  commit s t _ h := h.trans (.commit s t)
  destroy _ h := h.trans (.of_eq rfl rfl)

theorem prefix_kept (F : Footprint S) (fs : List (Finished S)) :
    Kept F (fun s => fs <+: s.finished) where
  create _ _ h := h
  insert _ _ _ _ _ h := h
  write _ _ _ _ _ h := h
  commit s t _ h := by
    obtain ⟨f, hf, _⟩ := s.commit_finished t
    rw [hf]
    exact h.trans (List.prefix_append _ _)
  destroy _ h := h

theorem untouched_kept {F : Footprint S} {C : S.Column → Prop}
    (hC : ∀ c, C c → ¬ F.columns c) (P : Finished S → Prop) :
    Kept F (fun s => (∀ t, s.txn = .opened t → t.Untouched C) ∧
      ∀ f ∈ s.finished, ¬ f.txn.Untouched C → P f) where
  create s _ h := by
    refine ⟨fun t ht => ?_, h.2⟩
    cases ht
    exact Txn.untouched_empty C
  insert s t k hk ht h := by
    refine ⟨fun t' ht' => ?_, h.2⟩
    cases ht'
    exact (Txn.Grows.insert t k _ hk).untouched hC (h.1 t ht)
  write s t w hw ht h := by
    refine ⟨fun t' ht' => ?_, h.2⟩
    cases ht'
    exact (Txn.Grows.put t w hw).untouched hC (h.1 t ht)
  commit s t ht h := by
    obtain ⟨f, hf, htxn, _⟩ := s.commit_finished t
    refine ⟨fun t' ht' => ?_, fun f' hf' htouched => ?_⟩
    · rw [Idl.commit_txn] at ht'
      cases ht'
    · rw [hf] at hf'
      rcases List.mem_append.mp hf' with hold | hnew
      · exact h.2 f' hold htouched
      · rw [List.mem_singleton.mp hnew, htxn] at htouched
        exact absurd (h.1 t ht) htouched
  destroy s h := by
    refine ⟨fun t ht => ?_, h.2⟩
    cases ht

theorem noRows_kept {F : Footprint S} {k : S.Table} (hk : ¬ F.tables k)
    (fs : List (Finished S)) :
    Kept F (fun s => (∀ t, s.txn = .opened t → rowsOf k t.inserted = []) ∧
      ∃ gs, s.finished = fs ++ gs ∧ ∀ f ∈ gs, rowsOf k f.txn.inserted = []) where
  create s _ h := by
    refine ⟨fun t ht => ?_, h.2⟩
    cases ht
    rfl
  insert s t k' hk' ht h := by
    refine ⟨fun t' ht' => ?_, h.2⟩
    cases ht'
    exact ((Txn.Grows.insert t k' _ hk').rows k hk).trans (h.1 t ht)
  write s t w hw ht h := by
    refine ⟨fun t' ht' => ?_, h.2⟩
    cases ht'
    exact ((Txn.Grows.put t w hw).rows k hk).trans (h.1 t ht)
  commit s t ht h := by
    obtain ⟨f, hf, htxn, _⟩ := s.commit_finished t
    obtain ⟨gs, hgs, hnone⟩ := h.2
    refine ⟨fun t' ht' => ?_, gs ++ [f], ?_, fun g hg => ?_⟩
    · rw [Idl.commit_txn] at ht'
      cases ht'
    · rw [hf, hgs, List.append_assoc]
    · rcases List.mem_append.mp hg with hold | hnew
      · exact hnone g hold
      · rw [List.mem_singleton.mp hnew, htxn]
        exact h.1 t ht
  destroy s h := by
    refine ⟨fun t ht => ?_, h.2⟩
    cases ht

/-- A property of transactions that holds of the empty one and is kept by what the
footprint allows holds of all later commits. -/
theorem history_kept {F : Footprint S} {P : Txn S → Prop} (hempty : P .empty)
    (hinsert : ∀ t k u, F.tables k → P t →
      P { t with inserted := t.inserted ++ [⟨k, u, S.initial⟩] })
    (hput : ∀ t w, F.columns w.column → P t → P (t.put w)) (fs : List (Finished S)) :
    Kept F (fun s => (∀ t, s.txn = .opened t → P t) ∧
      ∃ gs, s.finished = fs ++ gs ∧ ∀ f ∈ gs, P f.txn) where
  create s _ h := by
    refine ⟨fun t ht => ?_, h.2⟩
    cases ht
    exact hempty
  insert s t k hk ht h := by
    refine ⟨fun t' ht' => ?_, h.2⟩
    cases ht'
    exact hinsert t k _ hk (h.1 t ht)
  write s t w hw ht h := by
    refine ⟨fun t' ht' => ?_, h.2⟩
    cases ht'
    exact hput t w hw (h.1 t ht)
  commit s t ht h := by
    obtain ⟨f, hf, htxn, _⟩ := s.commit_finished t
    obtain ⟨gs, hgs, hall⟩ := h.2
    refine ⟨fun t' ht' => ?_, gs ++ [f], ?_, fun g hg => ?_⟩
    · rw [Idl.commit_txn] at ht'
      cases ht'
    · rw [hf, hgs, List.append_assoc]
    · rcases List.mem_append.mp hg with hold | hnew
      · exact hall g hold
      · rw [List.mem_singleton.mp hnew, htxn]
        exact h.1 t ht
  destroy s h := by
    refine ⟨fun t ht => ?_, h.2⟩
    cases ht

/-- The snapshot holds monitored tables only. -/
def Idl.Replicated (s : Idl S) : Prop := ∀ r ∈ s.snapshot, S.monitored r.table = true

namespace Idl.Replicated

variable {s : Idl S}

theorem deliver (s : Idl S) (d : Delivery S) : (s.deliver d).Replicated := by
  intro r hr
  obtain ⟨q, hq, rfl⟩ := List.mem_map.mp hr
  exact (List.mem_filter.mp hq).2

theorem deliverAll (h : s.Replicated) (ds : List (Delivery S)) :
    (s.deliverAll ds).Replicated := by
  unfold Idl.deliverAll
  induction ds generalizing s with
  | nil => exact h
  | cons d rest ih => exact ih (deliver s d)

theorem replied (h : s.Replicated) (t : Txn S) : (s.replied t).Replicated := by
  have hmet : s.met.Replicated :=
    deliverAll (s := { s with replies := fun i => s.replies (i + 1) }) h _
  have hchange : (s.met.change (s.replies 0).status t).Replicated := by
    unfold Idl.change
    split_ifs
    · exact deliver _ _
    · exact hmet
  exact hchange.deliverAll _

theorem commit (h : s.Replicated) (t : Txn S) : (s.commit t).2.Replicated := by
  unfold Idl.commit
  split_ifs
  · exact h
  · exact h
  · exact h.replied t

theorem kept (F : Footprint S) : Kept F (fun s => s.Replicated) where
  create _ _ h := h
  insert _ _ _ _ _ h := h
  write _ _ _ _ _ h := h
  commit _ t _ h := h.commit t
  destroy _ h := h

/-- Without an alert since the empty one, a replica is empty. -/
theorem eq_nil_of_quiet (h : s.Replicated) (hquiet : Quiet [] s.snapshot) : s.snapshot = [] := by
  have hsig : signature s.snapshot = [] := hquiet.symm.eq_nil
  have hnone := List.filter_eq_nil_iff.mp (List.map_eq_nil_iff.mp hsig)
  exact List.eq_nil_iff_forall_not_mem.mpr (fun r hr => hnone r hr (h r hr))

end Idl.Replicated

/-- The program is made of steps within the footprint. -/
def Steps (F : Footprint S) {α : Type} (m : IdlM S α) : Prop :=
  ∀ I : Idl S → Prop, Kept F I → ∀ s a s', I s → m s = .ok (a, s') → I s'

namespace Steps

variable {F : Footprint S} {α β : Type}

theorem pure (a : α) : Steps F (Pure.pure a : IdlM S α) := by
  intro I _ s a' s' hs h
  cases h
  exact hs

theorem bind {m : IdlM S α} {f : α → IdlM S β} (hm : Steps F m) (hf : ∀ a, Steps F (f a)) :
    Steps F (m >>= f) := by
  intro I hI s b s' hs h
  obtain ⟨a, t, hm', hf'⟩ := bind_eq_ok h
  exact hf a I hI t b s' (hm I hI s a t hs hm') hf'

theorem txnCreate : Steps F (txnCreate : IdlM S Unit) := by
  intro I hI s a s' hs h
  obtain ⟨ht, rfl⟩ := txnCreate_ok h
  exact hI.create s ht hs

theorem txnCommitBlock : Steps F (txnCommitBlock : IdlM S TxnStatus) := by
  intro I hI s a s' hs h
  obtain ⟨t, ht, _, rfl⟩ := txnCommitBlock_ok h
  exact hI.commit s t ht hs

theorem txnDestroy : Steps F (txnDestroy : IdlM S Unit) := by
  intro I hI s a s' hs h
  rw [txnDestroy_ok h]
  exact hI.destroy s hs

theorem txnInsert {k : S.Table} (hk : F.tables k) : Steps F (txnInsert k) := by
  intro I hI s a s' hs h
  obtain ⟨t, ht, rfl, rfl⟩ := txnInsert_ok h
  exact hI.insert s t k hk ht hs

theorem txnWrite {u : Uuid} {c : S.Column} {v : S.Value c} (hc : F.columns c) :
    Steps F (txnWrite u c v) := by
  intro I hI s a s' hs h
  rcases txnWrite_ok h with rfl | ⟨t, ht, rfl⟩
  · exact hs
  · exact hI.write s t ⟨u, c, v⟩ hc ht hs

theorem rows (k : S.Table) : Steps F (rows k) := by
  intro I _ s a s' hs h
  rw [(rows_ok h).2]
  exact hs

theorem deref (p : Option α) : Steps F (deref p : IdlM S α) := by
  intro I _ s a s' hs h
  rw [(deref_ok h).2]
  exact hs

theorem ite {p : Prop} [Decidable p] {m m' : IdlM S α} (hm : Steps F m) (hm' : Steps F m') :
    Steps F (if p then m else m') := by
  by_cases hp : p
  · rw [if_pos hp]
    exact hm
  · rw [if_neg hp]
    exact hm'

end Steps

section Transaction

/-- No transaction is open, and every one that was created has been committed. -/
structure Settled (s : Idl S) : Prop where
  txn : s.txn = .none
  created : s.created = s.finished.length

/-- The replica when the transaction `t` is ready to be committed. -/
def Idl.filled (s : Idl S) (t : Txn S) (nextSerial : ℕ) : Idl S :=
  { s with txn := .opened t, nextSerial := nextSerial, created := s.created + 1 }

/-- The replica when `t` has been committed and destroyed. -/
def Idl.closed (s : Idl S) (t : Txn S) (nextSerial : ℕ) : Idl S :=
  { ((s.filled t nextSerial).commit t).2 with txn := .none }

theorem transaction_filled {m : IdlM S Unit} {s : Idl S} (hs : s.txn = .none) {t : Txn S} {n : ℕ}
    (hok : m (s.filled .empty s.nextSerial) = .ok ((), s.filled t n)) :
    transaction m s = .ok (((s.filled t n).commit t).1, s.closed t n) := by
  have hcreate : (txnCreate : IdlM S Unit) s = .ok ((), s.filled .empty s.nextSerial) := by
    simp only [txnCreate, hs]
    rfl
  have hcommit : txnCommitBlock (s.filled t n) = .ok ((s.filled t n).commit t) := rfl
  have hdestroy : txnDestroy ((s.filled t n).commit t).2 = .ok ((), s.closed t n) := by
    unfold txnDestroy
    rw [Idl.commit_txn]
    rfl
  exact (bind_ok _ hcreate).trans ((bind_ok _ hok).trans
    ((bind_ok _ hcommit).trans (bind_ok _ hdestroy)))

/-- A transaction filled within a footprint is committed and destroyed, unless a
bad pointer is followed. -/
theorem transaction_within {F : Footprint S} {m : IdlM S Unit} (hm : Within F m) {s : Idl S}
    (hs : s.txn = .none) :
    transaction m s = .error .badAccess ∨
      ∃ t n, Txn.empty.Grows F t ∧ m (s.filled .empty s.nextSerial) = .ok ((), s.filled t n) ∧
        transaction m s = .ok (((s.filled t n).commit t).1, s.closed t n) := by
  rcases hm (s.filled .empty s.nextSerial) .empty rfl with hbad | ⟨a, t, n, hok, hgrows⟩
  · left
    have hcreate : (txnCreate : IdlM S Unit) s = .ok ((), s.filled .empty s.nextSerial) := by
      simp only [txnCreate, hs]
      rfl
    exact (bind_ok _ hcreate).trans (bind_error _ hbad)
  · exact .inr ⟨t, n, hgrows, hok, transaction_filled hs hok⟩

theorem Idl.closed_finished (s : Idl S) (t : Txn S) (n : ℕ) :
    ∃ f : Finished S, (s.closed t n).finished = s.finished ++ [f] ∧ f.txn = t ∧
      f.status = ((s.filled t n).commit t).1 ∧ f.seen = s.snapshot ∧
      (f.status = .success → f.base = s.met.snapshot) := by
  obtain ⟨f, hf, htxn, hstatus, hseen, hbase⟩ := (s.filled t n).commit_finished t
  refine ⟨f, hf, htxn, hstatus, hseen, fun hsuccess => ?_⟩
  rw [hbase hsuccess, Idl.met_snapshot, Idl.met_snapshot]
  rfl

theorem Settled.closed {s : Idl S} (h : Settled s) (t : Txn S) (n : ℕ) :
    Settled (s.closed t n) := by
  obtain ⟨f, hf, _⟩ := s.closed_finished t n
  refine ⟨rfl, ?_⟩
  rw [hf, List.length_append, ← h.created]
  exact Idl.commit_created _ _

theorem Later.closed (s : Idl S) (t : Txn S) (n : ℕ) : Later s (s.closed t n) := by
  have hfilled : Later s (s.filled t n) := .of_eq rfl rfl
  exact (hfilled.trans (.commit _ t)).trans (.of_eq rfl rfl)

end Transaction

end OpsSysd.Ovsdb
