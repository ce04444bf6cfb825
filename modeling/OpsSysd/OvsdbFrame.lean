import OpsSysd.OvsdbRow

/-!
What a computation can do while a transaction is open. It stays within a
footprint when it writes only columns and adds only rows of it; the snapshot,
the sequence number, the lock and the history are then left alone, and the
only fault is a bad access. The rules follow the program text.
-/

namespace OpsSysd.Ovsdb

variable {S : Schema}

/-- The tables that may gain rows and the columns that may be written. -/
structure Footprint (S : Schema) where
  tables : S.Table → Prop
  columns : S.Column → Prop
  table_of : ∀ c, columns c → tables (S.tableOf c)

/-- The second transaction continues the first within the footprint. -/
structure Txn.Grows (F : Footprint S) (t t' : Txn S) : Prop where
  rows : ∀ k, ¬ F.tables k → rowsOf k t'.inserted = rowsOf k t.inserted
  writes : ∀ c, ¬ F.columns c →
    t'.updates.filter (fun w => w.column = c) = t.updates.filter (fun w => w.column = c)
  fresh : ∀ c, ¬ F.columns c → (∀ r ∈ t.inserted, r.col c = S.initial c) →
    ∀ r ∈ t'.inserted, r.col c = S.initial c

/-- The transaction gives no column of the set a value. -/
structure Txn.Untouched (C : S.Column → Prop) (t : Txn S) : Prop where
  updates : ∀ w ∈ t.updates, ¬ C w.column
  inserted : ∀ r ∈ t.inserted, ∀ c, C c → r.col c = S.initial c

theorem Txn.untouched_empty (C : S.Column → Prop) : (Txn.empty : Txn S).Untouched C :=
  ⟨by simp [Txn.empty], by simp [Txn.empty]⟩

namespace Txn.Grows

variable {F : Footprint S} {t t' t'' : Txn S}

theorem refl (t : Txn S) : t.Grows F t := ⟨fun _ _ => rfl, fun _ _ => rfl, fun _ _ h => h⟩

theorem trans (h : t.Grows F t') (h' : t'.Grows F t'') : t.Grows F t'' :=
  ⟨fun k hk => (h'.rows k hk).trans (h.rows k hk),
    fun c hc => (h'.writes c hc).trans (h.writes c hc),
    fun c hc hinit => h'.fresh c hc (h.fresh c hc hinit)⟩

theorem put (t : Txn S) (w : Update S) (hc : F.columns w.column) : t.Grows F (t.put w) := by
  unfold Txn.put
  by_cases hin : (findRow (S.tableOf w.column) w.uuid t.inserted).isSome = true
  · rw [if_pos hin]
    refine ⟨fun k hk => rowsOf_apply_of_ne w (fun h => hk ?_) _, fun _ _ => rfl, ?_⟩
    · rw [← h]
      exact F.table_of _ hc
    · intro c hcol hinit r hr
      obtain ⟨q, hq, rfl⟩ := List.mem_map.mp hr
      have hne : c ≠ w.column := fun h => hcol (h ▸ hc)
      rw [w.applyRow_col_of_column_ne hne]
      exact hinit q hq
  · rw [if_neg hin]
    refine ⟨fun _ _ => rfl, fun c hcol => ?_, fun _ _ h => h⟩
    have hne : w.column ≠ c := fun h => hcol (h ▸ hc)
    simp [hne]

theorem insert (t : Txn S) (k : S.Table) (u : Uuid) (hk : F.tables k) :
    t.Grows F { t with inserted := t.inserted ++ [⟨k, u, S.initial⟩] } := by
  refine ⟨fun k' hk' => ?_, fun _ _ => rfl, fun c _ hinit r hr => ?_⟩
  · have hne : k ≠ k' := fun h => hk' (h ▸ hk)
    simp [rowsOf, hne]
  · rcases List.mem_append.mp hr with hold | hnew
    · exact hinit r hold
    · rw [List.mem_singleton.mp hnew]

theorem untouched {C : S.Column → Prop} (h : t.Grows F t') (hC : ∀ c, C c → ¬ F.columns c)
    (ht : t.Untouched C) : t'.Untouched C := by
  refine ⟨fun w hw hc => ?_, fun r hr c hc => ?_⟩
  · have hin : w ∈ t'.updates.filter (fun w' => w'.column = w.column) := by simp [hw]
    rw [h.writes _ (hC _ hc)] at hin
    exact ht.updates w (List.mem_filter.mp hin).1 hc
  · exact h.fresh c (hC c hc) (fun r hr => ht.inserted r hr c hc) r hr

end Txn.Grows

/-- In an open transaction the computation only grows it within the footprint,
or follows a bad pointer. -/
def Within (F : Footprint S) {α : Type} (m : IdlM S α) : Prop :=
  ∀ (s : Idl S) (t : Txn S), s.txn = .opened t →
    m s = .error .badAccess ∨
      ∃ a t' n, m s = .ok (a, { s with txn := .opened t', nextSerial := n }) ∧ t.Grows F t'

namespace Within

variable {F : Footprint S} {α β : Type}

theorem stay {m : IdlM S α}
    (h : ∀ s, m s = .error .badAccess ∨ ∃ a, m s = .ok (a, s)) : Within F m := by
  intro s t ht
  rcases h s with hbad | ⟨a, ha⟩
  · exact .inl hbad
  · refine .inr ⟨a, t, s.nextSerial, ?_, .refl t⟩
    rw [ha, ← ht]

theorem pure (a : α) : Within F (Pure.pure a : IdlM S α) := stay (fun _ => .inr ⟨a, rfl⟩)

theorem bind {m : IdlM S α} {f : α → IdlM S β} (hm : Within F m) (hf : ∀ a, Within F (f a)) :
    Within F (m >>= f) := by
  intro s t ht
  rcases hm s t ht with hbad | ⟨a, t₁, n₁, hok, hgrows⟩
  · exact .inl (bind_error f hbad)
  · rw [bind_ok f hok]
    rcases hf a { s with txn := .opened t₁, nextSerial := n₁ } t₁ rfl with
      hbad | ⟨b, t₂, n₂, hok', hgrows'⟩
    · exact .inl hbad
    · exact .inr ⟨b, t₂, n₂, hok', hgrows.trans hgrows'⟩

theorem seq {m : IdlM S α} {m' : IdlM S β} (hm : Within F m) (hm' : Within F m') :
    Within F (do let _ ← m; m') := hm.bind (fun _ => hm')

theorem txnInsert {k : S.Table} (hk : F.tables k) : Within F (txnInsert k) := by
  intro s t ht
  refine .inr ⟨⟨s.client, s.nextSerial⟩,
    { t with inserted := t.inserted ++ [⟨k, ⟨s.client, s.nextSerial⟩, S.initial⟩] },
    s.nextSerial + 1, ?_, .insert t k _ hk⟩
  simp only [Ovsdb.txnInsert, ht]

theorem txnWrite {u : Uuid} {c : S.Column} {v : S.Value c} (hc : F.columns c) :
    Within F (txnWrite u c v) := by
  intro s t ht
  unfold Ovsdb.txnWrite
  cases s.find (S.tableOf c) u with
  | none => exact .inl rfl
  | some r =>
    simp only
    by_cases hsame : c ∈ S.writeOnly ∧ r.col c = v
    · rw [if_pos hsame]
      refine .inr ⟨(), t, s.nextSerial, ?_, .refl t⟩
      rw [← ht]
    · rw [if_neg hsame, ht]
      exact .inr ⟨(), t.put ⟨u, c, v⟩, s.nextSerial, rfl, .put t ⟨u, c, v⟩ hc⟩

theorem readCol (u : Uuid) (c : S.Column) : Within F (readCol u c) := by
  apply stay
  intro s
  unfold Ovsdb.readCol
  cases s.find (S.tableOf c) u with
  | none => exact .inl rfl
  | some r => exact .inr ⟨r.col c, rfl⟩

theorem rows (k : S.Table) : Within F (rows k) := stay (fun s => .inr ⟨rowsOf k s.view, rfl⟩)

theorem deref (p : Option α) : Within F (deref p : IdlM S α) := by
  apply stay
  intro s
  cases p with
  | none => exact .inl rfl
  | some a => exact .inr ⟨a, rfl⟩

theorem ite {p : Prop} [Decidable p] {m m' : IdlM S α} (hm : Within F m) (hm' : Within F m') :
    Within F (if p then m else m') := by
  by_cases hp : p
  · rw [if_pos hp]
    exact hm
  · rw [if_neg hp]
    exact hm'

theorem forM (l : List α) {f : α → IdlM S PUnit} (hf : ∀ a ∈ l, Within F (f a)) :
    Within F (l.forM f) := by
  induction l with
  | nil => exact pure PUnit.unit
  | cons a rest ih =>
    show Within F (f a >>= fun _ => rest.forM f)
    exact (hf a (by simp)).seq (ih (fun b hb => hf b (by simp [hb])))

theorem mapM (l : List α) {f : α → IdlM S β} (hf : ∀ a ∈ l, Within F (f a)) :
    Within F (l.mapM f) := by
  induction l with
  | nil => exact pure []
  | cons a rest ih =>
    rw [List.mapM_cons]
    exact (hf a (by simp)).bind (fun b =>
      (ih (fun b hb => hf b (by simp [hb]))).bind (fun bs => pure (b :: bs)))

end Within

end OpsSysd.Ovsdb
