import OpsSysd.OvsdbFrame
import Mathlib.Data.List.Nodup

/-!
An open transaction as its user sees it: the rows it has added to each table
and what is read of them. Adding a row changes the first, a write one cell of
the second. A computation is described by the condition under which it runs
through and by what it leaves then; under every other condition it faults.
-/

namespace OpsSysd.Ovsdb

/-- A row that was not added reads as initial. -/
@[ext]
structure Cells (S : Schema) where
  rows : S.Table → List Uuid
  value : Uuid → (c : S.Column) → S.Value c

variable {S : Schema}

namespace Cells

variable (C : Cells S)

def insert (k : S.Table) (u : Uuid) : Cells S :=
  { C with rows := Function.update C.rows k (C.rows k ++ [u]) }

def write (u : Uuid) (c : S.Column) (v : S.Value c) : Cells S :=
  { C with value := Function.update C.value u (Function.update (C.value u) c v) }

/-- An identity that no row has. -/
structure Fresh (u : Uuid) : Prop where
  rows : ∀ k, u ∉ C.rows k
  value : C.value u = S.initial

variable {C} {k k' : S.Table} {u u' : Uuid} {c c' : S.Column} {v : S.Value c}

@[simp] theorem insert_value : (C.insert k u).value = C.value := rfl

@[simp] theorem write_rows : (C.write u c v).rows = C.rows := rfl

theorem insert_rows : (C.insert k u).rows k = C.rows k ++ [u] := Function.update_self ..

theorem insert_rows_of_ne (h : k' ≠ k) : (C.insert k u).rows k' = C.rows k' :=
  Function.update_of_ne h _ _

theorem write_value : (C.write u c v).value u c = v := by simp [write]

theorem write_value_of_row_ne (h : u' ≠ u) : (C.write u c v).value u' = C.value u' :=
  Function.update_of_ne h _ _

theorem write_value_of_column_ne (h : c' ≠ c) : (C.write u c v).value u' c' = C.value u' c' := by
  unfold write
  by_cases hu : u' = u
  · subst hu
    simp [h]
  · simp [hu]

theorem write_value_of_ne (h : u' = u → c' ≠ c) : (C.write u c v).value u' c' = C.value u' c' := by
  by_cases hu : u' = u
  · exact write_value_of_column_ne (h hu)
  · rw [write_value_of_row_ne hu]

theorem write_same (h : C.value u c = v) : C.write u c v = C := by
  subst h
  simp [write]

theorem mem_insert_self : u ∈ (C.insert k u).rows k := by simp [insert_rows]

theorem mem_insert_of_mem (h : u' ∈ C.rows k') : u' ∈ (C.insert k u).rows k' := by
  by_cases hk : k' = k
  · subst hk
    rw [insert_rows]
    exact List.mem_append_left _ h
  · rwa [insert_rows_of_ne hk]

end Cells

/-- The rows a transaction has inserted, cell by cell. -/
def Txn.cells (t : Txn S) : Cells S where
  rows k := (rowsOf k t.inserted).map Row.uuid
  value u c := ((findRow (S.tableOf c) u t.inserted).map (fun r => r.col c)).getD (S.initial c)

/-- The inserted rows carry numbers of the client that it has used up. -/
structure Txn.Numbered (t : Txn S) (client nextSerial : ℕ) : Prop where
  distinct : (t.inserted.map Row.uuid).Nodup
  own : ∀ r ∈ t.inserted, r.uuid.client = client ∧ r.uuid.serial < nextSerial

/-- A transaction is open and has these cells; the snapshot holds monitored tables only. -/
structure Filling (s : Idl S) (C : Cells S) : Prop where
  opened : ∃ t, s.txn = .opened t ∧ t.cells = C ∧ t.Numbered s.client s.nextSerial
  replica : ∀ r ∈ s.snapshot, S.monitored r.table = true

section Refinement

variable {s : Idl S} {C : Cells S} {t : Txn S}

theorem mem_rowsOf {k : S.Table} {db : Database S} {r : Row S} :
    r ∈ rowsOf k db ↔ r ∈ db ∧ r.table = k := by simp [rowsOf]

theorem Txn.mem_cells_rows {k : S.Table} {u : Uuid} :
    u ∈ t.cells.rows k ↔ ∃ r ∈ t.inserted, r.table = k ∧ r.uuid = u := by
  simp [Txn.cells, mem_rowsOf, and_assoc]

theorem Txn.exists_findRow {k : S.Table} {u : Uuid} (h : u ∈ t.cells.rows k) :
    ∃ r, findRow k u t.inserted = some r := by
  obtain ⟨r, hr, hk, hu⟩ := Txn.mem_cells_rows.mp h
  rw [← Option.isSome_iff_exists, findRow, List.find?_isSome]
  exact ⟨r, hr, (r.is_iff k u).mpr ⟨hk, hu⟩⟩

theorem Txn.cells_value_of_find {u : Uuid} {c : S.Column} {r : Row S}
    (h : findRow (S.tableOf c) u t.inserted = some r) : t.cells.value u c = r.col c := by
  simp [Txn.cells, h]

theorem Txn.Numbered.value_of_mem {client n : ℕ} (h : t.Numbered client n) {r : Row S}
    (hr : r ∈ t.inserted) {c : S.Column} (hc : S.tableOf c = r.table) :
    t.cells.value r.uuid c = r.col c := by
  have hmem : r.uuid ∈ t.cells.rows (S.tableOf c) := Txn.mem_cells_rows.mpr ⟨r, hr, hc.symm, rfl⟩
  obtain ⟨q, hq⟩ := Txn.exists_findRow hmem
  have hqu : q.uuid = r.uuid := ((q.is_iff _ _).mp (findRow_is hq)).2
  have hqr : q = r := List.inj_on_of_nodup_map h.distinct (List.mem_of_find?_eq_some hq) hr hqu
  rw [Txn.cells_value_of_find hq, hqr]

theorem Filling.unique (h : Filling s C) {C' : Cells S} (h' : Filling s C') : C = C' := by
  obtain ⟨t, ht, rfl, _⟩ := h.opened
  obtain ⟨t', ht', rfl, _⟩ := h'.opened
  rw [ht] at ht'
  cases ht'
  rfl

/-- A client in an open transaction that holds nothing yet. -/
def Idl.opening (S : Schema) : Idl S where
  client := 1
  nextSerial := 0
  snapshot := []
  txn := .opened .empty
  seqno := 0
  hasLock := true
  lockContended := false
  replies := fun _ => ⟨[], .success, [], true, false, false⟩
  created := 1
  finished := []

theorem filling_opening (S : Schema) : Filling (Idl.opening S) (Txn.empty : Txn S).cells :=
  ⟨⟨.empty, rfl, rfl, List.nodup_nil, by simp [Txn.empty]⟩, by simp [Idl.opening]⟩

theorem Filling.txnInsert (h : Filling s C) (k : S.Table) :
    ∃ u s', txnInsert k s = .ok (u, s') ∧ C.Fresh u ∧ Filling s' (C.insert k u) := by
  obtain ⟨t, ht, rfl, hnum⟩ := h.opened
  have hold : ∀ r ∈ t.inserted, r.uuid ≠ ⟨s.client, s.nextSerial⟩ := by
    intro r hr heq
    have hlt := (hnum.own r hr).2
    rw [heq] at hlt
    exact Nat.lt_irrefl _ hlt
  have hfresh : t.cells.Fresh ⟨s.client, s.nextSerial⟩ := by
    constructor
    · intro k' hmem
      obtain ⟨r, hr, _, hu⟩ := Txn.mem_cells_rows.mp hmem
      exact hold r hr hu
    · funext c
      have hnone : findRow (S.tableOf c) ⟨s.client, s.nextSerial⟩ t.inserted = none := by
        rw [findRow, List.find?_eq_none]
        intro r hr his
        exact hold r hr ((r.is_iff _ _).mp his).2
      simp [Txn.cells, hnone]
  refine ⟨⟨s.client, s.nextSerial⟩, { s with
      nextSerial := s.nextSerial + 1
      txn := .opened { t with inserted :=
        t.inserted ++ [⟨k, ⟨s.client, s.nextSerial⟩, S.initial⟩] } }, ?_, hfresh, ?_, h.replica⟩
  · unfold Ovsdb.txnInsert
    rw [ht]
  · refine ⟨_, rfl, ?_, ?_, ?_⟩
    · unfold Txn.cells Cells.insert
      congr 1
      · funext k'
        by_cases hk : k' = k
        · subst hk
          simp [rowsOf]
        · simp [rowsOf, hk, Ne.symm hk]
      · funext u c
        simp only [findRow, List.find?_append]
        cases List.find? (fun r => r.is (S.tableOf c) u) t.inserted with
        | some r => rfl
        | none =>
          rw [Option.none_or, List.find?_singleton]
          split_ifs <;> rfl
    · rw [List.map_append, List.nodup_append]
      refine ⟨hnum.distinct, by simp, ?_⟩
      intro u hu u' hu'
      obtain ⟨r, hr, rfl⟩ := List.mem_map.mp hu
      have hu' : u' = ⟨s.client, s.nextSerial⟩ := by simpa using hu'
      rw [hu']
      exact hold r hr
    · intro r hr
      rcases List.mem_append.mp hr with hr | hr
      · exact ⟨(hnum.own r hr).1, Nat.lt_succ_of_lt (hnum.own r hr).2⟩
      · rw [List.mem_singleton.mp hr]
        exact ⟨rfl, Nat.lt_succ_self _⟩

theorem Txn.cells_put {w : Update S} (h : w.uuid ∈ t.cells.rows (S.tableOf w.column)) :
    (t.put w).cells = t.cells.write w.uuid w.column w.value := by
  obtain ⟨r, hr⟩ := Txn.exists_findRow h
  have hput : t.put w = { t with inserted := w.apply t.inserted } := by
    unfold Txn.put
    rw [if_pos (by rw [hr]; rfl)]
  have hrows : (t.put w).cells.rows = t.cells.rows := by
    rw [hput]
    funext k
    unfold Txn.cells rowsOf Update.apply
    simp only [List.filter_map, List.map_map]
    congr 1
    · funext q
      simp
    · congr 1
      funext q
      simp
  have hvalue : (t.put w).cells.value = (t.cells.write w.uuid w.column w.value).value := by
    rw [hput]
    funext u c
    by_cases hcell : u = w.uuid ∧ c = w.column
    · obtain ⟨rfl, rfl⟩ := hcell
      rw [Cells.write_value]
      simp [Txn.cells, findRow_apply, hr, Update.applyRow_col_of_is w (findRow_is hr)]
    · have hright : (t.cells.write w.uuid w.column w.value).value u c = t.cells.value u c :=
        Cells.write_value_of_ne (fun hu hc => hcell ⟨hu, hc⟩)
      rw [hright]
      simp only [Txn.cells, findRow_apply]
      cases hq : findRow (S.tableOf c) u t.inserted with
      | none => rfl
      | some q =>
        simp only [Option.map_some, Option.getD_some]
        exact w.applyRow_col_of_ne (findRow_is hq) hcell
  exact Cells.ext hrows hvalue

theorem Filling.txnWrite (h : Filling s C) {u : Uuid} {c : S.Column} (v : S.Value c)
    (hu : u ∈ C.rows (S.tableOf c)) :
    ∃ s', txnWrite u c v s = .ok ((), s') ∧ Filling s' (C.write u c v) := by
  obtain ⟨t, ht, rfl, hnum⟩ := h.opened
  obtain ⟨r, hr⟩ := Txn.exists_findRow hu
  have hfind : s.find (S.tableOf c) u = some r := by
    unfold Idl.find Txn.find
    rw [ht]
    simp [hr]
  unfold Ovsdb.txnWrite
  rw [hfind]
  dsimp only
  by_cases hsame : c ∈ S.writeOnly ∧ r.col c = v
  · rw [if_pos hsame]
    refine ⟨s, rfl, ?_⟩
    rw [Cells.write_same ((Txn.cells_value_of_find hr).trans hsame.2)]
    exact h
  · rw [if_neg hsame, ht]
    refine ⟨_, rfl, ⟨t.put ⟨u, c, v⟩, rfl, Txn.cells_put hu, ?_⟩, h.replica⟩
    have hinserted : (t.put ⟨u, c, v⟩).inserted = (⟨u, c, v⟩ : Update S).apply t.inserted := by
      unfold Txn.put
      rw [if_pos (by rw [hr]; rfl)]
    constructor
    · have huuids : (t.put ⟨u, c, v⟩).inserted.map Row.uuid = t.inserted.map Row.uuid := by
        rw [hinserted, Update.apply, List.map_map]
        exact List.map_congr_left (fun q _ => Update.applyRow_uuid _ q)
      rw [huuids]
      exact hnum.distinct
    · intro q hq
      rw [hinserted] at hq
      obtain ⟨q', hq', rfl⟩ := List.mem_map.mp hq
      rw [Update.applyRow_uuid]
      exact hnum.own q' hq'

theorem Filling.readCol (h : Filling s C) {u : Uuid} {c : S.Column}
    (hu : u ∈ C.rows (S.tableOf c)) : readCol u c s = .ok (C.value u c, s) := by
  obtain ⟨t, ht, rfl, _⟩ := h.opened
  obtain ⟨r, hr⟩ := Txn.exists_findRow hu
  have hfind : s.find (S.tableOf c) u = some r := by
    unfold Idl.find Txn.find
    rw [ht]
    simp [hr]
  unfold Ovsdb.readCol
  rw [hfind, Txn.cells_value_of_find hr]

theorem Txn.updated_table (t : Txn S) {k : S.Table} {db : Database S}
    (h : ∀ r ∈ db, r.table ≠ k) : ∀ r ∈ t.updated db, r.table ≠ k := by
  unfold Txn.updated
  induction t.updates generalizing db with
  | nil => exact h
  | cons w rest ih =>
    apply ih
    intro r hr
    obtain ⟨q, hq, rfl⟩ := List.mem_map.mp hr
    rw [w.applyRow_table]
    exact h q hq

theorem Filling.rows (h : Filling s C) {k : S.Table} (hk : S.monitored k = false) :
    ∃ l, rows k s = .ok (l, s) ∧ l.map Row.uuid = C.rows k ∧
      ∀ r ∈ l, ∀ c, S.tableOf c = k → r.col c = C.value r.uuid c := by
  obtain ⟨t, ht, rfl, hnum⟩ := h.opened
  have hother : ∀ r ∈ s.snapshot, r.table ≠ k := by
    intro r hr hrk
    have hmonitored := h.replica r hr
    rw [hrk, hk] at hmonitored
    cases hmonitored
  have hnone : rowsOf k (t.updated s.snapshot) = [] := by
    rw [rowsOf, List.filter_eq_nil_iff]
    intro r hr
    simpa using t.updated_table hother r hr
  have hview : rowsOf k s.view = rowsOf k t.inserted := by
    unfold Idl.view Txn.apply
    rw [ht]
    show (t.updated s.snapshot ++ t.inserted).filter _ = _
    rw [List.filter_append]
    exact (congrArg (· ++ rowsOf k t.inserted) hnone).trans (List.nil_append _)
  refine ⟨rowsOf k t.inserted, ?_, rfl, ?_⟩
  · unfold Ovsdb.rows
    rw [hview]
  · intro r hr c hc
    obtain ⟨hin, hrk⟩ := mem_rowsOf.mp hr
    exact (hnum.value_of_mem hin (hc.trans hrk.symm)).symm

end Refinement

/-- From cells `C` the computation runs through exactly under the condition `p`,
and then leaves a result and cells that satisfy `Q`. -/
def Exactly {α : Type} (C : Cells S) (p : Prop) (m : IdlM S α) (Q : α → Cells S → Prop) : Prop :=
  ∀ s, Filling s C →
    (p → ∃ a s' C', m s = .ok (a, s') ∧ Filling s' C' ∧ Q a C') ∧
      (¬ p → ∃ f, m s = .error f)

/-- The computation always runs through. -/
abbrev Always {α : Type} (C : Cells S) (m : IdlM S α) (Q : α → Cells S → Prop) : Prop :=
  Exactly C True m Q

namespace Exactly

variable {α β : Type} {C : Cells S} {p p' : Prop} {m : IdlM S α} {Q Q' : α → Cells S → Prop}
  {R : β → Cells S → Prop}

theorem mono (h : Exactly C p m Q) (hQ : ∀ a C', Q a C' → Q' a C') : Exactly C p m Q' := by
  intro s hs
  refine ⟨fun hp => ?_, (h s hs).2⟩
  obtain ⟨a, s', C', hok, hs', hq⟩ := (h s hs).1 hp
  exact ⟨a, s', C', hok, hs', hQ a C' hq⟩

theorem congr (h : Exactly C p m Q) (hp : p ↔ p') : Exactly C p' m Q := by
  rwa [propext hp] at h

theorem pure {a : α} (h : Q a C) : Always C (Pure.pure a : IdlM S α) Q :=
  fun s hs => ⟨fun _ => ⟨a, s, C, rfl, hs, h⟩, fun hp => (hp trivial).elim⟩

theorem bind {f : α → IdlM S β} (hm : Exactly C p m Q)
    (hf : ∀ a C', Q a C' → Exactly C' p' (f a) R) : Exactly C (p ∧ p') (m >>= f) R := by
  intro s hs
  constructor
  · intro hp
    obtain ⟨a, s₁, C₁, hok, hs₁, hq⟩ := (hm s hs).1 hp.1
    rw [bind_ok f hok]
    exact (hf a C₁ hq s₁ hs₁).1 hp.2
  · intro hnot
    by_cases hp : p
    · obtain ⟨a, s₁, C₁, hok, hs₁, hq⟩ := (hm s hs).1 hp
      rw [bind_ok f hok]
      exact (hf a C₁ hq s₁ hs₁).2 (fun hp' => hnot ⟨hp, hp'⟩)
    · obtain ⟨e, he⟩ := (hm s hs).2 hp
      exact ⟨e, bind_error f he⟩

theorem seq {f : α → IdlM S β} (hm : Always C m Q)
    (hf : ∀ a C', Q a C' → Exactly C' p (f a) R) : Exactly C p (m >>= f) R :=
  (hm.bind hf).congr (by simp)

theorem next {f : α → IdlM S β} (hm : Exactly C p m Q) (hf : ∀ a C', Q a C' → Always C' (f a) R) :
    Exactly C p (m >>= f) R :=
  (hm.bind hf).congr (by simp)

theorem txnInsert {k : S.Table} {f : Uuid → IdlM S β}
    (h : ∀ u, C.Fresh u → Exactly (C.insert k u) p (f u) R) :
    Exactly C p (txnInsert k >>= f) R := by
  intro s hs
  obtain ⟨u, s', hok, hfresh, hs'⟩ := hs.txnInsert k
  rw [bind_ok f hok]
  exact h u hfresh s' hs'

theorem txnWrite {u : Uuid} {c : S.Column} {v : S.Value c} (hu : u ∈ C.rows (S.tableOf c)) :
    Always C (txnWrite u c v) (fun _ C' => C' = C.write u c v) := by
  intro s hs
  obtain ⟨s', hok, hs'⟩ := hs.txnWrite v hu
  exact ⟨fun _ => ⟨(), s', _, hok, hs', rfl⟩, fun hp => (hp trivial).elim⟩

theorem readCol {u : Uuid} {c : S.Column} {f : S.Value c → IdlM S β}
    (hu : u ∈ C.rows (S.tableOf c)) (h : Exactly C p (f (C.value u c)) R) :
    Exactly C p (readCol u c >>= f) R := by
  intro s hs
  rw [bind_ok f (hs.readCol hu)]
  exact h s hs

theorem deref {o : Option α} {q : α → Prop} {f : α → IdlM S β}
    (h : ∀ a, o = some a → Exactly C (q a) (f a) R) :
    Exactly C (∃ a, o = some a ∧ q a) (deref o >>= f) R := by
  intro s hs
  cases o with
  | none => exact ⟨fun hp => by simp at hp, fun _ => ⟨.badAccess, rfl⟩⟩
  | some a =>
    rw [bind_ok f rfl]
    refine ⟨fun hp => ?_, fun hnot => ?_⟩
    · obtain ⟨a', ha, hq⟩ := hp
      cases ha
      exact (h a rfl s hs).1 hq
    · exact (h a rfl s hs).2 (fun hq => hnot ⟨a, rfl, hq⟩)

theorem forM {I : Cells S → Prop} {q : α → Prop} {f : α → IdlM S PUnit} (l : List α) (hC : I C)
    (hf : ∀ a ∈ l, ∀ C, I C → Exactly C (q a) (f a) (fun _ => I)) :
    Exactly C (∀ a ∈ l, q a) (l.forM f) (fun _ => I) := by
  induction l generalizing C with
  | nil => exact (pure (a := PUnit.unit) hC).congr (by simp)
  | cons a rest ih =>
    refine ((hf a (by simp) C hC).bind (fun _ C' hC' => ih hC' ?_)).congr (by simp)
    exact fun b hb => hf b (by simp [hb])

theorem of_ok (h : Exactly C p m Q) {s s' : Idl S} {a : α} (hs : Filling s C)
    (hok : m s = .ok (a, s')) : p ∧ ∃ C', Filling s' C' ∧ Q a C' := by
  by_cases hp : p
  · obtain ⟨b, s₁, C₁, hok₁, hs₁, hq⟩ := (h s hs).1 hp
    rw [hok] at hok₁
    cases hok₁
    exact ⟨hp, C₁, hs₁, hq⟩
  · obtain ⟨e, he⟩ := (h s hs).2 hp
    rw [hok] at he
    cases he

theorem agree (h : Exactly C p m Q) (h' : Exactly C p' m Q') {s : Idl S} (hs : Filling s C)
    (hp : p) : p' ∧ ∃ a C', Q a C' ∧ Q' a C' := by
  obtain ⟨a, s', C', hok, hs', hq⟩ := (h s hs).1 hp
  obtain ⟨hp', C'', hs'', hq'⟩ := h'.of_ok hs hok
  exact ⟨hp', a, C', hq, hs''.unique hs' ▸ hq'⟩

end Exactly

/-- Rows added to one table, one for each entry of a list, each with its columns. -/
structure Cells.Appended {α : Type} (k : S.Table) (cols : α → (c : S.Column) → S.Value c)
    (l : List α) (C : Cells S) (us : List Uuid) (C' : Cells S) : Prop where
  rows : C'.rows k = C.rows k ++ us
  other : ∀ k', k' ≠ k → C'.rows k' = C.rows k'
  fresh : ∀ u ∈ us, C.Fresh u
  distinct : us.Nodup
  cols : List.Forall₂ (fun a u => C'.value u = cols a) l us
  old : ∀ u, u ∉ us → C'.value u = C.value u

/-- Of what was there, rows are added to these tables only and these columns only
are written. -/
structure Cells.Extends (T : List S.Table) (L : List S.Column) (C C' : Cells S) : Prop where
  kept : ∀ k u, u ∈ C.rows k → u ∈ C'.rows k
  same : ∀ k, k ∉ T → C'.rows k = C.rows k
  value : ∀ k u, u ∈ C.rows k → ∀ c, c ∉ L → C'.value u c = C.value u c

namespace Cells.Extends

variable {C C' C'' : Cells S} {T T' : List S.Table} {L L' : List S.Column}

theorem refl (C : Cells S) : C.Extends T L C :=
  ⟨fun _ _ h => h, fun _ _ => rfl, fun _ _ _ _ _ => rfl⟩

theorem step (h : C.Extends T L C') (h' : C'.Extends T' L' C'') (hT : T' ⊆ T) (hL : L' ⊆ L) :
    C.Extends T L C'' := by
  refine ⟨fun k u hu => h'.kept k u (h.kept k u hu), fun k hk => ?_, fun k u hu c hc => ?_⟩
  · rw [h'.same k (fun hk' => hk (hT hk')), h.same k hk]
  · rw [h'.value k u (h.kept k u hu) c (fun hc' => hc (hL hc')), h.value k u hu c hc]

theorem append (h : C.Extends T L C') (h' : C'.Extends T' L' C'') :
    C.Extends (T ++ T') (L ++ L') C'' := by
  refine ⟨fun k u hu => h'.kept k u (h.kept k u hu), fun k hk => ?_, fun k u hu c hc => ?_⟩
  · rw [List.mem_append, not_or] at hk
    rw [h'.same k hk.2, h.same k hk.1]
  · rw [List.mem_append, not_or] at hc
    rw [h'.value k u (h.kept k u hu) c hc.2, h.value k u hu c hc.1]

theorem insert (h : C.Extends T L C') {k : S.Table} (hk : k ∈ T) (u : Uuid) :
    C.Extends T L (C'.insert k u) := by
  refine ⟨fun k' u' hu' => mem_insert_of_mem (h.kept k' u' hu'), fun k' hk' => ?_, h.value⟩
  have hne : k' ≠ k := by
    rintro rfl
    exact hk' hk
  rw [insert_rows_of_ne hne, h.same k' hk']

theorem write (h : C.Extends T L C') {c : S.Column} (hc : c ∈ L) (u : Uuid) (v : S.Value c) :
    C.Extends T L (C'.write u c v) := by
  refine ⟨h.kept, h.same, fun k u' hu' c' hc' => ?_⟩
  have hne : c' ≠ c := by
    rintro rfl
    exact hc' hc
  rw [write_value_of_column_ne hne, h.value k u' hu' c' hc']

theorem writeNew (h : C.Extends T L C') {u : Uuid} (hu : ∀ k, u ∉ C.rows k) (c : S.Column)
    (v : S.Value c) : C.Extends T L (C'.write u c v) := by
  refine ⟨h.kept, h.same, fun k u' hu' => ?_⟩
  have hne : u' ≠ u := by
    rintro rfl
    exact hu k hu'
  rw [write_value_of_row_ne hne]
  exact h.value k u' hu'

theorem new (h : C.Extends T L C') {u : Uuid} (hu : ∀ k, u ∉ C'.rows k) : ∀ k, u ∉ C.rows k :=
  fun k hmem => hu k (h.kept k u hmem)

end Cells.Extends

theorem Cells.Appended.extends {α : Type} {k : S.Table} {cols : α → (c : S.Column) → S.Value c}
    {l : List α} {C C' : Cells S} {us : List Uuid} (h : C.Appended k cols l us C') :
    C.Extends [k] [] C' := by
  refine ⟨fun k' u hu => ?_, fun k' hk' => h.other k' (by simpa using hk'), fun k' u hu c _ => ?_⟩
  · by_cases hk : k' = k
    · subst hk
      rw [h.rows]
      exact List.mem_append_left _ hu
    · rwa [h.other k' hk]
  · rw [h.old u (fun hmem => (h.fresh u hmem).rows k' hu)]

theorem Exactly.mapM {α : Type} {k : S.Table} {cols : α → (c : S.Column) → S.Value c}
    {q : α → Prop} {f : α → IdlM S Uuid} (l : List α) (C : Cells S)
    (hf : ∀ a ∈ l, ∀ C, Exactly C (q a) (f a) (fun u C' => C.Appended k cols [a] [u] C')) :
    Exactly C (∀ a ∈ l, q a) (l.mapM f) (fun us C' => C.Appended k cols l us C') := by
  induction l generalizing C with
  | nil =>
    refine (Exactly.pure ?_).congr (by simp)
    exact ⟨by simp, fun _ _ => rfl, by simp, by simp, .nil, fun _ _ => rfl⟩
  | cons a rest ih =>
    rw [List.mapM_cons]
    refine Exactly.congr ((hf a (by simp) C).bind (fun u C₁ h₁ => ?_)) List.forall_mem_cons.symm
    refine (ih C₁ (fun b hb => hf b (by simp [hb]))).next (fun us C₂ h₂ => .pure ?_)
    have hu : u ∉ us := fun hmem => (h₂.fresh u hmem).rows k (by simp [h₁.rows])
    refine ⟨?_, ?_, ?_, ?_, ?_, ?_⟩
    · rw [h₂.rows, h₁.rows, List.append_assoc, List.singleton_append]
    · intro k' hk'
      rw [h₂.other k' hk', h₁.other k' hk']
    · intro u' hu'
      rcases List.mem_cons.mp hu' with rfl | hu'
      · exact h₁.fresh u' (by simp)
      · have hne : u' ∉ [u] := by
          rintro hmem
          rw [List.mem_singleton] at hmem
          exact hu (hmem ▸ hu')
        have hfresh := h₂.fresh u' hu'
        refine ⟨fun k' hk' => hfresh.rows k' ?_, (h₁.old u' hne).symm.trans hfresh.value⟩
        by_cases hk : k' = k
        · subst hk
          rw [h₁.rows]
          exact List.mem_append_left _ hk'
        · rwa [h₁.other k' hk]
    · exact List.nodup_cons.mpr ⟨hu, h₂.distinct⟩
    · refine .cons ?_ h₂.cols
      rw [h₂.old u hu]
      exact (List.forall₂_cons.mp h₁.cols).1
    · intro u' hu'
      rw [List.mem_cons, not_or] at hu'
      rw [h₂.old u' hu'.2, h₁.old u' (by simpa using hu'.1)]

theorem Always.mapM {α : Type} {k : S.Table} {cols : α → (c : S.Column) → S.Value c}
    {f : α → IdlM S Uuid} (l : List α) (C : Cells S)
    (hf : ∀ a ∈ l, ∀ C, Always C (f a) (fun u C' => C.Appended k cols [a] [u] C')) :
    Always C (l.mapM f) (fun us C' => C.Appended k cols l us C') :=
  (Exactly.mapM l C hf).congr (by simp)

end OpsSysd.Ovsdb
