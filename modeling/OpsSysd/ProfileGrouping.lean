import OpsSysd.QosRows
import Mathlib.Data.List.Find

/-!
What a profile holds after its entries have been read. Every entry of the
description finds or adds the row of its queue and then changes some columns of
it, so each row becomes what the entries of its queue make of a new row, and
the rows of a profile are its own.
-/

namespace OpsSysd.QosInit

open CString Ovsdb Ovsrec Platform InitialConfigure

/-- How the entries of one queue make up its row. -/
structure Grouping (T : ProfileTables) (E : Type) where
  key : E → ℤ
  columns : List Column
  row : List E → (c : Column) → c.type.Value
  row_nil : ∀ c ∈ columns, row [] c = c.type.initial
  apart : ∀ c ∈ columns, c ∉ [T.name.column, T.entries.column, T.hwDefault.column,
    T.entryHwDefault.column, T.system.column]

/-- The profile that a search by name finds. -/
def ProfileTables.rowNamed (T : ProfileTables) (C : Cells schema) (profileName : CStr) :
    Option Uuid := (C.rows T.profile).find? (fun u => T.name.value C u = profileName)

/-- The rows of a profile's entries. -/
def ProfileTables.entryRows (T : ProfileTables) (C : Cells schema) (u : Uuid) : List Uuid :=
  (T.entries.value C u).map Prod.snd

theorem always_getRow_rowNamed (T : ProfileTables) (C : Cells schema) (profileName : CStr) :
    Always C (T.getRow profileName) (fun r C' => C' = C ∧ r = T.rowNamed C profileName) := by
  intro s hs
  refine ⟨fun _ => ?_, fun hp => (hp trivial).elim⟩
  obtain ⟨l, hl, huuid, hcol⟩ := hs.rows T.unmonitored
  refine ⟨_, s, C, bind_ok _ hl, hs, rfl, ?_⟩
  unfold ProfileTables.rowNamed
  rw [← huuid, List.find?_map]
  congr 1
  apply List.find?_congr
  intro r hr
  have hname : T.name.ofRow r = T.name.value C r.uuid := by
    unfold TypedColumn.ofRow TypedColumn.value
    rw [hcol r hr T.name.column T.nameTable]
  simp [hname]

/-- The columns of a family are different columns. -/
structure ProfileTables.ColumnsApart (T : ProfileTables) : Prop where
  name_entries : T.name.column ≠ T.entries.column
  name_hwDefault : T.name.column ≠ T.hwDefault.column
  name_entryHwDefault : T.name.column ≠ T.entryHwDefault.column
  name_system : T.name.column ≠ T.system.column
  entries_hwDefault : T.entries.column ≠ T.hwDefault.column
  entries_entryHwDefault : T.entries.column ≠ T.entryHwDefault.column
  entries_system : T.entries.column ≠ T.system.column
  hwDefault_entryHwDefault : T.hwDefault.column ≠ T.entryHwDefault.column
  hwDefault_system : T.hwDefault.column ≠ T.system.column
  entryHwDefault_system : T.entryHwDefault.column ≠ T.system.column

theorem columnsApart {T : ProfileTables} (hT : T ∈ profileTables) : T.ColumnsApart := by
  simp only [profileTables, List.mem_cons, List.not_mem_nil, or_false] at hT
  rcases hT with rfl | rfl <;> constructor <;> decide

theorem profile_ne_entry : ∀ T ∈ profileTables, T.profile ≠ T.entry := by decide

namespace Grouping

variable {T : ProfileTables} {E : Type} (G : Grouping T E)

/-- The profile `u` has one row for each of the queues `qs`, made up of the entries
in `l`. -/
structure Grouped (C : Cells schema) (u : Uuid) (qs : List ℤ) (l : List E) : Prop where
  profile : u ∈ C.rows T.profile
  keys : ((T.entries.value C u).map Prod.fst).Nodup
  mem : ∀ q, q ∈ (T.entries.value C u).map Prod.fst ↔ q ∈ qs
  rows : ∀ w ∈ T.entryRows C u, w ∈ C.rows T.entry
  distinct : (T.entryRows C u).Nodup
  content : ∀ e ∈ T.entries.value C u, ∀ c ∈ G.columns,
    C.value e.2 c = G.row (l.filter (fun x => G.key x = e.1)) c

/-- Between the cells the profile `u` gains new entries, and its entries change in
the columns of the grouping. -/
structure Filled (u : Uuid) (C C' : Cells schema) : Prop where
  other : ∀ k, k ≠ T.entry → C'.rows k = C.rows k
  added : ∃ es, T.entries.value C' u = T.entries.value C u ++ es ∧
    C'.rows T.entry = C.rows T.entry ++ es.map Prod.snd ∧ ∀ e ∈ es, C.Fresh e.2
  same : ∀ v c, (v = u → c ≠ T.entries.column) →
    (v ∈ T.entryRows C' u → c ∉ G.columns) → C'.value v c = C.value v c

variable {G} {C C' C'' : Cells schema} {u row : Uuid} {qs qs' : List ℤ} {l : List E} {x : E}

theorem Grouped.congr (h : G.Grouped C u qs l) (hqs : ∀ q, q ∈ qs ↔ q ∈ qs') :
    G.Grouped C u qs' l :=
  { h with mem := fun q => (h.mem q).trans (hqs q) }

theorem Filled.refl (u : Uuid) (C : Cells schema) : G.Filled u C C :=
  ⟨fun _ _ => rfl, ⟨[], by simp, by simp, by simp⟩, fun _ _ _ _ => rfl⟩

theorem Filled.kept (h : G.Filled u C C') {k : Table} {v : Uuid} (hv : v ∈ C.rows k) :
    v ∈ C'.rows k := by
  by_cases hk : k = T.entry
  · subst hk
    obtain ⟨es, _, hrows, _⟩ := h.added
    rw [hrows]
    exact List.mem_append_left _ hv
  · rwa [h.other k hk]

theorem Filled.fresh (h : G.Filled u C C') (hC' : G.Grouped C' u qs l) {w : Uuid}
    (hw : C'.Fresh w) : C.Fresh w := by
  refine ⟨fun k hmem => hw.rows k (h.kept hmem), ?_⟩
  rw [← hw.value]
  funext c
  refine (h.same w c (fun heq => ?_) (fun hmem => ?_)).symm
  · exact absurd hC'.profile (heq ▸ hw.rows T.profile)
  · exact absurd (hC'.rows w hmem) (hw.rows T.entry)

theorem Filled.trans (h : G.Filled u C C') (hC' : G.Grouped C' u qs l) (h' : G.Filled u C' C'') :
    G.Filled u C C'' := by
  obtain ⟨es, hes, hrows, hfresh⟩ := h.added
  obtain ⟨es', hes', hrows', hfresh'⟩ := h'.added
  refine ⟨fun k hk => (h'.other k hk).trans (h.other k hk), ⟨es ++ es', ?_, ?_, ?_⟩, ?_⟩
  · rw [hes', hes, List.append_assoc]
  · rw [hrows', hrows, List.map_append, List.append_assoc]
  · intro e he
    rcases List.mem_append.mp he with hold | hnew
    · exact hfresh e hold
    · exact h.fresh hC' (hfresh' e hnew)
  · intro v c hu hv
    rw [h'.same v c hu hv]
    refine h.same v c hu (fun hmem => hv ?_)
    unfold ProfileTables.entryRows at hmem ⊢
    rw [hes', List.map_append]
    exact List.mem_append_left _ hmem

theorem entries_notMem (G : Grouping T E) : T.entries.column ∉ G.columns :=
  fun hmem => G.apart _ hmem (by simp)

theorem Grouped.enter (h : G.Grouped C u qs l) (hkeys : ∀ x ∈ l, G.key x ∈ qs) {q : ℤ}
    (hq : q ∉ qs) (hrow : C.Fresh row) (hC' : C' = (C.insert T.entry row).write u T.entries.column
      (T.entries.encode (T.entries.value C u ++ [(q, row)]))) :
    G.Grouped C' u (q :: qs) l ∧ G.Filled u C C' ∧ (q, row) ∈ T.entries.value C' u := by
  have hentries : T.entries.value C' u = T.entries.value C u ++ [(q, row)] := by
    rw [hC']
    exact T.entries.value_write _ u _
  have hrows : C'.rows = (C.insert T.entry row).rows := by
    rw [hC']
    rfl
  have hvalue : ∀ v c, (v = u → c ≠ T.entries.column) → C'.value v c = C.value v c := by
    intro v c hne
    rw [hC', Cells.write_value_of_ne hne, Cells.insert_value]
  have hcolumns : ∀ v, ∀ c ∈ G.columns, C'.value v c = C.value v c := fun v c hc =>
    hvalue v c (fun _ heq => G.entries_notMem (heq ▸ hc))
  have hentryRows : T.entryRows C' u = T.entryRows C u ++ [row] := by
    simp [ProfileTables.entryRows, hentries]
  have hnew : row ∉ T.entryRows C u := fun hmem => hrow.rows _ (h.rows row hmem)
  have hqkeys : q ∉ (T.entries.value C u).map Prod.fst := fun hmem => hq ((h.mem q).mp hmem)
  refine ⟨⟨?_, ?_, ?_, ?_, ?_, ?_⟩, ⟨?_, ⟨[(q, row)], hentries, ?_, ?_⟩, ?_⟩, ?_⟩
  · rw [hrows]
    exact Cells.mem_insert_of_mem h.profile
  · rw [hentries, List.map_append, List.map_singleton, ← List.concat_eq_append]
    exact h.keys.concat hqkeys
  · intro q'
    rw [hentries, List.map_append, List.mem_append, h.mem, or_comm]
    simp
  · intro w hw
    rw [hrows]
    rw [hentryRows, List.mem_append, List.mem_singleton] at hw
    rcases hw with hw | rfl
    · exact Cells.mem_insert_of_mem (h.rows w hw)
    · exact Cells.mem_insert_self
  · rw [hentryRows, ← List.concat_eq_append]
    exact h.distinct.concat hnew
  · intro e he c hc
    rw [hcolumns e.2 c hc]
    rw [hentries, List.mem_append, List.mem_singleton] at he
    rcases he with he | rfl
    · exact h.content e he c hc
    · have hnil : l.filter (fun x => G.key x = q) = [] := by
        rw [List.filter_eq_nil_iff]
        intro x hx
        simpa using fun heq : G.key x = q => hq (heq ▸ hkeys x hx)
      rw [hnil, G.row_nil c hc, hrow.value]
  · intro k hk
    rw [hrows, Cells.insert_rows_of_ne hk]
  · rw [hrows, Cells.insert_rows]
    rfl
  · simpa using hrow
  · exact fun v c hne _ => hvalue v c hne
  · rw [hentries]
    simp

theorem Grouped.findOrInsert (h : G.Grouped C u qs l)
    (hkeys : ∀ x ∈ l, G.key x ∈ qs) (q : ℤ) :
    Always C (T.findOrInsert u q) (fun row C' => G.Grouped C' u (q :: qs) l ∧ G.Filled u C C' ∧
      (q, row) ∈ T.entries.value C' u) := by
  have hu : u ∈ C.rows T.entries.column.table := by
    rw [T.entriesTable]
    exact h.profile
  refine Exactly.seq (Q := fun r C' => C' = C ∧ r = entryRow (T.entries.value C u) q)
    (T.entries.exactly_get hu (.pure ⟨rfl, rfl⟩)) (fun r C₁ hr => ?_)
  obtain ⟨rfl, rfl⟩ := hr
  unfold entryRow
  cases hfind : (T.entries.value C₁ u).find? (fun p => p.1 = q) with
  | some e =>
    have hmem := List.mem_of_find?_eq_some hfind
    have hkey : e.1 = q := by simpa using List.find?_some hfind
    have hq : q ∈ qs := (h.mem q).mp (hkey ▸ List.mem_map_of_mem hmem)
    refine .pure ⟨h.congr (fun q' => ?_), .refl u C₁, hkey ▸ hmem⟩
    rw [List.mem_cons, or_iff_right_of_imp (fun heq => heq ▸ hq)]
  | none =>
    have hnew : q ∉ (T.entries.value C₁ u).map Prod.fst := by
      intro hmem
      obtain ⟨e, he, hkey⟩ := List.mem_map.mp hmem
      simpa [hkey] using List.find?_eq_none.mp hfind e he
    refine exactly_insert (fun row hrow => ?_)
    have hu₁ : u ∈ (C₁.insert T.entry row).rows T.entries.column.table :=
      Cells.mem_insert_of_mem hu
    refine T.entries.exactly_get hu₁ ?_
    have hq : q ∉ qs := fun hmem => hnew ((h.mem q).mpr hmem)
    exact (T.entries.always_set (R := fun _ C' => G.Grouped C' u (q :: qs) l ∧
      G.Filled u C₁ C' ∧ (q, row) ∈ T.entries.value C' u) hu₁ (h.enter hkeys hq hrow rfl)).seq
        (fun _ C₂ h₂ => .pure h₂)

theorem Grouped.fill (h : G.Grouped C u qs l) (hmem : (G.key x, row) ∈ T.entries.value C u)
    (hrows : C'.rows = C.rows)
    (hcontent : ∀ c ∈ G.columns,
      C'.value row c = G.row (l.filter (fun y => G.key y = G.key x) ++ [x]) c)
    (hsame : ∀ v c, (v = row → c ∉ G.columns) → C'.value v c = C.value v c) :
    G.Grouped C' u qs (l ++ [x]) ∧ G.Filled u C C' := by
  have hentries : T.entries.value C' u = T.entries.value C u :=
    T.entries.value_congr (hsame u _ (fun _ => G.entries_notMem))
  have hentryRows : T.entryRows C' u = T.entryRows C u := by
    unfold ProfileTables.entryRows
    rw [hentries]
  refine ⟨⟨?_, ?_, ?_, ?_, ?_, ?_⟩, ⟨?_, ⟨[], by simp [hentries], by simp [hrows], by simp⟩, ?_⟩⟩
  · rw [hrows]
    exact h.profile
  · rw [hentries]
    exact h.keys
  · rw [hentries]
    exact h.mem
  · rw [hentryRows, hrows]
    exact h.rows
  · rw [hentryRows]
    exact h.distinct
  · intro e he c hc
    rw [hentries] at he
    by_cases hrow : e.2 = row
    · have heq : e = (G.key x, row) := List.inj_on_of_nodup_map h.distinct he hmem hrow
      rw [heq, hcontent c hc]
      simp
    · have hkey : G.key x ≠ e.1 := fun heq =>
        hrow (congrArg Prod.snd (List.inj_on_of_nodup_map h.keys he hmem heq.symm))
      rw [hsame e.2 c (fun heq => absurd heq hrow), h.content e he c hc]
      simp [hkey]
  · exact fun k _ => congrFun hrows k
  · intro v c _ hv
    refine hsame v c (fun heq => hv ?_)
    rw [hentryRows, heq]
    exact List.mem_map_of_mem hmem

theorem Filled.rowNamed (hT : T ∈ profileTables) (h : G.Filled u C C') (profileName : CStr) :
    T.rowNamed C' profileName = T.rowNamed C profileName := by
  have hname : ∀ v, T.name.value C' v = T.name.value C v := fun v =>
    T.name.value_congr (h.same v _ (fun _ => (columnsApart hT).name_entries)
      (fun _ hmem => G.apart _ hmem (by simp)))
  unfold ProfileTables.rowNamed
  rw [h.other _ (profile_ne_entry T hT)]
  simp only [hname]

/-- The command adds what the entry says to its row. -/
def Fills (G : Grouping T E) (fill : Uuid → OvsM Bool) (x : E) : Prop :=
  ∀ (C : Cells schema) (row : Uuid) (l : List E), row ∈ C.rows T.entry →
    (∀ c ∈ G.columns, C.value row c = G.row l c) →
      Always C (fill row) (fun _ C' => C'.rows = C.rows ∧
        (∀ c ∈ G.columns, C'.value row c = G.row (l ++ [x]) c) ∧
          ∀ v c, (v = row → c ∉ G.columns) → C'.value v c = C.value v c)

theorem Grouped.rowCommand (h : G.Grouped C u (l.map G.key) l)
    {profileName : CStr} (hname : T.rowNamed C profileName = some u) {fill : Uuid → OvsM Bool}
    (hfill : G.Fills fill x) :
    Always C (T.rowCommand profileName (G.key x) fill) (fun _ C' =>
      G.Grouped C' u ((l ++ [x]).map G.key) (l ++ [x]) ∧ G.Filled u C C') := by
  refine (always_getRow_rowNamed T C profileName).seq (fun r C₁ hr => ?_)
  obtain ⟨rfl, rfl⟩ := hr
  rw [hname]
  refine (h.findOrInsert (fun y hy => List.mem_map_of_mem hy) (G.key x)).seq
    (fun row C₂ h₂ => ?_)
  obtain ⟨h₂, hfilled, hmem⟩ := h₂
  have hrow : row ∈ T.entryRows C₂ u := List.mem_map_of_mem hmem
  refine (hfill C₂ row _ (h₂.rows row hrow) (fun c hc => h₂.content _ hmem c hc)).mono
    (fun _ C₃ h₃ => ?_)
  obtain ⟨hgrouped, hfilled'⟩ := h₂.fill hmem h₃.1 h₃.2.1 h₃.2.2
  refine ⟨hgrouped.congr (fun q => ?_), hfilled.trans h₂ hfilled'⟩
  rw [List.map_append, List.mem_append, List.mem_cons, or_comm]
  simp

theorem Grouped.fillAll (hT : T ∈ profileTables) (h : G.Grouped C u (l.map G.key) l)
    {profileName : CStr} (hname : T.rowNamed C profileName = some u)
    {fill : E → Uuid → OvsM Bool} (xs : List (Option E))
    (hfill : ∀ x, some x ∈ xs → G.Fills (fill x) x) :
    Always C (T.fillAll profileName G.key fill xs) (fun _ C' =>
      G.Grouped C' u ((l ++ xs.filterMap id).map G.key) (l ++ xs.filterMap id) ∧
        G.Filled u C C') := by
  unfold ProfileTables.fillAll
  induction xs generalizing C l with
  | nil => exact .pure (a := PUnit.unit) ⟨by simpa using h, .refl u C⟩
  | cons entry rest ih =>
    have hrest : ∀ x, some x ∈ rest → G.Fills (fill x) x := fun x hx => hfill x (by simp [hx])
    cases entry with
    | none =>
      refine Exactly.seq (Q := fun _ C₁ => C₁ = C) (.pure (a := PUnit.unit) rfl) (fun _ C₁ h₁ => ?_)
      subst h₁
      exact ih h hname hrest
    | some x =>
      have hround : Always C (do
          let _ ← T.rowCommand profileName (G.key x) (fill x)) (fun _ C₁ =>
            G.Grouped C₁ u ((l ++ [x]).map G.key) (l ++ [x]) ∧ G.Filled u C C₁) :=
        (h.rowCommand hname (hfill x (by simp))).seq (fun _ C₁ h₁ => .pure h₁)
      refine hround.seq (fun _ C₁ h₁ => ?_)
      have hname₁ := (h₁.2.rowNamed hT profileName).trans hname
      refine (ih h₁.1 hname₁ hrest).mono (fun _ C₂ h₂ => ?_)
      have happend : l ++ [x] ++ rest.filterMap id = l ++ (some x :: rest).filterMap id := by simp
      rw [happend] at h₂
      exact ⟨h₂.1, h₁.2.trans h₁.1 h₂.2⟩

end Grouping

end OpsSysd.QosInit
