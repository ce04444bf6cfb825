import OpsSysd.ProfileGrouping

/-!
A profile of a name is created, or emptied, and filled; both profiles of a
family are created so, one after the other, and the factory profile is marked.
What the second one does leaves the first alone.
-/

namespace OpsSysd.QosInit

open CString Ovsdb Ovsrec Platform InitialConfigure

/-- The row that is added when none was found. -/
def newRow (found : Option Uuid) (u : Uuid) : List Uuid := if found.isSome then [] else [u]

/-- Between the cells the profile `u` of a name is found or added; it has no entries. -/
structure ProfileTables.Started (T : ProfileTables) (profileName : CStr) (u : Uuid)
    (C C' : Cells schema) : Prop where
  found : T.rowNamed C' profileName = some u
  empty : T.entries.value C' u = []
  existing : ∀ v, T.rowNamed C profileName = some v → v = u
  fresh : T.rowNamed C profileName = none → C.Fresh u
  tables : ∀ k, k ≠ T.profile → C'.rows k = C.rows k
  profiles : C'.rows T.profile = C.rows T.profile ++ newRow (T.rowNamed C profileName) u
  same : ∀ v c, (v = u → c ≠ T.entries.column ∧ c ≠ T.name.column) → C'.value v c = C.value v c

/-- Between the cells the profile `u` of a name gets the entries in `l` and no others. -/
structure Grouping.Created {T : ProfileTables} {E : Type} (G : Grouping T E) (profileName : CStr)
    (u : Uuid) (l : List E) (C C' : Cells schema) : Prop where
  found : T.rowNamed C' profileName = some u
  grouped : G.Grouped C' u (l.map G.key) l
  existing : ∀ v, T.rowNamed C profileName = some v → v = u
  fresh : T.rowNamed C profileName = none → C.Fresh u
  tables : ∀ k, k ≠ T.profile → k ≠ T.entry → C'.rows k = C.rows k
  profiles : C'.rows T.profile = C.rows T.profile ++ newRow (T.rowNamed C profileName) u
  entryRows : C'.rows T.entry = C.rows T.entry ++ T.entryRows C' u
  new : ∀ w ∈ T.entryRows C' u, C.Fresh w
  same : ∀ v c, (v = u → c ≠ T.entries.column ∧ c ≠ T.name.column) →
    (v ∈ T.entryRows C' u → c ∉ G.columns) → C'.value v c = C.value v c

section Creation

variable {T : ProfileTables} {E : Type} {G : Grouping T E} {C C₁ C₂ C' : Cells schema}
  {u v : Uuid} {profileName profileName' : CStr} {l : List E}

theorem ProfileTables.mem_of_rowNamed (h : T.rowNamed C profileName = some u) :
    u ∈ C.rows T.profile ∧ T.name.value C u = profileName :=
  ⟨List.mem_of_find?_eq_some h, by simpa using List.find?_some h⟩

theorem ProfileTables.rowNamed_eq_none :
    T.rowNamed C profileName = none ↔ ∀ v ∈ C.rows T.profile, T.name.value C v ≠ profileName := by
  simp [ProfileTables.rowNamed]

/-- The row that the search adds if it finds none. -/
theorem started_insert (hT : T ∈ profileTables) (hnone : T.rowNamed C profileName = none)
    (hu : C.Fresh u) : T.Started profileName u C ((C.insert T.profile u).write u T.name.column
      (T.name.encode profileName)) := by
  have hvalue : ∀ v, v ≠ u → T.name.value ((C.insert T.profile u).write u T.name.column
      (T.name.encode profileName)) v = T.name.value C v :=
    fun v hv => T.name.value_write_of_row_ne hv T.name.column _
  have hold : ∀ v ∈ C.rows T.profile, T.name.value ((C.insert T.profile u).write u T.name.column
      (T.name.encode profileName)) v ≠ profileName := by
    intro v hv
    rw [hvalue v (fun heq => hu.rows _ (heq ▸ hv))]
    exact ProfileTables.rowNamed_eq_none.mp hnone v hv
  have hself : T.name.value ((C.insert T.profile u).write u T.name.column
      (T.name.encode profileName)) u = profileName := T.name.value_write _ u profileName
  refine ⟨?_, ?_, ?_, fun _ => hu, ?_, ?_, ?_⟩
  · unfold ProfileTables.rowNamed
    rw [Cells.write_rows, Cells.insert_rows, List.find?_append,
      List.find?_eq_none.mpr (by simpa using hold)]
    simp [hself]
  · rw [T.entries.value_write_of_column_ne (columnsApart hT).name_entries.symm,
      T.entries.value_insert]
    exact T.entries.value_fresh hu
  · rw [hnone]
    intro v hv
    cases hv
  · intro k hk
    rw [Cells.write_rows, Cells.insert_rows_of_ne hk]
  · rw [Cells.write_rows, Cells.insert_rows, hnone]
    rfl
  · intro v c hne
    rw [Cells.write_value_of_ne (fun hv => (hne hv).2), Cells.insert_value]

theorem always_command_started (hT : T ∈ profileTables) (hnone : T.rowNamed C profileName = none) :
    Always C (T.command profileName) (fun _ C' => ∃ u, T.Started profileName u C C') := by
  refine (always_getRow_rowNamed T C profileName).seq (fun r C₁ hr => ?_)
  obtain ⟨rfl, rfl⟩ := hr
  rw [hnone]
  refine exactly_insert (fun u hu => ?_)
  have hmem : u ∈ (C₁.insert T.profile u).rows T.name.column.table := by
    rw [T.nameTable]
    exact Cells.mem_insert_self
  exact T.name.always_set hmem ⟨u, started_insert hT hnone hu⟩

theorem always_command_found (hfound : T.rowNamed C profileName = some u) :
    Always C (T.command profileName) (fun _ C' => C' = C) := by
  refine (always_getRow_rowNamed T C profileName).seq (fun r C₁ hr => ?_)
  obtain ⟨rfl, rfl⟩ := hr
  rw [hfound]
  exact .pure rfl

theorem started_clear (hT : T ∈ profileTables) (hfound : T.rowNamed C profileName = some u) :
    T.Started profileName u C (C.write u T.entries.column (T.entries.encode [])) := by
  have hname : ∀ v, T.name.value (C.write u T.entries.column (T.entries.encode [])) v =
      T.name.value C v :=
    fun v => T.name.value_write_of_column_ne (columnsApart hT).name_entries _ v
  refine ⟨?_, T.entries.value_write C u [], ?_, ?_, fun _ _ => rfl, ?_, ?_⟩
  · unfold ProfileTables.rowNamed at hfound ⊢
    simpa only [hname, Cells.write_rows] using hfound
  · intro v hv
    rw [hfound] at hv
    exact (Option.some.inj hv).symm
  · intro hnone
    rw [hfound] at hnone
    cases hnone
  · rw [hfound]
    simp [newRow]
  · intro v c hne
    rw [Cells.write_value_of_ne (fun hv => (hne hv).1)]

/-- Whatever the profile held before, it is there and has no entries. -/
theorem always_clear (hT : T ∈ profileTables) (C : Cells schema) (profileName : CStr) :
    Always C (T.clear profileName) (fun _ C' => ∃ u, T.Started profileName u C C') := by
  have hset : ∀ C₁ u, T.rowNamed C₁ profileName = some u → ∀ R : Cells schema → Prop,
      R (C₁.write u T.entries.column (T.entries.encode [])) → Always C₁ (do
        let profileRow ← T.getRow profileName
        let profileRow ← deref profileRow
        T.entries.set profileRow []) (fun _ => R) := by
    intro C₁ u hfound R hR
    refine (always_getRow_rowNamed T C₁ profileName).seq (fun r C₂ hr => ?_)
    obtain ⟨rfl, rfl⟩ := hr
    rw [hfound]
    refine (Exactly.deref (q := fun _ => True) (fun w hw => ?_)).congr (by simp)
    cases hw
    have hu : u ∈ C₂.rows T.entries.column.table := by
      rw [T.entriesTable]
      exact (ProfileTables.mem_of_rowNamed hfound).1
    exact T.entries.always_set hu hR
  cases hfound : T.rowNamed C profileName with
  | some u =>
    refine (always_command_found hfound).seq (fun _ C₁ h₁ => ?_)
    subst h₁
    exact hset C₁ u hfound _ ⟨u, started_clear hT hfound⟩
  | none =>
    refine (always_command_started hT hfound).seq (fun _ C₁ h₁ => ?_)
    obtain ⟨u, h₁⟩ := h₁
    have hsame : C₁.write u T.entries.column (T.entries.encode []) = C₁ := by
      apply Cells.write_same
      have hempty : T.entries.decode (C₁.value u T.entries.column) = [] := h₁.empty
      rw [← hempty, T.entries.encode_decode]
    exact hset C₁ u h₁.found _ (by rw [hsame]; exact ⟨u, h₁⟩)

theorem ProfileTables.Started.kept (h : T.Started profileName u C C₁) {k : Table} {w : Uuid}
    (hw : w ∈ C.rows k) : w ∈ C₁.rows k := by
  by_cases hk : k = T.profile
  · subst hk
    rw [h.profiles]
    exact List.mem_append_left _ hw
  · rwa [h.tables k hk]

theorem ProfileTables.Started.new (h : T.Started profileName u C C₁) {w : Uuid} (hw : C₁.Fresh w) :
    C.Fresh w := by
  refine ⟨fun k hmem => hw.rows k (h.kept hmem), ?_⟩
  rw [← hw.value]
  funext c
  refine (h.same w c (fun heq => ?_)).symm
  exact absurd (ProfileTables.mem_of_rowNamed h.found).1 (heq ▸ hw.rows T.profile)

theorem ProfileTables.Started.grouped (h : T.Started profileName u C C₁) :
    G.Grouped C₁ u [] [] := by
  have hempty : T.entryRows C₁ u = [] := by simp [ProfileTables.entryRows, h.empty]
  refine ⟨(ProfileTables.mem_of_rowNamed h.found).1, ?_, ?_, ?_, ?_, ?_⟩
  · simp [h.empty]
  · simp [h.empty]
  · simp [hempty]
  · simp [hempty]
  · simp [h.empty]

theorem ProfileTables.Started.fillAll (hT : T ∈ profileTables) (h : T.Started profileName u C C₁)
    {fill : E → Uuid → OvsM Bool} (xs : List (Option E))
    (hfill : ∀ x, some x ∈ xs → G.Fills (fill x) x) :
    Always C₁ (T.fillAll profileName G.key fill xs) (fun _ C' =>
      G.Created profileName u (xs.filterMap id) C C') := by
  refine (h.grouped.fillAll hT (l := []) h.found xs hfill).mono (fun _ C' h' => ?_)
  rw [List.nil_append] at h'
  obtain ⟨hgrouped, hfilled⟩ := h'
  obtain ⟨es, hes, hrows, hnew⟩ := hfilled.added
  rw [h.empty, List.nil_append] at hes
  have hentryRows : T.entryRows C' u = es.map Prod.snd := by
    rw [ProfileTables.entryRows, hes]
  refine ⟨(hfilled.rowNamed hT _).trans h.found, hgrouped, h.existing, h.fresh, ?_, ?_, ?_, ?_, ?_⟩
  · exact fun k hk hk' => (hfilled.other k hk').trans (h.tables k hk)
  · rw [hfilled.other _ (profile_ne_entry T hT), h.profiles]
  · rw [hrows, h.tables _ (profile_ne_entry T hT).symm, hentryRows]
  · intro w hw
    rw [hentryRows] at hw
    obtain ⟨e, he, rfl⟩ := List.mem_map.mp hw
    exact h.new (hnew e he)
  · intro v c hu hv
    rw [hfilled.same v c (fun heq => (hu heq).1) hv, h.same v c hu]

theorem ProfileTables.rowNamed_of_same (hrows : C'.rows = C.rows)
    (hname : ∀ v, C'.value v T.name.column = C.value v T.name.column) (profileName : CStr) :
    T.rowNamed C' profileName = T.rowNamed C profileName := by
  have hvalue : ∀ v, T.name.value C' v = T.name.value C v := fun v => T.name.value_congr (hname v)
  unfold ProfileTables.rowNamed
  simp only [hrows, hvalue]

theorem ProfileTables.rowNamed_write {c : Column} (hc : T.name.column ≠ c) (w : Uuid)
    (value : c.type.Value) (profileName : CStr) :
    T.rowNamed (C.write w c value) profileName = T.rowNamed C profileName := by
  apply ProfileTables.rowNamed_of_same
  · rfl
  · exact fun _ => Cells.write_value_of_column_ne hc

/-- Cells outside a profile do not matter to it. -/
theorem Grouping.Grouped.of_same {qs : List ℤ} (h : G.Grouped C v qs l)
    (hrows : ∀ k w, w ∈ C.rows k → w ∈ C'.rows k)
    (hentries : C'.value v T.entries.column = C.value v T.entries.column)
    (hcolumns : ∀ w ∈ T.entryRows C v, ∀ c ∈ G.columns, C'.value w c = C.value w c) :
    G.Grouped C' v qs l := by
  have hvalue : T.entries.value C' v = T.entries.value C v := T.entries.value_congr hentries
  have hentryRows : T.entryRows C' v = T.entryRows C v := by
    unfold ProfileTables.entryRows
    rw [hvalue]
  refine ⟨hrows _ _ h.profile, ?_, ?_, ?_, ?_, ?_⟩
  · rw [hvalue]
    exact h.keys
  · rw [hvalue]
    exact h.mem
  · rw [hentryRows]
    exact fun w hw => hrows _ w (h.rows w hw)
  · rw [hentryRows]
    exact h.distinct
  · intro e he c hc
    rw [hvalue] at he
    rw [hcolumns e.2 (List.mem_map_of_mem he) c hc, h.content e he c hc]

/-- Entries that change no row leave everything as it is. -/
theorem Grouping.Filled.unchanged {qs : List ℤ} {l' : List E} (h : G.Filled u C C')
    (hC : G.Grouped C u qs l) (hC' : G.Grouped C' u qs l')
    (hrow : ∀ q, ∀ c ∈ G.columns,
      G.row (l'.filter (fun x => G.key x = q)) c = G.row (l.filter (fun x => G.key x = q)) c) :
    C' = C := by
  obtain ⟨es, hes, hrows, _⟩ := h.added
  have hnil : es = [] := by
    refine List.eq_nil_iff_forall_not_mem.mpr (fun e he => ?_)
    have hkeys := hC'.keys
    rw [hes, List.map_append] at hkeys
    have hnew : e.1 ∈ es.map Prod.fst := List.mem_map_of_mem he
    have hqs : e.1 ∈ qs := by
      rw [← hC'.mem, hes, List.map_append]
      exact List.mem_append_right _ hnew
    exact List.disjoint_of_nodup_append hkeys ((hC.mem _).mpr hqs) hnew
  subst hnil
  rw [List.append_nil] at hes
  have hentries : C'.value u T.entries.column = C.value u T.entries.column := by
    rw [← T.entries.encode_decode (C'.value u _), ← T.entries.encode_decode (C.value u _)]
    exact congrArg T.entries.encode hes
  apply Cells.ext
  · funext k
    by_cases hk : k = T.entry
    · rw [hk, hrows]
      simp
    · exact h.other k hk
  · funext v c
    by_cases hself : v = u ∧ c = T.entries.column
    · rw [hself.1, hself.2, hentries]
    · by_cases hmem : v ∈ T.entryRows C' u ∧ c ∈ G.columns
      · obtain ⟨⟨e, he, rfl⟩, hc⟩ := hmem.imp_left List.mem_map.mp
        rw [hC'.content e he c hc, hC.content e (hes ▸ he) c hc, hrow _ c hc]
      · exact h.same v c (fun hv hc => hself ⟨hv, hc⟩) (fun hv hc => hmem ⟨hv, hc⟩)

variable (h : G.Created profileName u l C C')

include h

theorem Grouping.Created.kept {k : Table} {w : Uuid} (hw : w ∈ C.rows k) : w ∈ C'.rows k := by
  by_cases hk : k = T.profile
  · subst hk
    rw [h.profiles]
    exact List.mem_append_left _ hw
  · by_cases hk' : k = T.entry
    · subst hk'
      rw [h.entryRows]
      exact List.mem_append_left _ hw
    · rwa [h.tables k hk hk']

/-- Rows that were there are not among the new entries. -/
theorem Grouping.Created.notMem_entryRows {k : Table} {w : Uuid} (hw : w ∈ C.rows k) :
    w ∉ T.entryRows C' u := fun hmem => (h.new w hmem).rows k hw

/-- Profiles of other names stay. -/
theorem Grouping.Created.rowNamed_of_ne (hne : profileName' ≠ profileName) :
    T.rowNamed C' profileName' = T.rowNamed C profileName' := by
  have hcolumn : T.name.column ∉ G.columns := fun hmem => G.apart _ hmem (by simp)
  have hself : T.name.value C' u = profileName := (ProfileTables.mem_of_rowNamed h.found).2
  have hagree : ∀ v ∈ C.rows T.profile,
      (T.name.value C' v = profileName' ↔ T.name.value C v = profileName') := by
    intro v hv
    by_cases hvu : v = u
    · subst hvu
      cases hfound : T.rowNamed C profileName with
      | none => exact absurd hv ((h.fresh hfound).rows _)
      | some w =>
        have hw := h.existing w hfound
        subst hw
        rw [hself, (ProfileTables.mem_of_rowNamed hfound).2]
    · rw [T.name.value_congr (h.same v _ (fun heq => absurd heq hvu) (fun _ => hcolumn))]
  have hold : (C.rows T.profile).find? (fun v => decide (T.name.value C' v = profileName')) =
      T.rowNamed C profileName' := List.find?_congr (fun v hv => by simp [hagree v hv])
  have hnew : (newRow (T.rowNamed C profileName) u).find?
      (fun v => decide (T.name.value C' v = profileName')) = none := by
    unfold newRow
    split_ifs
    · rfl
    · simp [hself, Ne.symm hne]
  rw [ProfileTables.rowNamed, h.profiles, List.find?_append, hold, hnew, Option.or_none]

/-- Profiles of other rows keep their content. -/
theorem Grouping.Created.grouped_of_ne {qs : List ℤ} {l' : List E} (hother : G.Grouped C v qs l')
    (hne : v ≠ u) : G.Grouped C' v qs l' ∧ T.entryRows C' v = T.entryRows C v := by
  have hentries : C'.value v T.entries.column = C.value v T.entries.column :=
    h.same v _ (fun heq => absurd heq hne) (fun _ => G.entries_notMem)
  refine ⟨hother.of_same (fun k w => h.kept) hentries (fun w hw c hc => ?_), ?_⟩
  · have hrow := hother.rows w hw
    refine h.same w c (fun heq => ?_) (fun hmem => absurd hmem (h.notMem_entryRows hrow))
    have hcolumns := G.apart c hc
    simp only [List.mem_cons, not_or] at hcolumns
    exact ⟨hcolumns.2.1, hcolumns.1⟩
  · unfold ProfileTables.entryRows
    rw [T.entries.value_congr hentries]

end Creation

section Marks

variable {T : ProfileTables} {C : Cells schema} {u : Uuid}

theorem always_marks (column : TypedColumn .booleans) (ps : List (ℤ × Uuid)) (C : Cells schema)
    (hrows : ∀ p ∈ ps, p.2 ∈ C.rows column.column.table) :
    Always C (ps.forM (fun p => column.set p.2 [true])) (fun _ C' => C'.rows = C.rows ∧
      (∀ p ∈ ps, column.value C' p.2 = [true]) ∧
        ∀ v c, (v ∈ ps.map Prod.snd → c ≠ column.column) → C'.value v c = C.value v c) := by
  induction ps generalizing C with
  | nil => exact .pure (a := PUnit.unit) ⟨rfl, by simp, fun _ _ _ => rfl⟩
  | cons p rest ih =>
    refine Exactly.seq (Q := fun _ C₁ => C₁ = C.write p.2 column.column (column.encode [true]))
      (column.always_set (hrows p (by simp)) rfl) (fun _ C₁ h₁ => ?_)
    subst h₁
    refine (ih (C.write p.2 column.column (column.encode [true]))
      (fun q hq => hrows q (by simp [hq]))).mono (fun _ C₂ h₂ => ?_)
    obtain ⟨hrows₂, hmarked, hsame⟩ := h₂
    refine ⟨hrows₂, ?_, ?_⟩
    · intro q hq
      rcases List.mem_cons.mp hq with rfl | hq
      · by_cases hlater : q.2 ∈ rest.map Prod.snd
        · obtain ⟨q', hq', heq⟩ := List.mem_map.mp hlater
          rw [← heq]
          exact hmarked q' hq'
        · rw [column.value_congr (hsame q.2 _ (fun hmem => absurd hmem hlater))]
          exact column.value_write C q.2 [true]
      · exact hmarked q hq
    · intro v c hv
      rw [hsame v c (fun hmem => hv (by simp [hmem])),
        Cells.write_value_of_ne (fun hvp => hv (by simp [hvp]))]

end Marks

/-- The profile `u` of the name is marked, with its entries, and nothing else changes. -/
structure ProfileTables.Marked (T : ProfileTables) (u : Uuid) (C C' : Cells schema) : Prop where
  rows : C'.rows = C.rows
  profile : T.hwDefault.value C' u = [true]
  entries : ∀ w ∈ T.entryRows C u, T.entryHwDefault.value C' w = [true]
  same : ∀ v c, (v = u → c ≠ T.hwDefault.column) →
    (v ∈ T.entryRows C u → c ≠ T.entryHwDefault.column) → C'.value v c = C.value v c

/-- Both profiles of a family are there and hold the entries in `l`; the System row
refers to the first, and of the profiles and entries the second and its are marked. -/
structure Grouping.Initialised {T : ProfileTables} {E : Type} (G : Grouping T E) (l : List E)
    (sys : Uuid) (defaultName factoryName : CStr) (C : Cells schema) (u u' : Uuid)
    (C' : Cells schema) : Prop where
  defaultFound : T.rowNamed C' defaultName = some u
  factoryFound : T.rowNamed C' factoryName = some u'
  defaultExisting : ∀ v, T.rowNamed C defaultName = some v → v = u
  factoryExisting : ∀ v, T.rowNamed C factoryName = some v → v = u'
  defaultFresh : T.rowNamed C defaultName = none → C.Fresh u
  factoryFresh : T.rowNamed C factoryName = none → C.Fresh u'
  defaultGrouped : G.Grouped C' u (l.map G.key) l
  factoryGrouped : G.Grouped C' u' (l.map G.key) l
  profiles : C'.rows T.profile = C.rows T.profile ++
    (newRow (T.rowNamed C defaultName) u ++ newRow (T.rowNamed C factoryName) u')
  entries : C'.rows T.entry = C.rows T.entry ++ (T.entryRows C' u ++ T.entryRows C' u')
  new : ∀ w ∈ T.entryRows C' u ++ T.entryRows C' u', C.Fresh w
  apart : ∀ w ∈ T.entryRows C' u, w ∉ T.entryRows C' u'
  system : T.system.value C' sys = some u
  hwDefault : ∀ v, T.hwDefault.value C' v = if v = u' then [true] else T.hwDefault.value C v
  entryHwDefault : ∀ w, T.entryHwDefault.value C' w =
    if w ∈ T.entryRows C' u' then [true] else T.entryHwDefault.value C w
  tables : ∀ k, k ≠ T.profile → k ≠ T.entry → C'.rows k = C.rows k
  same : ∀ v c, (v = u ∨ v = u' → c ∉ [T.name.column, T.entries.column, T.hwDefault.column]) →
    (v ∈ T.entryRows C' u ∨ v ∈ T.entryRows C' u' → c ∉ T.entryHwDefault.column :: G.columns) →
      (v = sys → c ≠ T.system.column) → C'.value v c = C.value v c

section Init

variable {T : ProfileTables} {E : Type} {G : Grouping T E} {C C₁ C₂ C₃ C' : Cells schema}
  {u u' sys : Uuid} {defaultName factoryName : CStr} {l : List E}

theorem Grouping.Created.first_kept (hT : T ∈ profileTables) (hne : factoryName ≠ defaultName)
    (h₁ : G.Created defaultName u l C C₁)
    (h₃ : G.Created factoryName u' l (C₁.write sys T.system.column (T.system.encode (some u))) C₃) :
    u ≠ u' ∧ T.rowNamed C₃ defaultName = some u ∧ G.Grouped C₃ u (l.map G.key) l ∧
      T.entryRows C₃ u = T.entryRows C₁ u := by
  have hcols := columnsApart hT
  have hwrite : ∀ v c, c ≠ T.system.column →
      (C₁.write sys T.system.column (T.system.encode (some u))).value v c = C₁.value v c :=
    fun v c hc => Cells.write_value_of_column_ne hc
  have hfound : T.rowNamed C₃ defaultName = some u := by
    rw [h₃.rowNamed_of_ne hne.symm, ProfileTables.rowNamed_write hcols.name_system, h₁.found]
  have huu' : u ≠ u' := by
    rintro rfl
    exact hne ((ProfileTables.mem_of_rowNamed h₃.found).2.symm.trans
      (ProfileTables.mem_of_rowNamed hfound).2)
  have hgrouped : G.Grouped (C₁.write sys T.system.column (T.system.encode (some u))) u
      (l.map G.key) l :=
    h₁.grouped.of_same (fun _ _ hw => hw) (hwrite u _ hcols.entries_system)
      (fun w _ c hc => hwrite w c (fun heq => G.apart c hc (by simp [heq])))
  obtain ⟨hgrouped₃, hrows₃⟩ := h₃.grouped_of_ne hgrouped huu'
  refine ⟨huu', hfound, hgrouped₃, hrows₃.trans ?_⟩
  unfold ProfileTables.entryRows
  rw [T.entries.value_write_of_column_ne hcols.entries_system]

/-- A row that is new to the second creation was new to the first. -/
theorem Grouping.Created.fresh_before {w : Uuid} (hsys : sys ∈ C.rows Table.system)
    (h₁ : G.Created defaultName u l C C₁)
    (hw : (C₁.write sys T.system.column (T.system.encode (some u))).Fresh w) : C.Fresh w := by
  refine ⟨fun k hmem => hw.rows k (h₁.kept hmem), ?_⟩
  have hwsys : w ≠ sys := by
    rintro rfl
    exact hw.rows _ (h₁.kept hsys)
  rw [← hw.value, Cells.write_value_of_row_ne hwsys]
  funext c
  refine (h₁.same w c (fun heq => ?_) (fun hmem => ?_)).symm
  · exact absurd h₁.grouped.profile (heq ▸ hw.rows T.profile)
  · exact absurd (h₁.grouped.rows w hmem) (hw.rows T.entry)

theorem Grouping.Created.same_of_second
    (h₃ : G.Created factoryName u' l (C₁.write sys T.system.column (T.system.encode (some u))) C₃)
    {v : Uuid} {c : Column} (hsystem : v = sys → c ≠ T.system.column)
    (hu' : v = u' → c ≠ T.entries.column ∧ c ≠ T.name.column)
    (hmem : v ∈ T.entryRows C₃ u' → c ∉ G.columns) : C₃.value v c = C₁.value v c := by
  rw [h₃.same v c hu' hmem, Cells.write_value_of_ne hsystem]

namespace ProfileTables.Marked

variable (hT : T ∈ profileTables) (h : T.Marked u C C')

include hT h

theorem value_entries (v : Uuid) : C'.value v T.entries.column = C.value v T.entries.column :=
  h.same v _ (fun _ => (columnsApart hT).entries_hwDefault)
    (fun _ => (columnsApart hT).entries_entryHwDefault)

theorem entryRows (v : Uuid) : T.entryRows C' v = T.entryRows C v := by
  unfold ProfileTables.entryRows
  rw [T.entries.value_congr (h.value_entries hT v)]

theorem rowNamed (profileName : CStr) : T.rowNamed C' profileName = T.rowNamed C profileName :=
  ProfileTables.rowNamed_of_same h.rows (fun v =>
    h.same v _ (fun _ => (columnsApart hT).name_hwDefault)
      (fun _ => (columnsApart hT).name_entryHwDefault)) profileName

theorem grouped {v : Uuid} {qs : List ℤ} (hgrouped : G.Grouped C v qs l) :
    G.Grouped C' v qs l := by
  refine hgrouped.of_same (fun k w hw => by rwa [h.rows]) (h.value_entries hT v)
    (fun w _ c hc => ?_)
  exact h.same w c (fun _ heq => G.apart c hc (by simp [heq]))
    (fun _ heq => G.apart c hc (by simp [heq]))

theorem hwDefault_of_ne {v : Uuid} (hv : v ≠ u) :
    C'.value v T.hwDefault.column = C.value v T.hwDefault.column :=
  h.same v _ (fun heq => absurd heq hv) (fun _ => (columnsApart hT).hwDefault_entryHwDefault)

theorem entryHwDefault_of_notMem {w : Uuid} (hw : w ∉ T.entryRows C u) :
    C'.value w T.entryHwDefault.column = C.value w T.entryHwDefault.column :=
  h.same w _ (fun _ => (columnsApart hT).hwDefault_entryHwDefault.symm)
    (fun hmem => absurd hmem hw)

end ProfileTables.Marked

/-- Marking the factory profile and its entries completes the initialisation. -/
theorem initialised_of_created (hT : T ∈ profileTables) (hne : factoryName ≠ defaultName)
    (hsys : sys ∈ C.rows Table.system) (h₁ : G.Created defaultName u l C C₁)
    (h₃ : G.Created factoryName u' l (C₁.write sys T.system.column (T.system.encode (some u))) C₃)
    (h' : T.Marked u' C₃ C') : G.Initialised l sys defaultName factoryName C u u' C' := by
  have hcols := columnsApart hT
  have hG : ∀ d ∈ [T.name.column, T.entries.column, T.hwDefault.column, T.entryHwDefault.column,
      T.system.column], d ∉ G.columns := fun d hd hmem => G.apart d hmem hd
  obtain ⟨huu', hfound, hgrouped, hentryRows⟩ := h₁.first_kept hT hne h₃
  have hfactory : T.rowNamed (C₁.write sys T.system.column (T.system.encode (some u)))
      factoryName = T.rowNamed C factoryName := by
    rw [ProfileTables.rowNamed_write hcols.name_system, h₁.rowNamed_of_ne hne]
  refine ⟨?_, ?_, h₁.existing, ?_, h₁.fresh, ?_, h'.grouped hT hgrouped, h'.grouped hT h₃.grouped,
    ?_, ?_, ?_, ?_, ?_, ?_, ?_, ?_, ?_⟩
  · rw [h'.rowNamed hT, hfound]
  · rw [h'.rowNamed hT, h₃.found]
  · rw [← hfactory]
    exact h₃.existing
  · rw [← hfactory]
    exact fun hnone => h₁.fresh_before hsys (h₃.fresh hnone)
  · rw [h'.rows, h₃.profiles, hfactory, Cells.write_rows, h₁.profiles, List.append_assoc]
  · rw [h'.rows, h₃.entryRows, Cells.write_rows, h₁.entryRows, h'.entryRows hT, h'.entryRows hT,
      hentryRows, List.append_assoc]
  · intro w hw
    rw [h'.entryRows hT, h'.entryRows hT, hentryRows] at hw
    rcases List.mem_append.mp hw with hw | hw
    · exact h₁.new w hw
    · exact h₁.fresh_before hsys (h₃.new w hw)
  · intro w hw
    rw [h'.entryRows hT, hentryRows] at hw
    rw [h'.entryRows hT]
    exact h₃.notMem_entryRows (h₁.grouped.rows w hw)
  · rw [T.system.value_congr (h'.same sys _ (fun _ => hcols.hwDefault_system.symm)
      (fun _ => hcols.entryHwDefault_system.symm)), T.system.value_congr (h₃.same sys _
        (fun _ => ⟨hcols.entries_system.symm, hcols.name_system.symm⟩)
        (fun _ => hG _ (by simp)))]
    exact T.system.value_write C₁ sys (some u)
  · intro v
    by_cases hv : v = u'
    · rw [if_pos hv, hv, h'.profile]
    · rw [if_neg hv]
      apply T.hwDefault.value_congr
      rw [h'.hwDefault_of_ne hT hv,
        h₃.same_of_second (fun _ => hcols.hwDefault_system) (fun heq => absurd heq hv)
          (fun _ => hG _ (by simp)),
        h₁.same v _ (fun _ => ⟨hcols.entries_hwDefault.symm, hcols.name_hwDefault.symm⟩)
          (fun _ => hG _ (by simp))]
  · intro w
    rw [h'.entryRows hT]
    by_cases hw : w ∈ T.entryRows C₃ u'
    · rw [if_pos hw, h'.entries w hw]
    · rw [if_neg hw]
      apply T.entryHwDefault.value_congr
      rw [h'.entryHwDefault_of_notMem hT hw,
        h₃.same_of_second (fun _ => hcols.entryHwDefault_system)
          (fun _ => ⟨hcols.entries_entryHwDefault.symm, hcols.name_entryHwDefault.symm⟩)
          (fun _ => hG _ (by simp)),
        h₁.same w _ (fun _ => ⟨hcols.entries_entryHwDefault.symm, hcols.name_entryHwDefault.symm⟩)
          (fun _ => hG _ (by simp))]
  · intro k hk hk'
    rw [h'.rows, h₃.tables k hk hk', Cells.write_rows, h₁.tables k hk hk']
  · intro v c hprofile hentry hsystem
    rw [h'.entryRows hT, h'.entryRows hT, hentryRows] at hentry
    simp only [List.mem_cons, List.not_mem_nil, or_false, not_or] at hprofile hentry
    rw [h'.same v c (fun hv => (hprofile (.inr hv)).2.2) (fun hv => (hentry (.inr hv)).1),
      h₃.same_of_second hsystem (fun hv => ⟨(hprofile (.inr hv)).2.1, (hprofile (.inr hv)).1⟩)
        (fun hv => (hentry (.inr hv)).2),
      h₁.same v c (fun hv => ⟨(hprofile (.inl hv)).2.1, (hprofile (.inl hv)).1⟩)
        (fun hv => (hentry (.inl hv)).2)]

theorem Grouping.Initialised.ne
    (h : G.Initialised l sys defaultName factoryName C u u' C') (hne : factoryName ≠ defaultName) :
    u ≠ u' := by
  rintro rfl
  exact hne ((ProfileTables.mem_of_rowNamed h.factoryFound).2.symm.trans
    (ProfileTables.mem_of_rowNamed h.defaultFound).2)

/-- Names that were not there have one profile each. -/
theorem Grouping.Initialised.named (hT : T ∈ profileTables)
    (h : G.Initialised l sys defaultName factoryName C u u' C') (hne : factoryName ≠ defaultName)
    (hdefault : T.rowNamed C defaultName = none) (hfactory : T.rowNamed C factoryName = none) :
    (C'.rows T.profile).filter (fun v => T.name.value C' v = defaultName) = [u] ∧
      (C'.rows T.profile).filter (fun v => T.name.value C' v = factoryName) = [u'] := by
  have hcols := columnsApart hT
  have hname : T.name.value C' u = defaultName := (ProfileTables.mem_of_rowNamed h.defaultFound).2
  have hname' : T.name.value C' u' = factoryName :=
    (ProfileTables.mem_of_rowNamed h.factoryFound).2
  have hnotcolumn : T.name.column ∉ T.entryHwDefault.column :: G.columns := by
    rw [List.mem_cons, not_or]
    exact ⟨hcols.name_entryHwDefault, fun hmem => G.apart _ hmem (by simp)⟩
  have hold : ∀ v ∈ C.rows T.profile, T.name.value C' v = T.name.value C v := by
    intro v hv
    refine T.name.value_congr (h.same v _ ?_ (fun _ => hnotcolumn) (fun _ => hcols.name_system))
    rintro (rfl | rfl)
    · exact absurd hv ((h.defaultFresh hdefault).rows _)
    · exact absurd hv ((h.factoryFresh hfactory).rows _)
  have hnone : ∀ name, T.rowNamed C name = none →
      (C.rows T.profile).filter (fun v => T.name.value C' v = name) = [] := by
    intro name hnone
    rw [List.filter_eq_nil_iff]
    intro v hv
    rw [hold v hv]
    simpa using ProfileTables.rowNamed_eq_none.mp hnone v hv
  have hprofiles : C'.rows T.profile = C.rows T.profile ++ [u, u'] := by
    rw [h.profiles, hdefault, hfactory]
    rfl
  constructor
  · rw [hprofiles, List.filter_append, hnone _ hdefault]
    simp [hname, hname', hne]
  · rw [hprofiles, List.filter_append, hnone _ hfactory]
    simp [hname, hname', hne.symm]

theorem always_marked (hT : T ∈ profileTables) (hu : u ∈ C.rows T.profile)
    (hentries : ∀ w ∈ T.entryRows C u, w ∈ C.rows T.entry) :
    Always C (do
      T.hwDefault.set u [true]
      let entries ← T.entries.get u
      entries.forM (fun p => T.entryHwDefault.set p.2 [true])) (fun _ C' => T.Marked u C C') := by
  have hcols := columnsApart hT
  have hu₁ : u ∈ C.rows T.hwDefault.column.table := by
    rw [T.hwDefaultTable]
    exact hu
  refine Exactly.seq (Q := fun _ C₁ => C₁ = C.write u T.hwDefault.column
    (T.hwDefault.encode [true])) (T.hwDefault.always_set hu₁ rfl) (fun _ C₁ h₁ => ?_)
  subst h₁
  have hvalue : T.entries.value (C.write u T.hwDefault.column (T.hwDefault.encode [true])) u =
      T.entries.value C u := T.entries.value_write_of_column_ne hcols.entries_hwDefault _ u
  refine T.entries.exactly_get (by rwa [T.entriesTable]) ?_
  rw [hvalue]
  refine (always_marks T.entryHwDefault _ _ (fun p hp => ?_)).mono (fun _ C' h' => ?_)
  · rw [T.entryHwDefaultTable]
    exact hentries p.2 (List.mem_map_of_mem hp)
  obtain ⟨hrows, hmarked, hsame⟩ := h'
  refine ⟨hrows, ?_, ?_, ?_⟩
  · rw [T.hwDefault.value_congr (hsame u _ (fun _ => hcols.hwDefault_entryHwDefault))]
    exact T.hwDefault.value_write C u [true]
  · intro w hw
    obtain ⟨p, hp, rfl⟩ := List.mem_map.mp hw
    exact hmarked p hp
  · intro v c hprofile hentry
    rw [hsame v c hentry, Cells.write_value_of_ne hprofile]

/-- The steps of both profiles, whatever creates one, where `ok` is what that needs. -/
theorem always_init_steps (ok : Cells schema → CStr → Prop) {create : CStr → OvsM Unit}
    {R : CStr → Uuid → Cells schema → Cells schema → Prop} {info : YamlQosInfo}
    (hT : T ∈ profileTables) (hsys : sys ∈ C.rows Table.system)
    (hdefault : info.defaultName = some defaultName)
    (hfactory : info.factoryDefaultName = some factoryName)
    (hcreate : ∀ C name, ok C name → Always C (create name) (fun _ C' => ∃ u, R name u C C'))
    (hR : ∀ name u C C', R name u C C' → T.rowNamed C' name = some u ∧
      (∀ w ∈ T.entryRows C' u, w ∈ C'.rows T.entry) ∧
        ∀ w ∈ C.rows Table.system, w ∈ C'.rows Table.system)
    (hok : ok C defaultName)
    (hok' : ∀ u C₁, R defaultName u C C₁ →
      ok (C₁.write sys T.system.column (T.system.encode (some u))) factoryName) :
    Always C (T.init create sys (some info)) (fun _ C' => ∃ u u' C₁ C₃, R defaultName u C C₁ ∧
      R factoryName u' (C₁.write sys T.system.column (T.system.encode (some u))) C₃ ∧
      T.Marked u' C₃ C') := by
  unfold ProfileTables.init
  dsimp only
  rw [hdefault, hfactory]
  refine (Exactly.deref (q := fun _ => True) (fun name hname => ?_)).congr (by simp)
  cases hname
  refine (hcreate C defaultName hok).seq (fun _ C₁ h₁ => ?_)
  obtain ⟨u, h₁⟩ := h₁
  obtain ⟨hfound, _, hkept⟩ := hR _ _ _ _ h₁
  refine (always_getRow_rowNamed T C₁ defaultName).seq (fun r C₂ hr => ?_)
  obtain ⟨rfl, rfl⟩ := hr
  rw [hfound]
  have hsys₁ : sys ∈ C₂.rows T.system.column.table := by
    rw [T.systemTable]
    exact hkept sys hsys
  refine Exactly.seq (Q := fun _ C' => C' = C₂.write sys T.system.column (T.system.encode (some u)))
    (T.system.always_set hsys₁ rfl) (fun _ C' hC' => ?_)
  subst hC'
  refine (Exactly.deref (q := fun _ => True) (fun name hname => ?_)).congr (by simp)
  cases hname
  refine (hcreate _ factoryName (hok' u C₂ h₁)).seq (fun _ C₃ h₃ => ?_)
  obtain ⟨u', h₃⟩ := h₃
  obtain ⟨hfound', hentries, _⟩ := hR _ _ _ _ h₃
  refine (always_getRow_rowNamed T C₃ factoryName).seq (fun r C₄ hr => ?_)
  obtain ⟨rfl, rfl⟩ := hr
  rw [hfound']
  exact (always_marked hT (ProfileTables.mem_of_rowNamed hfound').1 hentries).mono
    (fun _ C' h' => ⟨u, u', C₂, C₄, h₁, h₃, h'⟩)

theorem always_init (absent : Prop) {create : CStr → OvsM Unit} {info : YamlQosInfo}
    (hT : T ∈ profileTables) (hne : factoryName ≠ defaultName)
    (hsys : sys ∈ C.rows Table.system) (hdefault : info.defaultName = some defaultName)
    (hfactory : info.factoryDefaultName = some factoryName)
    (hcreate : ∀ C profileName, (absent → T.rowNamed C profileName = none) →
      Always C (create profileName) (fun _ C' => ∃ u, G.Created profileName u l C C'))
    (hnone : absent → T.rowNamed C defaultName = none ∧ T.rowNamed C factoryName = none) :
    Always C (T.init create sys (some info)) (fun _ C' =>
      ∃ u u', G.Initialised l sys defaultName factoryName C u u' C') := by
  have hnone₂ : ∀ u C₁, G.Created defaultName u l C C₁ → absent →
      T.rowNamed (C₁.write sys T.system.column (T.system.encode (some u))) factoryName = none := by
    intro u C₁ h₁ habs
    rw [ProfileTables.rowNamed_write (columnsApart hT).name_system, h₁.rowNamed_of_ne hne]
    exact (hnone habs).2
  refine (always_init_steps (fun C name => absent → T.rowNamed C name = none) hT hsys hdefault
    hfactory hcreate
    (fun name u C C' h => ⟨h.found, h.grouped.rows, fun w => h.kept⟩)
    (fun habs => (hnone habs).1) hnone₂).mono (fun _ C' h => ?_)
  obtain ⟨u, u', C₁, C₃, h₁, h₃, h'⟩ := h
  exact ⟨u, u', initialised_of_created hT hne hsys h₁ h₃ h'⟩

end Init

end OpsSysd.QosInit
