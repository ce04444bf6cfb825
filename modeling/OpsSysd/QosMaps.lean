import OpsSysd.ConfigureRows
import OpsSysd.Datum
import OpsSysd.Decimal
import OpsSysd.QosProfiles

/-!
The class-of-service map and the code-point map. A fixed number of rows is
added, the loop over the description fills them from the first on, and the
System row lists them all.
-/

namespace OpsSysd.QosInit

open CString Ovsdb Ovsrec Platform InitialConfigure

namespace TypedColumn

variable {k : ColumnType} (c : TypedColumn k)

def value (C : Cells schema) (u : Uuid) : k.Value := c.decode (C.value u c.column)

variable {α : Type} {C : Cells schema} {p : Prop} {u : Uuid} {v : k.Value}
  {R : α → Cells schema → Prop}

theorem exactly_get {f : k.Value → OvsM α} (hu : u ∈ C.rows c.column.table)
    (h : Exactly C p (f (c.value C u)) R) : Exactly C p (c.get u >>= f) R := by
  obtain ⟨c, rfl⟩ := c
  exact exactly_getCol hu h

theorem always_set {R : Unit → Cells schema → Prop} (hu : u ∈ C.rows c.column.table)
    (h : R () (C.write u c.column (c.encode v))) : Always C (c.set u v) R :=
  always_setCol hu h

theorem value_write (C : Cells schema) (u : Uuid) (v : k.Value) :
    c.value (C.write u c.column (c.encode v)) u = v := by
  unfold value
  rw [Cells.write_value, c.decode_encode]

theorem value_write_of_row_ne {u' : Uuid} (h : u' ≠ u) (c' : Column) (v : c'.type.Value) :
    c.value (C.write u c' v) u' = c.value C u' := by
  unfold value
  rw [Cells.write_value_of_row_ne h]

theorem value_write_of_column_ne {c' : Column} (h : c.column ≠ c') (v : c'.type.Value)
    (u' : Uuid) : c.value (C.write u c' v) u' = c.value C u' := by
  unfold value
  rw [Cells.write_value_of_column_ne h]

theorem value_congr {C' : Cells schema} {u' : Uuid}
    (h : C'.value u' c.column = C.value u c.column) : c.value C' u' = c.value C u := by
  unfold value
  rw [h]

theorem value_insert (t : Table) (u' : Uuid) : c.value (C.insert t u) u' = c.value C u' := rfl

theorem value_fresh (h : C.Fresh u) : c.value C u = k.initial := by
  unfold value
  rw [h.value]
  exact c.decode_initial

end TypedColumn

/-- The table and the columns of a map, and how many rows it has. -/
structure MapTables where
  entry : Table
  codePoint : TypedColumn .integer
  localPriority : TypedColumn .integer
  color : TypedColumn .string
  description : TypedColumn .string
  hwDefaults : TypedColumn .map
  system : TypedColumn .rows
  count : ℕ

namespace MapTables

variable (T : MapTables)

/-- The columns of a row. -/
def rowColumns : List Column :=
  [T.codePoint.column, T.localPriority.column, T.color.column, T.description.column,
    T.hwDefaults.column]

def columns : MapColumns where
  table := T.entry
  codePoint u v := T.codePoint.set u v
  localPriority u v := T.localPriority.set u v
  color u v := T.color.set u v
  description u v := T.description.set u v
  hwDefaults u := T.hwDefaults.get u
  setHwDefaults u v := T.hwDefaults.set u v

def init (entries : List (Option YamlMapEntry)) (systemRow : Uuid) : OvsM Unit :=
  initMap T.columns T.count entries (T.system.set systemRow)

/-- The columns belong to the tables and differ. -/
structure Lawful : Prop where
  table : ∀ c ∈ T.rowColumns, c.table = T.entry
  distinct : T.rowColumns.Nodup
  system : T.system.column.table = .system
  systemApart : T.system.column ∉ T.rowColumns

end MapTables

def cosMapTables : MapTables where
  entry := .qosCosMapEntry
  codePoint := ⟨.qosCosMapEntryCodePoint, rfl⟩
  localPriority := ⟨.qosCosMapEntryLocalPriority, rfl⟩
  color := ⟨.qosCosMapEntryColor, rfl⟩
  description := ⟨.qosCosMapEntryDescription, rfl⟩
  hwDefaults := ⟨.qosCosMapEntryHwDefaults, rfl⟩
  system := ⟨.systemQosCosMapEntries, rfl⟩
  count := qosCosMapEntryCount

def dscpMapTables : MapTables where
  entry := .qosDscpMapEntry
  codePoint := ⟨.qosDscpMapEntryCodePoint, rfl⟩
  localPriority := ⟨.qosDscpMapEntryLocalPriority, rfl⟩
  color := ⟨.qosDscpMapEntryColor, rfl⟩
  description := ⟨.qosDscpMapEntryDescription, rfl⟩
  hwDefaults := ⟨.qosDscpMapEntryHwDefaults, rfl⟩
  system := ⟨.systemQosDscpMapEntries, rfl⟩
  count := qosDscpMapEntryCount

theorem qosInitCosMap_eq (yaml : YamlPolicies) (sys : Uuid) :
    qosInitCosMap yaml sys = cosMapTables.init yaml.cosMap sys := rfl

theorem qosInitDscpMap_eq (yaml : YamlPolicies) (sys : Uuid) :
    qosInitDscpMap yaml sys = dscpMapTables.init yaml.dscpMap sys := rfl

def mapTables : List MapTables := [cosMapTables, dscpMapTables]

theorem lawful_mapTables : ∀ T ∈ mapTables, T.Lawful := by
  intro T hT
  simp only [mapTables, List.mem_cons, List.not_mem_nil, or_false] at hT
  rcases hT with rfl | rfl <;> constructor <;> decide

/-- The row has the values of the entry, and its defaults hold the same values, the
numbers as decimal texts. -/
structure MapTables.MapRow (T : MapTables) (e : YamlMapEntry) (C : Cells schema) (u : Uuid) :
    Prop where
  codePoint : T.codePoint.value C u = e.codePoint
  localPriority : T.localPriority.value C u = e.localPriority
  color : e.color = some (T.color.value C u)
  description : e.description = some (T.description.value C u)
  defaultCodePoint : (smapGet (T.hwDefaults.value C u) qosDefaultCodePointKey).bind parseDecimal =
    some (T.codePoint.value C u)
  defaultLocalPriority :
    (smapGet (T.hwDefaults.value C u) qosDefaultLocalPriorityKey).bind parseDecimal =
      some (T.localPriority.value C u)
  defaultColor : smapGet (T.hwDefaults.value C u) qosDefaultColorKey = some (T.color.value C u)
  defaultDescription : smapGet (T.hwDefaults.value C u) qosDefaultDescriptionKey =
    some (T.description.value C u)

/-- Both texts of an entry are there. -/
def TextsGiven (e : YamlMapEntry) : Prop :=
  e.color.isSome = true ∧ e.description.isSome = true

section Defaults

/-- The defaults of a row as they are written. -/
def hwDefaultsOf (codePoint localPriority : ℤ) (color description : CStr) : Smap :=
  smapReplace (smapReplace (smapReplace (smapReplace [] qosDefaultCodePointKey
    (decimal codePoint)) qosDefaultLocalPriorityKey (decimal localPriority))
    qosDefaultColorKey color) qosDefaultDescriptionKey description

variable (codePoint localPriority : ℤ) (color description : CStr)

theorem smapGet_hwDefaultsOf (k : CStr) :
    smapGet (datumFromSmap (hwDefaultsOf codePoint localPriority color description)) k =
      if k = qosDefaultDescriptionKey then some description
      else if k = qosDefaultColorKey then some color
      else if k = qosDefaultLocalPriorityKey then some (decimal localPriority)
      else if k = qosDefaultCodePointKey then some (decimal codePoint)
      else none := by
  have h₀ : KeysNodup [] := List.nodup_nil
  have h₁ := h₀.smapReplace qosDefaultCodePointKey (decimal codePoint)
  have h₂ := h₁.smapReplace qosDefaultLocalPriorityKey (decimal localPriority)
  have h₃ := h₂.smapReplace qosDefaultColorKey color
  have h₄ := h₃.smapReplace qosDefaultDescriptionKey description
  unfold hwDefaultsOf
  rw [smapGet_datumFromSmap_of_nodup h₄, smapGet_smapReplace h₃, smapGet_smapReplace h₂,
    smapGet_smapReplace h₁, smapGet_smapReplace h₀]
  rfl

end Defaults

section Fill

variable {T : MapTables} {C C' : Cells schema} {u : Uuid} {e : YamlMapEntry}

theorem mapRow_of_values {color description : CStr}
    (hcodePoint : T.codePoint.value C u = e.codePoint)
    (hlocalPriority : T.localPriority.value C u = e.localPriority)
    (hcolor : e.color = some color) (hcolor' : T.color.value C u = color)
    (hdescription : e.description = some description)
    (hdescription' : T.description.value C u = description)
    (hdefaults : T.hwDefaults.value C u =
      datumFromSmap (hwDefaultsOf e.codePoint e.localPriority color description)) :
    T.MapRow e C u := by
  refine ⟨hcodePoint, hlocalPriority, hcolor' ▸ hcolor, hdescription' ▸ hdescription,
    ?_, ?_, ?_, ?_⟩
  · rw [hdefaults, smapGet_hwDefaultsOf, hcodePoint]
    exact parseDecimal_decimal e.codePoint
  · rw [hdefaults, smapGet_hwDefaultsOf, hlocalPriority]
    exact parseDecimal_decimal e.localPriority
  · rw [hdefaults, smapGet_hwDefaultsOf, hcolor']
    rfl
  · rw [hdefaults, smapGet_hwDefaultsOf, hdescription']
    rfl

theorem MapTables.MapRow.of_same (h : T.MapRow e C u)
    (hsame : ∀ c ∈ T.rowColumns, C'.value u c = C.value u c) : T.MapRow e C' u := by
  obtain ⟨hcodePoint, hlocalPriority, hcolor, hdescription, hdefaults⟩ :
      T.codePoint.value C' u = T.codePoint.value C u ∧
      T.localPriority.value C' u = T.localPriority.value C u ∧
      T.color.value C' u = T.color.value C u ∧
      T.description.value C' u = T.description.value C u ∧
      T.hwDefaults.value C' u = T.hwDefaults.value C u := by
    simp only [MapTables.rowColumns, List.forall_mem_cons, List.not_mem_nil, false_imp_iff,
      implies_true, and_true] at hsame
    exact ⟨T.codePoint.value_congr hsame.1, T.localPriority.value_congr hsame.2.1,
      T.color.value_congr hsame.2.2.1, T.description.value_congr hsame.2.2.2.1,
      T.hwDefaults.value_congr hsame.2.2.2.2⟩
  obtain ⟨h₁, h₂, h₃, h₄, h₅, h₆, h₇, h₈⟩ := h
  rw [← hcodePoint] at h₁ h₅
  rw [← hlocalPriority] at h₂ h₆
  rw [← hcolor] at h₃ h₇
  rw [← hdescription] at h₄ h₈
  rw [← hdefaults] at h₅ h₆ h₇ h₈
  exact ⟨h₁, h₂, h₃, h₄, h₅, h₆, h₇, h₈⟩

theorem exactly_setMapEntry_row (hT : T.Lawful) (hu : u ∈ C.rows T.entry)
    (hempty : T.hwDefaults.value C u = []) (e : YamlMapEntry) :
    Exactly C (TextsGiven e) (setMapEntry T.columns u e) (fun _ C' => T.MapRow e C' u ∧
      C'.rows = C.rows ∧ ∀ v c, (v = u → c ∉ T.rowColumns) → C'.value v c = C.value v c) := by
  have hmem : ∀ c ∈ T.rowColumns, u ∈ C.rows c.table := by
    intro c hc
    rw [hT.table c hc]
    exact hu
  have hapart := hT.distinct
  simp only [MapTables.rowColumns, List.nodup_cons, List.mem_cons, List.not_mem_nil, or_false,
    not_or] at hapart hmem
  obtain ⟨⟨hcl, hcc, hcd, hch⟩, ⟨hlc, hld, hlh⟩, ⟨hkd, hkh⟩, hdh, _⟩ := hapart
  unfold setMapEntry
  refine exactly_setCol (hmem _ (by simp)) (exactly_setCol (hmem _ (by simp)) ?_)
  refine (Exactly.deref (q := fun _ => e.description.isSome = true) (fun color hcolor => ?_)).congr
    (by simp [TextsGiven, Option.isSome_iff_exists])
  refine exactly_setCol (hmem _ (by simp)) ?_
  refine (Exactly.deref (q := fun _ => True) (fun description hdescription => ?_)).congr
    (by simp [Option.isSome_iff_exists])
  refine exactly_setCol (hmem _ (by simp)) (T.hwDefaults.exactly_get (hmem _ (by simp)) ?_)
  refine always_setCol (hmem _ (by simp)) ⟨?_, rfl, ?_⟩
  · refine mapRow_of_values ?_ ?_ hcolor ?_ hdescription ?_ ?_
    · rw [T.codePoint.value_write_of_column_ne hch, T.codePoint.value_write_of_column_ne hcd,
        T.codePoint.value_write_of_column_ne hcc, T.codePoint.value_write_of_column_ne hcl]
      exact T.codePoint.value_write C u e.codePoint
    · rw [T.localPriority.value_write_of_column_ne hlh,
        T.localPriority.value_write_of_column_ne hld,
        T.localPriority.value_write_of_column_ne hlc]
      exact T.localPriority.value_write _ u e.localPriority
    · rw [T.color.value_write_of_column_ne hkh, T.color.value_write_of_column_ne hkd]
      exact T.color.value_write _ u color
    · rw [T.description.value_write_of_column_ne hdh]
      exact T.description.value_write _ u description
    · refine (T.hwDefaults.value_write _ u _).trans ?_
      rw [T.hwDefaults.value_write_of_column_ne (Ne.symm hdh),
        T.hwDefaults.value_write_of_column_ne (Ne.symm hkh),
        T.hwDefaults.value_write_of_column_ne (Ne.symm hlh),
        T.hwDefaults.value_write_of_column_ne (Ne.symm hch), hempty]
      rfl
  · intro v c hv
    simp only [MapTables.rowColumns, List.mem_cons, List.not_mem_nil, or_false, not_or] at hv
    rw [Cells.write_value_of_ne (fun h => (hv h).2.2.2.2),
      Cells.write_value_of_ne (fun h => (hv h).2.2.2.1),
      Cells.write_value_of_ne (fun h => (hv h).2.2.1),
      Cells.write_value_of_ne (fun h => (hv h).2.1),
      Cells.write_value_of_ne (fun h => (hv h).1)]

theorem exactly_mapRound (hT : T.Lawful) {mapRows rest : List Uuid} {k : ℕ}
    (hdrop : mapRows.drop k = rest)
    (hrest : ∀ u ∈ rest, u ∈ C.rows T.entry ∧ T.hwDefaults.value C u = [])
    (entry : Option YamlMapEntry) :
    Exactly C (rest ≠ [] ∧ ∃ e, entry = some e ∧ TextsGiven e)
      (do
        let e ← deref entry
        let row ← deref mapRows[k]?
        setMapEntry T.columns row e)
      (fun _ C' => ∃ u rest' e, rest = u :: rest' ∧ entry = some e ∧ T.MapRow e C' u ∧
        C'.rows = C.rows ∧ ∀ v c, (v = u → c ∉ T.rowColumns) → C'.value v c = C.value v c) := by
  have hhead : mapRows[k]? = rest.head? := by rw [← hdrop, List.head?_drop]
  rw [hhead]
  refine (Exactly.deref (q := fun e => ∃ u, rest.head? = some u ∧ TextsGiven e) (fun e he =>
    Exactly.deref (fun u hu => ?_))).congr ?_
  · obtain ⟨rest', hrest'⟩ := List.head?_eq_some_iff.mp hu
    obtain ⟨hmem, hempty⟩ := hrest u (by simp [hrest'])
    exact (exactly_setMapEntry_row hT hmem hempty e).mono
      (fun _ C' h => ⟨u, rest', e, hrest', he, h⟩)
  · cases rest with
    | nil => simp
    | cons u rest' => simp

theorem exactly_mapLoop (hT : T.Lawful) {mapRows rest : List Uuid} {k : ℕ}
    (hdrop : mapRows.drop k = rest) (hnodup : rest.Nodup)
    (hrest : ∀ u ∈ rest, u ∈ C.rows T.entry ∧ T.hwDefaults.value C u = [])
    (entries : List (Option YamlMapEntry)) :
    Exactly C (entries.length ≤ rest.length ∧ ∀ entry ∈ entries, ∃ e, entry = some e ∧ TextsGiven e)
      ((entries.zipIdx k).forM (fun p => do
        let e ← deref p.1
        let row ← deref mapRows[p.2]?
        setMapEntry T.columns row e))
      (fun _ C' => (∀ p ∈ entries.zip rest, ∃ e, p.1 = some e ∧ T.MapRow e C' p.2) ∧
        C'.rows = C.rows ∧
        ∀ v c, (v ∈ rest.take entries.length → c ∉ T.rowColumns) → C'.value v c = C.value v c) := by
  induction entries generalizing k rest C with
  | nil => exact (Exactly.pure (a := PUnit.unit) ⟨by simp, rfl, fun _ _ _ => rfl⟩).congr (by simp)
  | cons entry es ih =>
    rw [List.zipIdx_cons]
    have hnext : ∀ (r : PUnit) (C₁ : Cells schema), (∃ u rest' e, rest = u :: rest' ∧
        entry = some e ∧ T.MapRow e C₁ u ∧ C₁.rows = C.rows ∧
        ∀ v c, (v = u → c ∉ T.rowColumns) → C₁.value v c = C.value v c) →
        Exactly C₁ (es.length ≤ rest.tail.length ∧ ∀ entry ∈ es, ∃ e, entry = some e ∧ TextsGiven e)
          ((es.zipIdx (k + 1)).forM (fun p => do
            let e ← deref p.1
            let row ← deref mapRows[p.2]?
            setMapEntry T.columns row e))
          (fun _ C' => (∀ p ∈ (entry :: es).zip rest, ∃ e, p.1 = some e ∧ T.MapRow e C' p.2) ∧
            C'.rows = C.rows ∧ ∀ v c, (v ∈ rest.take (es.length + 1) → c ∉ T.rowColumns) →
              C'.value v c = C.value v c) := by
      rintro _ C₁ ⟨u, rest', e, rfl, rfl, hrow, hrows, hsame⟩
      rw [List.nodup_cons] at hnodup
      have hdrop' : mapRows.drop (k + 1) = rest' := by
        rw [← List.tail_drop, hdrop, List.tail_cons]
      have hrest' : ∀ w ∈ rest', w ∈ C₁.rows T.entry ∧ T.hwDefaults.value C₁ w = [] := by
        intro w hw
        have hwu : w ≠ u := fun heq => hnodup.1 (heq ▸ hw)
        rw [hrows, T.hwDefaults.value_congr (hsame w _ (fun heq => absurd heq hwu))]
        exact hrest w (List.mem_cons_of_mem _ hw)
      refine (ih hdrop' hnodup.2 hrest').mono (fun _ C₂ h₂ => ?_)
      obtain ⟨hfilled, hrows₂, hsame₂⟩ := h₂
      have hlater : u ∉ rest'.take es.length := fun hmem => hnodup.1 (List.mem_of_mem_take hmem)
      refine ⟨?_, hrows₂.trans hrows, ?_⟩
      · intro p hp
        rw [List.zip_cons_cons, List.mem_cons] at hp
        rcases hp with rfl | hp
        · exact ⟨e, rfl, hrow.of_same (fun c _ => hsame₂ u c (fun hmem => absurd hmem hlater))⟩
        · exact hfilled p hp
      · intro v c hv
        rw [hsame₂ v c (fun hmem => hv (by simp [hmem])), hsame v c (fun heq => hv (by simp [heq]))]
    refine ((exactly_mapRound hT hdrop hrest entry).bind hnext).congr ?_
    cases rest with
    | nil => simp
    | cons u rest' =>
      simp only [ne_eq, reduceCtorEq, not_false_eq_true, true_and, List.tail_cons, List.length_cons,
        Nat.add_le_add_iff_right, List.forall_mem_cons]
      tauto

end Fill

/-- The rows `us` are added and listed; the first ones are those of the entries, and
the others are as they were added. -/
structure MapTables.Filled (T : MapTables) (entries : List (Option YamlMapEntry)) (sys : Uuid)
    (us : List Uuid) (C C' : Cells schema) : Prop where
  rows : C'.rows T.entry = C.rows T.entry ++ us
  other : ∀ k, k ≠ T.entry → C'.rows k = C.rows k
  length : us.length = T.count
  fresh : ∀ u ∈ us, C.Fresh u
  listed : T.system.value C' sys = us
  written : ∀ p ∈ entries.zip us, ∃ e, p.1 = some e ∧ T.MapRow e C' p.2
  unset : ∀ u ∈ us.drop entries.length, C'.value u = schema.initial
  same : ∀ v, v ∉ us → ∀ c, (v = sys → c ≠ T.system.column) → C'.value v c = C.value v c

theorem always_insertRow (k : Table) (n : ℕ) (C : Cells schema) :
    Always C (@txnInsert schema k)
      (fun u C' => C.Appended k (fun _ : ℕ => schema.initial) [n] [u] C') := by
  rw [← bind_pure (@txnInsert schema k)]
  exact exactly_insert (fun u hu =>
    .pure (appended_of_writes hu rfl hu.value (fun _ _ => rfl)))

/-- The rows that the array is filled with are new and empty. -/
theorem initial_of_appended {k : Table} {n : ℕ} {us : List Uuid} {C C' : Cells schema}
    (h : C.Appended k (fun _ : ℕ => schema.initial) (List.range n) us C') :
    us.length = n ∧ ∀ u ∈ us, C'.value u = schema.initial := by
  have hlength : us.length = n := by
    rw [← h.cols.length_eq, List.length_range]
  refine ⟨hlength, fun u hu => ?_⟩
  obtain ⟨i, hi, rfl⟩ := List.mem_iff_getElem.mp hu
  have hrange : i < (List.range n).length := by rwa [List.length_range, ← hlength]
  exact (List.forall₂_iff_get.mp h.cols).2 i hrange hi

theorem MapTables.filled_of_loop {T : MapTables} {entries : List (Option YamlMapEntry)}
    {us : List Uuid} {C C₁ C₂ : Cells schema} {sys : Uuid} (hsys : sys ∈ C.rows Table.system)
    (h₁ : C.Appended T.entry (fun _ : ℕ => schema.initial) (List.range T.count) us C₁)
    (hwritten : ∀ p ∈ entries.zip us, ∃ e, p.1 = some e ∧ T.MapRow e C₂ p.2)
    (hrows : C₂.rows = C₁.rows)
    (hsame : ∀ v c, (v ∈ us.take entries.length → c ∉ T.rowColumns) →
      C₂.value v c = C₁.value v c) :
    T.Filled entries sys us C (C₂.write sys T.system.column (T.system.encode us)) := by
  obtain ⟨hlength, hinitial⟩ := initial_of_appended h₁
  have hus : ∀ u ∈ us, ∀ c, (C₂.write sys T.system.column (T.system.encode us)).value u c =
      C₂.value u c := by
    intro u hu c
    rw [Cells.write_value_of_row_ne]
    rintro rfl
    exact (h₁.fresh u hu).rows _ hsys
  refine ⟨?_, ?_, hlength, h₁.fresh, T.system.value_write C₂ sys us, ?_, ?_, ?_⟩
  · rw [Cells.write_rows, hrows, h₁.rows]
  · intro k hk
    rw [Cells.write_rows, hrows, h₁.other k hk]
  · intro p hp
    obtain ⟨e, he, hrow⟩ := hwritten p hp
    exact ⟨e, he, hrow.of_same (fun c _ => hus p.2 (List.of_mem_zip hp).2 c)⟩
  · intro u hu
    have hmem := List.mem_of_mem_drop hu
    have hsplit : (us.take entries.length ++ us.drop entries.length).Nodup := by
      rw [List.take_append_drop]
      exact h₁.distinct
    have hlater : u ∉ us.take entries.length := fun htake =>
      List.disjoint_of_nodup_append hsplit htake hu
    rw [← hinitial u hmem]
    funext c
    rw [hus u hmem c, hsame u c (fun htake => absurd htake hlater)]
  · intro v hv c hvsys
    rw [Cells.write_value_of_ne hvsys,
      hsame v c (fun hmem => absurd (List.mem_of_mem_take hmem) hv), h₁.old v hv]

/-- A map without a first entry is not initialised; any other fits its rows and has
every entry with both texts. -/
def MapGiven (count : ℕ) (entries : List (Option YamlMapEntry)) : Prop :=
  entries.head?.join ≠ none → entries.length ≤ count ∧
    ∀ entry ∈ entries, ∃ e, entry = some e ∧ e.color.isSome = true ∧ e.description.isSome = true

/-- What the description has to provide, and what is written of it. -/
theorem exactly_initMap_filled {T : MapTables} (hT : T.Lawful) {C : Cells schema} {sys : Uuid}
    (hsys : sys ∈ C.rows Table.system) (entries : List (Option YamlMapEntry)) :
    Exactly C (MapGiven T.count entries) (T.init entries sys) (fun _ C' =>
      (entries.head?.join = none → C' = C) ∧
        (entries.head?.join ≠ none → ∃ us, T.Filled entries sys us C C')) := by
  unfold MapTables.init initMap MapGiven
  cases hhead : entries.head?.join with
  | none =>
    refine Exactly.congr (p := True) (.pure ⟨fun _ => rfl, fun hne => absurd rfl hne⟩) ?_
    simp
  | some first =>
    refine (Always.mapM (List.range T.count) C
      (fun n _ C => always_insertRow T.entry n C)).seq (fun us C₁ h₁ => ?_)
    obtain ⟨hlength, hinitial⟩ := initial_of_appended h₁
    have hrest : ∀ u ∈ us, u ∈ C₁.rows T.entry ∧ T.hwDefaults.value C₁ u = [] := by
      intro u hu
      constructor
      · rw [h₁.rows]
        exact List.mem_append_right _ hu
      · unfold TypedColumn.value
        rw [hinitial u hu]
        exact T.hwDefaults.decode_initial
    have hdrop : us.drop 0 = us := rfl
    refine ((exactly_mapLoop hT hdrop h₁.distinct hrest entries).next
      (fun _ C₂ h₂ => ?_)).congr ?_
    · obtain ⟨hwritten, hrows₂, hsame₂⟩ := h₂
      have hsys₂ : sys ∈ C₂.rows T.system.column.table := by
        rw [hT.system, hrows₂]
        exact h₁.extends.kept _ _ hsys
      exact T.system.always_set hsys₂ ⟨fun h => (by cases h),
        fun _ => ⟨us, MapTables.filled_of_loop hsys h₁ hwritten hrows₂ hsame₂⟩⟩
    · rw [hlength]
      constructor
      · exact fun h _ => h
      · exact fun h => h (by simp)

theorem MapTables.Filled.extends {T : MapTables} {entries : List (Option YamlMapEntry)}
    {sys : Uuid} {us : List Uuid} {C C' : Cells schema} (h : T.Filled entries sys us C C') :
    C.Extends [T.entry] [T.system.column] C' := by
  refine ⟨fun k u hu => ?_, fun k hk => h.other k (by simpa using hk), fun k u hu c hc => ?_⟩
  · by_cases hk : k = T.entry
    · subst hk
      rw [h.rows]
      exact List.mem_append_left _ hu
    · rwa [h.other k hk]
  · exact h.same u (fun hmem => (h.fresh u hmem).rows k hu) c (fun _ => by simpa using hc)

/-- The initialisation runs through, so that no index is outside the array, and the rows
that are added and listed are those of the entries, one for each. -/
def MapTables.Complete (T : MapTables) (entries : List YamlMapEntry) (init : Uuid → OvsM Unit) :
    Prop :=
  ∀ (C : Cells schema) (sys : Uuid), sys ∈ C.rows Table.system →
    Always C (init sys) (fun _ C' => ∃ us, C'.rows T.entry = C.rows T.entry ++ us ∧
      T.system.value C' sys = us ∧ List.Forall₂ (fun e u => T.MapRow e C' u) entries us)

section Complete

variable {T : MapTables} {entries : List YamlMapEntry}

theorem mapGiven_map_some (hne : entries ≠ []) (count : ℕ) :
    MapGiven count (entries.map some) ↔ entries.length ≤ count ∧ ∀ e ∈ entries, TextsGiven e := by
  obtain ⟨first, rest, rfl⟩ := List.exists_cons_of_ne_nil hne
  unfold MapGiven TextsGiven
  simp

/-- Rows for all entries and for nothing else. -/
theorem MapTables.Filled.forall₂ {sys : Uuid} {us : List Uuid} {C C' : Cells schema}
    (h : T.Filled (entries.map some) sys us C C') (hlength : entries.length = T.count) :
    List.Forall₂ (fun e u => T.MapRow e C' u) entries us := by
  rw [List.forall₂_iff_zip]
  refine ⟨hlength.trans h.length.symm, fun {e u} hp => ?_⟩
  have hp' : (some e, u) ∈ (entries.map some).zip us := by
    rw [List.zip_map_left]
    exact List.mem_map.mpr ⟨(e, u), hp, rfl⟩
  obtain ⟨e', he', hrow⟩ := h.written _ hp'
  cases he'
  exact hrow

theorem complete_iff (hT : T.Lawful) (hne : entries ≠ []) :
    T.Complete entries (T.init (entries.map some)) ↔
      entries.length = T.count ∧ ∀ e ∈ entries, TextsGiven e := by
  have hhead : (entries.map some).head?.join ≠ none := by
    obtain ⟨first, rest, rfl⟩ := List.exists_cons_of_ne_nil hne
    simp
  constructor
  · intro hcomplete
    obtain ⟨sys, s, _, _, hs⟩ := (filling_opening schema).txnInsert Table.system
    have hsys : sys ∈ ((Txn.empty : Txn schema).cells.insert Table.system sys).rows Table.system :=
      Cells.mem_insert_self
    obtain ⟨hgiven, _, C', ⟨us, hrows, _, hus⟩, _, hfilled⟩ := (hcomplete _ sys hsys).agree
      (exactly_initMap_filled hT hsys (entries.map some)) hs trivial
    obtain ⟨us', hfilled⟩ := hfilled hhead
    have heq : us = us' := List.append_cancel_left (hrows.symm.trans hfilled.rows)
    rw [mapGiven_map_some hne] at hgiven
    exact ⟨by rw [hus.length_eq, heq, hfilled.length], hgiven.2⟩
  · rintro ⟨hlength, htexts⟩ C sys hsys
    have hgiven : MapGiven T.count (entries.map some) :=
      (mapGiven_map_some hne T.count).mpr ⟨hlength.le, htexts⟩
    refine ((exactly_initMap_filled hT hsys (entries.map some)).congr
      (iff_true_intro hgiven)).mono (fun _ C' h => ?_)
    obtain ⟨us, h⟩ := h.2 hhead
    exact ⟨us, h.rows, h.listed, h.forall₂ hlength⟩

end Complete

/-- Both maps are complete exactly if the description has one entry for each row. -/
theorem mapsComplete_iff (yaml : YamlPolicies) (entries : List YamlMapEntry)
    (hne : entries ≠ []) :
    (yaml.cosMap = entries.map some → (cosMapTables.Complete entries (qosInitCosMap yaml) ↔
      entries.length = qosCosMapEntryCount ∧ ∀ e ∈ entries, TextsGiven e)) ∧
    (yaml.dscpMap = entries.map some → (dscpMapTables.Complete entries (qosInitDscpMap yaml) ↔
      entries.length = qosDscpMapEntryCount ∧ ∀ e ∈ entries, TextsGiven e)) := by
  constructor
  · intro hyaml
    have hinit : qosInitCosMap yaml = cosMapTables.init (entries.map some) := by
      funext sys
      rw [qosInitCosMap_eq, hyaml]
    rw [hinit]
    exact complete_iff (lawful_mapTables _ (by simp [mapTables])) hne
  · intro hyaml
    have hinit : qosInitDscpMap yaml = dscpMapTables.init (entries.map some) := by
      funext sys
      rw [qosInitDscpMap_eq, hyaml]
    rw [hinit]
    exact complete_iff (lawful_mapTables _ (by simp [mapTables])) hne

/-- Map entries with all their texts. -/
def plainMap (n : ℕ) : List YamlMapEntry :=
  (List.range n).map (fun i => ⟨i, i, some (cstr "green"), some []⟩)

/-- The same entries in both maps. -/
def plainMaps (n : ℕ) : YamlPolicies where
  qosInfo := none
  cosMap := (plainMap n).map some
  dscpMap := (plainMap n).map some
  queueProfile := []
  scheduleProfile := []
  aclInfo := none

theorem textsGiven_plainMap (n : ℕ) : ∀ e ∈ plainMap n, TextsGiven e := by
  intro e he
  obtain ⟨i, _, rfl⟩ := List.mem_map.mp he
  exact ⟨rfl, rfl⟩

/-- Eight entries are what the one map needs and too few for the other. -/
theorem mapsComplete_iff_eight :
    cosMapTables.Complete (plainMap 8) (qosInitCosMap (plainMaps 8)) ∧
      ¬ dscpMapTables.Complete (plainMap 8) (qosInitDscpMap (plainMaps 8)) := by
  have hiff := mapsComplete_iff (plainMaps 8) (plainMap 8) (by decide)
  refine ⟨(hiff.1 rfl).mpr ⟨rfl, textsGiven_plainMap 8⟩, fun hcomplete => ?_⟩
  exact absurd ((hiff.2 rfl).mp hcomplete).1 (by decide)

/-- A ninth entry is outside the array, and with seven the last row is left unset. -/
theorem qosInitCosMap_notComplete :
    ¬ cosMapTables.Complete (plainMap 9) (qosInitCosMap (plainMaps 9)) ∧
      ¬ cosMapTables.Complete (plainMap 7) (qosInitCosMap (plainMaps 7)) := by
  have hlawful : cosMapTables.Lawful := lawful_mapTables _ (by simp [mapTables])
  constructor
  · intro hcomplete
    exact absurd ((complete_iff hlawful (by decide)).mp hcomplete).1 (by decide)
  · intro hcomplete
    exact absurd ((complete_iff hlawful (by decide)).mp hcomplete).1 (by decide)

end OpsSysd.QosInit
