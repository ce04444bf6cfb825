import OpsSysd.QosMaps

/-!
When the policies can be initialised, and what they leave alone.
-/

namespace OpsSysd.QosInit

open CString Ovsdb Ovsrec Platform InitialConfigure

/-- The tables of the policies. -/
def policyTables : List Table :=
  [.qProfile, .qProfileEntry, .qos, .queue, .qosCosMapEntry, .qosDscpMapEntry]

/-- The columns that the policies write. -/
def policyColumns : List Column :=
  [.systemQosConfig, .systemQosCosMapEntries, .systemQosDscpMapEntries, .systemQProfile,
    .systemQos, .systemOtherInfo, .qProfileName, .qProfileQProfileEntries, .qProfileHwDefault,
    .qProfileEntryLocalPriorities, .qProfileEntryDescription, .qProfileEntryHwDefault, .qosName,
    .qosQueues, .qosHwDefault, .queueAlgorithm, .queueWeight, .queueHwDefault,
    .qosCosMapEntryCodePoint, .qosCosMapEntryLocalPriority, .qosCosMapEntryColor,
    .qosCosMapEntryDescription, .qosCosMapEntryHwDefaults, .qosDscpMapEntryCodePoint,
    .qosDscpMapEntryLocalPriority, .qosDscpMapEntryColor, .qosDscpMapEntryDescription,
    .qosDscpMapEntryHwDefaults]

/-- Every entry of a profile is a row. -/
def ProfileTables.Closed (T : ProfileTables) (C : Cells schema) : Prop :=
  ∀ u ∈ C.rows T.profile, ∀ e ∈ T.entries.value C u, e.2 ∈ C.rows T.entry

/-- Some profile has the name. -/
def ProfileTables.Has (T : ProfileTables) (C : Cells schema) (profileName : CStr) : Prop :=
  ∃ u ∈ C.rows T.profile, T.name.value C u = profileName

section Profiles

variable {T : ProfileTables} {C C₀ : Cells schema} {u : Uuid} {k : Table} {c : Column}
  {v : c.type.Value} {profileName : CStr}

theorem ProfileTables.Closed.insert (h : T.Closed C) (hu : C.Fresh u) :
    T.Closed (C.insert k u) := by
  intro p hp e he
  rw [TypedColumn.value_insert] at he
  by_cases hold : p ∈ C.rows T.profile
  · exact Cells.mem_insert_of_mem (h p hold e he)
  · have hpu : p = u := by
      by_cases hk : T.profile = k
      · subst hk
        rw [Cells.insert_rows] at hp
        simpa [hold] using hp
      · rw [Cells.insert_rows_of_ne hk] at hp
        exact absurd hp hold
    rw [hpu, T.entries.value_fresh hu] at he
    cases he

theorem ProfileTables.Closed.write (h : T.Closed C) (hc : T.entries.column ≠ c) :
    T.Closed (C.write u c v) := by
  intro p hp e he
  rw [TypedColumn.value_write_of_column_ne _ hc] at he
  exact h p hp e he

theorem ProfileTables.Closed.writeEntries (h : T.Closed C) {entries : List (ℤ × Uuid)}
    (hentries : ∀ e ∈ entries, e.2 ∈ C.rows T.entry) :
    T.Closed (C.write u T.entries.column (T.entries.encode entries)) := by
  intro p hp e he
  by_cases hpu : p = u
  · rw [hpu, T.entries.value_write] at he
    exact hentries e he
  · rw [T.entries.value_write_of_row_ne hpu] at he
    exact h p hp e he

theorem ProfileTables.Has.insert (h : T.Has C profileName) : T.Has (C.insert k u) profileName := by
  obtain ⟨p, hp, hname⟩ := h
  exact ⟨p, Cells.mem_insert_of_mem hp, hname⟩

theorem ProfileTables.Has.write (h : T.Has C profileName) (hc : T.name.column ≠ c) :
    T.Has (C.write u c v) profileName := by
  obtain ⟨p, hp, hname⟩ := h
  exact ⟨p, hp, (T.name.value_write_of_column_ne hc v p).trans hname⟩

theorem entries_ne {T' : ProfileTables} (hT : T ∈ profileTables) (hT' : T' ∈ profileTables)
    (hne : T ≠ T') : T.entries.column ≠ T'.entries.column := by
  simp only [profileTables, List.mem_cons, List.not_mem_nil, or_false] at hT hT'
  rcases hT with rfl | rfl <;> rcases hT' with rfl | rfl
  · exact absurd rfl hne
  · decide
  · decide
  · exact absurd rfl hne

/-- What holds while the policies are initialised. -/
structure PolicyInv (C₀ C : Cells schema) : Prop where
  keeps : C₀.Extends policyTables policyColumns C
  closed : ∀ T ∈ profileTables, T.Closed C

theorem PolicyInv.insert (h : PolicyInv C₀ C) (hk : k ∈ policyTables) (hu : C.Fresh u) :
    PolicyInv C₀ (C.insert k u) :=
  ⟨h.keeps.insert hk u, fun T hT => (h.closed T hT).insert hu⟩

theorem PolicyInv.write (h : PolicyInv C₀ C) (hc : c ∈ policyColumns)
    (hentries : ∀ T ∈ profileTables, T.entries.column ≠ c) : PolicyInv C₀ (C.write u c v) :=
  ⟨h.keeps.write hc u v, fun T hT => (h.closed T hT).write (hentries T hT)⟩

theorem PolicyInv.writeEntries (h : PolicyInv C₀ C) (hT : T ∈ profileTables)
    {entries : List (ℤ × Uuid)} (hentries : ∀ e ∈ entries, e.2 ∈ C.rows T.entry) :
    PolicyInv C₀ (C.write u T.entries.column (T.entries.encode entries)) := by
  have hpolicy : ∀ T ∈ profileTables, T.entries.column ∈ policyColumns := by decide
  refine ⟨h.keeps.write (hpolicy T hT) u _, fun T' hT' => ?_⟩
  by_cases heq : T' = T
  · rw [heq]
    exact (h.closed T hT).writeEntries hentries
  · exact (h.closed T' hT').write (entries_ne hT' hT heq)

theorem PolicyInv.extends {Ts : List Table} {L : List Column} {C' : Cells schema}
    (h : PolicyInv C₀ C) (hext : C.Extends Ts L C') (hTs : Ts ⊆ policyTables)
    (hL : L ⊆ policyColumns)
    (hprofile : ∀ T ∈ profileTables, T.profile ∉ Ts ∧ T.entries.column ∉ L) :
    PolicyInv C₀ C' := by
  refine ⟨h.keeps.step hext hTs hL, fun T hT p hp e he => ?_⟩
  obtain ⟨hrows, hentries⟩ := hprofile T hT
  rw [hext.same _ hrows] at hp
  rw [T.entries.value_congr (hext.value _ p hp _ hentries)] at he
  exact hext.kept _ _ (h.closed T hT p hp e he)

theorem always_getRow (T : ProfileTables) (C : Cells schema) (profileName : CStr) :
    Always C (T.getRow profileName) (fun r C' => C' = C ∧
      (∀ u, r = some u → u ∈ C.rows T.profile ∧ T.name.value C u = profileName) ∧
      (r = none → ¬ T.Has C profileName)) := by
  intro s hs
  refine ⟨fun _ => ?_, fun hp => (hp trivial).elim⟩
  obtain ⟨l, hl, huuid, hcol⟩ := hs.rows T.unmonitored
  have hname : ∀ r ∈ l, T.name.ofRow r = T.name.value C r.uuid := by
    intro r hr
    unfold TypedColumn.ofRow TypedColumn.value
    rw [hcol r hr T.name.column T.nameTable]
  refine ⟨(l.find? (fun r => T.name.ofRow r = profileName)).map (fun r => r.uuid), s, C, ?_, hs,
    rfl, ?_, ?_⟩
  · unfold ProfileTables.getRow getProfileRow
    exact bind_ok _ hl
  · intro u hu
    obtain ⟨r, hr, rfl⟩ := Option.map_eq_some_iff.mp hu
    have hmem := List.mem_of_find?_eq_some hr
    refine ⟨huuid ▸ List.mem_map_of_mem hmem, ?_⟩
    rw [← hname r hmem]
    simpa using List.find?_some hr
  · rintro hnone ⟨u, hu, hhas⟩
    rw [← huuid] at hu
    obtain ⟨r, hr, rfl⟩ := List.mem_map.mp hu
    rw [Option.map_eq_none_iff, List.find?_eq_none] at hnone
    exact hnone r hr (by simpa [hname r hr] using hhas)

theorem always_command (h : PolicyInv C₀ C) (hT : T ∈ profileTables) (profileName : CStr) :
    Always C (T.command profileName) (fun _ C' =>
      PolicyInv C₀ C' ∧ T.Has C' profileName) := by
  refine (always_getRow T C profileName).seq (fun r C' hr => ?_)
  obtain ⟨rfl, hsome, _⟩ := hr
  cases r with
  | some u =>
    obtain ⟨hu, hname⟩ := hsome u rfl
    exact .pure ⟨h, u, hu, hname⟩
  | none =>
    have hprofile : ∀ T ∈ profileTables, T.profile ∈ policyTables := by decide
    have hcolumn : ∀ T ∈ profileTables, T.name.column ∈ policyColumns := by decide
    have hne : ∀ T ∈ profileTables, ∀ T' ∈ profileTables,
        T'.entries.column ≠ T.name.column := by decide
    refine exactly_insert (fun u hu => ?_)
    have hmem : u ∈ (C'.insert T.profile u).rows T.name.column.table := by
      rw [T.nameTable]
      exact Cells.mem_insert_self
    refine T.name.always_set hmem ⟨?_, u, ?_, ?_⟩
    · exact (h.insert (hprofile T hT) hu).write (hcolumn T hT) (hne T hT)
    · rw [Cells.write_rows]
      exact Cells.mem_insert_self
    · exact T.name.value_write _ u profileName

theorem always_findOrInsert (h : PolicyInv C₀ C) (hT : T ∈ profileTables)
    (hu : u ∈ C.rows T.profile) (hhas : T.Has C profileName) (queueNum : ℤ) :
    Always C (T.findOrInsert u queueNum) (fun row C' =>
      PolicyInv C₀ C' ∧ T.Has C' profileName ∧ row ∈ C'.rows T.entry) := by
  have hu' : u ∈ C.rows T.entries.column.table := by
    rw [T.entriesTable]
    exact hu
  refine Exactly.seq (Q := fun r C' => C' = C ∧ ∀ row, r = some row → row ∈ C.rows T.entry)
    (T.entries.exactly_get hu' (.pure ⟨rfl, ?_⟩)) (fun r C' hr => ?_)
  · intro row hrow
    obtain ⟨e, he, rfl⟩ := Option.map_eq_some_iff.mp hrow
    exact h.closed T hT u hu e (List.mem_of_find?_eq_some he)
  · obtain ⟨rfl, hrow⟩ := hr
    cases r with
    | some row => exact .pure ⟨h, hhas, hrow row rfl⟩
    | none =>
      have hentry : ∀ T ∈ profileTables, T.entry ∈ policyTables := by decide
      have hne : ∀ T ∈ profileTables, T.name.column ≠ T.entries.column := by decide
      refine exactly_insert (fun row hrow => ?_)
      have hu₁ : u ∈ (C'.insert T.entry row).rows T.entries.column.table :=
        Cells.mem_insert_of_mem hu'
      refine T.entries.exactly_get hu₁ ?_
      refine (T.entries.always_set (R := fun _ C₂ => PolicyInv C₀ C₂ ∧ T.Has C₂ profileName ∧
        row ∈ C₂.rows T.entry) hu₁ ⟨?_, ?_, ?_⟩).seq (fun _ C₂ h₂ => .pure h₂)
      · refine (h.insert (hentry T hT) hrow).writeEntries hT (fun e he => ?_)
        rcases List.mem_append.mp he with hold | hnew
        · exact Cells.mem_insert_of_mem (h.closed T hT u hu e hold)
        · rw [List.mem_singleton.mp hnew]
          exact Cells.mem_insert_self
      · exact hhas.insert.write (hne T hT)
      · rw [Cells.write_rows]
        exact Cells.mem_insert_self

theorem always_hwDefaults (h : PolicyInv C₀ C) (hT : T ∈ profileTables)
    (hu : u ∈ C.rows T.profile) :
    Always C (do
      T.hwDefault.set u [true]
      let entries ← T.entries.get u
      entries.forM (fun p => T.entryHwDefault.set p.2 [true])) (fun _ => PolicyInv C₀) := by
  have hdefault : ∀ T ∈ profileTables, T.hwDefault.column ∈ policyColumns ∧
      ∀ T' ∈ profileTables, T'.entries.column ≠ T.hwDefault.column := by decide
  have hentry : ∀ T ∈ profileTables, T.entryHwDefault.column ∈ policyColumns ∧
      ∀ T' ∈ profileTables, T'.entries.column ≠ T.entryHwDefault.column := by decide
  have hu₁ : u ∈ C.rows T.hwDefault.column.table := by
    rw [T.hwDefaultTable]
    exact hu
  refine Exactly.seq (Q := fun _ C₁ => PolicyInv C₀ C₁ ∧ C₁.rows = C.rows)
    (T.hwDefault.always_set hu₁ ⟨h.write (hdefault T hT).1 (hdefault T hT).2, rfl⟩)
    (fun _ C₁ h₁ => ?_)
  obtain ⟨h₁, hrows₁⟩ := h₁
  have hu₂ : u ∈ C₁.rows T.profile := by
    rw [hrows₁]
    exact hu
  refine T.entries.exactly_get (by rwa [T.entriesTable]) ?_
  have hloop := Exactly.forM (I := fun C' => PolicyInv C₀ C' ∧ C'.rows = C₁.rows)
    (q := fun _ => True) (f := fun p : ℤ × Uuid => T.entryHwDefault.set p.2 [true])
    (T.entries.value C₁ u) ⟨h₁, rfl⟩ (fun e he C₂ h₂ => T.entryHwDefault.always_set ?_
      ⟨h₂.1.write (hentry T hT).1 (hentry T hT).2, h₂.2⟩)
  · exact (hloop.congr (by simp)).mono (fun _ _ h' => h'.1)
  · rw [T.entryHwDefaultTable, h₂.2]
    exact h₁.closed T hT u hu₂ e he

/-- What two profiles need: their names, and what filling one needs. -/
def ProfilesGiven (p : Prop) (info : Option YamlQosInfo) : Prop :=
  ∀ qosInfo, info = some qosInfo →
    qosInfo.defaultName.isSome = true ∧ p ∧ qosInfo.factoryDefaultName.isSome = true

theorem exactly_init {p : Prop} {create : CStr → OvsM Unit} {sys : Uuid} (h : PolicyInv C₀ C)
    (hT : T ∈ profileTables) (hsys : sys ∈ C₀.rows Table.system)
    (hcreate : ∀ C name, PolicyInv C₀ C →
      Exactly C p (create name) (fun _ C' => PolicyInv C₀ C' ∧ T.Has C' name))
    (info : Option YamlQosInfo) :
    Exactly C (ProfilesGiven p info) (T.init create sys info) (fun _ => PolicyInv C₀) := by
  have hsystem : ∀ T ∈ profileTables, T.system.column ∈ policyColumns ∧
      ∀ T' ∈ profileTables, T'.entries.column ≠ T.system.column := by decide
  unfold ProfilesGiven ProfileTables.init
  cases info with
  | none =>
    refine Exactly.congr (p := True) (.pure h) ?_
    simp
  | some qosInfo =>
    have hcond : (∃ name, qosInfo.defaultName = some name ∧
        p ∧ ∃ name', qosInfo.factoryDefaultName = some name' ∧ p) ↔
          ∀ info, some qosInfo = some info →
            info.defaultName.isSome = true ∧ p ∧ info.factoryDefaultName.isSome = true := by
      simp only [Option.some.injEq, forall_eq', Option.isSome_iff_exists]
      tauto
    refine (Exactly.deref (fun defaultName _ => ?_)).congr hcond
    refine (hcreate C defaultName h).bind (fun _ C₁ h₁ => ?_)
    refine (always_getRow T C₁ defaultName).seq (fun r C₂ hr => ?_)
    obtain ⟨rfl, _, hnone⟩ := hr
    cases r with
    | none => exact absurd h₁.2 (hnone rfl)
    | some defaultProfile =>
      have hsys₂ : sys ∈ C₂.rows T.system.column.table := by
        rw [T.systemTable]
        exact h₁.1.keeps.kept _ _ hsys
      refine Exactly.seq (Q := fun _ => PolicyInv C₀) (T.system.always_set hsys₂
        (h₁.1.write (hsystem T hT).1 (hsystem T hT).2)) (fun _ C₃ h₃ => ?_)
      refine Exactly.deref (fun factoryDefaultName _ => ?_)
      refine (hcreate C₃ factoryDefaultName h₃).next (fun _ C₄ h₄ => ?_)
      refine (always_getRow T C₄ factoryDefaultName).seq (fun r C₅ hr => ?_)
      obtain ⟨rfl, hsome, hnone⟩ := hr
      cases r with
      | none => exact absurd h₄.2 (hnone rfl)
      | some factoryProfile => exact always_hwDefaults h₄.1 hT (hsome _ rfl).1

end Profiles

section Policies

variable {C C₀ : Cells schema} {sys : Uuid} {yaml : YamlPolicies}

theorem always_qosQueueProfileRowCommand (h : PolicyInv C₀ C) {profileName : CStr}
    (hhas : queueProfileTables.Has C profileName) (queueNum localPriority : ℤ)
    (description : Option CStr) :
    Always C (qosQueueProfileRowCommand profileName queueNum localPriority description)
      (fun _ C' => PolicyInv C₀ C' ∧ queueProfileTables.Has C' profileName) := by
  unfold qosQueueProfileRowCommand
  simp only [queueProfileEntryRow_eq]
  refine (always_getRow queueProfileTables C profileName).seq (fun r C₁ hr => ?_)
  obtain ⟨rfl, hsome, hnone⟩ := hr
  cases r with
  | none => exact absurd hhas (hnone rfl)
  | some u =>
    refine (always_findOrInsert h queueProfileTables_mem (hsome u rfl).1 hhas queueNum).seq
      (fun row C₂ h₂ => ?_)
    obtain ⟨h₂, hhas₂, hrow⟩ := h₂
    refine Exactly.seq (Q := fun _ C' => PolicyInv C₀ C' ∧
      queueProfileTables.Has C' profileName ∧ row ∈ C'.rows Table.qProfileEntry)
      (exactly_getCol hrow ?_) (fun _ C₃ h₃ => ?_)
    · by_cases hmem : localPriority ∈ C₂.value row Column.qProfileEntryLocalPriorities
      · rw [if_pos hmem]
        exact .pure ⟨h₂, hhas₂, hrow⟩
      · rw [if_neg hmem]
        exact always_setCol hrow ⟨h₂.write (by decide) (by decide), hhas₂.write (by decide), hrow⟩
    · obtain ⟨h₃, hhas₃, hrow₃⟩ := h₃
      cases description with
      | none => exact .pure ⟨h₃, hhas₃⟩
      | some text =>
        exact exactly_setCol hrow₃
          (.pure ⟨h₃.write (by decide) (by decide), hhas₃.write (by decide)⟩)

theorem always_qosQueueProfileCreateFactoryDefault (h : PolicyInv C₀ C) (defaultName : CStr) :
    Always C (qosQueueProfileCreateFactoryDefault yaml defaultName) (fun _ C' =>
      PolicyInv C₀ C' ∧ queueProfileTables.Has C' defaultName) := by
  unfold qosQueueProfileCreateFactoryDefault
  rw [qosQueueProfileCommand_eq]
  refine (always_command h queueProfileTables_mem defaultName).seq (fun _ C₁ h₁ => ?_)
  refine (Exactly.forM (q := fun _ => True) yaml.queueProfile h₁
    (fun entry _ C₂ h₂ => ?_)).congr (by simp)
  cases entry with
  | none => exact .pure h₂
  | some e =>
    exact (always_qosQueueProfileRowCommand h₂.1 h₂.2 _ _ _).seq (fun _ C₃ h₃ => .pure h₃)

/-- Every schedule entry that is there has its algorithm. -/
def AlgorithmsGiven (yaml : YamlPolicies) : Prop :=
  ∀ entry ∈ yaml.scheduleProfile, ∀ e, entry = some e → e.algorithm.isSome = true

theorem exactly_qosScheduleProfileRowCommand (strict : CStr) (h : PolicyInv C₀ C)
    {profileName : CStr} (hhas : scheduleProfileTables.Has C profileName) (queueNum : ℤ)
    (algorithm : Option CStr) (weight : ℤ) :
    Exactly C (algorithm.isSome = true)
      (qosScheduleProfileRowCommand strict profileName queueNum algorithm weight)
      (fun _ C' => PolicyInv C₀ C' ∧ scheduleProfileTables.Has C' profileName) := by
  unfold qosScheduleProfileRowCommand
  simp only [scheduleProfileEntryRow_eq]
  refine (always_getRow scheduleProfileTables C profileName).seq (fun r C₁ hr => ?_)
  obtain ⟨rfl, hsome, hnone⟩ := hr
  cases r with
  | none => exact absurd hhas (hnone rfl)
  | some u =>
    refine (always_findOrInsert h scheduleProfileTables_mem (hsome u rfl).1 hhas queueNum).seq
      (fun row C₂ h₂ => ?_)
    obtain ⟨h₂, hhas₂, hrow⟩ := h₂
    refine (Exactly.deref (q := fun _ => True) (fun text _ => ?_)).congr
      (by simp [Option.isSome_iff_exists])
    refine exactly_setCol hrow (exactly_setCol hrow (.pure ⟨?_, ?_⟩))
    · exact (h₂.write (by decide) (by decide)).write (by decide) (by decide)
    · exact (hhas₂.write (by decide)).write (by decide)

theorem exactly_qosScheduleProfileCreateFactoryDefault (strict : CStr) (h : PolicyInv C₀ C)
    (defaultName : CStr) :
    Exactly C (AlgorithmsGiven yaml)
      (qosScheduleProfileCreateFactoryDefault strict yaml defaultName) (fun _ C' =>
        PolicyInv C₀ C' ∧ scheduleProfileTables.Has C' defaultName) := by
  unfold qosScheduleProfileCreateFactoryDefault
  rw [qosScheduleProfileCommand_eq]
  refine (always_command h scheduleProfileTables_mem defaultName).seq (fun _ C₁ h₁ => ?_)
  refine (always_getRow scheduleProfileTables C₁ defaultName).seq (fun r C₂ hr => ?_)
  obtain ⟨rfl, hsome, hnone⟩ := hr
  cases r with
  | none => exact absurd h₁.2 (hnone rfl)
  | some u =>
    have hempty : ∀ e ∈ ([] : List (ℤ × Uuid)), e.2 ∈ C₂.rows scheduleProfileTables.entry := by
      simp
    have hclear : PolicyInv C₀ (C₂.write u Column.qosQueues []) :=
      h₁.1.writeEntries scheduleProfileTables_mem hempty
    have hhas : scheduleProfileTables.Has (C₂.write u Column.qosQueues []) defaultName :=
      h₁.2.write (by decide)
    refine (Exactly.deref (q := fun _ => AlgorithmsGiven yaml) (fun row hrow => ?_)).congr (by simp)
    cases hrow
    refine exactly_setCol (hsome u rfl).1 ?_
    refine Exactly.forM yaml.scheduleProfile ⟨hclear, hhas⟩ (fun entry _ C₃ h₃ => ?_)
    cases entry with
    | none =>
      refine Exactly.congr (p := True) (.pure h₃) ?_
      simp
    | some e =>
      refine ((exactly_qosScheduleProfileRowCommand strict h₃.1 h₃.2 _ _ _).next
        (fun _ C₄ h₄ => .pure h₄)).congr ?_
      simp

theorem always_qosInitTrust (h : PolicyInv C₀ C) (hsys : sys ∈ C₀.rows Table.system) :
    Always C (qosInitTrust yaml sys) (fun _ => PolicyInv C₀) := by
  unfold qosInitTrust
  cases yaml.qosInfo with
  | none => exact .pure h
  | some qosInfo =>
    dsimp only
    cases qosInfo.trust with
    | none => exact .pure h
    | some trust =>
      have hrow := h.keeps.kept _ _ hsys
      exact exactly_getCol hrow (always_setCol hrow (h.write (by decide) (by decide)))

theorem exactly_aclInitLimits (h : PolicyInv C₀ C) (hsys : sys ∈ C₀.rows Table.system) :
    Exactly C (yaml.aclInfo.isSome = true) (aclInitLimits yaml sys) (fun _ => PolicyInv C₀) := by
  have hrow := h.keeps.kept _ _ hsys
  refine (Exactly.deref (q := fun _ => True) (fun aclInfo _ => ?_)).congr
    (by simp [Option.isSome_iff_exists])
  exact exactly_getCol hrow (always_setCol hrow (h.write (by decide) (by decide)))

/-- A map keeps to its own rows and lists them. -/
theorem exactly_initMap {T : MapTables} (hT : T ∈ mapTables) (h : PolicyInv C₀ C)
    (hsys : sys ∈ C₀.rows Table.system) (entries : List (Option YamlMapEntry)) :
    Exactly C (MapGiven T.count entries) (T.init entries sys) (fun _ => PolicyInv C₀) := by
  have htable : ∀ T ∈ mapTables, T.entry ∈ policyTables := by decide
  have hcolumn : ∀ T ∈ mapTables, T.system.column ∈ policyColumns := by decide
  have hprofile : ∀ T ∈ mapTables, ∀ T' ∈ profileTables,
      T'.profile ≠ T.entry ∧ T'.entries.column ≠ T.system.column := by decide
  have hrow := h.keeps.kept _ _ hsys
  refine (exactly_initMap_filled (lawful_mapTables T hT) hrow entries).mono (fun _ C' h' => ?_)
  by_cases hhead : entries.head?.join = none
  · rw [h'.1 hhead]
    exact h
  · obtain ⟨us, hfilled⟩ := h'.2 hhead
    exact h.extends hfilled.extends (by simpa using htable T hT) (by simpa using hcolumn T hT)
      (by simpa using hprofile T hT)

/-- What the policies need: without any of it the initialisation faults. -/
structure PoliciesGiven (yaml : YamlPolicies) : Prop where
  dscpMap : MapGiven qosDscpMapEntryCount yaml.dscpMap
  cosMap : MapGiven qosCosMapEntryCount yaml.cosMap
  queueProfiles : ProfilesGiven True yaml.qosInfo
  scheduleProfiles : ProfilesGiven (AlgorithmsGiven yaml) yaml.qosInfo
  aclInfo : yaml.aclInfo.isSome = true

theorem exactly_initPolicies (st : Startup) (h : PolicyInv C₀ C)
    (hsys : sys ∈ C₀.rows Table.system) :
    Exactly C (PoliciesGiven st.policies) (initPolicies st sys) (fun _ => PolicyInv C₀) := by
  refine Exactly.congr (p := MapGiven qosDscpMapEntryCount st.policies.dscpMap ∧
    MapGiven qosCosMapEntryCount st.policies.cosMap ∧ ProfilesGiven True st.policies.qosInfo ∧
    ProfilesGiven (AlgorithmsGiven st.policies) st.policies.qosInfo ∧
    st.policies.aclInfo.isSome = true) ?_ ?_
  · unfold initPolicies
    simp only [qosInitQueueProfile_eq, qosInitScheduleProfile_eq, qosInitCosMap_eq,
      qosInitDscpMap_eq]
    refine (always_qosInitTrust h hsys).seq (fun _ C₁ h₁ => ?_)
    refine (exactly_initMap (T := dscpMapTables) (by simp [mapTables]) h₁ hsys _).bind
      (fun _ C₂ h₂ => ?_)
    refine (exactly_initMap (T := cosMapTables) (by simp [mapTables]) h₂ hsys _).bind
      (fun _ C₃ h₃ => ?_)
    refine (exactly_init h₃ queueProfileTables_mem hsys (fun C name hC =>
      always_qosQueueProfileCreateFactoryDefault hC name) _).bind (fun _ C₄ h₄ => ?_)
    refine (exactly_init h₄ scheduleProfileTables_mem hsys (fun C name hC =>
      exactly_qosScheduleProfileCreateFactoryDefault _ hC name) _).bind (fun _ C₅ h₅ => ?_)
    exact exactly_aclInitLimits h₅ hsys
  · constructor
    · rintro ⟨h₁, h₂, h₃, h₄, h₅⟩
      exact ⟨h₁, h₂, h₃, h₄, h₅⟩
    · intro h
      exact ⟨h.dscpMap, h.cosMap, h.queueProfiles, h.scheduleProfiles, h.aclInfo⟩

end Policies

end OpsSysd.QosInit
