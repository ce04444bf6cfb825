import OpsSysd.ProfileInit

/-!
Queue profiles group the entries of the description by queue. A row collects
the priorities of its queue and keeps the last description.
-/

namespace OpsSysd.QosInit

open CString Ovsdb Ovsrec Platform InitialConfigure

/-- The priorities with one more, unless it is there. -/
def withPriority (priorities : List ℤ) (localPriority : ℤ) : List ℤ :=
  if localPriority ∈ priorities then priorities else priorities ++ [localPriority]

/-- The priorities of the entries, each once. -/
def addPriorities (priorities : List ℤ) (l : List YamlQueueProfileEntry) : List ℤ :=
  l.foldl (fun ps e => withPriority ps e.localPriority) priorities

section Priorities

variable {priorities : List ℤ} {l l' : List YamlQueueProfileEntry}

theorem addPriorities_append : addPriorities priorities (l ++ l') =
    addPriorities (addPriorities priorities l) l' := List.foldl_append

theorem mem_withPriority {p q : ℤ} : q ∈ withPriority priorities p ↔ q ∈ priorities ∨ p = q := by
  unfold withPriority
  by_cases hp : p ∈ priorities
  · rw [if_pos hp, or_iff_left_of_imp (fun heq => heq ▸ hp)]
  · rw [if_neg hp, List.mem_append, List.mem_singleton, eq_comm]

theorem nodup_withPriority (h : priorities.Nodup) (p : ℤ) : (withPriority priorities p).Nodup := by
  unfold withPriority
  by_cases hp : p ∈ priorities
  · rwa [if_pos hp]
  · rw [if_neg hp, ← List.concat_eq_append]
    exact h.concat hp

theorem mem_addPriorities {p : ℤ} : p ∈ addPriorities priorities l ↔
    p ∈ priorities ∨ ∃ e ∈ l, e.localPriority = p := by
  unfold addPriorities
  induction l generalizing priorities with
  | nil => simp
  | cons e rest ih =>
    rw [List.foldl_cons, ih, mem_withPriority, or_assoc]
    simp

theorem nodup_addPriorities (h : priorities.Nodup) : (addPriorities priorities l).Nodup := by
  unfold addPriorities
  induction l generalizing priorities with
  | nil => exact h
  | cons e rest ih => exact ih (nodup_withPriority h e.localPriority)

theorem addPriorities_of_mem (h : ∀ e ∈ l, e.localPriority ∈ priorities) :
    addPriorities priorities l = priorities := by
  unfold addPriorities
  induction l with
  | nil => rfl
  | cons e rest ih =>
    have hmem : e.localPriority ∈ priorities := h e (by simp)
    rw [List.foldl_cons, withPriority, if_pos hmem]
    exact ih (fun e' he' => h e' (by simp [he']))

end Priorities

/-- The last description that is there. -/
def lastDescription (l : List YamlQueueProfileEntry) : Option CStr :=
  (l.filterMap (fun e => e.description)).getLast?

/-- What the entries of one queue make of its row. -/
def queueProfileRow (l : List YamlQueueProfileEntry) : (c : Column) → c.type.Value
  | .qProfileEntryLocalPriorities => addPriorities [] l
  | .qProfileEntryDescription => lastDescription l
  | c => c.type.initial

def queueGrouping : Grouping queueProfileTables YamlQueueProfileEntry where
  key e := e.queue
  columns := [.qProfileEntryLocalPriorities, .qProfileEntryDescription]
  row := queueProfileRow
  row_nil := by
    intro c hc
    simp only [List.mem_cons, List.not_mem_nil, or_false] at hc
    rcases hc with rfl | rfl <;> rfl
  apart := by decide

/-- What an entry does to the row of its queue. -/
def fillQueueRow (e : YamlQueueProfileEntry) (queueRow : Uuid) : OvsM Bool := do
  addLocalPriority queueRow e.localPriority
  match e.description with
  | none => return true
  | some _ =>
    setCol queueRow .qProfileEntryDescription e.description
    return true

theorem qosQueueProfileCreateFactoryDefault_eq (yaml : YamlPolicies) (defaultName : CStr) :
    qosQueueProfileCreateFactoryDefault yaml defaultName = (do
      queueProfileTables.command defaultName
      queueProfileTables.fillAll defaultName queueGrouping.key fillQueueRow
        yaml.queueProfile) := by
  unfold qosQueueProfileCreateFactoryDefault ProfileTables.fillAll
  rw [qosQueueProfileCommand_eq]
  congr 1
  funext _
  congr 1
  funext entry
  cases entry <;> rfl

section Fill

variable {C : Cells schema} {row : Uuid} {e : YamlQueueProfileEntry}

theorem always_addLocalPriority (hrow : row ∈ C.rows Table.qProfileEntry) (localPriority : ℤ) :
    Always C (addLocalPriority row localPriority) (fun _ C' =>
      C' = C.write row Column.qProfileEntryLocalPriorities
        (withPriority (C.value row Column.qProfileEntryLocalPriorities) localPriority)) := by
  unfold withPriority
  refine exactly_getCol hrow ?_
  by_cases hmem : localPriority ∈ C.value row Column.qProfileEntryLocalPriorities
  · rw [if_pos hmem, if_pos hmem, Cells.write_same rfl]
    exact .pure rfl
  · rw [if_neg hmem, if_neg hmem]
    exact always_setCol hrow rfl

theorem fills_queueRow (e : YamlQueueProfileEntry) : queueGrouping.Fills (fillQueueRow e) e := by
  intro C row l hrow hcontent
  have hpriorities : C.value row Column.qProfileEntryLocalPriorities = addPriorities [] l :=
    hcontent _ (by decide)
  have hdescription : C.value row Column.qProfileEntryDescription = lastDescription l :=
    hcontent _ (by decide)
  refine (always_addLocalPriority hrow e.localPriority).seq (fun _ C₁ h₁ => ?_)
  have hpriorities₁ : C₁.value row Column.qProfileEntryLocalPriorities =
      addPriorities [] (l ++ [e]) := by
    rw [h₁, Cells.write_value, hpriorities, addPriorities_append]
    rfl
  have hdescription₁ : C₁.value row Column.qProfileEntryDescription = lastDescription l := by
    rw [h₁, Cells.write_value_of_column_ne (by decide), hdescription]
  have hsame₁ : ∀ v c, (v = row → c ∉ queueGrouping.columns) → C₁.value v c = C.value v c := by
    intro v c hv
    rw [h₁]
    refine Cells.write_value_of_ne (fun heq hc => hv heq ?_)
    rw [hc]
    decide
  have hrow₁ : row ∈ C₁.rows Table.qProfileEntry := by rwa [h₁]
  have hrows₁ : C₁.rows = C.rows := by rw [h₁, Cells.write_rows]
  cases hgiven : e.description with
  | none =>
    refine .pure ⟨hrows₁, fun c hc => ?_, hsame₁⟩
    simp only [queueGrouping, List.mem_cons, List.not_mem_nil, or_false] at hc
    rcases hc with rfl | rfl
    · exact hpriorities₁
    · rw [hdescription₁]
      simp [queueGrouping, queueProfileRow, lastDescription, hgiven]
  | some text =>
    refine exactly_setCol hrow₁ (.pure ⟨hrows₁, fun c hc => ?_, fun v c hv => ?_⟩)
    · simp only [queueGrouping, List.mem_cons, List.not_mem_nil, or_false] at hc
      rcases hc with rfl | rfl
      · rw [Cells.write_value_of_column_ne (by decide)]
        exact hpriorities₁
      · rw [Cells.write_value]
        simp [queueGrouping, queueProfileRow, lastDescription, hgiven]
    · rw [← hsame₁ v c hv]
      refine Cells.write_value_of_ne (fun heq hc => hv heq ?_)
      rw [hc]
      decide

end Fill

/-- The entries that are there. -/
def queueEntries (yaml : YamlPolicies) : List YamlQueueProfileEntry :=
  yaml.queueProfile.filterMap id

/-- The rows of a profile by queue. -/
def queueRows (C : Cells schema) (u : Uuid) : List (ℤ × Uuid) :=
  C.value u Column.qProfileQProfileEntries

/-- The profile has one row for each queue, with the priorities of the queue and
the last description that is there. -/
structure QueueProfile (l : List YamlQueueProfileEntry) (C : Cells schema) (u : Uuid) : Prop where
  keys : ((queueRows C u).map Prod.fst).Nodup
  queues : ∀ q, q ∈ (queueRows C u).map Prod.fst ↔ ∃ e ∈ l, e.queue = q
  rows : ∀ p ∈ queueRows C u, p.2 ∈ C.rows Table.qProfileEntry
  distinct : ((queueRows C u).map Prod.snd).Nodup
  once : ∀ p ∈ queueRows C u, (C.value p.2 Column.qProfileEntryLocalPriorities).Nodup
  priorities : ∀ p ∈ queueRows C u, ∀ priority,
    priority ∈ C.value p.2 Column.qProfileEntryLocalPriorities ↔
      ∃ e ∈ l, e.queue = p.1 ∧ e.localPriority = priority
  description : ∀ p ∈ queueRows C u, C.value p.2 Column.qProfileEntryDescription =
    lastDescription (l.filter (fun e => e.queue = p.1))

/-- Both profiles are new and group the entries; the factory profile and its rows
are marked, and the System row refers to the other one. -/
structure QueueProfilesAdded (yaml : YamlPolicies) (sys : Uuid) (defaultName factoryName : CStr)
    (C : Cells schema) (u u' : Uuid) (C' : Cells schema) : Prop where
  defaultRow : (C'.rows Table.qProfile).filter
    (fun v => C'.value v Column.qProfileName = defaultName) = [u]
  factoryRow : (C'.rows Table.qProfile).filter
    (fun v => C'.value v Column.qProfileName = factoryName) = [u']
  profiles : C'.rows Table.qProfile = C.rows Table.qProfile ++ [u, u']
  entries : C'.rows Table.qProfileEntry = C.rows Table.qProfileEntry ++
    (queueRows C' u ++ queueRows C' u').map Prod.snd
  default : QueueProfile (queueEntries yaml) C' u
  factory : QueueProfile (queueEntries yaml) C' u'
  apart : ∀ p ∈ queueRows C' u, ∀ p' ∈ queueRows C' u', p.2 ≠ p'.2
  system : C'.value sys Column.systemQProfile = some u
  marked : C'.value u Column.qProfileHwDefault = [] ∧ C'.value u' Column.qProfileHwDefault = [true]
  markedRows : (∀ p ∈ queueRows C' u, C'.value p.2 Column.qProfileEntryHwDefault = []) ∧
    ∀ p ∈ queueRows C' u', C'.value p.2 Column.qProfileEntryHwDefault = [true]
  markedOnly : (∀ v, v ≠ u' → C'.value v Column.qProfileHwDefault =
      C.value v Column.qProfileHwDefault) ∧
    ∀ w, w ∉ (queueRows C' u').map Prod.snd → C'.value w Column.qProfileEntryHwDefault =
      C.value w Column.qProfileEntryHwDefault

section Results

variable {C C' : Cells schema} {u u' sys : Uuid} {yaml : YamlPolicies}
  {profileName defaultName factoryName : CStr} {l : List YamlQueueProfileEntry}

theorem queueProfile_of_grouped (h : queueGrouping.Grouped C u (l.map queueGrouping.key) l) :
    QueueProfile l C u := by
  have hpriorities : ∀ p ∈ queueRows C u, C.value p.2 Column.qProfileEntryLocalPriorities =
      addPriorities [] (l.filter (fun e => e.queue = p.1)) :=
    fun p hp => h.content p hp _ (by decide)
  refine ⟨h.keys, fun q => ?_, fun p hp => h.rows p.2 (List.mem_map_of_mem hp), h.distinct, ?_, ?_,
    fun p hp => h.content p hp _ (by decide)⟩
  · exact (h.mem q).trans List.mem_map
  · intro p hp
    rw [hpriorities p hp]
    exact nodup_addPriorities List.nodup_nil
  · intro p hp priority
    rw [hpriorities p hp, mem_addPriorities]
    simp [and_assoc]

/-- Reading the entries of a queue once more changes nothing. -/
theorem queueProfileRow_twice (l : List YamlQueueProfileEntry) :
    ∀ c ∈ queueGrouping.columns, queueProfileRow (l ++ l) c = queueProfileRow l c := by
  intro c hc
  simp only [queueGrouping, List.mem_cons, List.not_mem_nil, or_false] at hc
  rcases hc with rfl | rfl
  · have hmem : ∀ e ∈ l, e.localPriority ∈ addPriorities [] l :=
      fun e he => mem_addPriorities.mpr (.inr ⟨e, he, rfl⟩)
    simp only [queueProfileRow]
    rw [addPriorities_append, addPriorities_of_mem hmem]
  · simp only [queueProfileRow, lastDescription]
    rw [List.filterMap_append, List.getLast?_append, Option.or_self]

theorem always_qosQueueProfileCreateFactoryDefault_new
    (hnone : queueProfileTables.rowNamed C profileName = none) :
    Always C (qosQueueProfileCreateFactoryDefault yaml profileName) (fun _ C' =>
      ∃ u, queueGrouping.Created profileName u (queueEntries yaml) C C') := by
  rw [qosQueueProfileCreateFactoryDefault_eq]
  refine (always_command_started queueProfileTables_mem hnone).seq (fun _ C₁ h₁ => ?_)
  obtain ⟨u, h₁⟩ := h₁
  exact (h₁.fillAll queueProfileTables_mem yaml.queueProfile
    (fun e _ => fills_queueRow e)).mono (fun _ _ h => ⟨u, h⟩)

/-- A profile that groups the entries stays as it is. -/
theorem always_qosQueueProfileCreateFactoryDefault_again
    (hfound : queueProfileTables.rowNamed C profileName = some u)
    (h : queueGrouping.Grouped C u ((queueEntries yaml).map queueGrouping.key)
      (queueEntries yaml)) :
    Always C (qosQueueProfileCreateFactoryDefault yaml profileName) (fun _ C' => C' = C) := by
  rw [qosQueueProfileCreateFactoryDefault_eq]
  refine (always_command_found hfound).seq (fun _ C₁ h₁ => ?_)
  subst h₁
  refine (h.fillAll queueProfileTables_mem hfound yaml.queueProfile
    (fun e _ => fills_queueRow e)).mono (fun _ C₂ h₂ => ?_)
  obtain ⟨hgrouped, hfilled⟩ := h₂
  refine hfilled.unchanged h (hgrouped.congr (fun q => ?_)) (fun q c hc => ?_)
  · change q ∈ (queueEntries yaml ++ queueEntries yaml).map _ ↔ _
    rw [List.map_append, List.mem_append, or_self]
  · change queueProfileRow ((queueEntries yaml ++ queueEntries yaml).filter _) c = _
    rw [List.filter_append]
    exact queueProfileRow_twice _ c hc

theorem queueProfilesAdded_of_initialised (hne : factoryName ≠ defaultName)
    (hdefault : queueProfileTables.rowNamed C defaultName = none)
    (hfactory : queueProfileTables.rowNamed C factoryName = none)
    (h : queueGrouping.Initialised (queueEntries yaml) sys defaultName factoryName C u u' C') :
    QueueProfilesAdded yaml sys defaultName factoryName C u u' C' := by
  obtain ⟨hdefaultRow, hfactoryRow⟩ := h.named queueProfileTables_mem hne hdefault hfactory
  have hprofiles := h.profiles
  rw [hdefault, hfactory] at hprofiles
  have hmark : ∀ v, C'.value v Column.qProfileHwDefault =
      if v = u' then [true] else C.value v Column.qProfileHwDefault := h.hwDefault
  have hentryMark : ∀ w, C'.value w Column.qProfileEntryHwDefault =
      if w ∈ (queueRows C' u').map Prod.snd then [true]
      else C.value w Column.qProfileEntryHwDefault := h.entryHwDefault
  refine ⟨hdefaultRow, hfactoryRow, hprofiles, ?_, queueProfile_of_grouped h.defaultGrouped,
    queueProfile_of_grouped h.factoryGrouped, ?_, h.system, ⟨?_, ?_⟩, ⟨?_, ?_⟩, ⟨?_, ?_⟩⟩
  · rw [List.map_append]
    exact h.entries
  · intro p hp p' hp' heq
    exact h.apart p.2 (List.mem_map_of_mem hp) (heq ▸ List.mem_map_of_mem hp')
  · rw [hmark, if_neg (h.ne hne), (h.defaultFresh hdefault).value]
    rfl
  · rw [hmark, if_pos rfl]
  · intro p hp
    have hrow : p.2 ∈ queueProfileTables.entryRows C' u := List.mem_map_of_mem hp
    have hother : p.2 ∉ (queueRows C' u').map Prod.snd := h.apart p.2 hrow
    rw [hentryMark, if_neg hother, (h.new p.2 (List.mem_append_left _ hrow)).value]
    rfl
  · intro p hp
    rw [hentryMark, if_pos (List.mem_map_of_mem hp)]
  · intro v hv
    rw [hmark, if_neg hv]
  · intro w hw
    rw [hentryMark, if_neg hw]

/-- Both profiles are added, and adding one again changes nothing. -/
theorem queueProfilesGroupEntries (yaml : YamlPolicies) (info : YamlQosInfo)
    (defaultName factoryName : CStr) (C : Cells schema) (sys : Uuid)
    (hinfo : yaml.qosInfo = some info) (hdefault : info.defaultName = some defaultName)
    (hfactory : info.factoryDefaultName = some factoryName) (hne : factoryName ≠ defaultName)
    (hsys : sys ∈ C.rows Table.system)
    (habsent : ∀ v ∈ C.rows Table.qProfile, C.value v Column.qProfileName ≠ defaultName ∧
      C.value v Column.qProfileName ≠ factoryName) :
    Always C (qosInitQueueProfile yaml sys) (fun _ C' =>
      (∃ u u', QueueProfilesAdded yaml sys defaultName factoryName C u u' C') ∧
        ∀ name ∈ [defaultName, factoryName],
          Always C' (qosQueueProfileCreateFactoryDefault yaml name) (fun _ C'' => C'' = C')) := by
  have hnone : queueProfileTables.rowNamed C defaultName = none ∧
      queueProfileTables.rowNamed C factoryName = none := by
    constructor
    · exact ProfileTables.rowNamed_eq_none.mpr (fun v hv => (habsent v hv).1)
    · exact ProfileTables.rowNamed_eq_none.mpr (fun v hv => (habsent v hv).2)
  rw [qosInitQueueProfile_eq, hinfo]
  refine (always_init (G := queueGrouping) True (l := queueEntries yaml)
    queueProfileTables_mem hne hsys hdefault hfactory (fun C₁ name habs =>
      always_qosQueueProfileCreateFactoryDefault_new (habs trivial)) (fun _ => hnone)).mono
    (fun _ C' h => ?_)
  obtain ⟨u, u', h⟩ := h
  refine ⟨⟨u, u', queueProfilesAdded_of_initialised hne hnone.1 hnone.2 h⟩, fun name hname => ?_⟩
  simp only [List.mem_cons, List.not_mem_nil, or_false] at hname
  rcases hname with rfl | rfl
  · exact always_qosQueueProfileCreateFactoryDefault_again h.defaultFound h.defaultGrouped
  · exact always_qosQueueProfileCreateFactoryDefault_again h.factoryFound h.factoryGrouped

end Results

/-- Queue 5 twice with one priority, then again with another and no description. -/
def repeatedQueue : YamlPolicies where
  qosInfo := some ⟨some (cstr "default"), some (cstr "factory-default"), none⟩
  cosMap := []
  dscpMap := []
  queueProfile := [some ⟨5, 2, some (cstr "low")⟩, none, some ⟨5, 2, some (cstr "video")⟩,
    some ⟨1, 0, none⟩, some ⟨5, 3, none⟩]
  scheduleProfile := []
  aclInfo := none

/-- The cells of a transaction that has added the System row. -/
def systemOnly : Cells schema := (Txn.empty : Txn schema).cells.insert Table.system ⟨1, 0⟩

theorem queueProfilesGroupEntries_repeated :
    Always systemOnly (qosInitQueueProfile repeatedQueue ⟨1, 0⟩) (fun _ C' =>
      (∃ u u', QueueProfilesAdded repeatedQueue ⟨1, 0⟩ (cstr "default") (cstr "factory-default")
        systemOnly u u' C') ∧
        ∀ name ∈ [cstr "default", cstr "factory-default"],
          Always C' (qosQueueProfileCreateFactoryDefault repeatedQueue name)
            (fun _ C'' => C'' = C')) :=
  queueProfilesGroupEntries repeatedQueue _ (cstr "default") (cstr "factory-default") systemOnly
    ⟨1, 0⟩ rfl rfl rfl (by decide) Cells.mem_insert_self (by
      have hnone : systemOnly.rows Table.qProfile = [] := rfl
      simp [hnone])

end OpsSysd.QosInit
