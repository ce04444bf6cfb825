import OpsSysd.ProfileInit

/-!
Schedule profiles keep the last entry of every queue. A profile is emptied
before it is filled, so what it held earlier does not matter.
-/

namespace OpsSysd.QosInit

open CString Ovsdb Ovsrec Platform InitialConfigure

/-- The weight of an entry; a strict queue has none. -/
def weightOf (strict : CStr) (e : YamlScheduleProfileEntry) : List ℤ :=
  if e.algorithm = some strict then [] else [e.weight]

/-- What the entries of one queue make of its row. -/
def scheduleProfileRow (strict : CStr) (l : List YamlScheduleProfileEntry) :
    (c : Column) → c.type.Value
  | .queueAlgorithm => (l.getLast?.bind (fun e => e.algorithm)).getD []
  | .queueWeight => (l.getLast?.map (weightOf strict)).getD []
  | c => c.type.initial

def scheduleGrouping (strict : CStr) : Grouping scheduleProfileTables YamlScheduleProfileEntry where
  key e := e.queue
  columns := [.queueAlgorithm, .queueWeight]
  row := scheduleProfileRow strict
  row_nil := by
    intro c hc
    simp only [List.mem_cons, List.not_mem_nil, or_false] at hc
    rcases hc with rfl | rfl <;> rfl
  apart := by decide

/-- What an entry does to the row of its queue. -/
def fillScheduleRow (strict : CStr) (e : YamlScheduleProfileEntry) (queueRow : Uuid) :
    OvsM Bool := do
  let algorithm ← deref e.algorithm
  setCol queueRow .queueAlgorithm algorithm
  setCol queueRow .queueWeight (if algorithm = strict then [] else [e.weight])
  return true

theorem qosScheduleProfileCreateFactoryDefault_eq (strict : CStr) (yaml : YamlPolicies)
    (defaultName : CStr) :
    qosScheduleProfileCreateFactoryDefault strict yaml defaultName = (do
      scheduleProfileTables.clear defaultName
      scheduleProfileTables.fillAll defaultName (scheduleGrouping strict).key
        (fillScheduleRow strict) yaml.scheduleProfile) := by
  unfold qosScheduleProfileCreateFactoryDefault ProfileTables.clear ProfileTables.fillAll
  rw [qosScheduleProfileCommand_eq]
  simp only [bind_assoc]
  refine bind_congr (fun _ => bind_congr (fun _ => bind_congr (fun _ => bind_congr (fun _ => ?_))))
  congr 1
  funext entry
  cases entry <;> rfl

theorem fills_scheduleRow (strict : CStr) {e : YamlScheduleProfileEntry}
    (he : e.algorithm.isSome = true) :
    (scheduleGrouping strict).Fills (fillScheduleRow strict e) e := by
  intro C row l hrow _
  obtain ⟨algorithm, halgorithm⟩ := Option.isSome_iff_exists.mp he
  unfold fillScheduleRow
  rw [halgorithm]
  refine (Exactly.deref (q := fun _ => True) (fun text htext => ?_)).congr (by simp)
  cases htext
  refine exactly_setCol hrow (exactly_setCol hrow (.pure ⟨rfl, fun c hc => ?_, fun v c hv => ?_⟩))
  · simp only [scheduleGrouping, List.mem_cons, List.not_mem_nil, or_false] at hc
    rcases hc with rfl | rfl
    · rw [Cells.write_value_of_column_ne (by decide), Cells.write_value]
      simp [scheduleGrouping, scheduleProfileRow, halgorithm]
    · rw [Cells.write_value]
      simp [scheduleGrouping, scheduleProfileRow, weightOf, halgorithm]
  · rw [Cells.write_value_of_ne, Cells.write_value_of_ne]
    · intro heq hc
      refine hv heq ?_
      rw [hc]
      simp [scheduleGrouping]
    · intro heq hc
      refine hv heq ?_
      rw [hc]
      simp [scheduleGrouping]

/-- The entries that are there. -/
def scheduleEntries (yaml : YamlPolicies) : List YamlScheduleProfileEntry :=
  yaml.scheduleProfile.filterMap id

/-- The queue rows of a profile by queue. -/
def scheduleRows (C : Cells schema) (u : Uuid) : List (ℤ × Uuid) := C.value u Column.qosQueues

/-- The profile has one row for each queue, made of the last entry of the queue. -/
structure ScheduleProfile (strict : CStr) (l : List YamlScheduleProfileEntry) (C : Cells schema)
    (u : Uuid) : Prop where
  keys : ((scheduleRows C u).map Prod.fst).Nodup
  queues : ∀ q, q ∈ (scheduleRows C u).map Prod.fst ↔ ∃ e ∈ l, e.queue = q
  rows : ∀ p ∈ scheduleRows C u, p.2 ∈ C.rows Table.queue
  distinct : ((scheduleRows C u).map Prod.snd).Nodup
  last : ∀ p ∈ scheduleRows C u, ∃ e, (l.filter (fun x => x.queue = p.1)).getLast? = some e ∧
    e.algorithm = some (C.value p.2 Column.queueAlgorithm) ∧
    C.value p.2 Column.queueWeight =
      if C.value p.2 Column.queueAlgorithm = strict then [] else [e.weight]

/-- Both profiles are there and hold new rows only; the factory profile and its rows are
marked, and the System row refers to the other one. -/
structure ScheduleProfilesSet (strict : CStr) (yaml : YamlPolicies) (sys : Uuid)
    (defaultName factoryName : CStr) (C : Cells schema) (u u' : Uuid) (C' : Cells schema) :
    Prop where
  defaultNamed : u ∈ C'.rows Table.qos ∧ C'.value u Column.qosName = defaultName
  factoryNamed : u' ∈ C'.rows Table.qos ∧ C'.value u' Column.qosName = factoryName
  existing : (∀ v, scheduleProfileTables.rowNamed C defaultName = some v → v = u) ∧
    ∀ v, scheduleProfileTables.rowNamed C factoryName = some v → v = u'
  added : C'.rows Table.qos = C.rows Table.qos ++
    (newRow (scheduleProfileTables.rowNamed C defaultName) u ++
      newRow (scheduleProfileTables.rowNamed C factoryName) u')
  default : ScheduleProfile strict (scheduleEntries yaml) C' u
  factory : ScheduleProfile strict (scheduleEntries yaml) C' u'
  new : ∀ p ∈ scheduleRows C' u ++ scheduleRows C' u', C.Fresh p.2
  apart : ∀ p ∈ scheduleRows C' u, ∀ p' ∈ scheduleRows C' u', p.2 ≠ p'.2
  system : C'.value sys Column.systemQos = some u
  marked : C'.value u' Column.qosHwDefault = [true]
  markedRows : (∀ p ∈ scheduleRows C' u, C'.value p.2 Column.queueHwDefault = []) ∧
    ∀ p ∈ scheduleRows C' u', C'.value p.2 Column.queueHwDefault = [true]
  markedOnly : (∀ v, v ≠ u' → C'.value v Column.qosHwDefault = C.value v Column.qosHwDefault) ∧
    ∀ w, w ∉ (scheduleRows C' u').map Prod.snd →
      C'.value w Column.queueHwDefault = C.value w Column.queueHwDefault

section Results

variable {strict : CStr} {C C' : Cells schema} {u u' sys : Uuid} {yaml : YamlPolicies}
  {defaultName factoryName : CStr} {l : List YamlScheduleProfileEntry}

theorem scheduleProfile_of_grouped (halgorithm : ∀ e ∈ l, e.algorithm.isSome = true)
    (h : (scheduleGrouping strict).Grouped C u (l.map (scheduleGrouping strict).key) l) :
    ScheduleProfile strict l C u := by
  have hqueues : ∀ q, q ∈ (scheduleRows C u).map Prod.fst ↔ ∃ e ∈ l, e.queue = q :=
    fun q => (h.mem q).trans List.mem_map
  refine ⟨h.keys, hqueues, fun p hp => h.rows p.2 (List.mem_map_of_mem hp), h.distinct, ?_⟩
  intro p hp
  have hcontent : ∀ c ∈ (scheduleGrouping strict).columns, C.value p.2 c =
      scheduleProfileRow strict (l.filter (fun x => x.queue = p.1)) c := h.content p hp
  obtain ⟨x, hx, hqueue⟩ := (hqueues p.1).mp (List.mem_map_of_mem hp)
  have hmem : x ∈ l.filter (fun x => x.queue = p.1) := by simp [hx, hqueue]
  cases hlast : (l.filter (fun x => x.queue = p.1)).getLast? with
  | none =>
    rw [List.getLast?_eq_none_iff.mp hlast] at hmem
    cases hmem
  | some e =>
    have he : e ∈ l := (List.mem_filter.mp (List.mem_of_getLast? hlast)).1
    obtain ⟨algorithm, hgiven⟩ := Option.isSome_iff_exists.mp (halgorithm e he)
    have hvalue : C.value p.2 Column.queueAlgorithm = algorithm := by
      rw [hcontent _ (by simp [scheduleGrouping])]
      simp [scheduleProfileRow, hlast, hgiven]
    refine ⟨e, rfl, hgiven.trans (by rw [hvalue]), ?_⟩
    rw [hcontent _ (by simp [scheduleGrouping]), hvalue]
    simp [scheduleProfileRow, hlast, weightOf, hgiven]

theorem always_qosScheduleProfileCreateFactoryDefault_created (hgiven : AlgorithmsGiven yaml)
    (C : Cells schema) (profileName : CStr) :
    Always C (qosScheduleProfileCreateFactoryDefault strict yaml profileName) (fun _ C' =>
      ∃ u, (scheduleGrouping strict).Created profileName u (scheduleEntries yaml) C C') := by
  rw [qosScheduleProfileCreateFactoryDefault_eq]
  refine (always_clear scheduleProfileTables_mem C profileName).seq (fun _ C₁ h₁ => ?_)
  obtain ⟨u, h₁⟩ := h₁
  exact (h₁.fillAll scheduleProfileTables_mem yaml.scheduleProfile
    (fun e he => fills_scheduleRow strict (hgiven _ he e rfl))).mono (fun _ _ h => ⟨u, h⟩)

theorem scheduleProfilesSet_of_initialised (hgiven : AlgorithmsGiven yaml)
    (h : (scheduleGrouping strict).Initialised (scheduleEntries yaml) sys defaultName factoryName
      C u u' C') :
    ScheduleProfilesSet strict yaml sys defaultName factoryName C u u' C' := by
  have halgorithm : ∀ e ∈ scheduleEntries yaml, e.algorithm.isSome = true := by
    intro e he
    obtain ⟨entry, hentry, heq⟩ := List.mem_filterMap.mp he
    exact hgiven entry hentry e heq
  have hmark : ∀ v, C'.value v Column.qosHwDefault =
      if v = u' then [true] else C.value v Column.qosHwDefault := h.hwDefault
  have hentryMark : ∀ w, C'.value w Column.queueHwDefault =
      if w ∈ (scheduleRows C' u').map Prod.snd then [true]
      else C.value w Column.queueHwDefault := h.entryHwDefault
  have hapart : ∀ p ∈ scheduleRows C' u, p.2 ∉ (scheduleRows C' u').map Prod.snd :=
    fun p hp => h.apart p.2 (List.mem_map_of_mem hp)
  have hnew : ∀ p ∈ scheduleRows C' u ++ scheduleRows C' u', C.Fresh p.2 := by
    intro p hp
    apply h.new
    rw [List.mem_append] at hp ⊢
    exact hp.imp List.mem_map_of_mem List.mem_map_of_mem
  refine ⟨ProfileTables.mem_of_rowNamed h.defaultFound,
    ProfileTables.mem_of_rowNamed h.factoryFound, ⟨h.defaultExisting, h.factoryExisting⟩,
    h.profiles,
    scheduleProfile_of_grouped halgorithm h.defaultGrouped,
    scheduleProfile_of_grouped halgorithm h.factoryGrouped, hnew, ?_, h.system, ?_, ⟨?_, ?_⟩,
    ⟨?_, ?_⟩⟩
  · intro p hp p' hp' heq
    exact hapart p hp (heq ▸ List.mem_map_of_mem hp')
  · rw [hmark, if_pos rfl]
  · intro p hp
    rw [hentryMark, if_neg (hapart p hp), (hnew p (List.mem_append_left _ hp)).value]
    rfl
  · intro p hp
    rw [hentryMark, if_pos (List.mem_map_of_mem hp)]
  · intro v hv
    rw [hmark, if_neg hv]
  · intro w hw
    rw [hentryMark, if_neg hw]

/-- For any cells, so for any profiles of these names and any content of them. -/
theorem scheduleProfilesKeepLast (strict : CStr) (yaml : YamlPolicies) (info : YamlQosInfo)
    (defaultName factoryName : CStr) (C : Cells schema) (sys : Uuid)
    (hinfo : yaml.qosInfo = some info) (hdefault : info.defaultName = some defaultName)
    (hfactory : info.factoryDefaultName = some factoryName) (hne : factoryName ≠ defaultName)
    (hsys : sys ∈ C.rows Table.system) (hgiven : AlgorithmsGiven yaml) :
    Always C (qosInitScheduleProfile strict yaml sys) (fun _ C' =>
      ∃ u u', ScheduleProfilesSet strict yaml sys defaultName factoryName C u u' C') := by
  rw [qosInitScheduleProfile_eq, hinfo]
  refine (always_init (G := scheduleGrouping strict) False (l := scheduleEntries yaml)
    scheduleProfileTables_mem hne hsys hdefault hfactory (fun C₁ name _ =>
      always_qosScheduleProfileCreateFactoryDefault_created hgiven C₁ name)
    (fun habs => habs.elim)).mono (fun _ C' h => ?_)
  obtain ⟨u, u', h⟩ := h
  exact ⟨u, u', scheduleProfilesSet_of_initialised hgiven h⟩

/-- Queue 5 first strict and then weighted, queue 1 the other way round. -/
def alternatingQueues : YamlPolicies where
  qosInfo := some ⟨some (cstr "default"), some (cstr "factory-default"), none⟩
  cosMap := []
  dscpMap := []
  queueProfile := []
  scheduleProfile := [some ⟨5, some (cstr "strict"), 0⟩, some ⟨1, some (cstr "dwrr"), 3⟩,
    some ⟨5, some (cstr "dwrr"), 7⟩, none, some ⟨1, some (cstr "strict"), 0⟩]
  aclInfo := none

/-- A default profile whose queues include one of another description. -/
def usedProfile : Cells schema :=
  (((((Txn.empty : Txn schema).cells.insert Table.system ⟨1, 0⟩).insert Table.qos ⟨1, 1⟩).insert
    Table.queue ⟨1, 2⟩).write ⟨1, 1⟩ Column.qosName (cstr "default")).write ⟨1, 1⟩
      Column.qosQueues [(4, ⟨1, 2⟩)]

theorem scheduleProfilesKeepLast_alternating :
    Always usedProfile (qosInitScheduleProfile (cstr "strict") alternatingQueues ⟨1, 0⟩)
      (fun _ C' => ∃ u u', ScheduleProfilesSet (cstr "strict") alternatingQueues ⟨1, 0⟩
        (cstr "default") (cstr "factory-default") usedProfile u u' C') :=
  scheduleProfilesKeepLast (cstr "strict") alternatingQueues _ (cstr "default")
    (cstr "factory-default") usedProfile ⟨1, 0⟩ rfl rfl rfl (by decide)
    (by decide) (by
      unfold AlgorithmsGiven alternatingQueues
      simp)

end Results

end OpsSysd.QosInit
