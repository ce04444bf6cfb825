import OpsSysd.QosProfiles
import OpsSysd.SysdRun

/-!
The initial configuration writes to an open transaction and does nothing else:
no row of the package list, no completion column and no bad state of the
transaction, whatever the hardware description leaves out.
-/

namespace OpsSysd.SysdRun

open CString Ovsdb Ovsrec Platform InitialConfigure QosInit

/-- Everything but the package list and the completion columns. -/
def configureFootprint : Footprint schema where
  tables := fun k => k ≠ .packageInfo
  columns := fun c => c.table ≠ .packageInfo ∧ c ≠ .systemCurHw ∧ c ≠ .systemNextHw
  table_of := fun _ h => h.1

/-- A computation that stays within the footprint of the configuration. -/
abbrev Configures {α : Type} (m : OvsM α) : Prop := Within configureFootprint m

namespace Configures

variable {α : Type} {u : Uuid}

theorem insert {k : Table} (h : k ≠ .packageInfo) : Configures (@txnInsert schema k) :=
  Within.txnInsert h

theorem set {c : Column} {v : c.type.Value}
    (h : c.table ≠ .packageInfo ∧ c ≠ .systemCurHw ∧ c ≠ .systemNextHw) :
    Configures (setCol u c v) := Within.txnWrite h

theorem setOpt {c : Column} (v : Option c.type.Value)
    (h : c.table ≠ .packageInfo ∧ c ≠ .systemCurHw ∧ c ≠ .systemNextHw) :
    Configures (setColOpt u c v) := by
  cases v with
  | none => exact Within.pure _
  | some v => exact set h

theorem get {c : Column} : Configures (getCol u c) :=
  @Within.readCol schema configureFootprint u c

theorem getTyped {k : ColumnType} (c : TypedColumn k) : Configures (c.get u) := by
  obtain ⟨c, rfl⟩ := c
  exact get

end Configures

section Profiles

variable {u : Uuid} {T : ProfileTables}

/-- The rows and columns of both families are within the footprint. -/
theorem configureFootprint_profileTables : ∀ T ∈ profileTables,
    (T.profile ≠ .packageInfo ∧ T.entry ≠ .packageInfo) ∧
      ∀ c ∈ [T.name.column, T.entries.column, T.hwDefault.column, T.entryHwDefault.column,
        T.system.column], c.table ≠ .packageInfo ∧ c ≠ .systemCurHw ∧ c ≠ .systemNextHw := by
  decide

theorem Configures.setProfile (hT : T ∈ profileTables) {k : ColumnType} (c : TypedColumn k)
    (hc : c.column ∈ [T.name.column, T.entries.column, T.hwDefault.column,
      T.entryHwDefault.column, T.system.column]) (v : k.Value) : Configures (c.set u v) :=
  Configures.set ((configureFootprint_profileTables T hT).2 c.column hc)

theorem configures_getProfileRow (k : Table) (name : OvsRow → CStr) (profileName : CStr) :
    Configures (getProfileRow k name profileName) :=
  (@Within.rows schema configureFootprint k).bind (fun _ => Within.pure _)

theorem configures_command (hT : T ∈ profileTables) (profileName : CStr) :
    Configures (T.command profileName) := by
  refine (configures_getProfileRow _ _ _).bind (fun profileRow => ?_)
  cases profileRow with
  | some _ => exact Within.pure _
  | none =>
    refine (Configures.insert (configureFootprint_profileTables T hT).1.1).bind (fun _ => ?_)
    exact Configures.setProfile hT T.name (by simp) profileName

theorem configures_findOrInsert (hT : T ∈ profileTables) (queueNum : ℤ) :
    Configures (T.findOrInsert u queueNum) := by
  refine ((Configures.getTyped _).bind (fun _ => Within.pure _)).bind (fun queueRow => ?_)
  cases queueRow with
  | some _ => exact Within.pure _
  | none =>
    refine (Configures.insert (configureFootprint_profileTables T hT).1.2).bind (fun _ => ?_)
    refine (Configures.getTyped _).bind (fun _ => ?_)
    exact (Configures.setProfile hT T.entries (by simp) _).seq (Within.pure _)

/-- Both profiles of a family, whatever fills them. -/
theorem configures_init (hT : T ∈ profileTables) {create : CStr → OvsM Unit}
    (hcreate : ∀ name, Configures (create name)) (sys : Uuid) (info : Option YamlQosInfo) :
    Configures (T.init create sys info) := by
  unfold ProfileTables.init
  cases info with
  | none => exact Within.pure _
  | some qosInfo =>
    refine (Within.deref _).bind (fun defaultName => (hcreate defaultName).seq ?_)
    refine (configures_getProfileRow _ _ _).bind (fun defaultProfile => ?_)
    cases defaultProfile with
    | none => exact Within.pure _
    | some defaultProfile =>
      refine (Configures.setProfile hT T.system (by simp) _).seq ?_
      refine (Within.deref _).bind (fun factoryName => (hcreate factoryName).seq ?_)
      refine (configures_getProfileRow _ _ _).bind (fun factoryProfile => ?_)
      cases factoryProfile with
      | none => exact Within.pure _
      | some factoryProfile =>
        refine (Configures.setProfile hT T.hwDefault (by simp) _).seq ?_
        refine (Configures.getTyped _).bind (fun entries => ?_)
        exact Within.forM _ (fun _ _ => Configures.setProfile hT T.entryHwDefault (by simp) _)

theorem configures_addLocalPriority (localPriority : ℤ) :
    Configures (addLocalPriority u localPriority) :=
  Configures.get.bind (fun _ => Within.ite (Within.pure _) (Configures.set (by decide)))

theorem configures_qosQueueProfileRowCommand (profileName : CStr) (queueNum localPriority : ℤ)
    (description : Option CStr) :
    Configures (qosQueueProfileRowCommand profileName queueNum localPriority description) := by
  refine (configures_getProfileRow _ _ _).bind (fun profileRow => ?_)
  cases profileRow with
  | none => exact Within.pure _
  | some profileRow =>
    refine (configures_findOrInsert queueProfileTables_mem queueNum).bind (fun queueRow => ?_)
    refine (configures_addLocalPriority localPriority).seq ?_
    cases description with
    | none => exact Within.pure _
    | some _ => exact (Configures.set (by decide)).seq (Within.pure _)

theorem configures_qosQueueProfileCreateFactoryDefault (yaml : YamlPolicies) (name : CStr) :
    Configures (qosQueueProfileCreateFactoryDefault yaml name) := by
  refine (configures_command queueProfileTables_mem name).seq (Within.forM _ (fun entry _ => ?_))
  cases entry with
  | none => exact Within.pure _
  | some e => exact (configures_qosQueueProfileRowCommand _ _ _ _).bind (fun _ => Within.pure _)

theorem configures_qosScheduleProfileRowCommand (strict profileName : CStr) (queueNum : ℤ)
    (algorithm : Option CStr) (weight : ℤ) :
    Configures (qosScheduleProfileRowCommand strict profileName queueNum algorithm weight) := by
  refine (configures_getProfileRow _ _ _).bind (fun profileRow => ?_)
  cases profileRow with
  | none => exact Within.pure _
  | some profileRow =>
    refine (configures_findOrInsert scheduleProfileTables_mem queueNum).bind (fun queueRow => ?_)
    refine (Within.deref algorithm).bind (fun _ => ?_)
    exact (Configures.set (by decide)).seq ((Configures.set (by decide)).seq (Within.pure _))

theorem configures_qosScheduleProfileCreateFactoryDefault (strict : CStr) (yaml : YamlPolicies)
    (name : CStr) : Configures (qosScheduleProfileCreateFactoryDefault strict yaml name) := by
  refine (configures_command scheduleProfileTables_mem name).seq ?_
  refine (configures_getProfileRow _ _ _).bind (fun profileRow => ?_)
  refine (Within.deref profileRow).bind (fun _ => (Configures.set (by decide)).seq ?_)
  refine Within.forM _ (fun entry _ => ?_)
  cases entry with
  | none => exact Within.pure _
  | some e =>
    exact (configures_qosScheduleProfileRowCommand _ _ _ _ _).bind (fun _ => Within.pure _)

end Profiles

section Policies

variable (yaml : YamlPolicies) (sys : Uuid)

theorem configures_qosInitTrust : Configures (qosInitTrust yaml sys) := by
  unfold qosInitTrust
  cases yaml.qosInfo with
  | none => exact Within.pure _
  | some qosInfo =>
    dsimp only
    cases qosInfo.trust with
    | none => exact Within.pure _
    | some trust => exact Configures.get.bind (fun _ => Configures.set (by decide))

/-- The columns of a map entry may be written. -/
structure MapColumnsConfigure (cols : MapColumns) : Prop where
  table : cols.table ≠ .packageInfo
  codePoint : ∀ u v, Configures (cols.codePoint u v)
  localPriority : ∀ u v, Configures (cols.localPriority u v)
  color : ∀ u v, Configures (cols.color u v)
  description : ∀ u v, Configures (cols.description u v)
  hwDefaults : ∀ u, Configures (cols.hwDefaults u)
  setHwDefaults : ∀ u v, Configures (cols.setHwDefaults u v)

theorem mapColumnsConfigure_cos : MapColumnsConfigure cosMapColumns where
  table := by decide
  codePoint _ _ := Configures.set (by decide)
  localPriority _ _ := Configures.set (by decide)
  color _ _ := Configures.set (by decide)
  description _ _ := Configures.set (by decide)
  hwDefaults _ := Configures.get
  setHwDefaults _ _ := Configures.set (by decide)

theorem mapColumnsConfigure_dscp : MapColumnsConfigure dscpMapColumns where
  table := by decide
  codePoint _ _ := Configures.set (by decide)
  localPriority _ _ := Configures.set (by decide)
  color _ _ := Configures.set (by decide)
  description _ _ := Configures.set (by decide)
  hwDefaults _ := Configures.get
  setHwDefaults _ _ := Configures.set (by decide)

theorem configures_setMapEntry {cols : MapColumns} (hcols : MapColumnsConfigure cols)
    (row : Uuid) (e : YamlMapEntry) : Configures (setMapEntry cols row e) := by
  refine (hcols.codePoint row _).seq ((hcols.localPriority row _).seq ?_)
  refine (Within.deref e.color).bind (fun color => (hcols.color row color).seq ?_)
  refine (Within.deref e.description).bind (fun description => ?_)
  refine (hcols.description row description).seq ?_
  exact (hcols.hwDefaults row).bind (fun _ => hcols.setHwDefaults row _)

theorem configures_initMap {cols : MapColumns} (hcols : MapColumnsConfigure cols) (count : ℕ)
    (entries : List (Option YamlMapEntry)) {setEntries : List Uuid → OvsM Unit}
    (hset : ∀ mapRows, Configures (setEntries mapRows)) :
    Configures (initMap cols count entries setEntries) := by
  unfold initMap
  cases entries.head?.join with
  | none => exact Within.pure _
  | some _ =>
    refine (Within.mapM _ (fun _ _ => Configures.insert hcols.table)).bind (fun mapRows => ?_)
    refine Within.seq (Within.forM _ (fun p _ => ?_)) (hset mapRows)
    refine (Within.deref p.1).bind (fun entry => (Within.deref _).bind (fun row => ?_))
    exact configures_setMapEntry hcols row entry

theorem configures_qosInitQueueProfile : Configures (qosInitQueueProfile yaml sys) := by
  rw [qosInitQueueProfile_eq]
  exact configures_init queueProfileTables_mem
    (configures_qosQueueProfileCreateFactoryDefault yaml) sys _

theorem configures_qosInitScheduleProfile (strict : CStr) :
    Configures (qosInitScheduleProfile strict yaml sys) := by
  rw [qosInitScheduleProfile_eq]
  exact configures_init scheduleProfileTables_mem
    (configures_qosScheduleProfileCreateFactoryDefault strict yaml) sys _

theorem configures_aclInitLimits : Configures (aclInitLimits yaml sys) :=
  (Within.deref _).bind (fun _ => Configures.get.bind (fun _ => Configures.set (by decide)))

theorem configures_initPolicies (st : Startup) : Configures (initPolicies st sys) := by
  refine (configures_qosInitTrust _ sys).seq ?_
  refine (configures_initMap mapColumnsConfigure_dscp _ _
    (fun _ => Configures.set (by decide))).seq ?_
  refine (configures_initMap mapColumnsConfigure_cos _ _
    (fun _ => Configures.set (by decide))).seq ?_
  refine (configures_qosInitQueueProfile _ sys).seq ?_
  exact (configures_qosInitScheduleProfile _ sys _).seq (configures_aclInitLimits _ sys)

end Policies

section Configuration

variable (ext : External) (u : Uuid)

theorem configures_sysdInitialInterfaceAdd (subsys : Subsystem) (intf : YamlPort) :
    Configures (sysdInitialInterfaceAdd ext subsys intf) := by
  refine (Configures.insert (by decide)).bind (fun _ => ?_)
  refine (Configures.set (by decide)).seq ((Configures.set (by decide)).seq ?_)
  refine (Configures.set (by decide)).seq ((Within.deref _).bind (fun _ => ?_))
  exact (Configures.set (by decide)).seq (Within.pure _)

theorem configures_splitPorts (l : List (YamlPort × Uuid)) : Configures (splitPorts l) := by
  induction l with
  | nil => exact Within.pure _
  | cons p rest ih =>
    refine Within.ite (Configures.get.bind (fun _ => ?_)) ih
    exact ih.bind (fun _ => Within.pure _)

theorem configures_collectSubports (ports : List (CStr × Uuid)) (names : List CStr)
    (found : List Uuid) : Configures (collectSubports ports names found) := by
  induction names generalizing found with
  | nil => exact Within.pure _
  | cons name rest ih =>
    refine Within.ite ?_ (Within.deref _)
    cases shashFind ports name with
    | none => exact ih found
    | some child => exact ih (found ++ [child])

theorem configures_setSplitParent (ports : List (CStr × Uuid)) (intf : YamlPort) :
    Configures (setSplitParent ports intf u) := by
  unfold setSplitParent
  cases intf.parentPort with
  | none => exact Within.pure _
  | some parentPort =>
    dsimp only
    cases shashFind ports parentPort with
    | none => exact Within.pure _
    | some parent => exact Configures.set (by decide)

theorem configures_setSplitChildren (ports : List (CStr × Uuid)) (intf : YamlPort) :
    Configures (setSplitChildren ports intf u) := by
  refine Within.ite (Within.pure _) ?_
  exact (configures_collectSubports _ _ _).bind (fun _ => Configures.set (by decide))

theorem configures_sysdSetSplittablePortInfo (ovsIntf : List Uuid) (subsys : Subsystem) :
    Configures (sysdSetSplittablePortInfo ovsIntf subsys) := by
  refine (configures_splitPorts _).bind (fun ports => Within.forM _ (fun p _ => ?_))
  exact (configures_setSplitParent p.2 ports p.1).seq (configures_setSplitChildren p.2 ports p.1)

theorem configures_sysdInitialDaemonAdd (daemon : Manifest.DaemonInfo) :
    Configures (sysdInitialDaemonAdd daemon) := by
  refine (Configures.insert (by decide)).bind (fun _ => (Configures.set (by decide)).seq ?_)
  exact (Configures.set (by decide)).seq ((Configures.set (by decide)).seq (Within.pure _))

theorem configures_addSubsystemRow (st : Startup) (subsys : Subsystem) :
    Configures (addSubsystemRow st subsys) := by
  refine (Configures.insert (by decide)).bind (fun _ => (Configures.set (by decide)).seq ?_)
  refine (Configures.set (by decide)).seq ((Configures.set (by decide)).seq ?_)
  exact (Configures.set (by decide)).seq (Within.pure _)

theorem configures_sysdInitialSubsystemAdd (st : Startup) (alloc : Allocations)
    (subsys : Subsystem) : Configures (sysdInitialSubsystemAdd st alloc subsys) := by
  refine (configures_addSubsystemRow st subsys).bind (fun _ => Within.ite (Within.pure _) ?_)
  refine (Within.mapM _ (fun _ _ => configures_sysdInitialInterfaceAdd _ _ _)).bind
    (fun ovsIntf => ?_)
  refine (configures_sysdSetSplittablePortInfo ovsIntf subsys).seq ?_
  refine (Configures.set (by decide)).seq ((Configures.set (by decide)).seq ?_)
  exact (Configures.set (by decide)).seq (Within.pure _)

theorem configures_addBridgeInterface : Configures (addBridgeInterface ext) := by
  refine (Configures.insert (by decide)).bind (fun iface => (Configures.set (by decide)).seq ?_)
  refine (Configures.set (by decide)).seq ((Configures.set (by decide)).seq ?_)
  exact (Configures.set (by decide)).seq (Within.pure _)

theorem configures_sysdConfigureDefaultBridge :
    Configures (sysdConfigureDefaultBridge ext u) := by
  refine (Configures.insert (by decide)).bind (fun bridge => ?_)
  refine (Configures.set (by decide)).seq ((Configures.set (by decide)).seq ?_)
  refine (configures_addBridgeInterface ext).bind (fun iface => ?_)
  refine (Configures.insert (by decide)).bind (fun port => ?_)
  exact (Configures.set (by decide)).seq ((Configures.set (by decide)).seq
    (Configures.set (by decide)))

theorem configures_sysdConfigureDefaultVrf : Configures (sysdConfigureDefaultVrf ext u) := by
  refine (Configures.insert (by decide)).bind (fun vrf => (Configures.set (by decide)).seq ?_)
  refine (Configures.set (by decide)).seq ((Configures.set (by decide)).seq ?_)
  exact Configures.get.bind (fun _ => Configures.set (by decide))

theorem configures_sysdUpdateSwInfo (osNameKey : CStr) (file : Option (List CStr)) :
    Configures (SoftwareInfo.sysdUpdateSwInfo osNameKey file u) := by
  unfold SoftwareInfo.sysdUpdateSwInfo
  cases file with
  | none => exact Within.pure _
  | some lines =>
    exact (Configures.setOpt _ (by decide)).seq (Configures.setOpt _ (by decide))

theorem configures_addDaemons (st : Startup) : Configures (addDaemons st u) := by
  refine Within.ite (Within.pure _) ?_
  exact (Within.mapM _ (fun _ _ => configures_sysdInitialDaemonAdd _)).bind
    (fun _ => Configures.set (by decide))

theorem configures_sysdInitialConfigure (st : Startup) (alloc : Allocations)
    (osRelease : Option (List CStr)) : Configures (sysdInitialConfigure st alloc osRelease) := by
  refine (Configures.insert (by decide)).bind (fun sys => (Within.deref _).bind (fun _ => ?_))
  refine (Configures.set (by decide)).seq ?_
  refine (configures_sysdConfigureDefaultBridge st.external sys).seq ?_
  refine (configures_sysdConfigureDefaultVrf st.external sys).seq ?_
  refine (Within.deref _).bind (fun base => (Configures.set (by decide)).seq ?_)
  refine (Configures.set (by decide)).seq (Within.ite (Within.pure _) ?_)
  refine (Within.mapM _ (fun _ _ => configures_sysdInitialSubsystemAdd _ _ _)).bind
    (fun ovsSubsys => (Configures.set (by decide)).seq (Within.ite (Within.pure _) ?_))
  refine (configures_addDaemons sys st).seq ?_
  refine (configures_sysdUpdateSwInfo sys _ _).seq ((Configures.set (by decide)).seq ?_)
  exact configures_initPolicies sys st

end Configuration

end OpsSysd.SysdRun
