import OpsSysd.ConfigureCore
import OpsSysd.Logged
import OpsSysd.QueueProfiles
import OpsSysd.ScheduleProfiles

/-!
The local arrays of the initial configuration and the calls they are passed to.
Each function that fills an array is written a second time with it; without the
reports it is the function itself. The functions that fill none are shared. A
store outside its array is a bad access.
-/

namespace OpsSysd.ArrayCalls

open CString Ovsdb Ovsrec Platform QosInit Logged
open InitialConfigure (Allocations SplitsFit shashFind)

/-- An array of `size` elements with the indices stored so far, and the count passed
with it to the setter of the column if that is reached. -/
structure ArrayCall where
  column : Column
  size : ℕ
  stores : List ℕ
  passed : Option ℕ

/-- Every store is inside the array, and every element passed has been stored. -/
def ArrayCall.InBounds (call : ArrayCall) : Prop :=
  (∀ i ∈ call.stores, i < call.size) ∧
    ∀ count, call.passed = some count → count ≤ call.size ∧ ∀ i < count, i ∈ call.stores

abbrev CallM := Logged ArrayCall (Idl schema) Fault

/-- An array that is filled from the front; an element that is not kept is stored too. -/
structure LocalArray (α : Type) (size : ℕ) where
  elements : List α
  stores : List ℕ
  inside : ∀ i ∈ stores, i < size
  stored : ∀ i < elements.length, i ∈ stores

section Arrays

variable {α β : Type} {size : ℕ}

namespace LocalArray

def empty (α : Type) (size : ℕ) : LocalArray α size :=
  ⟨[], [], fun _ hi => (List.not_mem_nil hi).elim, fun _ hi => (Nat.not_lt_zero _ hi).elim⟩

def store (array : LocalArray α size) (kept : Option α) (h : array.elements.length < size) :
    LocalArray α size where
  elements := array.elements ++ kept.toList
  stores := array.stores ++ [array.elements.length]
  inside := by
    intro i hi
    rcases List.mem_append.mp hi with hi | hi
    · exact array.inside i hi
    · rwa [List.mem_singleton.mp hi]
  stored := by
    intro i hi
    rw [List.length_append] at hi
    have hkept : kept.toList.length ≤ 1 := by cases kept <;> simp
    rcases Nat.lt_or_ge i array.elements.length with hlt | hge
    · exact List.mem_append_left _ (array.stored i hlt)
    · exact List.mem_append_right _ (List.mem_singleton.mpr (by omega))

theorem length_le (array : LocalArray α size) : array.elements.length ≤ size := by
  rcases Nat.eq_zero_or_pos array.elements.length with h | h
  · omega
  · have hlast := array.inside _ (array.stored (array.elements.length - 1) (by omega))
    omega

end LocalArray

def store (column : Column) (array : LocalArray α size) (kept : Option α) :
    CallM (LocalArray α size) :=
  if h : array.elements.length < size then return array.store kept h
  else do
    report ⟨column, size, array.stores ++ [array.elements.length], none⟩
    (deref none : OvsM _)

def pass (column : Column) (array : LocalArray α size) (count : ℕ) : CallM Unit :=
  report ⟨column, size, array.stores, some count⟩

/-- The loop that stores what `f` gives for each entry. -/
def storeAll (column : Column) (f : β → CallM α) :
    List β → LocalArray α size → CallM (LocalArray α size)
  | [], array => return array
  | b :: rest, array => do
    let a ← f b
    let array ← store column array (some a)
    storeAll column f rest array

/-- The address of one variable, passed as an array. -/
def passOne (column : Column) (value : α) : CallM Unit := do
  let array ← store column (.empty α 1) (some value)
  pass column array 1

/-- A copy of what is there with one more element. -/
def grow (column : Column) (old : List α) (new : α) : CallM (List α) := do
  let array ← storeAll column pure old (.empty α (old.length + 1))
  let array ← store column array (some new)
  pass column array (old.length + 1)
  return array.elements

end Arrays

section Functions

def insertRow (k : Table) : OvsM Uuid := txnInsert k

def sysdConfigureDefaultBridge (ext : External) (ovsRow : Uuid) : CallM Unit := do
  let bridge ← insertRow .bridge
  setCol bridge .bridgeName ext.defaultBridgeName
  passOne .systemBridges bridge
  setCol ovsRow .systemBridges [bridge]
  let iface ← InitialConfigure.addBridgeInterface ext
  let port ← insertRow .port
  setCol port .portName ext.defaultBridgeName
  passOne .portInterfaces iface
  setCol port .portInterfaces [iface]
  passOne .bridgePorts port
  setCol bridge .bridgePorts [port]

/-- `sizeof(table_id)`. -/
def sizeofTableId : ℕ := 8

def sysdConfigureDefaultVrf (ext : External) (ovsRow : Uuid) : CallM Unit := do
  let vrf ← insertRow .vrf
  setCol vrf .vrfName ext.defaultVrfName
  passOne .systemVrfs vrf
  setCol ovsRow .systemVrfs [vrf]
  let tableId ← store .vrfTableId (.empty ℤ 1) (some 0)
  pass .vrfTableId tableId sizeofTableId
  InitialConfigure.setVrfStatus ext vrf

def collectSubports (ports : List (CStr × Uuid)) :
    List CStr → LocalArray Uuid InitialConfigure.sysdMaxSplitPorts →
      CallM (LocalArray Uuid InitialConfigure.sysdMaxSplitPorts)
  | [], found => return found
  | name :: rest, found => do
    let found ← store .interfaceSplitChildren found (shashFind ports name)
    collectSubports ports rest found

def setSplitChildren (ports : List (CStr × Uuid)) (intf : YamlPort) (row : Uuid) : CallM Unit :=
  if intf.subports = [] then pure ()
  else do
    let children ← collectSubports ports intf.subports (.empty Uuid _)
    pass .interfaceSplitChildren children children.elements.length
    setCol row .interfaceSplitChildren children.elements

def sysdSetSplittablePortInfo (ovsIntf : List Uuid) (subsys : Subsystem) : CallM Unit := do
  let ports ← InitialConfigure.splitPorts (subsys.interfaces.zip ovsIntf)
  (subsys.interfaces.zip ovsIntf).forM (fun p => do
    InitialConfigure.setSplitParent ports p.1 p.2
    setSplitChildren ports p.1 p.2)

def sysdInitialSubsystemAdd (st : Startup) (alloc : Allocations) (subsys : Subsystem) :
    CallM Uuid := do
  let ovsSubsys ← InitialConfigure.addSubsystemRow st subsys
  if alloc.interfaces = false then return ovsSubsys
  else
    let ovsIntf ← storeAll .subsystemInterfaces
      (fun intf => InitialConfigure.sysdInitialInterfaceAdd st.external subsys intf)
      subsys.interfaces (.empty Uuid subsys.interfaces.length)
    sysdSetSplittablePortInfo ovsIntf.elements subsys
    setCol ovsSubsys .subsystemNextMacAddress (st.external.etherString subsys.nxtMacAddr)
    setCol ovsSubsys .subsystemMacsRemaining subsys.numFreeMacs
    pass .subsystemInterfaces ovsIntf subsys.interfaces.length
    setCol ovsSubsys .subsystemInterfaces ovsIntf.elements
    return ovsSubsys

def addDaemons (st : Startup) (sys : Uuid) : CallM Unit :=
  if st.manifest.daemons = [] then pure ()
  else do
    let ovsDaemons ← storeAll .systemDaemons
      (fun daemon => InitialConfigure.sysdInitialDaemonAdd daemon)
      st.manifest.daemons (.empty Uuid st.manifest.daemons.length)
    pass .systemDaemons ovsDaemons st.manifest.daemons.length
    setCol sys .systemDaemons ovsDaemons.elements

end Functions

section Profiles

variable (T : ProfileTables)

/-- The keys and the values are two arrays that are filled and passed together. -/
def insertEntry (profileRow : Uuid) (queueNum : ℤ) : CallM Uuid := do
  let queueRow ← insertRow T.entry
  let entries ← T.entries.get profileRow
  let entries ← grow T.entries.column entries (queueNum, queueRow)
  T.entries.set profileRow entries
  return queueRow

def findOrInsert (profileRow : Uuid) (queueNum : ℤ) : CallM Uuid := do
  match ← T.getEntry profileRow queueNum with
  | some queueRow => return queueRow
  | none => insertEntry T profileRow queueNum

def rowCommand (profileName : CStr) (queueNum : ℤ) (fill : Uuid → CallM Bool) : CallM Bool := do
  match ← T.getRow profileName with
  | none => return false
  | some profileRow =>
    let row ← findOrInsert T profileRow queueNum
    fill row

def fillAll {E : Type} (profileName : CStr) (key : E → ℤ) (fill : E → Uuid → CallM Bool)
    (entries : List (Option E)) : CallM Unit :=
  entries.forM (fun entry =>
    match entry with
    | none => pure ()
    | some e => do
      let _ ← rowCommand T profileName (key e) (fill e))

def clear (profileName : CStr) : CallM Unit := do
  T.command profileName
  let profileRow ← T.getRow profileName
  let profileRow ← (deref profileRow : OvsM _)
  pass T.entries.column (.empty (ℤ × Uuid) 0) 0
  T.entries.set profileRow []

def initProfiles (create : CStr → CallM Unit) (systemRow : Uuid) (info : Option YamlQosInfo) :
    CallM Unit := do
  match info with
  | none => return
  | some qosInfo =>
    let defaultName ← (deref qosInfo.defaultName : OvsM _)
    create defaultName
    match ← T.getRow defaultName with
    | none => return
    | some defaultProfile =>
      T.system.set systemRow (some defaultProfile)
      let factoryDefaultName ← (deref qosInfo.factoryDefaultName : OvsM _)
      create factoryDefaultName
      match ← T.getRow factoryDefaultName with
      | none => return
      | some factoryDefaultProfile =>
        passOne T.hwDefault.column true
        T.hwDefault.set factoryDefaultProfile [true]
        let entries ← T.entries.get factoryDefaultProfile
        entries.forM (fun p => do
          passOne T.entryHwDefault.column true
          T.entryHwDefault.set p.2 [true])

end Profiles

section Policies

def addLocalPriority (queueRow : Uuid) (localPriority : ℤ) : CallM Unit := do
  let priorities : List ℤ ← getCol queueRow .qProfileEntryLocalPriorities
  if localPriority ∈ priorities then return
  else
    let priorities ← grow .qProfileEntryLocalPriorities priorities localPriority
    setCol queueRow .qProfileEntryLocalPriorities priorities

def fillQueueRow (e : YamlQueueProfileEntry) (queueRow : Uuid) : CallM Bool := do
  addLocalPriority queueRow e.localPriority
  match e.description with
  | none => return true
  | some _ =>
    setCol queueRow .qProfileEntryDescription e.description
    return true

def qosQueueProfileCreateFactoryDefault (yaml : YamlPolicies) (defaultName : CStr) :
    CallM Unit := do
  queueProfileTables.command defaultName
  fillAll queueProfileTables defaultName queueGrouping.key fillQueueRow yaml.queueProfile

def qosInitQueueProfile (yaml : YamlPolicies) (systemRow : Uuid) : CallM Unit :=
  initProfiles queueProfileTables (qosQueueProfileCreateFactoryDefault yaml) systemRow
    yaml.qosInfo

/-- A strict queue gets no weight, passed as NULL. -/
def passWeight (strict algorithm : CStr) (weight : ℤ) : CallM Unit :=
  if algorithm = strict then pass .queueWeight (.empty ℤ 0) 0
  else passOne .queueWeight weight

def fillScheduleRow (strict : CStr) (e : YamlScheduleProfileEntry) (queueRow : Uuid) :
    CallM Bool := do
  let algorithm ← (deref e.algorithm : OvsM _)
  setCol queueRow .queueAlgorithm algorithm
  passWeight strict algorithm e.weight
  setCol queueRow .queueWeight (if algorithm = strict then [] else [e.weight])
  return true

def qosScheduleProfileCreateFactoryDefault (strict : CStr) (yaml : YamlPolicies)
    (defaultName : CStr) : CallM Unit := do
  clear scheduleProfileTables defaultName
  fillAll scheduleProfileTables defaultName (scheduleGrouping strict).key
    (fillScheduleRow strict) yaml.scheduleProfile

def qosInitScheduleProfile (strict : CStr) (yaml : YamlPolicies) (systemRow : Uuid) :
    CallM Unit :=
  initProfiles scheduleProfileTables (qosScheduleProfileCreateFactoryDefault strict yaml)
    systemRow yaml.qosInfo

/-- The rows are stored in one array, copied to another and passed. -/
def initMap (column : Column) (cols : MapColumns) (count : ℕ)
    (entries : List (Option YamlMapEntry)) (setEntries : List Uuid → OvsM Unit) :
    CallM Unit := do
  match entries.head?.join with
  | none => return
  | some _ =>
    let mapRows ← storeAll column (fun _ => insertRow cols.table) (List.range count)
      (.empty Uuid count)
    initDefaultMap cols entries mapRows.elements
    let valueList ← storeAll column pure mapRows.elements (.empty Uuid count)
    pass column valueList count
    setEntries valueList.elements

def qosInitCosMap (yaml : YamlPolicies) (systemRow : Uuid) : CallM Unit :=
  initMap .systemQosCosMapEntries cosMapColumns qosCosMapEntryCount yaml.cosMap
    (fun mapRows => setCol systemRow .systemQosCosMapEntries mapRows)

def qosInitDscpMap (yaml : YamlPolicies) (systemRow : Uuid) : CallM Unit :=
  initMap .systemQosDscpMapEntries dscpMapColumns qosDscpMapEntryCount yaml.dscpMap
    (fun mapRows => setCol systemRow .systemQosDscpMapEntries mapRows)

def initPolicies (st : Startup) (sys : Uuid) : CallM Unit := do
  qosInitTrust st.policies sys
  qosInitDscpMap st.policies sys
  qosInitCosMap st.policies sys
  qosInitQueueProfile st.policies sys
  qosInitScheduleProfile st.external.queueAlgorithmStrict st.policies sys
  aclInitLimits st.policies sys

end Policies

section Configure

variable (st : Startup) (alloc : Allocations) (osRelease : Option (List CStr))

def configureRest (sys : Uuid) : CallM Unit :=
  if alloc.daemons = false then return
  else do
    addDaemons st sys
    SoftwareInfo.sysdUpdateSwInfo st.external.softwareInfoOsName osRelease sys
    setCol sys .systemTimezone dfltTimezone
    initPolicies st sys

def configureSubsystems (sys : Uuid) : CallM Unit :=
  if alloc.subsystems = false then return
  else do
    let ovsSubsys ← storeAll .systemSubsystems (sysdInitialSubsystemAdd st alloc) st.subsystems
      (.empty Uuid st.subsystems.length)
    pass .systemSubsystems ovsSubsys st.subsystems.length
    setCol sys .systemSubsystems ovsSubsys.elements
    configureRest st alloc osRelease sys

def sysdInitialConfigure : CallM Unit := do
  let sys ← insertRow .system
  let mgmtIntf ← (deref st.manifest.mgmtIntf : OvsM _)
  setCol sys .systemMgmtIntf (datumFromSmap [(st.external.mgmtIntfMapName, mgmtIntf.name)])
  sysdConfigureDefaultBridge st.external sys
  sysdConfigureDefaultVrf st.external sys
  let base ← (deref st.subsystems.head? : OvsM _)
  setCol sys .systemManagementMac (st.external.etherString base.mgmtMacAddr)
  setCol sys .systemSystemMac (st.external.etherString base.systemMacAddr)
  configureSubsystems st alloc osRelease sys

end Configure

section Forget

variable {α β γ : Type} {size : ℕ} {column : Column}

theorem run_store_bind (column : Column) (array : LocalArray α size) (kept : Option α)
    (g : List α → OvsM β) :
    (run (store column array kept) >>= fun a => g a.elements) =
      if array.elements.length < size then g (array.elements ++ kept.toList) else deref none := by
  unfold store
  by_cases h : array.elements.length < size
  · rw [dif_pos h, if_pos h]
    rfl
  · rw [dif_neg h, if_neg h]
    rfl

theorem run_storeAll_bind (column : Column) (f : β → CallM α) (l : List β)
    (array : LocalArray α size) (h : array.elements.length + l.length ≤ size)
    (g : List α → OvsM γ) :
    (run (storeAll column f l array) >>= fun a => g a.elements) =
      l.mapM (fun b => run (f b)) >>= fun as => g (array.elements ++ as) := by
  induction l generalizing array with
  | nil =>
    rw [List.mapM_nil, pure_bind, List.append_nil]
    rfl
  | cons b rest ih =>
    rw [List.length_cons] at h
    have hlt : array.elements.length < size := by omega
    unfold storeAll
    rw [List.mapM_cons]
    simp only [run_bind, bind_assoc, pure_bind]
    refine bind_congr (fun a => ?_)
    have hstored : run (store column array (some a)) = pure (array.store (some a) hlt) := by
      unfold store
      rw [dif_pos hlt]
      rfl
    have helements : (array.store (some a) hlt).elements = array.elements ++ [a] := rfl
    have hroom : (array.store (some a) hlt).elements.length + rest.length ≤ size := by
      rw [helements, List.length_append, List.length_singleton]
      omega
    rw [hstored, pure_bind, ih _ hroom, helements]
    simp only [List.append_assoc, List.singleton_append]

theorem run_storeAll_empty (column : Column) (f : β → CallM α) (l : List β)
    (h : l.length ≤ size) (g : List α → OvsM γ) :
    (run (storeAll column f l (.empty α size)) >>= fun a => g a.elements) =
      l.mapM (fun b => run (f b)) >>= g :=
  run_storeAll_bind column f l (.empty α size) (by simpa [LocalArray.empty] using h) g

theorem run_copy_bind (column : Column) (l : List α) (h : l.length ≤ size) (g : List α → OvsM γ) :
    (run (storeAll column pure l (.empty α size)) >>= fun a => g a.elements) = g l := by
  have hmap : l.mapM (fun a => run (pure a : CallM α)) = (pure l : OvsM _) := by
    simp only [run_pure]
    exact (List.mapM_pure (f := id)).trans (by rw [List.map_id])
  rw [run_storeAll_empty column pure l h, hmap, pure_bind]

@[simp] theorem run_pass (array : LocalArray α size) (count : ℕ) :
    run (pass column array count) = pure () := rfl

@[simp] theorem run_passOne (value : α) : run (passOne column value) = pure () := rfl

@[simp] theorem run_grow (old : List α) (new : α) :
    run (grow column old new) = pure (old ++ [new]) := by
  have hrun : run (grow column old new) =
      run (storeAll column pure old (.empty α (old.length + 1))) >>= fun a =>
        run (store column a (some new)) >>= fun a => pure a.elements := by
    unfold grow
    simp only [run_bind, run_pass, pure_bind, run_pure]
  rw [hrun]
  simp only [run_store_bind column _ (some new) (fun l => (pure l : OvsM _))]
  rw [run_copy_bind column old (Nat.le_succ _) (fun l =>
    if l.length < old.length + 1 then (pure (l ++ (some new).toList) : OvsM _) else deref none),
    if_pos (Nat.lt_succ_self _)]
  rfl

@[simp] theorem run_sysdConfigureDefaultBridge (ext : External) (ovsRow : Uuid) :
    run (sysdConfigureDefaultBridge ext ovsRow) =
      InitialConfigure.sysdConfigureDefaultBridge ext ovsRow := by
  unfold sysdConfigureDefaultBridge
  simp only [run_bind, run_lift, run_passOne, pure_bind]
  rfl

@[simp] theorem run_sysdConfigureDefaultVrf (ext : External) (ovsRow : Uuid) :
    run (sysdConfigureDefaultVrf ext ovsRow) =
      InitialConfigure.sysdConfigureDefaultVrf ext ovsRow := by
  have hstore : run (store .vrfTableId (.empty ℤ 1) (some 0)) =
      pure ((LocalArray.empty ℤ 1).store (some 0) Nat.one_pos) := rfl
  unfold sysdConfigureDefaultVrf
  simp only [run_bind, run_lift, run_passOne, run_pass, hstore, pure_bind]
  rfl

theorem run_collectSubports_bind (ports : List (CStr × Uuid)) (names : List CStr)
    (found : LocalArray Uuid InitialConfigure.sysdMaxSplitPorts) (g : List Uuid → OvsM γ) :
    (run (collectSubports ports names found) >>= fun a => g a.elements) =
      InitialConfigure.collectSubports ports names found.elements >>= g := by
  induction names generalizing found with
  | nil => rfl
  | cons name rest ih =>
    unfold collectSubports InitialConfigure.collectSubports
    simp only [run_bind, bind_assoc, ih]
    rw [run_store_bind .interfaceSplitChildren found (shashFind ports name)
      (fun l => InitialConfigure.collectSubports ports rest l >>= g)]
    by_cases hlen : found.elements.length < InitialConfigure.sysdMaxSplitPorts
    · rw [if_pos hlen, if_pos hlen]
      cases shashFind ports name with
      | none => rw [Option.toList_none, List.append_nil]
      | some child => rfl
    · rw [if_neg hlen, if_neg hlen]
      rfl

@[simp] theorem run_setSplitChildren (ports : List (CStr × Uuid)) (intf : YamlPort) (row : Uuid) :
    run (setSplitChildren ports intf row) = InitialConfigure.setSplitChildren ports intf row := by
  unfold setSplitChildren InitialConfigure.setSplitChildren
  split_ifs
  · rfl
  · simp only [run_bind, run_lift, run_pass, pure_bind]
    exact run_collectSubports_bind ports intf.subports (.empty Uuid _)
      (fun children => setCol row .interfaceSplitChildren children)

@[simp] theorem run_sysdSetSplittablePortInfo (ovsIntf : List Uuid) (subsys : Subsystem) :
    run (sysdSetSplittablePortInfo ovsIntf subsys) =
      InitialConfigure.sysdSetSplittablePortInfo ovsIntf subsys := by
  unfold sysdSetSplittablePortInfo InitialConfigure.sysdSetSplittablePortInfo
  simp only [run_bind, run_lift, run_forM, run_setSplitChildren]

@[simp] theorem run_sysdInitialSubsystemAdd (st : Startup) (alloc : Allocations)
    (subsys : Subsystem) : run (sysdInitialSubsystemAdd st alloc subsys) =
      InitialConfigure.sysdInitialSubsystemAdd st alloc subsys := by
  unfold sysdInitialSubsystemAdd InitialConfigure.sysdInitialSubsystemAdd
  simp only [run_bind, run_lift]
  refine bind_congr (fun ovsSubsys => ?_)
  split_ifs
  · rfl
  · simp only [run_bind, run_lift, run_pass, pure_bind, run_sysdSetSplittablePortInfo]
    exact run_storeAll_empty .subsystemInterfaces _ subsys.interfaces le_rfl (fun ovsIntf => do
      InitialConfigure.sysdSetSplittablePortInfo ovsIntf subsys
      setCol ovsSubsys .subsystemNextMacAddress (st.external.etherString subsys.nxtMacAddr)
      setCol ovsSubsys .subsystemMacsRemaining subsys.numFreeMacs
      setCol ovsSubsys .subsystemInterfaces ovsIntf
      return ovsSubsys)

@[simp] theorem run_addDaemons (st : Startup) (sys : Uuid) :
    run (addDaemons st sys) = InitialConfigure.addDaemons st sys := by
  unfold addDaemons InitialConfigure.addDaemons
  split_ifs
  · rfl
  · simp only [run_bind, run_lift, run_pass, pure_bind]
    exact run_storeAll_empty .systemDaemons _ st.manifest.daemons le_rfl
      (fun ovsDaemons => setCol sys .systemDaemons ovsDaemons)

variable (T : ProfileTables)

@[simp] theorem run_insertEntry (profileRow : Uuid) (queueNum : ℤ) :
    run (insertEntry T profileRow queueNum) = T.insertEntry profileRow queueNum := by
  unfold insertEntry ProfileTables.insertEntry
  simp only [run_bind, run_lift, run_grow, pure_bind, run_pure]
  rfl

@[simp] theorem run_findOrInsert (profileRow : Uuid) (queueNum : ℤ) :
    run (findOrInsert T profileRow queueNum) = T.findOrInsert profileRow queueNum := by
  unfold findOrInsert ProfileTables.findOrInsert
  rw [run_bind, run_lift]
  refine bind_congr (fun row => ?_)
  cases row with
  | none => exact run_insertEntry T profileRow queueNum
  | some row => rfl

theorem run_rowCommand (profileName : CStr) (queueNum : ℤ) (fill : Uuid → CallM Bool) :
    run (rowCommand T profileName queueNum fill) =
      T.rowCommand profileName queueNum (fun row => run (fill row)) := by
  unfold rowCommand ProfileTables.rowCommand
  rw [run_bind, run_lift]
  refine bind_congr (fun row => ?_)
  cases row with
  | none => rfl
  | some row =>
    simp only [run_bind, run_findOrInsert]

theorem run_fillAll {E : Type} (profileName : CStr) (key : E → ℤ) (fill : E → Uuid → CallM Bool)
    (entries : List (Option E)) : run (fillAll T profileName key fill entries) =
      T.fillAll profileName key (fun e row => run (fill e row)) entries := by
  unfold fillAll ProfileTables.fillAll
  rw [run_forM]
  congr 1
  funext entry
  cases entry with
  | none => rfl
  | some e =>
    simp only [run_bind, run_rowCommand, run_pure]

@[simp] theorem run_clear (profileName : CStr) :
    run (clear T profileName) = T.clear profileName := by
  unfold clear ProfileTables.clear
  simp only [run_bind, run_lift, run_pass, pure_bind]

theorem run_initProfiles (create : CStr → CallM Unit) (systemRow : Uuid)
    (info : Option YamlQosInfo) : run (initProfiles T create systemRow info) =
      T.init (fun name => run (create name)) systemRow info := by
  cases info with
  | none => rfl
  | some info =>
    unfold initProfiles ProfileTables.init
    simp only [run_bind, run_lift]
    refine bind_congr (fun defaultName => bind_congr (fun _ => bind_congr (fun row => ?_)))
    cases row with
    | none => rfl
    | some row =>
      simp only [run_bind, run_lift]
      refine bind_congr (fun _ => bind_congr (fun factoryName => bind_congr (fun _ =>
        bind_congr (fun factoryRow => ?_))))
      cases factoryRow with
      | none => rfl
      | some factoryRow =>
        simp only [run_bind, run_lift, run_passOne, pure_bind, run_forM]

@[simp] theorem run_addLocalPriority (queueRow : Uuid) (localPriority : ℤ) :
    run (addLocalPriority queueRow localPriority) =
      QosInit.addLocalPriority queueRow localPriority := by
  unfold addLocalPriority QosInit.addLocalPriority
  rw [run_bind, run_lift]
  refine bind_congr (fun priorities => ?_)
  split_ifs
  · rfl
  · simp only [run_bind, run_lift, run_grow, pure_bind]

@[simp] theorem run_fillQueueRow (e : YamlQueueProfileEntry) (queueRow : Uuid) :
    run (fillQueueRow e queueRow) = QosInit.fillQueueRow e queueRow := by
  unfold fillQueueRow QosInit.fillQueueRow
  rw [run_bind, run_addLocalPriority]
  refine bind_congr (fun _ => ?_)
  cases e.description with
  | none => rfl
  | some description => simp only [run_bind, run_lift, run_pure]

@[simp] theorem run_qosInitQueueProfile (yaml : YamlPolicies) (systemRow : Uuid) :
    run (qosInitQueueProfile yaml systemRow) = QosInit.qosInitQueueProfile yaml systemRow := by
  have hcreate : ∀ name, run (qosQueueProfileCreateFactoryDefault yaml name) =
      QosInit.qosQueueProfileCreateFactoryDefault yaml name := by
    intro name
    rw [qosQueueProfileCreateFactoryDefault_eq]
    unfold qosQueueProfileCreateFactoryDefault
    simp only [run_bind, run_lift, run_fillAll, run_fillQueueRow]
  rw [qosInitQueueProfile_eq]
  unfold qosInitQueueProfile
  simp only [run_initProfiles, hcreate]

@[simp] theorem run_passWeight (strict algorithm : CStr) (weight : ℤ) :
    run (passWeight strict algorithm weight) = pure () := by
  unfold passWeight
  split_ifs <;> rfl

@[simp] theorem run_fillScheduleRow (strict : CStr) (e : YamlScheduleProfileEntry)
    (queueRow : Uuid) :
    run (fillScheduleRow strict e queueRow) = QosInit.fillScheduleRow strict e queueRow := by
  unfold fillScheduleRow QosInit.fillScheduleRow
  simp only [run_bind, run_lift, run_passWeight, pure_bind, run_pure]

@[simp] theorem run_qosInitScheduleProfile (strict : CStr) (yaml : YamlPolicies)
    (systemRow : Uuid) : run (qosInitScheduleProfile strict yaml systemRow) =
      QosInit.qosInitScheduleProfile strict yaml systemRow := by
  have hcreate : ∀ name, run (qosScheduleProfileCreateFactoryDefault strict yaml name) =
      QosInit.qosScheduleProfileCreateFactoryDefault strict yaml name := by
    intro name
    rw [qosScheduleProfileCreateFactoryDefault_eq]
    unfold qosScheduleProfileCreateFactoryDefault
    simp only [run_bind, run_clear, run_fillAll, run_fillScheduleRow]
  rw [qosInitScheduleProfile_eq]
  unfold qosInitScheduleProfile
  simp only [run_initProfiles, hcreate]

theorem run_initMap (column : Column) (cols : MapColumns) (count : ℕ)
    (entries : List (Option YamlMapEntry)) (setEntries : List Uuid → OvsM Unit) :
    run (initMap column cols count entries setEntries) =
      QosInit.initMap cols count entries setEntries := by
  unfold initMap QosInit.initMap
  cases entries.head?.join with
  | none => rfl
  | some first =>
    have hcopy : ∀ rows : LocalArray Uuid count,
        (run (storeAll column pure rows.elements (.empty Uuid count)) >>= fun a =>
          setEntries a.elements) = setEntries rows.elements :=
      fun rows => run_copy_bind column rows.elements rows.length_le setEntries
    simp only [run_bind, run_lift, run_pass, pure_bind, hcopy]
    exact run_storeAll_empty column _ (List.range count) (List.length_range).le
      (fun mapRows => do
        initDefaultMap cols entries mapRows
        setEntries mapRows)

@[simp] theorem run_initPolicies (st : Startup) (sys : Uuid) :
    run (initPolicies st sys) = InitialConfigure.initPolicies st sys := by
  unfold initPolicies InitialConfigure.initPolicies qosInitCosMap qosInitDscpMap
    QosInit.qosInitCosMap QosInit.qosInitDscpMap
  simp only [run_bind, run_lift, run_initMap, run_qosInitQueueProfile, run_qosInitScheduleProfile]

variable (st : Startup) (alloc : Allocations) (osRelease : Option (List CStr))

theorem run_configureSubsystems (sys : Uuid) : run (configureSubsystems st alloc osRelease sys) =
    InitialConfigure.configureSubsystems st alloc osRelease sys := by
  have hrest : run (configureRest st alloc osRelease sys) =
      InitialConfigure.configureRest st alloc osRelease sys := by
    unfold configureRest InitialConfigure.configureRest
    split_ifs
    · rfl
    · simp only [run_bind, run_lift, run_addDaemons, run_initPolicies]
  unfold configureSubsystems InitialConfigure.configureSubsystems
  split_ifs
  · rfl
  · have hrun := run_storeAll_empty .systemSubsystems (sysdInitialSubsystemAdd st alloc)
      st.subsystems le_rfl (fun ovsSubsys => do
        setCol sys .systemSubsystems ovsSubsys
        InitialConfigure.configureRest st alloc osRelease sys)
    simp only [run_sysdInitialSubsystemAdd] at hrun
    simp only [run_bind, run_lift, run_pass, pure_bind, hrest]
    exact hrun

theorem run_sysdInitialConfigure : run (sysdInitialConfigure st alloc osRelease) =
    InitialConfigure.sysdInitialConfigure st alloc osRelease := by
  rw [InitialConfigure.sysdInitialConfigure_eq]
  unfold sysdInitialConfigure
  simp only [run_bind, run_lift, run_sysdConfigureDefaultBridge, run_sysdConfigureDefaultVrf,
    run_configureSubsystems]
  rfl

end Forget

end OpsSysd.ArrayCalls
