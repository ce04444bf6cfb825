import OpsSysd.ConfigureCore
import Mathlib.Logic.Relation

/-!
The whole transaction of the initial configuration. It holds one row for each
thing the platform has, each row hangs on the System row by references of the
same transaction, and each interface hangs on exactly one row.
-/

namespace OpsSysd.InitialConfigure

open CString Ovsdb Ovsrec Platform QosInit

/-- A row carries the name, the switch unit and the switch interface id of a port. -/
structure PortRow (ext : External) (intf : YamlPort) (r : OvsRow) : Prop where
  name : r.col .interfaceName = intf.name
  switchUnit : smapGet (r.col .interfaceHwIntfInfo) ext.switchUnit = some (decimal intf.device)
  switchIntfId :
    smapGet (r.col .interfaceHwIntfInfo) ext.switchIntfId = some (decimal intf.devicePort)

structure DaemonRow (daemon : Manifest.DaemonInfo) (r : OvsRow) : Prop where
  name : r.col .daemonName = daemon.name
  curHw : r.col .daemonCurHw = daemon.curHw
  isHwHandler : r.col .daemonIsHwHandler = daemon.isHwHandler

/-- The rows that a row holds; the split columns only name rows that are held elsewhere. -/
def references (r : OvsRow) : List (Table × Uuid) :=
  match r.table with
  | .system =>
    (r.col .systemBridges).map (Prod.mk .bridge) ++ (r.col .systemVrfs).map (Prod.mk .vrf) ++
      (r.col .systemSubsystems).map (Prod.mk .subsystem) ++
      (r.col .systemDaemons).map (Prod.mk .daemon)
  | .subsystem => (r.col .subsystemInterfaces).map (Prod.mk .interface)
  | .bridge => (r.col .bridgePorts).map (Prod.mk .port)
  | .port => (r.col .portInterfaces).map (Prod.mk .interface)
  | _ => []

def Refers (db : List OvsRow) (r r' : OvsRow) : Prop :=
  r' ∈ db ∧ (r'.table, r'.uuid) ∈ references r

/-- The tables other than those of the policies. -/
def coreTables : List Table :=
  [.system, .subsystem, .interface, .bridge, .port, .vrf, .daemon]

/-- The rows of a complete and connected transaction. -/
structure Connected (ext : External) (subsys : Subsystem) (daemons : List Manifest.DaemonInfo)
    (db : List OvsRow) (system subsystem bridge iface port vrf : OvsRow)
    (intfs : List OvsRow) : Prop where
  systemRows : tableRows .system db = [system]
  subsystemRows : tableRows .subsystem db = [subsystem]
  bridgeRows : tableRows .bridge db = [bridge]
  portRows : tableRows .port db = [port]
  vrfRows : tableRows .vrf db = [vrf]
  interfaceRows : tableRows .interface db = iface :: intfs
  ports : List.Forall₂ (PortRow ext) subsys.interfaces intfs
  daemons : List.Forall₂ DaemonRow daemons (tableRows .daemon db)
  reachable : ∀ r ∈ db, r.table ∈ coreTables → Relation.ReflTransGen (Refers db) system r
  held : ∀ r ∈ tableRows .interface db,
    ((subsystem.col .subsystemInterfaces) ++ (port.col .portInterfaces)).count r.uuid = 1
  splitParent : ∀ r ∈ tableRows .interface db, ∀ u, r.col .interfaceSplitParent = some u →
    u ∈ subsystem.col .subsystemInterfaces
  splitChildren : ∀ r ∈ tableRows .interface db, ∀ u ∈ r.col .interfaceSplitChildren,
    u ∈ subsystem.col .subsystemInterfaces

/-- The configuration runs through and its transaction is complete and connected. -/
def BuildsConnected (st : Startup) (subsys : Subsystem) (osRelease : Option (List CStr))
    (s : Idl schema) : Prop :=
  ∃ s' t, sysdInitialConfigure st ⟨true, true, true⟩ osRelease s = .ok ((), s') ∧
    s'.txn = .opened t ∧ ∃ system subsystem bridge iface port vrf intfs,
      Connected st.external subsys st.manifest.daemons t.inserted system subsystem bridge iface
        port vrf intfs

/-- What the configuration needs: the management interface, a buffer for the speeds and
an array for the subports of each port, and the policies. -/
structure Configurable (st : Startup) (subsys : Subsystem) : Prop where
  mgmtIntf : st.manifest.mgmtIntf.isSome = true
  ports : PortsFit subsys
  policies : PoliciesGiven st.policies

section Connection

variable {st : Startup} {subsys : Subsystem} {sys sub bridge iface port vrf : Uuid}
  {intfs ds : List Uuid} {t : Txn schema} {client n : ℕ}

/-- The rows of the platform with its daemons. -/
structure CoreRows (st : Startup) (subsys : Subsystem) (db : List OvsRow)
    (system subsystem bridge iface port vrf : OvsRow) (intfs : List OvsRow) : Prop extends
    AssembledRows st subsys db system subsystem bridge iface port vrf intfs where
  systemDaemons : system.col .systemDaemons = (tableRows .daemon db).map Row.uuid
  daemons : List.Forall₂ (fun daemon r => ∀ c ∈ daemonCore, r.col c = daemonColumns daemon c)
    st.manifest.daemons (tableRows .daemon db)

theorem coreRows_of_assembled (hnum : t.Numbered client n)
    (h : Assembled st subsys sys sub bridge iface port vrf intfs t.cells)
    (hdaemons : DaemonsAdded st sys ds (Txn.empty : Txn schema).cells t.cells) :
    ∃ system subsystem bridge iface port vrf intfs,
      CoreRows st subsys t.inserted system subsystem bridge iface port vrf intfs := by
  obtain ⟨system, subsystem, bridge, iface, port, vrf, intfs, rfl, hrows⟩ :=
    assembledRows_of_assembled hnum h
  refine ⟨system, subsystem, bridge, iface, port, vrf, intfs, hrows, ?_, ?_⟩
  · have hmem : system ∈ tableRows .system t.inserted := by simp [hrows.systemRows]
    obtain ⟨hin, htable⟩ := mem_rowsOf.mp hmem
    have hcell : t.cells.value system.uuid Column.systemDaemons = system.col .systemDaemons :=
      hnum.value_of_mem hin htable.symm
    rw [← hcell, hdaemons.systemDaemons]
    exact (tableRows_of_cells hdaemons.daemonRows).symm
  · have hds : (tableRows .daemon t.inserted).map Row.uuid = ds :=
      tableRows_of_cells hdaemons.daemonRows
    have hcols := hdaemons.daemons
    rw [← hds] at hcols
    have hcols := List.forall₂_map_right_iff.mp hcols
    refine List.forall₂_iff_zip.mpr ⟨hcols.length_eq, fun {daemon r} hp c hc => ?_⟩
    have htable : ∀ c ∈ daemonCore, c.table = .daemon := by decide
    obtain ⟨hr, hk⟩ := mem_rowsOf.mp (List.of_mem_zip hp).2
    have hcell : t.cells.value r.uuid c = r.col c :=
      hnum.value_of_mem hr ((htable c hc).trans hk.symm)
    rw [← hcell]
    exact List.forall₂_zip hcols hp c hc

variable {db : List OvsRow} {system subsystem bridge iface port vrf : OvsRow}
  {intfs : List OvsRow}

/-- Every row of a core table hangs on the System row. -/
theorem CoreRows.reachable (h : CoreRows st subsys db system subsystem bridge iface port vrf intfs)
    {r : OvsRow} (hr : r ∈ db) (hcore : r.table ∈ coreTables) :
    Relation.ReflTransGen (Refers db) system r := by
  have hone : ∀ {k : Table} {q : OvsRow}, tableRows k db = [q] → q ∈ db ∧ q.table = k := by
    intro k q hq
    have hmem : q ∈ tableRows k db := by rw [hq]; exact List.mem_singleton_self q
    exact mem_rowsOf.mp hmem
  obtain ⟨hsysMem, hsysTable⟩ := hone h.systemRows
  obtain ⟨hsubMem, hsubTable⟩ := hone h.subsystemRows
  obtain ⟨hbridgeMem, hbridgeTable⟩ := hone h.bridgeRows
  obtain ⟨hportMem, hportTable⟩ := hone h.portRows
  obtain ⟨hvrfMem, hvrfTable⟩ := hone h.vrfRows
  have hbridge : Refers db system bridge :=
    ⟨hbridgeMem, by simp [references, hsysTable, h.bridges, hbridgeTable]⟩
  have hvrf : Refers db system vrf :=
    ⟨hvrfMem, by simp [references, hsysTable, h.vrfs, hvrfTable]⟩
  have hsub : Refers db system subsystem :=
    ⟨hsubMem, by simp [references, hsysTable, h.subsystems, hsubTable]⟩
  have hport : Refers db bridge port :=
    ⟨hportMem, by simp [references, hbridgeTable, h.bridgePorts, hportTable]⟩
  have hbridgePort := (Relation.ReflTransGen.single hbridge).tail hport
  have hrow : ∀ k, r.table = k → r ∈ tableRows k db := fun k hk => mem_rowsOf.mpr ⟨hr, hk⟩
  simp only [coreTables, List.mem_cons, List.not_mem_nil, or_false] at hcore
  rcases hcore with hk | hk | hk | hk | hk | hk | hk
  · have heq : r = system := by simpa [h.systemRows] using hrow _ hk
    rw [heq]
  · have heq : r = subsystem := by simpa [h.subsystemRows] using hrow _ hk
    rw [heq]
    exact .single hsub
  · have hin := hrow _ hk
    rw [h.interfaceRows] at hin
    rcases List.mem_cons.mp hin with rfl | hin
    · exact hbridgePort.tail ⟨hr, by simp [references, hportTable, h.portInterfaces, hk]⟩
    · refine (Relation.ReflTransGen.single hsub).tail ⟨hr, ?_⟩
      simp only [references, hsubTable, h.interfaces, hk]
      exact List.mem_map_of_mem (List.mem_map_of_mem hin)
  · have heq : r = bridge := by simpa [h.bridgeRows] using hrow _ hk
    rw [heq]
    exact .single hbridge
  · have heq : r = port := by simpa [h.portRows] using hrow _ hk
    rw [heq]
    exact hbridgePort
  · have heq : r = vrf := by simpa [h.vrfRows] using hrow _ hk
    rw [heq]
    exact .single hvrf
  · refine .single ⟨hr, ?_⟩
    simp only [references, hsysTable, h.systemDaemons, hk]
    exact List.mem_append_right _ (List.mem_map_of_mem (List.mem_map_of_mem (hrow _ hk)))

/-- What the index finds is held by the subsystem. -/
theorem CoreRows.mem_of_shashFind
    (h : CoreRows st subsys db system subsystem bridge iface port vrf intfs) {name : CStr}
    {u : Uuid} (hu : shashFind (splitIndex (subsys.interfaces.zip (intfs.map Row.uuid))) name =
      some u) : u ∈ subsystem.col .subsystemInterfaces := by
  obtain ⟨p, hp, rfl⟩ := List.mem_map.mp (InitialConfigure.mem_of_shashFind hu)
  rw [h.interfaces]
  exact (List.of_mem_zip hp).2

theorem CoreRows.connected (hkeys : External.KeysApart st.external)
    (h : CoreRows st subsys db system subsystem bridge iface port vrf intfs) :
    Connected st.external subsys st.manifest.daemons db system subsystem bridge iface port vrf
      intfs := by
  refine ⟨h.systemRows, h.subsystemRows, h.bridgeRows, h.portRows, h.vrfRows, h.interfaceRows,
    h.ports.imp ?_, h.daemons.imp ?_, fun r hr hcore => h.reachable hr hcore, ?_, ?_, ?_⟩
  · intro intf r hcols
    have hinfo : r.col .interfaceHwIntfInfo =
        datumFromSmap (portHwIntfInfo st.external subsys intf) :=
      hcols .interfaceHwIntfInfo (by decide)
    refine ⟨hcols .interfaceName (by decide), ?_, ?_⟩
    · rw [hinfo]
      exact smapGet_portHwIntfInfo hkeys (by simp [hwIntfInfoFixed])
    · rw [hinfo]
      exact smapGet_portHwIntfInfo hkeys (by simp [hwIntfInfoFixed])
  · intro daemon r hcols
    exact ⟨hcols .daemonName (by decide), hcols .daemonCurHw (by decide),
      hcols .daemonIsHwHandler (by decide)⟩
  · intro r hr
    rw [h.interfaceRows] at hr
    rw [h.interfaces, h.portInterfaces]
    have hperm : ((iface :: intfs).map Row.uuid).Perm (intfs.map Row.uuid ++ [iface.uuid]) :=
      (List.perm_append_singleton _ _).symm
    refine List.count_eq_one_of_mem (hperm.nodup_iff.mp h.distinct) (hperm.subset ?_)
    exact List.mem_map_of_mem hr
  · intro r hr u hu
    rw [h.interfaceRows] at hr
    rcases List.mem_cons.mp hr with rfl | hr
    · rw [h.splitParent] at hu
      cases hu
    · obtain ⟨intf, _, hcols⟩ := exists_of_forall₂ h.ports hr
      rw [hcols .interfaceSplitParent (by decide)] at hu
      obtain ⟨name, _, hname⟩ := Option.bind_eq_some_iff.mp hu
      exact h.mem_of_shashFind hname
  · intro r hr u hu
    rw [h.interfaceRows] at hr
    rcases List.mem_cons.mp hr with rfl | hr
    · rw [h.splitChildren] at hu
      cases hu
    · obtain ⟨intf, _, hcols⟩ := exists_of_forall₂ h.ports hr
      rw [hcols .interfaceSplitChildren (by decide)] at hu
      obtain ⟨name, _, hname⟩ := List.mem_filterMap.mp hu
      exact h.mem_of_shashFind hname

theorem coreRows_of_ok (hone : st.subsystems = [subsys]) {osRelease : Option (List CStr)}
    {s s' : Idl schema} (hs : Filling s (Txn.empty : Txn schema).cells)
    (hok : sysdInitialConfigure st ⟨true, true, true⟩ osRelease s = .ok ((), s')) :
    Configurable st subsys ∧ ∃ t, s'.txn = .opened t ∧ ∃ system subsystem bridge iface port vrf
      intfs, CoreRows st subsys t.inserted system subsystem bridge iface port vrf intfs := by
  obtain ⟨⟨hmgmt, hports, hpolicies⟩, C', hs', sys, sub, bridge, iface, port, vrf, intfs, h,
    hdaemons⟩ := (exactly_sysdInitialConfigure hone rfl rfl).of_ok hs hok
  obtain ⟨t, ht, rfl, hnum⟩ := hs'.opened
  obtain ⟨ds, hds⟩ := hdaemons rfl
  exact ⟨⟨hmgmt, hports, hpolicies rfl⟩, t, ht, coreRows_of_assembled hnum h hds⟩

/-- The transaction of the only subsystem is complete and connected exactly when
the configuration has what it dereferences. -/
theorem buildsConnected_iff {osRelease : Option (List CStr)} {s : Idl schema}
    (hone : st.subsystems = [subsys]) (hkeys : External.KeysApart st.external)
    (hs : s.txn = .opened .empty)
    (hreplica : ∀ r ∈ s.snapshot, schema.monitored r.table = true) :
    BuildsConnected st subsys osRelease s ↔ Configurable st subsys := by
  have hfill := filling_empty hs hreplica
  have hexactly : Exactly (Txn.empty : Txn schema).cells _
      (sysdInitialConfigure st ⟨true, true, true⟩ osRelease) _ :=
    exactly_sysdInitialConfigure hone rfl rfl
  constructor
  · rintro ⟨s', _, hok, _⟩
    exact (coreRows_of_ok hone hfill hok).1
  · intro hconf
    obtain ⟨u, s', _, hok, _⟩ := (hexactly s hfill).1
      ⟨hconf.mgmtIntf, hconf.ports, fun _ => hconf.policies⟩
    obtain ⟨_, t, ht, system, subsystem, bridge, iface, port, vrf, intfs, h⟩ :=
      coreRows_of_ok hone hfill hok
    exact ⟨s', t, hok, ht, system, subsystem, bridge, iface, port, vrf, intfs, h.connected hkeys⟩

end Connection

section Lanes

def laneKeys : External :=
  { (default : External) with
    pluggable := cstr "pluggable"
    connector := cstr "connector"
    maxSpeed := cstr "max_speed"
    speeds := cstr "speeds"
    switchUnit := cstr "switch_unit"
    switchIntfId := cstr "switch_intf_id"
    macAddr := cstr "mac_addr" }

def lane (name : CStr) : YamlPort :=
  ⟨name, true, cstr "QSFP_PLUS", 10000, [10000], 0, 1, [cstr "enet10G"], [], some (cstr "49")⟩

/-- Port 49 and the lanes it is split into. -/
def laneSubsystem (names : List CStr) : Subsystem :=
  ⟨cstr "base", ⟨54, 40000, 9192, 256, 8, 1⟩,
    ⟨cstr "49", true, cstr "QSFP_PLUS", 40000, [10000, 40000], 0, 1, [], names, none⟩ ::
      names.map lane, .zero, 0, 0, 0, 0⟩

def lanePlatform (names : List CStr) : Startup where
  external := laneKeys
  manifest := ⟨[⟨cstr "ops-fand", true, 0⟩], 1, 1, some ⟨0, cstr "eth0"⟩, true⟩
  counted := ⟨rfl, rfl⟩
  hwDescDir := cstr "/etc/openswitch/hwdesc"
  subsystems := [laneSubsystem names]
  policies := ⟨none, [], [], [], [], some ⟨512, 1024, 1024⟩⟩

/-- Before the configuration of an empty database. -/
def laneOpened : Idl schema :=
  ⟨1, 0, [], .opened .empty, 1, true, false, fun _ => ⟨[], .success, [], true, false, false⟩, 1, []⟩

def fourLanes : List CStr := [cstr "49-1", cstr "49-2", cstr "49-3", cstr "49-4"]

theorem policiesGiven_lanePlatform (names : List CStr) :
    PoliciesGiven (lanePlatform names).policies where
  dscpMap h := (h rfl).elim
  cosMap h := (h rfl).elim
  queueProfiles := by simp [ProfilesGiven, lanePlatform]
  scheduleProfiles := by simp [ProfilesGiven, lanePlatform]
  aclInfo := rfl

theorem buildsConnected_fourLanes :
    BuildsConnected (lanePlatform fourLanes) (laneSubsystem fourLanes) none laneOpened :=
  (buildsConnected_iff rfl (by decide) rfl (by simp [laneOpened])).mpr
    ⟨rfl, by decide, policiesGiven_lanePlatform _⟩

/-- A fifth lane is stored past the end of the array. -/
theorem not_buildsConnected_fiveLanes :
    ¬ ∀ st subsys osRelease s, st.subsystems = [subsys] → External.KeysApart st.external →
      s.txn = .opened .empty → (∀ r ∈ s.snapshot, schema.monitored r.table = true) →
        BuildsConnected st subsys osRelease s := by
  intro h
  obtain ⟨s', _, hok, _⟩ := h (lanePlatform (fourLanes ++ [cstr "49-5"]))
    (laneSubsystem (fourLanes ++ [cstr "49-5"])) none laneOpened rfl (by decide) rfl
    (by simp [laneOpened])
  have hfits : SplitsFit (laneSubsystem (fourLanes ++ [cstr "49-5"])) :=
    (coreRows_of_ok rfl (filling_empty rfl (by simp [laneOpened])) hok).1.ports.splits
  exact absurd hfits (by decide)

end Lanes

end OpsSysd.InitialConfigure
