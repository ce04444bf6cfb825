import OpsSysd.Datum
import OpsSysd.Decimal
import OpsSysd.QosRows

/-!
What the transaction of the initial configuration holds apart from the policies,
whichever of its allocations succeed.
-/

namespace OpsSysd.InitialConfigure

open CString Ovsdb Ovsrec Platform QosInit

/-- The keys of the interface map differ. -/
def External.KeysApart (ext : External) : Prop :=
  [ext.pluggable, ext.connector, ext.maxSpeed, ext.speeds, ext.switchUnit, ext.switchIntfId,
    ext.macAddr].Nodup

instance (ext : External) : Decidable (External.KeysApart ext) :=
  inferInstanceAs (Decidable (List.Nodup _))

section HwIntfInfo

theorem not_true_lt_cons {c : UInt8} {rest : CStr} (hc : c.toNat < 116) :
    ¬ cstr "true" < c :: rest := by
  have htrue : cstr "true" = 116 :: cstr "rue" := by decide
  have h116 : (116 : UInt8).toNat = 116 := rfl
  rw [htrue, List.cons_lt_cons_iff]
  rintro (h | ⟨rfl, _⟩)
  · have hnat : (116 : UInt8).toNat < c.toNat := UInt8.lt_iff_toNat_lt.mp h
    omega
  · omega

/-- A number sorts before the word that marks a capability. -/
theorem not_true_lt_decimal (n : ℤ) : ¬ cstr "true" < decimal n := by
  unfold decimal
  split_ifs with hn
  · exact not_true_lt_cons (by decide)
  · obtain ⟨c, rest, hc⟩ := List.exists_cons_of_ne_nil (decimalNat_ne_nil n.natAbs)
    have hlt : c.toNat < 58 := (mem_decimalNat (by rw [hc]; exact List.mem_cons_self ..)).2
    rw [hc]
    exact not_true_lt_cons (by omega)

variable {ext : External} {subsys : Subsystem} {intf : YamlPort}

/-- The entries with fixed keys. -/
def hwIntfInfoFixed (ext : External) (intf : YamlPort) : Smap :=
  [(ext.pluggable, if intf.pluggable then ext.pluggableTrue else ext.pluggableFalse),
    (ext.connector, intf.connector), (ext.maxSpeed, decimal intf.maxSpeed),
    (ext.speeds, (SpeedsString.stored intf.speeds).flatten), (ext.switchUnit, decimal intf.device),
    (ext.switchIntfId, decimal intf.devicePort)]

theorem mem_portHwIntfInfo {k w : CStr} : (k, w) ∈ portHwIntfInfo ext subsys intf ↔
    (k, w) ∈ hwIntfInfoFixed ext intf ∨ (k ∈ intf.capabilities ∧ w = cstr "true") ∨
      (subsys.systemMacAddr ≠ 0 ∧ k = ext.macAddr ∧ w = ext.etherString subsys.systemMacAddr) := by
  have hcap : (k, w) ∈ intf.capabilities.map (fun cap => (cap, cstr "true")) ↔
      k ∈ intf.capabilities ∧ w = cstr "true" := by
    simp only [List.mem_map, Prod.mk.injEq]
    constructor
    · rintro ⟨cap, hcap, rfl, rfl⟩
      exact ⟨hcap, rfl⟩
    · rintro ⟨hk, rfl⟩
      exact ⟨k, hk, rfl, rfl⟩
  unfold portHwIntfInfo hwIntfInfo
  by_cases hmac : subsys.systemMacAddr = 0
  · rw [if_neg (by simpa using hmac), List.mem_append, hcap]
    simp [hmac, hwIntfInfoFixed]
  · rw [if_pos hmac, smapAdd, List.mem_append, List.mem_append, hcap]
    simp [hmac, hwIntfInfoFixed, or_assoc]

/-- A number that the map holds under a fixed key. -/
theorem smapGet_portHwIntfInfo (hkeys : External.KeysApart ext) {k : CStr} {n : ℤ}
    (hfixed : (k, decimal n) ∈ hwIntfInfoFixed ext intf) :
    smapGet (datumFromSmap (portHwIntfInfo ext subsys intf)) k = some (decimal n) := by
  have hnodup : ((hwIntfInfoFixed ext intf).map Prod.fst ++ [ext.macAddr]).Nodup := hkeys
  obtain ⟨hfst, _, hmac⟩ := List.nodup_append.mp hnodup
  apply smapGet_datumFromSmap_of_mem (mem_portHwIntfInfo.mpr (.inl hfixed))
  intro w hw
  rcases mem_portHwIntfInfo.mp hw with hw | ⟨_, rfl⟩ | ⟨_, rfl, _⟩
  · have heq : w = decimal n :=
      congrArg Prod.snd (List.inj_on_of_nodup_map hfst hw hfixed rfl)
    rw [heq]
    exact List.lt_irrefl _
  · exact not_true_lt_decimal n
  · exact absurd rfl (hmac _ (List.mem_map_of_mem hfixed) _ (List.mem_singleton_self _))

end HwIntfInfo

section Parts

variable (st : Startup) (alloc : Allocations) (osRelease : Option (List CStr)) (sys : Uuid)

/-- The configuration from the daemons on. -/
def configureRest : OvsM Unit :=
  if alloc.daemons = false then return
  else do
    addDaemons st sys
    SoftwareInfo.sysdUpdateSwInfo st.external.softwareInfoOsName osRelease sys
    setCol sys .systemTimezone dfltTimezone
    initPolicies st sys

/-- The configuration from the subsystems on. -/
def configureSubsystems : OvsM Unit :=
  if alloc.subsystems = false then return
  else do
    let ovsSubsys ← st.subsystems.mapM (sysdInitialSubsystemAdd st alloc)
    setCol sys .systemSubsystems ovsSubsys
    configureRest st alloc osRelease sys

theorem sysdInitialConfigure_eq : sysdInitialConfigure st alloc osRelease = (do
    let sys ← txnInsert .system
    let mgmtIntf ← deref st.manifest.mgmtIntf
    setCol sys .systemMgmtIntf (datumFromSmap [(st.external.mgmtIntfMapName, mgmtIntf.name)])
    sysdConfigureDefaultBridge st.external sys
    sysdConfigureDefaultVrf st.external sys
    let base ← deref st.subsystems.head?
    setCol sys .systemManagementMac (st.external.etherString base.mgmtMacAddr)
    setCol sys .systemSystemMac (st.external.etherString base.systemMacAddr)
    configureSubsystems st alloc osRelease sys) := rfl

end Parts

section Cells

variable {st : Startup} {alloc : Allocations} {osRelease : Option (List CStr)}
  {subsys : Subsystem} {sys sub bridge iface port vrf : Uuid} {intfs : List Uuid}
  {C C' : Cells schema}

/-- The System row alone. -/
structure Started (mgmtIntf : Smap) (sys : Uuid) (C : Cells schema) : Prop where
  systemRows : C.rows Table.system = [sys]
  empty : ∀ k, k ≠ Table.system → C.rows k = []
  systemDaemons : C.value sys Column.systemDaemons = []
  mgmtIntf : C.value sys Column.systemMgmtIntf = mgmtIntf

theorem started_insert (sys : Uuid) (mgmtIntf : Smap) :
    Started mgmtIntf sys (((Txn.empty : Txn schema).cells.insert Table.system sys).write sys
      Column.systemMgmtIntf mgmtIntf) := by
  refine ⟨rfl, fun k hk => ?_, ?_, Cells.write_value⟩
  · rw [Cells.write_rows, Cells.insert_rows_of_ne hk]
    rfl
  · rw [Cells.write_value_of_column_ne (by decide)]
    rfl

/-- What the management interface of the System row and the default rows say. -/
structure Defaults (st : Startup) (sys bridge iface port vrf : Uuid) (C : Cells schema) :
    Prop where
  mgmtIntf : ∀ mgmtIntf, st.manifest.mgmtIntf = some mgmtIntf →
    C.value sys Column.systemMgmtIntf =
      datumFromSmap [(st.external.mgmtIntfMapName, mgmtIntf.name)]
  bridge : BridgeDefaults st.external bridge iface port C
  vrf : VrfDefaults st.external vrf C

def defaultColumns : List Column :=
  [.systemMgmtIntf, .bridgeName, .interfaceName, .interfaceType, .interfaceUserConfig, .portName,
    .vrfName, .vrfTableId, .vrfStatus]

theorem BridgeDefaults.congr {ext : External} (h : BridgeDefaults ext bridge iface port C)
    (hvalue : ∀ u ∈ [bridge, iface, port], ∀ c ∈ defaultColumns, C'.value u c = C.value u c) :
    BridgeDefaults ext bridge iface port C' := by
  constructor
  · rw [hvalue bridge (by simp) _ (by decide), h.bridgeName]
  · rw [hvalue iface (by simp) _ (by decide), h.interfaceName]
  · rw [hvalue iface (by simp) _ (by decide), h.interfaceType]
  · rw [hvalue iface (by simp) _ (by decide), h.userConfig]
  · rw [hvalue port (by simp) _ (by decide), h.portName]

theorem VrfDefaults.congr {ext : External} (h : VrfDefaults ext vrf C)
    (hvalue : ∀ c ∈ defaultColumns, C'.value vrf c = C.value vrf c) :
    VrfDefaults ext vrf C' := by
  constructor
  · rw [hvalue _ (by decide), h.name]
  · rw [hvalue _ (by decide), h.tableId]
  · rw [hvalue _ (by decide), h.status]

theorem BridgeDefaults.extends {ext : External} {T : List Table} {L : List Column}
    (h : BridgeDefaults ext bridge iface port C) (hext : C.Extends T L C')
    (hL : ∀ c ∈ defaultColumns, c ∉ L) (hbridge : bridge ∈ C.rows Table.bridge)
    (hiface : iface ∈ C.rows Table.interface) (hport : port ∈ C.rows Table.port) :
    BridgeDefaults ext bridge iface port C' := by
  refine h.congr (fun u hu c hc => ?_)
  simp only [List.mem_cons, List.not_mem_nil, or_false] at hu
  rcases hu with rfl | rfl | rfl
  · exact hext.value _ _ hbridge c (hL c hc)
  · exact hext.value _ _ hiface c (hL c hc)
  · exact hext.value _ _ hport c (hL c hc)

/-- Changes outside the default columns of rows that are there. -/
theorem Defaults.extends {T : List Table} {L : List Column}
    (h : Defaults st sys bridge iface port vrf C) (hext : C.Extends T L C')
    (hL : ∀ c ∈ defaultColumns, c ∉ L) (hsys : sys ∈ C.rows Table.system)
    (hbridge : bridge ∈ C.rows Table.bridge) (hiface : iface ∈ C.rows Table.interface)
    (hport : port ∈ C.rows Table.port) (hvrf : vrf ∈ C.rows Table.vrf) :
    Defaults st sys bridge iface port vrf C' := by
  refine ⟨fun mgmtIntf hm => ?_, h.bridge.extends hext hL hbridge hiface hport,
    h.vrf.congr (fun c hc => hext.value _ _ hvrf c (hL c hc))⟩
  rw [hext.value _ _ hsys _ (hL _ (by decide)), h.mgmtIntf mgmtIntf hm]

/-- The rows of the System row, the bridge and the VRF, with both addresses. -/
structure Based (st : Startup) (subsys : Subsystem) (sys bridge iface port vrf : Uuid)
    (C : Cells schema) : Prop where
  systemRows : C.rows Table.system = [sys]
  bridgeRows : C.rows Table.bridge = [bridge]
  portRows : C.rows Table.port = [port]
  vrfRows : C.rows Table.vrf = [vrf]
  interfaceRows : C.rows Table.interface = [iface]
  empty : ∀ k, k ∉ [Table.system, .bridge, .port, .vrf, .interface] → C.rows k = []
  bridges : C.value sys Column.systemBridges = [bridge]
  vrfs : C.value sys Column.systemVrfs = [vrf]
  systemDaemons : C.value sys Column.systemDaemons = []
  bridgePorts : C.value bridge Column.bridgePorts = [port]
  portInterfaces : C.value port Column.portInterfaces = [iface]
  hwIntfInfo : C.value iface Column.interfaceHwIntfInfo =
    datumFromSmap [(st.external.bridge, st.external.bridgeTrue)]
  splitParent : C.value iface Column.interfaceSplitParent = none
  splitChildren : C.value iface Column.interfaceSplitChildren = []
  managementMac :
    C.value sys Column.systemManagementMac = st.external.etherString subsys.mgmtMacAddr
  systemMac : C.value sys Column.systemSystemMac = st.external.etherString subsys.systemMacAddr
  defaults : Defaults st sys bridge iface port vrf C

theorem Based.of_steps {C₃ C₄ : Cells schema} {mgmtIntf : Manifest.MgmtIntf}
    (hmgmt : st.manifest.mgmtIntf = some mgmtIntf)
    (h : Started (datumFromSmap [(st.external.mgmtIntfMapName, mgmtIntf.name)]) sys C)
    (h₃ : BridgeAdded st.external sys C bridge iface port C₃)
    (h₄ : C₃.Extends [Table.vrf] [Column.systemVrfs] C₄)
    (hvrf : C₄.rows Table.vrf = C₃.rows Table.vrf ++ [vrf])
    (hvrfs : C₄.value sys Column.systemVrfs = [vrf]) (hnew : VrfDefaults st.external vrf C₄) :
    Based st subsys sys bridge iface port vrf ((C₄.write sys Column.systemManagementMac
      (st.external.etherString subsys.mgmtMacAddr)).write sys Column.systemSystemMac
        (st.external.etherString subsys.systemMacAddr)) := by
  obtain ⟨hsystem, hempty, hinit, hintf⟩ := h
  have hsys : sys ∈ C.rows Table.system := by simp [hsystem]
  have hsys₃ := h₃.keeps.kept _ _ hsys
  have hbridge₃ : C₃.rows Table.bridge = [bridge] := by
    rw [h₃.bridgeRows, hempty _ (by decide)]
    rfl
  have hport₃ : C₃.rows Table.port = [port] := by
    rw [h₃.portRows, hempty _ (by decide)]
    rfl
  have hiface₃ : C₃.rows Table.interface = [iface] := by
    rw [h₃.interfaceRows, hempty _ (by decide)]
    rfl
  have hkeeps : C₃.Extends [Table.vrf] [Column.systemVrfs, Column.systemManagementMac,
      Column.systemSystemMac] ((C₄.write sys Column.systemManagementMac
        (st.external.etherString subsys.mgmtMacAddr)).write sys Column.systemSystemMac
          (st.external.etherString subsys.systemMacAddr)) :=
    (((Cells.Extends.refl C₃).step h₄ (by decide) (by decide)).write (by decide) sys _).write
      (by decide) sys _
  constructor
  · rw [hkeeps.same _ (by decide), h₃.keeps.same _ (by decide), hsystem]
  · rw [hkeeps.same _ (by decide), hbridge₃]
  · rw [hkeeps.same _ (by decide), hport₃]
  · show C₄.rows Table.vrf = _
    rw [hvrf, h₃.keeps.same _ (by decide), hempty _ (by decide)]
    rfl
  · rw [hkeeps.same _ (by decide), hiface₃]
  · intro k hk
    simp only [List.mem_cons, List.not_mem_nil, or_false, not_or] at hk
    rw [hkeeps.same k (by simp [hk]), h₃.keeps.same k (by simp [hk]), hempty k hk.1]
  · rw [hkeeps.value _ _ hsys₃ _ (by decide), h₃.bridges]
  · rw [Cells.write_value_of_column_ne (by decide), Cells.write_value_of_column_ne (by decide),
      hvrfs]
  · rw [hkeeps.value _ _ hsys₃ _ (by decide), h₃.keeps.value _ _ hsys _ (by decide), hinit]
  · rw [hkeeps.value Table.bridge _ (by simp [hbridge₃]) _ (by decide), h₃.ports]
  · rw [hkeeps.value Table.port _ (by simp [hport₃]) _ (by decide), h₃.interfaces]
  · rw [hkeeps.value Table.interface _ (by simp [hiface₃]) _ (by decide), h₃.hwIntfInfo]
  · rw [hkeeps.value Table.interface _ (by simp [hiface₃]) _ (by decide), h₃.splitParent]
  · rw [hkeeps.value Table.interface _ (by simp [hiface₃]) _ (by decide), h₃.splitChildren]
  · rw [Cells.write_value_of_column_ne (by decide)]
    exact Cells.write_value
  · exact Cells.write_value
  · refine ⟨fun m hm => ?_, h₃.defaults.extends hkeeps (by decide) (by simp [hbridge₃])
      (by simp [hiface₃]) (by simp [hport₃]), hnew.congr (fun c hc => ?_)⟩
    · obtain rfl : mgmtIntf = m := Option.some.inj (hmgmt.symm.trans hm)
      rw [hkeeps.value _ _ hsys₃ _ (by decide), h₃.keeps.value _ _ hsys _ (by decide), hintf]
    · have hcols : ∀ c ∈ defaultColumns, c ≠ Column.systemSystemMac ∧
          c ≠ Column.systemManagementMac := by decide
      rw [Cells.write_value_of_column_ne (hcols c hc).1,
        Cells.write_value_of_column_ne (hcols c hc).2]

theorem exactly_based {p : Prop} {Q : Unit → Cells schema → Prop}
    (hbase : st.subsystems.head? = some subsys)
    (hrest : ∀ sys bridge iface port vrf C, Based st subsys sys bridge iface port vrf C →
      Exactly C p (configureSubsystems st alloc osRelease sys) Q) :
    Exactly (Txn.empty : Txn schema).cells (st.manifest.mgmtIntf.isSome = true ∧ p)
      (sysdInitialConfigure st alloc osRelease) Q := by
  have hcond : (∃ mgmtIntf, st.manifest.mgmtIntf = some mgmtIntf ∧
      ∃ base, st.subsystems.head? = some base ∧ p) ↔
        st.manifest.mgmtIntf.isSome = true ∧ p := by
    simp [hbase, Option.isSome_iff_exists]
  rw [sysdInitialConfigure_eq]
  refine Exactly.congr ?_ hcond
  refine exactly_insert (fun sys hsys => Exactly.deref (fun mgmtIntf hmgmt => ?_))
  refine exactly_setCol Cells.mem_insert_self ?_
  have h₂ := started_insert sys (datumFromSmap [(st.external.mgmtIntfMapName, mgmtIntf.name)])
  generalize ((Txn.empty : Txn schema).cells.insert Table.system sys).write sys
    Column.systemMgmtIntf _ = C₂ at h₂ ⊢
  have hsys₂ : sys ∈ C₂.rows Table.system := by simp [h₂.systemRows]
  refine (always_sysdConfigureDefaultBridge st.external hsys₂).seq (fun _ C₃ h₃ => ?_)
  obtain ⟨bridge, iface, port, h₃⟩ := h₃
  have hsys₃ := h₃.keeps.kept _ _ hsys₂
  refine (always_sysdConfigureDefaultVrf st.external hsys₃).seq (fun _ C₄ h₄ => ?_)
  obtain ⟨h₄, vrf, hvrf, hvrfs, hnew⟩ := h₄
  have hsys₄ := h₄.kept _ _ hsys₃
  refine Exactly.deref (fun base hbase' => ?_)
  obtain rfl : base = subsys := Option.some.inj (hbase'.symm.trans hbase)
  exact exactly_setCol hsys₄ (exactly_setCol hsys₄ (hrest sys bridge iface port vrf _
    (.of_steps hmgmt h₂ h₃ h₄ hvrf hvrfs hnew)))

/-- The columns that describe the assembled rows. -/
def assembledColumns : List Column :=
  [.systemBridges, .systemVrfs, .systemSubsystems, .systemManagementMac, .systemSystemMac,
    .subsystemNextMacAddress, .subsystemMacsRemaining, .subsystemInterfaces, .interfaceName,
    .interfaceAdminState, .interfaceHwIntfInfo, .interfaceSplitParent, .interfaceSplitChildren,
    .bridgePorts, .portInterfaces] ++ defaultColumns

def assembledTables : List Table := [.system, .subsystem, .interface, .bridge, .port, .vrf]

def interfaceCore : List Column :=
  [.interfaceName, .interfaceType, .interfaceAdminState, .interfaceHwIntfInfo,
    .interfaceSplitParent, .interfaceSplitChildren]

def daemonCore : List Column := [.daemonName, .daemonCurHw, .daemonIsHwHandler]

/-- The platform without its daemons. -/
structure Assembled (st : Startup) (subsys : Subsystem) (sys sub bridge iface port vrf : Uuid)
    (intfs : List Uuid) (C : Cells schema) : Prop where
  systemRows : C.rows Table.system = [sys]
  subsystemRows : C.rows Table.subsystem = [sub]
  bridgeRows : C.rows Table.bridge = [bridge]
  portRows : C.rows Table.port = [port]
  vrfRows : C.rows Table.vrf = [vrf]
  interfaceRows : C.rows Table.interface = iface :: intfs
  distinct : (iface :: intfs).Nodup
  bridges : C.value sys Column.systemBridges = [bridge]
  vrfs : C.value sys Column.systemVrfs = [vrf]
  subsystems : C.value sys Column.systemSubsystems = [sub]
  interfaces : C.value sub Column.subsystemInterfaces = intfs
  bridgePorts : C.value bridge Column.bridgePorts = [port]
  portInterfaces : C.value port Column.portInterfaces = [iface]
  hwIntfInfo : C.value iface Column.interfaceHwIntfInfo =
    datumFromSmap [(st.external.bridge, st.external.bridgeTrue)]
  splitParent : C.value iface Column.interfaceSplitParent = none
  splitChildren : C.value iface Column.interfaceSplitChildren = []
  ports : List.Forall₂ (fun intf u => ∀ c ∈ interfaceCore, C.value u c = portColumns st.external
    subsys (splitIndex (subsys.interfaces.zip intfs)) intf c) subsys.interfaces intfs
  managementMac :
    C.value sys Column.systemManagementMac = st.external.etherString subsys.mgmtMacAddr
  systemMac : C.value sys Column.systemSystemMac = st.external.etherString subsys.systemMacAddr
  nextMacAddress :
    C.value sub Column.subsystemNextMacAddress = st.external.etherString subsys.nxtMacAddr
  macsRemaining : C.value sub Column.subsystemMacsRemaining = subsys.numFreeMacs
  defaults : Defaults st sys bridge iface port vrf C

/-- A change outside the assembled tables and columns. -/
theorem Assembled.extends {T : List Table} {L : List Column}
    (h : Assembled st subsys sys sub bridge iface port vrf intfs C) (hext : Cells.Extends T L C C')
    (hT : ∀ k ∈ assembledTables, k ∉ T) (hL : ∀ c ∈ assembledColumns, c ∉ L) :
    Assembled st subsys sys sub bridge iface port vrf intfs C' := by
  have hrows : ∀ k ∈ assembledTables, C'.rows k = C.rows k := fun k hk => hext.same k (hT k hk)
  have hvalue : ∀ k u, u ∈ C.rows k → ∀ c ∈ assembledColumns, C'.value u c = C.value u c :=
    fun k u hu c hc => hext.value k u hu c (hL c hc)
  have hsys : sys ∈ C.rows Table.system := by simp [h.systemRows]
  have hsub : sub ∈ C.rows Table.subsystem := by simp [h.subsystemRows]
  have hiface : iface ∈ C.rows Table.interface := by simp [h.interfaceRows]
  refine ⟨?_, ?_, ?_, ?_, ?_, ?_, h.distinct, ?_, ?_, ?_, ?_, ?_, ?_, ?_, ?_, ?_, ?_, ?_, ?_, ?_,
    ?_, ?_⟩
  · exact (hrows _ (by decide)).trans h.systemRows
  · exact (hrows _ (by decide)).trans h.subsystemRows
  · exact (hrows _ (by decide)).trans h.bridgeRows
  · exact (hrows _ (by decide)).trans h.portRows
  · exact (hrows _ (by decide)).trans h.vrfRows
  · exact (hrows _ (by decide)).trans h.interfaceRows
  · exact (hvalue _ _ hsys _ (by decide)).trans h.bridges
  · exact (hvalue _ _ hsys _ (by decide)).trans h.vrfs
  · exact (hvalue _ _ hsys _ (by decide)).trans h.subsystems
  · exact (hvalue _ _ hsub _ (by decide)).trans h.interfaces
  · exact (hvalue Table.bridge _ (by simp [h.bridgeRows]) _ (by decide)).trans h.bridgePorts
  · exact (hvalue Table.port _ (by simp [h.portRows]) _ (by decide)).trans h.portInterfaces
  · exact (hvalue _ _ hiface _ (by decide)).trans h.hwIntfInfo
  · exact (hvalue _ _ hiface _ (by decide)).trans h.splitParent
  · exact (hvalue _ _ hiface _ (by decide)).trans h.splitChildren
  · obtain ⟨hlength, hzip⟩ := List.forall₂_iff_zip.mp h.ports
    refine List.forall₂_iff_zip.mpr ⟨hlength, fun {intf u} hp c hc => ?_⟩
    have hu : u ∈ C.rows Table.interface := by simp [h.interfaceRows, (List.of_mem_zip hp).2]
    have hcore : ∀ c ∈ interfaceCore, c ∈ assembledColumns := by decide
    exact (hvalue _ u hu c (hcore c hc)).trans (hzip hp c hc)
  · exact (hvalue _ _ hsys _ (by decide)).trans h.managementMac
  · exact (hvalue _ _ hsys _ (by decide)).trans h.systemMac
  · exact (hvalue _ _ hsub _ (by decide)).trans h.nextMacAddress
  · exact (hvalue _ _ hsub _ (by decide)).trans h.macsRemaining
  · exact h.defaults.extends hext (fun c hc => hL c (List.mem_append_right _ hc)) hsys
      (by simp [h.bridgeRows]) hiface (by simp [h.portRows]) (by simp [h.vrfRows])

theorem Assembled.of_steps (h : Based st subsys sys bridge iface port vrf C)
    (h' : SubsystemAdded st.external subsys C sub intfs C') :
    Assembled st subsys sys sub bridge iface port vrf intfs
      (C'.write sys Column.systemSubsystems [sub]) := by
  have hall : C.Extends [Table.subsystem, Table.interface] [Column.systemSubsystems]
      (C'.write sys Column.systemSubsystems [sub]) :=
    ((Cells.Extends.refl C).step h'.keeps (by decide) (by decide)).write (by decide) sys _
  have hsys : sys ∈ C.rows Table.system := by simp [h.systemRows]
  have hiface : iface ∈ C.rows Table.interface := by simp [h.interfaceRows]
  refine ⟨?_, ?_, ?_, ?_, ?_, ?_, ?_, ?_, ?_, Cells.write_value, ?_, ?_, ?_, ?_, ?_, ?_, ?_, ?_,
    ?_, ?_, ?_, ?_⟩
  · rw [hall.same _ (by decide), h.systemRows]
  · rw [Cells.write_rows, h'.subsystemRows, h.empty _ (by decide)]
    rfl
  · rw [hall.same _ (by decide), h.bridgeRows]
  · rw [hall.same _ (by decide), h.portRows]
  · rw [hall.same _ (by decide), h.vrfRows]
  · rw [Cells.write_rows, h'.interfaceRows, h.interfaceRows]
    rfl
  · exact List.nodup_cons.mpr ⟨fun hmem => h'.new iface hmem _ hiface, h'.distinct⟩
  · rw [hall.value _ _ hsys _ (by decide), h.bridges]
  · rw [hall.value _ _ hsys _ (by decide), h.vrfs]
  · rw [Cells.write_value_of_column_ne (by decide), h'.interfaces]
  · rw [hall.value Table.bridge _ (by simp [h.bridgeRows]) _ (by decide), h.bridgePorts]
  · rw [hall.value Table.port _ (by simp [h.portRows]) _ (by decide), h.portInterfaces]
  · rw [hall.value _ _ hiface _ (by decide), h.hwIntfInfo]
  · rw [hall.value _ _ hiface _ (by decide), h.splitParent]
  · rw [hall.value _ _ hiface _ (by decide), h.splitChildren]
  · refine h'.ports.imp (fun intf u hu c hc => ?_)
    have hcore : ∀ c ∈ interfaceCore, c ≠ Column.systemSubsystems := by decide
    rw [Cells.write_value_of_column_ne (hcore c hc), hu]
  · rw [hall.value _ _ hsys _ (by decide), h.managementMac]
  · rw [hall.value _ _ hsys _ (by decide), h.systemMac]
  · rw [Cells.write_value_of_column_ne (by decide), h'.nextMacAddress]
  · rw [Cells.write_value_of_column_ne (by decide), h'.macsRemaining]
  · exact h.defaults.extends hall (by decide) hsys (by simp [h.bridgeRows]) hiface
      (by simp [h.portRows]) (by simp [h.vrfRows])

/-- The daemons of the manifest have rows, which the System row holds. -/
structure DaemonsAdded (st : Startup) (sys : Uuid) (ds : List Uuid) (C C' : Cells schema) :
    Prop where
  daemonRows : C'.rows Table.daemon = C.rows Table.daemon ++ ds
  systemDaemons : C'.value sys Column.systemDaemons = ds
  daemons : List.Forall₂ (fun daemon u => ∀ c ∈ daemonCore, C'.value u c = daemonColumns daemon c)
    st.manifest.daemons ds

def restTables : List Table := .daemon :: policyTables

def restColumns : List Column :=
  [.systemDaemons, .systemSoftwareInfo, .systemSwitchVersion, .systemTimezone] ++ policyColumns

/-- The software information, the time zone and the policies leave the daemons alone. -/
theorem DaemonsAdded.extends {C₀ : Cells schema} {ds : List Uuid}
    (hsys : sys ∈ C.rows Table.system) (h : DaemonsAdded st sys ds C₀ C)
    (hext : C.Extends policyTables ([Column.systemSoftwareInfo, Column.systemSwitchVersion,
      Column.systemTimezone] ++ policyColumns) C') : DaemonsAdded st sys ds C₀ C' := by
  refine ⟨?_, ?_, ?_⟩
  · rw [hext.same _ (by decide), h.daemonRows]
  · rw [hext.value _ _ hsys _ (by decide), h.systemDaemons]
  · obtain ⟨hlength, hzip⟩ := List.forall₂_iff_zip.mp h.daemons
    refine List.forall₂_iff_zip.mpr ⟨hlength, fun {daemon u} hp c hc => ?_⟩
    have hu : u ∈ C.rows Table.daemon := by
      rw [h.daemonRows]
      exact List.mem_append_right _ (List.of_mem_zip hp).2
    have hcore : ∀ c ∈ daemonCore, c ∉ [Column.systemSoftwareInfo, Column.systemSwitchVersion,
        Column.systemTimezone] ++ policyColumns := by decide
    rw [hext.value _ u hu c (hcore c hc), hzip hp c hc]

theorem exactly_configureRest (hsys : sys ∈ C.rows Table.system)
    (hinit : C.value sys Column.systemDaemons = [])
    (hempty : ∀ T ∈ profileTables, C.rows T.profile = []) :
    Exactly C (alloc.daemons = true → PoliciesGiven st.policies)
      (configureRest st alloc osRelease sys) (fun _ C' => C.Extends restTables restColumns C' ∧
        (alloc.daemons = true → ∃ ds, DaemonsAdded st sys ds C C')) := by
  unfold configureRest
  cases hdaemons : alloc.daemons with
  | false =>
    rw [if_pos rfl]
    exact Exactly.congr (p := True) (.pure ⟨.refl C, fun h => by cases h⟩) (by simp)
  | true =>
    rw [if_neg (by decide)]
    refine Exactly.congr (p := PoliciesGiven st.policies) ?_ (by simp)
    refine (always_addDaemons st hsys hinit).seq (fun _ C₁ h₁ => ?_)
    obtain ⟨hkeeps, ds, hrows, hsystemDaemons, hcols⟩ := h₁
    have hadded : DaemonsAdded st sys ds C C₁ :=
      ⟨hrows, hsystemDaemons, hcols.imp (fun _ _ hcol c _ => congrFun hcol c)⟩
    have hsys₁ := hkeeps.kept _ _ hsys
    refine (always_sysdUpdateSwInfo _ osRelease hsys₁).seq (fun _ C₂ h₂ => ?_)
    refine exactly_setCol (h₂.kept _ _ hsys₁) ?_
    have hwritten : C₁.Extends policyTables ([Column.systemSoftwareInfo,
        Column.systemSwitchVersion, Column.systemTimezone] ++ policyColumns)
          (C₂.write sys Column.systemTimezone dfltTimezone) :=
      ((Cells.Extends.refl C₁).step h₂ (by decide) (by decide)).write (by decide) sys _
    have hprofile : ∀ T ∈ profileTables, T.profile ≠ Table.daemon := by decide
    have hpolicy : PolicyInv (C₂.write sys Column.systemTimezone dfltTimezone)
        (C₂.write sys Column.systemTimezone dfltTimezone) := by
      refine ⟨.refl _, fun T hT u hu => ?_⟩
      rw [Cells.write_rows, h₂.same _ (by simp),
        hkeeps.same _ (by simpa using hprofile T hT), hempty T hT] at hu
      cases hu
    refine (exactly_initPolicies st hpolicy (h₂.kept _ _ hsys₁)).mono (fun _ C₄ h₄ => ?_)
    have hafter := hwritten.step h₄.keeps (List.Subset.refl _) (by decide)
    exact ⟨(((Cells.Extends.refl C).step hkeeps (by decide) (by decide)).step hafter
      (by decide) (by decide)), fun _ => ⟨ds, hadded.extends hsys₁ hafter⟩⟩

theorem profile_apart : ∀ T ∈ profileTables, T.profile ∉ [Table.subsystem, .interface] ∧
    T.profile ∉ [Table.system, .bridge, .port, .vrf, .interface] := by decide

/-- Once the Subsystem row is listed the rest runs, whatever the row holds. -/
theorem exactly_configureRest_listed (h : Based st subsys sys bridge iface port vrf C)
    {C₁ : Cells schema} (hkeeps : C.Extends [Table.subsystem, Table.interface] [] C₁)
    (sub : Uuid) :
    Exactly C₁ (alloc.daemons = true → PoliciesGiven st.policies)
      (do setCol sys .systemSubsystems [sub]; configureRest st alloc osRelease sys)
      (fun _ C' => (C₁.write sys Column.systemSubsystems [sub]).Extends restTables restColumns C' ∧
        (alloc.daemons = true →
          ∃ ds, DaemonsAdded st sys ds (C₁.write sys Column.systemSubsystems [sub]) C')) := by
  have hsys : sys ∈ C.rows Table.system := by simp [h.systemRows]
  refine exactly_setCol (hkeeps.kept _ _ hsys) (exactly_configureRest ?_ ?_ ?_)
  · exact hkeeps.kept _ _ hsys
  · rw [Cells.write_value_of_column_ne (by decide), hkeeps.value _ _ hsys _ (by decide),
      h.systemDaemons]
  · intro T hT
    have hapart := profile_apart T hT
    rw [Cells.write_rows, hkeeps.same _ hapart.1, h.empty _ hapart.2]

/-- With the arrays allocated the platform is assembled, and then the rest runs. -/
theorem exactly_sysdInitialConfigure (hone : st.subsystems = [subsys])
    (hsubsystems : alloc.subsystems = true) (hinterfaces : alloc.interfaces = true) :
    Exactly (Txn.empty : Txn schema).cells (st.manifest.mgmtIntf.isSome = true ∧
        PortsFit subsys ∧ (alloc.daemons = true → PoliciesGiven st.policies))
      (sysdInitialConfigure st alloc osRelease) (fun _ C' =>
        ∃ sys sub bridge iface port vrf intfs,
          Assembled st subsys sys sub bridge iface port vrf intfs C' ∧
            (alloc.daemons = true → ∃ ds, DaemonsAdded st sys ds (Txn.empty : Txn schema).cells C'))
    := by
  refine exactly_based (by rw [hone]; rfl) (fun sys bridge iface port vrf C h => ?_)
  unfold configureSubsystems
  rw [if_neg (by simp [hsubsystems]), hone, List.mapM_cons, List.mapM_nil, bind_assoc]
  refine (exactly_sysdInitialSubsystemAdd st hinterfaces subsys).bind (fun sub C₁ h₁ => ?_)
  obtain ⟨intfs, h₁⟩ := h₁
  rw [pure_bind, pure_bind]
  refine (exactly_configureRest_listed h h₁.keeps sub).mono (fun _ C₂ h₂ => ?_)
  refine ⟨sys, sub, bridge, iface, port, vrf, intfs,
    (Assembled.of_steps h h₁).extends h₂.1 (by decide) (by decide), fun hdaemons => ?_⟩
  obtain ⟨ds, hds⟩ := h₂.2 hdaemons
  refine ⟨ds, ?_, hds.systemDaemons, hds.daemons⟩
  rw [hds.daemonRows, Cells.write_rows, h₁.keeps.same _ (by decide), h.empty _ (by decide)]
  rfl

/-- Without the array of subsystems there is no Subsystem row. -/
theorem exactly_sysdInitialConfigure_bare (hbase : st.subsystems.head? = some subsys)
    (hsubsystems : alloc.subsystems = false) :
    Exactly (Txn.empty : Txn schema).cells (st.manifest.mgmtIntf.isSome = true ∧ True)
      (sysdInitialConfigure st alloc osRelease)
      (fun _ C' => C'.rows Table.subsystem = [] ∧ ∃ sys, C'.rows Table.system = [sys]) := by
  refine exactly_based hbase (fun sys bridge iface port vrf C h => ?_)
  unfold configureSubsystems
  rw [if_pos hsubsystems]
  exact .pure ⟨h.empty _ (by decide), sys, h.systemRows⟩

/-- Without the array of interfaces the pool is not written. -/
theorem exactly_sysdInitialConfigure_header (hone : st.subsystems = [subsys])
    (hsubsystems : alloc.subsystems = true) (hinterfaces : alloc.interfaces = false) :
    Exactly (Txn.empty : Txn schema).cells (st.manifest.mgmtIntf.isSome = true ∧
        (alloc.daemons = true → PoliciesGiven st.policies))
      (sysdInitialConfigure st alloc osRelease) (fun _ C' => (∃ sub,
        C'.rows Table.subsystem = [sub] ∧ C'.value sub Column.subsystemNextMacAddress = []) ∧
          ∃ sys, C'.rows Table.system = [sys]) := by
  refine exactly_based (by rw [hone]; rfl) (fun sys bridge iface port vrf C h => ?_)
  unfold configureSubsystems
  rw [if_neg (by simp [hsubsystems]), hone, List.mapM_cons, List.mapM_nil, bind_assoc]
  refine (always_sysdInitialSubsystemAdd_header st hinterfaces subsys).seq (fun sub C₁ h₁ => ?_)
  obtain ⟨hkeeps, hrows, hnext⟩ := h₁
  rw [pure_bind, pure_bind]
  refine (exactly_configureRest_listed h hkeeps sub).mono
    (fun _ C₂ h₂ => ⟨⟨sub, ?_, ?_⟩, sys, ?_⟩)
  · rw [h₂.1.same _ (by decide), Cells.write_rows, hrows, Cells.insert_rows,
      h.empty _ (by decide)]
    rfl
  · have hsub : sub ∈ (C₁.write sys Column.systemSubsystems [sub]).rows Table.subsystem := by
      rw [Cells.write_rows, hrows]
      exact Cells.mem_insert_self
    rw [h₂.1.value _ _ hsub _ (by decide), Cells.write_value_of_column_ne (by decide), hnext]
  · rw [h₂.1.same _ (by decide), Cells.write_rows, hkeeps.same _ (by decide), h.systemRows]

end Cells

section Rows

variable {st : Startup} {alloc : Allocations} {osRelease : Option (List CStr)}
  {subsys : Subsystem} {sys sub bridge iface port vrf : Uuid} {intfs : List Uuid}
  {t : Txn schema} {client n : ℕ}

theorem exists_of_forall₂ {α β : Type} {R : α → β → Prop} {l : List α} {us : List β}
    (h : List.Forall₂ R l us) {u : β} (hu : u ∈ us) : ∃ a ∈ l, R a u := by
  induction h with
  | nil => cases hu
  | cons hab _ ih =>
    rcases List.mem_cons.mp hu with rfl | hu
    · exact ⟨_, List.mem_cons_self .., hab⟩
    · obtain ⟨a, ha, hR⟩ := ih hu
      exact ⟨a, List.mem_cons_of_mem _ ha, hR⟩

/-- The inserted rows of a table, where the identities are known. -/
theorem tableRows_of_cells {k : Table} {us : List Uuid} (h : t.cells.rows k = us) :
    (tableRows k t.inserted).map Row.uuid = us := h

theorem tableRows_singleton {k : Table} {u : Uuid} (h : t.cells.rows k = [u]) :
    ∃ r, tableRows k t.inserted = [r] ∧ r.uuid = u ∧ r ∈ t.inserted ∧ r.table = k := by
  obtain ⟨r, hr, hu⟩ := List.map_eq_singleton_iff.mp (tableRows_of_cells h)
  have hmem : r ∈ tableRows k t.inserted := by simp [hr]
  exact ⟨r, hr, hu, mem_rowsOf.mp hmem⟩

/-- The management interface of the System row and the default rows. -/
structure DefaultRows (st : Startup) (system bridge iface port vrf : OvsRow) : Prop where
  mgmtIntf : ∀ mgmtIntf, st.manifest.mgmtIntf = some mgmtIntf →
    system.col .systemMgmtIntf = datumFromSmap [(st.external.mgmtIntfMapName, mgmtIntf.name)]
  bridgeName : bridge.col .bridgeName = st.external.defaultBridgeName
  interfaceName : iface.col .interfaceName = st.external.defaultBridgeName
  interfaceType : iface.col .interfaceType = st.external.interfaceTypeInternal
  userConfig : iface.col .interfaceUserConfig =
    datumFromSmap [(st.external.userConfigAdmin, st.external.userConfigAdminUp)]
  portName : port.col .portName = st.external.defaultBridgeName
  vrfName : vrf.col .vrfName = st.external.defaultVrfName
  vrfTableId : vrf.col .vrfTableId = 0 :: st.external.afterTableId
  vrfStatus : vrf.col .vrfStatus =
    datumFromSmap [(st.external.vrfStatusKey, st.external.vrfStatusValue)]

/-- The rows of the platform without its daemons, and the columns that describe them. -/
structure AssembledRows (st : Startup) (subsys : Subsystem) (db : List OvsRow)
    (system subsystem bridge iface port vrf : OvsRow) (intfs : List OvsRow) : Prop where
  systemRows : tableRows .system db = [system]
  subsystemRows : tableRows .subsystem db = [subsystem]
  bridgeRows : tableRows .bridge db = [bridge]
  portRows : tableRows .port db = [port]
  vrfRows : tableRows .vrf db = [vrf]
  interfaceRows : tableRows .interface db = iface :: intfs
  distinct : ((iface :: intfs).map Row.uuid).Nodup
  bridges : system.col .systemBridges = [bridge.uuid]
  vrfs : system.col .systemVrfs = [vrf.uuid]
  subsystems : system.col .systemSubsystems = [subsystem.uuid]
  interfaces : subsystem.col .subsystemInterfaces = intfs.map Row.uuid
  bridgePorts : bridge.col .bridgePorts = [port.uuid]
  portInterfaces : port.col .portInterfaces = [iface.uuid]
  hwIntfInfo : iface.col .interfaceHwIntfInfo =
    datumFromSmap [(st.external.bridge, st.external.bridgeTrue)]
  splitParent : iface.col .interfaceSplitParent = none
  splitChildren : iface.col .interfaceSplitChildren = []
  ports : List.Forall₂ (fun intf r => ∀ c ∈ interfaceCore, r.col c = portColumns st.external subsys
    (splitIndex (subsys.interfaces.zip (intfs.map Row.uuid))) intf c) subsys.interfaces intfs
  managementMac : system.col .systemManagementMac = st.external.etherString subsys.mgmtMacAddr
  systemMac : system.col .systemSystemMac = st.external.etherString subsys.systemMacAddr
  nextMacAddress :
    subsystem.col .subsystemNextMacAddress = st.external.etherString subsys.nxtMacAddr
  macsRemaining : subsystem.col .subsystemMacsRemaining = subsys.numFreeMacs
  defaults : DefaultRows st system bridge iface port vrf

/-- What is read of an inserted row is what it holds. -/
theorem assembledRows_of_assembled (hnum : t.Numbered client n)
    (h : Assembled st subsys sys sub bridge iface port vrf intfs t.cells) :
    ∃ system subsystem bridge iface port vrf intfs, system.uuid = sys ∧
      AssembledRows st subsys t.inserted system subsystem bridge iface port vrf intfs := by
  have hcol : ∀ r ∈ t.inserted, ∀ c : Column, c.table = r.table →
      r.col c = t.cells.value r.uuid c :=
    fun r hr c hc => (hnum.value_of_mem hr hc).symm
  obtain ⟨system, hsystem, rfl, hsysMem, hsysTable⟩ := tableRows_singleton h.systemRows
  obtain ⟨subsystem, hsubsystem, rfl, hsubMem, hsubTable⟩ := tableRows_singleton h.subsystemRows
  obtain ⟨bridge, hbridge, rfl, hbridgeMem, hbridgeTable⟩ := tableRows_singleton h.bridgeRows
  obtain ⟨port, hport, rfl, hportMem, hportTable⟩ := tableRows_singleton h.portRows
  obtain ⟨vrf, hvrf, rfl, hvrfMem, hvrfTable⟩ := tableRows_singleton h.vrfRows
  obtain ⟨iface, intfRows, hinterfaces, rfl, rfl⟩ :=
    List.map_eq_cons_iff.mp (tableRows_of_cells h.interfaceRows)
  have hintf : ∀ r ∈ iface :: intfRows, ∀ c : Column, c.table = .interface →
      r.col c = t.cells.value r.uuid c := by
    intro r hr c hc
    rw [← hinterfaces] at hr
    obtain ⟨hin, hk⟩ := mem_rowsOf.mp hr
    exact hcol r hin c (hc.trans hk.symm)
  have hports := List.forall₂_map_right_iff.mp h.ports
  refine ⟨system, subsystem, bridge, iface, port, vrf, intfRows, rfl, hsystem, hsubsystem,
    hbridge, hport, hvrf, hinterfaces, h.distinct, ?_, ?_, ?_, ?_, ?_, ?_, ?_, ?_, ?_, ?_, ?_, ?_,
    ?_, ?_, ?_⟩
  · exact (hcol system hsysMem .systemBridges hsysTable.symm).trans h.bridges
  · exact (hcol system hsysMem .systemVrfs hsysTable.symm).trans h.vrfs
  · exact (hcol system hsysMem .systemSubsystems hsysTable.symm).trans h.subsystems
  · exact (hcol subsystem hsubMem .subsystemInterfaces hsubTable.symm).trans h.interfaces
  · exact (hcol bridge hbridgeMem .bridgePorts hbridgeTable.symm).trans h.bridgePorts
  · exact (hcol port hportMem .portInterfaces hportTable.symm).trans h.portInterfaces
  · exact (hintf iface (by simp) .interfaceHwIntfInfo rfl).trans h.hwIntfInfo
  · exact (hintf iface (by simp) .interfaceSplitParent rfl).trans h.splitParent
  · exact (hintf iface (by simp) .interfaceSplitChildren rfl).trans h.splitChildren
  · refine List.forall₂_iff_zip.mpr ⟨hports.length_eq, fun {intf r} hp c hc => ?_⟩
    have htable : ∀ c ∈ interfaceCore, c.table = .interface := by decide
    have hr : r ∈ iface :: intfRows := List.mem_cons_of_mem _ (List.of_mem_zip hp).2
    exact (hintf r hr c (htable c hc)).trans (List.forall₂_zip hports hp c hc)
  · exact (hcol system hsysMem .systemManagementMac hsysTable.symm).trans h.managementMac
  · exact (hcol system hsysMem .systemSystemMac hsysTable.symm).trans h.systemMac
  · exact (hcol subsystem hsubMem .subsystemNextMacAddress hsubTable.symm).trans h.nextMacAddress
  · exact (hcol subsystem hsubMem .subsystemMacsRemaining hsubTable.symm).trans h.macsRemaining
  · obtain ⟨hmgmt, hbridge, hvrf⟩ := h.defaults
    refine ⟨fun m hm => ?_, ?_, ?_, ?_, ?_, ?_, ?_, ?_, ?_⟩
    · exact (hcol system hsysMem .systemMgmtIntf hsysTable.symm).trans (hmgmt m hm)
    · exact (hcol bridge hbridgeMem .bridgeName hbridgeTable.symm).trans hbridge.bridgeName
    · exact (hintf iface (by simp) .interfaceName rfl).trans hbridge.interfaceName
    · exact (hintf iface (by simp) .interfaceType rfl).trans hbridge.interfaceType
    · exact (hintf iface (by simp) .interfaceUserConfig rfl).trans hbridge.userConfig
    · exact (hcol port hportMem .portName hportTable.symm).trans hbridge.portName
    · exact (hcol vrf hvrfMem .vrfName hvrfTable.symm).trans hvrf.name
    · exact (hcol vrf hvrfMem .vrfTableId hvrfTable.symm).trans hvrf.tableId
    · exact (hcol vrf hvrfMem .vrfStatus hvrfTable.symm).trans hvrf.status

theorem filling_empty {s : Idl schema} (hs : s.txn = .opened .empty)
    (hreplica : ∀ r ∈ s.snapshot, schema.monitored r.table = true) :
    Filling s (Txn.empty : Txn schema).cells := by
  have hnone : (Txn.empty : Txn schema).inserted = [] := rfl
  exact ⟨⟨.empty, hs, rfl, by simp [hnone], by simp [hnone]⟩, hreplica⟩

/-- The configuration inserts one System row, whichever allocations succeed. -/
theorem systemRow_of_ok (hone : st.subsystems = [subsys]) {s s' : Idl schema}
    (hs : Filling s (Txn.empty : Txn schema).cells)
    (hok : sysdInitialConfigure st alloc osRelease s = .ok ((), s')) (ht : s'.txn = .opened t) :
    ∃ r, tableRows .system t.inserted = [r] := by
  have hsystem : ∃ C', Filling s' C' ∧ ∃ sys, C'.rows Table.system = [sys] := by
    cases hsubsystems : alloc.subsystems with
    | false =>
      obtain ⟨_, C', hs', _, hsys⟩ :=
        (exactly_sysdInitialConfigure_bare (by rw [hone]; rfl) hsubsystems).of_ok hs hok
      exact ⟨C', hs', hsys⟩
    | true =>
      cases hinterfaces : alloc.interfaces with
      | false =>
        obtain ⟨_, C', hs', _, hsys⟩ :=
          (exactly_sysdInitialConfigure_header hone hsubsystems hinterfaces).of_ok hs hok
        exact ⟨C', hs', hsys⟩
      | true =>
        obtain ⟨_, C', hs', sys, _, _, _, _, _, _, h, _⟩ :=
          (exactly_sysdInitialConfigure hone hsubsystems hinterfaces).of_ok hs hok
        exact ⟨C', hs', sys, h.systemRows⟩
  obtain ⟨C', hs', sys, hsys⟩ := hsystem
  obtain ⟨t', ht', rfl, _⟩ := hs'.opened
  rw [ht] at ht'
  cases ht'
  obtain ⟨r, hr, _⟩ := tableRows_singleton hsys
  exact ⟨r, hr⟩

end Rows

end OpsSysd.InitialConfigure
