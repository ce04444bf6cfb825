import OpsSysd.Completion
import OpsSysd.ConfigureSettings
import OpsSysd.MainLoop
import OpsSysd.OvsdbApply
import OpsSysd.PackageSafety
import OpsSysd.Survival

/-!
The boot of an empty system, from the first pass to the record that the hardware
daemons are done. The other clients may do anything to the database but add or
remove rows of the System, Subsystem, Interface and Daemon tables or change what
the boot keeps there; when a daemon finishes is up to it. The image stays the
same while the process runs.
-/

namespace OpsSysd.SysdRun

open CString Ovsdb Ovsrec Platform InitialConfigure

/-- What the boot reads and writes of a System row. -/
structure SystemKey where
  uuid : Uuid
  softwareInfo : Smap
  switchVersion : CStr
  curHw : ℤ
  nextHw : ℤ
  /-- The path of the time zone fits the buffer for it. -/
  zoneFits : Bool

structure SubsystemKey where
  name : CStr
  assetTagNumber : CStr
  hwDescDir : CStr

structure InterfaceKey where
  name : CStr
  hwIntfInfo : Smap

/-- What a daemon cannot change of its row. -/
structure DaemonKey where
  uuid : Uuid
  name : CStr
  isHwHandler : Bool

/-- The tables of the boot. -/
inductive Watched
  | system
  | subsystem
  | interface
  | daemon

namespace Watched

def table : Watched → Table
  | system => .system
  | subsystem => .subsystem
  | interface => .interface
  | daemon => .daemon

abbrev Key : Watched → Type
  | system => SystemKey
  | subsystem => SubsystemKey
  | interface => InterfaceKey
  | daemon => DaemonKey

def key : (w : Watched) → OvsRow → w.Key
  | system, r => ⟨r.uuid, r.col .systemSoftwareInfo, r.col .systemSwitchVersion,
      r.col .systemCurHw, r.col .systemNextHw, (timezoneCmd (r.col .systemTimezone)).isSome⟩
  | subsystem, r => ⟨r.col .subsystemName, r.col .subsystemAssetTagNumber,
      r.col .subsystemHwDescDir⟩
  | interface, r => ⟨r.col .interfaceName, r.col .interfaceHwIntfInfo⟩
  | daemon, r => ⟨r.uuid, r.col .daemonName, r.col .daemonIsHwHandler⟩

/-- What is seen of a table in a snapshot. -/
abbrev keys (w : Watched) (db : Database schema) : List w.Key :=
  @observe schema w.Key w.table w.key db

end Watched

/-- A change by other clients that leaves the tables of the boot alone. -/
def LeavesBoot (d : Delivery schema) : Prop := ∀ w : Watched, @Leaves schema w.Key w.table w.key d

/-- A pass of a boot: the other clients leave the tables alone, the first commit is
accepted, memory suffices, the image is the same and the package file is one that the
loader can read. The lock may come and go between passes. -/
structure Cooperates (osRelease : Option (List CStr)) (p : PassInput) : Prop where
  deliveries : ∀ d ∈ p.deliveries, LeavesBoot d
  commits : ∀ i, (∀ d ∈ (p.replies i).before, LeavesBoot d) ∧
    ∀ d ∈ (p.replies i).after, LeavesBoot d
  accepted : (p.replies 0).status = .success
  allocations : p.allocations = ⟨true, true, true⟩
  osRelease : p.osRelease = osRelease
  versionDetail : PackageInfo.LoaderSafe p.versionDetail

/-- The tables of the boot are empty. -/
def Bare (db : Database schema) : Prop := ∀ w : Watched, w.keys db = []

/-- The Subsystem row of a subsystem. -/
def subsystemKeyOf (st : Startup) (subsys : Subsystem) : SubsystemKey where
  name := subsys.name
  assetTagNumber := dfltAssetTag
  hwDescDir := st.hwDescDir

/-- The Interface row of a port. -/
def interfaceKeyOf (st : Startup) (subsys : Subsystem) (intf : YamlPort) : InterfaceKey where
  name := intf.name
  hwIntfInfo := datumFromSmap (portHwIntfInfo st.external subsys intf)

/-- One System row with the image's software information, one Subsystem row, an Interface
row for each port and one for the bridge, and a Daemon row for each daemon of the manifest. -/
structure Equipped (st : Startup) (subsys : Subsystem) (osRelease : Option (List CStr))
    (db : Database schema) : Prop where
  system : ∃ key : SystemKey, Watched.system.keys db = [key] ∧
    HoldsSwInfo st.external.softwareInfoOsName osRelease key.softwareInfo key.switchVersion ∧
      key.zoneFits = true
  subsystem : Watched.subsystem.keys db = [subsystemKeyOf st subsys]
  interfaces : ∃ bridge : InterfaceKey,
    bridge.hwIntfInfo = datumFromSmap [(st.external.bridge, st.external.bridgeTrue)] ∧
      (Watched.interface.keys db).Perm (bridge :: subsys.interfaces.map (interfaceKeyOf st subsys))
  daemons : ((Watched.daemon.keys db).map (fun k : DaemonKey => (k.name, k.isHwHandler))).Perm
    (st.manifest.daemons.map (fun d => (d.name, d.isHwHandler)))
  distinct : ((Watched.daemon.keys db).map DaemonKey.uuid).Nodup

/-- Completion can be read in the System row. -/
def Published (db : Database schema) : Prop :=
  ∀ key : SystemKey, key ∈ Watched.system.keys db → key.curHw = 1 ∧ key.nextHw = 1

/-- Two snapshots that the boot does not tell apart, up to what the daemons report. -/
def Alike (db db' : Database schema) : Prop := ∀ w : Watched, (w.keys db').Perm (w.keys db)

section Alike

variable {st : Startup} {subsys : Subsystem} {osRelease : Option (List CStr)}
  {db db' db'' : Database schema}

theorem observable_key (w : Watched) : @Observable schema w.Key w.table w.key := by
  intro db
  have hmonitored : schema.monitored w.table = true := by cases w <;> rfl
  unfold observe
  rw [rowsOf_replica hmonitored, List.map_map]
  apply List.map_congr_left
  intro r _
  cases w <;> simp [Watched.key, Row.replicated]

theorem Alike.refl (db : Database schema) : Alike db db := fun _ => .refl _

theorem Alike.trans (h : Alike db db') (h' : Alike db' db'') : Alike db db'' :=
  fun w => (h' w).trans (h w)

theorem Bare.alike (h : Bare db) (h' : Alike db db') : Bare db' := by
  intro w
  have hperm := h' w
  rw [h w] at hperm
  exact hperm.eq_nil

theorem Equipped.alike (h : Equipped st subsys osRelease db) (h' : Alike db db') :
    Equipped st subsys osRelease db' := by
  obtain ⟨key, hkey, hsystem⟩ := h.system
  obtain ⟨bridge, hbridge, hinterfaces⟩ := h.interfaces
  have hsame := h' .system
  rw [hkey, List.perm_singleton] at hsame
  have hsubsystem := h' .subsystem
  rw [h.subsystem, List.perm_singleton] at hsubsystem
  exact ⟨⟨key, hsame, hsystem⟩, hsubsystem, ⟨bridge, hbridge, (h' .interface).trans hinterfaces⟩,
    ((h' .daemon).map _).trans h.daemons, ((h' .daemon).map _).nodup_iff.mpr h.distinct⟩

theorem Published.alike (h : Published db) (h' : Alike db db') : Published db' :=
  fun key hkey => h key ((h' .system).subset hkey)

/-- The row that the key is read from. -/
theorem Equipped.systemRow (h : Equipped st subsys osRelease db) :
    ∃ cfg, tableRows .system db = [cfg] ∧
      UpToDate st.external.softwareInfoOsName osRelease cfg ∧
        (timezoneCmd (cfg.col .systemTimezone)).isSome = true := by
  obtain ⟨key, hkey, hinfo⟩ := h.system
  obtain ⟨cfg, hcfg, rfl⟩ := List.map_eq_singleton_iff.mp hkey
  exact ⟨cfg, hcfg, hinfo⟩

theorem Bare.systemRows (h : Bare db) : tableRows .system db = [] :=
  List.map_eq_nil_iff.mp (h .system)

/-- Every hardware daemon has its row, so readiness is a matter of what the rows report. -/
theorem Equipped.ready (h : Equipped st subsys osRelease db)
    (hfinished : ∀ r ∈ tableRows .daemon db, Flagged r → Finishes r) : Ready st.manifest db := by
  obtain ⟨cfg, hcfg, _⟩ := h.systemRow
  refine ⟨by simp [hcfg], hfinished, fun d hd hhw => ?_⟩
  have hmem : (d.name, d.isHwHandler) ∈
      (Watched.daemon.keys db).map (fun k : DaemonKey => (k.name, k.isHwHandler)) :=
    h.daemons.symm.subset (List.mem_map.mpr ⟨d, hd, rfl⟩)
  obtain ⟨key, hkey, heq⟩ := List.mem_map.mp hmem
  obtain ⟨r, hr, rfl⟩ := List.mem_map.mp hkey
  refine ⟨r, hr, ?_, congrArg Prod.fst heq⟩
  exact (congrArg Prod.snd heq).trans hhw

/-- With distinct identities the flags of two snapshots agree. -/
theorem flagsAgree_of_perm (hdistinct : ((Watched.daemon.keys db').map DaemonKey.uuid).Nodup)
    (h : (Watched.daemon.keys db').Perm (Watched.daemon.keys db)) : FlagsAgree db db' := by
  intro r hr r' hr' huuid
  have hmem : Watched.daemon.key r ∈ Watched.daemon.keys db' :=
    h.symm.subset (List.mem_map_of_mem hr)
  have hmem' : Watched.daemon.key r' ∈ Watched.daemon.keys db' := List.mem_map_of_mem hr'
  have hkey : Watched.daemon.key r' = Watched.daemon.key r :=
    List.inj_on_of_nodup_map hdistinct hmem' hmem huuid
  have hflag : (r'.col .daemonIsHwHandler : Bool) = r.col .daemonIsHwHandler :=
    congrArg DaemonKey.isHwHandler hkey
  unfold Flagged
  rw [hflag]

end Alike

section Received

variable {osRelease : Option (List CStr)} {p : PassInput} {s : Sysd}

/-- The other clients leave the tables alone during all commits. -/
def LeftAlone (idl : Idl schema) : Prop :=
  ∀ w : Watched, @Idl.LeavesTable schema w.Key w.table w.key idl

theorem alike_received (hp : Cooperates osRelease p) :
    Alike s.idl.snapshot (received p s).snapshot :=
  fun w => observe_deliverAll (observable_key w) { s.idl with replies := p.replies }
    (fun d hd => hp.deliveries d hd w)

theorem leftAlone_received (hp : Cooperates osRelease p) : LeftAlone (received p s) := by
  intro w
  unfold Idl.LeavesTable
  rw [received_replies]
  exact fun i => ⟨fun d hd => (hp.commits i).1 d hd w, fun d hd => (hp.commits i).2 d hd w⟩

end Received

section Commits

variable {st : Startup} {subsys : Subsystem} {osRelease : Option (List CStr)} {p : PassInput}
  {idl idl' : Idl schema} {t : Txn schema} {n : ℕ}

theorem LeftAlone.closed (h : LeftAlone idl) (t : Txn schema) (n : ℕ) :
    LeftAlone (idl.closed t n) :=
  fun w => Idl.LeavesTable.commit (s := idl.filled t n) (h w) t

/-- The rows of the configuration are those of the platform. -/
theorem equipped_of_rows {client : ℕ} {system subsystem bridge iface port vrf : OvsRow}
    {intfs : List OvsRow} (hnum : t.Numbered client n)
    (hcore : CoreRows st subsys t.inserted system subsystem bridge iface port vrf intfs)
    (hsettings : SettingsRows st subsys osRelease system subsystem) :
    Equipped st subsys osRelease t.inserted := by
  have hzone : (Watched.system.key system).zoneFits = true := by
    change (timezoneCmd (system.col .systemTimezone)).isSome = true
    rw [hsettings.timezone]
    decide
  refine ⟨⟨Watched.system.key system, ?_, hsettings.swInfo, hzone⟩, ?_,
    ⟨Watched.interface.key iface, hcore.hwIntfInfo, .of_eq ?_⟩, .of_eq ?_, ?_⟩
  · change (tableRows .system t.inserted).map Watched.system.key = _
    rw [hcore.systemRows]
    rfl
  · change (tableRows .subsystem t.inserted).map Watched.subsystem.key = _
    rw [hcore.subsystemRows, List.map_singleton]
    change [SubsystemKey.mk _ _ _] = _
    rw [hsettings.name, hsettings.assetTagNumber, hsettings.hwDescDir]
    rfl
  · change (tableRows .interface t.inserted).map Watched.interface.key = _
    rw [hcore.interfaceRows, List.map_cons]
    congr 1
    rw [← List.forall₂_eq_eq_eq, List.forall₂_map_left_iff, List.forall₂_map_right_iff]
    refine List.Forall₂.flip (hcore.ports.imp (fun intf r hcols => ?_))
    change InterfaceKey.mk _ _ = InterfaceKey.mk _ _
    rw [hcols .interfaceName (by decide), hcols .interfaceHwIntfInfo (by decide)]
    rfl
  · change ((tableRows .daemon t.inserted).map Watched.daemon.key).map _ = _
    rw [List.map_map, ← List.forall₂_eq_eq_eq, List.forall₂_map_left_iff,
      List.forall₂_map_right_iff]
    refine List.Forall₂.flip (hcore.daemons.imp (fun daemon r hcols => ?_))
    exact Prod.ext (hcols .daemonName (by decide)) (hcols .daemonIsHwHandler (by decide))
  · change (((tableRows .daemon t.inserted).map Watched.daemon.key).map _).Nodup
    rw [List.map_map]
    have hsub : ((tableRows .daemon t.inserted).map Row.uuid).Sublist
        (t.inserted.map Row.uuid) := List.filter_sublist.map _
    exact hsub.nodup hnum.distinct

theorem equipped_fills (hone : st.subsystems = [subsys]) (hreplica : idl.Replicated)
    (hbare : Bare idl.snapshot) (hleft : LeftAlone idl) (hlock : idl.hasLock = true)
    (haccepted : (idl.replies 0).status = .success)
    (hfill : sysdInitialConfigure st ⟨true, true, true⟩ osRelease
      (idl.filled .empty idl.nextSerial) = .ok ((), idl.filled t n)) :
    Equipped st subsys osRelease (idl.closed t n).snapshot := by
  have hempty : Filling (idl.filled .empty idl.nextSerial) (Txn.empty : Txn schema).cells :=
    filling_empty rfl hreplica
  obtain ⟨t', ht', hnum, system, subsystem, bridge, iface, port, vrf, intfs, hcore, hsettings⟩ :=
    settingsRows_of_ok hone hempty hfill
  obtain rfl : t = t' := TxnState.opened.inj ht'
  have hnonempty : t.isEmpty = false := by
    cases hinserted : t.inserted with
    | nil =>
      have hrows := hcore.systemRows
      rw [hinserted] at hrows
      cases hrows
    | cons r rest => simp [Txn.isEmpty, hinserted]
  refine (equipped_of_rows hnum hcore hsettings).alike (fun w => ?_)
  -- The server adds the rows to tables that are empty.
  refine observe_commit_success (observable_key w) (s := idl.filled t n) (hleft w) hlock
    hnonempty haccepted (fun db hdb => ?_)
  have hnone : w.keys db = [] := by
    have hperm : (w.keys db).Perm (w.keys idl.snapshot) := hdb
    rw [hbare w] at hperm
    exact hperm.eq_nil
  rw [observe_apply_of_nil t hnone]

/-- The completion transaction writes only where completion is recorded. -/
theorem completion_columns (hgrows : Txn.empty.Grows hwDoneFootprint t) :
    ∀ w ∈ t.updates, w.column = .systemCurHw ∨ w.column = .systemNextHw := by
  intro w hw
  by_contra hother
  have huntouched := hgrows.untouched (C := fun c => ¬ hwDoneFootprint.columns c)
    (fun _ h => h) (Txn.untouched_empty _)
  exact huntouched.updates w hw hother

/-- What the completion transaction makes of the System row, in whatever snapshot it meets
that row. -/
theorem systemKey_leave {cfg r : OvsRow} {key : SystemKey}
    (hupdates : ∀ w ∈ t.updates, w.column = .systemCurHw ∨ w.column = .systemNextHw)
    (hcfg : tableRows .system idl.snapshot = [cfg]) (hkey : Watched.system.key cfg = key)
    (hnone : tableRows .system t.inserted = [])
    (hdone : DoneThrough t idl.snapshot cfg.uuid) (hr : r.table = .system)
    (hsame : Watched.system.key r = key) :
    Watched.system.key (t.leave r) = { key with curHw := 1, nextHw := 1 } := by
  have hfind : @Txn.find schema t .system cfg.uuid idl.snapshot = some (t.leave cfg) :=
    t.find_single hcfg hnone
  unfold DoneThrough at hdone
  rw [hfind] at hdone
  have hcur : (t.leave cfg).col .systemCurHw = (1 : ℤ) := Option.some.inj hdone.1
  have hnext : (t.leave cfg).col .systemNextHw = (1 : ℤ) := Option.some.inj hdone.2
  have htable : r.table = cfg.table := by
    have hmem : cfg ∈ tableRows .system idl.snapshot := by simp [hcfg]
    exact hr.trans (mem_rowsOf.mp hmem).2.symm
  have hkeys : Watched.system.key r = Watched.system.key cfg := hsame.trans hkey.symm
  have huuid : r.uuid = cfg.uuid := congrArg SystemKey.uuid hkeys
  have hcur' : r.col .systemCurHw = cfg.col .systemCurHw := congrArg SystemKey.curHw hkeys
  have hnext' : r.col .systemNextHw = cfg.col .systemNextHw := congrArg SystemKey.nextHw hkeys
  have hinfo : (t.leave r).col .systemSoftwareInfo = r.col .systemSoftwareInfo :=
    t.leave_col_of_ne (fun w hw h => by rcases hupdates w hw with h' | h' <;> simp [h'] at h) r
  have hversion : (t.leave r).col .systemSwitchVersion = r.col .systemSwitchVersion :=
    t.leave_col_of_ne (fun w hw h => by rcases hupdates w hw with h' | h' <;> simp [h'] at h) r
  have hzone : (t.leave r).col .systemTimezone = r.col .systemTimezone :=
    t.leave_col_of_ne (fun w hw h => by rcases hupdates w hw with h' | h' <;> simp [h'] at h) r
  rw [← hsame]
  change SystemKey.mk _ _ _ _ _ _ = SystemKey.mk _ _ _ _ _ _
  rw [t.leave_uuid, hinfo, hversion, hzone, t.leave_col htable huuid hcur', hcur,
    t.leave_col htable huuid hnext', hnext]
  rfl

/-- A table other than that of the System row is left as it is by the completion commit. -/
theorem keys_completes (hleft : LeftAlone idl) (hempty : t.inserted = [])
    (hupdates : ∀ w ∈ t.updates, w.column = .systemCurHw ∨ w.column = .systemNextHw)
    {w : Watched} (hw : w.table ≠ .system) :
    (w.keys (idl.closed t n).snapshot).Perm (w.keys idl.snapshot) := by
  have hother : ∀ u ∈ t.updates, schema.tableOf u.column ≠ w.table := by
    intro u hu
    rcases hupdates u hu with h | h
    · rw [h]
      exact hw.symm
    · rw [h]
      exact hw.symm
  have hperm := observe_commit (observable_key w) (s := idl.filled t n) (hleft w) t hother
  have hnil : @observe schema w.Key w.table w.key t.inserted = [] := by
    rw [hempty]
    rfl
  rwa [hnil, ite_self, List.append_nil] at hperm

/-- The completion commit sets both columns of the System row. -/
theorem systemKeys_completes {key : SystemKey} (hkeys : Watched.system.keys idl.snapshot = [key])
    (hleft : LeftAlone idl) (hlock : idl.hasLock = true)
    (haccepted : (idl.replies 0).status = .success)
    (hsets : setHwDoneRows (idl.filled .empty idl.nextSerial) = .ok ((), idl.filled t n))
    (hempty : t.inserted = [])
    (hupdates : ∀ w ∈ t.updates, w.column = .systemCurHw ∨ w.column = .systemNextHw) :
    Watched.system.keys (idl.closed t n).snapshot = [{ key with curHw := 1, nextHw := 1 }] := by
  obtain ⟨cfg, hcfg, hkey⟩ := List.map_eq_singleton_iff.mp hkeys
  have hmem : cfg ∈ tableRows .system idl.snapshot := by
    change cfg ∈ rowsOf Watched.system.table idl.snapshot
    rw [hcfg]
    exact List.mem_singleton_self cfg
  have hdone := doneThrough_of_sets hsets cfg hmem
  have hnone : tableRows .system t.inserted = [] := by
    rw [hempty]
    rfl
  have hleave : ∀ r : OvsRow, r.table = .system → Watched.system.key r = key →
      Watched.system.key (t.leave r) = { key with curHw := 1, nextHw := 1 } :=
    fun r hr hsame => systemKey_leave hupdates hcfg hkey hnone hdone hr hsame
  cases hchange : t.isEmpty with
  | true =>
    have hsnapshot : (idl.closed t n).snapshot = idl.snapshot := by
      have hcommit : (idl.filled t n).commit t = (.unchanged, _) :=
        (if_neg (by simp [Idl.filled, hlock])).trans (if_pos hchange)
      unfold Idl.closed
      rw [hcommit]
      rfl
    have hupdatesNil : t.updates = [] := by
      simp only [Txn.isEmpty, Bool.and_eq_true, List.isEmpty_iff] at hchange
      exact hchange.2
    have hsame : t.leave cfg = cfg := by
      unfold Txn.leave
      rw [hupdatesNil]
      rfl
    have hcfgKey := hleave cfg (mem_rowsOf.mp hmem).2 hkey
    rw [hsame, hkey] at hcfgKey
    rw [hsnapshot, hkeys, ← hcfgKey]
  | false =>
    have hperm : (Watched.system.keys (idl.closed t n).snapshot).Perm
        [{ key with curHw := 1, nextHw := 1 }] := by
      refine observe_commit_success (observable_key .system) (s := idl.filled t n)
        (hleft .system) hlock hchange haccepted (fun db hdb => ?_)
      have hperm : (Watched.system.keys db).Perm (Watched.system.keys idl.snapshot) := hdb
      rw [hkeys, List.perm_singleton] at hperm
      obtain ⟨r, hr, hsame⟩ := List.map_eq_singleton_iff.mp hperm
      have hrow : r ∈ tableRows .system db := by
        change r ∈ rowsOf Watched.system.table db
        rw [hr]
        exact List.mem_singleton_self r
      have happly : rowsOf Watched.system.table (t.apply db) = [t.leave r] := by
        rw [rowsOf_apply, hr, hempty]
        rfl
      change ((rowsOf Watched.system.table (t.apply db)).map Watched.system.key).Perm _
      rw [happly, List.map_singleton, hleave r (mem_rowsOf.mp hrow).2 hsame]
    exact List.perm_singleton.mp hperm

/-- After the completion commit the System row says so, and the rest is as before. -/
theorem published_completes (hequipped : Equipped st subsys osRelease idl.snapshot)
    (hleft : LeftAlone idl) (hlock : idl.hasLock = true)
    (haccepted : (idl.replies 0).status = .success)
    (hsets : setHwDoneRows (idl.filled .empty idl.nextSerial) = .ok ((), idl.filled t n))
    (hgrows : Txn.empty.Grows hwDoneFootprint t) :
    Equipped st subsys osRelease (idl.closed t n).snapshot ∧
      Published (idl.closed t n).snapshot ∧
        (Watched.daemon.keys (idl.closed t n).snapshot).Perm
          (Watched.daemon.keys idl.snapshot) := by
  obtain ⟨key, hkeys, hinfo⟩ := hequipped.system
  obtain ⟨bridge, hbridge, hinterfaces⟩ := hequipped.interfaces
  have hupdates := completion_columns hgrows
  obtain ⟨t', ht', hempty⟩ := addsNoRows_setHwDoneRows _ .empty _ _ rfl rfl hsets
  obtain rfl : t = t' := TxnState.opened.inj ht'
  have hsystem := systemKeys_completes hkeys hleft hlock haccepted hsets hempty hupdates
  have hother : ∀ w : Watched, w.table ≠ .system →
      (w.keys (idl.closed t n).snapshot).Perm (w.keys idl.snapshot) :=
    fun w hw => keys_completes hleft hempty hupdates hw
  have hdaemon := hother .daemon (by decide)
  have hsubsystem := hother .subsystem (by decide)
  rw [hequipped.subsystem, List.perm_singleton] at hsubsystem
  refine ⟨⟨⟨_, hsystem, hinfo⟩, hsubsystem,
    ⟨bridge, hbridge, (hother .interface (by decide)).trans hinterfaces⟩,
    (hdaemon.map _).trans hequipped.daemons,
    (hdaemon.map _).nodup_iff.mpr hequipped.distinct⟩, fun key' hkey' => ?_, hdaemon⟩
  rw [hsystem, List.mem_singleton] at hkey'
  rw [hkey']
  exact ⟨rfl, rfl⟩

theorem alike_loadPackageInfo (hs : idl.txn = .none) (hleft : LeftAlone idl)
    (h : loadPackageInfo p idl = .ok ((), idl')) : Alike idl.snapshot idl'.snapshot := by
  intro w
  have hnoTxn : ∀ t : Txn schema, idl.txn = .opened t →
      t.Untouched (fun c => schema.tableOf c = w.table) ∧ tableRows w.table t.inserted = [] := by
    intro t ht
    rw [hs] at ht
    cases ht
  have hw : ¬ PackageInfo.packageFootprint.tables w.table := by cases w <;> exact nofun
  exact (kept_loadPackageInfo (observe_kept hw (observable_key w) _)
    ⟨⟨hleft w, .refl _⟩, hnoTxn⟩ h).1.2

end Commits

section Proceeds

variable {st : Startup} {subsys : Subsystem} {osRelease : Option (List CStr)} {p : PassInput}
  {s : Sysd} {idl : Idl schema} {t : Txn schema}

/-- Where the column can be read, it can be written while a transaction is open, and no
other column of a row gets out of reach. -/
theorem setCol_readable {u : Uuid} {c : Column} {v : c.type.Value} (ht : idl.txn = .opened t)
    (hread : (idl.value u c).isSome = true) :
    ∃ idl', setCol u c v idl = .ok ((), idl') ∧ (∃ t', idl'.txn = .opened t') ∧
      ∀ u' c', (idl.value u' c').isSome = true → (idl'.value u' c').isSome = true := by
  have hok : ∃ idl', setCol u c v idl = .ok ((), idl') ∧ ∃ t', idl'.txn = .opened t' := by
    obtain ⟨w, hw⟩ := Option.isSome_iff_exists.mp hread
    obtain ⟨r, hr, _⟩ := Option.map_eq_some_iff.mp hw
    unfold setCol txnWrite
    rw [hr]
    dsimp only
    split_ifs
    · exact ⟨idl, rfl, t, ht⟩
    · rw [ht]
      exact ⟨_, rfl, _, rfl⟩
  obtain ⟨idl', hset, hopened⟩ := hok
  refine ⟨idl', hset, hopened, fun u' c' hvalue => ?_⟩
  obtain ⟨hown, hother⟩ := value_txnWrite hset
  by_cases hsame : u' = u ∧ c' = c
  · obtain ⟨rfl, rfl⟩ := hsame
    rw [hown]
    rfl
  · rw [hother u' c' hsame]
    exact hvalue

/-- Completion can be recorded in the rows that are enumerated. -/
theorem setHwDoneRows_ok (ht : idl.txn = .opened t) :
    ∃ idl', setHwDoneRows idl = .ok ((), idl') := by
  have hrows : (rows .system : OvsM (List OvsRow)) idl =
      .ok (tableRows .system idl.view, idl) := rfl
  have hread : ∀ r ∈ tableRows .system idl.view, ∀ c : Column, c.table = .system →
      (idl.value r.uuid c).isSome = true := by
    intro r hr c hc
    obtain ⟨hin, htable⟩ := mem_rowsOf.mp hr
    have hfind : (idl.find .system r.uuid).isSome = true := by
      have his : r.is Table.system r.uuid = true := (r.is_iff _ _).mpr ⟨htable, rfl⟩
      unfold Idl.view at hin
      unfold Idl.find Txn.find
      rw [ht] at hin ⊢
      rcases List.mem_append.mp hin with hold | hnew
      · rw [Option.isSome_or, Bool.or_eq_true]
        exact Or.inr (List.find?_isSome.mpr ⟨r, hold, his⟩)
      · rw [Option.isSome_or, Bool.or_eq_true]
        exact Or.inl (List.find?_isSome.mpr ⟨r, hnew, his⟩)
    unfold Idl.value
    rw [Option.isSome_map, show schema.tableOf c = Table.system from hc]
    exact hfind
  have hloop : ∀ (l : List OvsRow) (idl : Idl schema), (∃ t, idl.txn = .opened t) →
      (∀ r ∈ l, (idl.value r.uuid Column.systemCurHw).isSome = true ∧
        (idl.value r.uuid Column.systemNextHw).isSome = true) →
      ∃ idl', (l.forM (fun r => do setCol r.uuid .systemCurHw 1; setCol r.uuid .systemNextHw 1) :
        OvsM Unit) idl = .ok ((), idl') := by
    intro l
    induction l with
    | nil => exact fun idl _ _ => ⟨idl, rfl⟩
    | cons r rest ih =>
      rintro idl ⟨t, ht⟩ hl
      obtain ⟨hcur, hnext⟩ := hl r List.mem_cons_self
      obtain ⟨idl₁, hset₁, ⟨t₁, ht₁⟩, hkeep₁⟩ := setCol_readable (v := (1 : ℤ)) ht hcur
      obtain ⟨idl₂, hset₂, hopened, hkeep₂⟩ :=
        setCol_readable (v := (1 : ℤ)) ht₁ (hkeep₁ _ _ hnext)
      obtain ⟨idl', hrest⟩ := ih idl₂ hopened (fun q hq => by
        obtain ⟨hcur', hnext'⟩ := hl q (List.mem_cons_of_mem r hq)
        exact ⟨hkeep₂ _ _ (hkeep₁ _ _ hcur'), hkeep₂ _ _ (hkeep₁ _ _ hnext')⟩)
      have hrow : (do setCol r.uuid .systemCurHw 1; setCol r.uuid .systemNextHw 1 :
          OvsM Unit) idl = .ok ((), idl₂) := (bind_ok _ hset₁).trans hset₂
      exact ⟨idl', (bind_ok _ hrow).trans hrest⟩
  obtain ⟨idl', hok⟩ := hloop _ idl ⟨t, ht⟩ (fun r hr =>
    ⟨hread r hr .systemCurHw rfl, hread r hr .systemNextHw rfl⟩)
  exact ⟨idl', (bind_ok _ hrows).trans hok⟩

/-- On an empty database the branch on the System row is one transaction that is filled. -/
theorem configure_bare (hone : st.subsystems = [subsys]) (hconf : Configurable st subsys)
    (hp : Cooperates osRelease p) (hs : idl.txn = .none) (hreplica : idl.Replicated)
    (hbare : Bare idl.snapshot) (b : Bool) :
    ∃ t n, configure st p b idl = .ok (b, idl.closed t n) ∧
      sysdInitialConfigure st ⟨true, true, true⟩ osRelease (idl.filled .empty idl.nextSerial) =
        .ok ((), idl.filled t n) := by
  have hempty : Filling (idl.filled .empty idl.nextSerial) (Txn.empty : Txn schema).cells :=
    filling_empty rfl hreplica
  have hexactly : Exactly (Txn.empty : Txn schema).cells _
      (sysdInitialConfigure st ⟨true, true, true⟩ osRelease) _ :=
    exactly_sysdInitialConfigure hone rfl rfl
  obtain ⟨_, s', _, hok, _⟩ := (hexactly _ hempty).1
    ⟨hconf.mgmtIntf, hconf.ports, fun _ => hconf.policies⟩
  rcases configures_sysdInitialConfigure st ⟨true, true, true⟩ osRelease
    (idl.filled .empty idl.nextSerial) .empty rfl with hbad | ⟨_, t, n, hrun, _⟩
  · rw [hok] at hbad
    cases hbad
  · refine ⟨t, n, configure_filled hs hbare.systemRows ?_, hrun⟩
    rw [hp.allocations, hp.osRelease]
    exact hrun

/-- With the image's software information in the System row there is nothing to refresh. -/
theorem configure_equipped (hp : Cooperates osRelease p) (hs : idl.txn = .none)
    (hequipped : Equipped st subsys osRelease idl.snapshot) (b : Bool) :
    ∃ b' idl', configure st p b idl = .ok (b', idl') := by
  obtain ⟨cfg, hcfg, hupToDate, _⟩ := hequipped.systemRow
  have hhead : (tableRows .system idl.snapshot).head? = some cfg := by rw [hcfg]; rfl
  rcases configure_some st p hs b hhead with ⟨hdiff, _⟩ | ⟨_, hgo⟩
  · rw [hp.osRelease] at hdiff
    exact absurd hupToDate hdiff
  · rw [hgo, sysdChkIfHwDaemonsDone_eq hs]
    split_ifs
    · exact ⟨_, _, rfl⟩
    · obtain ⟨idl', hok⟩ := @setHwDoneRows_ok (idl.filled .empty idl.nextSerial) .empty rfl
      rcases transaction_within within_setHwDoneRows hs with hbad | ⟨t, n, _, _, htxn⟩
      · have hwithin := within_setHwDoneRows (idl.filled .empty idl.nextSerial) .empty rfl
        rcases hwithin with hfault | ⟨a, t, n, hrun, _⟩
        · rw [hok] at hfault
          cases hfault
        · have htxn : transaction setHwDoneRows idl = _ :=
            transaction_filled hs (t := t) (n := n) hrun
          rw [hbad] at htxn
          cases htxn
      · rw [htxn]
        exact ⟨_, _, rfl⟩
    · exact ⟨_, _, rfl⟩

/-- The link is made for a zone that fits the buffer. -/
theorem sysdHandleTimezoneUpdate_ok (hs : idl.txn = .none)
    (hequipped : Equipped st subsys osRelease idl.snapshot) (localtime : Option CStr) :
    ∃ localtime', sysdHandleTimezoneUpdate p localtime idl = .ok (localtime', idl) := by
  obtain ⟨cfg, hcfg, _, hzone⟩ := hequipped.systemRow
  obtain ⟨path, hpath⟩ := Option.isSome_iff_exists.mp hzone
  unfold sysdHandleTimezoneUpdate
  rw [bind_ok _ (rows_closed hs .system), hcfg]
  dsimp only [List.head?_cons]
  rw [hpath]
  exact ⟨_, rfl⟩

theorem loadPackageInfo_proceeds (hp : Cooperates osRelease p) (hs : idl.txn = .none) :
    ∃ idl', loadPackageInfo p idl = .ok ((), idl') := by
  have hrows : (rows .packageInfo : OvsM (List OvsRow)) idl =
      .ok (tableRows .packageInfo idl.view, idl) := rfl
  unfold loadPackageInfo
  rw [bind_ok _ hrows]
  split_ifs
  · exact PackageInfo.sysdAddPackageInfo_ok hp.versionDetail hs
  · exact ⟨idl, rfl⟩

/-- A pass that gets to the body goes on to its end if the branch on the System row does and
leaves the database equipped. -/
theorem sysdRun_proceeds (hp : Cooperates osRelease p) (hs : Settled s.idl)
    (hconf : BodyRuns p s → ∃ b idl, configure st p s.hwInitDoneSet (received p s) = .ok (b, idl) ∧
      Equipped st subsys osRelease idl.snapshot ∧ LeftAlone idl) :
    ∃ s', sysdRun st p s = .ok s' := by
  by_cases hruns : BodyRuns p s
  · obtain ⟨b, idl₁, hconf, hequipped, hleft⟩ := hconf hruns
    have hreceived := settled_received p hs
    have hsettled₁ := (configured_of_ok st p hreceived.txn hconf).settled hreceived
    obtain ⟨idl₂, hload⟩ := loadPackageInfo_proceeds hp hsettled₁.txn
    have hsettled₂ := settled_loadPackageInfo hsettled₁ hload
    have hequipped₂ := hequipped.alike (alike_loadPackageInfo hsettled₁.txn hleft hload)
    obtain ⟨localtime, htime⟩ :=
      @sysdHandleTimezoneUpdate_ok _ _ _ p _ hsettled₂.txn hequipped₂ s.localtime
    have hbody : body st p s (received p s) = .ok ((b, localtime), idl₂) :=
      (bind_ok _ hconf).trans ((bind_ok _ hload).trans (bind_ok _ htime))
    unfold sysdRun
    dsimp only
    rw [hbody]
    split_ifs <;> exact ⟨_, rfl⟩
  · cases hrun : sysdRun st p s with
    | ok s' => exact ⟨s', rfl⟩
    | error e => exact absurd (bodyRuns_of_error hrun) hruns

end Proceeds

section Booting

variable {st : Startup} {subsys : Subsystem} {osRelease : Option (List CStr)} {p : PassInput}
  {s s' : Sysd}

/-- Before the first pass through the body the database is empty; from then on it is
equipped, and completion is only taken for recorded where it can be read. -/
structure Booting (st : Startup) (subsys : Subsystem) (osRelease : Option (List CStr))
    (s : Sysd) : Prop where
  settled : Settled s.idl
  replicated : s.idl.Replicated
  phase : (s.processed = none ∧ Bare s.idl.snapshot ∧ s.hwInitDoneSet = false) ∨
    (Equipped st subsys osRelease s.idl.snapshot ∧
      (s.hwInitDoneSet = true → Published s.idl.snapshot))
  daemons : ∀ db, s.processed = some db →
    Bare db ∨ (Watched.daemon.keys s.idl.snapshot).Perm (Watched.daemon.keys db)

theorem booting_init (client : ℕ) (replies : ℕ → Reply schema) :
    Booting st subsys osRelease (Sysd.init client replies) where
  settled := settled_init client replies
  replicated r hr := by cases hr
  phase := Or.inl ⟨rfl, fun _ => rfl, rfl⟩
  daemons db hdb := by cases hdb

/-- What the branch on the System row makes of a booting daemon's replica. -/
theorem Booting.configured (hone : st.subsystems = [subsys]) (hconf : Configurable st subsys)
    (hs : Booting st subsys osRelease s) (hp : Cooperates osRelease p) (hruns : BodyRuns p s)
    {b : Bool} {idl : Idl schema}
    (hconfigured : Configured st s.hwInitDoneSet (received p s) b idl)
    (hbranch : configure st p s.hwInitDoneSet (received p s) = .ok (b, idl)) :
    Equipped st subsys osRelease idl.snapshot ∧ (b = true → Published idl.snapshot) ∧
      (Bare (received p s).snapshot ∨
        (Watched.daemon.keys idl.snapshot).Perm (Watched.daemon.keys (received p s).snapshot)) ∧
      LeftAlone idl := by
  have htxn : (received p s).txn = .none := (settled_received p hs.settled).txn
  have hreplica := replicated_received (p := p) hs.replicated
  have halike := alike_received (s := s) hp
  have hleft : LeftAlone (received p s) := leftAlone_received hp
  have haccepted : ((received p s).replies 0).status = .success := by
    rw [received_replies]
    exact hp.accepted
  rcases hs.phase with ⟨_, hbare, hunset⟩ | ⟨hequipped, hpublished⟩
  · have hbare' := hbare.alike halike
    obtain ⟨t, n, hok, hfill⟩ :=
      configure_bare hone hconf hp htxn hreplica hbare' s.hwInitDoneSet
    rw [hbranch] at hok
    obtain ⟨rfl, rfl⟩ := Prod.mk.inj (Except.ok.inj hok)
    refine ⟨equipped_fills hone hreplica hbare' hleft hruns.2.1 haccepted hfill, fun hset => ?_,
      Or.inl hbare', hleft.closed t n⟩
    rw [hunset] at hset
    cases hset
  · have hequipped' := hequipped.alike halike
    cases hconfigured with
    | fills row _ =>
      obtain ⟨cfg, hcfg, _⟩ := hequipped'.systemRow
      rw [hcfg] at row
      cases row
    | keeps _ isSet =>
      exact ⟨hequipped', fun _ => (hpublished isSet).alike halike, Or.inr (.refl _), hleft⟩
    | waits _ _ _ => exact ⟨hequipped', nofun, Or.inr (.refl _), hleft⟩
    | @completes cfg t n _ _ _ sets grows =>
      obtain ⟨hequipped'', hpublished', hdaemons⟩ :=
        published_completes hequipped' hleft hruns.2.1 haccepted sets grows
      exact ⟨hequipped'', fun _ => hpublished', Or.inr hdaemons, hleft.closed t n⟩

theorem Booting.proceeds (hone : st.subsystems = [subsys]) (hconf : Configurable st subsys)
    (hs : Booting st subsys osRelease s) (hp : Cooperates osRelease p) :
    ∃ s', sysdRun st p s = .ok s' := by
  refine @sysdRun_proceeds st subsys _ _ _ hp hs.settled (fun hruns => ?_)
  have htxn : (received p s).txn = .none := (settled_received p hs.settled).txn
  have halike := alike_received (s := s) hp
  have hbranch : ∃ b idl, configure st p s.hwInitDoneSet (received p s) = .ok (b, idl) := by
    rcases hs.phase with ⟨_, hbare, _⟩ | ⟨hequipped, _⟩
    · obtain ⟨t, n, hok, _⟩ := configure_bare hone hconf hp htxn
        (replicated_received hs.replicated) (hbare.alike halike) s.hwInitDoneSet
      exact ⟨_, _, hok⟩
    · exact configure_equipped hp htxn (hequipped.alike halike) s.hwInitDoneSet
  obtain ⟨b, idl, hbranch⟩ := hbranch
  obtain ⟨hequipped, _, _, hleft⟩ :=
    hs.configured hone hconf hp hruns (configured_of_ok st p htxn hbranch) hbranch
  exact ⟨b, idl, hbranch, hequipped, hleft⟩

theorem Booting.passed (hone : st.subsystems = [subsys]) (hconf : Configurable st subsys)
    (hs : Booting st subsys osRelease s) (hp : Cooperates osRelease p) (h : Passed st p s s') :
    Booting st subsys osRelease s' := by
  have hsettled := h.settled hs.settled
  have hreplica := h.replicated hs.replicated
  have halike := alike_received (s := s) hp
  cases h with
  | idle _ =>
    refine ⟨hsettled, hreplica, ?_, fun db hdb => ?_⟩
    · rcases hs.phase with ⟨hnone, hbare, hunset⟩ | ⟨hequipped, hpublished⟩
      · exact Or.inl ⟨hnone, hbare.alike halike, hunset⟩
      · exact Or.inr ⟨hequipped.alike halike, fun hset => (hpublished hset).alike halike⟩
    · rcases hs.daemons db hdb with hbare | hperm
      · exact Or.inl hbare
      · exact Or.inr ((halike .daemon).trans hperm)
  | ran runs configured loaded branch =>
    obtain ⟨hequipped, hpublished, hdaemons, hleft⟩ :=
      hs.configured hone hconf hp runs configured branch
    have hsettled₁ := configured.settled (settled_received p hs.settled)
    have hloaded := alike_loadPackageInfo hsettled₁.txn hleft loaded
    refine ⟨hsettled, hreplica, Or.inr ⟨hequipped.alike hloaded, fun hset => ?_⟩,
      fun db hdb => ?_⟩
    · exact (hpublished hset).alike hloaded
    · cases hdb
      rcases hdaemons with hbare | hperm
      · exact Or.inl hbare
      · exact Or.inr ((hloaded .daemon).trans hperm)

/-- Asleep with the lock, a booting daemon is past its first pass through the body, and it
has recorded completion if every flagged row is finished. -/
theorem Booting.asleep (hs : Booting st subsys osRelease s) {db : Database schema}
    (hdb : s.processed = some db) (hquiet : Quiet db s.idl.snapshot)
    (hrecorded : FlagsAgree db s.idl.snapshot → Ready st.manifest s.idl.snapshot →
      s.hwInitDoneSet = true) :
    Equipped st subsys osRelease s.idl.snapshot ∧
      ((∃ r ∈ tableRows .daemon s.idl.snapshot, Flagged r ∧ ¬ Finishes r) ∨
        (s.hwInitDoneSet = true ∧ Published s.idl.snapshot)) := by
  rcases hs.phase with ⟨hnone, _, _⟩ | ⟨hequipped, hpublished⟩
  · rw [hnone] at hdb
    cases hdb
  refine ⟨hequipped, ?_⟩
  by_cases hunfinished : ∃ r ∈ tableRows .daemon s.idl.snapshot, Flagged r ∧ ¬ Finishes r
  · exact Or.inl hunfinished
  · push Not at hunfinished
    have hready : Ready st.manifest s.idl.snapshot := hequipped.ready hunfinished
    rcases hs.daemons db hdb with hbare | hperm
    · -- The System row would have appeared without an alert.
      obtain ⟨cfg, hcfg, _⟩ := hequipped.systemRow
      have hmem : cfg ∈ tableRows .system s.idl.snapshot := by
        rw [hcfg]
        exact List.mem_singleton_self cfg
      obtain ⟨hin, htable⟩ := mem_rowsOf.mp hmem
      obtain ⟨r, hr, hsame, _⟩ := Quiet.exists_row hquiet.symm hin (by rw [htable]; rfl)
      have hold : r ∈ tableRows .system db := mem_rowsOf.mpr ⟨hr, hsame.trans htable⟩
      rw [hbare.systemRows] at hold
      cases hold
    · have hset := hrecorded (flagsAgree_of_perm hequipped.distinct hperm) hready
      exact Or.inr ⟨hset, hpublished hset⟩

end Booting

section Run

variable {st : Startup} {subsys : Subsystem} {osRelease : Option (List CStr)} {client : ℕ}
  {replies : ℕ → Reply schema} {inputs : List PassInput} {s : Sysd} {exiting : Bool}

theorem booting_of_run (hone : st.subsystems = [subsys]) (hconf : Configurable st subsys)
    (h : Runs.Run (sysdRun st) (fun p _ => Cooperates osRelease p) (Sysd.init client replies)
      inputs s) : Booting st subsys osRelease s := by
  refine h.inv (booting_init client replies) (fun p t t' ht hp hdone => ?_)
  exact ht.passed hone hconf hp (passed_of_ok st p ht.settled.txn hdone)

/-- What a sleep of a booting daemon shows, after any run. -/
theorem Booting.sleeps {guard : PassInput → Sysd → Prop} (hs : Booting st subsys osRelease s)
    (h : Runs.Run (sysdRun st) guard (Sysd.init client replies) inputs s)
    (hsleeps : Sleeps exiting s) (hnews : s.idl.seqno ≠ 0) :
    Equipped st subsys osRelease s.idl.snapshot ∧
      ((∃ r ∈ tableRows .daemon s.idl.snapshot, Flagged r ∧ ¬ Finishes r) ∨
        (s.hwInitDoneSet = true ∧ Published s.idl.snapshot)) := by
  obtain ⟨_, hcurrent⟩ := current_run (h.mono (fun _ _ _ => trivial))
  rcases hcurrent.asleep hsleeps with ⟨_, hfirst, _⟩ | ⟨db, hdb, hquiet, _, hrecorded⟩
  · exact absurd hfirst hnews
  · exact hs.asleep hdb hquiet hrecorded

/-- The boot of an empty system: no cooperative pass ends in a fault, and whenever the loop
sleeps with the lock after news of the database there is one System row with the image's
software information, one Subsystem row, a row for the bridge, for each port and for each
daemon of the manifest, and completion is recorded and can be read unless a flagged row is
unfinished. -/
theorem boots_of_run (hone : st.subsystems = [subsys]) (hconf : Configurable st subsys)
    (h : Runs.Run (sysdRun st) (fun p _ => Cooperates osRelease p) (Sysd.init client replies)
      inputs s) :
    (∀ p, Cooperates osRelease p → ∃ s', sysdRun st p s = .ok s') ∧
      ∀ exiting, Sleeps exiting s → s.idl.seqno ≠ 0 →
        Equipped st subsys osRelease s.idl.snapshot ∧
          ((∃ r ∈ tableRows .daemon s.idl.snapshot, Flagged r ∧ ¬ Finishes r) ∨
            (s.hwInitDoneSet = true ∧ Published s.idl.snapshot)) := by
  have hbooting := booting_of_run hone hconf h
  exact ⟨fun p hp => hbooting.proceeds hone hconf hp,
    fun _ hsleeps hnews => hbooting.sleeps h hsleeps hnews⟩

end Run

/-- Every daemon reports that its hardware is initialised. -/
def daemonsReport : Delivery schema := fun db => db.map (fun r =>
  if r.table = .daemon then { r with col := Function.update r.col .daemonCurHw (1 : ℤ) } else r)

theorem leavesBoot_daemonsReport : LeavesBoot daemonsReport := by
  intro w db
  suffices h : w.keys (daemonsReport db) = w.keys db by
    change (w.keys (daemonsReport db)).Perm (w.keys db)
    rw [h]
  have hkey : ∀ r : OvsRow, r.table = .daemon → r.table = w.table →
      w.key { r with col := Function.update r.col .daemonCurHw (1 : ℤ) } = w.key r := by
    intro r hdaemon hw
    cases w with
    | daemon => rfl
    | _ => rw [hdaemon] at hw; cases hw
  unfold Watched.keys observe daemonsReport rowsOf
  induction db with
  | nil => rfl
  | cons r rest ih =>
    rw [List.map_cons]
    by_cases hw : r.table = w.table
    · rw [List.filter_cons_of_pos (by split_ifs <;> simpa using hw),
        List.filter_cons_of_pos (by simpa using hw), List.map_cons, List.map_cons, ih]
      split_ifs with hdaemon
      · rw [hkey r hdaemon hw]
      · rfl
    · rw [List.filter_cons_of_neg (by split_ifs <;> simpa using hw),
        List.filter_cons_of_neg (by simpa using hw), ih]

theorem cooperates_lanePass {deliveries : List (Delivery schema)}
    (h : ∀ d ∈ deliveries, LeavesBoot d) :
    Cooperates none { lanePass with deliveries := deliveries } where
  deliveries := h
  commits i := ⟨nofun, nofun⟩
  accepted := rfl
  allocations := rfl
  osRelease := rfl
  versionDetail := show PackageInfo.LoaderSafe none by decide

/-- Two passes fill the empty database and record that the daemons have reported. -/
theorem sleeps_laneDaemon : ∃ s₁ s, sysdRun laneDaemon.st lanePass laneDaemon.sysd = .ok s₁ ∧
    sysdRun laneDaemon.st { lanePass with deliveries := [daemonsReport] } s₁ = .ok s ∧
      Sleeps false s ∧ s.idl.seqno ≠ 0 ∧
        (tableRows .system s.idl.snapshot).map (fun r => (r.col .systemTimezone : CStr)) =
          [dfltTimezone] := by
  let passes : Except Fault Sysd :=
    sysdRun laneDaemon.st lanePass laneDaemon.sysd >>=
      sysdRun laneDaemon.st { lanePass with deliveries := [daemonsReport] }
  have hpasses : passes.toOption.map (fun s => ((waits false s, s.idl.hasLock,
      s.idl.lockContended), s.idl.seqno == 0, (tableRows .system s.idl.snapshot).map
        (fun r => (r.col .systemTimezone : CStr)))) =
      some ((.block, true, false), false, [dfltTimezone]) := by decide +kernel
  obtain ⟨s, hs, hread⟩ := Runs.exists_ok hpasses
  obtain ⟨hwaits, hread⟩ := Prod.mk.inj hread
  obtain ⟨hnews, htimezone⟩ := Prod.mk.inj hread
  unfold passes at hs
  cases hfirst : sysdRun laneDaemon.st lanePass laneDaemon.sysd with
  | error f =>
    rw [hfirst] at hs
    cases hs
  | ok s₁ =>
    rw [hfirst] at hs
    refine ⟨s₁, s, rfl, hs, ⟨?_, ?_, ?_⟩, beq_eq_false_iff_ne.mp hnews, htimezone⟩
    · exact congrArg Prod.fst hwaits
    · exact congrArg (fun q => q.2.1) hwaits
    · exact congrArg (fun q => q.2.2) hwaits

/-- The daemon fills the empty database and sleeps when its daemons have reported. -/
theorem boots_laneDaemon : ∃ s, Runs.Run (sysdRun laneDaemon.st)
      (fun p _ => Cooperates none p) laneDaemon.sysd
      [lanePass, { lanePass with deliveries := [daemonsReport] }] s ∧ Sleeps false s ∧
    (∀ p, Cooperates none p → ∃ s', sysdRun laneDaemon.st p s = .ok s') ∧
      Equipped laneDaemon.st (laneSubsystem fourLanes) none s.idl.snapshot ∧
        ((∃ r ∈ tableRows .daemon s.idl.snapshot, Flagged r ∧ ¬ Finishes r) ∨
          (s.hwInitDoneSet = true ∧ Published s.idl.snapshot)) := by
  obtain ⟨s₁, s, hfirst, hsecond, hsleeps, hnews, _⟩ := sleeps_laneDaemon
  have hrun : Runs.Run (sysdRun laneDaemon.st) (fun p _ => Cooperates none p) laneDaemon.sysd
      [lanePass, { lanePass with deliveries := [daemonsReport] }] s := by
    have hone : Runs.Run (sysdRun laneDaemon.st) (fun p _ => Cooperates none p) laneDaemon.sysd
        [lanePass] s₁ := .next .start (@cooperates_lanePass [] (fun d hd => by cases hd)) hfirst
    refine .next hone (cooperates_lanePass (fun d hd => ?_)) hsecond
    rw [List.mem_singleton.mp hd]
    exact leavesBoot_daemonsReport
  obtain ⟨hproceeds, hasleep⟩ := @boots_of_run laneDaemon.st _ none 1 _ _ s rfl
    ⟨rfl, by decide, policiesGiven_lanePlatform fourLanes⟩ hrun
  exact ⟨s, hrun, hsleeps, hproceeds, hasleep false hsleeps hnews⟩

end OpsSysd.SysdRun
