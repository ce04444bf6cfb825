import OpsSysd.ConfigurePolicies
import OpsSysd.Survival

/-!
The database is configured as a whole or not at all. Daemons of one image come and
go, contend for the lock and lose their connections; as soon as there is a System
row, the rows of a whole configuration are there, and they stay.
-/

namespace OpsSysd.SysdRun

open CString Ovsdb Ovsrec Platform InitialConfigure Locking

/-- The three allocations of a pass succeed, and the os-release file is that of the image. -/
structure Supplied (osRelease : Option (List CStr)) (p : PassInput) : Prop where
  allocations : p.allocations = ⟨true, true, true⟩
  osRelease : p.osRelease = osRelease

/-- The daemons that are started from one image. -/
def imageProgram (st : Startup) :
    Program Daemon PassInput (Database schema) (Finished schema) :=
  sysdProgram.starting (fun d => d.st = st)

/-- The rows of a whole configuration are in the database, with the columns of the set as
they were written. -/
def HoldsConfiguration (C : Column → Prop) (st : Startup) (subsys : Subsystem)
    (osRelease : Option (List CStr)) (db : Database schema) : Prop :=
  ∃ t, WholeConfiguration st subsys osRelease t ∧ Retains C t.inserted db

section Commits

variable {st : Startup} {subsys : Subsystem} {p : PassInput} {s : Sysd} {b b' : Bool}
  {idl idl' : Idl schema}

/-- On an empty table the branch on the System row is the transaction of a whole
configuration. -/
theorem configure_closed (hone : st.subsystems = [subsys]) (hs : idl.txn = .none)
    (hreplica : idl.Replicated) (hrow : tableRows .system idl.snapshot = [])
    (halloc : p.allocations = ⟨true, true, true⟩)
    (h : configure st p b idl = .ok (b', idl')) :
    ∃ t n, idl' = idl.closed t n ∧ WholeConfiguration st subsys p.osRelease t := by
  rw [configure_none st p hs b (by rw [hrow]; rfl)] at h
  rcases transaction_within (configures_sysdInitialConfigure st p.allocations p.osRelease) hs with
    hbad | ⟨t, n, _, hfill, hok⟩
  · rw [hbad] at h
    cases h
  · rw [hok] at h
    cases h
    rw [halloc] at hfill
    have hempty : Filling (idl.filled .empty idl.nextSerial) (Txn.empty : Txn schema).cells :=
      filling_empty rfl hreplica
    exact ⟨t, n, rfl, wholeConfiguration_of_ok hone hempty hfill rfl⟩

theorem configure_whole (hone : st.subsystems = [subsys]) (hs : idl.txn = .none)
    (hreplica : idl.Replicated) (hrow : tableRows .system idl.snapshot = [])
    (halloc : p.allocations = ⟨true, true, true⟩)
    (h : configure st p b idl = .ok (b', idl')) :
    ∃ f, idl'.finished = idl.finished ++ [f] ∧
      WholeConfiguration st subsys p.osRelease f.txn := by
  obtain ⟨t, n, rfl, hwhole⟩ := configure_closed hone hs hreplica hrow halloc h
  obtain ⟨f, hf, htxn, _⟩ := idl.closed_finished t n
  exact ⟨f, hf, htxn ▸ hwhole⟩

theorem whole_passCommits (hone : st.subsystems = [subsys]) (hs : Settled s.idl)
    (hreplica : s.idl.Replicated) {osRelease : Option (List CStr)} (hp : Supplied osRelease p) :
    ∀ f ∈ passCommits st p s, LeavesSystem f ∨
      WholeConfiguration st subsys osRelease f.txn := by
  intro f hf
  by_cases hrow : tableRows .system (received p s).snapshot = []
  · have hcases : passCommits st p s = [] ∨ _ := passCommits_cases hs
    rcases hcases with hnone | ⟨hruns, b, idl, hconf⟩
    · rw [hnone] at hf
      cases hf
    · obtain ⟨rest, hcommits, hrest⟩ := passCommits_ran hs hruns hconf
      obtain ⟨g, hg, hwhole⟩ := configure_whole hone (settled_received p hs).txn
        (replicated_received hreplica) hrow hp.allocations hconf
      rw [hp.osRelease] at hwhole
      rw [hcommits, hg, received_finished, List.drop_left] at hf
      rcases List.mem_append.mp hf with hfirst | hlater
      · rw [List.mem_singleton.mp hfirst]
        exact Or.inr hwhole
      · exact Or.inl (hrest f hlater)
  · exact Or.inl (passCommits_keeps hs hrow f hf)

end Commits

section Interleavings

variable {C : Column → Prop} {st : Startup} {subsys : Subsystem} {osRelease : Option (List CStr)}

theorem retains_append (C : Column → Prop) (db db' : Database schema) :
    Retains C db (db' ++ db) :=
  fun r hr _ => ⟨r, List.mem_append_right _ hr, rfl, rfl, fun c _ _ => Follows.refl c _⟩

/-- The daemons of an image stay those of the image. -/
theorem imageProgram_fillsOnce (st : Startup) (osRelease : Option (List CStr)) :
    FilledOnce ((imageProgram st).within (Supplied osRelease)) (identities Table.system)
      (fun f => identities Table.system f.txn.inserted) (fun d => Quiescent d ∧ d.st = st) := by
  refine (quiescent_fillsOnce.starting (fun p d d' hd h => ?_)).within _
  obtain ⟨_, _, rfl⟩ := Option.map_eq_some_iff.mp h
  exact hd

theorem fills_imageProgram (hC : ∀ c, C c → c.table ≠ .packageInfo)
    (hone : st.subsystems = [subsys]) (p : { p // Supplied osRelease p }) (d : Daemon)
    (hd : Quiescent d ∧ d.st = st) (f : Finished schema)
    (hf : f ∈ (((imageProgram st).within (Supplied osRelease)).pass p d).1) :
    (identities Table.system f.txn.inserted ≠ [] ∧
        ∀ db, HoldsConfiguration C st subsys osRelease (f.txn.apply db)) ∨
      (identities Table.system f.txn.inserted = [] ∧
        ∀ db, HoldsConfiguration C st subsys osRelease db →
          HoldsConfiguration C st subsys osRelease (f.txn.apply db)) := by
  obtain ⟨⟨hsettled, hreplica⟩, rfl⟩ := hd
  by_cases hleaves : LeavesSystem f
  · refine Or.inr ⟨identities_eq_nil.mpr hleaves, fun db ⟨t, hwhole, hretains⟩ => ?_⟩
    have hmild : Mild f.txn :=
      (mild_passCommits hone hsettled hreplica f hf).resolve_left (not_not.mpr hleaves)
    exact ⟨t, hwhole, hretains.trans (retains_apply hC hmild db)⟩
  · have hwhole : WholeConfiguration d.st subsys osRelease f.txn :=
      (whole_passCommits hone hsettled hreplica p.property f hf).resolve_left hleaves
    exact Or.inl ⟨fun hnone => hleaves (identities_eq_nil.mp hnone),
      fun db => ⟨f.txn, hwhole, retains_append C _ _⟩⟩

theorem HoldsConfiguration.retained {db db' : Database schema} (hretains : Retains C db db')
    (h : HoldsConfiguration C st subsys osRelease db) :
    HoldsConfiguration C st subsys osRelease db' := by
  obtain ⟨t, hwhole, hbefore⟩ := h
  exact ⟨t, hwhole, hbefore.trans hretains⟩

theorem reaches_whole {R : Database schema → Database schema → Prop} {d : Daemon} {p : PassInput}
    {b : Bool} {idl : Idl schema} (hstarts : sysdProgram.starts d)
    (hone : d.st.subsystems = [subsys]) (hp : Supplied osRelease p)
    (hsnapshot : (received p d.sysd).snapshot = replica []) (hruns : BodyRuns p d.sysd)
    (hconf : configure d.st p d.sysd.hwInitDoneSet (received p d.sysd) = .ok (b, idl)) :
    ∃ net, Reaches (((imageProgram d.st).within (Supplied osRelease)).among R) emptyNet net ∧
      tableRows .system net.store ≠ [] := by
  have hsettled := (quiescent_fillsOnce.starts d hstarts).1
  have hnone : (received p d.sysd).snapshot = [] := hsnapshot
  have hreplica : (received p d.sysd).Replicated := by
    intro r hr
    rw [hnone] at hr
    cases hr
  obtain ⟨f, hf, hwhole⟩ := configure_whole hone (settled_received p hsettled).txn hreplica
    (by rw [hnone]; rfl) hp.allocations hconf
  obtain ⟨rest, hcommits, _⟩ := passCommits_ran hsettled hruns hconf
  rw [hf, received_finished, List.drop_left] at hcommits
  obtain ⟨net, hreaches, hstore⟩ :=
    @reaches_alone _ _ _ _ (((imageProgram d.st).within (Supplied osRelease)).among R) emptyNet
      initial_emptyNet d ⟨p, hp⟩ f rest ⟨hstarts, rfl⟩ hcommits (agrees_of_received hsnapshot)
  refine ⟨net, hreaches, ?_⟩
  obtain ⟨system, hsystem, _⟩ := hwhole.policies
  have hmem : system ∈ tableRows .system f.txn.inserted := by simp [hsystem]
  obtain ⟨hin, htable⟩ := mem_rowsOf.mp hmem
  rw [hstore]
  exact List.ne_nil_of_mem (mem_rowsOf.mpr ⟨List.mem_append_right _ hin, htable⟩)

end Interleavings

end OpsSysd.SysdRun
