import OpsSysd.ConfigureComplete
import OpsSysd.Locking
import OpsSysd.SysdPass

/-!
Several daemons contend for the lock on one database. What one of them commits in
a pass adds no System row unless the pass has found the table empty; then its
first commit adds one.
-/

namespace OpsSysd.SysdRun

open CString Ovsdb Ovsrec Platform InitialConfigure Locking

section NoRows

/-- A computation that adds no rows to a transaction that has none. -/
def AddsNoRows {α : Type} (m : OvsM α) : Prop :=
  ∀ s t a s', s.txn = .opened t → t.inserted = [] → m s = .ok (a, s') →
    ∃ t', s'.txn = .opened t' ∧ t'.inserted = []

theorem addsNoRows_setCol (u : Uuid) (c : Column) (v : c.type.Value) :
    AddsNoRows (setCol u c v) := by
  intro s t a s' ht hempty h
  rcases txnWrite_ok h with rfl | ⟨t', ht', rfl⟩
  · exact ⟨t, ht, hempty⟩
  · obtain rfl : t = t' := by
      rw [ht] at ht'
      cases ht'
      rfl
    refine ⟨_, rfl, ?_⟩
    simp [Txn.put, hempty, findRow]

theorem addsNoRows_setHwDone (l : List OvsRow) :
    AddsNoRows
      (l.forM (fun r => do setCol r.uuid .systemCurHw 1; setCol r.uuid .systemNextHw 1)) := by
  induction l with
  | nil =>
    intro s t a s' ht hempty h
    cases h
    exact ⟨t, ht, hempty⟩
  | cons r rest ih =>
    intro s t a s' ht hempty h
    obtain ⟨_, s₁, hrow, hrest⟩ := bind_eq_ok h
    obtain ⟨_, s₂, hcur, hnext⟩ := bind_eq_ok hrow
    obtain ⟨t₂, ht₂, hempty₂⟩ := addsNoRows_setCol _ _ _ s t _ s₂ ht hempty hcur
    obtain ⟨t₁, ht₁, hempty₁⟩ := addsNoRows_setCol _ _ _ s₂ t₂ _ s₁ ht₂ hempty₂ hnext
    exact ih s₁ t₁ _ s' ht₁ hempty₁ hrest

theorem addsNoRows_setHwDoneRows : AddsNoRows setHwDoneRows := by
  intro s t a s' ht hempty h
  obtain ⟨systems, s₁, hrows, hloop⟩ := bind_eq_ok h
  rw [(rows_ok hrows).2] at hloop
  exact addsNoRows_setHwDone systems s t _ s' ht hempty hloop

end NoRows

section Commits

variable (st : Startup) (p : PassInput) (s : Sysd)

/-- The commits of a pass in order, also of one that ends in a fault. What the loader commits
before a fault of its own belongs to the others. -/
def passCommits : List (Finished schema) :=
  match sysdRun st p s with
  | .ok s' => s'.idl.finished.drop s.idl.finished.length
  | .error _ =>
    match configure st p s.hwInitDoneSet (received p s) with
    | .ok (_, idl) =>
      match loadPackageInfo p idl with
      | .ok (_, idl') => idl'.finished.drop s.idl.finished.length
      | .error _ => idl.finished.drop s.idl.finished.length
    | .error _ => []

/-- The commit adds no System row. -/
def LeavesSystem (f : Finished schema) : Prop := tableRows .system f.txn.inserted = []

variable {st p s} {idl idl' : Idl schema} {subsys : Subsystem} {b b' : Bool}

theorem configure_fills (hs : idl.txn = .none) (hrow : tableRows .system idl.snapshot = [])
    (h : configure st p b idl = .ok (b', idl')) :
    ∃ f, idl'.finished = idl.finished ++ [f] ∧ ∀ subsys, st.subsystems = [subsys] →
      (∀ r ∈ idl.snapshot, schema.monitored r.table = true) →
        ∃ r, tableRows .system f.txn.inserted = [r] := by
  rw [configure_none st p hs b (by rw [hrow]; rfl)] at h
  rcases transaction_within (configures_sysdInitialConfigure st p.allocations p.osRelease) hs with
    hbad | ⟨t, n, _, hfill, hok⟩
  · rw [hbad] at h
    cases h
  · rw [hok] at h
    cases h
    obtain ⟨f, hf, htxn, _⟩ := idl.closed_finished t n
    refine ⟨f, hf, fun subsys hone hreplica => ?_⟩
    have hempty : Filling (idl.filled .empty idl.nextSerial) (Txn.empty : Txn schema).cells :=
      filling_empty rfl hreplica
    have hopened : (idl.filled t n).txn = .opened t := rfl
    rw [htxn]
    exact systemRow_of_ok hone hempty hfill hopened

theorem configure_filled (hs : idl.txn = .none) (hrow : tableRows .system idl.snapshot = [])
    {t : Txn schema} {n : ℕ} (hfill : sysdInitialConfigure st p.allocations p.osRelease
      (idl.filled .empty idl.nextSerial) = .ok ((), idl.filled t n)) :
    configure st p b idl = .ok (b, idl.closed t n) := by
  rw [configure_none st p hs b (by rw [hrow]; rfl), transaction_filled hs hfill]
  rfl

theorem configure_keeps (hs : idl.txn = .none) (hrow : tableRows .system idl.snapshot ≠ [])
    (h : configure st p b idl = .ok (b', idl')) :
    ∃ fs, idl'.finished = idl.finished ++ fs ∧ ∀ f ∈ fs, LeavesSystem f := by
  cases configured_of_ok st p hs h with
  | fills row _ => exact absurd (List.head?_eq_none_iff.mp row) hrow
  | keeps _ _ => exact ⟨[], by simp, by simp⟩
  | waits _ _ _ => exact ⟨[], by simp, by simp⟩
  | @completes cfg t n _ _ _ sets _ =>
    obtain ⟨f, hf, htxn, _⟩ := idl.closed_finished t n
    obtain ⟨t', ht', hempty⟩ := addsNoRows_setHwDoneRows _ .empty _ _ rfl rfl sets
    refine ⟨[f], hf, fun g hg => ?_⟩
    cases ht'
    unfold LeavesSystem
    rw [List.mem_singleton.mp hg, htxn, hempty]
    rfl

theorem loadPackageInfo_leaves (hs : idl.txn = .none)
    (h : loadPackageInfo p idl = .ok ((), idl')) :
    ∃ gs, idl'.finished = idl.finished ++ gs ∧ ∀ f ∈ gs, LeavesSystem f := by
  have hsystem : ¬ PackageInfo.packageFootprint.tables .system := by
    intro hbad
    cases hbad
  refine (kept_loadPackageInfo (noRows_kept hsystem idl.finished) ?_ h).2
  refine ⟨fun t ht => ?_, [], by simp, by simp⟩
  rw [hs] at ht
  cases ht

theorem configure_appends (hs : idl.txn = .none) (h : configure st p b idl = .ok (b', idl')) :
    idl.finished.length ≤ idl'.finished.length := by
  by_cases hrow : tableRows .system idl.snapshot = []
  · obtain ⟨f, hf, _⟩ := configure_fills hs hrow h
    simp [hf]
  · obtain ⟨fs, hfs, _⟩ := configure_keeps hs hrow h
    simp [hfs]

theorem bodyRuns_of_error {e : Fault} (h : sysdRun st p s = .error e) : BodyRuns p s := by
  unfold sysdRun at h
  dsimp only at h
  split_ifs at h with hcontended hlock hseqno
  exact ⟨by simpa using hcontended, by simpa using hlock, hseqno⟩

/-- The commits of the branch on the System row come first, and the rest adds no System row. -/
theorem passCommits_ran (hs : Settled s.idl) (hruns : BodyRuns p s)
    (hconf : configure st p s.hwInitDoneSet (received p s) = .ok (b, idl)) :
    ∃ rest, passCommits st p s = idl.finished.drop s.idl.finished.length ++ rest ∧
      ∀ f ∈ rest, LeavesSystem f := by
  have hreceived := settled_received p hs
  have hsettled := (configured_of_ok st p hreceived.txn hconf).settled hreceived
  have hle := configure_appends hreceived.txn hconf
  rw [received_finished] at hle
  have hload : ∀ idl', loadPackageInfo p idl = .ok ((), idl') →
      ∃ gs, idl'.finished.drop s.idl.finished.length =
        idl.finished.drop s.idl.finished.length ++ gs ∧ ∀ f ∈ gs, LeavesSystem f := by
    intro idl' hloaded
    obtain ⟨gs, hgs, hleaves⟩ := loadPackageInfo_leaves hsettled.txn hloaded
    exact ⟨gs, by rw [hgs, List.drop_append_of_le_length hle], hleaves⟩
  unfold passCommits
  cases hrun : sysdRun st p s with
  | ok s' =>
    cases passed_of_ok st p hs.txn hrun with
    | idle notRun => exact absurd hruns notRun
    | ran _ _ loaded branch =>
      rw [hconf] at branch
      cases branch
      exact hload _ loaded
  | error e =>
    rw [hconf]
    dsimp only
    cases hloaded : loadPackageInfo p idl with
    | ok q => exact hload q.2 hloaded
    | error e' => exact ⟨[], (List.append_nil _).symm, nofun⟩

/-- A pass makes no commit, or it runs through the branch on the System row. -/
theorem passCommits_cases (hs : Settled s.idl) : passCommits st p s = [] ∨
    BodyRuns p s ∧ ∃ b idl, configure st p s.hwInitDoneSet (received p s) = .ok (b, idl) := by
  cases hrun : sysdRun st p s with
  | ok s' =>
    cases passed_of_ok st p hs.txn hrun with
    | idle _ =>
      left
      unfold passCommits
      rw [hrun]
      show List.drop _ (received p s).finished = []
      rw [received_finished, List.drop_length]
    | ran runs _ _ branch => exact .inr ⟨runs, _, _, branch⟩
  | error e =>
    cases hconf : configure st p s.hwInitDoneSet (received p s) with
    | ok q => exact .inr ⟨bodyRuns_of_error hrun, q.1, q.2, rfl⟩
    | error e' =>
      left
      unfold passCommits
      rw [hrun, hconf]

theorem passCommits_keeps (hs : Settled s.idl)
    (hrow : tableRows .system (received p s).snapshot ≠ []) :
    ∀ f ∈ passCommits st p s, LeavesSystem f := by
  intro f hf
  have hcases : passCommits st p s = [] ∨ _ := passCommits_cases hs
  rcases hcases with hnone | ⟨hruns, b, idl, hconf⟩
  · rw [hnone] at hf
    cases hf
  · obtain ⟨rest, hcommits, hrest⟩ := passCommits_ran hs hruns hconf
    obtain ⟨fs, hfs, hleaves⟩ := configure_keeps (settled_received p hs).txn hrow hconf
    rw [hcommits, hfs, received_finished, List.drop_left] at hf
    rcases List.mem_append.mp hf with hfirst | hlater
    · exact hleaves f hfirst
    · exact hrest f hlater

theorem passCommits_fills (hs : Settled s.idl) (hone : st.subsystems = [subsys])
    (hrow : tableRows .system (received p s).snapshot = []) (hruns : BodyRuns p s)
    (hconf : configure st p s.hwInitDoneSet (received p s) = .ok (b, idl)) :
    ∃ f rest, passCommits st p s = f :: rest ∧ (∀ g ∈ rest, LeavesSystem g) ∧
      ((∀ r ∈ (received p s).snapshot, schema.monitored r.table = true) →
        ∃ r, tableRows .system f.txn.inserted = [r]) := by
  obtain ⟨rest, hcommits, hrest⟩ := passCommits_ran hs hruns hconf
  obtain ⟨f, hf, hsystem⟩ := configure_fills (settled_received p hs).txn hrow hconf
  refine ⟨f, rest, ?_, hrest, hsystem subsys hone⟩
  rw [hcommits, hf, received_finished, List.drop_left]
  rfl

end Commits

section Program

/-- A daemon whose platform has its one subsystem. -/
structure Daemon where
  st : Startup
  base : ∃ subsys, st.subsystems = [subsys]
  sysd : Sysd

/-- A snapshot is the daemon's copy of the database, in some order. The other clients
add no System rows. -/
def sysdProgram : Program Daemon PassInput (Database schema) (Finished schema) where
  starts d := ∃ client replies, d.sysd = Sysd.init client replies
  seen p d :=
    if (received p d.sysd).hasLock = true then some (received p d.sysd).snapshot else none
  pass p d := (passCommits d.st p d.sysd,
    (sysdRun d.st p d.sysd).toOption.map (fun s => { d with sysd := s }))
  apply f := f.txn.apply
  succeeded f := f.status = .success
  others db db' := (identities Table.system db').Subperm (identities Table.system db)
  agrees snapshot db := snapshot.Perm (replica db)

theorem monitored_replica {db : Database schema} {r : OvsRow} (h : r ∈ replica db) :
    schema.monitored r.table = true := by
  obtain ⟨q, hq, rfl⟩ := List.mem_map.mp h
  exact (List.mem_filter.mp hq).2

/-- What is received of a database that no other client has changed agrees with it. -/
theorem agrees_of_received {d : Daemon} {p : PassInput} {db : Database schema}
    (hsnapshot : (received p d.sysd).snapshot = replica db) :
    ∀ snapshot, sysdProgram.seen p d = some snapshot → sysdProgram.agrees snapshot db := by
  intro snapshot hseen
  change (if (received p d.sysd).hasLock = true then some (received p d.sysd).snapshot
    else none) = some snapshot at hseen
  split_ifs at hseen
  rw [← Option.some.inj hseen, hsnapshot]
  exact List.Perm.refl _

theorem sysdProgram_fillsOnce : FilledOnce sysdProgram (identities Table.system)
    (fun f => identities Table.system f.txn.inserted) (fun d => Settled d.sysd.idl) where
  starts d h := by
    obtain ⟨client, replies, h⟩ := h
    rw [h]
    exact settled_init client replies
  kept p d d' hd h := by
    obtain ⟨s', hs', rfl⟩ := Option.map_eq_some_iff.mp h
    have hok : sysdRun d.st p d.sysd = .ok s' := by
      cases hrun : sysdRun d.st p d.sysd with
      | ok s => rw [hrun] at hs'; exact congrArg _ (Option.some.inj hs')
      | error e => rw [hrun] at hs'; cases hs'
    exact (passed_of_ok d.st p hd.txn hok).settled hd
  apply f db := identities_apply f.txn Table.system db
  others _ _ h := h
  agrees snapshot db hagrees hempty := by
    have hperm := identities_perm Table.system hagrees
    rw [hempty, identities_replica (by decide)] at hperm
    exact List.nil_perm.mp hperm
  later p d hd f hf := by
    change f ∈ (passCommits d.st p d.sysd).tail at hf
    obtain ⟨subsys, hone⟩ := d.base
    by_cases hrow : tableRows .system (received p d.sysd).snapshot = []
    · have hcases : passCommits d.st p d.sysd = [] ∨ _ := passCommits_cases hd
      rcases hcases with hnone | ⟨hruns, b, idl, hconf⟩
      · rw [hnone] at hf
        cases hf
      · obtain ⟨g, rest, hcommits, hrest, _⟩ := passCommits_fills hd hone hrow hruns hconf
        rw [hcommits] at hf
        exact identities_eq_nil.mpr (hrest f hf)
    · exact identities_eq_nil.mpr (passCommits_keeps hd hrow f (List.mem_of_mem_tail hf))
  first p d hd f hf hadded := by
    change f ∈ (passCommits d.st p d.sysd).head? at hf
    obtain ⟨subsys, hone⟩ := d.base
    have hmem : f ∈ passCommits d.st p d.sysd := List.mem_of_mem_head? hf
    have hrow : tableRows .system (received p d.sysd).snapshot = [] := by
      by_contra hrow
      exact hadded (identities_eq_nil.mpr (passCommits_keeps hd hrow f hmem))
    have hcases : passCommits d.st p d.sysd = [] ∨ _ := passCommits_cases hd
    rcases hcases with hnone | ⟨hruns, b, idl, hconf⟩
    · rw [hnone] at hmem
      cases hmem
    · obtain ⟨g, rest, hcommits, _, hsystem⟩ := passCommits_fills hd hone hrow hruns hconf
      obtain rfl : f = g := by
        rw [hcommits] at hf
        exact (Option.some.inj hf).symm
      refine ⟨_, if_pos hruns.2.1, identities_eq_nil.mpr hrow, fun db hagrees => ?_⟩
      obtain ⟨r, hr⟩ := hsystem (fun q hq => monitored_replica (hagrees.subset hq))
      show ((tableRows .system f.txn.inserted).map Row.uuid).length = 1
      rw [hr]
      rfl

/-- In every interleaving of any number of daemons there is at most one System row,
and it comes from a daemon that held the lock when it found the table empty. -/
theorem configured_once {net₀ net : Net Daemon (Database schema) (Finished schema)}
    (hinitial : net₀.Initial) (hempty : tableRows .system net₀.store = [])
    (h : Reaches sysdProgram net₀ net) :
    (tableRows .system net.store).length ≤ 1 ∧
      ∀ r ∈ tableRows .system net.store, ∃ e ∈ net.log,
        (∃ q ∈ tableRows .system e.commit.txn.inserted, q.uuid = r.uuid) ∧ e.held = true ∧
          ∃ snapshot, e.seen = some snapshot ∧ tableRows .system snapshot = [] := by
  have hinv := inv_of_reaches sysdProgram_fillsOnce hinitial (identities_eq_nil.mpr hempty) h
  refine ⟨?_, fun r hr => ?_⟩
  · have hsingle := hinv.single
    rwa [identities, List.length_map] at hsingle
  · obtain ⟨e, he, hmem, hheld, snapshot, hseen, hrows⟩ :=
      hinv.written r.uuid (List.mem_map_of_mem hr)
    obtain ⟨q, hq, huuid⟩ := List.mem_map.mp hmem
    exact ⟨e, he, ⟨q, hq, huuid⟩, hheld, snapshot, hseen, identities_eq_nil.mp hrows⟩

/-- No process runs and the database is empty. -/
def emptyNet : Net Daemon (Database schema) (Finished schema) :=
  ⟨[], [[]], none, fun _ => none, []⟩

theorem initial_emptyNet : emptyNet.Initial := ⟨rfl, rfl, fun _ => rfl⟩

theorem reaches_of_configure {d : Daemon} {p : PassInput} {b : Bool} {idl : Idl schema}
    (hstarts : sysdProgram.starts d) (hsnapshot : (received p d.sysd).snapshot = [])
    (hruns : BodyRuns p d.sysd)
    (hconf : configure d.st p d.sysd.hwInitDoneSet (received p d.sysd) = .ok (b, idl)) :
    ∃ net, Reaches sysdProgram emptyNet net ∧ (identities Table.system net.store).length = 1 := by
  obtain ⟨subsys, hone⟩ := d.base
  have hrow : tableRows .system (received p d.sysd).snapshot = [] := by
    rw [hsnapshot]
    rfl
  obtain ⟨f, rest, hcommits, _, hsystem⟩ :=
    passCommits_fills (sysdProgram_fillsOnce.starts d hstarts) hone hrow hruns hconf
  obtain ⟨r, hr⟩ := hsystem (by simp [hsnapshot])
  have hpass : (sysdProgram.pass p d).1 = f :: rest := hcommits
  have hreplica : (received p d.sysd).snapshot = replica emptyNet.store := hsnapshot
  obtain ⟨net, hreaches, hstore⟩ :=
    reaches_alone initial_emptyNet hstarts hpass (agrees_of_received hreplica)
  refine ⟨net, hreaches, ?_⟩
  have happly : sysdProgram.apply f emptyNet.store = f.txn.apply [] := rfl
  rw [hstore, happly, identities_apply]
  show ((tableRows .system f.txn.inserted).map Row.uuid).length = 1
  rw [hr]
  rfl

def laneDaemon : Daemon :=
  ⟨lanePlatform fourLanes, ⟨_, rfl⟩, Sysd.init 1 (fun _ => plainReply .success)⟩

def lanePass : PassInput :=
  { plainPass [] .success with allocations := ⟨true, true, true⟩ }

theorem configure_laneDaemon : ∃ b idl, configure laneDaemon.st lanePass
    laneDaemon.sysd.hwInitDoneSet (received lanePass laneDaemon.sysd) = .ok (b, idl) := by
  have hexactly : Exactly (Txn.empty : Txn schema).cells _
      (sysdInitialConfigure laneDaemon.st ⟨true, true, true⟩ none) _ :=
    exactly_sysdInitialConfigure rfl rfl rfl
  have hfill : Filling ((received lanePass laneDaemon.sysd).filled .empty 0)
      (Txn.empty : Txn schema).cells := filling_empty rfl (fun r hr => by cases hr)
  obtain ⟨_, s', _, hok, _⟩ := (hexactly _ hfill).1
    ⟨rfl, by decide, fun _ => policiesGiven_lanePlatform fourLanes⟩
  have hwithin := configures_sysdInitialConfigure laneDaemon.st ⟨true, true, true⟩ none
  rcases hwithin ((received lanePass laneDaemon.sysd).filled .empty 0) .empty rfl with
    hbad | ⟨_, t, n, hrun, _⟩
  · exact absurd (hok.symm.trans hbad) (by simp)
  · exact ⟨_, _, configure_filled rfl rfl hrun⟩

theorem configured_once_laneDaemon : ∃ net, Reaches sysdProgram emptyNet net ∧
    (identities Table.system net.store).length = 1 ∧
      (tableRows .system net.store).length ≤ 1 ∧
        ∀ r ∈ tableRows .system net.store, ∃ e ∈ net.log,
          (∃ q ∈ tableRows .system e.commit.txn.inserted, q.uuid = r.uuid) ∧ e.held = true ∧
            ∃ snapshot, e.seen = some snapshot ∧ tableRows .system snapshot = [] := by
  obtain ⟨b, idl, hconf⟩ := configure_laneDaemon
  obtain ⟨net, hreaches, hone⟩ :=
    reaches_of_configure ⟨1, _, rfl⟩ rfl ⟨rfl, rfl, by decide⟩ hconf
  exact ⟨net, hreaches, hone, configured_once initial_emptyNet rfl hreaches⟩

end Program

end OpsSysd.SysdRun
