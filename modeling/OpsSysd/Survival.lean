import OpsSysd.Contention
import OpsSysd.Retention

/-!
What survives the daemons. Once the database is configured, a commit of a daemon
records completion or fills the package list, so no row and no other column is
ever overwritten by one, in whatever order the daemons start, stop and commit.
-/

namespace OpsSysd.SysdRun

open CString Ovsdb Ovsrec Platform InitialConfigure Locking

/-- A completion column may go to 1; every other column keeps its value. -/
def Follows : (c : Column) → c.type.Value → c.type.Value → Prop
  | .systemCurHw, v, v' => v' = v ∨ v' = (1 : ℤ)
  | .systemNextHw, v, v' => v' = v ∨ v' = (1 : ℤ)
  | _, v, v' => v' = v

/-- The set has a column of the table. -/
def Concerns (C : Column → Prop) (k : Table) : Prop := ∃ c, C c ∧ c.table = k

/-- The rows of the tables with a column in the set are still there, and these columns
follow. -/
def Retains (C : Column → Prop) (db db' : Database schema) : Prop :=
  ∀ r ∈ db, Concerns C r.table → ∃ r' ∈ db', r'.table = r.table ∧ r'.uuid = r.uuid ∧
    ∀ c : Column, C c → c.table = r.table → Follows c (r.col c) (r'.col c)

/-- A write to the package list, or one that a completion column may take. -/
def MildWrite (w : Update schema) : Prop :=
  w.column.table = .packageInfo ∨ ∀ v, Follows w.column v w.value

/-- The transaction writes to no existing row otherwise. -/
def Mild (t : Txn schema) : Prop := ∀ w ∈ t.updates, MildWrite w

section Retains

variable {C : Column → Prop}

theorem Follows.refl (c : Column) (v : c.type.Value) : Follows c v v := by
  unfold Follows
  split
  · exact Or.inl rfl
  · exact Or.inl rfl
  · rfl

theorem Follows.trans {c : Column} {v v' v'' : c.type.Value} (h : Follows c v v')
    (h' : Follows c v' v'') : Follows c v v'' := by
  unfold Follows at *
  split at h
  · rcases h' with rfl | rfl
    · exact h
    · exact Or.inr rfl
  · rcases h' with rfl | rfl
    · exact h
    · exact Or.inr rfl
  · rw [h] at h'
    exact h'

theorem Retains.refl (C : Column → Prop) (db : Database schema) : Retains C db db :=
  fun r hr _ => ⟨r, hr, rfl, rfl, fun c _ _ => Follows.refl c _⟩

theorem Retains.trans {db db' db'' : Database schema} (h : Retains C db db')
    (h' : Retains C db' db'') : Retains C db db'' := by
  intro r hr hk
  obtain ⟨r', hr', htable', huuid', hcols'⟩ := h r hr hk
  obtain ⟨r'', hr'', htable'', huuid'', hcols''⟩ := h' r' hr' (htable' ▸ hk)
  refine ⟨r'', hr'', htable''.trans htable', huuid''.trans huuid', fun c hc hct => ?_⟩
  exact (hcols' c hc hct).trans (hcols'' c hc (hct.trans htable'.symm))

/-- Rows do not vanish, so a table with rows keeps having some. -/
theorem Retains.identities_ne_nil {db db' : Database schema} (h : Retains C db db') {k : Table}
    (hk : Concerns C k) (hrows : identities k db ≠ []) : identities k db' ≠ [] := by
  obtain ⟨u, hu⟩ := List.exists_mem_of_ne_nil _ hrows
  obtain ⟨r, hr, rfl⟩ := List.mem_map.mp hu
  obtain ⟨hin, htable⟩ := mem_rowsOf.mp hr
  obtain ⟨r', hr', htable', _⟩ := h r hin (htable ▸ hk)
  exact List.ne_nil_of_mem (List.mem_map_of_mem (mem_rowsOf.mpr ⟨hr', htable'.trans htable⟩))

/-- A write retains the columns that its own column is not among, or that it lets follow. -/
theorem retains_update {w : Update schema} (hw : C w.column → ∀ v, Follows w.column v w.value)
    (db : Database schema) : Retains C db (w.apply db) := by
  intro r hr _
  refine ⟨w.applyRow r, List.mem_map_of_mem hr, w.applyRow_table r, w.applyRow_uuid r,
    fun c hc _ => ?_⟩
  by_cases hcol : c = w.column
  · subst hcol
    by_cases his : r.is (schema.tableOf w.column) w.uuid = true
    · rw [w.applyRow_col_of_is his, Function.update_self]
      exact hw hc _
    · rw [w.applyRow_of_not_is his]
      exact Follows.refl _ _
  · rw [w.applyRow_col_of_column_ne hcol]
    exact Follows.refl _ _

theorem retains_apply (hC : ∀ c, C c → c.table ≠ .packageInfo) {t : Txn schema} (ht : Mild t)
    (db : Database schema) : Retains C db (t.apply db) := by
  have hupdated : ∀ (ws : List (Update schema)) (db : Database schema),
      (∀ w ∈ ws, MildWrite w) → Retains C db (ws.foldl (fun db w => w.apply db) db) := by
    intro ws
    induction ws with
    | nil => exact fun db _ => Retains.refl C db
    | cons w rest ih =>
      intro db hws
      have hfirst : Retains C db (w.apply db) := by
        refine retains_update (fun hc => ?_) db
        exact (hws w List.mem_cons_self).resolve_left (hC _ hc)
      exact hfirst.trans (ih _ (fun w' hw' => hws w' (List.mem_cons_of_mem w hw')))
  intro r hr hk
  obtain ⟨r', hr', hrest⟩ := hupdated t.updates db ht r hr hk
  exact ⟨r', List.mem_append_left _ hr', hrest⟩

end Retains

section Mild

/-- The computation keeps a property of the open transaction. -/
def TxnKeeps (P : Txn schema → Prop) {α : Type} (m : OvsM α) : Prop :=
  ∀ s t a s', s.txn = .opened t → P t → m s = .ok (a, s') → ∃ t', s'.txn = .opened t' ∧ P t'

theorem TxnKeeps.seq {P : Txn schema → Prop} {α β : Type} {m : OvsM α} {m' : OvsM β}
    (hm : TxnKeeps P m) (hm' : TxnKeeps P m') : TxnKeeps P (do let _ ← m; m') := by
  intro s t b s' ht hP h
  obtain ⟨_, s₁, hfirst, hrest⟩ := bind_eq_ok h
  obtain ⟨t₁, ht₁, hP₁⟩ := hm s t _ s₁ ht hP hfirst
  exact hm' s₁ t₁ b s' ht₁ hP₁ hrest

theorem mild_put {t : Txn schema} {w : Update schema} (ht : Mild t) (hw : MildWrite w) :
    Mild (t.put w) := by
  unfold Txn.put
  split_ifs
  · exact ht
  · intro w' hw'
    rcases List.mem_append.mp hw' with hold | hnew
    · exact ht w' hold
    · rw [List.mem_singleton.mp hnew]
      exact hw

theorem txnKeeps_setCol {u : Uuid} {c : Column} {v : c.type.Value} (hv : ∀ v', Follows c v' v) :
    TxnKeeps Mild (setCol u c v) := by
  intro s t a s' ht hmild h
  rcases txnWrite_ok h with rfl | ⟨t', ht', rfl⟩
  · exact ⟨t, ht, hmild⟩
  · obtain rfl : t = t' := by
      rw [ht] at ht'
      cases ht'
      rfl
    exact ⟨_, rfl, mild_put (w := ⟨u, c, v⟩) hmild (Or.inr hv)⟩

theorem txnKeeps_setHwDoneRows : TxnKeeps Mild setHwDoneRows := by
  intro s t a s' ht hmild h
  obtain ⟨systems, s₁, hrows, hloop⟩ := bind_eq_ok h
  rw [(rows_ok hrows).2] at hloop
  have hone : ∀ u : Uuid, TxnKeeps Mild
      (do setCol u .systemCurHw 1; setCol u .systemNextHw 1 : OvsM Unit) := by
    intro u
    have hcur : TxnKeeps Mild (setCol u .systemCurHw 1) := txnKeeps_setCol (fun _ => Or.inr rfl)
    have hnext : TxnKeeps Mild (setCol u .systemNextHw 1) := txnKeeps_setCol (fun _ => Or.inr rfl)
    exact hcur.seq hnext
  clear hrows h
  induction systems generalizing s t with
  | nil =>
    cases hloop
    exact ⟨t, ht, hmild⟩
  | cons r rest ih =>
    obtain ⟨_, s₂, hrow, hrest⟩ := bind_eq_ok hloop
    obtain ⟨t₂, ht₂, hmild₂⟩ := hone r.uuid s t _ s₂ ht hmild hrow
    exact ih s₂ t₂ ht₂ hmild₂ hrest

theorem mild_loadPackageInfo {p : PassInput} {idl idl' : Idl schema} (hs : idl.txn = .none)
    (h : loadPackageInfo p idl = .ok ((), idl')) :
    ∃ gs, idl'.finished = idl.finished ++ gs ∧ ∀ f ∈ gs, Mild f.txn := by
  have hkept : Kept PackageInfo.packageFootprint (fun s => (∀ t, s.txn = .opened t → Mild t) ∧
      ∃ gs, s.finished = idl.finished ++ gs ∧ ∀ f ∈ gs, Mild f.txn) := by
    refine history_kept ?_ (fun t k u _ ht => ht) (fun t w hw ht => mild_put ht (Or.inl hw)) _
    intro w hw
    cases hw
  refine (kept_loadPackageInfo hkept ⟨fun t ht => ?_, [], by simp, by simp⟩ h).2
  rw [hs] at ht
  cases ht

end Mild

section Commits

variable {st : Startup} {p : PassInput} {s : Sysd} {subsys : Subsystem} {b : Bool}
  {idl : Idl schema}

/-- The branch on the System row adds a System row or commits what is mild. -/
theorem mild_configure (hone : st.subsystems = [subsys]) (hs : idl.txn = .none)
    (hreplica : idl.Replicated) {b' : Bool} {idl' : Idl schema}
    (h : configure st p b idl = .ok (b', idl')) :
    ∃ fs, idl'.finished = idl.finished ++ fs ∧ ∀ f ∈ fs, ¬ LeavesSystem f ∨ Mild f.txn := by
  by_cases hrow : tableRows .system idl.snapshot = []
  · obtain ⟨f, hf, hadds⟩ := configure_fills hs hrow h
    obtain ⟨r, hr⟩ := hadds subsys hone hreplica
    refine ⟨[f], hf, fun g hg => Or.inl (fun hleaves => ?_)⟩
    rw [List.mem_singleton.mp hg] at hleaves
    rw [LeavesSystem, hr] at hleaves
    cases hleaves
  · cases configured_of_ok st p hs h with
    | fills row _ => exact absurd (List.head?_eq_none_iff.mp row) hrow
    | keeps _ _ => exact ⟨[], by simp, by simp⟩
    | waits _ _ _ => exact ⟨[], by simp, by simp⟩
    | @completes cfg t n _ _ _ sets _ =>
      obtain ⟨f, hf, htxn, _⟩ := idl.closed_finished t n
      have hempty : Mild .empty := fun w hw => by cases hw
      obtain ⟨t', ht', hmild⟩ := txnKeeps_setHwDoneRows _ .empty _ _ rfl hempty sets
      cases ht'
      refine ⟨[f], hf, fun g hg => Or.inr ?_⟩
      rw [List.mem_singleton.mp hg, htxn]
      exact hmild

/-- The commits of a pass are those of the branch on the System row and those of the loader. -/
theorem forall_passCommits {P : Finished schema → Prop} (hs : Settled s.idl)
    (hconfigure : ∀ b idl, configure st p s.hwInitDoneSet (received p s) = .ok (b, idl) →
      ∃ fs, idl.finished = (received p s).finished ++ fs ∧ ∀ f ∈ fs, P f)
    (hload : ∀ idl idl', idl.txn = .none → loadPackageInfo p idl = .ok ((), idl') →
      ∃ gs, idl'.finished = idl.finished ++ gs ∧ ∀ f ∈ gs, P f) :
    ∀ f ∈ passCommits st p s, P f := by
  intro f hf
  have hreceived := settled_received p hs
  rw [received_finished] at hconfigure
  have hloaded : ∀ b idl idl', configure st p s.hwInitDoneSet (received p s) = .ok (b, idl) →
      loadPackageInfo p idl = .ok ((), idl') →
        f ∈ idl'.finished.drop s.idl.finished.length → P f := by
    intro b idl idl' hconf hok hmem
    have hsettled := (configured_of_ok st p hreceived.txn hconf).settled hreceived
    obtain ⟨fs, hfs, hfirst⟩ := hconfigure _ _ hconf
    obtain ⟨gs, hgs, hlater⟩ := hload _ _ hsettled.txn hok
    rw [hgs, hfs, List.append_assoc, List.drop_left] at hmem
    rcases List.mem_append.mp hmem with hmem | hmem
    · exact hfirst f hmem
    · exact hlater f hmem
  unfold passCommits at hf
  cases hrun : sysdRun st p s with
  | ok s' =>
    rw [hrun] at hf
    cases passed_of_ok st p hs.txn hrun with
    | idle _ =>
      change f ∈ List.drop _ (received p s).finished at hf
      rw [received_finished, List.drop_length] at hf
      cases hf
    | ran _ _ loaded branch => exact hloaded _ _ _ branch loaded hf
  | error e =>
    rw [hrun] at hf
    cases hconf : configure st p s.hwInitDoneSet (received p s) with
    | ok q =>
      rw [hconf] at hf
      dsimp only at hf
      cases hok : loadPackageInfo p q.2 with
      | ok q' =>
        rw [hok] at hf
        exact hloaded _ _ _ hconf hok hf
      | error e' =>
        obtain ⟨fs, hfs, hfirst⟩ := hconfigure _ _ hconf
        rw [hok] at hf
        dsimp only at hf
        rw [hfs, List.drop_left] at hf
        exact hfirst f hf
    | error e' =>
      rw [hconf] at hf
      cases hf

theorem mild_passCommits (hone : st.subsystems = [subsys]) (hs : Settled s.idl)
    (hreplica : s.idl.Replicated) :
    ∀ f ∈ passCommits st p s, ¬ LeavesSystem f ∨ Mild f.txn := by
  refine forall_passCommits hs (fun b idl hconf => ?_) (fun idl idl' htxn hload => ?_)
  · exact mild_configure hone (settled_received p hs).txn (replicated_received hreplica) hconf
  · obtain ⟨gs, hgs, hmild⟩ := mild_loadPackageInfo htxn hload
    exact ⟨gs, hgs, fun f hf => Or.inr (hmild f hf)⟩

end Commits

section Interleavings

/-- A daemon between two passes: no transaction is open and the replica is one. -/
def Quiescent (d : Daemon) : Prop := Settled d.sysd.idl ∧ d.sysd.idl.Replicated

theorem quiescent_fillsOnce : FilledOnce sysdProgram (identities Table.system)
    (fun f => identities Table.system f.txn.inserted) Quiescent where
  starts d h := by
    obtain ⟨client, replies, h⟩ := h
    rw [Quiescent, h]
    exact ⟨settled_init client replies, fun r hr => by cases hr⟩
  kept p d d' hd h := by
    obtain ⟨s', hs', rfl⟩ := Option.map_eq_some_iff.mp h
    cases hrun : sysdRun d.st p d.sysd with
    | error e =>
      rw [hrun] at hs'
      cases hs'
    | ok s =>
      rw [hrun] at hs'
      obtain rfl : s = s' := Option.some.inj hs'
      have hpassed := passed_of_ok d.st p hd.1.txn hrun
      exact ⟨hpassed.settled hd.1, hpassed.replicated hd.2⟩
  apply := sysdProgram_fillsOnce.apply
  others := sysdProgram_fillsOnce.others
  agrees := sysdProgram_fillsOnce.agrees
  later p d hd := sysdProgram_fillsOnce.later p d hd.1
  first p d hd := sysdProgram_fillsOnce.first p d hd.1

/-- From the configured database on, in every interleaving of any number of daemons, a set of
columns and the rows of their tables stay as the other clients leave them; a completion column
can only go to 1. One of the columns is the System row's, and none is the package list's. -/
theorem configuration_survives {C : Column → Prop} (hC : ∀ c, C c → c.table ≠ .packageInfo)
    (hsystem : Concerns C .system)
    {net₀ net net' : Net Daemon (Database schema) (Finished schema)} (hinitial : net₀.Initial)
    (hempty : tableRows .system net₀.store = []) (h : Reaches sysdProgram net₀ net)
    (hconfigured : tableRows .system net.store ≠ [])
    (h' : Reaches (sysdProgram.among (Retains C)) net net') :
    Retains C net.store net'.store := by
  refine retained_of_reaches (Retains.refl C) (fun _ _ _ h h' => h.trans h')
    quiescent_fillsOnce (fun d d' hkept hrows => hkept.identities_ne_nil hsystem hrows) ?_
    hinitial (identities_eq_nil.mpr hempty) h
    (fun hnone => hconfigured (identities_eq_nil.mp hnone)) h'
  intro p d hd f hf
  obtain ⟨subsys, hone⟩ := d.base
  rcases mild_passCommits hone hd.1 hd.2 f hf with hadds | hmild
  · exact Or.inl (fun hnone => hadds (identities_eq_nil.mp hnone))
  · exact Or.inr (fun db => retains_apply hC hmild db)

theorem reaches_pass {R : Database schema → Database schema → Prop}
    {net : Net Daemon (Database schema) (Finished schema)} {d : Daemon} {p : PassInput}
    (hidle : net.Idle) (hstarts : sysdProgram.starts d)
    (hsnapshot : (received p d.sysd).snapshot = replica net.store) :
    ∃ net', Reaches (sysdProgram.among R) net net' ∧ net'.Idle ∧
      net'.store = (passCommits d.st p d.sysd).foldl (fun db f => f.txn.apply db) net.store :=
  @reaches_alone_pass _ _ _ _ (sysdProgram.among R) net hidle d p hstarts
    (agrees_of_received hsnapshot)

/-- The database that the daemon of the lanes leaves where there was nothing. -/
def laneStore : Database schema :=
  (passCommits laneDaemon.st lanePass laneDaemon.sysd).foldl (fun db f => f.txn.apply db) []

/-- The fan daemon reports that the hardware is set up. -/
def fandReports : Update schema := ⟨⟨1, 11⟩, .daemonCurHw, (1 : ℤ)⟩

theorem others_fandReports (db : Database schema) :
    (sysdProgram.among (Retains (· ∈ [.systemTimezone, .systemCurHw]))).others db
      (fandReports.apply db) := by
  have hkept : fandReports.column ∉ [Column.systemTimezone, .systemCurHw] := by decide
  refine ⟨?_, retains_update (fun hcol => absurd hcol hkept) db⟩
  change (identities Table.system (fandReports.apply db)).Subperm _
  rw [identities_apply_update]

/-- A pass that finds a database. -/
def foundPass (db : Database schema) : PassInput :=
  { lanePass with deliveries := [fun _ => db] }

theorem reaches_foundPass {R : Database schema → Database schema → Prop}
    {net : Net Daemon (Database schema) (Finished schema)} {db : Database schema}
    (hidle : net.Idle) (hothers : (sysdProgram.among R).others net.store db) :
    ∃ net', Reaches (sysdProgram.among R) net net' ∧ net'.store =
      (passCommits laneDaemon.st (foundPass db) laneDaemon.sysd).foldl
        (fun db f => f.txn.apply db) db := by
  have hsnapshot : (received (foundPass db) laneDaemon.sysd).snapshot = replica db := rfl
  obtain ⟨net', hreaches, _, hstore⟩ :=
    @reaches_pass R _ laneDaemon (foundPass db) (hidle.others db) ⟨1, _, rfl⟩ hsnapshot
  exact ⟨net', hreaches.head (.others hothers), hstore⟩

/-- One daemon configures the empty database and stops, the fan daemon reports, and a daemon
that is started again records completion: the time zone is still the one that was written. -/
theorem configuration_survives_laneDaemon : ∃ net net', Reaches sysdProgram emptyNet net ∧
    (tableRows .system net.store).map (fun r => r.col .systemCurHw) = [(0 : ℤ)] ∧
      Reaches (sysdProgram.among (Retains (· ∈ [.systemTimezone, .systemCurHw]))) net net' ∧
        (tableRows .system net'.store).map (fun r => r.col .systemCurHw) = [(1 : ℤ)] ∧
          Retains (· ∈ [.systemTimezone, .systemCurHw]) net.store net'.store := by
  have hbefore : (tableRows .system laneStore).map (fun r => r.col .systemCurHw) = [(0 : ℤ)] := by
    decide +kernel
  have hafter : (tableRows .system ((passCommits laneDaemon.st
      (foundPass (fandReports.apply laneStore)) laneDaemon.sysd).foldl
        (fun db f => f.txn.apply db) (fandReports.apply laneStore))).map
          (fun r => r.col .systemCurHw) = [(1 : ℤ)] := by decide +kernel
  obtain ⟨net, hreaches, hidle, hstore⟩ := @reaches_pass (fun _ _ => True) _ laneDaemon lanePass
    initial_emptyNet.idle ⟨1, _, rfl⟩ rfl
  have hlane : net.store = laneStore := hstore
  rw [← hlane] at hbefore
  have hreports : (sysdProgram.among (Retains (· ∈ [.systemTimezone, .systemCurHw]))).others
      net.store (fandReports.apply laneStore) := by
    rw [hlane]
    exact others_fandReports laneStore
  obtain ⟨net', hrun, hstore'⟩ := reaches_foundPass hidle hreports
  rw [← hstore'] at hafter
  have hconfigured : tableRows .system net.store ≠ [] := by
    intro hnone
    rw [hnone] at hbefore
    cases hbefore
  have hfirst : Reaches sysdProgram emptyNet net :=
    hreaches.lift id (fun _ _ => Step.of_among)
  refine ⟨net, net', hfirst, hbefore, hrun, hafter, ?_⟩
  exact configuration_survives (by decide) ⟨.systemTimezone, by decide, rfl⟩ initial_emptyNet rfl
    hfirst hconfigured hrun

end Interleavings

end OpsSysd.SysdRun
