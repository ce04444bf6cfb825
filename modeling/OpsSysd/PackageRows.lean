import OpsSysd.PackageAtomicity
import OpsSysd.Survival

/-!
The package list may be short, but none of its rows is. The rows of a batch are
committed with all their columns, so unless the parser breaks inside an entry
nobody ever sees a part of one, in whatever order the daemons start, stop, load
and lose the lock.
-/

namespace OpsSysd.SysdRun

open CString Ovsdb Ovsrec Platform PackageInfo Locking

/-- The parser delivers the entries of the file up to a place between two of them. -/
def BreaksBetween (entries : List PackageEntry) (versionDetail : Option (List YamlEvent)) : Prop :=
  versionDetail = none ∨ ∃ es, es <+: entries ∧ Reads es versionDetail es.length true

/-- Every row of the package list is a whole entry of the file. -/
def WholeRows (entries : List PackageEntry) (db : Database schema) : Prop :=
  packages db ⊆ entries.map PackageEntry.content

/-- The transaction writes to no row of the package list and inserts only whole entries. -/
structure InsertsWhole (entries : List PackageEntry) (t : Txn schema) : Prop where
  updates : ∀ w ∈ t.updates, schema.tableOf w.column ≠ .packageInfo
  inserted : WholeRows entries t.inserted

section Commits

variable {entries : List PackageEntry} {st : Startup} {p : PassInput} {s : Sysd} {b b' : Bool}
  {idl idl' : Idl schema}

theorem InsertsWhole.apply {t : Txn schema} (h : InsertsWhole entries t) {db : Database schema}
    (hdb : WholeRows entries db) : WholeRows entries (t.apply db) := by
  have happly : packages (t.apply db) = packages db ++ packages t.inserted :=
    observe_apply t h.updates db
  unfold WholeRows
  rw [happly]
  exact List.append_subset.mpr ⟨hdb, h.inserted⟩

theorem insertsWhole_of_grows {F : Footprint schema} {t : Txn schema}
    (hgrows : Txn.empty.Grows F t) (htables : ¬ F.tables .packageInfo) :
    InsertsWhole entries t := by
  have houtside : ∀ c : Column, c.table = .packageInfo → ¬ F.columns c := by
    intro c hc hF
    have htable := F.table_of c hF
    rw [show schema.tableOf c = .packageInfo from hc] at htable
    exact htables htable
  have hrows : tableRows .packageInfo t.inserted = [] := hgrows.rows .packageInfo htables
  refine ⟨(hgrows.untouched houtside (Txn.untouched_empty _)).updates, ?_⟩
  have hnone : packages t.inserted = [] := List.map_eq_nil_iff.mpr hrows
  unfold WholeRows
  rw [hnone]
  exact List.nil_subset _

theorem insertsWhole_configure (hs : idl.txn = .none)
    (h : configure st p b idl = .ok (b', idl')) :
    ∃ fs, idl'.finished = idl.finished ++ fs ∧ ∀ f ∈ fs, InsertsWhole entries f.txn := by
  have hclosed : ∀ {F : Footprint schema} {t : Txn schema} {n : ℕ}, Txn.empty.Grows F t →
      ¬ F.tables .packageInfo → ∃ fs, (idl.closed t n).finished = idl.finished ++ fs ∧
        ∀ f ∈ fs, InsertsWhole entries f.txn := by
    intro F t n hgrows htables
    obtain ⟨f, hf, htxn, _⟩ := idl.closed_finished t n
    refine ⟨[f], hf, fun g hg => ?_⟩
    rw [List.mem_singleton.mp hg, htxn]
    exact insertsWhole_of_grows hgrows htables
  cases configured_of_ok st p hs h with
  | fills _ grows => exact hclosed grows (by simp [configureFootprint])
  | keeps _ _ => exact ⟨[], by simp, by simp⟩
  | waits _ _ _ => exact ⟨[], by simp, by simp⟩
  | completes _ _ _ _ grows => exact hclosed grows (by simp [hwDoneFootprint])

/-- What the loader commits of a file that does not break inside an entry. -/
theorem insertsWhole_load (hplain : ∀ e ∈ entries, e.Plain) (hs : idl.txn = .none)
    (hdetail : BreaksBetween entries p.versionDetail)
    (h : loadPackageInfo p idl = .ok ((), idl')) :
    ∃ gs, idl'.finished = idl.finished ++ gs ∧ ∀ f ∈ gs, InsertsWhole entries f.txn := by
  rcases loadPackageInfo_ok h with ⟨_, hload⟩ | ⟨_, rfl⟩
  · rcases hdetail with hnone | ⟨es, hprefix, hreads⟩
    · rw [hnone] at hload
      cases hload
      exact ⟨[], by simp, by simp⟩
    · have hes : es ⊆ entries := hprefix.subset
      obtain ⟨s', fs, hrun, hc, _, hbatched⟩ :=
        sysdAddPackageInfo_reads (fun e he => hplain e (hes he)) hs hreads
      obtain rfl : s' = idl' := (Prod.mk.inj (Except.ok.inj (hrun.symm.trans hload))).2
      refine ⟨fs, hc.finished, fun f hf => ⟨?_, fun c hc' => ?_⟩⟩
      · rw [hc.updates f hf]
        simp
      · obtain ⟨r, hr, rfl⟩ := List.mem_map.mp hc'
        have hin : r ∈ fs.flatMap (fun f => f.txn.inserted) :=
          List.mem_flatMap.mpr ⟨f, hf, (mem_rowsOf.mp hr).1⟩
        have hcontent : contentOf r ∈ es.map PackageEntry.content := by
          rw [← (hbatched rfl).contents]
          exact List.mem_map_of_mem hin
        exact List.map_subset _ hes hcontent
  · exact ⟨[], by simp, by simp⟩

/-- A commit of a pass keeps the rows whole. -/
theorem insertsWhole_passCommits (hplain : ∀ e ∈ entries, e.Plain) (hs : Settled s.idl)
    (hdetail : BreaksBetween entries p.versionDetail) :
    ∀ f ∈ passCommits st p s, InsertsWhole entries f.txn :=
  forall_passCommits hs (fun _ _ => insertsWhole_configure (settled_received p hs).txn)
    (fun _ _ htxn => insertsWhole_load hplain htxn hdetail)

end Commits

section Interleavings

variable {entries : List PackageEntry}

/-- The daemons of an image whose package file never breaks inside an entry. -/
def packageProgram (entries : List PackageEntry) :
    Program Daemon { p : PassInput // BreaksBetween entries p.versionDetail } (Database schema)
      (Finished schema) :=
  sysdProgram.within (fun p => BreaksBetween entries p.versionDetail)

/-- Another client leaves the rows whole. -/
def KeepsWhole (entries : List PackageEntry) (db db' : Database schema) : Prop :=
  WholeRows entries db → WholeRows entries db'

/-- In every interleaving of any number of daemons, whatever becomes of the lock and of each
commit, every row of the package list is a whole entry of the file, unless another client has
written another. -/
theorem packages_whole (hplain : ∀ e ∈ entries, e.Plain)
    {net₀ net : Net Daemon (Database schema) (Finished schema)} (hinitial : net₀.Initial)
    (hwhole : WholeRows entries net₀.store)
    (h : Reaches ((packageProgram entries).among (KeepsWhole entries)) net₀ net) :
    WholeRows entries net.store := by
  have hkept : ∀ p d d', Quiescent d →
      ((packageProgram entries).pass p d).2 = some d' → Quiescent d' :=
    fun p => quiescent_fillsOnce.kept p.val
  have hcommits : ∀ p d, Quiescent d → ∀ f ∈ ((packageProgram entries).pass p d).1,
      ∀ db, WholeRows entries db → WholeRows entries (f.txn.apply db) :=
    fun p d hd f hf db => (insertsWhole_passCommits hplain hd.1 p.property f hf).apply
  exact @kept_of_reaches _ _ _ _ ((packageProgram entries).among (KeepsWhole entries)) Quiescent
    _ _ (WholeRows entries) quiescent_fillsOnce.starts hkept hcommits
    (fun _ _ hothers => hothers.2) hinitial hwhole h

/-- A pass on the empty database that reads the two entries. -/
def packageLanePass : PassInput :=
  { lanePass with
    versionDetail :=
      some ((sampleEntries.flatMap PackageEntry.scalars).map .scalar ++ [.streamEnd]) }

theorem breaksBetween_packageLanePass :
    BreaksBetween sampleEntries packageLanePass.versionDetail :=
  Or.inr ⟨sampleEntries, List.prefix_refl _,
    .whole (by decide) (by decide) (Or.inr ⟨[], rfl⟩)⟩

theorem reaches_first_pass {d : Daemon}
    {p : { p : PassInput // BreaksBetween entries p.versionDetail }}
    {R : Database schema → Database schema → Prop} (hstarts : sysdProgram.starts d)
    (hsnapshot : (received p.val d.sysd).snapshot = replica []) : ∃ net,
      Reaches ((packageProgram entries).among R) emptyNet net ∧ net.store =
        (passCommits d.st p.val d.sysd).foldl (fun db f => f.txn.apply db) [] := by
  obtain ⟨net, hreaches, _, hstore⟩ := @reaches_alone_pass _ _ _ _
    ((packageProgram entries).among R) emptyNet initial_emptyNet.idle d p hstarts
    (agrees_of_received hsnapshot)
  exact ⟨net, hreaches, hstore⟩

/-- A daemon alone fills the empty database, and then the package list with the entries. -/
theorem packages_whole_sampleEntries : ∃ net,
    Reaches ((packageProgram sampleEntries).among (KeepsWhole sampleEntries)) emptyNet net ∧
      packages net.store = sampleEntries.map PackageEntry.content ∧
        WholeRows sampleEntries net.store := by
  have hpackages : packages ((passCommits laneDaemon.st packageLanePass laneDaemon.sysd).foldl
      (fun db f => f.txn.apply db) []) = sampleEntries.map PackageEntry.content := by
    decide +kernel
  obtain ⟨net, hreaches, hstore⟩ := @reaches_first_pass sampleEntries laneDaemon
    ⟨packageLanePass, breaksBetween_packageLanePass⟩ (KeepsWhole sampleEntries) ⟨1, _, rfl⟩ rfl
  rw [← hstore] at hpackages
  exact ⟨net, hreaches, hpackages, packages_whole (by decide) initial_emptyNet
    (List.nil_subset _) hreaches⟩

end Interleavings

end OpsSysd.SysdRun
