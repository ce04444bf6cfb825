import OpsSysd.PackageLoad
import OpsSysd.SysdPass

/-!
The package list over runs. The loader commits its batches one by one and runs
again only where the list is empty, so the list is all or nothing in the runs in
which every load either stores no batch or reads the whole file and stores all.
-/

namespace OpsSysd.SysdRun

open CString Ovsdb Ovsrec Platform PackageInfo

/-- The columns of the rows of the package list. -/
def packages (db : Database schema) : List PackageContent :=
  @observe schema _ .packageInfo contentOf db

/-- The list is empty or has one row for each entry of the file. -/
def AllOrNothing (entries : List PackageEntry) (db : Database schema) : Prop :=
  packages db = [] ∨ (packages db).Perm (entries.map PackageEntry.content)

instance (entries : List PackageEntry) (db : Database schema) :
    Decidable (AllOrNothing entries db) := inferInstanceAs (Decidable (_ ∨ _))

/-- Other clients leave the list all or nothing between passes and alone during
commits, and a load stores no batch, or all batches of the whole file. -/
structure LoadsAllOrNothing (entries : List PackageEntry) (st : Startup) (p : PassInput)
    (s : Sysd) : Prop where
  deliveries : ∀ d ∈ p.deliveries, ∀ db, AllOrNothing entries db → AllOrNothing entries (d db)
  commits : ∀ i, (∀ d ∈ (p.replies i).before, @Leaves schema _ .packageInfo contentOf d) ∧
    ∀ d ∈ (p.replies i).after, @Leaves schema _ .packageInfo contentOf d
  load : ∃ names whole, Reads entries p.versionDetail names whole ∧
    (BodyRuns p s → ∀ b idl, configure st p s.hwInitDoneSet (received p s) = .ok (b, idl) →
      packages idl.snapshot = [] →
      (∀ i < batches names, ¬ idl.succeeds i) ∨
        (whole = true ∧ ∀ i < batches names, idl.succeeds i))

section Load

variable {entries : List PackageEntry} {s₀ s : Idl schema}

theorem allOrNothing_load (hplain : ∀ e ∈ entries, e.Plain) (hs : s₀.txn = .none)
    (hleaves : @Idl.LeavesTable schema _ .packageInfo contentOf s₀)
    (hempty : packages s₀.snapshot = []) {versionDetail : Option (List YamlEvent)} {names : ℕ}
    {whole : Bool} (hreads : Reads entries versionDetail names whole)
    (houtcome : (∀ i < batches names, ¬ s₀.succeeds i) ∨
      (whole = true ∧ ∀ i < batches names, s₀.succeeds i))
    (hrun : sysdAddPackageInfo versionDetail s₀ = .ok ((), s)) :
    AllOrNothing entries s.snapshot := by
  obtain ⟨s', fs, hrun', hc, hlength, hbatched⟩ := sysdAddPackageInfo_reads hplain hs hreads
  have hsame : s' = s := by
    rw [hrun'] at hrun
    cases hrun
    rfl
  subst hsame
  have hrows : (packages s'.snapshot).Perm
      (@observe schema _ .packageInfo contentOf (stored fs)) := by
    have h := (hc.observed hleaves).2
    rwa [show observe Table.packageInfo contentOf s₀.snapshot = [] from hempty,
      List.nil_append] at h
  rcases houtcome with hnone | ⟨hwhole, hall⟩
  · left
    have hfilter : fs.filter (fun f => f.status = .success) = [] := by
      rw [List.filter_eq_nil_iff]
      intro f hf hsuccess
      obtain ⟨i, hi, rfl⟩ := List.mem_iff_getElem.mp hf
      exact hnone i (hlength ▸ hi) ((hc.status i hi).mp (by simpa using hsuccess))
    unfold stored at hrows
    rw [hfilter] at hrows
    exact List.Perm.eq_nil hrows
  · right
    have hfilter : fs.filter (fun f => f.status = .success) = fs := by
      rw [List.filter_eq_self]
      intro f hf
      obtain ⟨i, hi, rfl⟩ := List.mem_iff_getElem.mp hf
      simpa using (hc.status i hi).mpr (hall i (hlength ▸ hi))
    have hb := hbatched hwhole
    have hobserve : @observe schema _ .packageInfo contentOf (stored fs) =
        entries.map PackageEntry.content := by
      rw [← hb.contents]
      unfold stored observe rowsOf
      rw [hfilter, List.filter_eq_self.mpr]
      intro r hr
      obtain ⟨f, hf, hin⟩ := List.mem_flatMap.mp hr
      simpa using hb.tables f hf r hin
    rw [hobserve] at hrows
    exact hrows

end Load

section Pass

variable {st : Startup} {p : PassInput} {s s' : Sysd} {entries : List PackageEntry}

theorem allOrNothing_replica (db : Database schema) :
    AllOrNothing entries (replica db) ↔ AllOrNothing entries db := by
  unfold AllOrNothing packages
  rw [observable_contentOf db]

theorem allOrNothing_received (hs : AllOrNothing entries s.idl.snapshot)
    (hp : ∀ d ∈ p.deliveries, ∀ db, AllOrNothing entries db → AllOrNothing entries (d db)) :
    AllOrNothing entries (received p s).snapshot := by
  have hsnapshot : (received p s).snapshot =
      p.deliveries.foldl (fun db d => replica (d db)) s.idl.snapshot :=
    Idl.deliverAll_snapshot _ _
  rw [hsnapshot]
  generalize s.idl.snapshot = db at hs
  generalize p.deliveries = ds at hp
  induction ds generalizing db with
  | nil => exact hs
  | cons d rest ih =>
    refine ih _ ?_ (fun d' hd' => hp d' (by simp [hd']))
    exact (allOrNothing_replica _).mpr (hp d (by simp) db hs)

theorem Configured.leaves_packages {b b' : Bool} {idl idl' : Idl schema}
    (hleaves : @Idl.LeavesTable schema _ .packageInfo contentOf idl)
    (h : Configured st b idl b' idl') :
    @Idl.LeavesTable schema _ .packageInfo contentOf idl' ∧
      (packages idl'.snapshot).Perm (packages idl.snapshot) := by
  have hclosed : ∀ {F : Footprint schema} {t : Txn schema} {n : ℕ}, Txn.empty.Grows F t →
      ¬ F.tables .packageInfo → @Idl.LeavesTable schema _ .packageInfo contentOf (idl.closed t n) ∧
        (packages (idl.closed t n).snapshot).Perm (packages idl.snapshot) := by
    intro F t n hgrows htables
    have hupdates : ∀ w ∈ t.updates, schema.tableOf w.column ≠ .packageInfo := by
      have houtside : ∀ c : Column, c.table = .packageInfo → ¬ F.columns c := by
        intro c hc hF
        have htable := F.table_of c hF
        rw [show schema.tableOf c = .packageInfo from hc] at htable
        exact htables htable
      exact (hgrows.untouched houtside (Txn.untouched_empty _)).updates
    have hinserted : @observe schema _ .packageInfo contentOf t.inserted = [] := by
      unfold observe
      rw [hgrows.rows .packageInfo htables]
      rfl
    have hperm := observe_commit observable_contentOf (s := idl.filled t n) hleaves t hupdates
    rw [hinserted, ite_self, List.append_nil] at hperm
    exact ⟨Idl.LeavesTable.commit (s := idl.filled t n) hleaves t, hperm⟩
  cases h with
  | fills _ grows => exact hclosed grows (by simp [configureFootprint])
  | keeps _ _ => exact ⟨hleaves, .refl _⟩
  | waits _ _ _ => exact ⟨hleaves, .refl _⟩
  | completes _ _ _ _ grows => exact hclosed grows (by simp [hwDoneFootprint])

theorem AllOrNothing.of_perm {db db' : Database schema} (h : AllOrNothing entries db)
    (hperm : (packages db').Perm (packages db)) : AllOrNothing entries db' := by
  rcases h with hempty | hall
  · left
    rw [hempty] at hperm
    exact hperm.eq_nil
  · exact .inr (hperm.trans hall)

theorem AllOrNothing.passed (hplain : ∀ e ∈ entries, e.Plain) (hsettled : Settled s.idl)
    (hs : AllOrNothing entries s.idl.snapshot) (hp : LoadsAllOrNothing entries st p s)
    (h : Passed st p s s') : AllOrNothing entries s'.idl.snapshot := by
  have hreceived := allOrNothing_received hs hp.deliveries
  have hleaves : @Idl.LeavesTable schema _ .packageInfo contentOf (received p s) := by
    unfold Idl.LeavesTable
    rw [received_replies]
    exact hp.commits
  cases h with
  | idle _ => exact hreceived
  | @ran b idl₁ idl₂ localtime runs configured loaded branch =>
    obtain ⟨hleaves₁, hperm⟩ := configured.leaves_packages hleaves
    have htxn := (configured.settled (settled_received p hsettled)).txn
    rcases loadPackageInfo_ok loaded with ⟨hempty, hload⟩ | ⟨_, rfl⟩
    · have hnone : packages idl₁.snapshot = [] := by
        unfold Idl.view at hempty
        rw [htxn] at hempty
        exact List.map_eq_nil_iff.mpr hempty
      obtain ⟨names, whole, hreads, houtcome⟩ := hp.load
      exact allOrNothing_load hplain htxn hleaves₁ hnone hreads
        (houtcome runs b idl₁ branch hnone) hload
    · exact hreceived.of_perm hperm

end Pass

/-- In every run whose loads store nothing or the whole file, and in which the other
clients leave the list alone, the list is all or nothing. -/
theorem allOrNothing_run {st : Startup} {entries : List PackageEntry} {client : ℕ}
    {replies : ℕ → Reply schema} {inputs : List PassInput} {s : Sysd}
    (hplain : ∀ e ∈ entries, e.Plain)
    (h : Runs.Run (sysdRun st) (LoadsAllOrNothing entries st) (Sysd.init client replies)
      inputs s) : AllOrNothing entries s.idl.snapshot := by
  have hinv := h.inv (I := fun s => Settled s.idl ∧ AllOrNothing entries s.idl.snapshot)
    ⟨settled_init client replies, .inl rfl⟩ (by
      rintro p t t' ⟨ht, hall⟩ hp hdone
      have hpassed := passed_of_ok st p ht.txn hdone
      exact ⟨hpassed.settled ht, hall.passed hplain ht hp hpassed⟩)
  exact hinv.2

/-- A first pass of which the parser delivers these scalars of the file. -/
def packagePass (scalars : List CStr) (stop : List YamlEvent) : PassInput :=
  { plainPass [fun db => systemRow :: db] .success with
    versionDetail := some (scalars.map .scalar ++ stop) }

theorem allOrNothing_sampleEntries :
    ∃ s, Runs.Run (sysdRun fandPlatform) (LoadsAllOrNothing sampleEntries fandPlatform)
        (Sysd.init 0 (fun _ => plainReply .success))
        [packagePass (sampleEntries.flatMap PackageEntry.scalars) [.streamEnd]] s ∧
      AllOrNothing sampleEntries s.idl.snapshot ∧ packages s.idl.snapshot ≠ [] := by
  have hguard : LoadsAllOrNothing sampleEntries fandPlatform
      (packagePass (sampleEntries.flatMap PackageEntry.scalars) [.streamEnd])
      (Sysd.init 0 (fun _ => plainReply .success)) := by
    refine ⟨fun d hd db hdb => ?_, fun i => ⟨?_, ?_⟩, 2, true, ?_, fun _ b idl hbranch _ => ?_⟩
    · rw [List.mem_singleton.mp hd]
      exact hdb
    · intro d hd
      cases hd
    · intro d hd
      cases hd
    · exact .whole (by decide) (by decide) (.inr ⟨[], rfl⟩)
    · have hwaits : configure fandPlatform
          (packagePass (sampleEntries.flatMap PackageEntry.scalars) [.streamEnd]) false
          (received (packagePass (sampleEntries.flatMap PackageEntry.scalars) [.streamEnd])
            (Sysd.init 0 (fun _ => plainReply .success))) = .ok (false, _) := rfl
      cases hwaits.symm.trans hbranch
      exact .inr ⟨rfl, fun _ _ => ⟨rfl, fun _ _ => rfl, rfl⟩⟩
  obtain ⟨s, hdone, hstored⟩ : ∃ s, sysdRun fandPlatform
      (packagePass (sampleEntries.flatMap PackageEntry.scalars) [.streamEnd])
      (Sysd.init 0 (fun _ => plainReply .success)) = .ok s ∧
      packages s.idl.snapshot = sampleEntries.map PackageEntry.content :=
    Runs.exists_ok (by decide +kernel)
  refine ⟨s, .next .start hguard hdone, ?_, by rw [hstored]; decide⟩
  exact allOrNothing_run (by decide) (.next .start hguard hdone)

/-- The parser fails after the first entry, and the batch with that entry is stored. -/
theorem not_allOrNothing_parse_error :
    ∃ s, Runs.Run (sysdRun fandPlatform) Runs.unguarded
        (Sysd.init 0 (fun _ => plainReply .success))
        [packagePass ((sampleEntries.take 1).flatMap PackageEntry.scalars) []] s ∧
      Reads sampleEntries
        (packagePass ((sampleEntries.take 1).flatMap PackageEntry.scalars) []).versionDetail 1
        false ∧
      ¬ AllOrNothing sampleEntries s.idl.snapshot := by
  obtain ⟨s, hdone, hstored⟩ : ∃ s, sysdRun fandPlatform
      (packagePass ((sampleEntries.take 1).flatMap PackageEntry.scalars) [])
      (Sysd.init 0 (fun _ => plainReply .success)) = .ok s ∧
      packages s.idl.snapshot = (sampleEntries.take 1).map PackageEntry.content :=
    Runs.exists_ok (by decide +kernel)
  refine ⟨s, .next .start trivial hdone, ?_, by unfold AllOrNothing; rw [hstored]; decide⟩
  have hsplit : sampleEntries =
      sampleEntries.take 1 ++ sampleEntries.getLast (by decide) :: [] := by
    decide
  exact @Reads.breaks sampleEntries _ _ _ _ [] hsplit (by decide) (by decide) (by decide)

end OpsSysd.SysdRun
