import OpsSysd.BasePath
import OpsSysd.BootRun

/-!
The local time of the switch. The body makes `/etc/localtime` a link to the zone
of the System row; while the loop sleeps the link is still the right one. The
names that the validator accepts are those whose link leads to a zone file, if no
path in the zone directory has the directory's own path in it once more.
-/

namespace OpsSysd.SysdRun

open CString Ovsdb Ovsrec Platform

section Runs

variable {st : Startup} {p : PassInput} {s s' : Sysd}

/-- Where the link points for a snapshot. -/
def Located (db : Database schema) (localtime : Option CStr) : Prop :=
  ∀ cfg, (tableRows .system db).head? = some cfg →
    localtime = some (zoneinfoBasePath ++ cfg.col .systemTimezone)

/-- The link is that of a snapshot which the replica had after the body read the sequence
number, and while that number stands nothing that alerts has changed since. -/
def LinkCurrent (s : Sysd) : Prop :=
  s.processed = none ∨ ∃ n db, s.idlSeqno ≤ n ∧ n ≤ s.idl.seqno ∧
    (s.idl.seqno = n → Quiet db s.idl.snapshot) ∧ Located db s.localtime

/-- The link is that of the System row that the client enumerates first, if there is one. -/
theorem localtime_sysdHandleTimezoneUpdate {localtime localtime' : Option CStr}
    {idl idl' : Idl schema} (hs : idl.txn = .none) (hworks : p.symlinkWorks = true)
    (h : sysdHandleTimezoneUpdate p localtime idl = .ok (localtime', idl')) :
    localtime' = ((tableRows .system idl.snapshot).head?.map
      (fun cfg => zoneinfoBasePath ++ cfg.col .systemTimezone)).or localtime := by
  unfold sysdHandleTimezoneUpdate at h
  rw [bind_ok _ (rows_closed hs .system)] at h
  cases hcfg : (tableRows .system idl.snapshot).head? with
  | none =>
    rw [hcfg] at h
    cases h
    rfl
  | some cfg =>
    rw [hcfg] at h
    obtain ⟨path, idl₁, hpath, hpure⟩ := bind_eq_ok h
    have hzone := (deref_ok hpath).1
    unfold timezoneCmd at hzone
    split_ifs at hzone
    rw [hworks] at hpure
    cases hpure
    exact hzone.symm

/-- The last thing that the body does is to make the link. -/
theorem localtime_of_ok (hs : Settled s.idl) (hruns : BodyRuns p s)
    (hworks : p.symlinkWorks = true) (h : sysdRun st p s = .ok s') :
    s'.localtime = ((tableRows .system s'.idl.snapshot).head?.map
      (fun cfg => zoneinfoBasePath ++ cfg.col .systemTimezone)).or s.localtime := by
  have hreceived := settled_received p hs
  unfold sysdRun at h
  dsimp only at h
  rw [if_neg (by simp [hruns.1]), if_neg (by simp [hruns.2.1]), if_pos hruns.2.2] at h
  rcases hbody : body st p s (received p s) with f | ⟨⟨b, localtime⟩, idl₃⟩
  · rw [hbody] at h
    cases h
  · rw [hbody] at h
    cases h
    obtain ⟨b', idl₁, hconf, hrest⟩ := bind_eq_ok hbody
    obtain ⟨_, idl₂, hload, hrest⟩ := bind_eq_ok hrest
    obtain ⟨localtime', idl₃', htime, hpure⟩ := bind_eq_ok hrest
    cases hpure
    have hsettled₁ := (configured_of_ok st p hreceived.txn hconf).settled hreceived
    have hsettled₂ := settled_loadPackageInfo hsettled₁ hload
    have hlocaltime := localtime_sysdHandleTimezoneUpdate hsettled₂.txn hworks htime
    rw [sysdHandleTimezoneUpdate_state p htime]
    exact hlocaltime

theorem located_of_ok (hs : Settled s.idl) (hruns : BodyRuns p s)
    (hworks : p.symlinkWorks = true) (h : sysdRun st p s = .ok s') :
    Located s'.idl.snapshot s'.localtime := by
  intro cfg hcfg
  rw [localtime_of_ok hs hruns hworks h, hcfg]
  rfl

theorem LinkCurrent.passed (hsettled : Settled s.idl) (hs : LinkCurrent s)
    (hworks : p.symlinkWorks = true) (h : sysdRun st p s = .ok s') : LinkCurrent s' := by
  have hlocated : BodyRuns p s → Located s'.idl.snapshot s'.localtime :=
    fun hruns => located_of_ok hsettled hruns hworks h
  have hlater := later_received p s
  cases passed_of_ok st p hsettled.txn h with
  | idle _ =>
    rcases hs with hnone | ⟨n, db, hle, hle', hquiet, hdb⟩
    · exact Or.inl hnone
    · refine Or.inr ⟨n, db, hle, Nat.le_trans hle' hlater.seqno_le, fun hn => ?_, hdb⟩
      have hsame : (received p s).seqno = s.idl.seqno := by
        have hseqno : (received p s).seqno = n := hn
        have := hlater.seqno_le
        omega
      exact (hquiet (hsame.symm.trans hn)).trans (hlater.quiet hsame)
  | @ran b idl₁ idl₂ localtime runs configured loaded _ =>
    have hpass : Later (received p s) idl₂ :=
      kept_loadPackageInfo (Later.kept _ (received p s)) configured.later loaded
    exact Or.inr ⟨idl₂.seqno, idl₂.snapshot, hpass.seqno_le, Nat.le_refl _,
      fun _ => .refl _, hlocated runs⟩

/-- Asleep with the lock, the link is that of a System row of the present snapshot. -/
theorem LinkCurrent.asleep {m : Manifest.Globals} {exiting : Bool} (hlink : LinkCurrent s)
    (hreplica : s.idl.Replicated) (hcurrent : Current m s) (hs : Sleeps exiting s)
    (hrows : tableRows .system s.idl.snapshot ≠ []) :
    ∃ r ∈ tableRows .system s.idl.snapshot,
      s.localtime = some (zoneinfoBasePath ++ r.col .systemTimezone) := by
  obtain ⟨_, hprocessed, _⟩ := (hcurrent.asleep hs).resolve_left (fun hfirst => hrows (by
    rw [hreplica.eq_nil_of_quiet hfirst.2.2]
    rfl))
  have hseqno := seqno_of_sleeps hs
  rcases hlink with hnone | ⟨n, db, hle, hle', hquiet, hlocated⟩
  · rw [hnone] at hprocessed
    cases hprocessed
  have hquiet := hquiet (by omega)
  obtain ⟨r, hr⟩ := List.exists_mem_of_ne_nil _ hrows
  obtain ⟨hin, htable⟩ := mem_rowsOf.mp hr
  obtain ⟨r', hr', hsame, _⟩ := Quiet.exists_row hquiet.symm hin (by rw [htable]; rfl)
  have hold : r' ∈ tableRows .system db := mem_rowsOf.mpr ⟨hr', hsame.trans htable⟩
  obtain ⟨cfg, hcfg⟩ : ∃ cfg, (tableRows .system db).head? = some cfg := by
    cases hrows' : tableRows .system db with
    | nil =>
      rw [hrows'] at hold
      cases hold
    | cons cfg rest => exact ⟨cfg, rfl⟩
  obtain ⟨hin', htable'⟩ := mem_rowsOf.mp (List.mem_of_mem_head? hcfg)
  obtain ⟨q, hq, hqsame, _, hcols⟩ := Quiet.exists_row hquiet hin' (by rw [htable']; rfl)
  have htimezone : q.col .systemTimezone = cfg.col .systemTimezone :=
    hcols .systemTimezone (by simp) htable'.symm
  refine ⟨q, mem_rowsOf.mpr ⟨hq, hqsame.trans htable'⟩, ?_⟩
  rw [htimezone]
  exact hlocated cfg hcfg

/-- In every run in which the links can be made, whenever the loop sleeps with the lock,
`/etc/localtime` points to the zone of a System row of the present snapshot. -/
theorem localtime_of_sleeps {client : ℕ} {replies : ℕ → Reply schema} {inputs : List PassInput}
    {exiting : Bool}
    (h : Runs.Run (sysdRun st) (fun p _ => p.symlinkWorks = true) (Sysd.init client replies)
      inputs s) (hs : Sleeps exiting s) (hrows : tableRows .system s.idl.snapshot ≠ []) :
    ∃ r ∈ tableRows .system s.idl.snapshot,
      s.localtime = some (zoneinfoBasePath ++ r.col .systemTimezone) := by
  obtain ⟨_, hlink⟩ := h.inv (I := fun s => Settled s.idl ∧ LinkCurrent s)
    ⟨settled_init client replies, Or.inl rfl⟩ (fun p t t' ht hworks hdone =>
      ⟨(passed_of_ok st p ht.1.txn hdone).settled ht.1, ht.2.passed ht.1 hworks hdone⟩)
  obtain ⟨hreplica, hcurrent⟩ := current_run (h.mono (fun _ _ _ => trivial))
  exact hlink.asleep hreplica hcurrent hs hrows

/-- After the boot the link points to the default zone. -/
theorem localtime_laneDaemon : ∃ s, Sleeps false s ∧ tableRows .system s.idl.snapshot ≠ [] ∧
    s.localtime = some (zoneinfoBasePath ++ dfltTimezone) := by
  obtain ⟨s₁, s, hfirst, hsecond, hsleeps, _, htimezone⟩ := sleeps_laneDaemon
  have hone : Runs.Run (sysdRun laneDaemon.st) (fun p _ => p.symlinkWorks = true)
      laneDaemon.sysd [lanePass] s₁ := .next .start rfl hfirst
  have hrows : tableRows .system s.idl.snapshot ≠ [] := by
    intro hnone
    rw [hnone] at htimezone
    cases htimezone
  obtain ⟨r, hr, hlink⟩ := localtime_of_sleeps (.next hone rfl hsecond) hsleeps hrows
  have hdefault : r.col .systemTimezone = dfltTimezone :=
    List.mem_singleton.mp (htimezone ▸ List.mem_map_of_mem hr)
  refine ⟨s, hsleeps, hrows, ?_⟩
  rw [hlink, hdefault]

end Runs

end OpsSysd.SysdRun

namespace OpsSysd.Timezone

open CString Deletion
open BasePath (eraseAll_first eraseAll_of_absent)

/-- What is found at a path in a directory and is no directory itself. -/
inductive LeafAt : CStr → Entries → CStr → Node → Prop
  | entry {name entryName : CStr} {entries : Entries} {node : Node}
      (mem : (entryName, node) ∈ entries) (leaf : node.isDtDir = false) :
      LeafAt name entries (joinPath name entryName) node
  | inside {name dirName path : CStr} {entries inner : Entries} {node : Node}
      (mem : (dirName, .directory inner) ∈ entries)
      (below : LeafAt (joinPath name dirName) inner path node) : LeafAt name entries path node

/-- No path in the zone directory has the directory's path in it once more. -/
def Unnested (entries : Entries) : Prop :=
  ∀ rest node, LeafAt zoneinfoDir entries (basePath ++ rest) node → ¬ basePath <:+: rest

/-- The link that the daemon makes for a zone leads to something that is no directory. -/
def Resolves (entries : Entries) (timezone : CStr) : Prop :=
  ∃ node, LeafAt zoneinfoDir entries (SysdRun.zoneinfoBasePath ++ timezone) node ∧
    node.isDir = false

section Leaves

variable {name path timezone : CStr} {entries rest : Entries} {node : Node} {zone : Zone}

theorem leafAt_cons_iff {e : CStr × Node} :
    LeafAt name (e :: entries) path node ↔
      LeafAt name [e] path node ∨ LeafAt name entries path node := by
  constructor
  · intro h
    cases h with
    | entry mem leaf =>
      rcases List.mem_cons.mp mem with rfl | hrest
      · exact Or.inl (.entry (List.mem_singleton_self _) leaf)
      · exact Or.inr (.entry hrest leaf)
    | inside mem below =>
      rcases List.mem_cons.mp mem with rfl | hrest
      · exact Or.inl (.inside (List.mem_singleton_self _) below)
      · exact Or.inr (.inside hrest below)
  · rintro (h | h)
    · cases h with
      | entry mem leaf => exact .entry (List.mem_singleton.mp mem ▸ List.mem_cons_self) leaf
      | inside mem below => exact .inside (List.mem_singleton.mp mem ▸ List.mem_cons_self) below
    · cases h with
      | entry mem leaf => exact .entry (List.mem_cons_of_mem e mem) leaf
      | inside mem below => exact .inside (List.mem_cons_of_mem e mem) below

theorem leafAt_directory_iff {dirName : CStr} :
    LeafAt name [(dirName, .directory entries)] path node ↔
      LeafAt (joinPath name dirName) entries path node := by
  constructor
  · intro h
    cases h with
    | entry mem leaf =>
      obtain ⟨rfl, rfl⟩ := Prod.mk.inj (List.mem_singleton.mp mem)
      cases leaf
    | inside mem below =>
      obtain ⟨rfl, hinner⟩ := Prod.mk.inj (List.mem_singleton.mp mem)
      cases hinner
      exact below
  · exact .inside (List.mem_singleton_self _)

theorem leafAt_leaf_iff {entryName : CStr} {leaf : Node} (hleaf : leaf.isDtDir = false) :
    LeafAt name [(entryName, leaf)] path node ↔ path = joinPath name entryName ∧ node = leaf := by
  constructor
  · intro h
    cases h with
    | entry mem _ =>
      obtain ⟨rfl, rfl⟩ := Prod.mk.inj (List.mem_singleton.mp mem)
      exact ⟨rfl, rfl⟩
    | inside mem below =>
      obtain ⟨_, rfl⟩ := Prod.mk.inj (List.mem_singleton.mp mem)
      cases hleaf
  · rintro ⟨rfl, rfl⟩
    exact .entry (List.mem_singleton_self _) hleaf

/-- A path goes on from the directory's. -/
theorem LeafAt.path_eq (h : LeafAt name entries path node) :
    ∃ rest, path = joinPath name rest := by
  induction h with
  | @entry name entryName entries node mem leaf => exact ⟨entryName, rfl⟩
  | @inside name dirName path entries inner node mem below ih =>
    obtain ⟨rest, rfl⟩ := ih
    exact ⟨joinPath dirName rest, by simp [joinPath]⟩

theorem EntriesFit.of_mem {e : CStr × Node} (h : EntriesFit name entries) (he : e ∈ entries) :
    EntryFits name e.1 e.2 := by
  induction entries with
  | nil => cases he
  | cons e' rest ih =>
    rw [EntriesFit] at h
    rcases List.mem_cons.mp he with rfl | hrest
    · exact h.1
    · exact ih h.2 hrest

theorem LeafAt.length_lt (h : LeafAt name entries path node) (hfits : EntriesFit name entries) :
    path.length < 99 := by
  induction h with
  | @entry name entryName entries node mem leaf =>
    have hentry := hfits.of_mem mem
    cases node with
    | directory inner => cases leaf
    | _ =>
      obtain ⟨_, hlength⟩ : ProperName entryName ∧ (joinPath name entryName).length < 99 := by
        simpa [EntryFits] using hentry
      exact hlength
  | @inside name dirName path entries inner node mem below ih =>
    have hentry := hfits.of_mem mem
    rw [EntryFits] at hentry
    exact ih hentry.2.2

theorem mem_zonesOf_iff (name : CStr) (entries : Entries) (zone : Zone) :
    zone ∈ zonesOf name entries ↔ ∃ path node, LeafAt name entries path node ∧
      zone = ⟨eraseAll basePath 0 path, node.isDir⟩ := by
  induction name, entries using zonesOf.induct
    (motive_1 := fun name entryName node => zone ∈ zonesOfEntry name entryName node ↔
      ∃ path leaf, LeafAt name [(entryName, node)] path leaf ∧
        zone = ⟨eraseAll basePath 0 path, leaf.isDir⟩) with
  | case1 name entryName entries ih =>
    simp only [zonesOfEntry, leafAt_directory_iff, ih]
  | case2 node name entryName hnode =>
    have hleaf : node.isDtDir = false := by
      cases node with
      | directory entries => exact (hnode entries rfl).elim
      | _ => rfl
    simp only [leafAt_leaf_iff hleaf]
    cases node with
    | directory entries => cases hleaf
    | _ => simp [zonesOfEntry]
  | case3 name =>
    constructor
    · intro hmem
      cases hmem
    · rintro ⟨path, node, hleaf, _⟩
      cases hleaf with
      | entry mem _ => cases mem
      | inside mem _ => cases mem
  | case4 name entryName node rest ihEntry ihRest =>
    have hcons : ∀ path leaf, LeafAt name ((entryName, node) :: rest) path leaf ↔
        LeafAt name [(entryName, node)] path leaf ∨ LeafAt name rest path leaf :=
      fun _ _ => leafAt_cons_iff
    rw [zonesOf, List.mem_append, ihEntry, ihRest]
    simp only [hcons, or_and_right, exists_or]

end Leaves

section Resolves

variable {entries : Entries} {timezone : CStr}

theorem basePath_append (rest : CStr) : basePath ++ rest = joinPath zoneinfoDir rest := by
  have hbase : basePath = zoneinfoDir ++ [47] := by decide
  rw [hbase, joinPath, List.append_assoc, List.singleton_append]

/-- Behind the base path only further occurrences of it are cut out. -/
theorem eraseAll_basePath_append (rest : CStr) :
    eraseAll basePath 0 (basePath ++ rest) = eraseAll basePath 0 rest := by
  have hfirst : FirstAt basePath [] rest := fun _ _ _ => Nat.zero_le _
  have herase := eraseAll_first (by decide) hfirst
  simpa using herase

/-- In a tree without nested paths a zone's name goes back to its path. -/
theorem mem_zones_iff (hunnested : Unnested entries) {zone : Zone} :
    zone ∈ zonesOf zoneinfoDir entries ↔ ∃ node,
      LeafAt zoneinfoDir entries (basePath ++ zone.name) node ∧
        zone.directoryLink = node.isDir := by
  rw [mem_zonesOf_iff]
  constructor
  · rintro ⟨path, node, hleaf, rfl⟩
    obtain ⟨rest, rfl⟩ := hleaf.path_eq
    rw [← basePath_append] at hleaf ⊢
    have hname : eraseAll basePath 0 (basePath ++ rest) = rest := by
      rw [eraseAll_basePath_append, eraseAll_of_absent (by decide) (hunnested rest node hleaf)]
    refine ⟨node, ?_, rfl⟩
    dsimp only
    rwa [hname]
  · rintro ⟨node, hleaf, hlink⟩
    refine ⟨_, node, hleaf, ?_⟩
    rw [eraseAll_basePath_append,
      eraseAll_of_absent (by decide) (hunnested zone.name node hleaf), ← hlink]

theorem checkValidTimezone_iff_resolves (hfits : EntriesFit zoneinfoDir entries)
    (hunnested : Unnested entries) (timezone : CStr) :
    checkValidTimezone entries timezone = true ↔ Resolves entries timezone := by
  rw [checkValidTimezone_iff hfits, mem_zones_iff hunnested]
  constructor
  · rintro ⟨node, hleaf, hlink⟩
    exact ⟨node, hleaf, hlink.symm⟩
  · rintro ⟨node, hleaf, hdir⟩
    exact ⟨node, hleaf, hdir.symm⟩

theorem exists_leafAt_of_cliStores (hfits : EntriesFit zoneinfoDir entries)
    (hunnested : Unnested entries) {cmd help : CStr}
    (hstores : CliStores (zoneDb entries cmd help) timezone) :
    ∃ node, LeafAt zoneinfoDir entries (SysdRun.zoneinfoBasePath ++ timezone) node := by
  obtain ⟨z, hz, rfl⟩ := (cliStores_iff hfits timezone).mp hstores
  obtain ⟨node, hleaf, _⟩ := (mem_zones_iff hunnested).mp (List.mem_of_find?_eq_some hz)
  exact ⟨node, hleaf⟩

/-- The validator accepts a time zone exactly if the link that the daemon makes for it leads
to something that is no directory; whatever the shell stores leads somewhere, and what leads
somewhere fits the daemon's buffer. -/
theorem accepted_iff_resolves (hfits : EntriesFit zoneinfoDir entries)
    (hunnested : Unnested entries) (cmd help timezone : CStr) :
    (checkValidTimezone entries timezone = true ↔ Resolves entries timezone) ∧
      (CliStores (zoneDb entries cmd help) timezone →
        ∃ node, LeafAt zoneinfoDir entries (SysdRun.zoneinfoBasePath ++ timezone) node) ∧
      ∀ node, LeafAt zoneinfoDir entries (SysdRun.zoneinfoBasePath ++ timezone) node →
        (SysdRun.zoneinfoBasePath ++ timezone).length < 200 := by
  refine ⟨checkValidTimezone_iff_resolves hfits hunnested timezone,
    exists_leafAt_of_cliStores hfits hunnested, fun node hleaf => ?_⟩
  have hlength := hleaf.length_lt hfits
  omega

theorem unnested_posixSample : Unnested posixSample := by
  have hleaf : ∀ path node, LeafAt zoneinfoDir posixSample path node →
      path = joinPath zoneinfoDir (cstr "UTC") ∨
        path = joinPath (joinPath zoneinfoDir (cstr "US")) (cstr "Pacific") := by
    intro path node h
    rcases leafAt_cons_iff.mp h with hutc | hus
    · exact Or.inl ((leafAt_leaf_iff rfl).mp hutc).1
    · exact Or.inr ((leafAt_leaf_iff rfl).mp (leafAt_directory_iff.mp hus)).1
  intro rest node h hnested
  have hpath : (basePath ++ rest).length < 52 := by
    rcases hleaf _ node h with heq | heq <;> rw [heq] <;> decide
  have hlength := hnested.length_le
  have hbase : basePath.length = 26 := by decide
  rw [List.length_append] at hpath
  omega

theorem entriesFit_posixSample : EntriesFit zoneinfoDir posixSample := by
  refine ⟨⟨?_, ?_⟩, ⟨?_, ?_, ⟨?_, ?_⟩, trivial⟩, trivial⟩ <;> decide

theorem accepted_iff_resolves_posixSample :
    checkValidTimezone posixSample (cstr "US/Pacific") = true ↔
      Resolves posixSample (cstr "US/Pacific") :=
  (accepted_iff_resolves entriesFit_posixSample unnested_posixSample [] [] _).1

end Resolves

end OpsSysd.Timezone
