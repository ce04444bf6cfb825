import OpsSysd.LocalTime
import OpsSysd.TimezoneCommand
import OpsSysd.WholeDatabase

/-!
The clock of the switch keeps a zone file. The daemon writes the default zone when it
configures the database; from then on the other clients set what the validator accepts
or the shell stores. Each link that the daemon makes leads to a leaf of the tree of
zones, and its path fits the buffer.
-/

namespace OpsSysd.SysdRun

open CString Ovsdb Ovsrec Platform InitialConfigure Deletion Timezone

/-- The link that the daemon makes for the zone leads somewhere. -/
def LeadsTo (entries : Entries) (timezone : CStr) : Prop :=
  ∃ node, LeafAt zoneinfoDir entries (zoneinfoBasePath ++ timezone) node

/-- The validator accepts the zone or the shell stores it. -/
def Offered (entries : Entries) (timezone : CStr) : Prop :=
  checkValidTimezone entries timezone = true ∨
    ∃ cmd help, CliStores (zoneDb entries cmd help) timezone

/-- The REST interface sets the zone of a System row that the validator accepts. -/
def restSetsZone (entries : Entries) (u : Uuid) (timezone : CStr) : Delivery schema := fun db =>
  if checkValidTimezone entries timezone then
    Update.apply (S := schema) ⟨u, .systemTimezone, timezone⟩ db
  else db

/-- The zone of a System row after a command; one that writes past a buffer stores none. -/
def shellZone (db : ZoneDb) (t : CliTxn) (timezoneInfo : CStr) (noFlags : Bool)
    (timezone : CStr) : CStr :=
  match TimezoneCommand.cliSetTimezone db t timezoneInfo noFlags (some ⟨some timezone⟩) with
  | some ⟨_, some ⟨some zone⟩, _⟩ => zone
  | _ => timezone

/-- The shell sets or unsets the zone of a System row. -/
def shellSetsZone (db : ZoneDb) (t : CliTxn) (timezoneInfo : CStr) (noFlags : Bool) (u : Uuid) :
    Delivery schema := fun rows => rows.map (fun r => Update.applyRow (S := schema)
  ⟨u, .systemTimezone, shellZone db t timezoneInfo noFlags (r.col .systemTimezone)⟩ r)

/-- What the other clients do: they set zones at the two interfaces, and whatever else they
change adds no System row and leaves the zones. -/
inductive ZoneClient (entries : Entries) : Delivery schema → Prop
  | rest (u : Uuid) (timezone : CStr) : ZoneClient entries (restSetsZone entries u timezone)
  | shell (cmd help : CStr) (t : CliTxn) (timezoneInfo : CStr) (noFlags : Bool) (u : Uuid) :
      ZoneClient entries (shellSetsZone (zoneDb entries cmd help) t timezoneInfo noFlags u)
  | other {d : Delivery schema} (keeps : ∀ db, ∀ r ∈ tableRows .system (d db),
      ∃ r' ∈ tableRows .system db, r.col .systemTimezone = r'.col .systemTimezone) :
      ZoneClient entries d
  | both {d d' : Delivery schema} (first : ZoneClient entries d) (second : ZoneClient entries d') :
      ZoneClient entries (fun db => d' (d db))

/-- A System row afterwards has a zone that one had before or one that is offered. -/
def SetsOffered (entries : Entries) (d : Delivery schema) : Prop :=
  ∀ db, ∀ r ∈ tableRows .system (d db), ∃ r' ∈ tableRows .system db,
    r.col .systemTimezone = r'.col .systemTimezone ∨ Offered entries (r.col .systemTimezone)

/-- A pass in which memory suffices and the link can be made. -/
structure SetsClock (entries : Entries) (p : PassInput) : Prop where
  deliveries : ∀ d ∈ p.deliveries, ZoneClient entries d
  commits : ∀ i, (∀ d ∈ (p.replies i).before, ZoneClient entries d) ∧
    ∀ d ∈ (p.replies i).after, ZoneClient entries d
  allocations : p.allocations = ⟨true, true, true⟩
  symlinkWorks : p.symlinkWorks = true

/-- The time zones of the System rows. -/
abbrev EveryZone (Q : CStr → Prop) (db : Database schema) : Prop :=
  @Every schema .systemTimezone Q db

section Offers

variable {entries : Entries} {timezone : CStr}

theorem leadsTo_of_offered (hfits : EntriesFit zoneinfoDir entries)
    (hunnested : Unnested entries) (h : Offered entries timezone) : LeadsTo entries timezone := by
  rcases h with haccepted | ⟨cmd, help, hstores⟩
  · obtain ⟨node, hleaf, _⟩ :=
      (checkValidTimezone_iff_resolves hfits hunnested timezone).mp haccepted
    exact ⟨node, hleaf⟩
  · exact exists_leafAt_of_cliStores hfits hunnested hstores

/-- The path fits the daemon's buffer and the zone the shell's. -/
theorem LeadsTo.length_lt (hfits : EntriesFit zoneinfoDir entries)
    (h : LeadsTo entries timezone) : (zoneinfoBasePath ++ timezone).length < 200 ∧
      timezone.length < Timezone.maxTimezoneNameSize := by
  obtain ⟨node, hleaf⟩ := h
  have hlength := hleaf.length_lt hfits
  have hsplit : (zoneinfoBasePath ++ timezone).length =
      zoneinfoBasePath.length + timezone.length := List.length_append
  unfold Timezone.maxTimezoneNameSize
  omega

end Offers

section Clients

variable {entries : Entries} {db : ZoneDb} {t : CliTxn} {timezoneCmd timezoneInfo timezone : CStr}
  {noFlags : Bool} {d d' : Delivery schema}

theorem SetsOffered.both (hd : SetsOffered entries d) (hd' : SetsOffered entries d') :
    SetsOffered entries (fun db => d' (d db)) := by
  intro db r hr
  obtain ⟨r', hr', hzone⟩ := hd' (d db) r hr
  obtain ⟨r'', hr'', hzone'⟩ := hd db r' hr'
  refine ⟨r'', hr'', ?_⟩
  rcases hzone with hsame | hoffered
  · rw [hsame]
    exact hzone'
  · exact Or.inr hoffered

/-- To set the zone of a System row, row by row, is such a change if the row keeps its zone
or gets one that is offered. -/
theorem setsOffered_map {u : Uuid} {zone : OvsRow → CStr}
    (hzone : ∀ r, zone r = r.col .systemTimezone ∨ Offered entries (zone r)) :
    SetsOffered entries (List.map (fun r => Update.applyRow (S := schema)
      ⟨u, .systemTimezone, zone r⟩ r)) := by
  intro db r hr
  obtain ⟨hin, htable⟩ := mem_rowsOf.mp hr
  obtain ⟨r', hr', rfl⟩ := List.mem_map.mp hin
  rw [Update.applyRow_table] at htable
  refine ⟨r', mem_rowsOf.mpr ⟨hr', htable⟩, ?_⟩
  by_cases his : r'.is (schema.tableOf Column.systemTimezone) u = true
  · rw [Update.applyRow_col_of_is _ his, Function.update_self]
    exact hzone r'
  · rw [Update.applyRow_of_not_is _ his]
    exact Or.inl rfl

theorem paired_zoneDb (hfits : EntriesFit zoneinfoDir entries) (cmd help : CStr) :
    (zoneDb entries cmd help).Paired := by
  unfold zoneDb
  rw [findPosixTimezones_eq_foldl zoneinfoDir entries (.empty cmd help) hfits]
  exact paired_foldl_addInfo (paired_empty cmd help)

/-- The zone after the lookup and the write is the old one or one that the shell stores. -/
theorem setZone_stores (hdb : db.Paired) :
    ∃ row, (Timezone.setZone db t timezoneCmd ⟨some timezone⟩).ovs = some row ∧
      (row = ⟨some timezone⟩ ∨ ∃ zone, row = ⟨some zone⟩ ∧ CliStores db zone) := by
  unfold Timezone.setZone
  cases hfound : translateCmdToFilepath db timezoneCmd with
  | none => exact ⟨_, rfl, Or.inl rfl⟩
  | some i =>
    refine ⟨_, rfl, ?_⟩
    unfold cliDoConfigFinish
    split_ifs
    · refine Or.inr ⟨_, rfl, timezoneCmd, i, hfound, ?_⟩
      have hlt := translateCmdToFilepath_lt hdb hfound
      rw [List.getD_eq_getElem?_getD, List.getElem?_eq_getElem hlt]
      rfl
    · exact Or.inl rfl

/-- A command keeps the zone or stores one of the tables. -/
theorem shellZone_stores (hdb : db.Paired) :
    shellZone db t timezoneInfo noFlags timezone = timezone ∨
      CliStores db (shellZone db t timezoneInfo noFlags timezone) := by
  unfold shellZone
  cases hrun : TimezoneCommand.cliSetTimezone db t timezoneInfo noFlags (some ⟨some timezone⟩) with
  | none => exact Or.inl rfl
  | some run =>
    have hovs : ∃ row, run.ovs = some row ∧
        (row = ⟨some timezone⟩ ∨ ∃ zone, row = ⟨some zone⟩ ∧ CliStores db zone) := by
      cases hstarts : t.starts with
      | false =>
        simp only [TimezoneCommand.cliSetTimezone, Arrays.cliSetTimezone, hstarts,
          if_true] at hrun
        cases hrun
        exact ⟨_, rfl, Or.inl rfl⟩
      | true =>
        rw [TimezoneCommand.cliSetTimezone_started hstarts
          (TimezoneCommand.copiesFit_of_some hstarts hrun)] at hrun
        cases hrun
        cases TimezoneCommand.lookedUp timezoneInfo noFlags (some timezone) with
        | none => exact ⟨_, rfl, Or.inl rfl⟩
        | some timezoneCmd => exact setZone_stores hdb
    obtain ⟨row, hrow, hcases⟩ := hovs
    rcases run with ⟨result, ovs, calls⟩
    obtain rfl : ovs = some row := hrow
    rcases hcases with rfl | ⟨zone, rfl, hstores⟩
    · exact Or.inl rfl
    · exact Or.inr hstores

/-- The other clients leave zones that were there or that are offered. -/
theorem ZoneClient.setsOffered (hfits : EntriesFit zoneinfoDir entries)
    (h : ZoneClient entries d) : SetsOffered entries d := by
  induction h with
  | rest u timezone =>
    unfold restSetsZone
    by_cases hvalid : checkValidTimezone entries timezone = true
    · simp only [if_pos hvalid]
      exact setsOffered_map (fun _ => Or.inr (Or.inl hvalid))
    · simp only [if_neg hvalid]
      exact fun db r hr => ⟨r, hr, Or.inl rfl⟩
  | shell cmd help t timezoneInfo noFlags u =>
    exact setsOffered_map (fun r => (shellZone_stores (paired_zoneDb hfits cmd help)).imp_right
      (fun hstores => Or.inr ⟨cmd, help, hstores⟩))
  | other keeps =>
    intro db r hr
    obtain ⟨r', hr', hsame⟩ := keeps db r hr
    exact ⟨r', hr', Or.inl hsame⟩
  | both _ _ ih ih' => exact ih.both ih'

/-- The other clients leave such zones, if one can start from such a zone and all that are
offered are. -/
theorem ZoneClient.keepsEvery (hfits : EntriesFit zoneinfoDir entries)
    (h : ZoneClient entries d) {Q : CStr → Prop}
    (hQ : ∀ old new, Q old → Offered entries new → Q new) :
    @KeepsEvery schema .systemTimezone Q d := by
  intro db hdb r hr
  obtain ⟨r', hr', hzone⟩ := h.setsOffered hfits db r hr
  have hold : Q (r'.col .systemTimezone) := hdb r' hr'
  rcases hzone with hsame | hoffered
  · rw [hsame]
    exact hold
  · exact hQ _ _ hold hoffered

end Clients

section Commits

variable {entries : Entries} {st : Startup} {subsys : Subsystem} {p : PassInput} {s s' : Sysd}
  {b b' : Bool} {idl idl' : Idl schema} {Q : CStr → Prop}

theorem monitored_systemTimezone : Column.systemTimezone ∈ schema.alerting ∨
    Column.systemTimezone ∈ schema.writeOnly := Or.inl (by decide)

/-- During the commits of the pass the other clients leave such zones. -/
theorem SetsClock.keepsEvery (hfits : EntriesFit zoneinfoDir entries)
    (hp : SetsClock entries p) (hQ : ∀ old new, Q old → Offered entries new → Q new)
    (hreplies : idl.replies = p.replies) : @Idl.KeepsEvery schema idl .systemTimezone Q := by
  intro i
  rw [hreplies]
  exact ⟨fun d hd => ((hp.commits i).1 d hd).keepsEvery hfits hQ,
    fun d hd => ((hp.commits i).2 d hd).keepsEvery hfits hQ⟩

theorem everyZone_received (hfits : EntriesFit zoneinfoDir entries) (hp : SetsClock entries p)
    (hQ : ∀ old new, Q old → Offered entries new → Q new) (h : EveryZone Q s.idl.snapshot) :
    EveryZone Q (received p s).snapshot :=
  every_deliverAll (s := { s.idl with replies := p.replies }) monitored_systemTimezone
    (fun d hd => (hp.deliveries d hd).keepsEvery hfits hQ) h

/-- The zones after a transaction are such zones, if those of its own rows are and it writes
no zone of another row. -/
theorem everyZone_closed (hfits : EntriesFit zoneinfoDir entries) {t : Txn schema} {n : ℕ}
    (hQ : ∀ old new, Q old → Offered entries new → Q new) (hp : SetsClock entries p)
    (hreplies : idl.replies = p.replies) (hzones : EveryZone Q idl.snapshot)
    (hupdates : (∀ w ∈ t.updates, w.column ≠ .systemTimezone) ∨
      tableRows .system idl.snapshot = []) (hinserted : EveryZone Q t.inserted) :
    @Idl.KeepsEvery schema (idl.closed t n) .systemTimezone Q ∧
      EveryZone Q (idl.closed t n).snapshot := by
  have hkeeps : @Idl.KeepsEvery schema (idl.filled t n) .systemTimezone Q :=
    hp.keepsEvery hfits hQ hreplies
  refine ⟨hkeeps.commit t, every_commit monitored_systemTimezone hkeeps hzones ?_ hinserted⟩
  rcases hupdates with hupdates | hnone
  · exact Or.inl hupdates
  · -- Other clients add no System row before the server takes up the transaction.
    have hkeepsNone : @Idl.KeepsEvery schema (idl.filled t n) .systemTimezone (fun _ => False) :=
      hp.keepsEvery hfits (fun _ _ hold _ => hold) hreplies
    have hmet := hkeepsNone.met monitored_systemTimezone (fun r hr => by
      have hrow : r ∈ tableRows .system idl.snapshot := hr
      rw [hnone] at hrow
      cases hrow)
    exact Or.inr (List.eq_nil_iff_forall_not_mem.mpr hmet)

/-- The zones after the branch on the System row are such zones, if the default is. -/
theorem everyZone_configure (hfits : EntriesFit zoneinfoDir entries)
    (hone : st.subsystems = [subsys])
    (hQ : ∀ old new, Q old → Offered entries new → Q new) (hdefault : Q dfltTimezone)
    (hp : SetsClock entries p) (hreplies : idl.replies = p.replies) (hs : idl.txn = .none)
    (hreplica : idl.Replicated) (hzones : EveryZone Q idl.snapshot)
    (h : configure st p b idl = .ok (b', idl')) :
    @Idl.KeepsEvery schema idl' .systemTimezone Q ∧ EveryZone Q idl'.snapshot := by
  by_cases hrow : tableRows .system idl.snapshot = []
  · obtain ⟨t, n, rfl, ⟨system, _, _, _, _, _, _, hcore, hsettings⟩, _⟩ :=
      configure_closed hone hs hreplica hrow hp.allocations h
    refine everyZone_closed hfits hQ hp hreplies hzones (Or.inr hrow) (fun r hr => ?_)
    have hmem : r ∈ tableRows .system t.inserted := hr
    rw [hcore.systemRows, List.mem_singleton] at hmem
    rw [hmem, hsettings.timezone]
    exact hdefault
  · cases configured_of_ok st p hs h with
    | fills row _ => exact absurd (List.head?_eq_none_iff.mp row) hrow
    | keeps _ _ => exact ⟨hp.keepsEvery hfits hQ hreplies, hzones⟩
    | waits _ _ _ => exact ⟨hp.keepsEvery hfits hQ hreplies, hzones⟩
    | @completes cfg t n _ _ _ sets grows =>
      obtain ⟨t', ht', hempty⟩ := addsNoRows_setHwDoneRows _ .empty _ _ rfl rfl sets
      obtain rfl : t = t' := TxnState.opened.inj ht'
      refine everyZone_closed hfits hQ hp hreplies hzones (Or.inl (fun w hw => ?_)) (fun r hr => ?_)
      · rcases completion_columns grows w hw with hcur | hnext
        · rw [hcur]
          exact nofun
        · rw [hnext]
          exact nofun
      · rw [hempty] at hr
        cases hr

theorem everyZone_loadPackageInfo (hs : idl.txn = .none)
    (hkeeps : @Idl.KeepsEvery schema idl .systemTimezone Q) (hzones : EveryZone Q idl.snapshot)
    (h : loadPackageInfo p idl = .ok ((), idl')) : EveryZone Q idl'.snapshot := by
  have hsystem : ¬ PackageInfo.packageFootprint.tables .system := nofun
  refine (kept_loadPackageInfo
    (@every_kept schema .systemTimezone Q _ hsystem monitored_systemTimezone)
    ⟨⟨hkeeps, hzones⟩, fun t ht => ?_⟩ h).1.2
  rw [hs] at ht
  cases ht

/-- Up to the update of the link a pass leaves such zones in the System rows. -/
theorem everyZone_loaded (hfits : EntriesFit zoneinfoDir entries)
    (hone : st.subsystems = [subsys])
    (hQ : ∀ old new, Q old → Offered entries new → Q new) (hdefault : Q dfltTimezone)
    (hp : SetsClock entries p) (hs : Settled s.idl) (hreplica : s.idl.Replicated)
    (hzones : EveryZone Q s.idl.snapshot)
    (hconf : configure st p s.hwInitDoneSet (received p s) = .ok (b, idl))
    (hload : loadPackageInfo p idl = .ok ((), idl')) :
    Settled idl' ∧ EveryZone Q idl'.snapshot := by
  have hreceived := everyZone_received hfits hp hQ hzones
  have hsettled := settled_received p hs
  obtain ⟨hkeeps, hconfigured⟩ := everyZone_configure hfits hone hQ hdefault hp
    (received_replies p s) hsettled.txn (replicated_received hreplica) hreceived hconf
  have hbranch := (configured_of_ok st p hsettled.txn hconf).settled hsettled
  exact ⟨settled_loadPackageInfo hbranch hload,
    everyZone_loadPackageInfo hbranch.txn hkeeps hconfigured hload⟩

theorem everyZone_passed (hfits : EntriesFit zoneinfoDir entries)
    (hone : st.subsystems = [subsys])
    (hQ : ∀ old new, Q old → Offered entries new → Q new) (hdefault : Q dfltTimezone)
    (hp : SetsClock entries p) (hs : Settled s.idl) (hreplica : s.idl.Replicated)
    (hzones : EveryZone Q s.idl.snapshot) (h : Passed st p s s') :
    EveryZone Q s'.idl.snapshot := by
  cases h with
  | idle _ => exact everyZone_received hfits hp hQ hzones
  | ran _ _ loaded branch =>
    exact (everyZone_loaded hfits hone hQ hdefault hp hs hreplica hzones branch loaded).2

/-- The path of the first row's zone fits the buffer of the command. -/
theorem sysdHandleTimezoneUpdate_of_leadsTo (hfits : EntriesFit zoneinfoDir entries)
    (hs : idl.txn = .none) (hzones : EveryZone (LeadsTo entries) idl.snapshot)
    (localtime : Option CStr) :
    ∃ link, sysdHandleTimezoneUpdate p localtime idl = .ok (link, idl) := by
  unfold sysdHandleTimezoneUpdate
  rw [bind_ok _ (rows_closed hs .system)]
  cases hcfg : (tableRows .system idl.snapshot).head? with
  | none => exact ⟨_, rfl⟩
  | some cfg =>
    have hleads : LeadsTo entries (cfg.col .systemTimezone) :=
      hzones cfg (List.mem_of_mem_head? hcfg)
    have hpath : timezoneCmd (cfg.col .systemTimezone) =
        some (zoneinfoBasePath ++ cfg.col .systemTimezone) := if_pos (hleads.length_lt hfits).1
    dsimp only
    rw [hpath]
    exact ⟨_, rfl⟩

end Commits

section Run

variable {entries : Entries} {st : Startup} {subsys : Subsystem} {p : PassInput} {s s' : Sysd}
  {client : ℕ} {replies : ℕ → Reply schema} {inputs : List PassInput} {exiting : Bool}

/-- The zones of the System rows and the link lead to leaves of the tree of zones. -/
structure Clocked (entries : Entries) (s : Sysd) : Prop where
  settled : Settled s.idl
  replicated : s.idl.Replicated
  zones : EveryZone (LeadsTo entries) s.idl.snapshot
  link : ∀ path, s.localtime = some path →
    ∃ timezone, path = zoneinfoBasePath ++ timezone ∧ LeadsTo entries timezone
  current : LinkCurrent s

theorem clocked_init (client : ℕ) (replies : ℕ → Reply schema) :
    Clocked entries (Sysd.init client replies) where
  settled := settled_init client replies
  replicated r hr := by cases hr
  zones r hr := by cases hr
  link path hpath := by cases hpath
  current := Or.inl rfl

theorem Clocked.passed (hfits : EntriesFit zoneinfoDir entries) (hunnested : Unnested entries)
    (hone : st.subsystems = [subsys]) (hdefault : LeadsTo entries dfltTimezone)
    (hp : SetsClock entries p) (hs : Clocked entries s) (h : sysdRun st p s = .ok s') :
    Clocked entries s' := by
  have hpassed := passed_of_ok st p hs.settled.txn h
  have hzones := everyZone_passed hfits hone (fun _ _ _ => leadsTo_of_offered hfits hunnested)
    hdefault hp hs.settled hs.replicated hs.zones hpassed
  refine ⟨hpassed.settled hs.settled, hpassed.replicated hs.replicated, hzones,
    fun path hpath => ?_, hs.current.passed hs.settled hp.symlinkWorks h⟩
  by_cases hruns : BodyRuns p s
  · rw [localtime_of_ok hs.settled hruns hp.symlinkWorks h] at hpath
    cases hcfg : (tableRows .system s'.idl.snapshot).head? with
    | none =>
      rw [hcfg] at hpath
      exact hs.link path hpath
    | some cfg =>
      rw [hcfg] at hpath
      exact ⟨_, (Option.some.inj hpath).symm, hzones cfg (List.mem_of_mem_head? hcfg)⟩
  · cases hpassed with
    | idle _ => exact hs.link path hpath
    | ran runs _ _ _ => exact absurd runs hruns

end Run

section Sample

theorem offered_posixSample :
    Offered posixSample dfltTimezone ∧
      checkValidTimezone posixSample (cstr "US/Pacific") = true := by
  have hvalid : ∀ {timezone : CStr}, Resolves posixSample timezone →
      checkValidTimezone posixSample timezone = true := fun hresolves =>
    (checkValidTimezone_iff_resolves entriesFit_posixSample unnested_posixSample _).mpr hresolves
  have hutc : zoneinfoBasePath ++ dfltTimezone = joinPath zoneinfoDir (cstr "UTC") := by decide
  have hpacific : zoneinfoBasePath ++ cstr "US/Pacific" =
      joinPath (joinPath zoneinfoDir (cstr "US")) (cstr "Pacific") := by decide
  constructor
  · refine Or.inl (hvalid ⟨.file, ?_, rfl⟩)
    rw [hutc]
    exact .entry List.mem_cons_self rfl
  · refine hvalid ⟨.link .file, ?_, rfl⟩
    rw [hpacific]
    exact .inside (List.mem_cons_of_mem _ List.mem_cons_self) (.entry List.mem_cons_self rfl)

theorem zoneClient_daemonsReport (entries : Entries) : ZoneClient entries daemonsReport := by
  refine .other (fun db r hr => ?_)
  obtain ⟨hin, htable⟩ := mem_rowsOf.mp hr
  obtain ⟨r', hr', rfl⟩ := List.mem_map.mp hin
  by_cases hdaemon : r'.table = .daemon
  · rw [if_pos hdaemon] at htable
    rw [hdaemon] at htable
    cases htable
  · rw [if_neg hdaemon] at htable ⊢
    exact ⟨r', mem_rowsOf.mpr ⟨hr', htable⟩, rfl⟩

theorem setsClock_lanePass {entries : Entries} {deliveries : List (Delivery schema)}
    (h : ∀ d ∈ deliveries, ZoneClient entries d) :
    SetsClock entries { lanePass with deliveries := deliveries } where
  deliveries := h
  commits _ := ⟨nofun, nofun⟩
  allocations := rfl
  symlinkWorks := rfl

end Sample

end OpsSysd.SysdRun
