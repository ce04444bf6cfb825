import OpsSysd.ConfigureFrame
import OpsSysd.PackageInfoFrame
import OpsSysd.Runs

/-!
What one pass can do. The branch on the System row either fills an empty
database in one transaction, or compares the stored software information with
the file and runs the handshake; the comparison is the only place where a write
meets a closed transaction.
-/

namespace OpsSysd.SysdRun

open CString Ovsdb Ovsrec Platform

/-- Every value that the os-release file determines is the stored one. -/
def UpToDate (osNameKey : CStr) (file : Option (List CStr)) (cfg : OvsRow) : Prop :=
  ∀ lines, file = some lines →
    (∀ v, (SoftwareInfo.scan osNameKey lines).softwareInfo = some v →
      cfg.col .systemSoftwareInfo = v) ∧
    ∀ v, (SoftwareInfo.scan osNameKey lines).switchVersion = some v →
      cfg.col .systemSwitchVersion = v

section Closed

variable {s : Idl schema} {cfg : OvsRow}

theorem setColOpt_closed (hs : s.txn = .none) {c : Column} (v : Option c.type.Value)
    (hr : findRow c.table cfg.uuid s.snapshot = some cfg) (hc : c ∈ schema.writeOnly) :
    ((∀ w, v = some w → cfg.col c = w) ∧ setColOpt cfg.uuid c v s = .ok ((), s)) ∨
      (¬ (∀ w, v = some w → cfg.col c = w) ∧
        setColOpt cfg.uuid c v s = .error .noTransaction) := by
  cases v with
  | none => exact .inl ⟨by simp, rfl⟩
  | some v =>
    have hwrite : setColOpt cfg.uuid c (some v) s =
        if cfg.col c = v then .ok ((), s) else .error .noTransaction :=
      @txnWrite_closed schema s hs cfg.uuid c v cfg hr hc
    rw [hwrite]
    by_cases hv : cfg.col c = v
    · refine .inl ⟨fun w hw => ?_, if_pos hv⟩
      rw [hv]
      exact Option.some.inj hw
    · exact .inr ⟨fun h => hv (h v rfl), if_neg hv⟩

/-- Outside a transaction the update compares: it changes nothing or is refused. -/
theorem sysdUpdateSwInfo_closed (hs : s.txn = .none)
    (hcfg : (tableRows .system s.snapshot).head? = some cfg) (osNameKey : CStr)
    (file : Option (List CStr)) :
    (UpToDate osNameKey file cfg ∧
        SoftwareInfo.sysdUpdateSwInfo osNameKey file cfg.uuid s = .ok ((), s)) ∨
      (¬ UpToDate osNameKey file cfg ∧
        SoftwareInfo.sysdUpdateSwInfo osNameKey file cfg.uuid s = .error .noTransaction) := by
  have hr := findRow_head hcfg
  unfold UpToDate SoftwareInfo.sysdUpdateSwInfo
  cases file with
  | none => exact .inl ⟨by simp, rfl⟩
  | some lines =>
    simp only [Option.some.injEq, forall_eq']
    have hinfo := @setColOpt_closed s cfg hs .systemSoftwareInfo
      (SoftwareInfo.scan osNameKey lines).softwareInfo hr (by decide)
    have hversion := @setColOpt_closed s cfg hs .systemSwitchVersion
      (SoftwareInfo.scan osNameKey lines).switchVersion hr (by decide)
    have hseq : ∀ m m' : OvsM Unit, (do m; m') s = (m s >>= fun q => m' q.2) := fun _ _ => rfl
    rw [hseq]
    rcases hinfo with ⟨hsame, hok⟩ | ⟨hdiff, herr⟩
    · rcases hversion with ⟨hsame', hok'⟩ | ⟨hdiff', herr'⟩
      · refine .inl ⟨⟨hsame, hsame'⟩, ?_⟩
        rw [hok]
        exact hok'
      · refine .inr ⟨fun h => hdiff' h.2, ?_⟩
        rw [hok]
        exact herr'
    · refine .inr ⟨fun h => hdiff h.1, ?_⟩
      rw [herr]
      rfl

end Closed

section Configure

variable (st : Startup) (p : PassInput) {s : Idl schema}

theorem rows_closed (hs : s.txn = .none) (k : Table) :
    @rows schema k s = .ok (tableRows k s.snapshot, s) := by
  unfold rows Idl.view
  rw [hs]

theorem sysdSetHwDone_eq (s : Idl schema) :
    sysdSetHwDone s = (transaction setHwDoneRows s).map (fun q => ((), q.2)) :=
  bind_pure_run _

theorem sysdChkIfHwDaemonsDone_eq (hs : s.txn = .none) (m : Manifest.Globals) :
    sysdChkIfHwDaemonsDone m s =
      if hwDaemonsDone m (tableRows .daemon s.snapshot) = true then
        (transaction setHwDoneRows s).map (fun q => (true, q.2))
      else .ok (false, s) := by
  unfold sysdChkIfHwDaemonsDone
  rw [bind_ok _ (rows_closed hs .daemon)]
  split_ifs with hdone
  · rw [bind_pure_run, sysdSetHwDone_eq]
    cases transaction setHwDoneRows s <;> rfl
  · rfl

theorem configure_none (hs : s.txn = .none) (hwInitDoneSet : Bool)
    (hcfg : (tableRows .system s.snapshot).head? = none) :
    configure st p hwInitDoneSet s =
      (transaction (InitialConfigure.sysdInitialConfigure st p.allocations p.osRelease) s).map
        (fun q => (hwInitDoneSet, q.2)) := by
  unfold configure
  rw [bind_ok _ (rows_closed hs .system), hcfg]
  exact bind_pure_run _

theorem configure_some (hs : s.txn = .none) (hwInitDoneSet : Bool) {cfg : OvsRow}
    (hcfg : (tableRows .system s.snapshot).head? = some cfg) :
    (¬ UpToDate st.external.softwareInfoOsName p.osRelease cfg ∧
        configure st p hwInitDoneSet s = .error .noTransaction) ∨
      (UpToDate st.external.softwareInfoOsName p.osRelease cfg ∧
        configure st p hwInitDoneSet s =
          if hwInitDoneSet = true then .ok (true, s)
          else sysdChkIfHwDaemonsDone st.manifest s) := by
  unfold configure
  rw [bind_ok _ (rows_closed hs .system), hcfg]
  rcases sysdUpdateSwInfo_closed hs hcfg st.external.softwareInfoOsName p.osRelease with
    ⟨hsame, hok⟩ | ⟨hdiff, herr⟩
  · refine .inr ⟨hsame, ?_⟩
    dsimp only
    rw [bind_ok _ hok]
    split_ifs <;> rfl
  · exact .inl ⟨hdiff, bind_error _ herr⟩

end Configure

def hwDoneFootprint : Footprint schema where
  tables := fun k => k = .system
  columns := fun c => c = .systemCurHw ∨ c = .systemNextHw
  table_of := by
    rintro c (rfl | rfl) <;> rfl

section HwDone

variable {s s' : Idl schema}

theorem within_setHwDoneRows : Within hwDoneFootprint setHwDoneRows := by
  refine (@Within.rows schema hwDoneFootprint .system).bind (fun systems => ?_)
  refine Within.forM systems (fun r _ => ?_)
  have hcur : Within hwDoneFootprint (setCol r.uuid .systemCurHw 1) := Within.txnWrite (.inl rfl)
  have hnext : Within hwDoneFootprint (setCol r.uuid .systemNextHw 1) :=
    Within.txnWrite (.inr rfl)
  exact hcur.seq hnext

/-- Both completion columns of the row read as 1. -/
def ReadsDone (s : Idl schema) (u : Uuid) : Prop :=
  s.value u Column.systemCurHw = some (1 : ℤ) ∧ s.value u Column.systemNextHw = some (1 : ℤ)

theorem readsDone_row {r : OvsRow}
    (h : (do setCol r.uuid .systemCurHw 1; setCol r.uuid .systemNextHw 1 : OvsM Unit) s =
      .ok ((), s')) :
    ReadsDone s' r.uuid ∧ ∀ u, ReadsDone s u → ReadsDone s' u := by
  obtain ⟨_, s₁, hcur, hnext⟩ := bind_eq_ok h
  obtain ⟨hcur₁, hcurOther⟩ := value_txnWrite hcur
  obtain ⟨hnext₂, hnextOther⟩ := value_txnWrite hnext
  have hcur₂ : ∀ u, s'.value u Column.systemCurHw = s₁.value u Column.systemCurHw :=
    fun u => hnextOther u _ (by simp)
  have hnext₁ : ∀ u, s₁.value u Column.systemNextHw = s.value u Column.systemNextHw :=
    fun u => hcurOther u _ (by simp)
  refine ⟨⟨(hcur₂ _).trans hcur₁, hnext₂⟩, fun u hu => ⟨?_, ?_⟩⟩
  · by_cases hur : u = r.uuid
    · rw [hur, hcur₂, hcur₁]
    · rw [hcur₂, hcurOther u _ (fun h => hur h.1), hu.1]
  · by_cases hur : u = r.uuid
    · rw [hur, hnext₂]
    · rw [hnextOther u _ (fun h => hur h.1), hnext₁, hu.2]

/-- The loop leaves both columns of every System row at 1. -/
theorem readsDone_setHwDoneRows (h : setHwDoneRows s = .ok ((), s')) :
    ∀ r ∈ tableRows .system s.view, ReadsDone s' r.uuid := by
  obtain ⟨systems, s₁, hrows, hloop⟩ := bind_eq_ok h
  obtain ⟨rfl, rfl⟩ := rows_ok hrows
  have hall : ∀ (l : List OvsRow) (s : Idl schema),
      (l.forM (fun r => do setCol r.uuid .systemCurHw 1; setCol r.uuid .systemNextHw 1) :
        OvsM Unit) s = .ok ((), s') →
      (∀ r ∈ l, ReadsDone s' r.uuid) ∧ ∀ u, ReadsDone s u → ReadsDone s' u := by
    intro l
    induction l with
    | nil =>
      intro s hs
      cases hs
      exact ⟨by simp, fun _ hu => hu⟩
    | cons r rest ih =>
      intro s hs
      obtain ⟨_, s₂, hrow, hrest⟩ := bind_eq_ok hs
      obtain ⟨hhere, hkeep⟩ := readsDone_row hrow
      obtain ⟨hin, hkeep'⟩ := ih s₂ hrest
      refine ⟨fun q hq => ?_, fun u hu => hkeep' u (hkeep u hu)⟩
      rcases List.mem_cons.mp hq with rfl | hq
      · exact hkeep' _ hhere
      · exact hin q hq
  exact (hall _ _ hloop).1

end HwDone

section Pass

variable (st : Startup) (p : PassInput)

/-- What the branch on the System row can do: the flag and the replica afterwards. -/
inductive Configured (hwInitDoneSet : Bool) (s : Idl schema) : Bool → Idl schema → Prop
  | fills {t : Txn schema} {n : ℕ} (row : (tableRows .system s.snapshot).head? = none)
      (grows : Txn.empty.Grows configureFootprint t) :
      Configured hwInitDoneSet s hwInitDoneSet (s.closed t n)
  | keeps {cfg : OvsRow} (row : (tableRows .system s.snapshot).head? = some cfg)
      (isSet : hwInitDoneSet = true) : Configured hwInitDoneSet s true s
  | waits {cfg : OvsRow} (row : (tableRows .system s.snapshot).head? = some cfg)
      (notSet : hwInitDoneSet = false)
      (notDone : hwDaemonsDone st.manifest (tableRows .daemon s.snapshot) = false) :
      Configured hwInitDoneSet s false s
  | completes {cfg : OvsRow} {t : Txn schema} {n : ℕ}
      (row : (tableRows .system s.snapshot).head? = some cfg) (notSet : hwInitDoneSet = false)
      (done : hwDaemonsDone st.manifest (tableRows .daemon s.snapshot) = true)
      (sets : setHwDoneRows (s.filled .empty s.nextSerial) = .ok ((), s.filled t n))
      (grows : Txn.empty.Grows hwDoneFootprint t) : Configured hwInitDoneSet s true (s.closed t n)

theorem configured_of_ok {hwInitDoneSet b : Bool} {s s' : Idl schema} (hs : s.txn = .none)
    (h : configure st p hwInitDoneSet s = .ok (b, s')) : Configured st hwInitDoneSet s b s' := by
  cases hcfg : (tableRows .system s.snapshot).head? with
  | none =>
    rw [configure_none st p hs hwInitDoneSet hcfg] at h
    rcases transaction_within (configures_sysdInitialConfigure st p.allocations p.osRelease) hs with
      hbad | ⟨t, n, hgrows, _, hok⟩
    · rw [hbad] at h
      cases h
    · rw [hok] at h
      cases h
      exact .fills hcfg hgrows
  | some cfg =>
    rcases configure_some st p hs hwInitDoneSet hcfg with ⟨_, herr⟩ | ⟨_, hgo⟩
    · rw [herr] at h
      cases h
    · rw [hgo] at h
      split_ifs at h with hset
      · cases h
        exact .keeps hcfg hset
      · have hnot : hwInitDoneSet = false := by simpa using hset
        rw [sysdChkIfHwDaemonsDone_eq hs] at h
        split_ifs at h with hdone
        · rcases transaction_within within_setHwDoneRows hs with hbad | ⟨t, n, hgrows, hsets, hok⟩
          · rw [hbad] at h
            cases h
          · rw [hok] at h
            cases h
            exact .completes hcfg hnot hdone hsets hgrows
        · cases h
          exact .waits hcfg hnot (by simpa using hdone)

/-- The lock is held and the replica has changed since the last pass through the body. -/
def BodyRuns (s : Sysd) : Prop :=
  (received p s).lockContended = false ∧ (received p s).hasLock = true ∧
    (received p s).seqno ≠ s.idlSeqno

/-- The pass reaches the check of the hardware daemons. -/
def Checks (s : Sysd) : Prop :=
  BodyRuns p s ∧ (tableRows .system (received p s).snapshot).head? ≠ none ∧
    s.hwInitDoneSet = false

/-- What a pass can do. -/
inductive Passed (s : Sysd) : Sysd → Prop
  | idle (notRun : ¬ BodyRuns p s) : Passed s { s with idl := received p s }
  | ran {b : Bool} {idl₁ idl₂ : Idl schema} {localtime : Option CStr} (runs : BodyRuns p s)
      (configured : Configured st s.hwInitDoneSet (received p s) b idl₁)
      (loaded : loadPackageInfo p idl₁ = .ok ((), idl₂))
      (branch : configure st p s.hwInitDoneSet (received p s) = .ok (b, idl₁)) :
      Passed s {
        idl := idl₂
        idlSeqno := (received p s).seqno
        hwInitDoneSet := b
        localtime := localtime
        processed := some (received p s).snapshot }

section Received

variable (s : Sysd)

theorem received_txn : (received p s).txn = s.idl.txn := by
  unfold received Idl.run Idl.setLock
  exact Idl.deliverAll_txn _ _

theorem received_finished : (received p s).finished = s.idl.finished := by
  unfold received Idl.run Idl.setLock
  exact Idl.deliverAll_finished _ _

theorem received_replies : (received p s).replies = p.replies := by
  unfold received Idl.run Idl.setLock
  exact Idl.deliverAll_replies _ _

theorem settled_received {s : Sysd} (h : Settled s.idl) : Settled (received p s) := by
  refine ⟨(received_txn p s).trans h.txn, ?_⟩
  rw [received_finished, ← h.created]
  exact Idl.deliverAll_created _ _

end Received

/-- The link is no change to the replica. -/
theorem sysdHandleTimezoneUpdate_state {localtime localtime' : Option CStr}
    {idl idl' : Idl schema} (h : sysdHandleTimezoneUpdate p localtime idl = .ok (localtime', idl')) :
    idl' = idl := by
  obtain ⟨systems, idl₁, hrows, hrest⟩ := bind_eq_ok h
  rw [(rows_ok hrows).2] at hrest
  cases hhead : systems.head? with
  | none =>
    rw [hhead] at hrest
    cases hrest
    rfl
  | some cfg =>
    rw [hhead] at hrest
    obtain ⟨path, idl₂, hpath, hpure⟩ := bind_eq_ok hrest
    cases hpure
    exact (deref_ok hpath).2

theorem passed_of_ok {s s' : Sysd} (hs : s.idl.txn = .none) (h : sysdRun st p s = .ok s') :
    Passed st p s s' := by
  unfold sysdRun at h
  dsimp only at h
  split_ifs at h with hcontended hlock hseqno
  · cases h
    exact .idle (fun hruns => by simp [hruns.1] at hcontended)
  · cases h
    exact .idle (fun hruns => by simp [hruns.2.1] at hlock)
  · have hruns : BodyRuns p s := ⟨by simpa using hcontended, by simpa using hlock, hseqno⟩
    rcases hbody : body st p s (received p s) with f | ⟨⟨b, localtime⟩, idl₃⟩
    · rw [hbody] at h
      cases h
    · rw [hbody] at h
      cases h
      obtain ⟨b', idl₁, hconf, hrest⟩ := bind_eq_ok hbody
      obtain ⟨_, idl₂, hload, hrest⟩ := bind_eq_ok hrest
      obtain ⟨localtime', idl₃', htime, hpure⟩ := bind_eq_ok hrest
      cases hpure
      rw [sysdHandleTimezoneUpdate_state p htime]
      exact .ran hruns (configured_of_ok st p ((received_txn p s).trans hs) hconf) hload hconf
  · cases h
    exact .idle (fun hruns => hseqno hruns.2.2)

section Settled

variable {st p} {s s' : Sysd}

theorem Configured.settled {b b' : Bool} {idl idl' : Idl schema} (hs : Settled idl)
    (h : Configured st b idl b' idl') : Settled idl' := by
  cases h with
  | fills _ _ => exact hs.closed _ _
  | keeps _ _ => exact hs
  | waits _ _ _ => exact hs
  | completes _ _ _ _ _ => exact hs.closed _ _

/-- The loader starts from where the branch on the System row ends, in one step of
the loader or in none. -/
theorem loadPackageInfo_ok {idl idl' : Idl schema}
    (h : loadPackageInfo p idl = .ok ((), idl')) :
    (tableRows .packageInfo idl.view = [] ∧
        PackageInfo.sysdAddPackageInfo p.versionDetail idl = .ok ((), idl')) ∨
      (tableRows .packageInfo idl.view ≠ [] ∧ idl' = idl) := by
  obtain ⟨packages, idl₁, hrows, hrest⟩ := bind_eq_ok h
  obtain ⟨rfl, rfl⟩ := rows_ok hrows
  split_ifs at hrest with hempty
  · exact .inl ⟨hempty, hrest⟩
  · cases hrest
    exact .inr ⟨hempty, rfl⟩

theorem settled_loadPackageInfo {idl idl' : Idl schema} (hs : Settled idl)
    (h : loadPackageInfo p idl = .ok ((), idl')) : Settled idl' := by
  rcases loadPackageInfo_ok h with ⟨_, hload⟩ | ⟨_, rfl⟩
  · exact PackageInfo.settled_sysdAddPackageInfo hs hload
  · exact hs

theorem kept_loadPackageInfo {I : Idl schema → Prop} (hI : Kept PackageInfo.packageFootprint I)
    {idl idl' : Idl schema} (hs : I idl) (h : loadPackageInfo p idl = .ok ((), idl')) :
    I idl' := by
  rcases loadPackageInfo_ok h with ⟨_, hload⟩ | ⟨_, rfl⟩
  · exact PackageInfo.steps_sysdAddPackageInfo p.versionDetail I hI _ _ _ hs hload
  · exact hs

theorem Passed.settled (hs : Settled s.idl) (h : Passed st p s s') : Settled s'.idl := by
  cases h with
  | idle _ => exact settled_received p hs
  | ran _ configured loaded =>
    exact settled_loadPackageInfo (configured.settled (settled_received p hs)) loaded

theorem replicated_received (h : s.idl.Replicated) : (received p s).Replicated :=
  Idl.Replicated.deliverAll (s := { s.idl with replies := p.replies }) h p.deliveries

/-- A pass leaves a replica of monitored tables. -/
theorem Passed.replicated (h : Passed st p s s') (hs : s.idl.Replicated) :
    s'.idl.Replicated := by
  have hreceived := replicated_received (p := p) hs
  cases h with
  | idle _ => exact hreceived
  | ran _ configured loaded =>
    refine kept_loadPackageInfo (Idl.Replicated.kept _) ?_ loaded
    cases configured with
    | fills _ _ => exact Idl.Replicated.commit (s := (received p s).filled _ _) hreceived _
    | keeps _ _ => exact hreceived
    | waits _ _ _ => exact hreceived
    | completes _ _ _ _ _ =>
      exact Idl.Replicated.commit (s := (received p s).filled _ _) hreceived _

theorem settled_init (client : ℕ) (replies : ℕ → Reply schema) :
    Settled (Sysd.init client replies).idl := ⟨rfl, rfl⟩

theorem settled_run {guard : PassInput → Sysd → Prop} {inputs : List PassInput}
    (hs : Settled s.idl) (h : Runs.Run (sysdRun st) guard s inputs s') : Settled s'.idl :=
  h.inv (I := fun s => Settled s.idl) hs
    (fun p _ _ ht _ hdone => (passed_of_ok st p ht.txn hdone).settled ht)

end Settled

end Pass

end OpsSysd.SysdRun
