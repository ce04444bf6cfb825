import OpsSysd.SysdPass

/-!
Writes and transactions of a pass outside the loader. The software information
of an existing System row is refreshed with no transaction open, which goes
well as long as there is nothing to refresh.
-/

namespace OpsSysd.SysdRun

open CString Ovsdb Ovsrec Platform

/-- The value is the stored one, or a transaction committed meanwhile writes it. -/
def Refreshed (cfg : OvsRow) (c : Column) (v : Option c.type.Value) (idl idl' : Idl schema) :
    Prop :=
  ∀ w, v = some w → cfg.col c = w ∨
    ∃ f ∈ idl'.finished.drop idl.finished.length, f.status = .success ∧
      (⟨cfg.uuid, c, w⟩ : Update schema) ∈ f.txn.updates

/-- Both values that the os-release file determines are refreshed. -/
def SwInfoRefreshed (osNameKey : CStr) (file : Option (List CStr)) (cfg : OvsRow)
    (idl idl' : Idl schema) : Prop :=
  ∀ lines, file = some lines →
    Refreshed cfg .systemSoftwareInfo (SoftwareInfo.scan osNameKey lines).softwareInfo idl idl' ∧
    Refreshed cfg .systemSwitchVersion (SoftwareInfo.scan osNameKey lines).switchVersion idl idl'

/-- The discipline of the pass. No write or commit is made without a transaction,
none is opened while another one is, and none is left when the branch on the
System row ends or when the pass returns. -/
structure Disciplined (st : Startup) (p : PassInput) (s : Sysd) : Prop where
  inside : BodyRuns p s → configure st p s.hwInitDoneSet (received p s) ≠ .error .noTransaction
  single : BodyRuns p s →
    configure st p s.hwInitDoneSet (received p s) ≠ .error .transactionOpen
  closed : BodyRuns p s → ∀ b idl, configure st p s.hwInitDoneSet (received p s) = .ok (b, idl) →
    Settled idl
  refreshed : BodyRuns p s → ∀ b idl cfg,
    configure st p s.hwInitDoneSet (received p s) = .ok (b, idl) →
    (tableRows .system (received p s).snapshot).head? = some cfg →
    SwInfoRefreshed st.external.softwareInfoOsName p.osRelease cfg (received p s) idl
  returns : ∀ s', sysdRun st p s = .ok s' → Settled s'.idl

/-- There is nothing to refresh. -/
def NothingToRefresh (st : Startup) (p : PassInput) (s : Sysd) : Prop :=
  BodyRuns p s → ∀ cfg, (tableRows .system (received p s).snapshot).head? = some cfg →
    UpToDate st.external.softwareInfoOsName p.osRelease cfg

section Configure

variable {st : Startup} {p : PassInput} {s : Idl schema} {hwInitDoneSet : Bool}

theorem transaction_error {F : Footprint schema} {m : OvsM Unit} (hm : Within F m)
    (hs : s.txn = .none) {e : Fault} (h : transaction m s = .error e) : e = .badAccess := by
  rcases transaction_within hm hs with hbad | ⟨t, n, _, _, hok⟩
  · rw [hbad] at h
    exact (Except.error.inj h).symm
  · rw [hok] at h
    cases h

/-- Apart from a bad pointer, the branch on the System row fails only where there
is something to refresh. -/
theorem configure_error (hs : s.txn = .none) {e : Fault}
    (h : configure st p hwInitDoneSet s = .error e) (he : e ≠ .badAccess) :
    e = .noTransaction ∧ ∃ cfg, (tableRows .system s.snapshot).head? = some cfg ∧
      ¬ UpToDate st.external.softwareInfoOsName p.osRelease cfg := by
  have hmap : ∀ {α : Type} {r : Except Fault (TxnStatus × Idl schema)} {g : _ → α},
      r.map g = .error e → r = .error e := by
    intro α r g hr
    cases r with
    | error e' => exact congrArg _ (Except.error.inj hr)
    | ok q => cases hr
  cases hcfg : (tableRows .system s.snapshot).head? with
  | none =>
    rw [configure_none st p hs hwInitDoneSet hcfg] at h
    have hwithin := configures_sysdInitialConfigure st p.allocations p.osRelease
    exact absurd (transaction_error hwithin hs (hmap h)) he
  | some cfg =>
    rcases configure_some st p hs hwInitDoneSet hcfg with ⟨hdiff, herr⟩ | ⟨_, hgo⟩
    · rw [herr] at h
      exact ⟨(Except.error.inj h).symm, cfg, rfl, hdiff⟩
    · rw [hgo, sysdChkIfHwDaemonsDone_eq hs] at h
      split_ifs at h
      exact absurd (transaction_error within_setHwDoneRows hs (hmap h)) he

end Configure

/-- In every reachable state a pass keeps the discipline exactly when it finds
nothing to refresh. -/
theorem disciplined_iff {st : Startup} {client : ℕ} {replies : ℕ → Reply schema}
    {inputs : List PassInput} {s : Sysd}
    (h : Runs.Run (sysdRun st) Runs.unguarded (Sysd.init client replies) inputs s)
    (p : PassInput) : Disciplined st p s ↔ NothingToRefresh st p s := by
  have hsettled := settled_run (settled_init client replies) h
  have hreceived := settled_received p hsettled
  constructor
  · intro hd hruns cfg hcfg
    rcases configure_some st p hreceived.txn s.hwInitDoneSet hcfg with ⟨_, herr⟩ | ⟨hsame, _⟩
    · exact absurd herr (hd.inside hruns)
    · exact hsame
  · intro hnothing
    have hfault : ∀ e, BodyRuns p s → e ≠ .badAccess →
        configure st p s.hwInitDoneSet (received p s) ≠ .error e := by
      intro e hruns he herr
      obtain ⟨_, cfg, hcfg, hdiff⟩ := configure_error hreceived.txn herr he
      exact hdiff (hnothing hruns cfg hcfg)
    refine ⟨fun hruns => hfault _ hruns (by decide), fun hruns => hfault _ hruns (by decide),
      fun _ b idl hok => ?_, fun hruns b idl cfg _ hcfg lines hlines => ?_, fun s' hok => ?_⟩
    · exact (configured_of_ok st p hreceived.txn hok).settled hreceived
    · obtain ⟨hinfo, hversion⟩ := hnothing hruns cfg hcfg lines hlines
      exact ⟨fun w hw => .inl (hinfo w hw), fun w hw => .inl (hversion w hw)⟩
    · exact (passed_of_ok st p hsettled.txn hok).settled hsettled

/-- The System row of an image with this version. -/
def versionRow (version : CStr) : OvsRow := systemRow.setCol .systemSwitchVersion version

/-- A pass on that row with an os-release file that determines "2 (Build: b)". -/
def releasePass (version : CStr) : PassInput :=
  { plainPass [fun _ => [versionRow version]] .success with
    osRelease := some [cstr "VERSION_ID=2\n", cstr "BUILD_ID=b\n"] }

theorem disciplined_sameImage : Disciplined fandPlatform (releasePass (cstr "2 (Build: b)"))
    (Sysd.init 0 (fun _ => plainReply .success)) := by
  refine (disciplined_iff .start _).mpr (fun _ cfg hcfg lines hlines => ?_)
  cases hcfg
  cases hlines
  constructor
  · intro v hv
    cases hv
  · intro v hv
    exact Option.some.inj (Eq.trans (by decide +kernel) hv)

/-- After an image upgrade the refresh writes without a transaction. -/
theorem not_disciplined_upgradedImage :
    ∃ s, Runs.Run (sysdRun fandPlatform) Runs.unguarded
        (Sysd.init 0 (fun _ => plainReply .success)) [] s ∧
      ¬ Disciplined fandPlatform (releasePass (cstr "1 (Build: a)")) s := by
  refine ⟨_, .start, fun hd => ?_⟩
  exact hd.inside ⟨rfl, rfl, by decide +kernel⟩ rfl

end OpsSysd.SysdRun
