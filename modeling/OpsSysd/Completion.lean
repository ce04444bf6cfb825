import OpsSysd.SysdPass

/-!
The flag that completion has been recorded, against the history of commits. The
flag is set after the completion commit whatever its outcome, so it is right in
the runs in which every completion commit changes something and succeeds.
-/

namespace OpsSysd.SysdRun

open CString Ovsdb Ovsrec Platform

/-- Both completion columns of the row are 1 as the transaction leaves it. -/
def DoneThrough (t : Txn schema) (db : Database schema) (u : Uuid) : Prop :=
  (@Txn.find schema t .system u db).map (fun r => (r.col .systemCurHw : ℤ)) = some 1 ∧
    (@Txn.find schema t .system u db).map (fun r => (r.col .systemNextHw : ℤ)) = some 1

instance (t : Txn schema) (db : Database schema) (u : Uuid) : Decidable (DoneThrough t db u) :=
  inferInstanceAs (Decidable (_ ∧ _))

/-- The transaction sets the completion columns: they were not all 1 and are now. -/
def SetsHwDone (f : Finished schema) : Prop :=
  (∃ r ∈ tableRows .system f.seen, ¬ DoneThrough .empty f.seen r.uuid) ∧
    ∀ r ∈ tableRows .system f.seen, DoneThrough f.txn f.seen r.uuid

/-- The flag is only set after a commit with success. -/
def Recorded (s : Sysd) : Prop :=
  s.hwInitDoneSet = true → ∃ f ∈ s.idl.finished, f.status = .success ∧ SetsHwDone f

section Pass

variable (st : Startup) (p : PassInput) (s : Sysd)

/-- The pass reaches `sysd_set_hw_done`. -/
def Completes : Prop :=
  Checks p s ∧ hwDaemonsDone st.manifest (tableRows .daemon (received p s).snapshot) = true

/-- The completion commit has something to change, and the server accepts it. -/
def CompletionSucceeds : Prop :=
  Completes st p s →
    (∃ r ∈ tableRows .system (received p s).snapshot,
      ¬ DoneThrough .empty (received p s).snapshot r.uuid) ∧
    (p.replies 0).status = .success

/-- A completion commit, which is the first of its pass, leaves the flag unset
unless it succeeds. -/
def FailureLeavesUnset (s' : Sysd) : Prop :=
  Completes st p s → ∀ f, s'.idl.finished[s.idl.finished.length]? = some f →
    f.status ≠ .success → s'.hwInitDoneSet = false

end Pass

section Commit

variable {idl idl' : Idl schema} {t : Txn schema} {n : ℕ}

theorem readsDone_iff (ht : idl.txn = .opened t) (u : Uuid) :
    ReadsDone idl u ↔ DoneThrough t idl.snapshot u := by
  unfold ReadsDone DoneThrough
  rw [Idl.value_opened ht, Idl.value_opened ht]
  exact Iff.rfl

/-- Where both columns of every row are 1 already, all writes are dropped. -/
theorem setHwDoneRows_done (h : ∀ r ∈ tableRows .system idl.view, ReadsDone idl r.uuid) :
    setHwDoneRows idl = .ok ((), idl) := by
  have hloop : ∀ l : List OvsRow, (∀ r ∈ l, ReadsDone idl r.uuid) →
      (l.forM (fun r => do setCol r.uuid .systemCurHw 1; setCol r.uuid .systemNextHw 1) :
        OvsM Unit) idl = .ok ((), idl) := by
    intro l
    induction l with
    | nil => intro _; rfl
    | cons r rest ih =>
      intro hl
      obtain ⟨hcur, hnext⟩ := hl r (by simp)
      have hcur' : setCol r.uuid .systemCurHw 1 idl = .ok ((), idl) :=
        txnWrite_same (by decide) hcur
      have hnext' : setCol r.uuid .systemNextHw 1 idl = .ok ((), idl) :=
        txnWrite_same (by decide) hnext
      have hrow : (do setCol r.uuid .systemCurHw 1; setCol r.uuid .systemNextHw 1 :
          OvsM Unit) idl = .ok ((), idl) := (bind_ok _ hcur').trans hnext'
      exact (bind_ok _ hrow).trans (ih (fun q hq => hl q (by simp [hq])))
  exact hloop _ h

theorem doneThrough_of_sets (hs : setHwDoneRows (idl.filled .empty idl.nextSerial) =
    .ok ((), idl.filled t n)) :
    ∀ r ∈ tableRows .system idl.snapshot, DoneThrough t idl.snapshot r.uuid := by
  have hview : (idl.filled .empty idl.nextSerial).view = idl.snapshot := by
    simp [Idl.view, Idl.filled, Txn.apply, Txn.updated, Txn.empty]
  have hread := readsDone_setHwDoneRows hs
  rw [hview] at hread
  intro r hr
  exact (@readsDone_iff (idl.filled t n) t rfl r.uuid).mp (hread r hr)

/-- The completion transaction is empty exactly where there is nothing to change. -/
theorem isEmpty_iff_of_sets (hs : setHwDoneRows (idl.filled .empty idl.nextSerial) =
    .ok ((), idl.filled t n)) :
    t.isEmpty = false ↔
      ∃ r ∈ tableRows .system idl.snapshot, ¬ DoneThrough .empty idl.snapshot r.uuid := by
  have hview : (idl.filled .empty idl.nextSerial).view = idl.snapshot := by
    simp [Idl.view, Idl.filled, Txn.apply, Txn.updated, Txn.empty]
  constructor
  · intro hne
    by_contra hno
    push Not at hno
    have hsame : setHwDoneRows (idl.filled .empty idl.nextSerial) =
        .ok ((), idl.filled .empty idl.nextSerial) := by
      apply setHwDoneRows_done
      rw [hview]
      intro r hr
      exact (readsDone_iff rfl r.uuid).mpr (hno r hr)
    rw [hsame] at hs
    have ht : t = .empty := by
      have htxn := congrArg Idl.txn (congrArg Prod.snd (Except.ok.inj hs))
      exact (TxnState.opened.inj htxn).symm
    rw [ht] at hne
    cases hne
  · rintro ⟨r, hr, hnot⟩
    by_contra hempty
    have ht : t = .empty := by
      cases t with
      | mk inserted updates =>
        simp only [Txn.isEmpty, Bool.not_eq_false, Bool.and_eq_true, List.isEmpty_iff] at hempty
        rw [hempty.1, hempty.2]
        rfl
    exact hnot (ht ▸ doneThrough_of_sets hs r hr)

end Commit

section Step

variable {st : Startup} {p : PassInput} {s s' : Sysd}

/-- A pass that completes sets the flag; its first commit succeeds only if there is
something to change and the server accepts it. -/
theorem passed_completes (h : Passed st p s s') (hc : Completes st p s) :
    s'.hwInitDoneSet = true ∧ ∃ f : Finished schema, s.idl.finished ++ [f] <+: s'.idl.finished ∧
      (f.status = .success ↔
        (∃ r ∈ tableRows .system (received p s).snapshot,
          ¬ DoneThrough .empty (received p s).snapshot r.uuid) ∧
        (p.replies 0).status = .success) ∧
      f.seen = (received p s).snapshot ∧
      ∀ r ∈ tableRows .system f.seen, DoneThrough f.txn f.seen r.uuid := by
  obtain ⟨⟨hruns, hrow, hflag⟩, hdone⟩ := hc
  cases h with
  | idle notRun => exact absurd hruns notRun
  | ran _ configured loaded =>
    cases configured with
    | fills row _ => exact absurd row hrow
    | keeps _ isSet =>
      rw [hflag] at isSet
      cases isSet
    | waits _ _ notDone =>
      rw [hdone] at notDone
      cases notDone
    | @completes cfg t n row notSet done sets grows =>
      refine ⟨rfl, ?_⟩
      obtain ⟨f, hf, htxn, hstatus, hseen, _⟩ := (received p s).closed_finished t n
      have hthrough := doneThrough_of_sets sets
      refine ⟨f, ?_, ?_, hseen, by rw [hseen, htxn]; exact hthrough⟩
      · have hkept := kept_loadPackageInfo (prefix_kept _ (s.idl.finished ++ [f]))
          (by rw [hf, received_finished]) loaded
        exact hkept
      · rw [← isEmpty_iff_of_sets sets, hstatus]
        have hlock : ((received p s).filled t n).hasLock = true := hruns.2.1
        cases hempty : t.isEmpty with
        | true => simp [Idl.commit, hlock, hempty]
        | false =>
          rw [Idl.commit_status _ _ hlock hempty]
          show (received p s |>.replies 0).status = _ ↔ _
          rw [received_replies]
          simp

theorem passed_not_completes (h : Passed st p s s') (hc : ¬ Completes st p s) :
    s'.hwInitDoneSet = s.hwInitDoneSet ∧ s.idl.finished <+: s'.idl.finished := by
  have hkept : ∀ {idl idl' : Idl schema}, s.idl.finished <+: idl.finished →
      loadPackageInfo p idl = .ok ((), idl') → s.idl.finished <+: idl'.finished :=
    fun hpre hload => kept_loadPackageInfo (prefix_kept _ s.idl.finished) hpre hload
  have hreceived : s.idl.finished <+: (received p s).finished := by
    rw [received_finished]
  cases h with
  | idle notRun => exact ⟨rfl, hreceived⟩
  | ran runs configured loaded =>
    cases configured with
    | @fills t n row grows =>
      refine ⟨rfl, hkept ?_ loaded⟩
      obtain ⟨f, hf, _⟩ := (received p s).closed_finished t n
      rw [hf]
      exact hreceived.trans (List.prefix_append _ _)
    | keeps _ isSet => exact ⟨isSet.symm, hkept hreceived loaded⟩
    | waits _ notSet _ => exact ⟨notSet.symm, hkept hreceived loaded⟩
    | completes row notSet done _ _ =>
      exact absurd ⟨⟨runs, by rw [row]; simp, notSet⟩, done⟩ hc

/-- A pass whose completion commit succeeds keeps the flag right. -/
theorem Recorded.passed (hs : Recorded s) (hp : CompletionSucceeds st p s)
    (h : Passed st p s s') : Recorded s' := by
  intro hset
  by_cases hc : Completes st p s
  · obtain ⟨_, f, hpre, hstatus, hseen, hthrough⟩ := passed_completes h hc
    refine ⟨f, hpre.subset (by simp), hstatus.mpr (hp hc), ?_, hthrough⟩
    rw [hseen]
    exact (hp hc).1
  · obtain ⟨hflag, hpre⟩ := passed_not_completes h hc
    obtain ⟨f, hf, hsuccess⟩ := hs (hflag ▸ hset)
    exact ⟨f, hpre.subset hf, hsuccess⟩

theorem failureLeavesUnset_iff (h : Passed st p s s') :
    FailureLeavesUnset st p s s' ↔ CompletionSucceeds st p s := by
  constructor
  · intro hleaves hc
    obtain ⟨hflag, f, ⟨rest, hpre⟩, hstatus, _⟩ := passed_completes h hc
    have hget : s'.idl.finished[s.idl.finished.length]? = some f := by
      rw [← hpre]
      simp
    refine hstatus.mp (by_contra fun hfail => ?_)
    rw [hleaves hc f hget hfail] at hflag
    cases hflag
  · intro hp hc f hget hfail
    obtain ⟨_, f', ⟨rest, hpre⟩, hstatus, _⟩ := passed_completes h hc
    rw [← hpre] at hget
    have hf : f' = f := by simpa using hget
    exact absurd (hstatus.mpr (hp hc)) (hf ▸ hfail)

end Step

/-- In every run whose completion commits change something and succeed, the flag
means that one did; and a pass treats its completion commit as it should exactly
when it is such a pass. -/
theorem recorded_of_run {st : Startup} {client : ℕ} {replies : ℕ → Reply schema}
    {inputs : List PassInput} {s : Sysd}
    (h : Runs.Run (sysdRun st) (CompletionSucceeds st) (Sysd.init client replies) inputs s) :
    Recorded s ∧ ∀ p s', sysdRun st p s = .ok s' →
      (FailureLeavesUnset st p s s' ↔ CompletionSucceeds st p s) := by
  have hinv : Settled s.idl ∧ Recorded s := by
    refine h.inv (I := fun s => Settled s.idl ∧ Recorded s)
      ⟨settled_init client replies, fun hset => by cases hset⟩ ?_
    rintro p t t' ⟨ht, hrec⟩ hp hdone
    have hpassed := passed_of_ok st p ht.txn hdone
    exact ⟨hpassed.settled ht, hrec.passed hp hpassed⟩
  exact ⟨hinv.2, fun p s' hdone =>
    failureLeavesUnset_iff (passed_of_ok st p hinv.1.txn hdone)⟩

theorem recorded_fandReady :
    ∃ s, Runs.Run (sysdRun fandPlatform) (CompletionSucceeds fandPlatform)
        (Sysd.init 0 (fun _ => plainReply .success))
        [plainPass [fun _ => fandReady] .success] s ∧
      s.hwInitDoneSet = true ∧ Recorded s := by
  have hguard : CompletionSucceeds fandPlatform (plainPass [fun _ => fandReady] .success)
      (Sysd.init 0 (fun _ => plainReply .success)) := fun _ => ⟨by decide +kernel, rfl⟩
  refine ⟨_, .next .start hguard rfl, by decide +kernel, ?_⟩
  exact (@recorded_of_run fandPlatform 0 _ _ _ (.next .start hguard rfl)).1

/-- One pass whose completion commit fails sets the flag for good. -/
theorem not_recorded_failed_commit :
    ∃ s, Runs.Run (sysdRun fandPlatform) Runs.unguarded
        (Sysd.init 0 (fun _ => plainReply .error))
        [plainPass [fun _ => fandReady] .error] s ∧ ¬ Recorded s := by
  refine ⟨_, .next .start trivial rfl, fun hrec => ?_⟩
  obtain ⟨f, hf, hsuccess, _⟩ := hrec (by decide +kernel)
  have hfailed : ∀ f ∈ (sysdRun fandPlatform (plainPass [fun _ => fandReady] .error)
      (Sysd.init 0 (fun _ => plainReply .error))).toOption.elim [] (fun s => s.idl.finished),
      f.status = .error := by decide +kernel
  rw [hfailed f hf] at hsuccess
  cases hsuccess

end OpsSysd.SysdRun
