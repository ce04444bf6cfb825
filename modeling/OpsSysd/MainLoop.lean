import OpsSysd.Handshake

/-!
The main loop goes to sleep only when nothing that alerts has changed since the
last pass through the body. Its own writes to columns that do not alert are
between that pass and the sleep, so the snapshot may be another one.
-/

namespace OpsSysd.SysdRun

open CString Ovsdb Ovsrec Platform

/-- How an iteration of the loop ends. -/
inductive Wait
  | again
  | wake
  | block
  deriving DecidableEq, Repr

/-- The comparison at the end of an iteration. -/
def waits (exiting : Bool) (s : Sysd) : Wait :=
  if s.idlSeqno ≠ s.idl.seqno then .again else if exiting then .wake else .block

/-- The loop sleeps with the lock held uncontended. -/
structure Sleeps (exiting : Bool) (s : Sysd) : Prop where
  block : waits exiting s = .block
  hasLock : s.idl.hasLock = true
  uncontended : s.idl.lockContended = false

/-- The System row is there, every flagged row is finished and every hardware daemon
has one. -/
structure Ready (m : Manifest.Globals) (db : Database schema) : Prop where
  system : tableRows .system db ≠ []
  finished : ∀ r ∈ tableRows .daemon db, Flagged r → Finishes r
  present : ∀ d ∈ m.daemons, d.isHwHandler = true →
    ∃ r ∈ tableRows .daemon db, Flagged r ∧ Named r d.name

theorem Ready.hwDaemonsDone {m : Manifest.Globals} {db : Database schema} (hm : m.Counted)
    (h : Ready m db) : hwDaemonsDone m (tableRows .daemon db) = true := by
  rw [hwDaemonsDone_iff]
  by_cases hnum : m.numHwDaemons = 0
  · exact .inl hnum
  · right
    obtain ⟨d, hd, hhw⟩ := (exists_hwDaemon hm).mp hnum
    obtain ⟨r, hr, hflag, hname⟩ := h.present d hd hhw
    refine ⟨fun d' _ _ q hq => ?_, d, hd, hhw, taken_of_own hr hflag hname⟩
    obtain ⟨hin, hflag'⟩ := taken_mem hq
    exact h.finished q hin hflag'

/-- What the daemon has seen: the body last ran on a snapshot from which nothing
alerting separates the present one while the sequence numbers agree, and it has
recorded completion if that snapshot was ready. Without a pass through the body
nothing has come in while the sequence number is the first one. -/
structure Current (m : Manifest.Globals) (s : Sysd) : Prop where
  started : s.processed = none → s.idlSeqno = 0 ∧
    (s.idl.seqno = 0 → Quiet [] s.idl.snapshot)
  quiet : ∀ db, s.processed = some db → s.idlSeqno ≤ s.idl.seqno ∧
    (s.idl.seqno = s.idlSeqno → Quiet db s.idl.snapshot)
  recorded : ∀ db, s.processed = some db → Ready m db → s.hwInitDoneSet = true

section Step

variable {st : Startup} {p : PassInput} {s s' : Sysd}

theorem later_received (p : PassInput) (s : Sysd) : Later s.idl (received p s) := by
  have h : Later s.idl { s.idl with replies := p.replies } := .of_eq rfl rfl
  exact h.trans (.run _ _ _ _ _)

theorem Configured.later {b b' : Bool} {idl idl' : Idl schema}
    (h : Configured st b idl b' idl') : Later idl idl' := by
  cases h with
  | fills _ _ => exact .closed _ _ _
  | keeps _ _ => exact .refl _
  | waits _ _ _ => exact .refl _
  | completes _ _ _ _ _ => exact .closed _ _ _

theorem Configured.recorded {b b' : Bool} {idl idl' : Idl schema}
    (h : Configured st b idl b' idl') (hready : Ready st.manifest idl.snapshot) : b' = true := by
  cases h with
  | fills row _ => exact absurd (List.head?_eq_none_iff.mp row) hready.system
  | keeps _ _ => rfl
  | waits _ _ notDone =>
    rw [hready.hwDaemonsDone st.counted] at notDone
    cases notDone
  | completes _ _ _ _ _ => rfl

theorem Current.passed (hs : Current st.manifest s) (h : Passed st p s s') :
    Current st.manifest s' := by
  have hlater := later_received p s
  cases h with
  | idle _ =>
    refine ⟨fun hnone => ?_, fun db hdb => ?_, hs.recorded⟩
    · obtain ⟨hzero, hquiet⟩ := hs.started hnone
      refine ⟨hzero, fun hseqno => ?_⟩
      have hseqno' : (received p s).seqno = 0 := hseqno
      have hold : s.idl.seqno = 0 := by
        have hle := hlater.seqno_le
        omega
      exact (hquiet hold).trans (hlater.quiet (hseqno'.trans hold.symm))
    · obtain ⟨hle, hquiet⟩ := hs.quiet db hdb
      have hle' := hlater.seqno_le
      refine ⟨Nat.le_trans hle hle', fun heq => ?_⟩
      have hold : s.idl.seqno = s.idlSeqno := by
        have heq' : (received p s).seqno = s.idlSeqno := heq
        omega
      exact (hquiet hold).trans (hlater.quiet (heq.trans hold.symm))
  | ran runs configured loaded =>
    have hpass : Later (received p s) _ :=
      kept_loadPackageInfo (Later.kept _ (received p s)) configured.later loaded
    refine ⟨fun hnone => ?_, fun db hdb => ?_, fun db hdb hready => ?_⟩
    · cases hnone
    · cases hdb
      exact ⟨hpass.seqno_le, hpass.quiet⟩
    · cases hdb
      exact configured.recorded hready

end Step

/-- What holds of a daemon between two passes. -/
theorem current_run {st : Startup} {client : ℕ} {replies : ℕ → Reply schema}
    {inputs : List PassInput} {s : Sysd}
    (h : Runs.Run (sysdRun st) Runs.unguarded (Sysd.init client replies) inputs s) :
    s.idl.Replicated ∧ Current st.manifest s := by
  have hinit : Current st.manifest (Sysd.init client replies) := by
    refine ⟨fun _ => ⟨rfl, fun _ => .refl _⟩, fun db hdb => ?_, fun db hdb => ?_⟩
    · cases hdb
    · cases hdb
  have hinv := h.inv (I := fun s => Settled s.idl ∧ s.idl.Replicated ∧ Current st.manifest s)
    ⟨settled_init client replies, (fun r hr => by cases hr), hinit⟩ (fun p t t' ht _ hdone => by
      have hpassed := passed_of_ok st p ht.1.txn hdone
      exact ⟨hpassed.settled ht.1, hpassed.replicated ht.2.1, ht.2.2.passed hpassed⟩)
  exact hinv.2

/-- No daemon's row is flagged in one snapshot and not in the other. -/
def FlagsAgree (db db' : Database schema) : Prop :=
  ∀ r ∈ tableRows .daemon db, ∀ r' ∈ tableRows .daemon db', r'.uuid = r.uuid →
    (Flagged r' ↔ Flagged r)

/-- Readiness is seen by what alerts, apart from the flags. -/
theorem Ready.of_quiet {m : Manifest.Globals} {db db' : Database schema} (h : Ready m db')
    (hquiet : Quiet db db') (hflags : FlagsAgree db db') : Ready m db := by
  have hmem : ∀ {k : Table} {r : OvsRow} {db : Database schema},
      r ∈ tableRows k db ↔ r ∈ db ∧ r.table = k := by
    intro k r db
    simp [rowsOf]
  refine ⟨?_, fun r hr hflag => ?_, fun d hd hhw => ?_⟩
  · obtain ⟨r', hr'⟩ := List.exists_mem_of_ne_nil _ h.system
    obtain ⟨hin, htable⟩ := hmem.mp hr'
    obtain ⟨r, hr, hsame, _⟩ := Quiet.exists_row hquiet.symm hin (by rw [htable]; rfl)
    exact List.ne_nil_of_mem (hmem.mpr ⟨hr, hsame.trans htable⟩)
  · obtain ⟨hin, htable⟩ := hmem.mp hr
    obtain ⟨r', hr', hsame, huuid, hcols⟩ := Quiet.exists_row hquiet hin (by rw [htable]; rfl)
    have hr'' := hmem.mpr ⟨hr', hsame.trans htable⟩
    have hfin := h.finished r' hr'' ((hflags r hr r' hr'' huuid).mpr hflag)
    have hcur : r'.col .daemonCurHw = r.col .daemonCurHw :=
      hcols .daemonCurHw (by simp) htable.symm
    unfold Finishes at hfin ⊢
    rwa [hcur] at hfin
  · obtain ⟨r', hr', hflag, hname⟩ := h.present d hd hhw
    obtain ⟨hin, htable⟩ := hmem.mp hr'
    obtain ⟨r, hr, hsame, huuid, hcols⟩ :=
      Quiet.exists_row hquiet.symm hin (by rw [htable]; rfl)
    have hr'' := hmem.mpr ⟨hr, hsame.trans htable⟩
    have hsameName : r.col .daemonName = r'.col .daemonName :=
      hcols .daemonName (by simp) htable.symm
    exact ⟨r, hr'', (hflags r hr'' r' hr' huuid.symm).mp hflag, hsameName.trans hname⟩

section Sleep

variable {m : Manifest.Globals} {s : Sysd} {exiting : Bool}

/-- The loop only sleeps when the pass has left nothing behind. -/
theorem seqno_of_sleeps (hs : Sleeps exiting s) : s.idl.seqno = s.idlSeqno := by
  have hblock := hs.block
  unfold waits at hblock
  split_ifs at hblock with hne
  exact (not_not.mp hne).symm

/-- Asleep, the body has run on the present snapshot but for silent changes, unless nothing
has come in since the start. -/
theorem Current.asleep (h : Current m s) (hs : Sleeps exiting s) :
    (s.processed = none ∧ s.idl.seqno = 0 ∧ Quiet [] s.idl.snapshot) ∨
      ∃ db, s.processed = some db ∧ Quiet db s.idl.snapshot ∧
        (Ready m db → s.hwInitDoneSet = true) ∧
        (FlagsAgree db s.idl.snapshot → Ready m s.idl.snapshot → s.hwInitDoneSet = true) := by
  have hseqno := seqno_of_sleeps hs
  cases hdb : s.processed with
  | none =>
    obtain ⟨hzero, hquiet⟩ := h.started hdb
    have hfirst : s.idl.seqno = 0 := hseqno.trans hzero
    exact Or.inl ⟨rfl, hfirst, hquiet hfirst⟩
  | some db =>
    have hquiet := (h.quiet db hdb).2 hseqno
    exact Or.inr ⟨db, rfl, hquiet, h.recorded db hdb, fun hflags hready =>
      h.recorded db hdb (hready.of_quiet hquiet hflags)⟩

end Sleep

/-- Whenever the loop sleeps with the lock, the replica is as empty as at the start and the
sequence number is the first one, or the body last ran on a snapshot from which nothing
alerting separates the present one, and it has recorded completion if that snapshot was
ready, or if the present one is and the flags agree. -/
theorem sleeps_current {st : Startup} {client : ℕ} {replies : ℕ → Reply schema}
    {inputs : List PassInput} {s : Sysd} {exiting : Bool}
    (h : Runs.Run (sysdRun st) Runs.unguarded (Sysd.init client replies) inputs s)
    (hs : Sleeps exiting s) :
    (s.processed = none ∧ s.idl.seqno = 0 ∧ s.idl.snapshot = []) ∨
      ∃ db, s.processed = some db ∧ Quiet db s.idl.snapshot ∧
        (Ready st.manifest db → s.hwInitDoneSet = true) ∧
        (FlagsAgree db s.idl.snapshot → Ready st.manifest s.idl.snapshot →
          s.hwInitDoneSet = true) := by
  obtain ⟨hreplica, hcurrent⟩ := current_run h
  rcases hcurrent.asleep hs with ⟨hnone, hfirst, hquiet⟩ | hran
  · exact Or.inl ⟨hnone, hfirst, hreplica.eq_nil_of_quiet hquiet⟩
  · exact Or.inr hran

/-- After the pass that records completion the loop sleeps. -/
theorem sleeps_fandReady :
    ∃ s, Sleeps false s ∧ s.hwInitDoneSet = true ∧
      ∃ db, s.processed = some db ∧ Quiet db s.idl.snapshot := by
  obtain ⟨s, hdone, hset, hblock, hlock, hcontended, hnews⟩ : ∃ s,
      sysdRun fandPlatform (plainPass [fun _ => fandReady] .success)
        (Sysd.init 0 (fun _ => plainReply .success)) = .ok s ∧ s.hwInitDoneSet = true ∧
      waits false s = .block ∧ s.idl.hasLock = true ∧ s.idl.lockContended = false ∧
      s.idl.seqno ≠ 0 :=
    ⟨_, rfl, rfl, by decide +kernel, rfl, rfl, by decide +kernel⟩
  have hs : Sleeps false s := ⟨hblock, hlock, hcontended⟩
  rcases sleeps_current (.next .start trivial hdone) hs with
    ⟨_, hfirst, _⟩ | ⟨db, hdb, hquiet, _, _⟩
  · exact absurd hfirst hnews
  · exact ⟨s, hs, hset, db, hdb, hquiet⟩

/-- A pass with the lock in which nothing comes in. -/
def silentPass : PassInput := { plainPass [] .success with raises := false }

/-- Before anything has come in, the loop sleeps and the body has not run. The pass that
records completion has itself changed the System row, and nothing alerts. -/
theorem not_sleeps_on_processed :
    (∃ s, Runs.Run (sysdRun fandPlatform) Runs.unguarded
        (Sysd.init 0 (fun _ => plainReply .success)) [silentPass] s ∧
      Sleeps false s ∧ s.processed = none) ∧
    ∃ s, Runs.Run (sysdRun fandPlatform) Runs.unguarded
        (Sysd.init 0 (fun _ => plainReply .success))
        [plainPass [fun _ => fandReady] .success] s ∧
      Sleeps false s ∧ ∃ db, s.processed = some db ∧ db ≠ s.idl.snapshot := by
  refine ⟨⟨_, .next .start trivial rfl, ⟨by decide +kernel, rfl, rfl⟩, rfl⟩,
    _, .next .start trivial rfl, ⟨by decide +kernel, rfl, rfl⟩, _, rfl, fun hsame => ?_⟩
  have hcur := congrArg (fun db =>
    (tableRows .system db).map (fun r => (r.col .systemCurHw : ℤ))) hsame
  revert hcur
  decide +kernel

end OpsSysd.SysdRun
