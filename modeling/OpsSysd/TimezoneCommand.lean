import OpsSysd.Timezone

/-!
The time zone command in its buffers: what it copies must fit them, and its
transaction calls tell whether what it reports is what it did. A row of a zone
table is shorter than the buffers it is copied to.
-/

namespace OpsSysd.TimezoneCommand

open CString Ovsdb Timezone

/-- Arrays of these sizes; `none` writes past one. -/
def bounded : Arrays Option where
  strcpy size s := if s.length < size then some s else none
  store size index := if index < size then some () else none

/-- `cli_set_timezone`. -/
def cliSetTimezone (db : ZoneDb) (t : CliTxn) (timezoneInfo : CStr) (noFlags : Bool)
    (ovs : Option SystemRow) : Option CliRun :=
  bounded.cliSetTimezone db t timezoneInfo noFlags ovs

/-- The zone that the tables hold for a word. -/
def storedZone (db : ZoneDb) (timezoneCmd : CStr) : Option CStr :=
  (translateCmdToFilepath db timezoneCmd).map (fun i => db.listOfZonesCaps.getD i [])

/-- The zone that the command asks for. -/
def requestedZone (db : ZoneDb) (timezoneInfo : CStr) (noFlags : Bool) : Option CStr :=
  storedZone db (if noFlags then defaultTimezone else timezoneInfo)

/-- Whether a transaction is open after the call; `none` is a call out of place. -/
def CliCall.next : Bool → CliCall → Option Bool
  | false, .start given => some given
  | true, .setTimezone _ => some true
  | true, .finish _ => some false
  | true, .abort true => some false
  | false, .abort false => some false
  | _, _ => none

/-- Every transaction that is started is finished or aborted, and only once. -/
def EndedOnce (calls : List CliCall) : Prop := calls.foldlM CliCall.next false = some false

instance (calls : List CliCall) : Decidable (EndedOnce calls) :=
  inferInstanceAs (Decidable (_ = _))

/-- The transaction ended well and the column holds the requested zone. -/
def TookEffect (db : ZoneDb) (timezoneInfo : CStr) (noFlags : Bool) (run : CliRun) : Prop :=
  ∃ zone status, requestedZone db timezoneInfo noFlags = some zone ∧
    .finish status ∈ run.calls ∧ (status = .success ∨ status = .unchanged) ∧
    run.ovs = some ⟨some zone⟩

/-- What a command reports is what it did. -/
structure Honest (db : ZoneDb) (timezoneInfo : CStr) (noFlags : Bool) (ovs : Option SystemRow)
    (run : CliRun) : Prop where
  success : run.result = .success ↔ TookEffect db timezoneInfo noFlags run
  failure : ¬ TookEffect db timezoneInfo noFlags run →
    run.result = .errNoMatch ∧ run.ovs = ovs
  ended : EndedOnce run.calls

/-- The word that is looked up; `none` where the no form names another zone. -/
def lookedUp (timezoneInfo : CStr) (noFlags : Bool) : Option CStr → Option CStr
  | none => some defaultTimezone
  | some timezone =>
    if noFlags = true ∧ tolower timezone = timezoneInfo then some defaultTimezone
    else if noFlags = false then some timezoneInfo
    else none

/-- The texts fit the buffers they are copied to. -/
def CopiesFit (timezoneInfo : CStr) (noFlags : Bool) (row : SystemRow) : Prop :=
  ∀ timezone, row.timezone = some timezone → timezone.length < maxTimezoneNameSize ∧
    (noFlags = false → timezoneInfo.length < timezoneCmdSize)

/-- There is a row, a transaction starts, and a zone that is looked up and found is the
requested one and is committed. -/
def Committable (db : ZoneDb) (t : CliTxn) (timezoneInfo : CStr) (noFlags : Bool)
    (ovs : Option SystemRow) : Prop :=
  ∃ row, ovs = some row ∧ t.starts = true ∧ CopiesFit timezoneInfo noFlags row ∧
    ∀ timezoneCmd zone, lookedUp timezoneInfo noFlags row.timezone = some timezoneCmd →
      storedZone db timezoneCmd = some zone →
        requestedZone db timezoneInfo noFlags = some zone ∧ t.Commits row ⟨some zone⟩

section Runs

variable {db : ZoneDb} {t : CliTxn} {timezoneInfo timezoneCmd : CStr} {noFlags : Bool}
  {ovs : Option SystemRow} {row : SystemRow} {run : CliRun}

theorem strcpy_eq_some {size : ℕ} {s s' : CStr} :
    bounded.strcpy size s = some s' ↔ s.length < size ∧ s' = s := by
  unfold bounded
  dsimp only
  split_ifs with h <;> simp [h, eq_comm]

theorem cliSetTimezone_started (hstarts : t.starts = true)
    (hfit : CopiesFit timezoneInfo noFlags row) :
    cliSetTimezone db t timezoneInfo noFlags (some row) =
      some (match lookedUp timezoneInfo noFlags row.timezone with
        | none => ⟨.errNoMatch, some row, [.start true, .abort true]⟩
        | some timezoneCmd => setZone db t timezoneCmd row) := by
  simp only [cliSetTimezone, Arrays.cliSetTimezone, lookedUp, hstarts, Bool.true_eq_false, if_false]
  cases htimezone : row.timezone with
  | none => rfl
  | some timezone =>
    obtain ⟨hstored, hinfo⟩ := hfit timezone htimezone
    have hcopy : bounded.strcpy maxTimezoneNameSize timezone = some timezone :=
      strcpy_eq_some.mpr ⟨hstored, rfl⟩
    dsimp only
    rw [hcopy, Option.bind_eq_bind, Option.bind_some]
    by_cases hmatch : noFlags = true ∧ tolower timezone = timezoneInfo
    · rw [if_pos hmatch, if_pos hmatch]
      rfl
    · rw [if_neg hmatch, if_neg hmatch]
      by_cases hset : noFlags = false
      · have hcmd : bounded.strcpy timezoneCmdSize timezoneInfo = some timezoneInfo :=
          strcpy_eq_some.mpr ⟨hinfo hset, rfl⟩
        rw [if_pos hset, if_pos hset, hcmd]
        rfl
      · rw [if_neg hset, if_neg hset]
        rfl

theorem copiesFit_of_some (hstarts : t.starts = true)
    (hrun : cliSetTimezone db t timezoneInfo noFlags (some row) = some run) :
    CopiesFit timezoneInfo noFlags row := by
  intro timezone htimezone
  simp only [cliSetTimezone, Arrays.cliSetTimezone, hstarts, Bool.true_eq_false, if_false,
    htimezone] at hrun
  obtain ⟨stored, hstored, hrest⟩ := Option.bind_eq_some_iff.mp hrun
  obtain ⟨hlt, rfl⟩ := strcpy_eq_some.mp hstored
  refine ⟨hlt, fun hset => ?_⟩
  rw [if_neg (by simp [hset]), if_pos hset] at hrest
  obtain ⟨cmd, hcmd, _⟩ := Option.bind_eq_some_iff.mp hrest
  exact (strcpy_eq_some.mp hcmd).1

/-- With the calls left out the command is the one of the zone tables. -/
theorem cliSetTimezone_result (hrun : cliSetTimezone db t timezoneInfo noFlags ovs = some run) :
    Timezone.cliSetTimezone db t timezoneInfo noFlags ovs = (run.result, run.ovs) := by
  cases ovs with
  | none =>
    cases hrun
    rfl
  | some row =>
    cases hstarts : t.starts with
    | false =>
      simp only [cliSetTimezone, Arrays.cliSetTimezone, hstarts, if_true] at hrun
      cases hrun
      simp only [Timezone.cliSetTimezone, Arrays.cliSetTimezone, hstarts, if_true]
      rfl
    | true =>
      rw [cliSetTimezone_started hstarts (copiesFit_of_some hstarts hrun)] at hrun
      cases hrun
      rcases row with ⟨_ | timezone⟩
      · simp only [Timezone.cliSetTimezone, Arrays.cliSetTimezone, hstarts, Bool.true_eq_false,
          if_false]
        rfl
      · rw [cliSetTimezone_some db hstarts, lookedUp]
        split_ifs <;> rfl

/-- A word that is looked up in a row with a zone is the one of the requested zone. -/
theorem lookedUp_some {timezone : CStr}
    (h : lookedUp timezoneInfo noFlags (some timezone) = some timezoneCmd) :
    timezoneCmd = if noFlags then defaultTimezone else timezoneInfo := by
  simp only [lookedUp] at h
  by_cases hmatch : noFlags = true ∧ tolower timezone = timezoneInfo
  · rw [if_pos hmatch] at h
    rw [hmatch.1, ← Option.some.inj h]
    rfl
  · rw [if_neg hmatch] at h
    cases noFlags with
    | false => exact (Option.some.inj h).symm
    | true => cases h

theorem honest_refused : Honest db timezoneInfo noFlags (some row)
    ⟨.errNoMatch, some row, [.start true, .abort true]⟩ := by
  have hnot : ¬ TookEffect db timezoneInfo noFlags
      ⟨.errNoMatch, some row, [.start true, .abort true]⟩ := by
    rintro ⟨zone, status, _, hfinish, _⟩
    simp at hfinish
  exact ⟨⟨fun h => (by cases h), fun h => (hnot h).elim⟩, fun _ => ⟨rfl, rfl⟩, rfl⟩

/-- What was written took effect if it is the requested zone and is committed. -/
theorem tookEffect_iff {zone : CStr} (hstarts : t.starts = true)
    (hword : lookedUp timezoneInfo noFlags row.timezone = some timezoneCmd)
    (hzone : storedZone db timezoneCmd = some zone) :
    TookEffect db timezoneInfo noFlags ⟨.success, some (cliDoConfigFinish t row ⟨some zone⟩),
        [.start true, .setTimezone zone, .finish t.status]⟩ ↔
      requestedZone db timezoneInfo noFlags = some zone ∧ t.Commits row ⟨some zone⟩ := by
  constructor
  · rintro ⟨zone', status, hrequested, hfinish, hstatus, hovs⟩
    simp only [List.mem_cons, reduceCtorEq, CliCall.finish.injEq, List.not_mem_nil, or_false,
      false_or] at hfinish
    subst hfinish
    have hrow : cliDoConfigFinish t row ⟨some zone⟩ = ⟨some zone'⟩ := Option.some.inj hovs
    rcases hstatus with hsuccess | hunchanged
    · rw [cliDoConfigFinish, if_pos hsuccess] at hrow
      cases hrow
      exact ⟨hrequested, hstarts, .inl hsuccess⟩
    · rw [cliDoConfigFinish, if_neg (by simp [hunchanged])] at hrow
      -- the row has a zone, so the word looked up is the one of the requested zone
      subst hrow
      have hsame : requestedZone db timezoneInfo noFlags = some zone := by
        rw [requestedZone, ← lookedUp_some hword, hzone]
      rw [hsame] at hrequested
      cases hrequested
      exact ⟨hsame, hstarts, .inr ⟨hunchanged, rfl⟩⟩
  · rintro ⟨hrequested, hcommits⟩
    refine ⟨zone, t.status, hrequested, by simp, hcommits.status.imp_right And.left, ?_⟩
    exact congrArg some (cliDoConfigFinish_of_commits hcommits)

theorem honest_setZone_iff (hstarts : t.starts = true)
    (hword : lookedUp timezoneInfo noFlags row.timezone = some timezoneCmd) :
    Honest db timezoneInfo noFlags (some row) (setZone db t timezoneCmd row) ↔
      ∀ zone, storedZone db timezoneCmd = some zone →
        requestedZone db timezoneInfo noFlags = some zone ∧ t.Commits row ⟨some zone⟩ := by
  cases htranslate : translateCmdToFilepath db timezoneCmd with
  | none =>
    have hset : setZone db t timezoneCmd row =
        ⟨.errNoMatch, some row, [.start true, .abort true]⟩ := by
      unfold setZone
      rw [htranslate]
    rw [hset, storedZone, htranslate]
    exact ⟨fun _ zone hzone => (by cases hzone), fun _ => honest_refused⟩
  | some i =>
    obtain ⟨zone, hzone⟩ : ∃ zone, db.listOfZonesCaps.getD i [] = zone := ⟨_, rfl⟩
    have hstored : storedZone db timezoneCmd = some zone := by
      rw [storedZone, htranslate, Option.map_some, hzone]
    have hset : setZone db t timezoneCmd row =
        ⟨.success, some (cliDoConfigFinish t row ⟨some zone⟩),
          [.start true, .setTimezone zone, .finish t.status]⟩ := by
      unfold setZone
      rw [htranslate]
      simp only [hzone]
    have heffect := tookEffect_iff hstarts hword hstored
    rw [hset, hstored]
    constructor
    · intro h zone' hzone'
      cases hzone'
      exact heffect.mp (h.success.mp rfl)
    · intro h
      have htook := heffect.mpr (h zone rfl)
      exact ⟨⟨fun _ => htook, fun _ => rfl⟩, fun hnot => (hnot htook).elim, rfl⟩

/-- However the command ends, so does its transaction. -/
theorem endedOnce_cliSetTimezone
    (hrun : cliSetTimezone db t timezoneInfo noFlags ovs = some run) : EndedOnce run.calls := by
  have hset : ∀ timezoneCmd row, EndedOnce (setZone db t timezoneCmd row).calls := by
    intro timezoneCmd row
    unfold setZone
    cases translateCmdToFilepath db timezoneCmd <;> rfl
  cases ovs with
  | none =>
    cases hrun
    rfl
  | some row =>
    cases hstarts : t.starts with
    | false =>
      simp only [cliSetTimezone, Arrays.cliSetTimezone, hstarts, if_true] at hrun
      cases hrun
      rfl
    | true =>
      rw [cliSetTimezone_started hstarts (copiesFit_of_some hstarts hrun)] at hrun
      cases hrun
      cases lookedUp timezoneInfo noFlags row.timezone with
      | none => rfl
      | some timezoneCmd => exact hset timezoneCmd row

end Runs

/-- A command is honest exactly when there is a row, a transaction starts, and whatever is
looked up and found is committed. -/
theorem honest_iff (db : ZoneDb) (t : CliTxn) (timezoneInfo : CStr) (noFlags : Bool)
    (ovs : Option SystemRow) :
    (∃ run, cliSetTimezone db t timezoneInfo noFlags ovs = some run ∧
      Honest db timezoneInfo noFlags ovs run) ↔ Committable db t timezoneInfo noFlags ovs := by
  cases ovs with
  | none =>
    constructor
    · rintro ⟨run, hrun, h⟩
      cases hrun
      obtain ⟨_, _, _, hfinish, _⟩ := h.success.mp rfl
      cases hfinish
    · rintro ⟨row, hrow, _⟩
      cases hrow
  | some row =>
    cases hstarts : t.starts with
    | false =>
      constructor
      · rintro ⟨run, hrun, h⟩
        simp only [cliSetTimezone, Arrays.cliSetTimezone, hstarts, if_true] at hrun
        cases hrun
        obtain ⟨_, _, _, hfinish, _⟩ := h.success.mp rfl
        simp at hfinish
      · rintro ⟨_, _, hstarts', _⟩
        rw [hstarts] at hstarts'
        cases hstarts'
    | true =>
      constructor
      · rintro ⟨run, hrun, h⟩
        have hfit := copiesFit_of_some hstarts hrun
        refine ⟨row, rfl, hstarts, hfit, fun timezoneCmd zone hword hzone => ?_⟩
        rw [cliSetTimezone_started hstarts hfit, hword] at hrun
        cases hrun
        exact (honest_setZone_iff hstarts hword).mp h zone hzone
      · rintro ⟨_, hrow, _, hfit, hcommits⟩
        cases hrow
        refine ⟨_, cliSetTimezone_started hstarts hfit, ?_⟩
        cases hword : lookedUp timezoneInfo noFlags row.timezone with
        | none => exact honest_refused
        | some timezoneCmd =>
          exact (honest_setZone_iff hstarts hword).mpr
            (fun zone hzone => hcommits timezoneCmd zone hword hzone)

def pacificTables : ZoneDb :=
  [cstr "US/Pacific", cstr "UTC"].foldl addInfoToCmdOptions (.empty [] [])

/-- Success is reported without a System row, without a transaction and when the commit
fails. -/
theorem not_honest_usPacific :
    (¬ ∃ run, cliSetTimezone pacificTables ⟨true, .success⟩ (cstr "us/pacific") false none =
        some run ∧ Honest pacificTables (cstr "us/pacific") false none run) ∧
    (¬ ∃ run, cliSetTimezone pacificTables ⟨false, .success⟩ (cstr "us/pacific") false
        (some ⟨some (cstr "UTC")⟩) = some run ∧
      Honest pacificTables (cstr "us/pacific") false (some ⟨some (cstr "UTC")⟩) run) ∧
    ¬ ∃ run, cliSetTimezone pacificTables ⟨true, .error⟩ (cstr "us/pacific") false
        (some ⟨some (cstr "UTC")⟩) = some run ∧
      Honest pacificTables (cstr "us/pacific") false (some ⟨some (cstr "UTC")⟩) run := by
  refine ⟨?_, ?_, ?_⟩
  · rintro ⟨run, hrun, h⟩
    cases hrun
    obtain ⟨_, _, _, hfinish, _⟩ := h.success.mp rfl
    cases hfinish
  · rintro ⟨run, hrun, h⟩
    cases hrun
    obtain ⟨_, _, _, hfinish, _⟩ := h.success.mp rfl
    simp at hfinish
  · rintro ⟨run, hrun, h⟩
    have hcalls : cliSetTimezone pacificTables ⟨true, .error⟩ (cstr "us/pacific") false
        (some ⟨some (cstr "UTC")⟩) = some ⟨.success, some ⟨some (cstr "UTC")⟩,
          [.start true, .setTimezone (cstr "US/Pacific"), .finish .error]⟩ := by decide
    rw [hcalls] at hrun
    cases hrun
    obtain ⟨_, status, _, hfinish, hstatus, _⟩ := h.success.mp rfl
    have herror : status = .error := by simpa using hfinish
    rw [herror] at hstatus
    simp at hstatus

end OpsSysd.TimezoneCommand
