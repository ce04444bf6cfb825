import OpsSysd.CString
import OpsSysd.Ovsdb

/-!
The time zone commands of the shell. Zones are kept in two parallel tables, in
lower case for matching and as they are for storing, and a command takes the
first match. The tables and the command are written for arrays of any kind; the
arrays of this module take everything.
-/

namespace OpsSysd.Timezone

open CString Ovsdb

/-- `tolower` in the C locale. -/
def tolowerChar (c : UInt8) : UInt8 := if 65 ≤ c ∧ c ≤ 90 then c + 32 else c

def tolower (s : CStr) : CStr := s.map tolowerChar

/-- The tables up to `zone_count`, with the command and help texts. -/
structure ZoneDb where
  listOfZones : List CStr
  listOfZonesCaps : List CStr
  cmd : CStr
  help : CStr
  deriving DecidableEq

def ZoneDb.empty (cmd help : CStr) : ZoneDb := ⟨[], [], cmd, help⟩

def maxTimezones : ℕ := 900
def maxTimezoneNameSize : ℕ := 100
def maxTimezoneHelpSize : ℕ := 100
def maxTimezoneCmdSize : ℕ := maxTimezones * maxTimezoneNameSize
def maxTimezonesHelpSize : ℕ := maxTimezones * maxTimezoneHelpSize
def timezoneCmdSize : ℕ := 500

/-- What the arrays of given sizes take: a text from their start, a byte or a row at an index. -/
structure Arrays (m : Type → Type) where
  strcpy : ℕ → CStr → m CStr
  store : ℕ → ℕ → m Unit

/-- Arrays that take everything. -/
def unbounded : Arrays Id where
  strcpy _ s := pure s
  store _ _ := pure ()

@[simp] theorem unbounded_strcpy (size : ℕ) (s : CStr) : unbounded.strcpy size s = pure s := rfl

namespace Arrays

variable {m : Type → Type} [Monad m] (arrays : Arrays m)

def strcat (size : ℕ) (dst src : CStr) : m CStr := arrays.strcpy size (dst ++ src)

def populateZoneDb (db : ZoneDb) (zone zoneCaps : CStr) : m ZoneDb := do
  arrays.store maxTimezones db.listOfZones.length
  let zone ← arrays.strcpy maxTimezoneNameSize zone
  let zoneCaps ← arrays.strcpy maxTimezoneNameSize zoneCaps
  return { db with
    listOfZones := db.listOfZones ++ [zone]
    listOfZonesCaps := db.listOfZonesCaps ++ [zoneCaps] }

def addInfoToCmdOptions (db : ZoneDb) (timezone : CStr) : m ZoneDb := do
  let help ← arrays.strcat maxTimezonesHelpSize db.help timezone
  let help ← arrays.strcat maxTimezonesHelpSize help (cstr " Zone \n")
  let zoneCaps ← arrays.strcpy maxTimezoneNameSize timezone
  let cmd ← arrays.strcat maxTimezoneCmdSize db.cmd (tolower timezone)
  let cmd ← arrays.strcat maxTimezoneCmdSize cmd (cstr " | ")
  arrays.populateZoneDb { db with cmd := cmd, help := help } (tolower timezone) zoneCaps

end Arrays

/-- The tables and texts with one zone more, where the copies are exact. -/
def addInfoToCmdOptions (db : ZoneDb) (timezone : CStr) : ZoneDb :=
  Id.run (unbounded.addInfoToCmdOptions db timezone)

theorem addInfoToCmdOptions_eq (db : ZoneDb) (timezone : CStr) :
    addInfoToCmdOptions db timezone = {
      listOfZones := db.listOfZones ++ [tolower timezone]
      listOfZonesCaps := db.listOfZonesCaps ++ [timezone]
      cmd := db.cmd ++ tolower timezone ++ cstr " | "
      help := db.help ++ timezone ++ cstr " Zone \n" } := rfl

/-- The index of the first match; `none` is -1. -/
def translateCmdToFilepath (db : ZoneDb) (timezoneCmd : CStr) : Option ℕ :=
  db.listOfZones.findIdx? (fun zone => zone = timezoneCmd)

inductive CmdResult
  | success
  | errNoMatch
  deriving DecidableEq, Repr

/-- The System row as the shell sees it; `none` is a NULL string. -/
structure SystemRow where
  timezone : Option CStr
  deriving DecidableEq

/-- Whether `cli_do_config_start` gives a transaction, and how it ends. -/
structure CliTxn where
  starts : Bool
  status : TxnStatus

/-- The transaction is carried out: its change is stored, or there is none to store. -/
structure CliTxn.Commits (t : CliTxn) (ovs ovs' : SystemRow) : Prop where
  starts : t.starts = true
  status : t.status = .success ∨ t.status = .unchanged ∧ ovs = ovs'

def cliDoConfigFinish (t : CliTxn) (ovs ovs' : SystemRow) : SystemRow :=
  if t.status = .success then ovs' else ovs

inductive CliCall
  /-- Whether a transaction is given. -/
  | start (given : Bool)
  | setTimezone (zone : CStr)
  | finish (status : TxnStatus)
  /-- Whether the pointer is one to a transaction. -/
  | abort (given : Bool)
  deriving DecidableEq

structure CliRun where
  result : CmdResult
  ovs : Option SystemRow
  calls : List CliCall
  deriving DecidableEq

def defaultTimezone : CStr := cstr "utc"

/-- The lookup, the write and the end of the transaction, which is aborted without a match. -/
def setZone (db : ZoneDb) (t : CliTxn) (timezoneCmd : CStr) (row : SystemRow) : CliRun :=
  match translateCmdToFilepath db timezoneCmd with
  | none => ⟨.errNoMatch, some row, [.start true, .abort true]⟩
  | some i =>
    let zone := db.listOfZonesCaps.getD i []
    ⟨.success, some (cliDoConfigFinish t row ⟨some zone⟩),
      [.start true, .setTimezone zone, .finish t.status]⟩

def Arrays.cliSetTimezone {m : Type → Type} [Monad m] (arrays : Arrays m) (db : ZoneDb)
    (t : CliTxn) (timezoneInfo : CStr) (noFlags : Bool) : Option SystemRow → m CliRun
  | none => pure ⟨.success, none, []⟩
  | some row =>
    if t.starts = false then pure ⟨.success, some row, [.start false, .abort false]⟩
    else
      match row.timezone with
      | none => pure (setZone db t defaultTimezone row)
      | some timezone => do
        let timezoneFromOvsdb ← arrays.strcpy maxTimezoneNameSize timezone
        if noFlags = true ∧ tolower timezoneFromOvsdb = timezoneInfo then
          return setZone db t defaultTimezone row
        else if noFlags = false then
          let timezoneCmd ← arrays.strcpy timezoneCmdSize timezoneInfo
          return setZone db t timezoneCmd row
        else return ⟨.errNoMatch, some row, [.start true, .abort true]⟩

/-- What the command returns and leaves where the copies are exact. -/
def cliSetTimezone (db : ZoneDb) (t : CliTxn) (timezoneInfo : CStr) (noFlags : Bool)
    (ovs : Option SystemRow) : CmdResult × Option SystemRow :=
  let run := Id.run (unbounded.cliSetTimezone db t timezoneInfo noFlags ovs)
  (run.result, run.ovs)

def timezoneSet : CStr := cstr "timezone set "

/-- The lines that `show running-config` prints for the System row. -/
def vtyshConfigContextSystemCallback : Option SystemRow → List CStr
  | none => []
  | some row =>
    match row.timezone with
    | none => []
    | some timezone => [timezoneSet ++ tolower timezone]

/-- A line entered at the configuration prompt; other commands do not concern the zone. -/
def enterLine (db : ZoneDb) (t : CliTxn) (line : CStr) (ovs : Option SystemRow) :
    CmdResult × Option SystemRow :=
  if timezoneSet <+: line then cliSetTimezone db t (line.drop timezoneSet.length) false ovs
  else (.success, ovs)

/-- The zone that a command word stands for. -/
def zoneOf (db : ZoneDb) (timezoneCmd : CStr) : Option CStr :=
  db.listOfZonesCaps.find? (fun zone => tolower zone = timezoneCmd)

/-- The tables are in step. -/
def ZoneDb.Paired (db : ZoneDb) : Prop := db.listOfZones = db.listOfZonesCaps.map tolower

section Tables

variable {db : ZoneDb} {names : List CStr}

theorem foldl_addInfo_caps :
    (names.foldl addInfoToCmdOptions db).listOfZonesCaps = db.listOfZonesCaps ++ names := by
  induction names generalizing db with
  | nil => simp
  | cons name rest ih =>
    rw [List.foldl_cons, ih]
    simp [addInfoToCmdOptions_eq]

theorem paired_foldl_addInfo (h : db.Paired) : (names.foldl addInfoToCmdOptions db).Paired := by
  induction names generalizing db with
  | nil => exact h
  | cons name rest ih =>
    apply ih
    unfold ZoneDb.Paired at h ⊢
    simp [addInfoToCmdOptions_eq, h]

theorem paired_empty (cmd help : CStr) : (ZoneDb.empty cmd help).Paired := rfl

/-- The tables that are built from names hold the names in order. -/
theorem zoneOf_built (cmd help timezoneCmd : CStr) :
    zoneOf (names.foldl addInfoToCmdOptions (.empty cmd help)) timezoneCmd =
      names.find? (fun zone => tolower zone = timezoneCmd) := by
  unfold zoneOf
  rw [foldl_addInfo_caps]
  rfl

/-- The shell stores the zone at the index it finds. -/
theorem zoneOf_eq_bind (h : db.Paired) (timezoneCmd : CStr) :
    zoneOf db timezoneCmd =
      (translateCmdToFilepath db timezoneCmd).bind fun i => db.listOfZonesCaps[i]? := by
  unfold zoneOf translateCmdToFilepath
  rw [h, List.findIdx?_map, List.find?_eq_bind_findIdx?_getElem?]
  rfl

theorem translateCmdToFilepath_lt (h : db.Paired) {timezoneCmd : CStr} {i : ℕ}
    (hfound : translateCmdToFilepath db timezoneCmd = some i) : i < db.listOfZonesCaps.length := by
  obtain ⟨hi, _⟩ := List.findIdx?_eq_some_iff_getElem.mp hfound
  rw [h, List.length_map] at hi
  exact hi

theorem setZone_eq (h : db.Paired) (t : CliTxn) (timezoneCmd : CStr) (row : SystemRow) :
    setZone db t timezoneCmd row =
      match zoneOf db timezoneCmd with
      | none => ⟨.errNoMatch, some row, [.start true, .abort true]⟩
      | some zone => ⟨.success, some (cliDoConfigFinish t row ⟨some zone⟩),
          [.start true, .setTimezone zone, .finish t.status]⟩ := by
  rw [zoneOf_eq_bind h, setZone]
  cases hfound : translateCmdToFilepath db timezoneCmd with
  | none => rfl
  | some i =>
    have hi := translateCmdToFilepath_lt h hfound
    simp [List.getD_eq_getElem?_getD, hi]

/-- Names that differ in their keys are found by them. -/
theorem find?_of_nodup {α β : Type*} [DecidableEq β] (key : α → β) {l : List α}
    (h : (l.map key).Nodup) {a : α} (ha : a ∈ l) : l.find? (fun b => key b = key a) = some a := by
  induction l with
  | nil => cases ha
  | cons b rest ih =>
    rw [List.map_cons, List.nodup_cons] at h
    rcases List.mem_cons.mp ha with rfl | ha
    · simp
    · have hne : key b ≠ key a := fun heq => h.1 (heq ▸ List.mem_map_of_mem ha)
      rw [List.find?_cons_of_neg (by simpa using hne), ih h.2 ha]

end Tables

/-- What setting, showing, replaying and unsetting a zone do. -/
structure RoundTrip (db : ZoneDb) (utc zone : CStr) : Prop where
  set : ∀ prior t, t.Commits ⟨some prior⟩ ⟨some zone⟩ →
    cliSetTimezone db t (tolower zone) false (some ⟨some prior⟩) = (.success, some ⟨some zone⟩)
  replay : ∀ prior other t t', t.Commits ⟨some prior⟩ ⟨some zone⟩ →
    t'.Commits ⟨some other⟩ ⟨some zone⟩ →
      ∃ line, vtyshConfigContextSystemCallback
          (cliSetTimezone db t (tolower zone) false (some ⟨some prior⟩)).2 = [line] ∧
        enterLine db t' line (some ⟨some other⟩) = (.success, some ⟨some zone⟩)
  unset : ∀ prior t, t.Commits ⟨some prior⟩ ⟨some utc⟩ →
    cliSetTimezone db t (tolower prior) true (some ⟨some prior⟩) = (.success, some ⟨some utc⟩)
  other : ∀ prior x t, t.starts = true → x ≠ tolower prior →
    cliSetTimezone db t x true (some ⟨some prior⟩) = (.errNoMatch, some ⟨some prior⟩)
  unknown : ∀ prior name t, t.starts = true → name ∉ db.listOfZones →
    cliSetTimezone db t name false (some ⟨some prior⟩) = (.errNoMatch, some ⟨some prior⟩)

section Commands

variable {db : ZoneDb} {t : CliTxn} {ovs : SystemRow} {zone timezoneCmd : CStr}

theorem cliSetTimezone_some (db : ZoneDb) (hstarts : t.starts = true) (timezoneInfo : CStr)
    (noFlags : Bool) (timezone : CStr) :
    cliSetTimezone db t timezoneInfo noFlags (some ⟨some timezone⟩) =
      if noFlags = true ∧ tolower timezone = timezoneInfo then
        ((setZone db t defaultTimezone ⟨some timezone⟩).result,
          (setZone db t defaultTimezone ⟨some timezone⟩).ovs)
      else if noFlags = false then
        ((setZone db t timezoneInfo ⟨some timezone⟩).result,
          (setZone db t timezoneInfo ⟨some timezone⟩).ovs)
      else (.errNoMatch, some ⟨some timezone⟩) := by
  unfold cliSetTimezone Arrays.cliSetTimezone
  simp only [hstarts, Bool.true_eq_false, if_false, unbounded_strcpy, pure_bind]
  split_ifs <;> rfl

theorem cliDoConfigFinish_of_commits {ovs' : SystemRow} (h : t.Commits ovs ovs') :
    cliDoConfigFinish t ovs ovs' = ovs' := by
  unfold cliDoConfigFinish
  rcases h.status with hsuccess | ⟨hunchanged, rfl⟩
  · rw [if_pos hsuccess]
  · rw [ite_self]

theorem setZone_of_commits (hdb : db.Paired) (hzone : zoneOf db timezoneCmd = some zone)
    (h : t.Commits ovs ⟨some zone⟩) :
    (setZone db t timezoneCmd ovs).result = .success ∧
      (setZone db t timezoneCmd ovs).ovs = some ⟨some zone⟩ := by
  rw [setZone_eq hdb, hzone]
  exact ⟨rfl, congrArg some (cliDoConfigFinish_of_commits h)⟩

/-- A command word that stands for a zone stores the zone, whatever was stored before. -/
theorem cliSetTimezone_of_commits (hdb : db.Paired) (hzone : zoneOf db timezoneCmd = some zone)
    {prior : CStr} (h : t.Commits ⟨some prior⟩ ⟨some zone⟩) :
    cliSetTimezone db t timezoneCmd false (some ⟨some prior⟩) = (.success, some ⟨some zone⟩) := by
  obtain ⟨hresult, hovs⟩ := setZone_of_commits hdb hzone h
  rw [cliSetTimezone_some db h.starts, if_neg (by simp), if_pos rfl, hresult, hovs]

theorem enterLine_timezoneSet (db : ZoneDb) (t : CliTxn) (info : CStr) (ovs : Option SystemRow) :
    enterLine db t (timezoneSet ++ info) ovs = cliSetTimezone db t info false ovs := by
  unfold enterLine
  rw [if_pos (List.prefix_append _ _), List.drop_left]

/-- For every table of zones that differ not only in case and have a UTC zone. -/
theorem roundTrip_built {names : List CStr} (hdistinct : (names.map tolower).Nodup) {utc : CStr}
    (hutc : utc ∈ names) (hdefault : tolower utc = defaultTimezone) {zone : CStr}
    (hzone : zone ∈ names) (cmd help : CStr) :
    RoundTrip (names.foldl addInfoToCmdOptions (.empty cmd help)) utc zone := by
  have hdb : (names.foldl addInfoToCmdOptions (.empty cmd help)).Paired :=
    paired_foldl_addInfo (paired_empty cmd help)
  have hfound : ∀ z ∈ names,
      zoneOf (names.foldl addInfoToCmdOptions (.empty cmd help)) (tolower z) = some z := by
    intro z hz
    rw [zoneOf_built]
    exact find?_of_nodup tolower hdistinct hz
  refine ⟨?_, ?_, ?_, ?_, ?_⟩
  · intro prior t h
    exact cliSetTimezone_of_commits hdb (hfound zone hzone) h
  · intro prior other t t' h h'
    refine ⟨timezoneSet ++ tolower zone, ?_, ?_⟩
    · rw [cliSetTimezone_of_commits hdb (hfound zone hzone) h]
      rfl
    · rw [enterLine_timezoneSet]
      exact cliSetTimezone_of_commits hdb (hfound zone hzone) h'
  · intro prior t h
    have hset := hfound utc hutc
    rw [hdefault] at hset
    obtain ⟨hresult, hovs⟩ := setZone_of_commits hdb hset h
    rw [cliSetTimezone_some _ h.starts, if_pos ⟨rfl, rfl⟩, hresult, hovs]
  · intro prior x t hstarts hx
    rw [cliSetTimezone_some _ hstarts, if_neg (fun h => hx h.2.symm), if_neg (by simp)]
  · intro prior name t hstarts hname
    have hnone : translateCmdToFilepath (names.foldl addInfoToCmdOptions (.empty cmd help)) name =
        none := by
      unfold translateCmdToFilepath
      rw [List.findIdx?_eq_none_iff]
      intro z hz
      simpa using fun heq : z = name => hname (heq ▸ hz)
    rw [cliSetTimezone_some _ hstarts, if_neg (by simp), if_pos rfl, setZone, hnone]

theorem roundTrip_usPacific :
    RoundTrip ([cstr "US/Pacific", cstr "UTC"].foldl addInfoToCmdOptions (.empty [] []))
      (cstr "UTC") (cstr "US/Pacific") :=
  roundTrip_built (by decide) (by decide) (by decide) (by decide) [] []

end Commands

end OpsSysd.Timezone
