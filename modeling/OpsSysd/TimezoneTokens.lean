import OpsSysd.TimezoneInstall
import Mathlib.Data.List.DropRight

/-!
The words of the time zone commands and the lines of their help texts. Every
zone is followed by a separator in the command, the last one too, and the help
text of the no form is overwritten by that of the other form, which has no line
for the word "no".
-/

namespace OpsSysd.TimezoneInstall

open CString Timezone TimezoneCommand

def trim (s : CStr) : CStr := (s.dropWhile (fun c => c = 32)).rdropWhile (fun c => c = 32)

/-- What stands between the first opening and the last closing parenthesis. -/
def inside (cmd : CStr) : CStr :=
  (((cmd.dropWhile (fun c => c ≠ 40)).drop 1).rdropWhile (fun c => c ≠ 41)).dropLast

/-- What the separators leave of the text in the parentheses; "()" has no alternative. -/
def alternatives (cmd : CStr) : List CStr :=
  if inside cmd = [] then [] else ((inside cmd).splitOn 124).map trim

/-- The words before the parentheses. -/
def keywords (cmd : CStr) : List CStr :=
  ((cmd.takeWhile (fun c => c ≠ 40)).splitOn 32).filter (fun word => word ≠ [])

def tokens (cmd : CStr) : List CStr := keywords cmd ++ alternatives cmd

/-- The lines of a text; each ends with a newline. -/
def docLines (doc : CStr) : List CStr := (doc.splitOn 10).dropLast

/-- A command element with its help text; `doc` is the documentation that its DEFUN gives. -/
structure Aligned (db : ZoneDb) (doc cmd help : CStr) : Prop where
  paired : db.Paired
  zones : alternatives cmd = db.listOfZones
  once : (alternatives cmd).Nodup
  nonempty : [] ∉ alternatives cmd
  lines : docLines help =
    docLines doc ++ db.listOfZonesCaps.map (fun zone => zone ++ cstr " Zone ")
  perToken : (docLines help).length = (tokens cmd).length

example : Aligned ⟨[cstr "us/pacific", cstr "utc"], [cstr "US/Pacific", cstr "UTC"], [], []⟩
    (timezoneStr ++ timezoneSetStr) (cstr "timezone set (us/pacific | utc)")
    (timezoneStr ++ timezoneSetStr ++ cstr "US/Pacific Zone \nUTC Zone \n") := by
  constructor
  · exact rfl
  all_goals decide

/-- Both elements, each with the documentation of its own form. -/
def Installed.Aligned (inst : Installed) (noStr : CStr) : Prop :=
  TimezoneInstall.Aligned inst.db (timezoneStr ++ timezoneSetStr) inst.cmd inst.help ∧
    TimezoneInstall.Aligned inst.db (noStr ++ timezoneStr ++ timezoneSetStr) inst.cmdNoForm
      inst.helpNoForm

/-- The help text of one word. -/
def OneLine (doc : CStr) : Prop := ∃ line, 10 ∉ line ∧ doc = line ++ [10]

section Texts

variable {pre line : CStr}

theorem inside_eq (hpre : 40 ∉ pre) (body : CStr) :
    inside (pre ++ 40 :: (body ++ [41])) = body := by
  have hopen : (pre ++ 40 :: (body ++ [41])).dropWhile (fun c => c ≠ 40) =
      40 :: (body ++ [41]) := by
    have hkept : ∀ c ∈ pre, decide (c ≠ 40) = true := by
      intro c hc
      exact decide_eq_true (fun h => hpre (h ▸ hc))
    rw [List.dropWhile_append_of_pos hkept]
    rfl
  have hclose : (body ++ [41]).rdropWhile (fun c : UInt8 => c ≠ 41) = body ++ [41] :=
    List.rdropWhile_concat_neg _ _ _ (by decide)
  unfold inside
  rw [hopen, List.drop_one, List.tail_cons, hclose, List.dropLast_concat]

theorem docLines_append (hline : 10 ∉ line) (rest : CStr) :
    docLines (line ++ 10 :: rest) = line :: docLines rest := by
  unfold docLines
  rw [List.splitOn_append_cons_self, List.splitOn_eq_singleton hline, List.singleton_append,
    List.dropLast_cons_of_ne_nil (List.splitOn_ne_nil 10 rest)]

theorem docLines_lines {lines : List CStr} (h : ∀ line ∈ lines, 10 ∉ line) (rest : CStr) :
    docLines (lines.flatMap (fun line => line ++ [10]) ++ rest) = lines ++ docLines rest := by
  induction lines with
  | nil => rfl
  | cons line lines ih =>
    have hline : 10 ∉ line := h line List.mem_cons_self
    have hrest : ∀ l ∈ lines, 10 ∉ l := fun l hl => h l (List.mem_cons_of_mem _ hl)
    rw [List.flatMap_cons, List.append_assoc, List.append_assoc, List.singleton_append,
      docLines_append hline, ih hrest, List.cons_append]

theorem trim_eq {zone : CStr} (hpre : ∀ c ∈ pre, c = 32) (hzone : 32 ∉ zone) :
    trim (pre ++ zone ++ [32]) = zone := by
  have hblank : ∀ c ∈ pre, decide (c = 32) = true := fun c hc => decide_eq_true (hpre c hc)
  have hdropped : (pre ++ zone ++ [32]).dropWhile (fun c => c = 32) =
      (zone ++ [32]).dropWhile (fun c => c = 32) := by
    rw [List.append_assoc, List.dropWhile_append_of_pos hblank]
  unfold trim
  rw [hdropped]
  cases zone with
  | nil => rfl
  | cons c rest =>
    have hc : c ≠ 32 := fun h => hzone (h ▸ List.mem_cons_self)
    rw [List.cons_append, List.dropWhile_cons_of_neg (by simpa using hc), ← List.cons_append,
      List.rdropWhile_concat_pos _ _ _ (by decide), List.rdropWhile_eq_self_iff]
    intro hne hlast
    exact hzone (of_decide_eq_true hlast ▸ List.getLast_mem hne)

/-- The piece behind the last separator is blank. -/
theorem splitOn_zones {zones : List CStr} (hpre : ∀ c ∈ pre, c = 32)
    (h : ∀ zone ∈ zones, 32 ∉ zone ∧ 124 ∉ zone) :
    ((pre ++ zones.flatMap (fun zone => zone ++ cstr " | ")).splitOn 124).map trim =
      zones ++ [[]] := by
  have hnobar : ∀ {text : CStr}, (∀ c ∈ text, c = 32) → 124 ∉ text := by
    intro text htext hmem
    exact absurd (htext 124 hmem) (by decide)
  induction zones generalizing pre with
  | nil =>
    have hall : trim pre = [] := by
      unfold trim
      rw [List.dropWhile_eq_nil_iff.mpr (fun c hc => decide_eq_true (hpre c hc))]
      rfl
    simp [List.splitOn_eq_singleton (hnobar hpre), hall]
  | cons zone zones ih =>
    obtain ⟨hblank, hbar⟩ := h zone List.mem_cons_self
    have hrest : ∀ z ∈ zones, 32 ∉ z ∧ 124 ∉ z := fun z hz => h z (List.mem_cons_of_mem _ hz)
    have hsplit : pre ++ (zone :: zones).flatMap (fun zone => zone ++ cstr " | ") =
        (pre ++ zone ++ [32]) ++
          124 :: ([32] ++ zones.flatMap (fun zone => zone ++ cstr " | ")) := by
      have hcstr : cstr " | " = [32, 124, 32] := by decide
      simp [hcstr]
    have hpiece : 124 ∉ pre ++ zone ++ [32] := by
      simp [hnobar hpre, hbar]
    have hpieces : (([32] ++ zones.flatMap (fun zone => zone ++ cstr " | ")).splitOn 124).map trim =
        zones ++ [[]] := ih (by simp) hrest
    rw [hsplit, List.splitOn_append_cons_self_of_not_mem hpiece, List.map_cons,
      trim_eq hpre hblank, hpieces, List.cons_append]

end Texts

section Written

variable {fs : FileSystem} {noStr : CStr} {db : ZoneDb} {names : List CStr} {inst : Installed}

/-- What the zones add to the command. -/
def zoneWords (zones : List CStr) : CStr := zones.flatMap (fun zone => tolower zone ++ cstr " | ")

/-- What the zones add to the help text. -/
def zoneDocs (zones : List CStr) : CStr := zones.flatMap (fun zone => zone ++ cstr " Zone \n")

theorem foldl_addInfo_cmd :
    (names.foldl Timezone.addInfoToCmdOptions db).cmd = db.cmd ++ zoneWords names := by
  induction names generalizing db with
  | nil => exact (List.append_nil _).symm
  | cons name rest ih =>
    rw [List.foldl_cons, ih]
    simp [Timezone.addInfoToCmdOptions_eq, zoneWords]

theorem foldl_addInfo_help :
    (names.foldl Timezone.addInfoToCmdOptions db).help = db.help ++ zoneDocs names := by
  induction names generalizing db with
  | nil => exact (List.append_nil _).symm
  | cons name rest ih =>
    rw [List.foldl_cons, ih]
    simp [Timezone.addInfoToCmdOptions_eq, zoneDocs]

/-- The four texts, in terms of the zones of the tables. -/
structure Installed.Written (inst : Installed) (noStr : CStr) : Prop where
  paired : inst.db.Paired
  cmd : inst.cmd = cstr "timezone set (" ++ zoneWords inst.db.listOfZonesCaps ++ cstr ")"
  help : inst.help = timezoneStr ++ timezoneSetStr ++ zoneDocs inst.db.listOfZonesCaps
  cmdNoForm : inst.cmdNoForm = cstr "no " ++ inst.cmd
  helpNoForm : inst.helpNoForm = inst.help ++ (docNoForm noStr).drop inst.help.length

theorem written_of_fits (hfits : Fits fs) (noStr : CStr) :
    ∃ inst, systemInstallTimezoneSetCommand fs noStr = some inst ∧ inst.Written noStr := by
  have hwalk := (walk_isSome_iff fs).mpr hfits
  obtain ⟨db, hdb⟩ := Option.isSome_iff_exists.mp hwalk
  obtain ⟨hzones, hmeter⟩ := (metered_zoneinfoDir fs).of_some zoneMeter_startDb hdb
  have hpaired : db.Paired := by
    rw [hzones]
    exact paired_foldl_addInfo rfl
  have hcaps : db.listOfZonesCaps = zonesIn (walked fs zoneinfoDir) := by
    rw [hzones, addZones, foldl_addInfo_caps]
    rfl
  have hcmd : db.cmd = cstr "timezone set (" ++ zoneWords db.listOfZonesCaps := by
    rw [hcaps, hzones, addZones, foldl_addInfo_cmd]
    rfl
  have hhelp : db.help = timezoneStr ++ timezoneSetStr ++ zoneDocs db.listOfZonesCaps := by
    rw [hcaps, hzones, addZones, foldl_addInfo_help]
    rfl
  have hinst : systemInstallTimezoneSetCommand fs noStr = some ⟨db, db.cmd ++ cstr ")", db.help,
      cstr "no " ++ (db.cmd ++ cstr ")"), db.help ++ (docNoForm noStr).drop db.help.length⟩ := by
    rw [install_eq, hdb, Option.bind_eq_bind, Option.bind_some, finishInstall_eq hmeter]
  exact ⟨_, hinst, hpaired, congrArg (fun text => text ++ cstr ")") hcmd, hhelp, rfl, rfl⟩

theorem cmd_eq (h : inst.Written noStr) :
    inst.cmd = cstr "timezone set " ++ 40 :: (zoneWords inst.db.listOfZonesCaps ++ [41]) := by
  rw [h.cmd]
  simp [cstr]

/-- Both commands have the same text in the parentheses. -/
theorem inside_written (h : inst.Written noStr) :
    inside inst.cmd = zoneWords inst.db.listOfZonesCaps ∧
      inside inst.cmdNoForm = zoneWords inst.db.listOfZonesCaps := by
  have hno : inst.cmdNoForm = cstr "no timezone set " ++
      40 :: (zoneWords inst.db.listOfZonesCaps ++ [41]) := by
    rw [h.cmdNoForm, cmd_eq h, ← List.append_assoc]
    rfl
  exact ⟨cmd_eq h ▸ inside_eq (by decide) _, hno ▸ inside_eq (by decide) _⟩

theorem keywords_written (h : inst.Written noStr) :
    keywords inst.cmd = [cstr "timezone", cstr "set"] := by
  have hkept : ∀ c ∈ cstr "timezone set ", decide (c ≠ 40) = true :=
    List.all_eq_true.mp (by decide)
  have hbefore : inst.cmd.takeWhile (fun c => c ≠ 40) = cstr "timezone set " := by
    rw [cmd_eq h, List.takeWhile_append_of_pos hkept]
    exact List.append_nil _
  unfold keywords
  rw [hbefore]
  decide

/-- The separator behind the last zone leaves an empty alternative. -/
theorem nil_mem_alternatives {cmd : CStr} {zones : List CStr}
    (hinside : inside cmd = zoneWords zones) (hzones : zones ≠ []) : [] ∈ alternatives cmd := by
  obtain ⟨init, zone, rfl⟩ := (List.eq_nil_or_concat' zones).resolve_left hzones
  have hbars : zoneWords (init ++ [zone]) =
      (zoneWords init ++ tolower zone ++ [32]) ++ 124 :: [32] := by
    have hcstr : cstr " | " = [32, 124, 32] := by decide
    simp [zoneWords, hcstr]
  have hsome : inside cmd ≠ [] := by
    rw [hinside, hbars]
    exact List.append_ne_nil_of_right_ne_nil _ (List.cons_ne_nil _ _)
  have hlast : ([32] : CStr) ∈ (inside cmd).splitOn 124 := by
    rw [hinside, hbars, List.splitOn_append_cons_self]
    exact List.mem_append_right _ (by decide)
  have htrim : trim [32] = [] := by decide
  unfold alternatives
  rw [if_neg hsome, ← htrim]
  exact List.mem_map_of_mem hlast

def timezoneLine : CStr := cstr "Timezone information"
def timezoneSetLine : CStr := cstr "Sets Timezone configuration"

theorem docLines_timezone (rest : CStr) :
    docLines (timezoneStr ++ timezoneSetStr ++ rest) =
      timezoneLine :: timezoneSetLine :: docLines rest := by
  have htimezone : timezoneStr = timezoneLine ++ [10] := by decide
  have hset : timezoneSetStr = timezoneSetLine ++ [10] := by decide
  rw [htimezone, hset, List.append_assoc, List.append_assoc, List.append_assoc,
    List.singleton_append, List.singleton_append, docLines_append (by decide),
    docLines_append (by decide)]

/-- The line of the word "no" is missing: the second line documents "set". -/
theorem docLines_helpNoForm (h : inst.Written noStr) (hno : OneLine noStr) (more : List CStr) :
    docLines inst.helpNoForm ≠ docLines (noStr ++ timezoneStr ++ timezoneSetStr) ++ more := by
  obtain ⟨line, hline, rfl⟩ := hno
  have hdoc : docLines (line ++ [10] ++ timezoneStr ++ timezoneSetStr) =
      [line, timezoneLine, timezoneSetLine] := by
    have hwords := docLines_timezone []
    rw [List.append_nil] at hwords
    rw [List.append_assoc, List.append_assoc, List.singleton_append, docLines_append hline, hwords]
    rfl
  rw [h.helpNoForm, h.help, List.append_assoc, docLines_timezone, hdoc]
  intro heq
  have hsecond : timezoneSetLine = timezoneLine := (List.cons.inj (List.cons.inj heq).2).1
  exact absurd hsecond (by decide)

theorem not_aligned (h : inst.Written noStr) (hno : OneLine noStr) : ¬ inst.Aligned noStr :=
  fun haligned => docLines_helpNoForm h hno _ haligned.2.lines

/-- A name that neither the parentheses nor the help text take apart. -/
def Plain (zone : CStr) : Prop := 32 ∉ zone ∧ 124 ∉ zone ∧ 10 ∉ zone

theorem mem_tolower {c : UInt8} {zone : CStr} (hc : c < 65 ∨ 122 < c) :
    c ∈ tolower zone ↔ c ∈ zone := by
  have hsame : ∀ d, tolowerChar d = c ↔ d = c := by
    intro d
    unfold tolowerChar
    grind
  simp [tolower, hsame]

/-- The zones stand in the order of the table, with an empty alternative behind them. -/
theorem alternatives_written {cmd : CStr}
    (hinside : inside cmd = zoneWords inst.db.listOfZonesCaps)
    (hpaired : inst.db.Paired) (hplain : ∀ zone ∈ inst.db.listOfZonesCaps, Plain zone)
    (hzones : inst.db.listOfZones ≠ []) : alternatives cmd = inst.db.listOfZones ++ [[]] := by
  have hzone : ∀ zone ∈ inst.db.listOfZones, 32 ∉ zone ∧ 124 ∉ zone := by
    rw [hpaired]
    intro zone hmem
    obtain ⟨z, hz, rfl⟩ := List.mem_map.mp hmem
    obtain ⟨hblank, hbar, _⟩ := hplain z hz
    exact ⟨fun hc => hblank ((mem_tolower (by decide)).mp hc),
      fun hc => hbar ((mem_tolower (by decide)).mp hc)⟩
  have hwords : inside cmd =
      [] ++ inst.db.listOfZones.flatMap (fun zone => zone ++ cstr " | ") := by
    rw [hinside, hpaired, List.flatMap_map]
    rfl
  have hsome : inside cmd ≠ [] := by
    obtain ⟨zone, rest, hcons⟩ := List.exists_cons_of_ne_nil hzones
    have hbar : cstr " | " ≠ [] := by decide
    rw [hwords, hcons]
    simp [hbar]
  rw [alternatives, if_neg hsome, hwords]
  exact splitOn_zones (by simp) hzone

theorem docLines_zoneDocs {zones : List CStr} (hplain : ∀ zone ∈ zones, Plain zone) :
    docLines (zoneDocs zones) = zones.map (fun zone => zone ++ cstr " Zone ") := by
  have hlines : ∀ line ∈ zones.map (fun zone => zone ++ cstr " Zone "), 10 ∉ line := by
    intro line hmem
    obtain ⟨zone, hz, rfl⟩ := List.mem_map.mp hmem
    have hword : 10 ∉ cstr " Zone " := by decide
    simp [(hplain zone hz).2.2, hword]
  have hdocs : zoneDocs zones = (zones.map (fun zone => zone ++ cstr " Zone ")).flatMap
      (fun line => line ++ [10]) ++ [] := by
    have hcstr : cstr " Zone \n" = cstr " Zone " ++ [10] := by decide
    simp [zoneDocs, List.flatMap_map, hcstr]
  rw [hdocs, docLines_lines hlines]
  exact List.append_nil _

/-- The set form has a line of help for each word and each zone, in order, and none for the empty
alternative. -/
theorem setForm_written (h : inst.Written noStr)
    (hplain : ∀ zone ∈ inst.db.listOfZonesCaps, Plain zone) (hzones : inst.db.listOfZones ≠ []) :
    tokens inst.cmd = [cstr "timezone", cstr "set"] ++ (inst.db.listOfZones ++ [[]]) ∧
      docLines inst.help = [timezoneLine, timezoneSetLine] ++
        inst.db.listOfZonesCaps.map (fun zone => zone ++ cstr " Zone ") := by
  refine ⟨?_, ?_⟩
  · rw [tokens, keywords_written h,
      alternatives_written (inside_written h).1 h.paired hplain hzones]
  · rw [h.help, docLines_timezone, docLines_zoneDocs hplain]
    rfl

/-- In every case the no form lacks the line of its first word, and the last alternative of both
forms is empty where there are zones. -/
theorem neverAligned (fs : FileSystem) (noStr : CStr) (hfits : Fits fs) (hno : OneLine noStr) :
    ∃ inst, systemInstallTimezoneSetCommand fs noStr = some inst ∧ ¬ inst.Aligned noStr ∧
      (inst.db.listOfZones ≠ [] →
        [] ∈ alternatives inst.cmd ∧ [] ∈ alternatives inst.cmdNoForm) ∧
      ∀ more, docLines inst.helpNoForm ≠
        docLines (noStr ++ timezoneStr ++ timezoneSetStr) ++ more := by
  obtain ⟨inst, hinst, hwritten⟩ := written_of_fits hfits noStr
  refine ⟨inst, hinst, not_aligned hwritten hno, ?_, docLines_helpNoForm hwritten hno⟩
  intro hzones
  have hcaps : inst.db.listOfZonesCaps ≠ [] := by
    intro hnil
    rw [hwritten.paired, hnil] at hzones
    exact hzones rfl
  exact ⟨nil_mem_alternatives (inside_written hwritten).1 hcaps,
    nil_mem_alternatives (inside_written hwritten).2 hcaps⟩

/-- One zone, UTC. -/
def utcOnly : FileSystem := fun path =>
  if path = zoneinfoDir then some [⟨cstr "UTC", false, by decide⟩] else none

theorem fits_utcOnly : Fits utcOnly := by
  have hmet : walked utcOnly zoneinfoDir =
      [(joinPath zoneinfoDir (cstr "UTC"), ⟨cstr "UTC", false, by decide⟩)] := by
    have hentries : utcOnly zoneinfoDir = some [⟨cstr "UTC", false, by decide⟩] := if_pos rfl
    rw [walked_eq hentries]
    simp [walkedEntry]
  unfold Fits
  rw [hmet, List.forall_mem_singleton]
  exact ⟨by unfold PathFits; decide, by decide⟩

def negateStr : CStr := cstr "Negate a command or set its defaults\n"

theorem oneLine_negateStr : OneLine negateStr :=
  ⟨cstr "Negate a command or set its defaults", by decide, by decide⟩

theorem neverAligned_utcOnly :
    ∃ inst, systemInstallTimezoneSetCommand utcOnly negateStr = some inst ∧
      ¬ inst.Aligned negateStr := by
  obtain ⟨inst, hinst, hnot, -⟩ := neverAligned utcOnly negateStr fits_utcOnly oneLine_negateStr
  exact ⟨inst, hinst, hnot⟩

theorem utcOnly_not_aligned :
    ¬ ∀ inst, systemInstallTimezoneSetCommand utcOnly negateStr = some inst →
      inst.Aligned negateStr := by
  obtain ⟨inst, hinst, hwritten⟩ := written_of_fits fits_utcOnly negateStr
  exact fun haligned => not_aligned hwritten oneLine_negateStr (haligned inst hinst)

end Written

end OpsSysd.TimezoneInstall
