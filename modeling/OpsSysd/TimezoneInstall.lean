import OpsSysd.Metered
import OpsSysd.TimezoneCommand
import OpsSysd.TimezoneTree

/-!
The walk over the zone directory with the sizes of all that it writes to, and
the command elements that are made of what it collects. A write past the end of
an array ends the walk. Whatever the file system answers, a path grows with
every directory that is entered, so the walk ends.
-/

namespace OpsSysd.TimezoneInstall

open CString Timezone TimezoneCommand

structure Dirent where
  name : CStr
  isDtDir : Bool
  nonempty : name ≠ []

abbrev FileSystem := CStr → Option (List Dirent)

def isDots (name : CStr) : Prop := name = cstr "." ∨ name = cstr ".."

instance (name : CStr) : Decidable (isDots name) := inferInstanceAs (Decidable (_ ∨ _))

theorem length_joinPath (dir name : CStr) :
    (joinPath dir name).length = dir.length + name.length + 1 := by
  simp [joinPath]
  omega

theorem length_entered {name : CStr} {entry : Dirent}
    (h : (joinPath name entry.name).length < pathSize) :
    name.length < (snprintf (pathSize - 1) (joinPath name entry.name)).length ∧
      (snprintf (pathSize - 1) (joinPath name entry.name)).length ≤ pathSize - 2 := by
  have hpos := List.length_pos_of_ne_nil entry.nonempty
  have hsize : pathSize = 1024 := rfl
  rw [length_joinPath] at h
  unfold snprintf
  rw [List.length_take, length_joinPath]
  omega

/-- The path of a directory is printed as that of a file; it is longer with every level. -/
def findPosixTimezonesAndAddToList (fs : FileSystem) (name : CStr) (db : ZoneDb) :
    Option ZoneDb :=
  match fs name with
  | none => some db
  | some entries => entries.foldlM (fun db entry =>
    if entry.isDtDir then
      if _h : (joinPath name entry.name).length < pathSize then
        let path := snprintf (pathSize - 1) (joinPath name entry.name)
        if isDots entry.name then some db
        else findPosixTimezonesAndAddToList fs path db
      else none
    else bounded.visitFile name entry.name db) db
termination_by pathSize - 2 - name.length
decreasing_by
  have := length_entered _h
  omega

def timezoneStr : CStr := cstr "Timezone information\n"
def timezoneSetStr : CStr := cstr "Sets Timezone configuration\n"

structure Installed where
  db : ZoneDb
  cmd : CStr
  help : CStr
  cmdNoForm : CStr
  helpNoForm : CStr

/-- `strncpy` of a text without its NUL over a text in an array filled with NULs. -/
def overwrite (size : ℕ) (dst src : CStr) : Option CStr :=
  if src.length ≤ size then some (src ++ dst.drop src.length) else none

/-- `noStr` is the help text of the word "no", from the shell's headers. -/
def systemInstallTimezoneSetCommand (fs : FileSystem) (noStr : CStr) : Option Installed := do
  let cmd := (cstr "timezone set (").take (maxTimezoneCmdSize - 1)
  let cmdNoForm := (cstr "no ").take (maxTimezoneCmdSize - 1)
  let help := (timezoneStr ++ timezoneSetStr).take (maxTimezonesHelpSize - 1)
  let helpNoForm := (noStr ++ timezoneStr ++ timezoneSetStr).take (maxTimezonesHelpSize - 1)
  let db ← findPosixTimezonesAndAddToList fs zoneinfoDir (.empty cmd help)
  let cmd ← bounded.strcat maxTimezoneCmdSize db.cmd
    ((cstr ")").take (maxTimezoneCmdSize - db.cmd.length))
  let cmdNoForm ← bounded.strcat maxTimezoneCmdSize cmdNoForm cmd
  let helpNoForm ← overwrite maxTimezonesHelpSize helpNoForm db.help
  return ⟨db, cmd, db.help, cmdNoForm, helpNoForm⟩

/-- The entries that the walk meets, with their paths. A directory with a path too long for
its array is not entered. -/
def walked (fs : FileSystem) (name : CStr) : List (CStr × Dirent) :=
  match fs name with
  | none => []
  | some entries => entries.flatMap (fun entry =>
    (joinPath name entry.name, entry) ::
      if _h : (joinPath name entry.name).length < pathSize then
        if entry.isDtDir = true ∧ ¬ isDots entry.name then
          walked fs (snprintf (pathSize - 1) (joinPath name entry.name))
        else []
      else [])
termination_by pathSize - 2 - name.length
decreasing_by
  have := length_entered _h
  omega

def PathFits (p : CStr × Dirent) : Prop :=
  p.1.length < if p.2.isDtDir then pathSize else localDirSize

/-- The zones that the entries become. -/
def zonesIn (l : List (CStr × Dirent)) : List CStr :=
  (l.filter (fun p => !p.2.isDtDir)).map (fun p =>
    removeBasePath (snprintf (localDirSize - 1) p.1))

/-- Every path fits its array, and the zones fit the tables. -/
def Fits (fs : FileSystem) : Prop :=
  (∀ p ∈ walked fs zoneinfoDir, PathFits p) ∧
    (zonesIn (walked fs zoneinfoDir)).length ≤ maxTimezones

section Zones

variable {db : ZoneDb} {timezone name text : CStr}

theorem strcat_eq_some {size : ℕ} {dst src s : CStr} :
    bounded.strcat size dst src = some s ↔ (dst ++ src).length < size ∧ s = dst ++ src :=
  strcpy_eq_some

/-- The longest zone: what is left of a path in `local_dir` without the base path. -/
def maxZoneLength : ℕ := 72

/-- The texts are as long as so many zones make them at most: a zone adds itself and three
characters to the command, itself and seven to the help text. -/
def zoneMeter : Meter ZoneDb where
  I db := db.listOfZones.length ≤ maxTimezones ∧
    db.cmd.length ≤ 14 + 75 * db.listOfZones.length ∧
    db.help.length ≤ 49 + 79 * db.listOfZones.length
  count db := db.listOfZones.length
  limit := maxTimezones
  within _ h := h.1

theorem sizes : maxTimezones = 900 ∧ maxZoneLength = 72 ∧ maxTimezoneNameSize = 100 ∧
    maxTimezoneCmdSize = 90000 ∧ maxTimezonesHelpSize = 90000 := by
  decide

theorem length_addInfo (db : ZoneDb) (timezone : CStr) :
    (addInfoToCmdOptions db timezone).listOfZones.length = db.listOfZones.length + 1 ∧
      (db.cmd ++ tolower timezone ++ cstr " | ").length = db.cmd.length + timezone.length + 3 ∧
      (db.help ++ timezone ++ cstr " Zone \n").length =
        db.help.length + timezone.length + 7 := by
  have hlower : (tolower timezone).length = timezone.length := List.length_map _
  have hbar : (cstr " | ").length = 3 := by decide
  have hzone : (cstr " Zone \n").length = 7 := by decide
  refine ⟨?_, ?_, ?_⟩
  · simp [addInfoToCmdOptions_eq]
  · rw [List.length_append, List.length_append, hlower, hbar]
  · rw [List.length_append, List.length_append, hzone]

theorem addInfoToCmdOptions_of_fits (hdb : zoneMeter.I db)
    (hlength : timezone.length ≤ maxZoneLength) (hcount : db.listOfZones.length < maxTimezones) :
    bounded.addInfoToCmdOptions db timezone = some (addInfoToCmdOptions db timezone) := by
  obtain ⟨_, hcmd, hhelp⟩ := hdb
  obtain ⟨hmax, hzones, hname, hcmds, hhelps⟩ := sizes
  obtain ⟨_, hlengthCmd, hlengthHelp⟩ := length_addInfo db timezone
  have hlower : (tolower timezone).length = timezone.length := List.length_map _
  have h₁ : bounded.strcat maxTimezonesHelpSize db.help timezone = some (db.help ++ timezone) :=
    strcat_eq_some.mpr ⟨by rw [List.length_append]; omega, rfl⟩
  have h₂ : bounded.strcat maxTimezonesHelpSize (db.help ++ timezone) (cstr " Zone \n") =
      some (db.help ++ timezone ++ cstr " Zone \n") := strcat_eq_some.mpr ⟨by omega, rfl⟩
  have h₃ : bounded.strcpy maxTimezoneNameSize timezone = some timezone :=
    strcpy_eq_some.mpr ⟨by omega, rfl⟩
  have h₄ : bounded.strcat maxTimezoneCmdSize db.cmd (tolower timezone) =
      some (db.cmd ++ tolower timezone) :=
    strcat_eq_some.mpr ⟨by rw [List.length_append]; omega, rfl⟩
  have h₅ : bounded.strcat maxTimezoneCmdSize (db.cmd ++ tolower timezone) (cstr " | ") =
      some (db.cmd ++ tolower timezone ++ cstr " | ") := strcat_eq_some.mpr ⟨by omega, rfl⟩
  have h₆ : bounded.strcpy maxTimezoneNameSize (tolower timezone) = some (tolower timezone) :=
    strcpy_eq_some.mpr ⟨by omega, rfl⟩
  have h₇ : bounded.store maxTimezones db.listOfZones.length = some () := if_pos hcount
  unfold Arrays.addInfoToCmdOptions Arrays.populateZoneDb
  simp only [h₁, h₂, h₃, h₄, h₅, h₆, h₇, Option.bind_eq_bind, Option.bind_some]
  rfl

theorem addInfoToCmdOptions_of_full (hcount : ¬ db.listOfZones.length < maxTimezones) :
    bounded.addInfoToCmdOptions db timezone = none := by
  have hstore : bounded.store maxTimezones db.listOfZones.length = none := if_neg hcount
  have hfull : ∀ cmd help zone zoneCaps,
      bounded.populateZoneDb { db with cmd := cmd, help := help } zone zoneCaps = none := by
    intro cmd help zone zoneCaps
    rw [Arrays.populateZoneDb, hstore]
    rfl
  unfold Arrays.addInfoToCmdOptions
  simp only [hfull, Option.bind_eq_bind, Option.bind_fun_none]

theorem metered_addInfo (hlength : timezone.length ≤ maxZoneLength) :
    Metered zoneMeter (fun db => bounded.addInfoToCmdOptions db timezone)
      (fun db => addInfoToCmdOptions db timezone) True 1 where
  succeeds := by
    intro db hdb _ hle
    have hcount : db.listOfZones.length < maxTimezones := hle
    obtain ⟨_, hzones, _⟩ := sizes
    obtain ⟨hlengthZones, hlengthCmd, hlengthHelp⟩ := length_addInfo db timezone
    have hadded := addInfoToCmdOptions_of_fits hdb hlength hcount
    obtain ⟨_, hcmd, hhelp⟩ := hdb
    refine ⟨hadded, ⟨?_, ?_, ?_⟩, hlengthZones⟩
    · rw [hlengthZones]
      exact hcount
    · rw [hlengthZones]
      refine hlengthCmd.le.trans ?_
      omega
    · rw [hlengthZones]
      refine hlengthHelp.le.trans ?_
      omega
  fails := by
    intro db _ hnot
    exact addInfoToCmdOptions_of_full (fun hcount => hnot ⟨trivial, hcount⟩)

theorem length_eraseAll_le (pattern : CStr) (k : ℕ) (s : CStr) :
    (eraseAll pattern k s).length ≤ s.length := by
  induction s generalizing k with
  | nil => cases k <;> exact le_rfl
  | cons c rest ih =>
    cases k with
    | zero =>
      rw [eraseAll]
      split_ifs
      · exact (ih _).trans (Nat.le_succ _)
      · exact Nat.succ_le_succ (ih _)
    | succ k => exact (ih k).trans (Nat.le_succ _)

theorem length_removeBasePath (h : basePath <+: text) :
    (removeBasePath text).length ≤ text.length - basePath.length := by
  have hp : basePath ≠ [] := by decide
  have hfirst : strstr text basePath = some 0 := by
    obtain ⟨c, rest, hc⟩ := List.exists_cons_of_ne_nil (h.ne_nil hp)
    rw [hc, strstr_cons, if_pos (by rw [← hc]; exact List.isPrefixOf_iff_prefix.mpr h)]
  rw [removeBasePath_eq_eraseAll, eraseAll_eq_strstr hp, hfirst]
  simp only [List.take_zero, List.nil_append, Nat.zero_add]
  exact (length_eraseAll_le _ _ _).trans (List.length_drop ..).le

/-- The paths of the entries of the directory are below the base path. -/
def Below (name : CStr) : Prop := ∀ entryName, basePath <+: joinPath name entryName

theorem below_zoneinfoDir : Below zoneinfoDir := by
  intro entryName
  have hbase : basePath = zoneinfoDir ++ [47] := by decide
  rw [hbase, joinPath]
  exact ⟨entryName, by simp⟩

theorem prefix_snprintf {size : ℕ} (h : basePath <+: text) (hsize : basePath.length < size) :
    basePath <+: snprintf size text := by
  unfold snprintf
  rw [List.prefix_take_iff]
  exact ⟨h, Nat.le_sub_one_of_lt hsize⟩

theorem Below.enter (h : Below name) (entryName : CStr) :
    Below (snprintf (pathSize - 1) (joinPath name entryName)) :=
  fun _ => (prefix_snprintf (h entryName) (by decide)).trans (List.prefix_append _ _)

theorem length_zone (h : Below name) (entryName : CStr) :
    (removeBasePath (snprintf (localDirSize - 1) (joinPath name entryName))).length ≤
      maxZoneLength := by
  have hprefix : basePath <+: snprintf (localDirSize - 1) (joinPath name entryName) :=
    prefix_snprintf (h entryName) (by decide)
  have hcut : (snprintf (localDirSize - 1) (joinPath name entryName)).length ≤ 98 := by
    unfold snprintf
    exact List.length_take_le _ _
  have hbase : basePath.length = 26 := by decide
  have hzone := length_removeBasePath hprefix
  obtain ⟨_, hmax, _⟩ := sizes
  omega

def addZones (l : List (CStr × Dirent)) (db : ZoneDb) : ZoneDb :=
  (zonesIn l).foldl addInfoToCmdOptions db

theorem visitFile_of_fits {entryName : CStr}
    (h : (joinPath name entryName).length < localDirSize) :
    bounded.visitFile name entryName db = bounded.addInfoToCmdOptions db
      (removeBasePath (snprintf (localDirSize - 1) (joinPath name entryName))) := by
  have hstore : bounded.store localDirSize (joinPath name entryName).length = some () := if_pos h
  rw [Arrays.visitFile, Arrays.printPath, hstore]
  rfl

theorem visitFile_of_long {entryName : CStr}
    (h : ¬ (joinPath name entryName).length < localDirSize) :
    bounded.visitFile name entryName db = none := by
  have hstore : bounded.store localDirSize (joinPath name entryName).length = none := if_neg h
  rw [Arrays.visitFile, Arrays.printPath, hstore]
  rfl

def visitEntry (fs : FileSystem) (name : CStr) (db : ZoneDb) (entry : Dirent) : Option ZoneDb :=
  if entry.isDtDir then
    if (joinPath name entry.name).length < pathSize then
      if isDots entry.name then some db
      else findPosixTimezonesAndAddToList fs
        (snprintf (pathSize - 1) (joinPath name entry.name)) db
    else none
  else bounded.visitFile name entry.name db

theorem findPosixTimezones_eq {fs : FileSystem} {entries : List Dirent}
    (h : fs name = some entries) (db : ZoneDb) :
    findPosixTimezonesAndAddToList fs name db = entries.foldlM (visitEntry fs name) db := by
  rw [findPosixTimezonesAndAddToList, h]
  simp only [dite_eq_ite]
  rfl

def walkedEntry (fs : FileSystem) (name : CStr) (entry : Dirent) : List (CStr × Dirent) :=
  (joinPath name entry.name, entry) ::
    if (joinPath name entry.name).length < pathSize then
      if entry.isDtDir = true ∧ ¬ isDots entry.name then
        walked fs (snprintf (pathSize - 1) (joinPath name entry.name))
      else []
    else []

theorem walked_eq {fs : FileSystem} {entries : List Dirent} (h : fs name = some entries) :
    walked fs name = entries.flatMap (walkedEntry fs name) := by
  rw [walked, h]
  simp only [dite_eq_ite]
  rfl

theorem metered_visitEntry {fs : FileSystem} (hname : Below name) (entry : Dirent)
    (ih : (joinPath name entry.name).length < pathSize →
      Metered zoneMeter
        (findPosixTimezonesAndAddToList fs (snprintf (pathSize - 1) (joinPath name entry.name)))
        (addZones (walked fs (snprintf (pathSize - 1) (joinPath name entry.name))))
        (∀ p ∈ walked fs (snprintf (pathSize - 1) (joinPath name entry.name)), PathFits p)
        (zonesIn (walked fs (snprintf (pathSize - 1) (joinPath name entry.name)))).length) :
    Metered zoneMeter (fun db => visitEntry fs name db entry) (addZones (walkedEntry fs name entry))
      (∀ p ∈ walkedEntry fs name entry, PathFits p)
      (zonesIn (walkedEntry fs name entry)).length := by
  unfold visitEntry walkedEntry
  cases hdir : entry.isDtDir with
  | true =>
    by_cases hpath : (joinPath name entry.name).length < pathSize
    · by_cases hdots : isDots entry.name
      · simp only [hpath, hdots, if_true]
        refine (Metered.skip zoneMeter).congr ?_ ?_ ?_
        · funext db
          simp [addZones, zonesIn, hdir]
        · simp [PathFits, hdir, hpath]
        · simp [zonesIn, hdir]
      · simp only [hpath, hdots, if_true, if_false, not_false_eq_true, and_self]
        refine (ih hpath).congr ?_ ?_ ?_
        · funext db
          simp [addZones, zonesIn, hdir]
        · simp [PathFits, hdir, hpath]
        · simp [zonesIn, hdir]
    · simp only [hpath, if_true, if_false]
      refine (Metered.fail zoneMeter _ 0).congr rfl ?_ ?_
      · simp [PathFits, hdir, hpath]
      · simp [zonesIn, hdir]
  | false =>
    have hlist : (if (joinPath name entry.name).length < pathSize then
        if false = true ∧ ¬ isDots entry.name then
          walked fs (snprintf (pathSize - 1) (joinPath name entry.name))
        else []
      else []) = [] := by simp
    rw [hlist]
    by_cases hpath : (joinPath name entry.name).length < localDirSize
    · simp only [visitFile_of_fits hpath, Bool.false_eq_true, if_false]
      refine (metered_addInfo (length_zone hname entry.name)).congr ?_ ?_ ?_
      · funext db
        simp [addZones, zonesIn, hdir]
      · simp [PathFits, hdir, hpath]
      · simp [zonesIn, hdir]
    · simp only [visitFile_of_long hpath, Bool.false_eq_true, if_false]
      refine (Metered.fail zoneMeter _ 1).congr rfl ?_ ?_
      · simp [PathFits, hdir, hpath]
      · simp [zonesIn, hdir]

theorem metered_findPosixTimezones (fs : FileSystem) (hname : Below name) :
    Metered zoneMeter (findPosixTimezonesAndAddToList fs name) (addZones (walked fs name))
      (∀ p ∈ walked fs name, PathFits p) (zonesIn (walked fs name)).length := by
  induction hn : pathSize - 2 - name.length using Nat.strong_induction_on generalizing name with
  | _ n ih =>
    cases hfs : fs name with
    | none =>
      have hwalk : findPosixTimezonesAndAddToList fs name = some := by
        funext db
        rw [findPosixTimezonesAndAddToList, hfs]
      have hmet : walked fs name = [] := by rw [walked, hfs]
      rw [hwalk, hmet]
      exact (Metered.skip zoneMeter).congr rfl (by simp) rfl
    | some entries =>
      have hwalk : findPosixTimezonesAndAddToList fs name =
          fun db => entries.foldlM (visitEntry fs name) db :=
        funext (findPosixTimezones_eq hfs)
      rw [hwalk, walked_eq hfs]
      refine (Metered.foldlM (fun entry _ => metered_visitEntry hname entry
        (fun hpath => ih _ ?_ (hname.enter entry.name) rfl))).congr ?_ ?_ ?_
      · have := length_entered hpath
        omega
      · funext db
        simp only [addZones, zonesIn, List.filter_flatMap, List.map_flatMap, List.foldl_flatMap]
      · exact List.forall_mem_flatMap.symm
      · simp only [zonesIn, List.filter_flatMap, List.map_flatMap, List.length_flatMap]

end Zones

section Install

variable {fs : FileSystem} {noStr : CStr} {db : ZoneDb}

def startDb : ZoneDb := .empty (cstr "timezone set (") (timezoneStr ++ timezoneSetStr)

theorem zoneMeter_startDb : zoneMeter.I startDb := by
  refine ⟨Nat.zero_le _, ?_, ?_⟩ <;> decide

/-- The help text of the no form before the other one is copied over it. -/
def docNoForm (noStr : CStr) : CStr :=
  (noStr ++ timezoneStr ++ timezoneSetStr).take (maxTimezonesHelpSize - 1)

/-- What is done once the walk is over. -/
def finishInstall (noStr : CStr) (db : ZoneDb) : Option Installed := do
  let cmd ← bounded.strcat maxTimezoneCmdSize db.cmd
    ((cstr ")").take (maxTimezoneCmdSize - db.cmd.length))
  let cmdNoForm ← bounded.strcat maxTimezoneCmdSize (cstr "no ") cmd
  let helpNoForm ← overwrite maxTimezonesHelpSize (docNoForm noStr) db.help
  return ⟨db, cmd, db.help, cmdNoForm, helpNoForm⟩

/-- The bounded copies of the short texts are exact. -/
theorem install_eq (fs : FileSystem) (noStr : CStr) : systemInstallTimezoneSetCommand fs noStr =
    findPosixTimezonesAndAddToList fs zoneinfoDir startDb >>= finishInstall noStr := by
  have hstart : ZoneDb.empty ((cstr "timezone set (").take (maxTimezoneCmdSize - 1))
      ((timezoneStr ++ timezoneSetStr).take (maxTimezonesHelpSize - 1)) = startDb := by decide
  have hprefix : (cstr "no ").take (maxTimezoneCmdSize - 1) = cstr "no " := by decide
  unfold finishInstall
  rw [← hstart, ← hprefix]
  rfl

theorem finishInstall_eq (hdb : zoneMeter.I db) (noStr : CStr) :
    finishInstall noStr db = some ⟨db, db.cmd ++ cstr ")", db.help,
      cstr "no " ++ (db.cmd ++ cstr ")"), db.help ++ (docNoForm noStr).drop db.help.length⟩ := by
  obtain ⟨hcount, hcmd, hhelp⟩ := hdb
  obtain ⟨hmax, _, _, hcmds, hhelps⟩ := sizes
  have hclose : (cstr ")").take (maxTimezoneCmdSize - db.cmd.length) = cstr ")" := by
    refine List.take_of_length_le ?_
    have hone : (cstr ")").length = 1 := by decide
    omega
  have hlength : (db.cmd ++ cstr ")").length = db.cmd.length + 1 := List.length_append
  have h₁ : bounded.strcat maxTimezoneCmdSize db.cmd (cstr ")") = some (db.cmd ++ cstr ")") :=
    strcat_eq_some.mpr ⟨by omega, rfl⟩
  have hno : (cstr "no ").length = 3 := by decide
  have h₂ : bounded.strcat maxTimezoneCmdSize (cstr "no ") (db.cmd ++ cstr ")") =
      some (cstr "no " ++ (db.cmd ++ cstr ")")) :=
    strcat_eq_some.mpr ⟨by rw [List.length_append]; omega, rfl⟩
  have h₃ : overwrite maxTimezonesHelpSize (docNoForm noStr) db.help =
      some (db.help ++ (docNoForm noStr).drop db.help.length) := if_pos (by omega)
  unfold finishInstall
  simp only [Option.bind_eq_bind, Option.bind_some, hclose, h₁, h₂, h₃]
  rfl

theorem metered_zoneinfoDir (fs : FileSystem) :
    Metered zoneMeter (findPosixTimezonesAndAddToList fs zoneinfoDir)
      (addZones (walked fs zoneinfoDir)) (∀ p ∈ walked fs zoneinfoDir, PathFits p)
      (zonesIn (walked fs zoneinfoDir)).length :=
  metered_findPosixTimezones fs below_zoneinfoDir

theorem install_isSome (fs : FileSystem) (noStr : CStr) :
    (systemInstallTimezoneSetCommand fs noStr).isSome =
      (findPosixTimezonesAndAddToList fs zoneinfoDir startDb).isSome := by
  rw [install_eq]
  cases hwalk : findPosixTimezonesAndAddToList fs zoneinfoDir startDb with
  | none => rfl
  | some db =>
    have hdb := ((metered_zoneinfoDir fs).of_some zoneMeter_startDb hwalk).2
    rw [Option.bind_eq_bind, Option.bind_some, finishInstall_eq hdb]
    rfl

theorem walk_isSome_iff (fs : FileSystem) :
    (findPosixTimezonesAndAddToList fs zoneinfoDir startDb).isSome = true ↔ Fits fs := by
  rw [(metered_zoneinfoDir fs).isSome_iff zoneMeter_startDb]
  have hcount : zoneMeter.count startDb = 0 := rfl
  have hlimit : zoneMeter.limit = maxTimezones := rfl
  rw [hcount, hlimit, Nat.zero_add]
  rfl

/-- For every file system: the paths and the number of the zones decide, and then the texts fit
too. -/
theorem installInBounds_iff (fs : FileSystem) (noStr : CStr) :
    (systemInstallTimezoneSetCommand fs noStr).isSome = true ↔ Fits fs := by
  rw [install_isSome, walk_isSome_iff]

def longZone : FileSystem := fun path =>
  if path = zoneinfoDir then some [⟨List.replicate 80 97, false, by decide⟩] else none

theorem longZone_not_inBounds :
    (systemInstallTimezoneSetCommand longZone (cstr "Negate a command\n")).isSome = false := by
  rw [install_isSome, Bool.eq_false_iff, ne_eq, walk_isSome_iff]
  intro hfits
  have hmet : walked longZone zoneinfoDir = [(joinPath zoneinfoDir (List.replicate 80 97),
      ⟨List.replicate 80 97, false, by decide⟩)] := by
    have hentries : longZone zoneinfoDir = some [⟨List.replicate 80 97, false, by decide⟩] :=
      if_pos rfl
    rw [walked_eq hentries]
    simp [walkedEntry]
  have hlong := hfits.1 _ (by rw [hmet]; exact List.mem_singleton_self _)
  revert hlong
  unfold PathFits
  rw [length_joinPath]
  decide

end Install

/-- A directory lists the entries, with "." and ".." anywhere among them. -/
def Lists (l : List Dirent) (entries : Entries) : Prop :=
  (l.filter (fun e => !(e.isDtDir && decide (isDots e.name)))).map
    (fun e => (e.name, e.isDtDir)) = entries.map (fun e => (e.1, e.2.isDtDir))

mutual

def EntryListed (fs : FileSystem) (name entryName : CStr) : Node → Prop
  | .directory entries =>
    (∃ l, fs (joinPath name entryName) = some l ∧ Lists l entries) ∧
      EntriesListed fs (joinPath name entryName) entries
  | _ => True

/-- The file system shows the trees below the directory. -/
def EntriesListed (fs : FileSystem) (name : CStr) : Entries → Prop
  | [] => True
  | (entryName, node) :: rest => EntryListed fs name entryName node ∧ EntriesListed fs name rest

end

section Trees

variable {fs : FileSystem} {name : CStr} {entries : Entries} {db db' : ZoneDb}

theorem zonesIn_flatMap {α : Type} (f : α → List (CStr × Dirent)) (l : List α) :
    zonesIn (l.flatMap f) = l.flatMap (fun a => zonesIn (f a)) := by
  simp only [zonesIn, List.filter_flatMap, List.map_flatMap]

theorem flatMap_zonesIn_filter (fs : FileSystem) (name : CStr) (l : List Dirent) :
    l.flatMap (fun e => zonesIn (walkedEntry fs name e)) =
      (l.filter (fun e => !(e.isDtDir && decide (isDots e.name)))).flatMap
        (fun e => zonesIn (walkedEntry fs name e)) := by
  induction l with
  | nil => rfl
  | cons e rest ih =>
    rw [List.flatMap_cons, ih, List.filter_cons]
    by_cases hskip : e.isDtDir = true ∧ isDots e.name
    · have hnone : zonesIn (walkedEntry fs name e) = [] := by
        simp [zonesIn, walkedEntry, hskip.1, hskip.2]
      rw [hnone, if_neg (by simp [hskip.1, hskip.2])]
      rfl
    · have hkept : (!(e.isDtDir && decide (isDots e.name))) = true := by
        rw [Bool.not_eq_true', ← Bool.not_eq_true, Bool.and_eq_true, decide_eq_true_iff]
        exact hskip
      rw [if_pos hkept, List.flatMap_cons]

/-- The walk over the file system meets the zones of the tree in their order. -/
theorem zonesIn_entries (name : CStr) (entries : Entries) :
    ∀ l : List Dirent, l.map (fun e => (e.name, e.isDtDir)) =
      entries.map (fun e => (e.1, e.2.isDtDir)) →
      EntriesListed fs name entries → EntriesFit name entries →
        l.flatMap (fun e => zonesIn (walkedEntry fs name e)) =
          (zonesOf name entries).map Zone.name := by
  induction name, entries using zonesOf.induct
    (motive_1 := fun name entryName node => ∀ e : Dirent, e.name = entryName →
      e.isDtDir = node.isDtDir → EntryListed fs name entryName node →
        EntryFits name entryName node →
          zonesIn (walkedEntry fs name e) = (zonesOfEntry name entryName node).map Zone.name) with
  | case1 name entryName entries ih e hname hdir hlisted hfits =>
    rw [EntryListed] at hlisted
    rw [EntryFits] at hfits
    obtain ⟨⟨l, hl, hlists⟩, hinner⟩ := hlisted
    obtain ⟨hproper, hlength, hentries⟩ := hfits
    have hisDir : e.isDtDir = true := hdir
    have hpath : (joinPath name e.name).length < pathSize := by
      rw [hname]
      have hsize : pathSize = 1024 := rfl
      omega
    have hcut : snprintf (pathSize - 1) (joinPath name entryName) = joinPath name entryName :=
      snprintf_of_lt hlength
    have hdots : ¬ isDots entryName := hproper.noDots
    have hentry : zonesIn (walkedEntry fs name e) =
        zonesIn (walked fs (joinPath name entryName)) := by
      unfold walkedEntry
      rw [if_pos hpath, hname, if_pos ⟨hisDir, hdots⟩, hcut]
      simp [zonesIn, hisDir]
    rw [hentry, walked_eq hl, zonesIn_flatMap, flatMap_zonesIn_filter, zonesOfEntry]
    exact ih _ hlists hinner hentries
  | case2 node name entryName hnode e hname hdir hlisted hfits =>
    cases node with
    | directory entries => exact (hnode entries rfl).elim
    | _ =>
      obtain ⟨_, hlength⟩ : ProperName entryName ∧ (joinPath name entryName).length < 99 := by
        simpa [EntryFits] using hfits
      have hisDir : e.isDtDir = false := hdir
      have hcut : snprintf (localDirSize - 1) (joinPath name entryName) =
          joinPath name entryName := snprintf_of_lt hlength
      simp [walkedEntry, zonesIn, zonesOfEntry, hisDir, hname, hcut, removeBasePath_eq_eraseAll]
  | case3 name =>
    intro l hl _ _
    rw [List.map_eq_nil_iff.mp hl]
    rfl
  | case4 name entryName node rest ihEntry ihRest =>
    intro l hl hlisted hfits
    obtain ⟨e, l', rfl, he, hl'⟩ := List.map_eq_cons_iff.mp hl
    rw [EntriesListed] at hlisted
    rw [EntriesFit] at hfits
    rw [List.flatMap_cons, zonesOf, List.map_append]
    have hname : e.name = entryName := congrArg Prod.fst he
    have hdir : e.isDtDir = node.isDtDir := congrArg Prod.snd he
    rw [ihEntry e hname hdir hlisted.1 hfits.1, ihRest l' hl' hlisted.2 hfits.2]

theorem findPosixTimezones_tree {l : List Dirent} (hdb : zoneMeter.I db)
    (hl : fs zoneinfoDir = some l) (hlists : Lists l entries)
    (hlisted : EntriesListed fs zoneinfoDir entries) (hfits : EntriesFit zoneinfoDir entries)
    (hwalk : findPosixTimezonesAndAddToList fs zoneinfoDir db = some db') :
    db' = Timezone.findPosixTimezonesAndAddToList zoneinfoDir entries db := by
  rw [((metered_zoneinfoDir fs).of_some hdb hwalk).1, addZones, walked_eq hl, zonesIn_flatMap,
    flatMap_zonesIn_filter, zonesIn_entries zoneinfoDir entries _ hlists hlisted hfits,
    findPosixTimezones_eq_foldl zoneinfoDir entries db hfits]

end Trees

end OpsSysd.TimezoneInstall
