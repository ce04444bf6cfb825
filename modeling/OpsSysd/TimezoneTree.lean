import OpsSysd.Timezone

/-!
The zones that the shell and the validator of the REST interface take from the
zone directory. The shell walks it by the entry types and tells directories
from everything else; the validator follows links to tell them apart. Both cut
the directory's path out of the full paths.
-/

namespace OpsSysd.Timezone

open CString

inductive LinkTarget
  | file
  | directory
  | dangling
  deriving DecidableEq, Repr

/-- A directory lists its entries in the order in which `readdir` yields them. -/
inductive Node
  | file
  | link (target : LinkTarget)
  | directory (entries : List (CStr × Node))

abbrev Entries := List (CStr × Node)

/-- What `snprintf` with this bound leaves of a text. -/
def snprintf (size : ℕ) (s : CStr) : CStr := s.take (size - 1)

def joinPath (dir name : CStr) : CStr := dir ++ 47 :: name

def zoneinfoDir : CStr := cstr "/usr/share/zoneinfo/posix"
def basePath : CStr := cstr "/usr/share/zoneinfo/posix/"

/-- The index of the first occurrence. -/
def strstr (s pattern : CStr) : Option ℕ := s.tails.findIdx? (fun t => pattern.isPrefixOf t)

theorem strstr_cons (c : UInt8) (s pattern : CStr) :
    strstr (c :: s) pattern =
      if pattern.isPrefixOf (c :: s) then some 0 else (strstr s pattern).map (· + 1) := by
  unfold strstr
  rw [List.tails_cons, List.findIdx?_cons]

theorem strstr_lt {s pattern : CStr} {i : ℕ} (hp : pattern ≠ []) (h : strstr s pattern = some i) :
    i < s.length := by
  induction s generalizing i with
  | nil =>
    obtain ⟨c, rest, rfl⟩ := List.exists_cons_of_ne_nil hp
    simp [strstr] at h
  | cons c s ih =>
    rw [strstr_cons] at h
    split_ifs at h
    · cases h
      simp
    · obtain ⟨j, hj, rfl⟩ := Option.map_eq_some_iff.mp h
      have := ih hj
      simp only [List.length_cons]
      omega

/-- Each pass searches on from where the last one removed the path. -/
def removeBasePath (fullPath : CStr) : CStr :=
  match _h : strstr fullPath basePath with
  | none => fullPath
  | some i => fullPath.take i ++ removeBasePath (fullPath.drop (i + basePath.length))
termination_by fullPath.length
decreasing_by
  have := strstr_lt (by decide) _h
  have hpos : 0 < basePath.length := by decide
  rw [List.length_drop]
  omega

def localDirSize : ℕ := 100
def pathSize : ℕ := 1024

namespace Arrays

variable {m : Type → Type} [Monad m] (arrays : Arrays m)

/-- The text is cut to what fits below the last byte, and a NUL is stored at its full length. -/
def printPath (size : ℕ) (text : CStr) : m CStr := do
  arrays.store size text.length
  return snprintf (size - 1) text

/-- An entry that is no directory; the removal of the base path writes inside the text. -/
def visitFile (name entryName : CStr) (db : ZoneDb) : m ZoneDb := do
  let localDir ← arrays.printPath localDirSize (joinPath name entryName)
  arrays.addInfoToCmdOptions db (removeBasePath localDir)

end Arrays

/-- `d_type` is `DT_DIR`. -/
def Node.isDtDir : Node → Bool
  | .directory _ => true
  | _ => false

mutual

/-- The body of the loop. -/
def visitEntry (name entryName : CStr) : Node → ZoneDb → ZoneDb
  | .directory entries, db =>
    let path := Id.run (unbounded.printPath pathSize (joinPath name entryName))
    if entryName = cstr "." ∨ entryName = cstr ".." then db
    else findPosixTimezonesAndAddToList path entries db
  | _, db => Id.run (unbounded.visitFile name entryName db)

def findPosixTimezonesAndAddToList (name : CStr) : Entries → ZoneDb → ZoneDb
  | [], db => db
  | (entryName, node) :: rest, db =>
    findPosixTimezonesAndAddToList name rest (visitEntry name entryName node db)

end

/-- `os.path.isdir` follows links. -/
def Node.isDir : Node → Bool
  | .directory _ => true
  | .link .directory => true
  | _ => false

/-- `os.path.join` of a path and a file name. -/
def pyJoin (root name : CStr) : CStr :=
  if root.getLast? = some 47 then root ++ name else joinPath root name

/-- `s.replace(pattern, "")`, with how many characters of the pattern are left to skip. -/
def eraseAll (pattern : CStr) : ℕ → CStr → CStr
  | _, [] => []
  | k + 1, _ :: rest => eraseAll pattern k rest
  | 0, c :: rest =>
    if pattern.isPrefixOf (c :: rest) then eraseAll pattern (pattern.length - 1) rest
    else c :: eraseAll pattern 0 rest

def filenames (entries : Entries) : List CStr :=
  (entries.filter (fun e => e.2.isDir = false)).map Prod.fst

/-- What `os.walk` yields below a directory: links to directories are not followed. -/
def walkDirectories (root : CStr) : Entries → List (CStr × List CStr)
  | [] => []
  | (name, .directory inner) :: rest =>
    (pyJoin root name, filenames inner) ::
      (walkDirectories (pyJoin root name) inner ++ walkDirectories root rest)
  | (_, .file) :: rest | (_, .link _) :: rest => walkDirectories root rest

def osWalk (top : CStr) (entries : Entries) : List (CStr × List CStr) :=
  (top, filenames entries) :: walkDirectories top entries

/-- The keys of `list_of_timezones`. -/
def buildTimezoneDb (entries : Entries) : List CStr :=
  (osWalk basePath entries).flatMap fun d =>
    d.2.map fun filename => eraseAll basePath 0 (pyJoin d.1 filename)

def checkValidTimezone (entries : Entries) (timezone : CStr) : Bool :=
  (buildTimezoneDb entries).contains timezone

/-- The tables after the walk. -/
def zoneDb (entries : Entries) (cmd help : CStr) : ZoneDb :=
  findPosixTimezonesAndAddToList zoneinfoDir entries (.empty cmd help)

section Erase

theorem eraseAll_skip (pattern : CStr) (k : ℕ) (s : CStr) :
    eraseAll pattern k s = eraseAll pattern 0 (s.drop k) := by
  induction k generalizing s with
  | zero => rfl
  | succ k ih =>
    cases s with
    | nil => rfl
    | cons c rest => exact ih rest

/-- Removing goes on after the first occurrence. -/
theorem eraseAll_eq_strstr {pattern : CStr} (hp : pattern ≠ []) (s : CStr) :
    eraseAll pattern 0 s =
      match strstr s pattern with
      | none => s
      | some i => s.take i ++ eraseAll pattern 0 (s.drop (i + pattern.length)) := by
  induction s with
  | nil =>
    have hnone : strstr [] pattern = none := by
      obtain ⟨c, rest, rfl⟩ := List.exists_cons_of_ne_nil hp
      simp [strstr]
    rw [hnone]
    rfl
  | cons c s ih =>
    rw [strstr_cons, eraseAll]
    by_cases hprefix : pattern.isPrefixOf (c :: s) = true
    · obtain ⟨n, hn⟩ := Nat.exists_eq_succ_of_ne_zero (List.length_pos_of_ne_nil hp).ne'
      rw [if_pos hprefix, if_pos hprefix, eraseAll_skip]
      simp [hn]
    · rw [if_neg hprefix, if_neg hprefix, ih]
      cases strstr s pattern with
      | none => rfl
      | some i =>
        simp only [Option.map_some, List.take_succ_cons, List.cons_append]
        rw [show i + 1 + pattern.length = (i + pattern.length) + 1 by omega, List.drop_succ_cons]

/-- The loop over `strstr` and `str.replace` remove the same. -/
theorem removeBasePath_eq_eraseAll (s : CStr) : removeBasePath s = eraseAll basePath 0 s := by
  induction hn : s.length using Nat.strong_induction_on generalizing s with
  | _ n ih =>
    have hp : basePath ≠ [] := by decide
    rw [removeBasePath, eraseAll_eq_strstr hp]
    split
    · next h => rw [h]
    · next i h =>
      have hlt := strstr_lt hp h
      have hpos : 0 < basePath.length := by decide
      rw [h, ih _ (by rw [List.length_drop]; omega) _ rfl]

end Erase

/-- An entry that is no directory, as its path below the zone directory. -/
structure Zone where
  name : CStr
  directoryLink : Bool
  deriving DecidableEq

mutual

def zonesOfEntry (name entryName : CStr) : Node → List Zone
  | .directory entries => zonesOf (joinPath name entryName) entries
  | node => [⟨eraseAll basePath 0 (joinPath name entryName), node.isDir⟩]

/-- The entries that are no directories, in the order of the shell's walk. -/
def zonesOf (name : CStr) : Entries → List Zone
  | [] => []
  | (entryName, node) :: rest => zonesOfEntry name entryName node ++ zonesOf name rest

end

/-- The name of an entry of a directory. -/
structure ProperName (name : CStr) : Prop where
  nonempty : name ≠ []
  noSlash : 47 ∉ name
  noDots : ¬ (name = cstr "." ∨ name = cstr "..")

instance (name : CStr) : Decidable (ProperName name) :=
  decidable_of_iff (name ≠ [] ∧ 47 ∉ name ∧ ¬ (name = cstr "." ∨ name = cstr ".."))
    ⟨fun h => ⟨h.1, h.2.1, h.2.2⟩, fun h => ⟨h.nonempty, h.noSlash, h.noDots⟩⟩

mutual

def EntryFits (name entryName : CStr) : Node → Prop
  | .directory entries =>
    ProperName entryName ∧ (joinPath name entryName).length < 1023 ∧
      EntriesFit (joinPath name entryName) entries
  | _ => ProperName entryName ∧ (joinPath name entryName).length < 99

/-- The names are proper and the paths fit the buffers. -/
def EntriesFit (name : CStr) : Entries → Prop
  | [] => True
  | (entryName, node) :: rest => EntryFits name entryName node ∧ EntriesFit name rest

end

section Walks

theorem snprintf_of_lt {size : ℕ} {s : CStr} (h : s.length < size) : snprintf size s = s :=
  List.take_of_length_le (Nat.le_sub_one_of_lt h)

theorem printPath_of_lt {size : ℕ} {text : CStr} (h : text.length < size - 1) :
    Id.run (unbounded.printPath size text) = text := snprintf_of_lt h

theorem visitFile_of_lt {name entryName : CStr} (db : ZoneDb)
    (h : (joinPath name entryName).length < localDirSize - 1) :
    Id.run (unbounded.visitFile name entryName db) =
      addInfoToCmdOptions db (eraseAll basePath 0 (joinPath name entryName)) := by
  have hlocalDir : Id.run (unbounded.printPath localDirSize (joinPath name entryName)) =
      joinPath name entryName := printPath_of_lt h
  rw [← removeBasePath_eq_eraseAll]
  exact congrArg (fun path => addInfoToCmdOptions db (removeBasePath path)) hlocalDir

/-- The shell adds the zones of the tree in order. -/
theorem findPosixTimezones_eq_foldl (name : CStr) (entries : Entries) (db : ZoneDb)
    (h : EntriesFit name entries) :
    findPosixTimezonesAndAddToList name entries db =
      ((zonesOf name entries).map Zone.name).foldl addInfoToCmdOptions db := by
  induction name, entries, db using findPosixTimezonesAndAddToList.induct
    (motive_1 := fun name entryName node db => EntryFits name entryName node →
      visitEntry name entryName node db =
        ((zonesOfEntry name entryName node).map Zone.name).foldl addInfoToCmdOptions db) with
  | case1 name entryName entries db hdots hfits =>
    rw [EntryFits] at hfits
    exact absurd hdots hfits.1.noDots
  | case2 name entryName entries db path hdots ih hfits =>
    rw [EntryFits] at hfits
    obtain ⟨_, hlength, hentries⟩ := hfits
    have hpath : path = joinPath name entryName := printPath_of_lt hlength
    have hwalk := ih (hpath ▸ hentries)
    rw [hpath] at hwalk
    rw [visitEntry, if_neg hdots, zonesOfEntry, printPath_of_lt hlength]
    exact hwalk
  | case3 node name entryName db hnode hfits =>
    cases node with
    | directory entries => exact (hnode entries rfl).elim
    | _ =>
      obtain ⟨_, hlength⟩ : ProperName entryName ∧ (joinPath name entryName).length < 99 := by
        simpa [EntryFits] using hfits
      simp [visitEntry, zonesOfEntry, visitFile_of_lt db hlength]
  | case4 name db => rw [findPosixTimezonesAndAddToList, zonesOf]; rfl
  | case5 name entryName node rest db ihEntry ihRest =>
    rw [EntriesFit] at h
    rw [findPosixTimezonesAndAddToList, zonesOf, ihRest h.2, ihEntry h.1, List.map_append,
      List.foldl_append]

/-- Two spellings of one directory. -/
def SameDirectory (name root : CStr) : Prop := ∀ entry, joinPath name entry = pyJoin root entry

theorem sameDirectory_zoneinfo : SameDirectory zoneinfoDir basePath := by
  intro entry
  have hlast : basePath.getLast? = some 47 := by decide
  have hbase : basePath = zoneinfoDir ++ [47] := by decide
  rw [pyJoin, if_pos hlast, hbase, joinPath, List.append_assoc, List.singleton_append]

theorem SameDirectory.enter {name root entry : CStr} (h : SameDirectory name root)
    (hproper : ProperName entry) : SameDirectory (joinPath name entry) (pyJoin root entry) := by
  intro inner
  rw [← h entry, pyJoin, if_neg]
  intro hlast
  apply hproper.noSlash
  obtain ⟨c, rest, rfl⟩ := List.exists_cons_of_ne_nil hproper.nonempty
  rw [joinPath, List.getLast?_append, List.getLast?_cons_cons,
    List.getLast?_eq_some_getLast (List.cons_ne_nil c rest), Option.some_or] at hlast
  rw [← Option.some.inj hlast]
  exact List.getLast_mem _

/-- What the validator collects below a directory, apart from its own files. -/
def zonesWalked (walked : List (CStr × List CStr)) : List CStr :=
  walked.flatMap fun d => d.2.map fun filename => eraseAll basePath 0 (pyJoin d.1 filename)

theorem mem_filenames_cons (e : CStr × Node) (entries : Entries) (filename : CStr) :
    filename ∈ filenames (e :: entries) ↔
      e.2.isDir = false ∧ filename = e.1 ∨ filename ∈ filenames entries := by
  unfold filenames
  cases h : e.2.isDir <;> simp [h]

theorem mem_zonesWalked_cons (root timezone : CStr) (files : List CStr)
    (walked : List (CStr × List CStr)) :
    timezone ∈ zonesWalked ((root, files) :: walked) ↔
      (∃ filename ∈ files, timezone = eraseAll basePath 0 (pyJoin root filename)) ∨
        timezone ∈ zonesWalked walked := by
  unfold zonesWalked
  simp [eq_comm]

theorem mem_zonesWalked_append (timezone : CStr) (walked walked' : List (CStr × List CStr)) :
    timezone ∈ zonesWalked (walked ++ walked') ↔
      timezone ∈ zonesWalked walked ∨ timezone ∈ zonesWalked walked' := by
  unfold zonesWalked
  rw [List.flatMap_append, List.mem_append]

/-- An entry that is no directory adds its own path, to the validator's list only
if it is no link to one. -/
theorem mem_zonesOf_leaf {name root entryName timezone : CStr} {node : Node} {rest : Entries}
    (hdir : SameDirectory name root) (hnode : node.isDtDir = false)
    (hrest : (timezone ∈ zonesWalked (walkDirectories root rest) ∨
      ∃ filename ∈ filenames rest, timezone = eraseAll basePath 0 (pyJoin root filename)) ↔
        ⟨timezone, false⟩ ∈ zonesOf name rest) :
    (timezone ∈ zonesWalked (walkDirectories root rest) ∨
      ∃ filename ∈ filenames ((entryName, node) :: rest),
        timezone = eraseAll basePath 0 (pyJoin root filename)) ↔
        ⟨timezone, false⟩ ∈ zonesOf name ((entryName, node) :: rest) := by
  have hzone : zonesOfEntry name entryName node =
      [⟨eraseAll basePath 0 (joinPath name entryName), node.isDir⟩] := by
    cases node with
    | directory entries => cases hnode
    | _ => simp [zonesOfEntry]
  rw [zonesOf, hzone, List.mem_append, List.mem_singleton, ← hrest, hdir entryName]
  simp only [mem_filenames_cons, Zone.mk.injEq]
  constructor
  · rintro (hwalk | ⟨filename, ⟨hfile, rfl⟩ | hlater, rfl⟩)
    · exact .inr (.inl hwalk)
    · exact .inl ⟨rfl, hfile.symm⟩
    · exact .inr (.inr ⟨filename, hlater, rfl⟩)
  · rintro (⟨rfl, hfile⟩ | hwalk | ⟨filename, hlater, rfl⟩)
    · exact .inr ⟨entryName, .inl ⟨hfile.symm, rfl⟩, rfl⟩
    · exact .inl hwalk
    · exact .inr ⟨filename, .inr hlater, rfl⟩

theorem mem_walkDirectories_iff (timezone root : CStr) (entries : Entries) :
    ∀ name, SameDirectory name root → EntriesFit name entries →
      ((timezone ∈ zonesWalked (walkDirectories root entries) ∨
        ∃ filename ∈ filenames entries, timezone = eraseAll basePath 0 (pyJoin root filename)) ↔
          ⟨timezone, false⟩ ∈ zonesOf name entries) := by
  induction root, entries using walkDirectories.induct with
  | case1 root =>
    intro name _ _
    simp [walkDirectories, zonesWalked, filenames, zonesOf]
  | case2 root entryName inner rest ihInner ihRest =>
    intro name hdir hfits
    rw [EntriesFit, EntryFits] at hfits
    obtain ⟨⟨hproper, _, hinner⟩, hrest⟩ := hfits
    have hin := ihInner (joinPath name entryName) (hdir.enter hproper) hinner
    have hfiles : filenames ((entryName, Node.directory inner) :: rest) = filenames rest := rfl
    rw [walkDirectories, zonesOf, zonesOfEntry, List.mem_append, ← hin, ← ihRest name hdir hrest,
      mem_zonesWalked_cons, mem_zonesWalked_append, hfiles]
    constructor
    · rintro ((hfile | hwalk | hwalk) | hfile)
      · exact .inl (.inr hfile)
      · exact .inl (.inl hwalk)
      · exact .inr (.inl hwalk)
      · exact .inr (.inr hfile)
    · rintro ((hwalk | hfile) | hwalk | hfile)
      · exact .inl (.inr (.inl hwalk))
      · exact .inl (.inl hfile)
      · exact .inl (.inr (.inr hwalk))
      · exact .inr hfile
  | case3 root entryName rest ihRest =>
    intro name hdir hfits
    rw [EntriesFit] at hfits
    rw [walkDirectories]
    exact mem_zonesOf_leaf hdir rfl (ihRest name hdir hfits.2)
  | case4 root entryName target rest ihRest =>
    intro name hdir hfits
    rw [EntriesFit] at hfits
    rw [walkDirectories]
    exact mem_zonesOf_leaf hdir rfl (ihRest name hdir hfits.2)

/-- The validator collects the same zones but for the links to directories. -/
theorem mem_buildTimezoneDb_iff {entries : Entries} (h : EntriesFit zoneinfoDir entries)
    (timezone : CStr) :
    timezone ∈ buildTimezoneDb entries ↔ ⟨timezone, false⟩ ∈ zonesOf zoneinfoDir entries := by
  rw [← mem_walkDirectories_iff timezone basePath entries zoneinfoDir sameDirectory_zoneinfo h,
    Or.comm]
  exact mem_zonesWalked_cons basePath timezone (filenames entries) _

end Walks

section Agreement

variable {entries : Entries} {cmd help : CStr}

/-- The shell can store the zone: some command word leads to it. -/
def CliStores (db : ZoneDb) (timezone : CStr) : Prop :=
  ∃ timezoneCmd i, translateCmdToFilepath db timezoneCmd = some i ∧
    db.listOfZonesCaps[i]? = some timezone

/-- Both interfaces accept the same zones. -/
def SameZones (entries : Entries) (cmd help : CStr) : Prop :=
  ∀ timezone, CliStores (zoneDb entries cmd help) timezone ↔
    checkValidTimezone entries timezone = true

/-- The first zone with the letters of a given one is spelled like some zone that
is no link to a directory, and every zone that is none is spelled like the first
with its letters. -/
def SpelledAlike (zones : List Zone) : Prop :=
  ∀ zone ∈ zones, ∀ first, zones.find? (fun z => tolower z.name = tolower zone.name) = some first →
    (∃ z ∈ zones, z.name = first.name ∧ z.directoryLink = false) ∧
      (zone.directoryLink = false → zone.name = first.name)

/-- A name can be stored if it is the first of those with its letters. -/
theorem cliStores_iff (h : EntriesFit zoneinfoDir entries) (timezone : CStr) :
    CliStores (zoneDb entries cmd help) timezone ↔
      ∃ z, (zonesOf zoneinfoDir entries).find? (fun z => tolower z.name = tolower timezone) =
        some z ∧ z.name = timezone := by
  have hdb : zoneDb entries cmd help =
      ((zonesOf zoneinfoDir entries).map Zone.name).foldl addInfoToCmdOptions (.empty cmd help) :=
    findPosixTimezones_eq_foldl zoneinfoDir entries (.empty cmd help) h
  have hpaired : (zoneDb entries cmd help).Paired := by
    rw [hdb]
    exact paired_foldl_addInfo (paired_empty cmd help)
  have hzoneOf : ∀ timezoneCmd, zoneOf (zoneDb entries cmd help) timezoneCmd =
      ((zonesOf zoneinfoDir entries).find? (fun z => tolower z.name = timezoneCmd)).map
        Zone.name := by
    intro timezoneCmd
    rw [hdb, zoneOf_built, List.find?_map]
    rfl
  constructor
  · rintro ⟨timezoneCmd, i, hi, hcaps⟩
    have hfound : zoneOf (zoneDb entries cmd help) timezoneCmd = some timezone := by
      rw [zoneOf_eq_bind hpaired, hi]
      exact hcaps
    rw [hzoneOf] at hfound
    obtain ⟨z, hz, hname⟩ := Option.map_eq_some_iff.mp hfound
    have hcmd : tolower z.name = timezoneCmd := by simpa using List.find?_some hz
    rw [← hname, hcmd]
    exact ⟨z, hz, rfl⟩
  · rintro ⟨z, hz, hname⟩
    have hfound : zoneOf (zoneDb entries cmd help) (tolower timezone) = some timezone := by
      rw [hzoneOf, hz, Option.map_some, hname]
    rw [zoneOf_eq_bind hpaired] at hfound
    obtain ⟨i, hi, hcaps⟩ := Option.bind_eq_some_iff.mp hfound
    exact ⟨tolower timezone, i, hi, hcaps⟩

theorem checkValidTimezone_iff (h : EntriesFit zoneinfoDir entries) (timezone : CStr) :
    checkValidTimezone entries timezone = true ↔
      ⟨timezone, false⟩ ∈ zonesOf zoneinfoDir entries := by
  rw [← mem_buildTimezoneDb_iff h, checkValidTimezone, List.contains_iff_mem]

/-- For every tree within the sizes, with every mixture of links and of case. -/
theorem sameZones_iff (h : EntriesFit zoneinfoDir entries) :
    SameZones entries cmd help ↔ SpelledAlike (zonesOf zoneinfoDir entries) := by
  unfold SameZones SpelledAlike
  simp only [cliStores_iff h, checkValidTimezone_iff h]
  constructor
  · intro hsame zone hzone first hfirst
    have hletters : tolower first.name = tolower zone.name := by simpa using List.find?_some hfirst
    have hrest : ⟨first.name, false⟩ ∈ zonesOf zoneinfoDir entries := by
      apply (hsame first.name).mp
      rw [hletters]
      exact ⟨first, hfirst, rfl⟩
    refine ⟨⟨_, hrest, rfl, rfl⟩, fun hlink => ?_⟩
    have hzone' : (⟨zone.name, false⟩ : Zone) ∈ zonesOf zoneinfoDir entries := hlink ▸ hzone
    obtain ⟨z, hz, hname⟩ := (hsame zone.name).mpr hzone'
    have hfirst' : first = z := Option.some.inj (hfirst.symm.trans hz)
    rw [hfirst', hname]
  · intro halike timezone
    constructor
    · rintro ⟨first, hfirst, rfl⟩
      obtain ⟨⟨z, hz, hname, hlink⟩, _⟩ :=
        halike first (List.mem_of_find?_eq_some hfirst) first hfirst
      rw [← hname, ← hlink]
      exact hz
    · intro hzone
      obtain ⟨first, hfirst⟩ : ∃ first, (zonesOf zoneinfoDir entries).find?
          (fun z => tolower z.name = tolower timezone) = some first := by
        rw [← Option.isSome_iff_exists, List.find?_isSome]
        exact ⟨_, hzone, by simp⟩
      exact ⟨first, hfirst, ((halike _ hzone first hfirst).2 rfl).symm⟩

/-- No links to directories and no names that differ only in case. -/
theorem spelledAlike_of_nodup {zones : List Zone}
    (hdistinct : (zones.map (fun z => tolower z.name)).Nodup)
    (hlinks : ∀ z ∈ zones, z.directoryLink = false) : SpelledAlike zones := by
  intro zone hzone first hfirst
  rw [find?_of_nodup (fun z : Zone => tolower z.name) hdistinct hzone] at hfirst
  cases hfirst
  exact ⟨⟨zone, hzone, rfl, hlinks zone hzone⟩, fun _ => rfl⟩

def posixSample : Entries :=
  [(cstr "UTC", .file), (cstr "US", .directory [(cstr "Pacific", .link .file)])]

theorem sameZones_posixSample : SameZones posixSample [] [] :=
  (sameZones_iff (by
    refine ⟨⟨?_, ?_⟩, ⟨?_, ?_, ⟨?_, ?_⟩, trivial⟩, trivial⟩ <;> decide)).mpr
    (spelledAlike_of_nodup (by decide) (by decide))

/-- A link to a directory is a zone of the shell only. -/
theorem not_sameZones_directoryLink :
    ¬ SameZones [(cstr "Pacific", .link .directory)] [] [] := by
  have hfits : EntriesFit zoneinfoDir [(cstr "Pacific", .link .directory)] := by
    refine ⟨⟨?_, ?_⟩, trivial⟩ <;> decide
  intro hsame
  have hstored : CliStores (zoneDb [(cstr "Pacific", .link .directory)] [] []) (cstr "Pacific") :=
    (cliStores_iff hfits _).mpr ⟨⟨cstr "Pacific", true⟩, by decide, rfl⟩
  have haccepted := (checkValidTimezone_iff hfits _).mp ((hsame _).mp hstored)
  revert haccepted
  decide

/-- Of two names that differ only in case the shell reaches the first. -/
theorem not_sameZones_case :
    ¬ SameZones [(cstr "EST", .file), (cstr "est", .file)] [] [] := by
  have hfits : EntriesFit zoneinfoDir [(cstr "EST", .file), (cstr "est", .file)] := by
    refine ⟨⟨?_, ?_⟩, ⟨?_, ?_⟩, trivial⟩ <;> decide
  intro hsame
  have hstored := (hsame (cstr "est")).mpr ((checkValidTimezone_iff hfits _).mpr (by decide))
  obtain ⟨z, hz, hname⟩ := (cliStores_iff hfits _).mp hstored
  have hfirst : (zonesOf zoneinfoDir [(cstr "EST", .file), (cstr "est", .file)]).find?
      (fun z => tolower z.name = tolower (cstr "est")) = some ⟨cstr "EST", false⟩ := by decide
  rw [hfirst] at hz
  cases hz
  revert hname
  decide

theorem not_sameZones_samples :
    ¬ SameZones [(cstr "Pacific", .link .directory)] [] [] ∧
      ¬ SameZones [(cstr "EST", .file), (cstr "est", .file)] [] [] :=
  ⟨not_sameZones_directoryLink, not_sameZones_case⟩

end Agreement

end OpsSysd.Timezone
