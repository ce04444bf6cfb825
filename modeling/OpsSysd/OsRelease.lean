import OpsSysd.ConfigureRows

/-!
The scan of the os-release file with its buffers. A line is cut at its first
equals sign and its value at its last character that is no white space; a
value goes through a buffer of eighty bytes, and so does the version text. What
is written depends on the last values of two names only.
-/

namespace OpsSysd.SoftwareInfo

open CString Ovsdb Ovsrec InitialConfigure

/-- `strchr(s, c) - s`. -/
def strchr (s : CStr) (c : UInt8) : Option ℕ := s.findIdx? (fun b => b = c)

/-- Where the loop over `i` puts the terminator; `n` is `i + 1`. -/
def trimmedLength (value : CStr) : ℕ → ℕ
  | 0 => 0
  | n + 1 => if isspace (value.getD n 0) then trimmedLength value n else n + 1

/-- The local variables of the scan. -/
structure Scan where
  smap : Smap
  versionId : CharArray nstr
  buildId : CharArray nstr

/-- `strncpy(a, value, NSTR - 1)` and the terminator in the last byte. -/
def copyValue (a : CharArray nstr) (value : CStr) : CharArray nstr :=
  (a.store (strncpyBytes value (nstr - 1))).set (nstr - 1) 0

/-- The body of the loop over the lines. -/
def readLine (osNameKey : CStr) (r : Scan) (line : CStr) : Scan :=
  match strchr line 61 with
  | none => r
  | some eq =>
    let name := line.take eq
    let value := line.drop (eq + 1)
    let value := value.take (trimmedLength value value.length)
    if name = osReleaseName ∧ value ≠ [] then { r with smap := smapAdd r.smap osNameKey value }
    else if name = osReleaseVersionName then { r with versionId := copyValue r.versionId value }
    else if name = osReleaseBuildName then { r with buildId := copyValue r.buildId value }
    else r

/-- `stack` is what the buffers hold before their first bytes are cleared. -/
def readLines (osNameKey : CStr) (stack : CharArray nstr × CharArray nstr) (lines : List CStr) :
    Scan :=
  lines.foldl (readLine osNameKey) ⟨[], stack.1.set 0 0, stack.2.set 0 0⟩

/-- `sysd_update_sw_info` for the content of the file, if it can be opened. -/
def updateSwInfo (osNameKey : CStr) (stack : CharArray nstr × CharArray nstr)
    (file : Option (List CStr)) (cfg : Uuid) : OvsM Unit :=
  match file with
  | none => pure ()
  | some lines => do
    let r := readLines osNameKey stack lines
    (if r.smap ≠ [] then setCol cfg .systemSoftwareInfo (datumFromSmap r.smap) else pure ())
    (if r.buildId.str ≠ [] ∧ r.versionId.str ≠ [] then
      setCol cfg .systemSwitchVersion
        ((r.versionId.str ++ cstr " (Build: " ++ r.buildId.str ++ cstr ")").take (nstr - 1))
    else pure ())

section Tokens

theorem trimmedLength_append (value rest : CStr) {n : ℕ} (h : n ≤ value.length) :
    trimmedLength (value ++ rest) n = trimmedLength value n := by
  induction n with
  | zero => rfl
  | succ n ih =>
    have hget : (value ++ rest).getD n 0 = value.getD n 0 := by
      simp [List.getD_eq_getElem?_getD, List.getElem?_append_left h]
    rw [trimmedLength, trimmedLength, hget, ih (by omega)]

/-- The loop removes the trailing white space, all of a blank value. -/
theorem take_trimmedLength (value : CStr) :
    value.take (trimmedLength value value.length) = value.rdropWhile isspace := by
  induction value using List.reverseRecOn with
  | nil => rfl
  | append_singleton value b ih =>
    have hget : (value ++ [b]).getD value.length 0 = b := by simp [List.getD_eq_getElem?_getD]
    have hle : trimmedLength value value.length ≤ value.length := by
      have hbound : ∀ n, trimmedLength value n ≤ n := by
        intro n
        induction n with
        | zero => exact le_refl 0
        | succ n ih =>
          rw [trimmedLength]
          split_ifs <;> omega
      exact hbound _
    rw [List.length_append, List.length_singleton, trimmedLength, hget, List.rdropWhile_concat]
    split_ifs with hb
    · rw [trimmedLength_append value [b] (le_refl _), List.take_append_of_le_length hle, ih]
    · rw [List.take_of_length_le (by simp)]

theorem strchr_cons (b c : UInt8) (s : CStr) :
    strchr (b :: s) c = if b = c then some 0 else (strchr s c).map (· + 1) := by
  unfold strchr
  rw [List.findIdx?_cons]
  simp

/-- The name and the value of a line, cut at the equals sign. -/
theorem splitLine_eq (line : CStr) :
    splitLine line = (strchr line 61).map fun eq =>
      (line.take eq, (line.drop (eq + 1)).rdropWhile isspace) := by
  have hsplit : ∀ s : CStr, (strchr s 61 = none ∧ 61 ∉ s) ∨ ∃ eq, strchr s 61 = some eq ∧
      61 ∈ s ∧ s.take eq = s.takeWhile (· ≠ 61) ∧
        s.drop (eq + 1) = (s.dropWhile (· ≠ 61)).drop 1 := by
    intro s
    induction s with
    | nil => exact .inl ⟨rfl, by simp⟩
    | cons b s ih =>
      rw [strchr_cons]
      by_cases hb : b = 61
      · rw [if_pos hb]
        exact .inr ⟨0, rfl, by simp [hb]⟩
      · rw [if_neg hb]
        rcases ih with ⟨hnone, hmem⟩ | ⟨eq, heq, hmem, htake, hdrop⟩
        · exact .inl ⟨by rw [hnone]; rfl, by simp [hmem, Ne.symm hb]⟩
        · refine .inr ⟨eq + 1, by rw [heq]; rfl, by simp [hmem], ?_, ?_⟩
          · simpa [hb] using htake
          · simpa [hb] using hdrop
  unfold splitLine
  rcases hsplit line with ⟨hnone, hmem⟩ | ⟨eq, heq, hmem, htake, hdrop⟩
  · rw [if_neg hmem, hnone]
    rfl
  · rw [if_pos hmem, heq, Option.map_some, htake, hdrop]

end Tokens

section Buffers

variable {osNameKey : CStr}

/-- A buffer reads as the start of the value, whatever it held before. -/
theorem str_copyValue (a : CharArray nstr) {value : CStr} (h : 0 ∉ value) :
    (copyValue a value).str = value.take (nstr - 1) := by
  have hlength : (strncpyBytes value (nstr - 1)).length = nstr - 1 := strncpyBytes_length _ _
  have hdrop : (a.bytes.drop (nstr - 1)).length = 1 := by
    rw [List.length_drop, a.size_eq]
    rfl
  obtain ⟨b, hb⟩ := List.length_eq_one_iff.mp hdrop
  have hbytes : (copyValue a value).bytes = copyString value (nstr - 1) := by
    show (a.store (strncpyBytes value (nstr - 1))).bytes.set (nstr - 1) 0 = _
    rw [CharArray.store_bytes_of_le _ (by rw [hlength]; decide), hlength, hb,
      List.set_append_right _ _ (by rw [hlength]), hlength]
    rfl
  rw [CharArray.str, hbytes, ← List.append_nil (copyString _ _), cut_copyString,
    cut_of_nulFree (fun hmem => h (List.mem_of_mem_take hmem))]

/-- The buffers read as what the scan of the values has found. -/
structure Scan.Reads (r : Scan) (q : Release) : Prop where
  smap : r.smap = q.smap
  versionId : r.versionId.str = q.versionId
  buildId : r.buildId.str = q.buildId

theorem Scan.Reads.readLine {r : Scan} {q : Release} (h : r.Reads q) {line : CStr}
    (hnul : 0 ∉ line) : (readLine osNameKey r line).Reads (scanLine osNameKey q line) := by
  unfold SoftwareInfo.readLine scanLine
  rw [splitLine_eq]
  cases strchr line 61 with
  | none => exact h
  | some eq =>
    simp only [Option.map_some, take_trimmedLength]
    have hvalue : 0 ∉ (line.drop (eq + 1)).rdropWhile isspace := fun hmem =>
      hnul (List.mem_of_mem_drop ((List.rdropWhile_prefix _ _).subset hmem))
    split_ifs
    · exact ⟨by rw [h.smap], h.versionId, h.buildId⟩
    · exact ⟨h.smap, str_copyValue _ hvalue, h.buildId⟩
    · exact ⟨h.smap, h.versionId, str_copyValue _ hvalue⟩
    · exact h

theorem str_set_zero (a : CharArray nstr) : (a.set 0 0).str = [] := by
  have hlength := a.size_eq
  obtain ⟨b, rest, hb⟩ : ∃ b rest, a.bytes = b :: rest :=
    List.exists_cons_of_length_pos (by rw [hlength]; decide)
  simp [CharArray.str, CharArray.set, hb, cut]

theorem reads_readLines (stack : CharArray nstr × CharArray nstr) {lines : List CStr}
    (hnul : ∀ line ∈ lines, 0 ∉ line) :
    (readLines osNameKey stack lines).Reads (scan osNameKey lines) := by
  have hloop : ∀ (r : Scan) (q : Release), r.Reads q →
      (lines.foldl (readLine osNameKey) r).Reads (lines.foldl (scanLine osNameKey) q) := by
    induction lines with
    | nil => exact fun r q h => h
    | cons line rest ih =>
      intro r q h
      exact ih (fun l hl => hnul l (by simp [hl])) _ _ (h.readLine (hnul line (by simp)))
  exact hloop _ _ ⟨rfl, str_set_zero _, str_set_zero _⟩

/-- With its buffers the function writes what the scan of the values writes. -/
theorem updateSwInfo_eq (stack : CharArray nstr × CharArray nstr) {file : Option (List CStr)}
    (hnul : ∀ lines, file = some lines → ∀ line ∈ lines, 0 ∉ line) (cfg : Uuid) :
    updateSwInfo osNameKey stack file cfg = sysdUpdateSwInfo osNameKey file cfg := by
  cases file with
  | none => rfl
  | some lines =>
    have h : (readLines osNameKey stack lines).Reads (scan osNameKey lines) :=
      reads_readLines stack (hnul lines rfl)
    simp only [updateSwInfo, sysdUpdateSwInfo, Release.softwareInfo, Release.switchVersion, h.smap,
      h.versionId, h.buildId]
    congr 1
    · by_cases hsmap : (scan osNameKey lines).smap = []
      · rw [if_neg (not_not_intro hsmap), if_pos hsmap]
        rfl
      · rw [if_pos hsmap, if_neg hsmap]
        rfl
    · funext _
      split_ifs <;> rfl

end Buffers

section LastValues

variable {osNameKey : CStr}

/-- The value of the last line with the name. -/
def lastValue (name : CStr) (lines : List CStr) : Option CStr :=
  ((lines.filterMap splitLine).filter (fun p => p.1 = name)).getLast?.map Prod.snd

/-- The version text, if the file has both of its parts. -/
def versionText (lines : List CStr) : Option CStr :=
  match lastValue osReleaseVersionName lines, lastValue osReleaseBuildName lines with
  | some version, some build =>
    if version ≠ [] ∧ build ≠ [] then
      some ((version ++ cstr " (Build: " ++ build ++ cstr ")").take 79)
    else none
  | _, _ => none

theorem lastValue_append (name : CStr) (before later : List CStr) :
    lastValue name (before ++ later) = (lastValue name later).or (lastValue name before) := by
  unfold lastValue
  rw [List.filterMap_append, List.filter_append, List.getLast?_append, Option.map_or]

theorem lastValue_singleton (name line : CStr) :
    lastValue name [line] =
      (splitLine line).bind fun p => if p.1 = name then some p.2 else none := by
  unfold lastValue
  cases hsplit : splitLine line with
  | none => simp [hsplit]
  | some p => by_cases hkey : p.1 = name <;> simp [hsplit, hkey]

/-- The buffers hold the starts of the last values. -/
theorem scan_lastValue (lines : List CStr) :
    (scan osNameKey lines).versionId =
        ((lastValue osReleaseVersionName lines).getD []).take (nstr - 1) ∧
      (scan osNameKey lines).buildId =
        ((lastValue osReleaseBuildName lines).getD []).take (nstr - 1) := by
  have hnames : osReleaseName ≠ osReleaseVersionName ∧ osReleaseName ≠ osReleaseBuildName ∧
      osReleaseVersionName ≠ osReleaseBuildName := by decide
  induction lines using List.reverseRecOn with
  | nil => exact ⟨rfl, rfl⟩
  | append_singleton lines line ih =>
    unfold scan at ih ⊢
    rw [List.foldl_append, List.foldl_cons, List.foldl_nil, scanLine, lastValue_append,
      lastValue_append, lastValue_singleton, lastValue_singleton]
    cases splitLine line with
    | none => exact ih
    | some p =>
      obtain ⟨key, value⟩ := p
      simp only [Option.bind_some]
      by_cases hname : key = osReleaseName ∧ value ≠ []
      · rw [if_pos hname, if_neg (by rw [hname.1]; exact hnames.1),
          if_neg (by rw [hname.1]; exact hnames.2.1)]
        exact ih
      · rw [if_neg hname]
        by_cases hversion : key = osReleaseVersionName
        · rw [if_pos hversion, if_pos hversion, if_neg (by rw [hversion]; exact hnames.2.2)]
          exact ⟨rfl, ih.2⟩
        · rw [if_neg hversion, if_neg hversion]
          by_cases hbuild : key = osReleaseBuildName
          · rw [if_pos hbuild, if_pos hbuild]
            exact ⟨ih.1, rfl⟩
          · rw [if_neg hbuild, if_neg hbuild]
            exact ih

/-- A part that is cut no shorter than the whole does not change the whole. -/
theorem take_take_append {m n : ℕ} (h : m ≤ n) (x y : CStr) :
    (x.take n ++ y).take m = (x ++ y).take m := by
  rw [List.take_append, List.take_append, List.take_take, List.length_take, Nat.min_eq_left h]
  congr 2
  omega

theorem take_format (n : ℕ) (version build mid close : CStr) :
    (version.take n ++ mid ++ build.take n ++ close).take n =
      (version ++ mid ++ build ++ close).take n := by
  have hmid : ∀ k (rest : CStr), (mid ++ rest).take k = mid.take k ++ rest.take (k - mid.length) :=
    fun k rest => List.take_append
  simp only [List.append_assoc]
  rw [take_take_append (le_refl n), List.take_append, hmid, take_take_append (by omega), ← hmid,
    ← List.take_append]

/-- The two cuts, of each part and of the whole, are one. -/
theorem switchVersion_scan (lines : List CStr) :
    (scan osNameKey lines).switchVersion = versionText lines := by
  obtain ⟨hversion, hbuild⟩ := @scan_lastValue osNameKey lines
  have hempty : ∀ value : CStr, value.take (nstr - 1) = [] ↔ value = [] := by
    intro value
    simp [List.take_eq_nil_iff, nstr]
  unfold Release.switchVersion versionText
  rw [hversion, hbuild]
  cases lastValue osReleaseVersionName lines with
  | none => simp
  | some version =>
    cases lastValue osReleaseBuildName lines with
    | none => simp
    | some build =>
      simp only [Option.getD_some, ne_eq, hempty, and_comm]
      split_ifs
      · rw [take_format]
        rfl
      · rfl

/-- A line that says nothing of either name, or nothing that a later line does not
say again. -/
def Irrelevant (line : CStr) (later : List CStr) : Prop :=
  ∀ key value, splitLine line = some (key, value) →
    key ≠ osReleaseVersionName ∧ key ≠ osReleaseBuildName ∨ (lastValue key later).isSome = true

theorem versionText_irrelevant {before later : List CStr} {line : CStr}
    (h : Irrelevant line later) :
    versionText (before ++ line :: later) = versionText (before ++ later) := by
  have hlast : ∀ name ∈ [osReleaseVersionName, osReleaseBuildName],
      lastValue name (before ++ line :: later) = lastValue name (before ++ later) := by
    intro name hname
    rw [lastValue_append, lastValue_append, ← List.singleton_append, lastValue_append name [line]]
    have hone : lastValue name [line] = none ∨ (lastValue name later).isSome = true := by
      rw [lastValue_singleton]
      cases hsplit : splitLine line with
      | none => exact .inl rfl
      | some p =>
        obtain ⟨key, value⟩ := p
        by_cases hkey : key = name
        · subst hkey
          rcases h key value hsplit with hother | hlater
          · simp only [List.mem_cons, List.not_mem_nil, or_false] at hname
            exact absurd hname (not_or.mpr hother)
          · exact .inr hlater
        · exact .inl (by rw [Option.bind_some, if_neg hkey])
    rcases hone with hnone | hsome
    · rw [hnone, Option.or_none]
    · obtain ⟨value, hvalue⟩ := Option.isSome_iff_exists.mp hsome
      rw [hvalue]
      rfl
  unfold versionText
  rw [hlast _ (by simp), hlast _ (by simp)]

end LastValues

/-- What the function does with a file: it writes the version text of the last
values, or no version at all, and other lines do not count. -/
structure FollowsLastValues (osNameKey : CStr) (stack : CharArray nstr × CharArray nstr)
    (lines : List CStr) : Prop where
  writes : ∀ cfg, updateSwInfo osNameKey stack (some lines) cfg = (do
    setColOpt cfg .systemSoftwareInfo (scan osNameKey lines).softwareInfo
    setColOpt cfg .systemSwitchVersion (versionText lines))
  stored : ∀ (C : Cells schema) cfg, cfg ∈ C.rows Table.system →
    Always C (updateSwInfo osNameKey stack (some lines) cfg) (fun _ C' =>
      C'.value cfg Column.systemSwitchVersion =
        (versionText lines).getD (C.value cfg Column.systemSwitchVersion))
  others : ∀ before line later, lines = before ++ line :: later → Irrelevant line later →
    versionText lines = versionText (before ++ later)

/-- For every file without NUL bytes, whatever the buffers held. -/
theorem followsLastValues (osNameKey : CStr) (stack : CharArray nstr × CharArray nstr)
    {lines : List CStr} (hnul : ∀ line ∈ lines, 0 ∉ line) :
    FollowsLastValues osNameKey stack lines := by
  have heq : ∀ cfg, updateSwInfo osNameKey stack (some lines) cfg = (do
      setColOpt cfg .systemSoftwareInfo (scan osNameKey lines).softwareInfo
      setColOpt cfg .systemSwitchVersion (versionText lines)) := by
    intro cfg
    rw [updateSwInfo_eq stack (fun l hl => Option.some.inj hl ▸ hnul) cfg, ← switchVersion_scan]
    rfl
  refine ⟨heq, fun C cfg hcfg => ?_, ?_⟩
  · rw [heq]
    refine (always_setColOpt _ hcfg).seq (fun _ C₁ h₁ => ?_)
    have hsame := h₁.value _ _ hcfg Column.systemSwitchVersion (by decide)
    cases versionText lines with
    | none => exact .pure hsame
    | some text => exact always_setCol (h₁.kept _ _ hcfg) Cells.write_value
  · rintro before line later rfl hline
    exact versionText_irrelevant hline

theorem followsLastValues_blank : FollowsLastValues (cstr "os_name") (.zero _, .zero _)
    [cstr "VERSION_ID= \t\n", cstr "BUILD_ID=x\n", cstr "VERSION_ID=1.0=2 \n", cstr "NAME"] :=
  followsLastValues _ _ (by decide)

end OpsSysd.SoftwareInfo
