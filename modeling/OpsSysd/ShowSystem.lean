import OpsSysd.Datum
import OpsSysd.Platform

/-!
The command that shows the system. The arrays of fans and of power supplies are
allocated with the number of references of the first subsystem and filled from
the whole table, and what is printed afterwards is the array. The listing is
that of the tables if and only if the numbers agree.
-/

namespace OpsSysd.ShowSystem

open CString Ovsrec Platform

structure System where
  switchVersion : Option CStr

/-- A Subsystem row, with the numbers of its references. -/
structure Subsystem where
  otherInfo : Smap
  nFans : ℕ
  nLeds : ℕ
  nPowerSupplies : ℕ
  nTempSensors : ℕ

structure Fan where
  name : CStr
  speed : Option CStr
  status : Option CStr
  deriving DecidableEq

structure Led where
  id : CStr
  state : Option CStr
  status : Option CStr

structure PowerSupply where
  name : CStr
  status : Option CStr
  deriving DecidableEq

structure TempSensor where
  location : Option CStr
  name : CStr
  temperature : ℤ

structure Db where
  systems : List System
  subsystems : List Subsystem
  fans : List Fan
  leds : List Led
  powerSupplies : List PowerSupply
  tempSensors : List TempSensor

/-- A status in the database with the text that is shown for it. -/
structure StatusText where
  status : CStr
  text : CStr

/-- The states of a power supply, and how the terminal ends a line. -/
structure External where
  faultAbsent : StatusText
  faultInput : StatusText
  faultOutput : StatusText
  unknown : StatusText
  ok : StatusText
  newline : CStr

inductive Fault
  | nullDeref
  | outOfBounds
  deriving DecidableEq

/-- What `qsort` promises for elements that are compared by a key: those with equal keys
may come in any order. -/
structure SortBy {α : Type} (key : α → CStr) where
  sort : List α → List α
  perm : ∀ rows, (sort rows).Perm rows
  sorted : ∀ rows, (sort rows).Pairwise (fun a b => key a ≤ key b)

section Table

variable {α : Type} {key : α → CStr}

/-- The loop that copies the rows of a table to the elements from `i` on. -/
def copyRows : ℕ → List α → List (Option α) → Except Fault (List (Option α))
  | _, [], arr => .ok arr
  | i, row :: rest, arr =>
    if i < arr.length then copyRows (i + 1) rest (arr.set i (some row))
    else .error .outOfBounds

/-- Sorting two elements or more compares each of them, a cleared one by a NULL name. -/
def qsort (sort : SortBy key) (arr : List (Option α)) : Except Fault (List (Option α)) :=
  if arr.length < 2 then .ok arr
  else
    match arr.mapM id with
    | none => .error .nullDeref
    | some rows => .ok ((sort.sort rows).map some)

/-- `calloc` for `n` elements, the copies, and the sort. -/
def sortedTable (sort : SortBy key) (n : ℕ) (rows : List α) :
    Except Fault (List (Option α)) := do
  let arr ← copyRows 0 rows (List.replicate n none)
  qsort sort arr

def printSorted (sort : SortBy key) (n : ℕ) (rows : List α) (line : Option α → List CStr) :
    Except Fault (List CStr) := do
  if n ≠ 0 then
    let arr ← sortedTable sort n rows
    return arr.flatMap line
  else return []

end Table

/-- `%-Ns`. -/
def pad (width : ℕ) (s : CStr) : CStr := s ++ List.replicate (width - s.length) 32

def arg (s : Option CStr) : CStr := s.getD (cstr "(null)")

def formatPsuString (ext : External) (status : Option CStr) : Option CStr :=
  status.map fun status =>
    if status = ext.faultAbsent.status then ext.faultAbsent.text
    else if status = ext.faultInput.status then ext.faultInput.text
    else if status = ext.faultOutput.status then ext.faultOutput.text
    else if status = ext.unknown.status then ext.unknown.text
    else if status = ext.ok.status then ext.ok.text
    else status

def infoLine (pSys : Subsystem) (key label : String) (width : ℕ) (ending : CStr) : CStr :=
  pad 20 (cstr label) ++ cstr ": " ++
    pad width ((smapGet pSys.otherInfo (cstr key)).getD (cstr " ")) ++ ending

def formatSysOutput (ext : External) (pSys : Subsystem) (pVswitch : System) : List CStr :=
  let nl := ext.newline
  [pad 20 (cstr "OpenSwitch Version") ++ cstr ": " ++
      pad 30 (pVswitch.switchVersion.getD (cstr " ")) ++ nl,
    infoLine pSys "Product Name" "Product Name" 30 (nl ++ nl),
    infoLine pSys "vendor" "Vendor" 30 nl,
    infoLine pSys "platform_name" "Platform" 30 nl,
    infoLine pSys "manufacturer" "Manufacturer" 20 nl,
    infoLine pSys "manufacture_date" "Manufacturer Date" 20 (nl ++ nl),
    infoLine pSys "serial_number" "Serial Number" 20 [],
    infoLine pSys "label_revision" "Label Revision" 10 (nl ++ nl),
    infoLine pSys "onie_version" "ONIE Version" 20 [],
    infoLine pSys "diag_version" "DIAG Version" 10 nl,
    infoLine pSys "base_mac_address" "Base MAC Address" 20 [],
    infoLine pSys "number_of_macs" "Number of MACs" 5 nl,
    infoLine pSys "interface_count" "Interface Count" 20 [],
    infoLine pSys "max_interface_speed" "Max Interface Speed" 6 (cstr "Mbps" ++ nl)]

def systemPart (ext : External) (db : Db) : List CStr :=
  match db.subsystems.head?, db.systems.head? with
  | some pSys, some pVswitch => formatSysOutput ext pSys pVswitch
  | _, _ => []

def fanHeading (ext : External) : List CStr :=
  [ext.newline ++ cstr "Fan details:" ++ ext.newline ++ ext.newline,
    pad 15 (cstr "Name") ++ pad 10 (cstr "Speed") ++ pad 10 (cstr "Status") ++ ext.newline,
    cstr "--------------------------------" ++ ext.newline]

def fanLine (ext : External) (fan : Option Fan) : List CStr :=
  [pad 15 (arg (fan.map Fan.name)), pad 10 (arg (fan.bind Fan.speed)),
    pad 10 (arg (fan.bind Fan.status)), ext.newline]

def ledLine (ext : External) (led : Led) : List CStr :=
  [pad 10 led.id, pad 10 (arg led.state), pad 8 (arg led.status), ext.newline]

/-- The table of LEDs is printed as it is, if the subsystem refers to any. -/
def ledPart (ext : External) (n : ℕ) (leds : List Led) : List CStr :=
  [ext.newline ++ cstr "LED details:" ++ ext.newline ++ ext.newline,
    pad 10 (cstr "Name") ++ pad 10 (cstr "State") ++ pad 8 (cstr "Status") ++ ext.newline,
    cstr "-------------------------" ++ ext.newline] ++
  if n ≠ 0 then leds.flatMap (ledLine ext) else []

def powerSupplyHeading (ext : External) : List CStr :=
  [ext.newline ++ cstr "Power supply details:" ++ ext.newline ++ ext.newline,
    pad 10 (cstr "Name") ++ pad 10 (cstr "Status") ++ ext.newline,
    cstr "-----------------------" ++ ext.newline]

def powerSupplyLine (ext : External) (psu : Option PowerSupply) : List CStr :=
  [pad 15 (arg (psu.map PowerSupply.name)),
    pad 10 (arg (formatPsuString ext (psu.bind PowerSupply.status))), ext.newline]

/-- `%3.2f` of the quotient of two integers. -/
def celsius (temperature : ℤ) : CStr := decimal (temperature.tdiv 1000) ++ cstr ".00"

def tempSensorLine (ext : External) (sensor : TempSensor) : List CStr :=
  [pad 50 (arg sensor.location), pad 10 sensor.name, celsius sensor.temperature, ext.newline]

def tempSensorHeading (ext : External) (width dashes : ℕ) : List CStr :=
  [pad width (cstr "Location") ++ pad 10 (cstr "Name") ++ pad 18 (cstr "Reading(celsius)") ++
      ext.newline,
    List.replicate dashes 45 ++ ext.newline]

def tempSensorPart (ext : External) (n : ℕ) (sensors : List TempSensor) : List CStr :=
  [ext.newline ++ cstr "Temperature Sensors:" ++ ext.newline ++ ext.newline] ++
  if n ≠ 0 then tempSensorHeading ext 50 75 ++ sensors.flatMap (tempSensorLine ext)
  else tempSensorHeading ext 10 36

def deref {α : Type} : Option α → Except Fault α
  | none => .error .nullDeref
  | some row => .ok row

def cliSystemGetAll (ext : External) (compareFan : SortBy Fan.name)
    (comparePsu : SortBy PowerSupply.name) (db : Db) : Except Fault (List CStr) := do
  let out := systemPart ext db ++ fanHeading ext
  let pSys ← deref db.subsystems.head?
  let fans ← printSorted compareFan pSys.nFans db.fans (fanLine ext)
  let out := out ++ fans ++ ledPart ext pSys.nLeds db.leds ++ powerSupplyHeading ext
  let psus ← printSorted comparePsu pSys.nPowerSupplies db.powerSupplies (powerSupplyLine ext)
  return out ++ psus ++ tempSensorPart ext pSys.nTempSensors db.tempSensors

def references (db : Db) (count : Subsystem → ℕ) : ℕ := (db.subsystems.head?.map count).getD 0

def listing (ext : External) (db : Db) (fans : List Fan) (psus : List PowerSupply) :
    List CStr :=
  systemPart ext db ++ fanHeading ext ++ fans.flatMap (fun fan => fanLine ext (some fan)) ++
    ledPart ext (references db Subsystem.nLeds) db.leds ++ powerSupplyHeading ext ++
    psus.flatMap (fun psu => powerSupplyLine ext (some psu)) ++
    tempSensorPart ext (references db Subsystem.nTempSensors) db.tempSensors

/-- The command ends and lists the rows of both tables, each once, in order of name. -/
def Faithful (ext : External) (compareFan : SortBy Fan.name)
    (comparePsu : SortBy PowerSupply.name) (db : Db) : Prop :=
  ∃ fans psus, cliSystemGetAll ext compareFan comparePsu db = .ok (listing ext db fans psus) ∧
    fans.Perm db.fans ∧ fans.Pairwise (fun a b => a.name ≤ b.name) ∧
    psus.Perm db.powerSupplies ∧ psus.Pairwise (fun a b => a.name ≤ b.name)

section Arrays

variable {α : Type} {key : α → CStr}

theorem copyRows_append (rows : List α) (before after : List (Option α)) :
    copyRows before.length rows (before ++ after) =
      if rows.length ≤ after.length then
        .ok (before ++ (rows.map some ++ after.drop rows.length))
      else .error .outOfBounds := by
  induction rows generalizing before after with
  | nil => simp [copyRows]
  | cons row rest ih =>
    cases after with
    | nil => simp [copyRows]
    | cons e after =>
      have hset : (before ++ e :: after).set before.length (some row) =
          (before ++ [some row]) ++ after := by simp
      have hlength : (before ++ [some row]).length = before.length + 1 := by simp
      rw [copyRows, if_pos (by simp), hset, ← hlength, ih]
      simp

theorem mapM_id_map_some (rows : List α) : (rows.map some).mapM id = some rows := by
  induction rows with
  | nil => rfl
  | cons row rest ih =>
    rw [List.map_cons, List.mapM_cons, ih]
    rfl

theorem mapM_id_replicate (rows : List α) {n : ℕ} (h : n ≠ 0) :
    (rows.map some ++ List.replicate n none).mapM id = none := by
  induction rows with
  | nil =>
    obtain ⟨n, rfl⟩ := Nat.exists_eq_add_one_of_ne_zero h
    rfl
  | cons row rest ih =>
    rw [List.map_cons, List.cons_append, List.mapM_cons, ih]
    rfl

theorem qsort_map_some (sort : SortBy key) (rows : List α) :
    qsort sort (rows.map some) = .ok ((sort.sort rows).map some) := by
  rw [qsort, List.length_map]
  split_ifs with hlength
  · have hsort : sort.sort rows = rows := by
      have hperm := sort.perm rows
      match rows, hlength with
      | [], _ => exact List.perm_nil.mp hperm
      | [row], _ => exact List.perm_singleton.mp hperm
    rw [hsort]
  · rw [mapM_id_map_some]

theorem sortedTable_eq (sort : SortBy key) (n : ℕ) (rows : List α) :
    sortedTable sort n rows =
      if rows.length ≤ n then
        qsort sort (rows.map some ++ List.replicate (n - rows.length) none)
      else .error .outOfBounds := by
  have hcopy := copyRows_append rows [] (List.replicate n (none : Option α))
  rw [List.nil_append, List.nil_append, List.length_replicate, List.drop_replicate] at hcopy
  rw [sortedTable, show (0 : ℕ) = ([] : List (Option α)).length from rfl, hcopy]
  split_ifs <;> rfl

theorem printSorted_length (sort : SortBy key) (rows : List α) (line : Option α → List CStr) :
    printSorted sort rows.length rows line =
      .ok ((sort.sort rows).flatMap (fun row => line (some row))) := by
  rw [printSorted]
  split_ifs with hn
  · rw [sortedTable_eq, if_pos (Nat.le_refl _), Nat.sub_self, List.replicate_zero,
      List.append_nil, qsort_map_some]
    change Except.ok (((sort.sort rows).map some).flatMap line) = _
    rw [List.flatMap_map]
  · have hrows : rows = [] := List.length_eq_zero_iff.mp (not_not.mp hn)
    have hsort : sort.sort rows = [] := List.perm_nil.mp (hrows ▸ sort.perm rows)
    rw [hsort]
    rfl

theorem length_flatMap_line {line : Option α → List CStr} {calls : ℕ}
    (hline : ∀ row, (line row).length = calls) (arr : List (Option α)) :
    (arr.flatMap line).length = calls * arr.length := by
  induction arr with
  | nil => rfl
  | cons row rest ih =>
    rw [List.flatMap_cons, List.length_append, hline, ih, List.length_cons, Nat.mul_succ,
      Nat.add_comm]

theorem sortedTable_ok (sort : SortBy key) {n : ℕ} {rows : List α} {arr : List (Option α)}
    (h : sortedTable sort n rows = .ok arr) :
    arr.length = n ∧ (n = rows.length ∨ n < 2 ∧ rows.length < n) := by
  rw [sortedTable_eq] at h
  split_ifs at h with hfits
  by_cases hfilled : n = rows.length
  · subst hfilled
    rw [Nat.sub_self, List.replicate_zero, List.append_nil, qsort_map_some] at h
    cases h
    rw [List.length_map, (sort.perm rows).length_eq]
    exact ⟨rfl, Or.inl rfl⟩
  · have hcleared : n - rows.length ≠ 0 := by omega
    have hlength : (rows.map some ++ List.replicate (n - rows.length) none).length = n := by
      rw [List.length_append, List.length_map, List.length_replicate]
      omega
    rw [qsort, hlength, mapM_id_replicate rows hcleared] at h
    split_ifs at h with hn
    cases h
    exact ⟨hlength, Or.inr ⟨hn, by omega⟩⟩

/-- An array that is printed has as many elements as the table has rows, or it is empty or
one cleared element. -/
theorem printSorted_ok (sort : SortBy key) {n : ℕ} {rows : List α}
    {line : Option α → List CStr} {calls : ℕ} (hline : ∀ row, (line row).length = calls)
    {out : List CStr} (h : printSorted sort n rows line = .ok out) :
    out.length = calls * n ∧ (n = 0 ∨ n = rows.length ∨ n = 1 ∧ rows.length = 0) := by
  rw [printSorted] at h
  split_ifs at h with hn
  · cases hsorted : sortedTable sort n rows with
    | error fault =>
      rw [hsorted] at h
      cases h
    | ok arr =>
      rw [hsorted] at h
      cases h
      obtain ⟨hlength, hcases⟩ := sortedTable_ok sort hsorted
      rw [length_flatMap_line hline, hlength]
      refine ⟨rfl, ?_⟩
      omega
  · cases h
    rw [not_not.mp hn]
    exact ⟨rfl, Or.inl rfl⟩

end Arrays

section Listing

variable (ext : External) (compareFan : SortBy Fan.name) (comparePsu : SortBy PowerSupply.name)

/-- The numbers agree with the tables. -/
structure Agree (pSys : Subsystem) (db : Db) : Prop where
  fans : pSys.nFans = db.fans.length
  powerSupplies : pSys.nPowerSupplies = db.powerSupplies.length

theorem length_fanLine (fan : Option Fan) : (fanLine ext fan).length = 4 := rfl

theorem length_powerSupplyLine (psu : Option PowerSupply) :
    (powerSupplyLine ext psu).length = 3 := rfl

/-- The output with the calls for the fans and for the power supplies. -/
def shown (db : Db) (pSys : Subsystem) (fans psus : List CStr) : List CStr :=
  systemPart ext db ++ fanHeading ext ++ fans ++ ledPart ext pSys.nLeds db.leds ++
    powerSupplyHeading ext ++ psus ++ tempSensorPart ext pSys.nTempSensors db.tempSensors

theorem length_shown_add {db : Db} {pSys : Subsystem} {fans psus fans' psus' : List CStr}
    (h : shown ext db pSys fans psus = shown ext db pSys fans' psus') :
    fans.length + psus.length = fans'.length + psus'.length := by
  have hlength := congrArg List.length h
  simp only [shown, List.length_append] at hlength
  omega

theorem cliSystemGetAll_some {db : Db} {pSys : Subsystem} (hsys : db.subsystems.head? = some pSys) :
    cliSystemGetAll ext compareFan comparePsu db =
      (printSorted compareFan pSys.nFans db.fans (fanLine ext)).bind fun fans =>
        (printSorted comparePsu pSys.nPowerSupplies db.powerSupplies
          (powerSupplyLine ext)).bind fun psus => .ok (shown ext db pSys fans psus) := by
  rw [cliSystemGetAll, hsys]
  rfl

theorem listing_eq_shown {db : Db} {pSys : Subsystem} (hsys : db.subsystems.head? = some pSys)
    (fans : List Fan) (psus : List PowerSupply) :
    listing ext db fans psus = shown ext db pSys
      (fans.flatMap (fun fan => fanLine ext (some fan)))
      (psus.flatMap (fun psu => powerSupplyLine ext (some psu))) := by
  rw [listing, references, references, hsys]
  rfl

theorem faithful_of_agree {db : Db} {pSys : Subsystem} (hsys : db.subsystems.head? = some pSys)
    (h : Agree pSys db) : Faithful ext compareFan comparePsu db := by
  refine ⟨compareFan.sort db.fans, comparePsu.sort db.powerSupplies, ?_, compareFan.perm _,
    compareFan.sorted _, comparePsu.perm _, comparePsu.sorted _⟩
  rw [cliSystemGetAll_some ext compareFan comparePsu hsys, h.fans, h.powerSupplies,
    printSorted_length, printSorted_length, listing_eq_shown ext hsys]
  rfl

theorem not_faithful_of_error {db : Db} {fault : Fault}
    (h : cliSystemGetAll ext compareFan comparePsu db = .error fault) :
    ¬ Faithful ext compareFan comparePsu db := by
  rintro ⟨fans, psus, hrun, _⟩
  cases h.symm.trans hrun

theorem agree_of_faithful {db : Db} (h : Faithful ext compareFan comparePsu db) :
    ∃ pSys, db.subsystems.head? = some pSys ∧ Agree pSys db := by
  obtain ⟨fans, psus, hrun, hfans, _, hpsus, _⟩ := h
  cases hsys : db.subsystems.head? with
  | none =>
    rw [cliSystemGetAll, hsys] at hrun
    cases hrun
  | some pSys =>
    rw [cliSystemGetAll_some ext compareFan comparePsu hsys, listing_eq_shown ext hsys] at hrun
    cases hfanOut : printSorted compareFan pSys.nFans db.fans (fanLine ext) with
    | error fault =>
      rw [hfanOut] at hrun
      cases hrun
    | ok fanOut =>
      cases hpsuOut : printSorted comparePsu pSys.nPowerSupplies db.powerSupplies
          (powerSupplyLine ext) with
      | error fault =>
        rw [hfanOut, hpsuOut] at hrun
        cases hrun
      | ok psuOut =>
        rw [hfanOut, hpsuOut] at hrun
        have hcalls := length_shown_add ext (Except.ok.inj hrun)
        obtain ⟨hfanLength, hfanCases⟩ := printSorted_ok compareFan (length_fanLine ext) hfanOut
        obtain ⟨hpsuLength, hpsuCases⟩ :=
          printSorted_ok comparePsu (length_powerSupplyLine ext) hpsuOut
        have hfanCalls := length_flatMap_line (length_fanLine ext) (fans.map some)
        have hpsuCalls := length_flatMap_line (length_powerSupplyLine ext) (psus.map some)
        rw [List.flatMap_map, List.length_map, hfans.length_eq] at hfanCalls
        rw [List.flatMap_map, List.length_map, hpsus.length_eq] at hpsuCalls
        refine ⟨pSys, rfl, ?_, ?_⟩ <;> omega

/-- The listing is that of the tables exactly if there is a subsystem and the first one
refers to as many fans and power supplies as there are. -/
theorem showSystem_faithful_iff (db : Db) :
    Faithful ext compareFan comparePsu db ↔ ∃ pSys, db.subsystems.head? = some pSys ∧
      pSys.nFans = db.fans.length ∧ pSys.nPowerSupplies = db.powerSupplies.length := by
  constructor
  · intro h
    obtain ⟨pSys, hsys, hagree⟩ := agree_of_faithful ext compareFan comparePsu h
    exact ⟨pSys, hsys, hagree.fans, hagree.powerSupplies⟩
  · rintro ⟨pSys, hsys, hfans, hpsus⟩
    exact faithful_of_agree ext compareFan comparePsu hsys ⟨hfans, hpsus⟩

end Listing

def SortBy.merge {α : Type} (key : α → CStr) : SortBy key where
  sort := fun rows => rows.mergeSort (fun a b => decide (key a ≤ key b))
  perm := fun rows => List.mergeSort_perm rows _
  sorted := by
    intro rows
    have htrans : ∀ a b c : α, decide (key a ≤ key b) = true → decide (key b ≤ key c) = true →
        decide (key a ≤ key c) = true := by
      intro a b c hab hbc
      exact decide_eq_true (List.le_trans (of_decide_eq_true hab) (of_decide_eq_true hbc))
    have htotal : ∀ a b : α, (decide (key a ≤ key b) || decide (key b ≤ key a)) = true := by
      intro a b
      simpa using List.le_total (key a) (key b)
    exact (List.pairwise_mergeSort htrans htotal rows).imp fun hab => of_decide_eq_true hab

def plainExternal : External where
  faultAbsent := ⟨cstr "fault_absent", cstr "fault_absent"⟩
  faultInput := ⟨cstr "fault_input", cstr "fault_input"⟩
  faultOutput := ⟨cstr "fault_output", cstr "fault_output"⟩
  unknown := ⟨cstr "unknown", cstr "unknown"⟩
  ok := ⟨cstr "ok", cstr "ok"⟩
  newline := [10]

def twoFans (nFans : ℕ) : Db where
  systems := [⟨none⟩]
  subsystems := [⟨[], nFans, 0, 0, 0⟩]
  fans := [⟨cstr "base-2", none, none⟩, ⟨cstr "base-1", none, none⟩]
  leds := []
  powerSupplies := []
  tempSensors := []

/-- Before there are rows the command uses the absent subsystem; with one reference and two
fans it stores behind the array, and with three it compares a NULL name. -/
theorem showSystem_not_faithful :
    (cliSystemGetAll plainExternal (.merge _) (.merge _) ⟨[], [], [], [], [], []⟩ =
        .error .nullDeref ∧
      cliSystemGetAll plainExternal (.merge _) (.merge _) (twoFans 1) = .error .outOfBounds ∧
      cliSystemGetAll plainExternal (.merge _) (.merge _) (twoFans 3) = .error .nullDeref) ∧
    ¬ Faithful plainExternal (.merge _) (.merge _) ⟨[], [], [], [], [], []⟩ ∧
      ¬ Faithful plainExternal (.merge _) (.merge _) (twoFans 1) ∧
      ¬ Faithful plainExternal (.merge _) (.merge _) (twoFans 3) := by
  refine ⟨⟨rfl, rfl, rfl⟩, ?_, ?_, ?_⟩
  · exact not_faithful_of_error _ _ _ rfl
  · exact not_faithful_of_error _ _ _ rfl
  · exact not_faithful_of_error _ _ _ rfl

end OpsSysd.ShowSystem
