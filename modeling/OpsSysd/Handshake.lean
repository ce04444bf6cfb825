import OpsSysd.SysdPass
import Mathlib.Data.List.Nodup

/-!
The boot handshake. For each hardware daemon of the manifest the check takes the
first flagged row whose name begins with the daemon's name, skips the daemon
where there is none, and asks of the rows it takes that they be finished. That
asks every daemon about its own row only where the rows are named as the daemons
are: names apart, one row a daemon, and all of them present or none.
-/

namespace OpsSysd.SysdRun

open CString Ovsdb Ovsrec Platform

section Rows

variable (r : OvsRow)

/-- The row is flagged as that of a hardware daemon. -/
def Flagged : Prop := (r.col .daemonIsHwHandler : Bool) = true

def Finishes : Prop := (0 : ℤ) < r.col .daemonCurHw

def Named (name : CStr) : Prop := (r.col .daemonName : CStr) = name

instance : Decidable (Flagged r) := inferInstanceAs (Decidable (_ = _))
instance : Decidable (Finishes r) := inferInstanceAs (Decidable (_ < _))
instance (name : CStr) : Decidable (Named r name) := inferInstanceAs (Decidable (_ = _))

end Rows

/-- The row that the loop over the Daemon table stops at. -/
def taken (name : CStr) (db : List OvsRow) : Option OvsRow :=
  db.find? (fun r => Flagged r ∧ strncmpEq name (r.col .daemonName : CStr) name.length)

/-- The daemon has a flagged row of its own that is finished. -/
def OwnFinished (d : Manifest.DaemonInfo) (db : List OvsRow) : Prop :=
  ∃ r ∈ db, Flagged r ∧ Named r d.name ∧ Finishes r

instance (d : Manifest.DaemonInfo) (db : List OvsRow) : Decidable (OwnFinished d db) :=
  inferInstanceAs (Decidable (∃ r ∈ db, _))

/-- There are no hardware daemons, or all of them have finished. -/
def AllDone (m : Manifest.Globals) (db : List OvsRow) : Prop :=
  m.numHwDaemons = 0 ∨ ∀ d ∈ m.daemons, d.isHwHandler = true → OwnFinished d db

instance (m : Manifest.Globals) (db : List OvsRow) : Decidable (AllDone m db) :=
  inferInstanceAs (Decidable (_ ∨ _))

/-- What a Daemon row says of whose it is. -/
def nameAndFlag (r : OvsRow) : CStr × Bool := (r.col .daemonName, r.col .daemonIsHwHandler)

/-- The flagged rows are named as the hardware daemons are. -/
structure WellNamed (m : Manifest.Globals) (rows : List (CStr × Bool)) : Prop where
  apart : ∀ d ∈ m.daemons, d.isHwHandler = true → ∀ row ∈ rows, row.2 = true →
    d.name <+: row.1 → row.1 = d.name
  single : ∀ d ∈ m.daemons, d.isHwHandler = true → rows.count (d.name, true) ≤ 1
  together : (∃ d ∈ m.daemons, d.isHwHandler = true ∧ (d.name, true) ∈ rows) →
    ∀ d ∈ m.daemons, d.isHwHandler = true → (d.name, true) ∈ rows

section Check

variable {db : List OvsRow}

theorem daemonCurHw_eq (name : CStr) (db : List OvsRow) :
    daemonCurHw name db = (taken name db).map (fun r => (r.col .daemonCurHw : ℤ)) := by
  induction db with
  | nil => rfl
  | cons r rest ih =>
    unfold daemonCurHw taken
    rw [List.find?_cons]
    by_cases hr : Flagged r ∧ strncmpEq name (r.col .daemonName : CStr) name.length = true
    · refine (if_pos hr).trans ?_
      simp [hr]
    · refine (if_neg hr).trans (ih.trans ?_)
      simp [hr, taken]

theorem taken_of_own {d : Manifest.DaemonInfo} {r : OvsRow} (hr : r ∈ db) (hflag : Flagged r)
    (hname : Named r d.name) : (taken d.name db).isSome := by
  unfold taken
  rw [List.find?_isSome]
  refine ⟨r, hr, ?_⟩
  have hbegins : strncmpEq d.name (r.col .daemonName : CStr) d.name.length = true := by
    rw [strncmpEq_length_iff]
    exact hname ▸ List.prefix_refl _
  simp [hflag, hbegins]

theorem taken_begins {name : CStr} {r : OvsRow} (h : taken name db = some r) :
    name <+: (r.col .daemonName : CStr) := by
  have hr := List.find?_some h
  simp only [decide_eq_true_eq, strncmpEq_length_iff] at hr
  exact hr.2

theorem taken_mem {name : CStr} {r : OvsRow} (h : taken name db = some r) :
    r ∈ db ∧ Flagged r := by
  refine ⟨List.mem_of_find?_eq_some h, ?_⟩
  have hr := List.find?_some h
  simp only [decide_eq_true_eq] at hr
  exact hr.1

/-- The loop over the manifest: no row that is taken is unfinished, and the counter
counts the rows that are. -/
theorem hwDaemonsLoop_spec (db : List OvsRow) (ds : List Manifest.DaemonInfo) (n : ℕ) :
    ((hwDaemonsLoop db ds n).1 = false ↔
      ∀ d ∈ ds, d.isHwHandler = true → ∀ r, taken d.name db = some r → Finishes r) ∧
    ((hwDaemonsLoop db ds n).1 = false → ((hwDaemonsLoop db ds n).2 ≠ 0 ↔
      n ≠ 0 ∨ ∃ d ∈ ds, d.isHwHandler = true ∧ (taken d.name db).isSome)) := by
  induction ds generalizing n with
  | nil => simp [hwDaemonsLoop]
  | cons d rest ih =>
    unfold hwDaemonsLoop
    by_cases hd : d.isHwHandler = true
    · rw [if_pos hd, daemonCurHw_eq]
      cases htaken : taken d.name db with
      | none => simpa [hd, htaken] using ih n
      | some r =>
        by_cases hfin : Finishes r
        · have hcur : (r.col .daemonCurHw : ℤ) > 0 := hfin
          simp only [Option.map_some, if_pos hcur]
          obtain ⟨hset, hfound⟩ := ih (n + 1)
          refine ⟨?_, fun h => ?_⟩
          · simp [hset, hd, htaken, hfin]
          · rw [hfound h]
            simp [hd, htaken]
        · have hcur : ¬ (r.col .daemonCurHw : ℤ) > 0 := hfin
          simp only [Option.map_some, if_neg hcur]
          refine ⟨?_, fun h => by simp at h⟩
          simp [hd, htaken, hfin]
    · rw [if_neg hd]
      simpa [hd] using ih n

/-- The check goes on where it takes a row and all it takes are finished. -/
theorem hwDaemonsDone_iff (m : Manifest.Globals) (db : List OvsRow) :
    hwDaemonsDone m db = true ↔ m.numHwDaemons = 0 ∨
      ((∀ d ∈ m.daemons, d.isHwHandler = true → ∀ r, taken d.name db = some r → Finishes r) ∧
        ∃ d ∈ m.daemons, d.isHwHandler = true ∧ (taken d.name db).isSome) := by
  obtain ⟨hset, hfound⟩ := hwDaemonsLoop_spec db m.daemons 0
  unfold hwDaemonsDone
  rw [decide_eq_true_eq, ← hset]
  refine or_congr_right (and_congr_right fun h => ?_)
  simpa using hfound h

theorem exists_hwDaemon {m : Manifest.Globals} (hm : m.Counted) :
    m.numHwDaemons ≠ 0 ↔ ∃ d ∈ m.daemons, d.isHwHandler = true := by
  rw [hm.hwDaemons, ← Nat.pos_iff_ne_zero, List.countP_pos_iff]

end Check

section Names

variable {m : Manifest.Globals} {db : List OvsRow} {rows rows' : List (CStr × Bool)}

theorem nameAndFlag_eq_iff {r : OvsRow} {name : CStr} :
    nameAndFlag r = (name, true) ↔ Flagged r ∧ Named r name := by
  rw [nameAndFlag, Prod.mk.injEq, and_comm]
  rfl

theorem finishes_of_eq_one {r : OvsRow} (h : (r.col .daemonCurHw : ℤ) = 1) : Finishes r := by
  unfold Finishes
  rw [h]
  exact Int.one_pos

theorem OwnFinished.iff_exists {d : Manifest.DaemonInfo} :
    OwnFinished d db ↔ ∃ r ∈ db, nameAndFlag r = (d.name, true) ∧ Finishes r := by
  simp only [OwnFinished, nameAndFlag_eq_iff, and_assoc]

theorem WellNamed.perm (h : WellNamed m rows) (hperm : rows.Perm rows') : WellNamed m rows' where
  apart d hd hhw row hrow := h.apart d hd hhw row (hperm.mem_iff.mpr hrow)
  single d hd hhw := hperm.count_eq _ ▸ h.single d hd hhw
  together := by
    rintro ⟨d₀, hd₀, hhw₀, hmem⟩ d hd hhw
    exact hperm.mem_iff.mp (h.together ⟨d₀, hd₀, hhw₀, hperm.mem_iff.mpr hmem⟩ d hd hhw)

theorem eq_of_count_le_one {α β : Type*} [BEq β] [LawfulBEq β] {l : List α} {f : α → β} {k : β}
    (h : (l.map f).count k ≤ 1) {a b : α} (ha : a ∈ l) (hb : b ∈ l) (hfa : f a = k)
    (hfb : f b = k) : a = b := by
  by_contra hne
  obtain ⟨s, t, rfl⟩ := List.append_of_mem ha
  have hrest : b ∈ s ++ t := by
    simpa [Ne.symm hne] using hb
  have hpos : 0 < ((s ++ t).map f).count k :=
    List.count_pos_iff.mpr (List.mem_map.mpr ⟨b, hrest, hfb⟩)
  simp only [List.map_append, List.map_cons, List.count_append, hfa, List.count_cons_self]
    at h hpos
  omega

/-- A row that is taken for a daemon is its own, and the only one it has. -/
theorem taken_finishes_iff (h : WellNamed m (db.map nameAndFlag)) {d : Manifest.DaemonInfo}
    (hd : d ∈ m.daemons) (hhw : d.isHwHandler = true) {r : OvsRow}
    (hr : taken d.name db = some r) : Finishes r ↔ OwnFinished d db := by
  obtain ⟨hmem, hflag⟩ := taken_mem hr
  have hname := h.apart d hd hhw _ (List.mem_map_of_mem hmem) hflag (taken_begins hr)
  have hkey : nameAndFlag r = (d.name, true) := nameAndFlag_eq_iff.mpr ⟨hflag, hname⟩
  rw [OwnFinished.iff_exists]
  constructor
  · intro hfin
    exact ⟨r, hmem, hkey, hfin⟩
  · rintro ⟨q, hq, hqkey, hfin⟩
    rwa [eq_of_count_le_one (h.single d hd hhw) hmem hq hkey hqkey]

theorem exists_taken {d : Manifest.DaemonInfo} (h : (d.name, true) ∈ db.map nameAndFlag) :
    ∃ r, taken d.name db = some r := by
  obtain ⟨own, hown, hkey⟩ := List.mem_map.mp h
  obtain ⟨hflag, hname⟩ := nameAndFlag_eq_iff.mp hkey
  exact Option.isSome_iff_exists.mp (taken_of_own hown hflag hname)

/-- Where the rows are well named the check does what it is for. -/
theorem hwDaemonsDone_of_wellNamed (hm : m.Counted) (h : WellNamed m (db.map nameAndFlag)) :
    hwDaemonsDone m db = true ↔ AllDone m db := by
  have hkey : ∀ {d}, OwnFinished d db → (d.name, true) ∈ db.map nameAndFlag := fun hown => by
    obtain ⟨q, hq, hqkey, _⟩ := OwnFinished.iff_exists.mp hown
    exact List.mem_map.mpr ⟨q, hq, hqkey⟩
  rw [hwDaemonsDone_iff]
  by_cases hnum : m.numHwDaemons = 0
  · simp [AllDone, hnum]
  · obtain ⟨d₁, hd₁, hhw₁⟩ := (exists_hwDaemon hm).mp hnum
    simp only [AllDone, hnum, false_or]
    constructor
    · rintro ⟨hfin, d₀, hd₀, hhw₀, hsome⟩ d hd hhw
      obtain ⟨r₀, hr₀⟩ := Option.isSome_iff_exists.mp hsome
      have hown := (taken_finishes_iff h hd₀ hhw₀ hr₀).mp (hfin d₀ hd₀ hhw₀ r₀ hr₀)
      obtain ⟨r, hr⟩ := exists_taken (h.together ⟨d₀, hd₀, hhw₀, hkey hown⟩ d hd hhw)
      exact (taken_finishes_iff h hd hhw hr).mp (hfin d hd hhw r hr)
    · intro hall
      obtain ⟨r₁, hr₁⟩ := exists_taken (hkey (hall d₁ hd₁ hhw₁))
      refine ⟨fun d hd hhw r hr => (taken_finishes_iff h hd hhw hr).mpr (hall d hd hhw),
        d₁, hd₁, hhw₁, by simp [hr₁]⟩

/-- A Daemon row with a name, a flag and a `cur_hw`. -/
def namedRow (serial : ℕ) (key : CStr × Bool) (curHw : ℤ) : OvsRow where
  table := .daemon
  uuid := ⟨1, serial⟩
  col
    | .daemonName => key.1
    | .daemonIsHwHandler => key.2
    | .daemonCurHw => curHw
    | c => c.type.initial

/-- What the check reads of a row. -/
def keyAndCurHw (r : OvsRow) : (CStr × Bool) × ℤ := (nameAndFlag r, r.col .daemonCurHw)

/-- The check does what it is for on every table of rows with these names and
flags, in whatever order they are enumerated and whatever their `cur_hw` is. -/
def ChecksRight (m : Manifest.Globals) (rows : List (CStr × Bool)) : Prop :=
  ∀ db : List OvsRow, tableRows .daemon db = db → (db.map nameAndFlag).Perm rows →
    (hwDaemonsDone m db = true ↔ AllDone m db)

/-- Any names, flags and `cur_hw` are those of some table. -/
theorem ChecksRight.table (h : ChecksRight m rows) {l : List ((CStr × Bool) × ℤ)}
    (hl : (l.map Prod.fst).Perm rows) :
    ∃ db : List OvsRow, db.map keyAndCurHw = l ∧ (hwDaemonsDone m db = true ↔ AllDone m db) := by
  have hmap : (l.zipIdx.map (fun x => namedRow x.2 x.1.1 x.1.2)).map keyAndCurHw = l := by
    rw [List.map_map]
    exact List.zipIdx_map_fst 0 l
  refine ⟨l.zipIdx.map (fun x => namedRow x.2 x.1.1 x.1.2), hmap, h _ ?_ ?_⟩
  · refine List.filter_eq_self.mpr (fun r hr => ?_)
    obtain ⟨x, _, rfl⟩ := List.mem_map.mp hr
    rfl
  · have hkeys := congrArg (List.map Prod.fst) hmap
    rw [List.map_map] at hkeys
    exact hkeys ▸ hl

theorem hwDaemonsDone_of_finished {d : Manifest.DaemonInfo} (hd : d ∈ m.daemons)
    (hhw : d.isHwHandler = true) (hsome : (taken d.name db).isSome)
    (hfin : ∀ d ∈ m.daemons, d.isHwHandler = true → ∀ r, taken d.name db = some r → Finishes r) :
    hwDaemonsDone m db = true :=
  (hwDaemonsDone_iff m db).mpr (.inr ⟨hfin, d, hd, hhw, hsome⟩)

/-- The row at the head of the table is taken where its name begins with the
daemon's. -/
theorem taken_cons {r : OvsRow} {name : CStr} (hflag : Flagged r)
    (hbegins : name <+: (r.col .daemonName : CStr)) (rest : List OvsRow) :
    taken name (r :: rest) = some r := by
  unfold taken
  rw [List.find?_cons_of_pos]
  simpa [strncmpEq_length_iff] using ⟨hflag, hbegins⟩

theorem ownFinished_of_done (hm : m.Counted) {d : Manifest.DaemonInfo} (hd : d ∈ m.daemons)
    (hhw : d.isHwHandler = true) (h : AllDone m db) : OwnFinished d db :=
  h.resolve_left ((exists_hwDaemon hm).mpr ⟨d, hd, hhw⟩) d hd hhw

/-- With all rows finished the check goes on whoever lacks a row. -/
theorem ChecksRight.together (hm : m.Counted) (h : ChecksRight m rows) :
    (∃ d ∈ m.daemons, d.isHwHandler = true ∧ (d.name, true) ∈ rows) →
      ∀ d ∈ m.daemons, d.isHwHandler = true → (d.name, true) ∈ rows := by
  rintro ⟨d₀, hd₀, hhw₀, hrow₀⟩ d hd hhw
  obtain ⟨db, hdb, hiff⟩ := h.table (l := rows.map (·, 1)) (by simp [Function.comp_def])
  have hrow : ∀ r ∈ db, nameAndFlag r ∈ rows ∧ Finishes r := by
    intro r hr
    have hmem : keyAndCurHw r ∈ rows.map (·, (1 : ℤ)) := hdb ▸ List.mem_map_of_mem hr
    obtain ⟨key, hkey, heq⟩ := List.mem_map.mp hmem
    have hsame : key = nameAndFlag r := congrArg Prod.fst heq
    exact ⟨hsame ▸ hkey, finishes_of_eq_one (congrArg Prod.snd heq).symm⟩
  have hkeys : db.map nameAndFlag = rows := by
    have hfst := congrArg (List.map Prod.fst) hdb
    simpa [Function.comp_def, keyAndCurHw] using hfst
  obtain ⟨r₀, hr₀⟩ := exists_taken (hkeys.symm ▸ hrow₀)
  have hdone := hiff.mp (hwDaemonsDone_of_finished hd₀ hhw₀ (by simp [hr₀])
    (fun _ _ _ r hr => (hrow r (taken_mem hr).1).2))
  obtain ⟨q, hq, hqkey, _⟩ := OwnFinished.iff_exists.mp (ownFinished_of_done hm hd hhw hdone)
  exact hqkey ▸ (hrow q hq).1

/-- With a finished row of a longer name first, the check goes on without the
daemon's own. -/
theorem ChecksRight.apart (hm : m.Counted) (h : ChecksRight m rows) {d : Manifest.DaemonInfo}
    (hd : d ∈ m.daemons) (hhw : d.isHwHandler = true) {row : CStr × Bool} (hrow : row ∈ rows)
    (hflag : row.2 = true) (hbegins : d.name <+: row.1) : row.1 = d.name := by
  by_contra hne
  obtain ⟨s, t, rfl⟩ := List.append_of_mem hrow
  obtain ⟨db, hdb, hiff⟩ := h.table
    (l := (row, 1) :: (s ++ t).map (fun k => (k, if k = (d.name, true) then 0 else 1)))
    (by simpa [Function.comp_def] using List.perm_middle.symm)
  obtain ⟨r₀, rest, rfl, hr₀, hrest⟩ := List.map_eq_cons_iff.mp hdb
  have hflag₀ : Flagged r₀ := (congrArg (·.1.2) hr₀ : (nameAndFlag r₀).2 = row.2).trans hflag
  have hname₀ : (r₀.col .daemonName : CStr) = row.1 := congrArg (·.1.1) hr₀
  have hfin₀ : Finishes r₀ := finishes_of_eq_one (congrArg (·.2) hr₀)
  have hunfinished : ∀ r ∈ rest, (nameAndFlag r = (d.name, true) ↔ ¬ Finishes r) := by
    intro r hr
    obtain ⟨key, _, heq⟩ := List.mem_map.mp (hrest ▸ List.mem_map_of_mem hr)
    have hkey : key = nameAndFlag r := congrArg Prod.fst heq
    have hcur : (if key = (d.name, true) then 0 else 1) = (r.col .daemonCurHw : ℤ) :=
      congrArg Prod.snd heq
    unfold Finishes
    rw [← hkey, ← hcur]
    split <;> simp_all
  -- Whoever would take an unfinished row takes the longer one first.
  have hfin : ∀ d' ∈ m.daemons, d'.isHwHandler = true → ∀ r,
      taken d'.name (r₀ :: rest) = some r → Finishes r := by
    intro d' _ _ r hr
    by_contra hnot
    have hmem : r ∈ rest := by
      rcases List.mem_cons.mp (taken_mem hr).1 with rfl | hmem
      · exact absurd hfin₀ hnot
      · exact hmem
    have hown := (nameAndFlag_eq_iff.mp ((hunfinished r hmem).mpr hnot)).2
    have hbegins' : d'.name <+: (r.col .daemonName : CStr) := taken_begins hr
    rw [hown] at hbegins'
    have hfirst := taken_cons hflag₀ (hname₀ ▸ hbegins'.trans hbegins) rest
    rw [hfirst, Option.some.injEq] at hr
    exact hnot (hr ▸ hfin₀)
  have hdone := hiff.mp (hwDaemonsDone_of_finished hd hhw
    (by simp [taken_cons hflag₀ (hname₀ ▸ hbegins) rest]) hfin)
  obtain ⟨q, hq, hqkey, hqfin⟩ :=
    OwnFinished.iff_exists.mp (ownFinished_of_done hm hd hhw hdone)
  rcases List.mem_cons.mp hq with rfl | hq
  · exact hne (hname₀.symm.trans (nameAndFlag_eq_iff.mp hqkey).2)
  · exact (hunfinished q hq).mp hqkey hqfin

/-- With an unfinished row first, the check waits although another row of the
same name is finished. -/
theorem ChecksRight.single (hm : m.Counted) (h : ChecksRight m rows) {d : Manifest.DaemonInfo}
    (hd : d ∈ m.daemons) (hhw : d.isHwHandler = true) : rows.count (d.name, true) ≤ 1 := by
  by_contra htwo
  have hmem : (d.name, true) ∈ rows := List.count_pos_iff.mp (by omega)
  have htogether := h.together hm ⟨d, hd, hhw, hmem⟩
  have hcount := List.count_erase_self (a := (d.name, true)) (l := rows)
  have hmem' : (d.name, true) ∈ rows.erase (d.name, true) := List.count_pos_iff.mp (by omega)
  have hperm := (List.perm_cons_erase hmem).trans ((List.perm_cons_erase hmem').cons _)
  obtain ⟨rest, hrest⟩ : ∃ rest, rows.Perm ((d.name, true) :: (d.name, true) :: rest) := ⟨_, hperm⟩
  obtain ⟨db, hdb, hiff⟩ := h.table
    (l := ((d.name, true), 0) :: ((d.name, true) :: rest).map (·, 1))
    (by simpa [Function.comp_def] using hrest.symm)
  obtain ⟨r₀, others, rfl, hr₀, hothers⟩ := List.map_eq_cons_iff.mp hdb
  have hcur₀ : (r₀.col .daemonCurHw : ℤ) = 0 := congrArg (·.2) hr₀
  obtain ⟨hflag₀, hname₀⟩ := nameAndFlag_eq_iff.mp (congrArg (·.1) hr₀)
  have hall : AllDone m (r₀ :: others) := by
    refine .inr (fun d' hd' hhw' => OwnFinished.iff_exists.mpr ?_)
    have hrow : (d'.name, true) ∈ (d.name, true) :: rest := by
      simpa using hrest.mem_iff.mp (htogether d' hd' hhw')
    have hown := hothers ▸ List.mem_map_of_mem (f := (·, (1 : ℤ))) hrow
    obtain ⟨q, hq, hqkey⟩ := List.mem_map.mp hown
    exact ⟨q, List.mem_cons_of_mem _ hq, congrArg Prod.fst hqkey,
      finishes_of_eq_one (congrArg Prod.snd hqkey)⟩
  have hbegins : d.name <+: (r₀.col .daemonName : CStr) := by
    rw [show (r₀.col .daemonName : CStr) = d.name from hname₀]
  have htaken := taken_cons hflag₀ hbegins others
  rcases (hwDaemonsDone_iff m _).mp (hiff.mpr hall) with hnone | ⟨hfin, _⟩
  · exact (exists_hwDaemon hm).mpr ⟨d, hd, hhw⟩ hnone
  · exact absurd (hfin d hd hhw r₀ htaken) (by simp [Finishes, hcur₀])

/-- The check does what it is for exactly on rows that are well named. -/
theorem checksRight_iff (hm : m.Counted) : ChecksRight m rows ↔ WellNamed m rows := by
  constructor
  · intro h
    exact ⟨fun _ hd hhw _ hrow => h.apart hm hd hhw hrow, fun _ hd hhw => h.single hm hd hhw,
      h.together hm⟩
  · intro h db _ hperm
    exact hwDaemonsDone_of_wellNamed hm (h.perm hperm.symm)

end Names

section Environment

/-- A daemon's row before and after: kept, or finished by the daemon. -/
def Advanced (r r' : OvsRow) : Prop :=
  (r'.col .daemonName : CStr) = r.col .daemonName ∧
    ((r'.col .daemonCurHw : ℤ) = r.col .daemonCurHw ∨ Finishes r')

/-- The daemons' rows are those of before, each kept or finished. -/
structure DaemonsAdvance (db db' : List OvsRow) : Prop where
  origin : ∀ r' ∈ db', ∃ r ∈ db, Advanced r r'
  kept : ∀ r ∈ db, ∃ r' ∈ db', Advanced r r'

/-- No hardware daemon is without a row or has one whose `cur_hw` is zero. -/
def AllReported (m : Manifest.Globals) (db : List OvsRow) : Prop :=
  ∀ d ∈ m.daemons, d.isHwHandler = true → (∃ r ∈ db, Named r d.name) ∧
    ∀ r ∈ db, Named r d.name → (r.col .daemonCurHw : ℤ) ≠ 0

variable {m : Manifest.Globals} {db db' : List OvsRow}

theorem AllReported.advance (h : AllReported m db) (hadv : DaemonsAdvance db db') :
    AllReported m db' := by
  intro d hd hhw
  obtain ⟨⟨r, hr, hname⟩, hcur⟩ := h d hd hhw
  constructor
  · obtain ⟨r', hr', hsame, _⟩ := hadv.kept r hr
    exact ⟨r', hr', hsame.trans hname⟩
  · intro r' hr' hname'
    obtain ⟨q, hq, hsame, hkept | hfin⟩ := hadv.origin r' hr'
    · rw [hkept]
      exact hcur q hq (hsame.symm.trans hname')
    · exact ne_of_gt hfin

theorem daemonsAdvance_replica (db : Database schema) :
    DaemonsAdvance (tableRows .daemon db) (tableRows .daemon (replica db)) := by
  have hrow : ∀ r : OvsRow, Advanced r r.replicated := fun r =>
    ⟨@Row.replicated_col schema r .daemonName (by simp),
      .inl (@Row.replicated_col schema r .daemonCurHw (by simp))⟩
  have hrows : tableRows .daemon (replica db) = (tableRows .daemon db).map Row.replicated :=
    rowsOf_replica rfl db
  rw [hrows]
  constructor
  · intro r' hr'
    obtain ⟨r, hr, rfl⟩ := List.mem_map.mp hr'
    exact ⟨r, hr, hrow r⟩
  · intro r hr
    exact ⟨r.replicated, List.mem_map_of_mem hr, hrow r⟩

theorem AllReported.deliveries {db : Database schema} {ds : List (Delivery schema)}
    (h : AllReported m (tableRows .daemon db))
    (hds : ∀ d ∈ ds, ∀ db, DaemonsAdvance (tableRows .daemon db) (tableRows .daemon (d db))) :
    AllReported m (tableRows .daemon (ds.foldl (fun db d => replica (d db)) db)) := by
  induction ds generalizing db with
  | nil => exact h
  | cons d rest ih =>
    refine ih ?_ (fun d' hd' => hds d' (by simp [hd']))
    exact (h.advance (hds d (by simp) db)).advance (daemonsAdvance_replica (d db))

/-- Where names are not repeated, finished rows of their own are all they have. -/
theorem allReported_of_allDone (hm : m.Counted)
    (hnodup : (db.map (fun r => (r.col .daemonName : CStr))).Nodup) (h : AllDone m db) :
    AllReported m db := by
  intro d hd hhw
  have hown : OwnFinished d db := by
    rcases h with hnone | hall
    · exact absurd hnone ((exists_hwDaemon hm).mpr ⟨d, hd, hhw⟩)
    · exact hall d hd hhw
  obtain ⟨r, hr, _, hname, hfin⟩ := hown
  refine ⟨⟨r, hr, hname⟩, fun q hq hq' => ?_⟩
  have hqr : q = r := List.inj_on_of_nodup_map hnodup hq hr (hq'.trans hname.symm)
  rw [hqr]
  exact ne_of_gt hfin

end Environment

section Run

/-- A check meets daemon rows that are well named and named apart, and during
the commit after it the daemons only go on. -/
structure MeetsWellNamed (st : Startup) (p : PassInput) (s : Sysd) : Prop where
  wellNamed : Checks p s →
    WellNamed st.manifest ((tableRows .daemon (received p s).snapshot).map nameAndFlag)
  nodup : Checks p s → ((tableRows .daemon (received p s).snapshot).map
    (fun r => (r.col .daemonName : CStr))).Nodup
  advance : Checks p s → ∀ d ∈ (p.replies 0).before, ∀ db,
    DaemonsAdvance (tableRows .daemon db) (tableRows .daemon (d db))

def CompletionColumn (c : Column) : Prop := c = .systemCurHw ∨ c = .systemNextHw

/-- Every commit with success that gives a completion column a value meets a
database in which all hardware daemons have reported. -/
def SafeHistory (m : Manifest.Globals) (fs : List (Finished schema)) : Prop :=
  ∀ f ∈ fs, ¬ f.txn.Untouched CompletionColumn → f.status = .success →
    AllReported m (tableRows .daemon f.base)

variable {st : Startup} {p : PassInput} {s s' : Sysd}

theorem SafeHistory.configured {b : Bool} {idl : Idl schema} (hp : MeetsWellNamed st p s)
    (hruns : BodyRuns p s) (hs : SafeHistory st.manifest s.idl.finished)
    (h : Configured st s.hwInitDoneSet (received p s) b idl) :
    SafeHistory st.manifest idl.finished := by
  have hreceived : SafeHistory st.manifest (received p s).finished := by
    rw [received_finished]
    exact hs
  have hclosed : ∀ t n, (¬ t.Untouched CompletionColumn →
      AllReported st.manifest (tableRows .daemon (received p s).met.snapshot)) →
      SafeHistory st.manifest ((received p s).closed t n).finished := by
    intro t n hsafe f hf htouched hsuccess
    obtain ⟨f₀, hf₀, htxn, _, _, hbase⟩ := (received p s).closed_finished t n
    rw [hf₀] at hf
    rcases List.mem_append.mp hf with hold | hnew
    · exact hreceived f hold htouched hsuccess
    · rw [List.mem_singleton.mp hnew] at htouched hsuccess ⊢
      rw [hbase hsuccess]
      exact hsafe (htxn ▸ htouched)
  cases h with
  | fills _ grows =>
    refine hclosed _ _ (fun htouched => absurd ?_ htouched)
    refine grows.untouched ?_ (Txn.untouched_empty _)
    rintro c (rfl | rfl) <;> simp [configureFootprint]
  | keeps _ _ => exact hreceived
  | waits _ _ _ => exact hreceived
  | completes row notSet done _ _ =>
    refine hclosed _ _ (fun _ => ?_)
    have hchecks : Checks p s := ⟨hruns, by rw [row]; simp, notSet⟩
    have hall := (hwDaemonsDone_of_wellNamed st.counted (hp.wellNamed hchecks)).mp done
    have hreported := allReported_of_allDone st.counted (hp.nodup hchecks) hall
    rw [Idl.met_snapshot, received_replies]
    exact hreported.deliveries (hp.advance hchecks)

theorem SafeHistory.passed (hsettled : Settled s.idl) (hp : MeetsWellNamed st p s)
    (hs : SafeHistory st.manifest s.idl.finished) (h : Passed st p s s') :
    SafeHistory st.manifest s'.idl.finished := by
  cases h with
  | idle _ =>
    rw [received_finished]
    exact hs
  | ran runs configured loaded =>
    have hconf := hs.configured hp runs configured
    have htxn := (configured.settled (settled_received p hsettled)).txn
    have houtside : ∀ c, CompletionColumn c → ¬ PackageInfo.packageFootprint.columns c := by
      rintro c (rfl | rfl) htable <;> cases htable
    have hkept := untouched_kept houtside
      (fun f => f.status = .success → AllReported st.manifest (tableRows .daemon f.base))
    refine (kept_loadPackageInfo hkept ⟨fun t ht => ?_, hconf⟩ loaded).2
    rw [htxn] at ht
    cases ht

end Run

/-- What it takes for `sysd_chk_if_hw_daemons_done` to do anything. -/
def GoesOn (m : Manifest.Globals) (idl : Idl schema) : Prop :=
  sysdChkIfHwDaemonsDone m idl ≠ .ok (false, idl)

theorem goesOn_iff {m : Manifest.Globals} {idl : Idl schema} (h : idl.txn = .none) :
    GoesOn m idl ↔ hwDaemonsDone m (tableRows .daemon idl.snapshot) = true := by
  unfold GoesOn
  rw [sysdChkIfHwDaemonsDone_eq h]
  split_ifs with hdone
  · simp only [hdone, iff_true]
    intro hbad
    cases htransaction : transaction setHwDoneRows idl with
    | error e =>
      rw [htransaction] at hbad
      cases hbad
    | ok q =>
      rw [htransaction] at hbad
      cases hbad
  · simp [hdone]

/-- A replica that holds these rows, with no transaction open. -/
def plainIdl (db : Database schema) : Idl schema :=
  { (Sysd.init 0 (fun _ => plainReply .success)).idl with snapshot := db }

/-- The check does what it is for, in every order of the rows and whatever their
`cur_hw` is, exactly where they are well named; and in a run that only meets such
rows, completion is never recorded early. -/
theorem handshake_of_wellNamed (st : Startup) :
    (∀ rows : List (CStr × Bool),
      (∀ idl : Idl schema, idl.txn = .none →
        ((tableRows .daemon idl.snapshot).map nameAndFlag).Perm rows →
        (GoesOn st.manifest idl ↔ AllDone st.manifest (tableRows .daemon idl.snapshot))) ↔
      WellNamed st.manifest rows) ∧
    ∀ client replies inputs s,
      Runs.Run (sysdRun st) (MeetsWellNamed st) (Sysd.init client replies) inputs s →
      SafeHistory st.manifest s.idl.finished := by
  refine ⟨fun rows => ?_, fun client replies inputs s h => ?_⟩
  · rw [← checksRight_iff st.counted]
    constructor
    · intro h db htable hperm
      have hrows : tableRows .daemon (plainIdl db).snapshot = db := htable
      have hgoes := h (plainIdl db) rfl (hrows.symm ▸ hperm)
      rwa [goesOn_iff rfl, hrows] at hgoes
    · intro h idl htxn hperm
      rw [goesOn_iff htxn]
      exact h _ (by simp [rowsOf, List.filter_filter]) hperm
  · have hinv := h.inv (I := fun s => Settled s.idl ∧ SafeHistory st.manifest s.idl.finished)
      ⟨settled_init client replies, fun f hf => by cases hf⟩ (by
        rintro p t t' ⟨ht, hsafe⟩ hp hdone
        have hpassed := passed_of_ok st p ht.txn hdone
        exact ⟨hpassed.settled ht, hsafe.passed ht hp hpassed⟩)
    exact hinv.2

/-- One daemon's own row is well named, and its completion is recorded in time. -/
theorem handshake_fandReady :
    (GoesOn fandManifest (plainIdl fandReady) ↔
        AllDone fandManifest (tableRows .daemon fandReady)) ∧
      ∃ s, Runs.Run (sysdRun fandPlatform) (MeetsWellNamed fandPlatform)
          (Sysd.init 0 (fun _ => plainReply .success))
          [plainPass [fun _ => fandReady] .success] s ∧
        SafeHistory fandManifest s.idl.finished := by
  obtain ⟨hcheck, hrun⟩ := handshake_of_wellNamed fandPlatform
  have hnamed : WellNamed fandManifest [(cstr "ops-fand", true)] := by
    constructor <;> decide
  have hguard : MeetsWellNamed fandPlatform (plainPass [fun _ => fandReady] .success)
      (Sysd.init 0 (fun _ => plainReply .success)) :=
    ⟨fun _ => hnamed, fun _ => List.nodup_singleton _, fun _ d hd => by cases hd⟩
  exact ⟨(hcheck _).mpr hnamed (plainIdl fandReady) rfl (.refl _),
    _, .next .start hguard rfl, hrun 0 _ _ _ (.next .start hguard rfl)⟩

/-- Two hardware daemons. -/
def twoDaemons (a b : CStr) : Startup :=
  .plain ⟨[⟨a, true, 0⟩, ⟨b, true, 0⟩], 2, 2, some ⟨0, cstr "eth0"⟩, true⟩ ⟨rfl, rfl⟩

/-- The check goes on although the second daemon has no row, and it goes on although
the first daemon's row is unfinished when a row whose name begins with that daemon's
name comes first. In the second case completion is recorded early. -/
theorem not_handshake :
    ¬ (GoesOn (twoDaemons (cstr "ops-fand") (cstr "ops-tempd")).manifest (plainIdl fandReady) ↔
        AllDone (twoDaemons (cstr "ops-fand") (cstr "ops-tempd")).manifest
          (tableRows .daemon fandReady)) ∧
      ∃ s, Runs.Run (sysdRun (twoDaemons (cstr "ops-fan") (cstr "ops-fand"))) Runs.unguarded
          (Sysd.init 0 (fun _ => plainReply .success))
          [plainPass [fun _ => [systemRow, daemonRow 1 (cstr "ops-fand") 1,
            daemonRow 2 (cstr "ops-fan") 0]] .success] s ∧
        ¬ SafeHistory (twoDaemons (cstr "ops-fan") (cstr "ops-fand")).manifest
          s.idl.finished := by
  constructor
  · rw [goesOn_iff rfl]
    decide
  · refine ⟨_, .next .start trivial rfl, fun hsafe => ?_⟩
    have hbase := hsafe _ (.head _) (fun h => h.updates _ (.head _) (.inl rfl)) rfl
    exact (hbase ⟨cstr "ops-fan", true, 0⟩ (.head _) rfl).2 _ (.tail _ (.head _)) rfl rfl

end OpsSysd.SysdRun
