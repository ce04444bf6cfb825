import OpsSysd.InitialConfigure
import OpsSysd.OvsdbCells

/-!
The rows that the initial configuration adds. Each function is described by
the rows it adds to an open transaction and by what it writes to the System
row. Those that can fault join the speeds of a port in a buffer and collect its
subports in an array of four.
-/

namespace OpsSysd.InitialConfigure

open CString Ovsdb Ovsrec Platform

section Rules

variable {α : Type} {C : Cells schema} {p : Prop} {u : Uuid} {c : Column} {v : c.type.Value}
  {R : α → Cells schema → Prop}

theorem exactly_insert {k : Table} {f : Uuid → OvsM α}
    (h : ∀ u, C.Fresh u → Exactly (C.insert k u) p (f u) R) :
    Exactly C p (@txnInsert schema k >>= f) R := Exactly.txnInsert h

theorem exactly_setCol {f : Unit → OvsM α} (hu : u ∈ C.rows c.table)
    (h : Exactly (C.write u c v) p (f ()) R) : Exactly C p (setCol u c v >>= f) R := by
  refine Exactly.seq (Exactly.txnWrite (S := schema) hu) (fun _ C' hC' => ?_)
  rw [hC']
  exact h

theorem always_setCol {R : Unit → Cells schema → Prop} (hu : u ∈ C.rows c.table)
    (h : R () (C.write u c v)) : Always C (setCol u c v) R :=
  (Exactly.txnWrite (S := schema) hu).mono (fun _ _ hC' => hC' ▸ h)

theorem exactly_getCol {f : c.type.Value → OvsM α} (hu : u ∈ C.rows c.table)
    (h : Exactly C p (f (C.value u c)) R) : Exactly C p (getCol u c >>= f) R :=
  Exactly.readCol (S := schema) hu h

end Rules

section OneRow

variable {C : Cells schema} {ext : External} {subsys : Subsystem}

theorem appended_of_writes {α : Type} {k : Table} {u : Uuid} (hu : C.Fresh u) {C' : Cells schema}
    {cols : α → (c : Column) → c.type.Value} {a : α} (hrows : C'.rows = (C.insert k u).rows)
    (hcols : C'.value u = cols a) (hold : ∀ u', u' ≠ u → C'.value u' = C.value u') :
    C.Appended k cols [a] [u] C' := by
  refine ⟨?_, ?_, ?_, by simp, .cons hcols .nil, ?_⟩
  · rw [hrows, Cells.insert_rows]
  · intro k' hk'
    rw [hrows, Cells.insert_rows_of_ne hk']
  · intro u' hu'
    rw [List.mem_singleton.mp hu']
    exact hu
  · intro u' hu'
    exact hold u' (by simpa using hu')

/-- The texts of the speeds, each cut to its scratch buffer, fit the buffer for the list. -/
def SpeedsFit (intf : YamlPort) : Prop :=
  (SpeedsString.stored intf.speeds).flatten.length < 128

instance (intf : YamlPort) : Decidable (SpeedsFit intf) := inferInstanceAs (Decidable (_ < _))

theorem speedsText_eq (intf : YamlPort) : speedsText intf.speeds =
    if SpeedsFit intf then some (SpeedsString.stored intf.speeds).flatten else none :=
  SpeedsString.strAt_sysdGetSpeedsString 127 intf.speeds

/-- What the row of a port says of its hardware. -/
def portHwIntfInfo (ext : External) (subsys : Subsystem) (intf : YamlPort) : Smap :=
  hwIntfInfo ext subsys intf (SpeedsString.stored intf.speeds).flatten

def interfaceColumns (ext : External) (subsys : Subsystem) (intf : YamlPort) :
    (c : Column) → c.type.Value
  | .interfaceName => intf.name
  | .interfaceType => ext.interfaceTypeSystem
  | .interfaceAdminState => ext.interfaceAdminStateDown
  | .interfaceHwIntfInfo => datumFromSmap (portHwIntfInfo ext subsys intf)
  | c => c.type.initial

theorem exactly_sysdInitialInterfaceAdd (intf : YamlPort) :
    Exactly C (SpeedsFit intf) (sysdInitialInterfaceAdd ext subsys intf) (fun u C' =>
      C.Appended Table.interface (interfaceColumns ext subsys) [intf] [u] C') := by
  refine exactly_insert (fun u hu => ?_)
  have hmem : u ∈ (C.insert Table.interface u).rows Table.interface := Cells.mem_insert_self
  refine exactly_setCol hmem (exactly_setCol hmem (exactly_setCol hmem ?_))
  refine Exactly.congr (Exactly.deref (q := fun _ => True) (fun speeds hspeeds => ?_)) (by
    simp [speedsText_eq])
  rw [speedsText_eq] at hspeeds
  split_ifs at hspeeds
  cases hspeeds
  refine exactly_setCol hmem (.pure (appended_of_writes hu rfl ?_ ?_))
  · simp only [Cells.write, Function.update_self, Cells.insert_value, hu.value]
    funext c
    cases c <;> rfl
  · intro u' hu'
    simp [Cells.write_value_of_row_ne hu']

def daemonColumns (daemon : Manifest.DaemonInfo) : (c : Column) → c.type.Value
  | .daemonName => daemon.name
  | .daemonCurHw => daemon.curHw
  | .daemonIsHwHandler => daemon.isHwHandler
  | c => c.type.initial

theorem always_sysdInitialDaemonAdd (daemon : Manifest.DaemonInfo) :
    Always C (sysdInitialDaemonAdd daemon) (fun u C' =>
      C.Appended Table.daemon daemonColumns [daemon] [u] C') := by
  refine exactly_insert (fun u hu => ?_)
  have hmem : u ∈ (C.insert Table.daemon u).rows Table.daemon := Cells.mem_insert_self
  refine exactly_setCol hmem (exactly_setCol hmem (exactly_setCol hmem ?_))
  refine .pure (appended_of_writes hu rfl ?_ ?_)
  · simp only [Cells.write, Function.update_self, Cells.insert_value, hu.value]
    funext c
    cases c <;> rfl
  · intro u' hu'
    simp [Cells.write_value_of_row_ne hu']

end OneRow

section SplitPorts

variable {C : Cells schema}

def splits (intf : YamlPort) : Prop := intf.subports ≠ [] ∨ intf.parentPort.isSome = true

instance (intf : YamlPort) : Decidable (splits intf) := inferInstanceAs (Decidable (_ ∨ _))

/-- The index by names that the loop builds. -/
def splitIndex (l : List (YamlPort × Uuid)) : List (CStr × Uuid) :=
  ((l.filter (fun p => splits p.1)).map (fun p => (p.1.name, p.2))).reverse

/-- The rows of the ports, with their names. -/
def Named (C : Cells schema) (l : List (YamlPort × Uuid)) : Prop :=
  ∀ p ∈ l, p.2 ∈ C.rows Table.interface ∧ C.value p.2 Column.interfaceName = p.1.name

theorem always_splitPorts {l : List (YamlPort × Uuid)} (h : Named C l) :
    Always C (splitPorts l) (fun ports C' => ports = splitIndex l ∧ C' = C) := by
  induction l with
  | nil => exact .pure ⟨rfl, rfl⟩
  | cons p rest ih =>
    obtain ⟨intf, row⟩ := p
    have hrest := ih (fun q hq => h q (by simp [hq]))
    have hrow : row ∈ C.rows Table.interface ∧ C.value row Column.interfaceName = intf.name :=
      h (intf, row) (by simp)
    unfold splitPorts
    by_cases hsplits : intf.subports ≠ [] ∨ intf.parentPort.isSome = true
    · rw [if_pos hsplits]
      refine exactly_getCol hrow.1 (hrest.seq (fun ports C' hC' => .pure ?_))
      obtain ⟨rfl, rfl⟩ := hC'
      refine ⟨?_, rfl⟩
      have hs : splits intf := hsplits
      simp [splitIndex, hs, hrow.2]
    · rw [if_neg hsplits]
      refine hrest.mono (fun ports C' hC' => ⟨?_, hC'.2⟩)
      have hs : ¬ splits intf := hsplits
      simp [hC'.1, splitIndex, hs]

/-- The array of subports holds what is found, and one more is stored before it is tested. -/
def SubportsFit (ports : List (CStr × Uuid)) (names : List CStr) (found : ℕ) : Prop :=
  names = [] ∨
    found + names.dropLast.countP (fun name => (shashFind ports name).isSome) < sysdMaxSplitPorts

theorem subportsFit_cons (ports : List (CStr × Uuid)) (name : CStr) (rest : List CStr)
    (found : ℕ) : SubportsFit ports (name :: rest) found ↔
      found < sysdMaxSplitPorts ∧
        SubportsFit ports rest (if (shashFind ports name).isSome then found + 1 else found) := by
  unfold SubportsFit
  cases rest with
  | nil => simp
  | cons next rest =>
    rw [List.dropLast_cons_cons, List.countP_cons]
    simp only [reduceCtorEq, false_or]
    split_ifs <;> omega

theorem exactly_collectSubports (ports : List (CStr × Uuid)) (names : List CStr)
    (found : List Uuid) :
    Exactly C (SubportsFit ports names found.length) (collectSubports ports names found)
      (fun us C' => us = found ++ names.filterMap (shashFind ports) ∧ C' = C) := by
  induction names generalizing found with
  | nil => exact (Exactly.pure ⟨by simp, rfl⟩).congr (by simp [SubportsFit])
  | cons name rest ih =>
    unfold collectSubports
    by_cases hlen : found.length < sysdMaxSplitPorts
    · rw [if_pos hlen]
      cases hfind : shashFind ports name with
      | none =>
        refine ((ih found).congr ?_).mono (fun us C' h => ⟨?_, h.2⟩)
        · simp [subportsFit_cons, hfind, hlen]
        · rw [h.1, List.filterMap_cons, hfind]
      | some child =>
        refine ((ih (found ++ [child])).congr ?_).mono (fun us C' h => ⟨?_, h.2⟩)
        · simp [subportsFit_cons, hfind, hlen]
        · rw [h.1, List.filterMap_cons, hfind]
          simp
    · rw [if_neg hlen]
      intro s _
      refine ⟨fun h => ?_, fun _ => ⟨.badAccess, rfl⟩⟩
      exact absurd ((subportsFit_cons ports name rest found.length).mp h).1 hlen

/-- The columns of a port's row in the end. -/
def portColumns (ext : External) (subsys : Subsystem) (ports : List (CStr × Uuid))
    (intf : YamlPort) : (c : Column) → c.type.Value
  | .interfaceSplitParent => intf.parentPort.bind (shashFind ports)
  | .interfaceSplitChildren => intf.subports.filterMap (shashFind ports)
  | c => interfaceColumns ext subsys intf c

variable {ext : External} {subsys : Subsystem} {ports : List (CStr × Uuid)} {intf : YamlPort}
  {row : Uuid}

theorem always_setSplitParent (hrow : row ∈ C.rows Table.interface)
    (hinit : C.value row Column.interfaceSplitParent = none) :
    Always C (setSplitParent ports intf row) (fun _ C' =>
      C' = C.write row Column.interfaceSplitParent (intf.parentPort.bind (shashFind ports))) := by
  have hnone : C.write row Column.interfaceSplitParent none = C := Cells.write_same hinit
  unfold setSplitParent
  cases intf.parentPort with
  | none => exact .pure hnone.symm
  | some parentPort =>
    rw [Option.bind_some]
    cases hfind : shashFind ports parentPort with
    | none =>
      simp only [hfind]
      exact .pure hnone.symm
    | some parent =>
      simp only [hfind]
      exact always_setCol hrow rfl

theorem exactly_setSplitChildren (hrow : row ∈ C.rows Table.interface)
    (hinit : C.value row Column.interfaceSplitChildren = []) :
    Exactly C (SubportsFit ports intf.subports 0) (setSplitChildren ports intf row) (fun _ C' =>
      C' = C.write row Column.interfaceSplitChildren
        (intf.subports.filterMap (shashFind ports))) := by
  unfold setSplitChildren
  by_cases hnil : intf.subports = []
  · rw [if_pos hnil]
    refine (Exactly.pure ?_).congr (by simp [SubportsFit, hnil])
    rw [hnil]
    exact (Cells.write_same hinit).symm
  · rw [if_neg hnil]
    refine (exactly_collectSubports ports intf.subports []).next (fun us C' h => ?_)
    obtain ⟨rfl, rfl⟩ := h
    exact always_setCol hrow rfl

theorem exactly_splitRound (hrow : row ∈ C.rows Table.interface)
    (hcol : C.value row = interfaceColumns ext subsys intf) :
    Exactly C (SubportsFit ports intf.subports 0)
      (do
        setSplitParent ports intf row
        setSplitChildren ports intf row)
      (fun _ C' => C'.rows = C.rows ∧ C'.value row = portColumns ext subsys ports intf ∧
        ∀ u, u ≠ row → C'.value u = C.value u) := by
  have hparent : C.value row Column.interfaceSplitParent = none := by rw [hcol]; rfl
  refine (always_setSplitParent hrow hparent).seq (fun _ C₁ h₁ => ?_)
  subst h₁
  have hchildren : (C.write row Column.interfaceSplitParent
      (intf.parentPort.bind (shashFind ports))).value row Column.interfaceSplitChildren = [] := by
    rw [Cells.write_value_of_column_ne (by decide), hcol]
    rfl
  have hrow₁ : row ∈ (C.write row Column.interfaceSplitParent
      (intf.parentPort.bind (shashFind ports))).rows Table.interface := hrow
  refine (exactly_setSplitChildren hrow₁ hchildren).mono (fun _ C₂ h₂ => ?_)
  subst h₂
  refine ⟨rfl, ?_, fun u hu => by simp [Cells.write_value_of_row_ne hu]⟩
  simp only [Cells.write, Function.update_self, hcol]
  funext c
  cases c <;> rfl

/-- Each row gets the split columns of its port, every other row stays. -/
theorem exactly_splitLoop {l : List (YamlPort × Uuid)} (hnodup : (l.map Prod.snd).Nodup)
    (hrows : ∀ p ∈ l, p.2 ∈ C.rows Table.interface)
    (hcols : ∀ p ∈ l, C.value p.2 = interfaceColumns ext subsys p.1) :
    Exactly C (∀ p ∈ l, SubportsFit ports p.1.subports 0)
      (l.forM (fun p => do
        setSplitParent ports p.1 p.2
        setSplitChildren ports p.1 p.2))
      (fun _ C' => C'.rows = C.rows ∧
        (∀ p ∈ l, C'.value p.2 = portColumns ext subsys ports p.1) ∧
        ∀ u, u ∉ l.map Prod.snd → C'.value u = C.value u) := by
  induction l generalizing C with
  | nil =>
    refine (Exactly.pure (a := PUnit.unit) ⟨rfl, ?_, fun _ _ => rfl⟩).congr ?_
    · simp
    · simp
  | cons p rest ih =>
    obtain ⟨hnew, hnodup⟩ := List.nodup_cons.mp hnodup
    have hne : ∀ q ∈ rest, q.2 ≠ p.2 := by
      intro q hq heq
      apply hnew
      rw [← heq]
      exact List.mem_map_of_mem hq
    have hcond : (SubportsFit ports p.1.subports 0 ∧
        ∀ q ∈ rest, SubportsFit ports q.1.subports 0) ↔
          ∀ q ∈ p :: rest, SubportsFit ports q.1.subports 0 := by simp
    refine ((exactly_splitRound (hrows p (by simp)) (hcols p (by simp))).bind
      (fun _ C₁ h₁ => ?_)).congr hcond
    obtain ⟨hrows₁, hcols₁, hold₁⟩ := h₁
    refine (ih hnodup ?_ ?_).mono ?_
    · intro q hq
      rw [hrows₁]
      exact hrows q (by simp [hq])
    · intro q hq
      rw [hold₁ q.2 (hne q hq)]
      exact hcols q (by simp [hq])
    · rintro _ C₂ ⟨hrows₂, hcols₂, hold₂⟩
      refine ⟨hrows₂.trans hrows₁, ?_, ?_⟩
      · intro q hq
        rcases List.mem_cons.mp hq with rfl | hq
        · rw [hold₂ q.2 hnew, hcols₁]
        · exact hcols₂ q hq
      · intro u hu
        rw [List.map_cons, List.mem_cons, not_or] at hu
        rw [hold₂ u hu.2, hold₁ u hu.1]

/-- The names under which the index finds a row. -/
def splitNames (subsys : Subsystem) : List CStr :=
  (subsys.interfaces.filter splits).map YamlPort.name

/-- No port names more rows as its subports than the array holds. -/
def SplitsFit (subsys : Subsystem) : Prop :=
  ∀ intf ∈ subsys.interfaces, intf.subports = [] ∨
    intf.subports.dropLast.countP (fun name => name ∈ splitNames subsys) < sysdMaxSplitPorts

instance (subsys : Subsystem) : Decidable (SplitsFit subsys) :=
  inferInstanceAs (Decidable (∀ intf ∈ subsys.interfaces, _ ∨ _))

/-- The ports fit the buffer for their speeds and the array for their subports. -/
structure PortsFit (subsys : Subsystem) : Prop where
  speeds : ∀ intf ∈ subsys.interfaces, SpeedsFit intf
  splits : SplitsFit subsys

theorem portsFit_iff : (∀ intf ∈ subsys.interfaces, SpeedsFit intf) ∧ SplitsFit subsys ↔
    PortsFit subsys := ⟨fun h => ⟨h.1, h.2⟩, fun h => ⟨h.speeds, h.splits⟩⟩

instance (subsys : Subsystem) : Decidable (PortsFit subsys) :=
  decidable_of_iff _ portsFit_iff

theorem shashFind_splitIndex {us : List Uuid} (h : subsys.interfaces.length = us.length)
    (name : CStr) : (shashFind (splitIndex (subsys.interfaces.zip us)) name).isSome =
      decide (name ∈ splitNames subsys) := by
  rw [Bool.eq_iff_iff, decide_eq_true_iff, shashFind, Option.isSome_map, List.find?_isSome]
  have hfst : (subsys.interfaces.zip us).map Prod.fst = subsys.interfaces :=
    List.map_fst_zip h.le
  constructor
  · rintro ⟨q, hq, hname⟩
    obtain ⟨p, hp, rfl⟩ := List.mem_map.mp (List.mem_reverse.mp hq)
    obtain ⟨hzip, hsplits⟩ := List.mem_filter.mp hp
    have hin : p.1 ∈ subsys.interfaces := hfst ▸ List.mem_map_of_mem hzip
    exact List.mem_map.mpr ⟨p.1, List.mem_filter.mpr ⟨hin, hsplits⟩, by simpa using hname⟩
  · intro hname
    obtain ⟨intf, hintf, rfl⟩ := List.mem_map.mp hname
    obtain ⟨hin, hsplits⟩ := List.mem_filter.mp hintf
    rw [← hfst] at hin
    obtain ⟨p, hp, rfl⟩ := List.mem_map.mp hin
    refine ⟨(p.1.name, p.2), ?_, by simp⟩
    exact List.mem_reverse.mpr (List.mem_map_of_mem (List.mem_filter.mpr ⟨hp, hsplits⟩))

/-- A row that the index finds belongs to a port that splits or is split. -/
theorem mem_of_shashFind {l : List (YamlPort × Uuid)} {name : CStr} {u : Uuid}
    (h : shashFind (splitIndex l) name = some u) : u ∈ l.map Prod.snd := by
  obtain ⟨q, hq, rfl⟩ := Option.map_eq_some_iff.mp h
  have hmem := List.mem_reverse.mp (List.mem_of_find?_eq_some hq)
  obtain ⟨p, hp, rfl⟩ := List.mem_map.mp hmem
  exact List.mem_map_of_mem (List.mem_filter.mp hp).1

theorem subportsFit_splitIndex {us : List Uuid} (h : subsys.interfaces.length = us.length)
    (intf : YamlPort) : SubportsFit (splitIndex (subsys.interfaces.zip us)) intf.subports 0 ↔
      intf.subports = [] ∨
        intf.subports.dropLast.countP (fun name => name ∈ splitNames subsys) <
          sysdMaxSplitPorts := by
  unfold SubportsFit
  simp only [shashFind_splitIndex h, Nat.zero_add]

theorem exactly_sysdSetSplittablePortInfo {C₀ : Cells schema} {us : List Uuid}
    (h : C₀.Appended Table.interface (interfaceColumns ext subsys) subsys.interfaces us C) :
    Exactly C (SplitsFit subsys) (sysdSetSplittablePortInfo us subsys) (fun _ C' =>
      C₀.Appended Table.interface
        (portColumns ext subsys (splitIndex (subsys.interfaces.zip us)))
        subsys.interfaces us C') := by
  obtain ⟨hlength, hzip⟩ := List.forall₂_iff_zip.mp h.cols
  have hsnd : (subsys.interfaces.zip us).map Prod.snd = us := List.map_snd_zip hlength.ge
  have hfst : (subsys.interfaces.zip us).map Prod.fst = subsys.interfaces :=
    List.map_fst_zip hlength.le
  have hrows : ∀ p ∈ subsys.interfaces.zip us, p.2 ∈ C.rows Table.interface := by
    intro p hp
    rw [h.rows]
    exact List.mem_append_right _ (hsnd ▸ List.mem_map_of_mem hp)
  have hcols : ∀ p ∈ subsys.interfaces.zip us, C.value p.2 = interfaceColumns ext subsys p.1 :=
    fun p hp => hzip hp
  have hnamed : Named C (subsys.interfaces.zip us) :=
    fun p hp => ⟨hrows p hp, by rw [hcols p hp]; rfl⟩
  have hnodup : ((subsys.interfaces.zip us).map Prod.snd).Nodup := by
    rw [hsnd]
    exact h.distinct
  have hcond : (∀ p ∈ subsys.interfaces.zip us,
      SubportsFit (splitIndex (subsys.interfaces.zip us)) p.1.subports 0) ↔ SplitsFit subsys := by
    simp only [subportsFit_splitIndex hlength]
    constructor
    · intro hfits intf hintf
      rw [← hfst] at hintf
      obtain ⟨p, hp, rfl⟩ := List.mem_map.mp hintf
      exact hfits p hp
    · intro hfits p hp
      exact hfits p.1 (hfst ▸ List.mem_map_of_mem hp)
  unfold sysdSetSplittablePortInfo
  refine (always_splitPorts hnamed).seq (fun ports C₁ h₁ => ?_)
  obtain ⟨rfl, rfl⟩ := h₁
  refine ((exactly_splitLoop hnodup hrows hcols).congr hcond).mono ?_
  rintro _ C₂ ⟨hrows₂, hcols₂, hold₂⟩
  rw [hsnd] at hold₂
  refine ⟨?_, ?_, h.fresh, h.distinct, ?_, ?_⟩
  · rw [hrows₂, h.rows]
  · intro k hk
    rw [hrows₂, h.other k hk]
  · exact List.forall₂_iff_zip.mpr ⟨hlength, fun hp => hcols₂ _ hp⟩
  · intro u hu
    rw [hold₂ u hu, h.old u hu]

end SplitPorts

section Tables

variable {C : Cells schema} {ext : External} {sys : Uuid}

/-- A subsystem's row, the rows of its ports and what the columns say of them. -/
structure SubsystemAdded (ext : External) (subsys : Subsystem) (C : Cells schema) (sub : Uuid)
    (intfs : List Uuid) (C' : Cells schema) : Prop where
  keeps : C.Extends [Table.subsystem, Table.interface] [] C'
  subsystemRows : C'.rows Table.subsystem = C.rows Table.subsystem ++ [sub]
  interfaceRows : C'.rows Table.interface = C.rows Table.interface ++ intfs
  new : ∀ u ∈ intfs, ∀ k, u ∉ C.rows k
  distinct : intfs.Nodup
  ports : List.Forall₂ (fun intf u => C'.value u =
    portColumns ext subsys (splitIndex (subsys.interfaces.zip intfs)) intf) subsys.interfaces intfs
  interfaces : C'.value sub Column.subsystemInterfaces = intfs
  nextMacAddress : C'.value sub Column.subsystemNextMacAddress = ext.etherString subsys.nxtMacAddr
  macsRemaining : C'.value sub Column.subsystemMacsRemaining = subsys.numFreeMacs

/-- The row before its ports are added. -/
def subsystemHeader (st : Startup) (subsys : Subsystem) (C : Cells schema) (sub : Uuid) :
    Cells schema :=
  (((C.insert Table.subsystem sub).write sub Column.subsystemName subsys.name).write sub
    Column.subsystemAssetTagNumber dfltAssetTag).write sub Column.subsystemHwDescDir st.hwDescDir
      |>.write sub Column.subsystemOtherInfo (datumFromSmap (subsystemOtherInfo subsys))

theorem extends_subsystemHeader (st : Startup) (subsys : Subsystem) {sub : Uuid}
    (hsub : C.Fresh sub) :
    C.Extends [Table.subsystem, Table.interface] [] (subsystemHeader st subsys C sub) :=
  ((((Cells.Extends.refl C).insert (by decide) sub).writeNew hsub.rows _ _).writeNew hsub.rows _ _
    |>.writeNew hsub.rows _ _).writeNew hsub.rows _ _

theorem exactly_addSubsystemRow {α : Type} {p : Prop} {Q : α → Cells schema → Prop}
    {f : Uuid → OvsM α} (st : Startup) (subsys : Subsystem)
    (h : ∀ sub, C.Fresh sub → Exactly (subsystemHeader st subsys C sub) p (f sub) Q) :
    Exactly C p (addSubsystemRow st subsys >>= f) Q := by
  unfold addSubsystemRow
  simp only [bind_assoc, pure_bind]
  refine exactly_insert (fun sub hsub => ?_)
  have hmem : sub ∈ (C.insert Table.subsystem sub).rows Table.subsystem := Cells.mem_insert_self
  exact exactly_setCol hmem (exactly_setCol hmem (exactly_setCol hmem (exactly_setCol hmem
    (h sub hsub))))

theorem exactly_sysdInitialSubsystemAdd (st : Startup) {alloc : Allocations}
    (halloc : alloc.interfaces = true) (subsys : Subsystem) :
    Exactly C (PortsFit subsys) (sysdInitialSubsystemAdd st alloc subsys) (fun sub C' =>
      ∃ intfs, SubsystemAdded st.external subsys C sub intfs C') := by
  refine exactly_addSubsystemRow st subsys (fun sub hsub => ?_)
  have hmem : sub ∈ (C.insert Table.subsystem sub).rows Table.subsystem := Cells.mem_insert_self
  rw [halloc, if_neg (by decide)]
  have hkeeps := extends_subsystemHeader st subsys hsub
  have hrows : (subsystemHeader st subsys C sub).rows = (C.insert Table.subsystem sub).rows := rfl
  generalize subsystemHeader st subsys C sub = C₀ at hkeeps hrows ⊢
  refine Exactly.congr (Exactly.bind (Exactly.mapM subsys.interfaces _
    (fun intf _ _ => exactly_sysdInitialInterfaceAdd intf)) (fun intfs C₁ h₁ => ?_)) portsFit_iff
  refine (exactly_sysdSetSplittablePortInfo h₁).next (fun _ C₂ h₂ => ?_)
  have hsub₂ : sub ∈ C₂.rows Table.subsystem := by
    rw [h₂.other _ (by decide), hrows]
    exact hmem
  refine exactly_setCol hsub₂ (exactly_setCol hsub₂ (exactly_setCol hsub₂ (.pure ⟨intfs, ?_⟩)))
  have hne : ∀ u ∈ intfs, u ≠ sub := by
    rintro u hu rfl
    apply (h₂.fresh u hu).rows Table.subsystem
    rw [hrows]
    exact hmem
  obtain ⟨hlength, hzip⟩ := List.forall₂_iff_zip.mp h₂.cols
  constructor
  · exact ((hkeeps.step h₂.extends (by decide) (by decide)).writeNew hsub.rows _ _
      |>.writeNew hsub.rows _ _).writeNew hsub.rows _ _
  · show C₂.rows Table.subsystem = _
    rw [h₂.other _ (by decide), hrows, Cells.insert_rows]
  · show C₂.rows Table.interface = _
    rw [h₂.rows, hrows, Cells.insert_rows_of_ne (by decide)]
  · exact fun u hu => hkeeps.new (h₂.fresh u hu).rows
  · exact h₂.distinct
  · refine List.forall₂_iff_zip.mpr ⟨hlength, fun {intf u} hp => ?_⟩
    have hu : u ≠ sub := hne u (List.of_mem_zip hp).2
    rw [Cells.write_value_of_row_ne hu, Cells.write_value_of_row_ne hu,
      Cells.write_value_of_row_ne hu]
    exact hzip hp
  · exact Cells.write_value
  · rw [Cells.write_value_of_column_ne (by decide), Cells.write_value_of_column_ne (by decide)]
    exact Cells.write_value
  · rw [Cells.write_value_of_column_ne (by decide)]
    exact Cells.write_value

/-- Without the array of interfaces only the row is added. -/
theorem always_sysdInitialSubsystemAdd_header (st : Startup) {alloc : Allocations}
    (halloc : alloc.interfaces = false) (subsys : Subsystem) :
    Always C (sysdInitialSubsystemAdd st alloc subsys) (fun sub C' =>
      C.Extends [Table.subsystem, Table.interface] [] C' ∧
        C'.rows = (C.insert Table.subsystem sub).rows ∧
          C'.value sub Column.subsystemNextMacAddress = []) := by
  refine exactly_addSubsystemRow st subsys (fun sub hsub => ?_)
  rw [halloc, if_pos rfl]
  refine .pure ⟨extends_subsystemHeader st subsys hsub, rfl, ?_⟩
  unfold subsystemHeader
  rw [Cells.write_value_of_column_ne (by decide), Cells.write_value_of_column_ne (by decide),
    Cells.write_value_of_column_ne (by decide), Cells.write_value_of_column_ne (by decide)]
  exact congrFun hsub.value Column.subsystemNextMacAddress

/-- What the default bridge, its interface and its port say. -/
structure BridgeDefaults (ext : External) (bridge iface port : Uuid) (C : Cells schema) :
    Prop where
  bridgeName : C.value bridge Column.bridgeName = ext.defaultBridgeName
  interfaceName : C.value iface Column.interfaceName = ext.defaultBridgeName
  interfaceType : C.value iface Column.interfaceType = ext.interfaceTypeInternal
  userConfig : C.value iface Column.interfaceUserConfig =
    datumFromSmap [(ext.userConfigAdmin, ext.userConfigAdminUp)]
  portName : C.value port Column.portName = ext.defaultBridgeName

/-- What the default VRF says. -/
structure VrfDefaults (ext : External) (vrf : Uuid) (C : Cells schema) : Prop where
  name : C.value vrf Column.vrfName = ext.defaultVrfName
  tableId : C.value vrf Column.vrfTableId = 0 :: ext.afterTableId
  status : C.value vrf Column.vrfStatus = datumFromSmap [(ext.vrfStatusKey, ext.vrfStatusValue)]

/-- The default bridge, its port and its interface. -/
structure BridgeAdded (ext : External) (sys : Uuid) (C : Cells schema) (bridge iface port : Uuid)
    (C' : Cells schema) : Prop where
  keeps : C.Extends [Table.bridge, Table.interface, Table.port] [Column.systemBridges] C'
  bridgeRows : C'.rows Table.bridge = C.rows Table.bridge ++ [bridge]
  interfaceRows : C'.rows Table.interface = C.rows Table.interface ++ [iface]
  portRows : C'.rows Table.port = C.rows Table.port ++ [port]
  bridges : C'.value sys Column.systemBridges = [bridge]
  ports : C'.value bridge Column.bridgePorts = [port]
  interfaces : C'.value port Column.portInterfaces = [iface]
  hwIntfInfo :
    C'.value iface Column.interfaceHwIntfInfo = datumFromSmap [(ext.bridge, ext.bridgeTrue)]
  splitParent : C'.value iface Column.interfaceSplitParent = none
  splitChildren : C'.value iface Column.interfaceSplitChildren = []
  defaults : BridgeDefaults ext bridge iface port C'

theorem exactly_addBridgeInterface {α : Type} {p : Prop} {Q : α → Cells schema → Prop}
    {f : Uuid → OvsM α} (ext : External) (h : ∀ iface, C.Fresh iface →
      Exactly (((((C.insert Table.interface iface).write iface Column.interfaceName
        ext.defaultBridgeName).write iface Column.interfaceType ext.interfaceTypeInternal).write
          iface Column.interfaceHwIntfInfo (datumFromSmap [(ext.bridge, ext.bridgeTrue)])).write
            iface Column.interfaceUserConfig (datumFromSmap
              [(ext.userConfigAdmin, ext.userConfigAdminUp)])) p (f iface) Q) :
    Exactly C p (addBridgeInterface ext >>= f) Q := by
  unfold addBridgeInterface
  simp only [bind_assoc, pure_bind]
  refine exactly_insert (fun iface hiface => ?_)
  have hmem : iface ∈ (C.insert Table.interface iface).rows Table.interface :=
    Cells.mem_insert_self
  exact exactly_setCol hmem (exactly_setCol hmem (exactly_setCol hmem (exactly_setCol hmem
    (h iface hiface))))

theorem always_sysdConfigureDefaultBridge (ext : External) (hsys : sys ∈ C.rows Table.system) :
    Always C (sysdConfigureDefaultBridge ext sys) (fun _ C' =>
      ∃ bridge iface port, BridgeAdded ext sys C bridge iface port C') := by
  refine exactly_insert (fun bridge hbridge => ?_)
  have hbridge₁ : bridge ∈ (C.insert Table.bridge bridge).rows Table.bridge :=
    Cells.mem_insert_self
  have hsys₁ : sys ∈ (C.insert Table.bridge bridge).rows Table.system :=
    Cells.mem_insert_of_mem hsys
  refine exactly_setCol hbridge₁ (exactly_setCol hsys₁
    (exactly_addBridgeInterface ext (fun iface hiface => exactly_insert (fun port hport => ?_))))
  have hport₃ : port ∈ (((C.insert Table.bridge bridge).insert Table.interface iface).insert
      Table.port port).rows Table.port := Cells.mem_insert_self
  have hbridge₃ : bridge ∈ (((C.insert Table.bridge bridge).insert Table.interface iface).insert
      Table.port port).rows Table.bridge :=
    Cells.mem_insert_of_mem (Cells.mem_insert_of_mem hbridge₁)
  refine exactly_setCol hport₃ (exactly_setCol hport₃ (always_setCol hbridge₃
    ⟨bridge, iface, port, ?_⟩))
  have hiface' : ∀ k, iface ∉ C.rows k := fun k hmem => hiface.rows k (Cells.mem_insert_of_mem hmem)
  have hport' : ∀ k, port ∉ C.rows k := fun k hmem =>
    hport.rows k (Cells.mem_insert_of_mem (Cells.mem_insert_of_mem hmem))
  constructor
  · refine ((?_ : Cells.Extends _ _ C _).writeNew hport' _ _ |>.writeNew hport' _ _).writeNew
      hbridge.rows _ _
    refine Cells.Extends.insert ?_ (by decide) port
    refine ((?_ : Cells.Extends _ _ C _).writeNew hiface' _ _ |>.writeNew hiface' _ _
      |>.writeNew hiface' _ _).writeNew hiface' _ _
    refine Cells.Extends.insert ?_ (by decide) iface
    exact ((Cells.Extends.refl C).insert (by decide) bridge |>.writeNew hbridge.rows _ _).write
      (by decide) sys _
  · simp [Cells.insert]
  · simp [Cells.insert]
  · simp [Cells.insert]
  · simp [Cells.write_value_of_column_ne, Cells.write_value]
  · simp [Cells.write_value]
  · simp [Cells.write_value_of_column_ne, Cells.write_value]
  · simp [Cells.write_value_of_column_ne, Cells.write_value]
  · have hinit := congrFun hiface.value Column.interfaceSplitParent
    simp only [Cells.write_value_of_column_ne, ne_eq, reduceCtorEq, not_false_eq_true,
      Cells.insert_value] at hinit ⊢
    exact hinit
  · have hinit := congrFun hiface.value Column.interfaceSplitChildren
    simp only [Cells.write_value_of_column_ne, ne_eq, reduceCtorEq, not_false_eq_true,
      Cells.insert_value] at hinit ⊢
    exact hinit
  · constructor <;> simp [Cells.write_value_of_column_ne, Cells.write_value]

theorem always_sysdConfigureDefaultVrf (ext : External) (hsys : sys ∈ C.rows Table.system) :
    Always C (sysdConfigureDefaultVrf ext sys) (fun _ C' =>
      C.Extends [Table.vrf] [Column.systemVrfs] C' ∧
        ∃ vrf, C'.rows Table.vrf = C.rows Table.vrf ++ [vrf] ∧
          C'.value sys Column.systemVrfs = [vrf] ∧ VrfDefaults ext vrf C') := by
  refine exactly_insert (fun vrf hvrf => ?_)
  have hvrf₁ : vrf ∈ (C.insert Table.vrf vrf).rows Table.vrf := Cells.mem_insert_self
  have hsys₁ : sys ∈ (C.insert Table.vrf vrf).rows Table.system := Cells.mem_insert_of_mem hsys
  refine exactly_setCol hvrf₁ (exactly_setCol hsys₁ (exactly_setCol hvrf₁
    (exactly_getCol hvrf₁ (always_setCol hvrf₁ ⟨?_, vrf, ?_, ?_, ?_⟩))))
  · refine ((?_ : Cells.Extends _ _ C _).writeNew hvrf.rows _ _).writeNew hvrf.rows _ _
    exact ((Cells.Extends.refl C).insert (by decide) vrf |>.writeNew hvrf.rows _ _).write
      (by decide) sys _
  · simp [Cells.insert]
  · simp [Cells.write_value_of_column_ne, Cells.write_value]
  · have hinit := congrFun hvrf.value Column.vrfStatus
    constructor
    · simp [Cells.write_value_of_column_ne, Cells.write_value]
    · simp [Cells.write_value_of_column_ne, Cells.write_value]
    · simp only [Cells.write_value, Cells.write_value_of_column_ne, ne_eq, reduceCtorEq,
        not_false_eq_true, Cells.insert_value]
      rw [show C.value vrf Column.vrfStatus = [] from hinit]
      rfl

theorem always_addDaemons (st : Startup) (hsys : sys ∈ C.rows Table.system)
    (hinit : C.value sys Column.systemDaemons = []) :
    Always C (addDaemons st sys) (fun _ C' =>
      C.Extends [Table.daemon] [Column.systemDaemons] C' ∧
        ∃ ds, C'.rows Table.daemon = C.rows Table.daemon ++ ds ∧
          C'.value sys Column.systemDaemons = ds ∧
            List.Forall₂ (fun daemon u => C'.value u = daemonColumns daemon)
              st.manifest.daemons ds) := by
  unfold addDaemons
  by_cases hnil : st.manifest.daemons = []
  · rw [if_pos hnil, hnil]
    exact .pure ⟨.refl C, [], by simp, hinit, .nil⟩
  · rw [if_neg hnil]
    refine Exactly.seq (Always.mapM st.manifest.daemons C
      (fun daemon _ _ => always_sysdInitialDaemonAdd daemon)) (fun ds C₁ h₁ => ?_)
    have hsys₁ : sys ∈ C₁.rows Table.system := by
      rw [h₁.other _ (by decide)]
      exact hsys
    refine always_setCol hsys₁ ⟨?_, ds, h₁.rows, Cells.write_value, ?_⟩
    · exact ((Cells.Extends.refl C).step h₁.extends (by decide) (by decide)).write (by decide) sys _
    · obtain ⟨hlength, hzip⟩ := List.forall₂_iff_zip.mp h₁.cols
      refine List.forall₂_iff_zip.mpr ⟨hlength, fun {daemon u} hp => ?_⟩
      have hne : u ≠ sys := by
        rintro rfl
        exact (h₁.fresh u (List.of_mem_zip hp).2).rows _ hsys
      rw [Cells.write_value_of_row_ne hne]
      exact hzip hp

theorem always_setColOpt {u : Uuid} {c : Column} (v : Option c.type.Value)
    (hu : u ∈ C.rows c.table) :
    Always C (setColOpt u c v) (fun _ C' => C.Extends [] [c] C') := by
  cases v with
  | none => exact .pure (.refl C)
  | some v => exact always_setCol hu ((Cells.Extends.refl C).write (by simp) u v)

theorem always_sysdUpdateSwInfo (osNameKey : CStr) (file : Option (List CStr))
    (hsys : sys ∈ C.rows Table.system) :
    Always C (SoftwareInfo.sysdUpdateSwInfo osNameKey file sys) (fun _ C' =>
      C.Extends [] [Column.systemSoftwareInfo, Column.systemSwitchVersion] C') := by
  unfold SoftwareInfo.sysdUpdateSwInfo
  cases file with
  | none => exact .pure (.refl C)
  | some lines =>
    refine (always_setColOpt _ hsys).seq (fun _ C₁ h₁ => ?_)
    refine (always_setColOpt _ (h₁.kept _ _ hsys)).mono (fun _ C₂ h₂ => ?_)
    exact ((Cells.Extends.refl C).step h₁ (by decide) (by decide)).step h₂ (by decide) (by decide)

end Tables

end OpsSysd.InitialConfigure
