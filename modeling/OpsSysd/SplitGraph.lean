import OpsSysd.ConfigureRows

/-!
The split ports in the database are those of the description. The index by
names holds the ports that split or are split, wherever they stand in the list;
names that it does not hold are passed over.
-/

namespace OpsSysd.InitialConfigure

open CString Ovsdb Ovsrec Platform

/-- The rows of the ports, as the loop of `sysd_initial_subsystem_add` adds them,
and their split columns. -/
def addPorts (ext : External) (subsys : Subsystem) : OvsM (List Uuid) := do
  let ovsIntf ← subsys.interfaces.mapM (sysdInitialInterfaceAdd ext subsys)
  sysdSetSplittablePortInfo ovsIntf subsys
  return ovsIntf

theorem sysdInitialSubsystemAdd_addPorts (st : Startup) {alloc : Allocations}
    (halloc : alloc.interfaces = true) (subsys : Subsystem) :
    sysdInitialSubsystemAdd st alloc subsys = (do
      let ovsSubsys ← addSubsystemRow st subsys
      let ovsIntf ← addPorts st.external subsys
      setCol ovsSubsys .subsystemNextMacAddress (st.external.etherString subsys.nxtMacAddr)
      setCol ovsSubsys .subsystemMacsRemaining subsys.numFreeMacs
      setCol ovsSubsys .subsystemInterfaces ovsIntf
      return ovsSubsys) := by
  unfold sysdInitialSubsystemAdd addPorts
  simp only [halloc, Bool.true_eq_false, if_false, bind_assoc, pure_bind]

/-- Every port is named by the ports that it names. -/
def Consistent (subsys : Subsystem) : Prop :=
  ∀ p ∈ subsys.interfaces, ∀ q ∈ subsys.interfaces,
    q.name ∈ p.subports ↔ q.parentPort = some p.name

/-- The split columns of the rows `us` of the ports; nothing else differs between
the cells. -/
structure SplitGraph (subsys : Subsystem) (us : List Uuid) (C C' : Cells schema) : Prop where
  length : us.length = subsys.interfaces.length
  parent : ∀ p ∈ subsys.interfaces.zip us, ∀ q ∈ subsys.interfaces.zip us,
    C'.value p.2 Column.interfaceSplitParent = some q.2 ↔
      p.1.parentPort = some q.1.name ∧ splits q.1
  parentRow : ∀ p ∈ subsys.interfaces.zip us, ∀ u,
    C'.value p.2 Column.interfaceSplitParent = some u → u ∈ us
  children : ∀ p ∈ subsys.interfaces.zip us, p.1.subports ≠ [] → ∀ u,
    u ∈ C'.value p.2 Column.interfaceSplitChildren ↔
      ∃ q ∈ subsys.interfaces.zip us, q.2 = u ∧ q.1.name ∈ p.1.subports ∧ splits q.1
  rows : C'.rows = C.rows
  noParent : ∀ p ∈ subsys.interfaces.zip us, p.1.parentPort = none →
    C'.value p.2 Column.interfaceSplitParent = C.value p.2 Column.interfaceSplitParent
  noChildren : ∀ p ∈ subsys.interfaces.zip us, p.1.subports = [] →
    C'.value p.2 Column.interfaceSplitChildren = C.value p.2 Column.interfaceSplitChildren
  columns : ∀ p ∈ subsys.interfaces.zip us, ∀ c, c ≠ Column.interfaceSplitParent →
    c ≠ Column.interfaceSplitChildren → C'.value p.2 c = C.value p.2 c
  others : ∀ u, u ∉ us → C'.value u = C.value u
  inverse : Consistent subsys → ∀ p ∈ subsys.interfaces.zip us, ∀ q ∈ subsys.interfaces.zip us,
    C'.value q.2 Column.interfaceSplitParent = some p.2 ↔
      q.2 ∈ C'.value p.2 Column.interfaceSplitChildren

/-- From the cells `C` the ports are added, if the buffer for their speeds is large enough;
ports that are there are then linked as their description says. -/
structure AddsSplitGraph (ext : External) (subsys : Subsystem) (C : Cells schema) : Prop where
  adds : Exactly C (∀ intf ∈ subsys.interfaces, SpeedsFit intf) (addPorts ext subsys)
    (fun us C' => ∃ C₁,
      C.Appended Table.interface (interfaceColumns ext subsys) subsys.interfaces us C₁ ∧
        SplitGraph subsys us C₁ C')
  links : ∀ us C₁, C.Appended Table.interface (interfaceColumns ext subsys) subsys.interfaces us C₁ →
    Always C₁ (sysdSetSplittablePortInfo us subsys) (fun _ C' => SplitGraph subsys us C₁ C')

section Index

variable {subsys : Subsystem} {us : List Uuid}

/-- The index finds the row of the port with the name, if that splits or is split. -/
theorem shashFind_iff (hnames : (subsys.interfaces.map YamlPort.name).Nodup)
    (hlength : subsys.interfaces.length = us.length) (name : CStr) (u : Uuid) :
    shashFind (splitIndex (subsys.interfaces.zip us)) name = some u ↔
      ∃ q ∈ subsys.interfaces.zip us, q.2 = u ∧ q.1.name = name ∧ splits q.1 := by
  have hfst : (subsys.interfaces.zip us).map Prod.fst = subsys.interfaces :=
    List.map_fst_zip hlength.le
  have hnodup : ((subsys.interfaces.zip us).map (fun p => p.1.name)).Nodup := by
    rw [← hfst, List.map_map] at hnames
    exact hnames
  have hfound : ∀ v, shashFind (splitIndex (subsys.interfaces.zip us)) name = some v →
      ∃ q ∈ subsys.interfaces.zip us, q.2 = v ∧ q.1.name = name ∧ splits q.1 := by
    intro v hv
    obtain ⟨e, he, rfl⟩ := Option.map_eq_some_iff.mp hv
    obtain ⟨q, hq, rfl⟩ := List.mem_map.mp (List.mem_reverse.mp (List.mem_of_find?_eq_some he))
    obtain ⟨hzip, hsplits⟩ := List.mem_filter.mp hq
    exact ⟨q, hzip, rfl, by simpa using List.find?_some he, by simpa using hsplits⟩
  refine ⟨hfound u, ?_⟩
  rintro ⟨q, hq, rfl, rfl, hsplits⟩
  have hin : q.1 ∈ subsys.interfaces := (List.of_mem_zip hq).1
  have hsome : (shashFind (splitIndex (subsys.interfaces.zip us)) q.1.name).isSome = true := by
    rw [shashFind_splitIndex hlength, decide_eq_true_iff]
    exact List.mem_map_of_mem (List.mem_filter.mpr ⟨hin, by simpa using hsplits⟩)
  obtain ⟨v, hv⟩ := Option.isSome_iff_exists.mp hsome
  obtain ⟨q', hq', rfl, hname, _⟩ := hfound v hv
  rw [hv, List.inj_on_of_nodup_map hnodup hq' hq hname]

/-- A row stands for one port. -/
theorem zip_row_inj (hlength : subsys.interfaces.length = us.length) (hus : us.Nodup)
    {p q : YamlPort × Uuid} (hp : p ∈ subsys.interfaces.zip us)
    (hq : q ∈ subsys.interfaces.zip us) (h : p.2 = q.2) : p = q := by
  have hnodup : ((subsys.interfaces.zip us).map Prod.snd).Nodup := by
    rw [List.map_snd_zip hlength.ge]
    exact hus
  exact List.inj_on_of_nodup_map hnodup hp hq h

theorem bind_shashFind_iff (hnames : (subsys.interfaces.map YamlPort.name).Nodup)
    (hlength : subsys.interfaces.length = us.length) (hus : us.Nodup) (name : Option CStr)
    {q : YamlPort × Uuid} (hq : q ∈ subsys.interfaces.zip us) :
    name.bind (shashFind (splitIndex (subsys.interfaces.zip us))) = some q.2 ↔
      name = some q.1.name ∧ splits q.1 := by
  constructor
  · intro hbind
    obtain ⟨name, hname, hrow⟩ := Option.bind_eq_some_iff.mp hbind
    obtain ⟨q', hq', hu, rfl, hsplits⟩ := (shashFind_iff hnames hlength name q.2).mp hrow
    rw [zip_row_inj hlength hus hq' hq hu] at hname hsplits
    exact ⟨hname, hsplits⟩
  · rintro ⟨hname, hsplits⟩
    rw [hname, Option.bind_some]
    exact (shashFind_iff hnames hlength q.1.name q.2).mpr ⟨q, hq, rfl, rfl, hsplits⟩

theorem mem_filterMap_shashFind_iff (hnames : (subsys.interfaces.map YamlPort.name).Nodup)
    (hlength : subsys.interfaces.length = us.length) (names : List CStr) (u : Uuid) :
    u ∈ names.filterMap (shashFind (splitIndex (subsys.interfaces.zip us))) ↔
      ∃ q ∈ subsys.interfaces.zip us, q.2 = u ∧ q.1.name ∈ names ∧ splits q.1 := by
  rw [List.mem_filterMap]
  constructor
  · rintro ⟨name, hname, hrow⟩
    obtain ⟨q, hq, hu, rfl, hsplits⟩ := (shashFind_iff hnames hlength name u).mp hrow
    exact ⟨q, hq, hu, hname, hsplits⟩
  · rintro ⟨q, hq, hu, hname, hsplits⟩
    exact ⟨q.1.name, hname, (shashFind_iff hnames hlength q.1.name u).mpr ⟨q, hq, hu, rfl, hsplits⟩⟩

/-- At most four subports a port fit the array, whichever of them exist. -/
theorem splitsFit_of_length (h : ∀ p ∈ subsys.interfaces, p.subports.length ≤ sysdMaxSplitPorts) :
    SplitsFit subsys := by
  intro p hp
  by_cases hnil : p.subports = []
  · exact .inl hnil
  · have hpos := List.length_pos_of_ne_nil hnil
    have hle := h p hp
    have hcount := @List.countP_le_length _ (fun name => decide (name ∈ splitNames subsys))
      p.subports.dropLast
    rw [List.length_dropLast] at hcount
    exact .inr (by omega)

end Index

section Graph

variable {ext : External} {subsys : Subsystem} {us : List Uuid} {C₀ C C' : Cells schema}

theorem splitGraph_of_columns (hnames : (subsys.interfaces.map YamlPort.name).Nodup)
    (h : C₀.Appended Table.interface (interfaceColumns ext subsys) subsys.interfaces us C)
    (h' : C₀.Appended Table.interface
      (portColumns ext subsys (splitIndex (subsys.interfaces.zip us))) subsys.interfaces us C') :
    SplitGraph subsys us C C' := by
  obtain ⟨hlength, hcols⟩ := List.forall₂_iff_zip.mp h.cols
  obtain ⟨_, hcols'⟩ := List.forall₂_iff_zip.mp h'.cols
  have hparent : ∀ p ∈ subsys.interfaces.zip us, C'.value p.2 Column.interfaceSplitParent =
      p.1.parentPort.bind (shashFind (splitIndex (subsys.interfaces.zip us))) :=
    fun p hp => congrFun (hcols' hp) Column.interfaceSplitParent
  have hchildren : ∀ p ∈ subsys.interfaces.zip us, C'.value p.2 Column.interfaceSplitChildren =
      p.1.subports.filterMap (shashFind (splitIndex (subsys.interfaces.zip us))) :=
    fun p hp => congrFun (hcols' hp) Column.interfaceSplitChildren
  have hparentIff : ∀ p ∈ subsys.interfaces.zip us, ∀ q ∈ subsys.interfaces.zip us,
      C'.value p.2 Column.interfaceSplitParent = some q.2 ↔
        p.1.parentPort = some q.1.name ∧ splits q.1 := by
    intro p hp q hq
    rw [hparent p hp]
    exact bind_shashFind_iff hnames hlength h.distinct _ hq
  have hchildrenIff : ∀ p ∈ subsys.interfaces.zip us, ∀ u,
      u ∈ C'.value p.2 Column.interfaceSplitChildren ↔
        ∃ q ∈ subsys.interfaces.zip us, q.2 = u ∧ q.1.name ∈ p.1.subports ∧ splits q.1 := by
    intro p hp u
    rw [hchildren p hp]
    exact mem_filterMap_shashFind_iff hnames hlength _ u
  refine ⟨hlength.symm, hparentIff, ?_, fun p hp _ => hchildrenIff p hp, ?_, ?_, ?_, ?_, ?_, ?_⟩
  · intro p hp u hu
    rw [hparent p hp] at hu
    obtain ⟨name, _, hrow⟩ := Option.bind_eq_some_iff.mp hu
    obtain ⟨q, hq, rfl, _⟩ := (shashFind_iff hnames hlength name u).mp hrow
    exact (List.of_mem_zip hq).2
  · funext k
    by_cases hk : k = Table.interface
    · rw [hk, h'.rows, h.rows]
    · rw [h'.other k hk, h.other k hk]
  · intro p hp hnone
    rw [hparent p hp, hnone, hcols hp]
    rfl
  · intro p hp hnil
    rw [hchildren p hp, hnil, hcols hp]
    rfl
  · intro p hp c hparent hchildren
    rw [hcols' hp, hcols hp]
    cases c <;> first | rfl | exact absurd rfl hparent | exact absurd rfl hchildren
  · intro u hu
    rw [h'.old u hu, h.old u hu]
  · intro hconsistent p hp q hq
    rw [hparentIff q hq p hp, hchildrenIff p hp]
    have hname := hconsistent p.1 (List.of_mem_zip hp).1 q.1 (List.of_mem_zip hq).1
    constructor
    · rintro ⟨hparentPort, _⟩
      exact ⟨q, hq, rfl, hname.mpr hparentPort, .inr (by rw [hparentPort]; rfl)⟩
    · rintro ⟨q', hq', hu, hsub, _⟩
      rw [zip_row_inj hlength h.distinct hq' hq hu] at hsub
      exact ⟨hname.mp hsub, .inl (List.ne_nil_of_mem hsub)⟩

/-- For every list of ports with distinct names and at most four subports each. -/
theorem addsSplitGraph (ext : External) {subsys : Subsystem} (C : Cells schema)
    (hnames : (subsys.interfaces.map YamlPort.name).Nodup)
    (hsubports : ∀ p ∈ subsys.interfaces, p.subports.length ≤ sysdMaxSplitPorts) :
    AddsSplitGraph ext subsys C := by
  have hfits := splitsFit_of_length hsubports
  have hlinks : ∀ us C₁,
      C.Appended Table.interface (interfaceColumns ext subsys) subsys.interfaces us C₁ →
        Always C₁ (sysdSetSplittablePortInfo us subsys)
          (fun _ C' => SplitGraph subsys us C₁ C') := fun us C₁ h₁ =>
    ((exactly_sysdSetSplittablePortInfo h₁).congr (iff_true_intro hfits)).mono
      (fun _ C₂ h₂ => splitGraph_of_columns hnames h₁ h₂)
  refine ⟨?_, hlinks⟩
  unfold addPorts
  refine (Exactly.mapM subsys.interfaces C
    (fun intf _ _ => exactly_sysdInitialInterfaceAdd intf)).next (fun us C₁ h₁ => ?_)
  exact (hlinks us C₁ h₁).seq (fun _ C₂ h₂ => .pure ⟨C₁, h₁, h₂⟩)

/-- A subport before its port, one that is not there and a parent that is not there. -/
def danglingPorts : Subsystem :=
  ⟨cstr "base", ⟨3, 40000, 9192, 256, 8, 1⟩,
    [⟨cstr "49-1", true, cstr "QSFP_PLUS", 10000, [10000], 0, 1, [], [], some (cstr "49")⟩,
      ⟨cstr "49", true, cstr "QSFP_PLUS", 40000, [40000], 0, 1, [],
        [cstr "49-1", cstr "49-2"], none⟩,
      ⟨cstr "1", true, cstr "SFP_PLUS", 10000, [10000], 0, 2, [], [], some (cstr "50")⟩],
    .zero, 0, 0, 0, 0⟩

theorem addsSplitGraph_dangling :
    AddsSplitGraph default danglingPorts (Txn.empty : Txn schema).cells :=
  addsSplitGraph default _ (by decide) (by decide)

end Graph

end OpsSysd.InitialConfigure
