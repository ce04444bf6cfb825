import OpsSysd.ArrayCalls
import OpsSysd.ConfigureComplete

/-!
Which calls of the initial configuration pass more than their array holds. The
table id of the default VRF always does, since the size of the variable in bytes
is passed for the number of its elements. The array of subports is too small
for a port with five; every other array has room for what is stored in it.
-/

namespace OpsSysd.ArrayCalls

open CString Ovsdb Ovsrec Platform QosInit Logged
open InitialConfigure (Allocations SplitsFit SubportsFit splitIndex interfaceColumns shashFind
  subportsFit_cons subportsFit_splitIndex exactly_insert always_setCol)

/-- The calls other than the one for the table id. -/
def ArrayCall.Bounded (call : ArrayCall) : Prop := call.column ≠ .vrfTableId → call.InBounds

section Arrays

variable {α β : Type} {size count : ℕ} {column : Column} {I : Idl schema → Prop}
  {array : LocalArray α size}

theorem inBounds_pass (column : Column) (h : count ≤ array.elements.length) :
    ArrayCall.InBounds ⟨column, size, array.stores, some count⟩ := by
  refine ⟨array.inside, fun n hn => ?_⟩
  cases hn
  exact ⟨h.trans array.length_le, fun i hi => array.stored i (hi.trans_le h)⟩

theorem reports_pass (h : count ≤ array.elements.length) :
    Reports I ArrayCall.Bounded (pass column array count) (fun _ => I) :=
  Reports.report (fun _ => inBounds_pass column h)

theorem reports_store {P : ArrayCall → Prop} (kept : Option α)
    (h : array.elements.length < size) :
    Reports I P (store column array kept) (fun array' s =>
      array'.elements.length = array.elements.length + kept.toList.length ∧ I s) := by
  unfold store
  rw [dif_pos h]
  exact Reports.pure (fun s hs => ⟨List.length_append, hs⟩)

theorem reports_storeAll {P : ArrayCall → Prop} {f : β → CallM α} {l : List β}
    (hf : ∀ b ∈ l, Reports I P (f b) (fun _ => I))
    (h : array.elements.length + l.length ≤ size) :
    Reports I P (storeAll column f l array) (fun array' s =>
      array'.elements.length = array.elements.length + l.length ∧ I s) := by
  induction l generalizing array with
  | nil => exact Reports.pure (fun s hs => ⟨rfl, hs⟩)
  | cons b rest ih =>
    rw [List.length_cons] at h
    unfold storeAll
    refine (hf b (by simp)).bind (fun a => ?_)
    refine (reports_store (some a) (by omega)).bind_known (fun array' hlength => ?_)
    have hone : (some a).toList.length = 1 := rfl
    refine (ih (fun b hb => hf b (by simp [hb])) (by omega)).mono (fun _ h => h) (fun _ h => h)
      (fun array'' s h' => ⟨?_, h'.2⟩)
    rw [h'.1, hlength, hone, List.length_cons]
    omega

theorem reports_storeAll_empty {P : ArrayCall → Prop} {f : β → CallM α} {l : List β}
    (hf : ∀ b ∈ l, Reports I P (f b) (fun _ => I)) (h : l.length ≤ size) :
    Reports I P (storeAll column f l (.empty α size)) (fun array s =>
      array.elements.length = l.length ∧ I s) :=
  (reports_storeAll hf (by simpa [LocalArray.empty] using h)).mono (fun _ h => h) (fun _ h => h)
    (fun _ _ h => ⟨h.1.trans (Nat.zero_add _), h.2⟩)

theorem all_lift {P : ArrayCall → Prop} (m : OvsM α) : All P (liftM m : CallM α) :=
  Reports.lift (fun _ _ _ _ _ => trivial)

theorem all_pure {P : ArrayCall → Prop} (a : α) : All P (pure a : CallM α) :=
  Reports.pure (fun _ _ => trivial)

theorem all_passOne (column : Column) (value : α) :
    All ArrayCall.Bounded (passOne column value) := by
  have hstored : Reports (fun _ => True) ArrayCall.Bounded
      (store column (.empty α 1) (some value)) _ := reports_store (some value) Nat.one_pos
  exact hstored.bind_known (fun _ hlength => reports_pass hlength.ge)

theorem all_grow (column : Column) (old : List α) (new : α) :
    All ArrayCall.Bounded (grow column old new) := by
  have hcopy : Reports (fun _ => True) ArrayCall.Bounded
      (storeAll column pure old (.empty α (old.length + 1))) _ :=
    reports_storeAll_empty (fun _ _ => all_pure _) (Nat.le_succ _)
  refine hcopy.bind_known (fun array hlength => ?_)
  refine (reports_store (some new) (by omega)).bind_known (fun array' hlength' => ?_)
  rw [hlength] at hlength'
  exact (reports_pass hlength'.ge).bind (fun _ => all_pure _)

end Arrays

section Policies

theorem all_insertEntry (T : ProfileTables) (profileRow : Uuid) (queueNum : ℤ) :
    All ArrayCall.Bounded (insertEntry T profileRow queueNum) := by
  refine (all_lift _).bind (fun queueRow => (all_lift _).bind (fun entries => ?_))
  exact (all_grow T.entries.column entries (queueNum, queueRow)).bind (fun _ =>
    (all_lift _).bind (fun _ => all_pure _))

theorem all_rowCommand (T : ProfileTables) (profileName : CStr) (queueNum : ℤ)
    {fill : Uuid → CallM Bool} (hfill : ∀ row, All ArrayCall.Bounded (fill row)) :
    All ArrayCall.Bounded (rowCommand T profileName queueNum fill) := by
  refine (all_lift _).bind (fun profileRow => ?_)
  cases profileRow with
  | none => exact all_pure _
  | some profileRow =>
    refine Reports.bind (?_ : All ArrayCall.Bounded _) hfill
    refine (all_lift _).bind (fun row => ?_)
    cases row with
    | none => exact all_insertEntry T profileRow queueNum
    | some row => exact all_pure _

theorem all_fillAll (T : ProfileTables) {E : Type} (profileName : CStr) (key : E → ℤ)
    {fill : E → Uuid → CallM Bool} (entries : List (Option E))
    (hfill : ∀ e row, All ArrayCall.Bounded (fill e row)) :
    All ArrayCall.Bounded (fillAll T profileName key fill entries) := by
  refine Reports.forM (fun entry _ => ?_)
  cases entry with
  | none => exact all_pure _
  | some e =>
    exact (all_rowCommand T profileName (key e) (hfill e)).bind (fun _ => all_pure _)

theorem all_clear (T : ProfileTables) (profileName : CStr) :
    All ArrayCall.Bounded (clear T profileName) :=
  (all_lift _).bind (fun _ => (all_lift _).bind (fun _ => (all_lift _).bind (fun _ =>
    (reports_pass (Nat.zero_le _)).bind (fun _ => all_lift _))))

theorem all_initProfiles (T : ProfileTables) {create : CStr → CallM Unit} (systemRow : Uuid)
    (info : Option YamlQosInfo) (hcreate : ∀ name, All ArrayCall.Bounded (create name)) :
    All ArrayCall.Bounded (initProfiles T create systemRow info) := by
  cases info with
  | none => exact all_pure _
  | some info =>
    refine (all_lift _).bind (fun defaultName => (hcreate defaultName).bind (fun _ =>
      (all_lift _).bind (fun row => ?_)))
    cases row with
    | none => exact all_pure _
    | some row =>
      refine (all_lift _).bind (fun _ => (all_lift _).bind (fun factoryName =>
        (hcreate factoryName).bind (fun _ => (all_lift _).bind (fun factoryRow => ?_))))
      cases factoryRow with
      | none => exact all_pure _
      | some factoryRow =>
        refine (all_passOne _ _).bind (fun _ => (all_lift _).bind (fun _ =>
          (all_lift _).bind (fun entries => Reports.forM (fun p _ => ?_))))
        exact (all_passOne _ _).bind (fun _ => all_lift _)

theorem all_fillQueueRow (e : YamlQueueProfileEntry) (queueRow : Uuid) :
    All ArrayCall.Bounded (fillQueueRow e queueRow) := by
  have hadd : All ArrayCall.Bounded (addLocalPriority queueRow e.localPriority) := by
    refine (all_lift _).bind (fun priorities => ?_)
    split_ifs
    · exact all_pure _
    · exact (all_grow _ _ _).bind (fun _ => all_lift _)
  refine hadd.bind (fun _ => ?_)
  cases e.description with
  | none => exact all_pure _
  | some description => exact (all_lift _).bind (fun _ => all_pure _)

theorem all_fillScheduleRow (strict : CStr) (e : YamlScheduleProfileEntry) (queueRow : Uuid) :
    All ArrayCall.Bounded (fillScheduleRow strict e queueRow) := by
  have hweight : ∀ algorithm, All ArrayCall.Bounded (passWeight strict algorithm e.weight) := by
    intro algorithm
    unfold passWeight
    split_ifs
    · exact reports_pass (Nat.zero_le _)
    · exact all_passOne _ _
  exact (all_lift _).bind (fun algorithm => (all_lift _).bind (fun _ =>
    (hweight algorithm).bind (fun _ => (all_lift _).bind (fun _ => all_pure _))))

theorem all_initMap (column : Column) (cols : MapColumns) (count : ℕ)
    (entries : List (Option YamlMapEntry)) (setEntries : List Uuid → OvsM Unit) :
    All ArrayCall.Bounded (initMap column cols count entries setEntries) := by
  unfold initMap
  cases entries.head?.join with
  | none => exact all_pure _
  | some first =>
    have hrows : Reports (fun _ => True) ArrayCall.Bounded (storeAll column
        (fun _ => liftM (insertRow cols.table)) (List.range count) (.empty Uuid count)) _ :=
      reports_storeAll_empty (fun _ _ => all_lift _) (List.length_range).le
    refine hrows.bind_known (fun mapRows hlength => (all_lift _).bind (fun _ => ?_))
    have hcopy : Reports (fun _ => True) ArrayCall.Bounded
        (storeAll column pure mapRows.elements (.empty Uuid count)) _ :=
      reports_storeAll_empty (fun _ _ => all_pure _) mapRows.length_le
    refine hcopy.bind_known (fun valueList hcopied => ?_)
    rw [List.length_range] at hlength
    exact (reports_pass (hcopied.trans hlength).ge).bind (fun _ => all_lift _)

theorem all_initPolicies (st : Startup) (sys : Uuid) :
    All ArrayCall.Bounded (initPolicies st sys) := by
  refine (all_lift _).bind (fun _ => (all_initMap _ _ _ _ _).bind (fun _ =>
    (all_initMap _ _ _ _ _).bind (fun _ => ?_)))
  refine (all_initProfiles _ _ _ (fun name => ?_)).bind (fun _ =>
    (all_initProfiles _ _ _ (fun name => ?_)).bind (fun _ => all_lift _))
  · exact (all_lift _).bind (fun _ => all_fillAll _ _ _ _ all_fillQueueRow)
  · exact (all_clear _ _).bind (fun _ => all_fillAll _ _ _ _ (all_fillScheduleRow _))

end Policies

section Configure

variable (st : Startup) (alloc : Allocations) (osRelease : Option (List CStr)) {sys : Uuid}

theorem all_configureRest (sys : Uuid) :
    All ArrayCall.Bounded (configureRest st alloc osRelease sys) := by
  have hdaemons : All ArrayCall.Bounded (addDaemons st sys) := by
    unfold addDaemons
    split_ifs
    · exact all_pure _
    · have hrows : Reports (fun _ => True) ArrayCall.Bounded (storeAll .systemDaemons
          (fun daemon => liftM (InitialConfigure.sysdInitialDaemonAdd daemon))
          st.manifest.daemons (.empty Uuid st.manifest.daemons.length)) _ :=
        reports_storeAll_empty (fun _ _ => all_lift _) le_rfl
      exact hrows.bind_known (fun ovsDaemons hlength =>
        (reports_pass hlength.ge).bind (fun _ => all_lift _))
  unfold configureRest
  split_ifs
  · exact all_pure _
  · exact hdaemons.bind (fun _ => (all_lift _).bind (fun _ => (all_lift _).bind (fun _ =>
      all_initPolicies st sys)))

theorem all_sysdConfigureDefaultBridge (ext : External) (ovsRow : Uuid) :
    All ArrayCall.Bounded (sysdConfigureDefaultBridge ext ovsRow) :=
  (all_lift _).bind (fun _ => (all_lift _).bind (fun _ => (all_passOne _ _).bind (fun _ =>
    (all_lift _).bind (fun _ => (all_lift _).bind (fun _ => (all_lift _).bind (fun _ =>
      (all_lift _).bind (fun _ => (all_passOne _ _).bind (fun _ => (all_lift _).bind (fun _ =>
        (all_passOne _ _).bind (fun _ => all_lift _))))))))))

theorem all_sysdConfigureDefaultVrf (ext : External) (ovsRow : Uuid) :
    All ArrayCall.Bounded (sysdConfigureDefaultVrf ext ovsRow) := by
  refine (all_lift _).bind (fun _ => (all_lift _).bind (fun _ => (all_passOne _ _).bind (fun _ =>
    (all_lift _).bind (fun _ => ?_))))
  refine (reports_store (some 0) Nat.one_pos).bind_known (fun tableId _ => ?_)
  exact (Reports.report (fun hne => (hne rfl).elim)).bind (fun _ => all_lift _)


/-- An open transaction with such cells. -/
def On (R : Cells schema → Prop) (s : Idl schema) : Prop := ∃ C, Filling s C ∧ R C

theorem on_of_ok {α : Type} {m : OvsM α} {R : Cells schema → Prop} {p : Cells schema → Prop}
    {Q : α → Cells schema → Prop} (h : ∀ C, R C → Exactly C (p C) m Q) :
    ∀ s, On R s → ∀ a s', m s = .ok (a, s') → On (Q a) s' := by
  rintro s ⟨C, hs, hR⟩ a s' hok
  exact ((h C hR).of_ok hs hok).2

theorem reports_insertRow {P : ArrayCall → Prop} {R : Cells schema → Prop} (k : Table) :
    Reports (On R) P (liftM (insertRow k) : CallM Uuid) (fun u => On (fun C => u ∈ C.rows k)) := by
  refine Reports.lift (on_of_ok (p := fun _ => True) (fun C _ => ?_))
  rw [← bind_pure (insertRow k)]
  exact exactly_insert (fun u _ => Exactly.pure Cells.mem_insert_self)

theorem reports_setCol {P : ArrayCall → Prop} {k : Table} {u : Uuid} {c : Column}
    (hk : c.table = k) (v : c.type.Value) :
    Reports (On (fun C => u ∈ C.rows k)) P (liftM (setCol u c v) : CallM Unit)
      (fun _ => On (fun C => u ∈ C.rows k)) := by
  subst hk
  exact Reports.lift (on_of_ok (p := fun _ => True) (fun _ hu => always_setCol hu hu))

/-- What the loop over an array leaves is what the loop without the array leaves. -/
theorem mapM_of_run_storeAll {α β : Type} {size : ℕ} {column : Column} {f : β → CallM α}
    {l : List β} {a : LocalArray α size} {s s' : Idl schema} (h : l.length ≤ size)
    (hok : run (storeAll column f l (.empty α size)) s = .ok (a, s')) :
    l.mapM (fun b => run (f b)) s = .ok (a.elements, s') := by
  have hrun := congrFun (run_storeAll_empty column f l h (fun as => (pure as : OvsM _))) s
  rw [bind_pure, bind_ok _ hok] at hrun
  exact hrun.symm

theorem all_collectSubports (ports : List (CStr × Uuid)) (names : List CStr)
    (found : LocalArray Uuid InitialConfigure.sysdMaxSplitPorts)
    (h : SubportsFit ports names found.elements.length) :
    All ArrayCall.Bounded (collectSubports ports names found) := by
  induction names generalizing found with
  | nil => exact all_pure _
  | cons name rest ih =>
    obtain ⟨hlt, hrest⟩ := (subportsFit_cons ports name rest found.elements.length).mp h
    refine (reports_store (shashFind ports name) hlt).bind_known
      (fun found' hlength => ih found' ?_)
    rw [hlength]
    cases hfind : shashFind ports name with
    | none => simpa [hfind] using hrest
    | some child => simpa [hfind] using hrest

theorem all_setSplitChildren {ports : List (CStr × Uuid)} {intf : YamlPort} (row : Uuid)
    (h : SubportsFit ports intf.subports 0) :
    All ArrayCall.Bounded (setSplitChildren ports intf row) := by
  unfold setSplitChildren
  split_ifs
  · exact all_pure _
  · exact (all_collectSubports ports intf.subports (.empty Uuid _) h).bind (fun _ =>
      (reports_pass le_rfl).bind (fun _ => all_lift _))

/-- The interfaces of a subsystem have just been added. -/
def InterfacesAdded (ext : External) (subsys : Subsystem) (us : List Uuid) (C : Cells schema) :
    Prop :=
  ∃ C₀ : Cells schema,
    C₀.Appended Table.interface (interfaceColumns ext subsys) subsys.interfaces us C

theorem reports_sysdSetSplittablePortInfo {ext : External} {subsys : Subsystem}
    (hfits : SplitsFit subsys) (us : List Uuid) :
    Reports (On (InterfacesAdded ext subsys us)) ArrayCall.Bounded
      (sysdSetSplittablePortInfo us subsys) (fun _ _ => True) := by
  rintro s ⟨C, hs, C₀, h⟩
  obtain ⟨hlength, hzip⟩ := List.forall₂_iff_zip.mp h.cols
  have hnamed : InitialConfigure.Named C (subsys.interfaces.zip us) := by
    intro p hp
    refine ⟨?_, by rw [show C.value p.2 = interfaceColumns ext subsys p.1 from hzip hp]; rfl⟩
    rw [h.rows]
    exact List.mem_append_right _ (List.of_mem_zip hp).2
  have hports : Reports (fun s => Filling s C) ArrayCall.Bounded
      (liftM (InitialConfigure.splitPorts (subsys.interfaces.zip us)))
      (fun ports _ => ports = splitIndex (subsys.interfaces.zip us) ∧ True) :=
    Reports.lift (fun s hs a s' hok =>
      ⟨(((InitialConfigure.always_splitPorts hnamed).of_ok hs hok).2).choose_spec.2.1, trivial⟩)
  refine (hports.bind_known (fun ports hindex => Reports.forM (fun p hp => ?_))) s hs
  refine (all_lift _).bind (fun _ => all_setSplitChildren p.2 ?_)
  rw [hindex]
  exact (subportsFit_splitIndex hlength p.1).mpr (hfits p.1 (List.of_mem_zip hp).1)

theorem reports_addSubsystemRow {P : ArrayCall → Prop} {R : Cells schema → Prop}
    (subsys : Subsystem) :
    Reports (On R) P (liftM (InitialConfigure.addSubsystemRow st subsys) : CallM Uuid)
      (fun _ => On (fun _ => True)) := by
  refine Reports.lift (on_of_ok (p := fun _ => True) (fun C _ => ?_))
  rw [← bind_pure (InitialConfigure.addSubsystemRow st subsys)]
  exact InitialConfigure.exactly_addSubsystemRow st subsys (fun _ _ => Exactly.pure trivial)

theorem reports_sysdInitialSubsystemAdd {subsys : Subsystem} (hfits : SplitsFit subsys) :
    Reports (On (fun _ => True)) ArrayCall.Bounded (sysdInitialSubsystemAdd st alloc subsys)
      (fun _ => On (fun _ => True)) := by
  have hcalls : Reports (On (fun _ => True)) ArrayCall.Bounded
      (sysdInitialSubsystemAdd st alloc subsys) (fun _ _ => True) := by
    refine (reports_addSubsystemRow st subsys).bind (fun ovsSubsys => ?_)
    split_ifs
    · exact Reports.pure (fun _ _ => trivial)
    · have hinterfaces : Reports (On (fun _ => True)) ArrayCall.Bounded
          (storeAll .subsystemInterfaces
            (fun intf => liftM (InitialConfigure.sysdInitialInterfaceAdd st.external subsys intf))
            subsys.interfaces (.empty Uuid subsys.interfaces.length))
          (fun a s => a.elements.length = subsys.interfaces.length ∧
            On (InterfacesAdded st.external subsys a.elements) s) := by
        refine Reports.and ?_ (fun s hs a s' hok => ?_)
        · exact (reports_storeAll_empty (fun _ _ => all_lift _) le_rfl).mono (fun _ _ => trivial)
            (fun _ h => h) (fun _ _ h => h.1)
        refine on_of_ok (p := fun _ => ∀ intf ∈ subsys.interfaces, InitialConfigure.SpeedsFit intf)
          (fun C _ => ?_) s hs _ s' (mapM_of_run_storeAll le_rfl hok)
        exact (Exactly.mapM subsys.interfaces C (fun intf _ _ =>
          InitialConfigure.exactly_sysdInitialInterfaceAdd intf)).mono (fun us C' h => ⟨C, h⟩)
      refine hinterfaces.bind (fun ovsIntf s hs => ?_)
      refine Reports.bind (reports_sysdSetSplittablePortInfo hfits ovsIntf.elements)
        (fun _ => ?_) s hs.2
      exact (all_lift _).bind (fun _ => (all_lift _).bind (fun _ =>
        (reports_pass hs.1.ge).bind (fun _ => (all_lift _).bind (fun _ => all_pure _))))
  have hafter : ∀ s, On (fun _ => True) s → ∀ a s',
      run (sysdInitialSubsystemAdd st alloc subsys) s = .ok (a, s') → On (fun _ => True) s' := by
    intro s hs a s' hok
    rw [run_sysdInitialSubsystemAdd] at hok
    cases halloc : alloc.interfaces with
    | true =>
      exact on_of_ok (fun C _ => (InitialConfigure.exactly_sysdInitialSubsystemAdd st halloc
        subsys).mono (fun _ _ _ => trivial)) s hs a s' hok
    | false =>
      exact on_of_ok (fun C _ => (InitialConfigure.always_sysdInitialSubsystemAdd_header st halloc
        subsys).mono (fun _ _ _ => trivial)) s hs a s' hok
  exact (hcalls.and hafter).mono (fun _ h => h) (fun _ h => h) (fun _ _ h => h.2)

theorem reports_configureSubsystems (hfits : ∀ subsys ∈ st.subsystems, SplitsFit subsys)
    (sys : Uuid) : Reports (On (fun _ => True)) ArrayCall.Bounded
      (configureSubsystems st alloc osRelease sys) (fun _ _ => True) := by
  unfold configureSubsystems
  split_ifs
  · exact (all_pure _).of_always
  · have hrows : Reports (On (fun _ => True)) ArrayCall.Bounded
        (storeAll .systemSubsystems (sysdInitialSubsystemAdd st alloc) st.subsystems
          (.empty Uuid st.subsystems.length)) _ :=
      reports_storeAll_empty (fun subsys hsubsys =>
        reports_sysdInitialSubsystemAdd st alloc (hfits subsys hsubsys)) le_rfl
    refine hrows.bind_known (fun ovsSubsys hlength => Reports.of_always ?_)
    exact (reports_pass hlength.ge).bind (fun _ => (all_lift _).bind (fun _ =>
      all_configureRest st alloc osRelease sys))

theorem reports_deref {α : Type} {P : ArrayCall → Prop} {I : Idl schema → Prop} (o : Option α) :
    Reports I P (liftM (deref o : OvsM α) : CallM α) (fun _ => I) := by
  refine Reports.lift (fun s hs a s' hok => ?_)
  cases o with
  | none => cases hok
  | some b =>
    cases hok
    exact hs

/-- A part after which the System row is still there. -/
theorem reports_keeping {m : CallM Unit} (hm : All ArrayCall.Bounded m)
    (h : ∀ C : Cells schema, sys ∈ C.rows Table.system →
      Always C (run m) (fun _ C' => sys ∈ C'.rows Table.system)) :
    Reports (On (fun C => sys ∈ C.rows Table.system)) ArrayCall.Bounded m
      (fun _ => On (fun C => sys ∈ C.rows Table.system)) :=
  (hm.of_always.and (on_of_ok (p := fun _ => True) h)).mono (fun _ h => h) (fun _ h => h)
    (fun _ _ h => h.2)

theorem always_run_sysdConfigureDefaultBridge (ext : External) {C : Cells schema}
    (hsys : sys ∈ C.rows Table.system) :
    Always C (run (sysdConfigureDefaultBridge ext sys))
      (fun _ C' => sys ∈ C'.rows Table.system) := by
  rw [run_sysdConfigureDefaultBridge]
  refine (InitialConfigure.always_sysdConfigureDefaultBridge ext hsys).mono (fun _ C' h => ?_)
  obtain ⟨bridge, iface, port, h⟩ := h
  exact h.keeps.kept _ _ hsys

theorem always_run_sysdConfigureDefaultVrf (ext : External) {C : Cells schema}
    (hsys : sys ∈ C.rows Table.system) :
    Always C (run (sysdConfigureDefaultVrf ext sys)) (fun _ C' => sys ∈ C'.rows Table.system) := by
  rw [run_sysdConfigureDefaultVrf]
  exact (InitialConfigure.always_sysdConfigureDefaultVrf ext hsys).mono
    (fun _ C' h => h.1.kept _ _ hsys)

/-- Where no port has more than four subports, only the table id is passed from beyond
its array. -/
theorem reports_sysdInitialConfigure (hfits : ∀ subsys ∈ st.subsystems, SplitsFit subsys) :
    Reports (On (fun _ => True)) ArrayCall.Bounded (sysdInitialConfigure st alloc osRelease)
      (fun _ _ => True) := by
  refine (reports_insertRow .system).bind (fun sys => (reports_deref _).bind (fun mgmtIntf =>
    (reports_setCol (by rfl) _).bind (fun _ => ?_)))
  refine (reports_keeping (all_sysdConfigureDefaultBridge st.external sys)
    (fun C => always_run_sysdConfigureDefaultBridge st.external)).bind (fun _ => ?_)
  refine (reports_keeping (all_sysdConfigureDefaultVrf st.external sys)
    (fun C => always_run_sysdConfigureDefaultVrf st.external)).bind (fun _ => ?_)
  refine (reports_deref _).bind (fun base => (reports_setCol (by rfl) _).bind (fun _ =>
    (reports_setCol (by rfl) _).bind (fun _ => ?_)))
  refine (reports_configureSubsystems st alloc osRelease hfits sys).mono (fun s hs => ?_)
    (fun _ h => h) (fun _ _ h => h)
  obtain ⟨C, hs, _⟩ := hs
  exact ⟨C, hs, trivial⟩

/-- The call for the table id. -/
def tableIdCall : ArrayCall := ⟨.vrfTableId, 1, [0], some sizeofTableId⟩

theorem tableIdCall_not_inBounds : ¬ tableIdCall.InBounds := fun h =>
  absurd (h.2 _ rfl).1 (by decide)

/-- A report of the rest, where the first part runs through. -/
theorem mem_bind_of_always {α β : Type} {m : CallM α} {f : α → CallM β} {C : Cells schema}
    {Q : α → Cells schema → Prop} {call : ArrayCall} {s : Idl schema} (hs : Filling s C)
    (hm : Always C (run m) Q)
    (h : ∀ a s' C', Filling s' C' → Q a C' → call ∈ (f a s').1) : call ∈ ((m >>= f) s).1 := by
  obtain ⟨a, s', C', hok, hs', hq⟩ := (hm s hs).1 trivial
  exact mem_bind hok (h a s' C' hs' hq)

theorem always_insertRow (C : Cells schema) (k : Table) :
    Always C (insertRow k)
      (fun u C' => u ∈ C'.rows k ∧ ∀ k' v, v ∈ C.rows k' → v ∈ C'.rows k') := by
  rw [← bind_pure (insertRow k)]
  exact exactly_insert (fun u _ => Exactly.pure
    ⟨Cells.mem_insert_self, fun _ _ hv => Cells.mem_insert_of_mem hv⟩)

theorem always_setCol_rows {C : Cells schema} {u : Uuid} {c : Column} {v : c.type.Value}
    (hu : u ∈ C.rows c.table) :
    Always C (run (liftM (setCol u c v) : CallM Unit)) (fun _ C' => C'.rows = C.rows) :=
  always_setCol hu rfl

theorem tableIdCall_mem_vrf (ext : External) {C : Cells schema} {s : Idl schema}
    (hs : Filling s C) (hsys : sys ∈ C.rows Table.system) :
    tableIdCall ∈ (sysdConfigureDefaultVrf ext sys s).1 := by
  refine mem_bind_of_always hs (always_insertRow C .vrf) (fun vrf s₁ C₁ hs₁ h₁ => ?_)
  refine mem_bind_of_always hs₁ (always_setCol_rows h₁.1) (fun _ s₂ C₂ hs₂ h₂ => ?_)
  have hpass : Always C₂ (run (passOne .systemVrfs vrf)) (fun _ C' => C' = C₂) := .pure rfl
  refine mem_bind_of_always hs₂ hpass (fun _ s₃ C₃ hs₃ h₃ => ?_)
  have hsys₃ : sys ∈ C₃.rows Table.system := by
    rw [h₃, h₂]
    exact h₁.2 _ _ hsys
  refine mem_bind_of_always hs₃ (always_setCol_rows hsys₃) (fun _ s₄ C₄ hs₄ _ => ?_)
  have hstore : run (store .vrfTableId (.empty ℤ 1) (some 0)) s₄ =
      .ok ((LocalArray.empty ℤ 1).store (some 0) Nat.one_pos, s₄) := rfl
  exact mem_bind hstore (mem_bind_left (List.mem_singleton.mpr rfl))

theorem tableIdCall_mem {s : Idl schema} (hs : Filling s (Txn.empty : Txn schema).cells)
    (hmgmt : st.manifest.mgmtIntf ≠ none) :
    tableIdCall ∈ (sysdInitialConfigure st alloc osRelease s).1 := by
  obtain ⟨mgmtIntf, hmgmt⟩ := Option.ne_none_iff_exists'.mp hmgmt
  refine mem_bind_of_always hs (always_insertRow _ .system) (fun sys s₁ C₁ hs₁ h₁ => ?_)
  have hderef : run (liftM (deref st.manifest.mgmtIntf : OvsM _) : CallM _) s₁ =
      .ok (mgmtIntf, s₁) := by
    rw [hmgmt]
    rfl
  refine mem_bind hderef ?_
  refine mem_bind_of_always hs₁ (always_setCol_rows h₁.1) (fun _ s₂ C₂ hs₂ h₂ => ?_)
  have hsys₂ : sys ∈ C₂.rows Table.system := h₂ ▸ h₁.1
  refine mem_bind_of_always hs₂ (always_run_sysdConfigureDefaultBridge st.external hsys₂)
    (fun _ s₃ C₃ hs₃ hsys₃ => ?_)
  exact mem_bind_left (tableIdCall_mem_vrf st.external hs₃ hsys₃)

/-- Without a management interface the configuration ends before its first array. -/
theorem calls_without_mgmtIntf {s : Idl schema} (hs : Filling s (Txn.empty : Txn schema).cells)
    (hmgmt : st.manifest.mgmtIntf = none) : (sysdInitialConfigure st alloc osRelease s).1 = [] := by
  obtain ⟨sys, s₁, hinsert, _⟩ := hs.txnInsert Table.system
  have hrow : (liftM (insertRow .system) : CallM Uuid) s = ([], .ok (sys, s₁)) :=
    congrArg (Prod.mk []) hinsert
  have hderef : (liftM (deref st.manifest.mgmtIntf : OvsM _) : CallM _) s₁ =
      ([], .error .badAccess) := by
    rw [hmgmt]
    rfl
  unfold sysdInitialConfigure
  rw [Logged.bind_ok hrow, Logged.bind_error hderef]
  rfl

/-- No call of the configuration is out of bounds only where it makes none: the daemon has no
management interface to name. The others are in bounds if no port has more than four subports. -/
theorem arraysInBounds_iff {s : Idl schema} (hs : Filling s (Txn.empty : Txn schema).cells) :
    ((∀ call ∈ (sysdInitialConfigure st alloc osRelease s).1, call.InBounds) ↔
      st.manifest.mgmtIntf = none) ∧
    ((∀ subsys ∈ st.subsystems, SplitsFit subsys) →
      ∀ call ∈ (sysdInitialConfigure st alloc osRelease s).1,
        call.column ≠ .vrfTableId → call.InBounds) ∧
    run (sysdInitialConfigure st alloc osRelease) =
      InitialConfigure.sysdInitialConfigure st alloc osRelease := by
  refine ⟨⟨fun hall => ?_, fun hmgmt call hcall => ?_⟩, fun hfits => ?_,
    run_sysdInitialConfigure st alloc osRelease⟩
  · by_contra hmgmt
    exact tableIdCall_not_inBounds (hall _ (tableIdCall_mem st alloc osRelease hs hmgmt))
  · rw [calls_without_mgmtIntf st alloc osRelease hs hmgmt] at hcall
    cases hcall
  · exact (reports_sysdInitialConfigure st alloc osRelease hfits s ⟨_, hs, trivial⟩).1

end Configure

section Lanes

open InitialConfigure (lanePlatform fourLanes laneOpened filling_empty)

theorem filling_laneOpened : Filling laneOpened (Txn.empty : Txn schema).cells :=
  filling_empty rfl (by simp [laneOpened])

theorem arraysInBounds_iff_fourLanes :
    ((∀ call ∈ (sysdInitialConfigure (lanePlatform fourLanes) ⟨true, true, true⟩ none
        laneOpened).1, call.InBounds) ↔
      (lanePlatform fourLanes).manifest.mgmtIntf = none) ∧
    ((∀ subsys ∈ (lanePlatform fourLanes).subsystems, SplitsFit subsys) →
      ∀ call ∈ (sysdInitialConfigure (lanePlatform fourLanes) ⟨true, true, true⟩ none
        laneOpened).1, call.column ≠ .vrfTableId → call.InBounds) ∧
    run (sysdInitialConfigure (lanePlatform fourLanes) ⟨true, true, true⟩ none) =
      InitialConfigure.sysdInitialConfigure (lanePlatform fourLanes) ⟨true, true, true⟩ none :=
  arraysInBounds_iff (lanePlatform fourLanes) ⟨true, true, true⟩ none filling_laneOpened

/-- A platform with one port, its four lanes and a management interface. -/
theorem arrays_notInBounds :
    ¬ ∀ call ∈ (sysdInitialConfigure (lanePlatform fourLanes) ⟨true, true, true⟩ none
      laneOpened).1, call.InBounds := fun hall =>
  tableIdCall_not_inBounds (hall _ (tableIdCall_mem _ _ none filling_laneOpened (by decide)))

end Lanes

end OpsSysd.ArrayCalls
