import OpsSysd.ConfigureComplete

/-!
What the initial configuration says of the system as a whole: the software
information and the time zone in the System row, and what the Subsystem row says
of the hardware. Later steps of the configuration leave these columns alone.
-/

namespace OpsSysd.InitialConfigure

open CString Ovsdb Ovsrec Platform QosInit

/-- The columns hold what the os-release file determines. -/
def HoldsSwInfo (osNameKey : CStr) (osRelease : Option (List CStr)) (info : Smap)
    (version : CStr) : Prop :=
  ∀ lines, osRelease = some lines →
    (∀ v, (SoftwareInfo.scan osNameKey lines).softwareInfo = some v → info = v) ∧
      ∀ v, (SoftwareInfo.scan osNameKey lines).switchVersion = some v → version = v

/-- The settings of the System row. -/
structure SystemSettings (st : Startup) (osRelease : Option (List CStr)) (sys : Uuid)
    (C : Cells schema) : Prop where
  timezone : C.value sys Column.systemTimezone = dfltTimezone
  swInfo : HoldsSwInfo st.external.softwareInfoOsName osRelease
    (C.value sys Column.systemSoftwareInfo) (C.value sys Column.systemSwitchVersion)

/-- The settings of the Subsystem row. -/
structure SubsystemSettings (st : Startup) (subsys : Subsystem) (sub : Uuid)
    (C : Cells schema) : Prop where
  name : C.value sub Column.subsystemName = subsys.name
  assetTagNumber : C.value sub Column.subsystemAssetTagNumber = dfltAssetTag
  hwDescDir : C.value sub Column.subsystemHwDescDir = st.hwDescDir
  otherInfo :
    C.value sub Column.subsystemOtherInfo = datumFromSmap (subsystemOtherInfo subsys)

section Both

variable {α : Type} {C : Cells schema} {p : Prop} {m : OvsM α} {Q Q' : α → Cells schema → Prop}

/-- Two descriptions of one computation hold together. -/
theorem exactly_and (h : Exactly C p m Q) (h' : Exactly C p m Q') :
    Exactly C p m (fun a C' => Q a C' ∧ Q' a C') := by
  intro s hs
  refine ⟨fun hp => ?_, (h s hs).2⟩
  obtain ⟨a, s', C', hok, hs', hq⟩ := (h s hs).1 hp
  obtain ⟨_, C'', hs'', hq'⟩ := h'.of_ok hs hok
  exact ⟨a, s', C', hok, hs', hq, hs''.unique hs' ▸ hq'⟩

end Both

section Settings

variable {C C' : Cells schema} {st : Startup} {alloc : Allocations}
  {osRelease : Option (List CStr)} {subsys : Subsystem} {sys sub : Uuid}

theorem always_setColOpt_written {u : Uuid} {c : Column} (v : Option c.type.Value)
    (hu : u ∈ C.rows c.table) :
    Always C (setColOpt u c v) (fun _ C' => ∀ w, v = some w → C'.value u c = w) := by
  cases v with
  | none => exact .pure (fun w hw => by cases hw)
  | some v =>
    refine always_setCol hu (fun w hw => ?_)
    rw [Cells.write_value]
    exact Option.some.inj hw

/-- The file's values are in the row after the update. -/
theorem always_sysdUpdateSwInfo_written (osNameKey : CStr) (osRelease : Option (List CStr))
    (hsys : sys ∈ C.rows Table.system) :
    Always C (SoftwareInfo.sysdUpdateSwInfo osNameKey osRelease sys) (fun _ C' =>
      HoldsSwInfo osNameKey osRelease (C'.value sys Column.systemSoftwareInfo)
        (C'.value sys Column.systemSwitchVersion)) := by
  unfold SoftwareInfo.sysdUpdateSwInfo HoldsSwInfo
  cases osRelease with
  | none => exact .pure (fun lines hlines => by cases hlines)
  | some file =>
    refine (exactly_and (always_setColOpt_written _ hsys) (always_setColOpt _ hsys)).seq
      (fun _ C₁ h₁ => ?_)
    obtain ⟨hinfo, hkeeps⟩ := h₁
    have hsys₁ := hkeeps.kept _ _ hsys
    refine (exactly_and (always_setColOpt_written _ hsys₁) (always_setColOpt _ hsys₁)).mono ?_
    rintro _ C₂ ⟨hversion, hkeeps₂⟩ lines hlines
    cases hlines
    refine ⟨fun v hv => ?_, fun v hv => hversion v hv⟩
    rw [hkeeps₂.value _ _ hsys₁ _ (by decide)]
    exact hinfo v hv

/-- The policies leave the settings of the System row alone. -/
theorem SystemSettings.extends {T : List Table} (hsys : sys ∈ C.rows Table.system)
    (h : SystemSettings st osRelease sys C) (hext : C.Extends T policyColumns C') :
    SystemSettings st osRelease sys C' := by
  refine ⟨?_, ?_⟩
  · rw [hext.value _ _ hsys _ (by decide), h.timezone]
  · rw [hext.value _ _ hsys _ (by decide), hext.value _ _ hsys _ (by decide)]
    exact h.swInfo

theorem SubsystemSettings.extends {T : List Table} {L : List Column}
    (hsub : sub ∈ C.rows Table.subsystem) (h : SubsystemSettings st subsys sub C)
    (hext : C.Extends T L C') (hL : ∀ c ∈ L, c.table ≠ .subsystem) :
    SubsystemSettings st subsys sub C' := by
  have hvalue : ∀ c : Column, c.table = .subsystem → C'.value sub c = C.value sub c :=
    fun c hc => hext.value _ _ hsub c (fun hmem => hL c hmem hc)
  constructor
  · exact (hvalue _ rfl).trans h.name
  · exact (hvalue _ rfl).trans h.assetTagNumber
  · exact (hvalue _ rfl).trans h.hwDescDir
  · exact (hvalue _ rfl).trans h.otherInfo

theorem exactly_configureRest_settings (hsys : sys ∈ C.rows Table.system)
    (hinit : C.value sys Column.systemDaemons = [])
    (hempty : ∀ T ∈ profileTables, C.rows T.profile = []) (hdaemons : alloc.daemons = true) :
    Exactly C (PoliciesGiven st.policies) (configureRest st alloc osRelease sys)
      (fun _ C' => SystemSettings st osRelease sys C') := by
  unfold configureRest
  rw [if_neg (by simp [hdaemons])]
  refine (always_addDaemons st hsys hinit).seq (fun _ C₁ h₁ => ?_)
  have hsys₁ := h₁.1.kept _ _ hsys
  refine (exactly_and (always_sysdUpdateSwInfo_written _ osRelease hsys₁)
    (always_sysdUpdateSwInfo _ osRelease hsys₁)).seq (fun _ C₂ h₂ => ?_)
  obtain ⟨hswInfo, hkeeps⟩ := h₂
  have hsys₂ := hkeeps.kept _ _ hsys₁
  refine exactly_setCol hsys₂ ?_
  have hsettings : SystemSettings st osRelease sys
      (C₂.write sys Column.systemTimezone dfltTimezone) := by
    refine ⟨Cells.write_value, ?_⟩
    rw [Cells.write_value_of_column_ne (by decide), Cells.write_value_of_column_ne (by decide)]
    exact hswInfo
  have hpolicy : PolicyInv (C₂.write sys Column.systemTimezone dfltTimezone)
      (C₂.write sys Column.systemTimezone dfltTimezone) := by
    have hne : ∀ T ∈ profileTables, T.profile ∉ [Table.daemon] := by decide
    refine ⟨.refl _, fun T hT u hu => ?_⟩
    rw [Cells.write_rows, hkeeps.same _ (by simp), h₁.1.same _ (hne T hT), hempty T hT] at hu
    cases hu
  have hsys₃ : sys ∈ (C₂.write sys Column.systemTimezone dfltTimezone).rows Table.system := hsys₂
  exact (exactly_initPolicies st hpolicy hsys₃).mono
    (fun _ C' h => hsettings.extends hsys₃ h.keeps)

/-- The Subsystem row of the only subsystem. -/
theorem exactly_sysdInitialSubsystemAdd_settings (halloc : alloc.interfaces = true) :
    Exactly C (PortsFit subsys) (sysdInitialSubsystemAdd st alloc subsys) (fun sub C' =>
      sub ∈ C'.rows Table.subsystem ∧ SubsystemSettings st subsys sub C') := by
  refine exactly_addSubsystemRow st subsys (fun sub hsub => ?_)
  rw [halloc, if_neg (by decide)]
  have hheader : SubsystemSettings st subsys sub (subsystemHeader st subsys C sub) := by
    constructor
    · simp [subsystemHeader, Cells.write_value_of_column_ne, Cells.write_value]
    · simp [subsystemHeader, Cells.write_value_of_column_ne, Cells.write_value]
    · simp [subsystemHeader, Cells.write_value_of_column_ne, Cells.write_value]
    · exact Cells.write_value
  have hmem : sub ∈ (C.insert Table.subsystem sub).rows Table.subsystem := Cells.mem_insert_self
  have hrows : sub ∈ (subsystemHeader st subsys C sub).rows Table.subsystem := hmem
  generalize subsystemHeader st subsys C sub = C₀ at hheader hrows ⊢
  refine Exactly.congr (Exactly.bind (Exactly.mapM subsys.interfaces _
    (fun intf _ _ => exactly_sysdInitialInterfaceAdd intf)) (fun intfs C₁ h₁ => ?_)) portsFit_iff
  refine (exactly_sysdSetSplittablePortInfo h₁).next (fun _ C₂ h₂ => ?_)
  have hsub₂ := h₂.extends.kept _ _ hrows
  have hsettings := hheader.extends hrows h₂.extends (by simp)
  refine exactly_setCol hsub₂ (exactly_setCol hsub₂ (exactly_setCol hsub₂ (.pure ⟨hsub₂, ?_⟩)))
  constructor
  · simpa [Cells.write_value_of_column_ne] using hsettings.name
  · simpa [Cells.write_value_of_column_ne] using hsettings.assetTagNumber
  · simpa [Cells.write_value_of_column_ne] using hsettings.hwDescDir
  · simpa [Cells.write_value_of_column_ne] using hsettings.otherInfo

theorem exactly_sysdInitialConfigure_settings (hone : st.subsystems = [subsys])
    (hsubsystems : alloc.subsystems = true) (hinterfaces : alloc.interfaces = true)
    (hdaemons : alloc.daemons = true) :
    Exactly (Txn.empty : Txn schema).cells (st.manifest.mgmtIntf.isSome = true ∧
        PortsFit subsys ∧ PoliciesGiven st.policies)
      (sysdInitialConfigure st alloc osRelease) (fun _ C' => ∃ sys ∈ C'.rows Table.system,
        SystemSettings st osRelease sys C' ∧ ∃ sub ∈ C'.rows Table.subsystem,
          SubsystemSettings st subsys sub C') := by
  refine exactly_based (by rw [hone]; rfl) (fun sys bridge iface port vrf C h => ?_)
  have hsys : sys ∈ C.rows Table.system := by simp [h.systemRows]
  unfold configureSubsystems
  rw [if_neg (by simp [hsubsystems]), hone, List.mapM_cons, List.mapM_nil, bind_assoc]
  refine (exactly_and (exactly_sysdInitialSubsystemAdd st hinterfaces subsys)
    (exactly_sysdInitialSubsystemAdd_settings hinterfaces)).bind (fun sub C₁ h₁ => ?_)
  obtain ⟨⟨intfs, hadded⟩, hsub, hsettings⟩ := h₁
  rw [pure_bind, pure_bind]
  have hsys₁ := hadded.keeps.kept _ _ hsys
  refine exactly_setCol hsys₁ ?_
  have hsub₁ : SubsystemSettings st subsys sub
      (C₁.write sys Column.systemSubsystems [sub]) := by
    constructor
    · rw [Cells.write_value_of_column_ne (by decide), hsettings.name]
    · rw [Cells.write_value_of_column_ne (by decide), hsettings.assetTagNumber]
    · rw [Cells.write_value_of_column_ne (by decide), hsettings.hwDescDir]
    · rw [Cells.write_value_of_column_ne (by decide), hsettings.otherInfo]
  have hinit : (C₁.write sys Column.systemSubsystems [sub]).value sys Column.systemDaemons =
      [] := by
    rw [Cells.write_value_of_column_ne (by decide), hadded.keeps.value _ _ hsys _ (by decide),
      h.systemDaemons]
  have hempty : ∀ T ∈ profileTables,
      (C₁.write sys Column.systemSubsystems [sub]).rows T.profile = [] := by
    intro T hT
    rw [Cells.write_rows, hadded.keeps.same _ (profile_apart T hT).1,
      h.empty _ (profile_apart T hT).2]
  have hsys₂ : sys ∈ (C₁.write sys Column.systemSubsystems [sub]).rows Table.system := hsys₁
  refine (exactly_and (exactly_configureRest_settings hsys₂ hinit hempty hdaemons)
    ((exactly_configureRest hsys₂ hinit hempty).congr (by simp [hdaemons]))).mono ?_
  rintro _ C₂ ⟨hsystem, hkeeps, _⟩
  have hsub₂ : sub ∈ (C₁.write sys Column.systemSubsystems [sub]).rows Table.subsystem := hsub
  have hrest : ∀ c ∈ restColumns, c.table ≠ .subsystem := by decide
  exact ⟨sys, hkeeps.kept _ _ hsys₂, hsystem, sub, hkeeps.kept _ _ hsub₂,
    hsub₁.extends hsub₂ hkeeps hrest⟩

end Settings

section Rows

variable {st : Startup} {osRelease : Option (List CStr)} {subsys : Subsystem} {t : Txn schema}

/-- The rows of the configuration's transaction with their settings. -/
structure SettingsRows (st : Startup) (subsys : Subsystem) (osRelease : Option (List CStr))
    (system subsystem : OvsRow) : Prop where
  timezone : system.col .systemTimezone = dfltTimezone
  swInfo : HoldsSwInfo st.external.softwareInfoOsName osRelease (system.col .systemSoftwareInfo)
    (system.col .systemSwitchVersion)
  name : subsystem.col .subsystemName = subsys.name
  assetTagNumber : subsystem.col .subsystemAssetTagNumber = dfltAssetTag
  hwDescDir : subsystem.col .subsystemHwDescDir = st.hwDescDir
  otherInfo : subsystem.col .subsystemOtherInfo = datumFromSmap (subsystemOtherInfo subsys)

/-- The transaction has the platform's rows, and the System and the Subsystem row carry
the settings. -/
theorem settingsRows_of_ok (hone : st.subsystems = [subsys]) {s s' : Idl schema}
    (hs : Filling s (Txn.empty : Txn schema).cells)
    (hok : sysdInitialConfigure st ⟨true, true, true⟩ osRelease s = .ok ((), s')) :
    ∃ t, s'.txn = .opened t ∧ t.Numbered s'.client s'.nextSerial ∧
      ∃ system subsystem bridge iface port vrf intfs,
        CoreRows st subsys t.inserted system subsystem bridge iface port vrf intfs ∧
          SettingsRows st subsys osRelease system subsystem := by
  obtain ⟨_, t, ht, system, subsystem, bridge, iface, port, vrf, intfs, hcore⟩ :=
    coreRows_of_ok hone hs hok
  obtain ⟨_, C', hs', sys, hsys, hsystem, sub, hsub, hsubsystem⟩ :=
    (exactly_sysdInitialConfigure_settings hone rfl rfl rfl).of_ok hs hok
  obtain ⟨t', ht', rfl, hnum⟩ := hs'.opened
  obtain rfl : t = t' := by
    rw [ht] at ht'
    cases ht'
    rfl
  have hcol : ∀ {k : Table} {r : OvsRow} {u : Uuid}, tableRows k t.inserted = [r] →
      u ∈ t.cells.rows k → ∀ c : Column, c.table = k → t.cells.value u c = r.col c := by
    intro k r u hr hu c hc
    rw [show t.cells.rows k = (tableRows k t.inserted).map Row.uuid from rfl, hr,
      List.map_singleton, List.mem_singleton] at hu
    have hmem : r ∈ tableRows k t.inserted := by simp [hr]
    obtain ⟨hin, htable⟩ := mem_rowsOf.mp hmem
    rw [hu]
    exact hnum.value_of_mem hin (hc.trans htable.symm)
  have hcolSys := hcol hcore.systemRows hsys
  have hcolSub := hcol hcore.subsystemRows hsub
  refine ⟨t, ht, hnum, system, subsystem, bridge, iface, port, vrf, intfs, hcore, ?_⟩
  constructor
  · rw [← hcolSys .systemTimezone rfl, hsystem.timezone]
  · rw [← hcolSys .systemSoftwareInfo rfl, ← hcolSys .systemSwitchVersion rfl]
    exact hsystem.swInfo
  · rw [← hcolSub .subsystemName rfl, hsubsystem.name]
  · rw [← hcolSub .subsystemAssetTagNumber rfl, hsubsystem.assetTagNumber]
  · rw [← hcolSub .subsystemHwDescDir rfl, hsubsystem.hwDescDir]
  · rw [← hcolSub .subsystemOtherInfo rfl, hsubsystem.otherInfo]

end Rows

end OpsSysd.InitialConfigure
