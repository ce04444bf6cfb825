import OpsSysd.ConfigureSettings
import OpsSysd.OptionalPolicies

/-!
The configuration of an empty database is one transaction. It holds the rows of
the platform, its settings and its policies; what the policies find in the System
row is what an inserted row has.
-/

namespace OpsSysd.InitialConfigure

open CString Ovsdb Ovsrec Platform QosInit

/-- The columns of the System row that the policies write. -/
def systemPolicyColumns : List Column :=
  [.systemQosConfig, .systemQosCosMapEntries, .systemQosDscpMapEntries, .systemQProfile,
    .systemQos, .systemOtherInfo]

/-- The columns still hold what an inserted row has. -/
def Unset (sys : Uuid) (C : Cells schema) : Prop :=
  ∀ c ∈ systemPolicyColumns, C.value sys c = schema.initial c

/-- A System row that nothing has been written to. -/
def insertedSystem (sys : Uuid) : Cells schema :=
  (Txn.empty : Txn schema).cells.insert Table.system sys

section Unset

variable {C C' : Cells schema} {sys : Uuid} {T : List Table} {L : List Column} {c : Column}

theorem unset_insertedSystem (sys : Uuid) : Unset sys (insertedSystem sys) := fun _ _ => rfl

theorem Unset.extends (h : Unset sys C) (hsys : sys ∈ C.rows Table.system)
    (hext : C.Extends T L C') (hL : ∀ c ∈ systemPolicyColumns, c ∉ L) : Unset sys C' :=
  fun c hc => (hext.value _ _ hsys c (hL c hc)).trans (h c hc)

theorem Unset.write (h : Unset sys C) (hc : c ∉ systemPolicyColumns) (v : schema.Value c) :
    Unset sys (C.write sys c v) := by
  intro c' hc'
  have hne : c' ≠ c := fun heq => hc (heq ▸ hc')
  rw [Cells.write_value_of_column_ne hne, h c' hc']

/-- Only what the policies find in the System row matters. -/
theorem outcome_of_unset {strict : CStr} {yaml : YamlPolicies} (h : Unset sys C)
    (hout : PoliciesOutcome strict yaml sys C C') :
    PoliciesOutcome strict yaml sys (insertedSystem sys) C' := by
  have hsame : ∀ c ∈ systemPolicyColumns, C.value sys c = (insertedSystem sys).value sys c :=
    fun c hc => (h c hc).trans (unset_insertedSystem sys c hc).symm
  have hqosConfig := hsame .systemQosConfig (by decide)
  have hcos := hsame .systemQosCosMapEntries (by decide)
  have hdscp := hsame .systemQosDscpMapEntries (by decide)
  have hqProfile := hsame .systemQProfile (by decide)
  have hqos := hsame .systemQos (by decide)
  have hotherInfo := hsame .systemOtherInfo (by decide)
  exact {
    trust := hqosConfig ▸ hout.trust
    dscpMap := hdscp ▸ hout.dscpMap
    cosMap := hcos ▸ hout.cosMap
    queueInstalled := hout.queueInstalled
    queueAbsent := fun hnone => (hout.queueAbsent hnone).trans hqProfile
    scheduleInstalled := hout.scheduleInstalled
    scheduleAbsent := fun hnone => (hout.scheduleAbsent hnone).trans hqos
    limits := hotherInfo ▸ hout.limits }

end Unset

section Configuration

variable {α : Type} {C C' : Cells schema} {st : Startup} {alloc : Allocations}
  {osRelease : Option (List CStr)} {subsys : Subsystem} {sys sub : Uuid}

/-- What is left where the computation runs through. -/
theorem exactly_where {p : Prop} {m : OvsM α} {Q Q' : α → Cells schema → Prop}
    (h : Exactly C p m Q) (h' : p → Always C m Q') :
    Exactly C p m (fun a C' => Q a C' ∧ Q' a C') := by
  intro s hs
  refine ⟨fun hp => ?_, (h s hs).2⟩
  obtain ⟨a, s', C', hok, hs', hq⟩ := (h s hs).1 hp
  obtain ⟨_, C'', hs'', hq'⟩ := (h' hp).of_ok hs hok
  exact ⟨a, s', C', hok, hs', hq, hs''.unique hs' ▸ hq'⟩

theorem exactly_configureRest_policies (hsys : sys ∈ C.rows Table.system)
    (hinit : C.value sys Column.systemDaemons = [])
    (hempty : ∀ T ∈ profileTables, C.rows T.profile = []) (hunset : Unset sys C)
    (hdaemons : alloc.daemons = true) :
    Exactly C (PoliciesGiven st.policies) (configureRest st alloc osRelease sys)
      (fun _ C' => PoliciesOutcome st.external.queueAlgorithmStrict st.policies sys
        (insertedSystem sys) C') := by
  unfold configureRest
  rw [if_neg (by simp [hdaemons])]
  refine (always_addDaemons st hsys hinit).seq (fun _ C₁ h₁ => ?_)
  have hsys₁ := h₁.1.kept _ _ hsys
  have hunset₁ := hunset.extends hsys h₁.1 (by decide)
  refine (always_sysdUpdateSwInfo _ osRelease hsys₁).seq (fun _ C₂ h₂ => ?_)
  have hsys₂ := h₂.kept _ _ hsys₁
  have hunset₂ := hunset₁.extends hsys₁ h₂ (by decide)
  refine exactly_setCol hsys₂ ?_
  have hunset₃ := hunset₂.write (c := .systemTimezone) (by decide) dfltTimezone
  have hsys₃ : sys ∈ (C₂.write sys Column.systemTimezone dfltTimezone).rows Table.system := hsys₂
  have hbefore : BeforePolicies sys (C₂.write sys Column.systemTimezone dfltTimezone) := by
    have hne : ∀ T ∈ profileTables, T.profile ∉ [Table.daemon] := by decide
    refine ⟨hsys₃, fun T hT => ?_, ?_, ?_⟩
    · rw [Cells.write_rows, h₂.same _ (by simp), h₁.1.same _ (hne T hT), hempty T hT]
    · rw [hunset₃ .systemQosConfig (by decide)]
      exact List.nodup_nil
    · rw [hunset₃ .systemOtherInfo (by decide)]
      exact List.nodup_nil
  exact (exactly_where (exactly_initPolicies st hbefore.policyInv hsys₃)
    (always_initPolicies_outcome hbefore)).mono (fun _ C' h => outcome_of_unset hunset₃ h.2)

/-- The configuration up to the subsystems leaves these columns alone. -/
theorem exactly_based_unset {p : Prop} {Q : Unit → Cells schema → Prop}
    (hbase : st.subsystems.head? = some subsys)
    (hrest : ∀ sys bridge iface port vrf C, Based st subsys sys bridge iface port vrf C →
      Unset sys C → Exactly C p (configureSubsystems st alloc osRelease sys) Q) :
    Exactly (Txn.empty : Txn schema).cells (st.manifest.mgmtIntf.isSome = true ∧ p)
      (sysdInitialConfigure st alloc osRelease) Q := by
  have hcond : (∃ mgmtIntf, st.manifest.mgmtIntf = some mgmtIntf ∧
      ∃ base, st.subsystems.head? = some base ∧ p) ↔
        st.manifest.mgmtIntf.isSome = true ∧ p := by
    simp [hbase, Option.isSome_iff_exists]
  rw [sysdInitialConfigure_eq]
  refine Exactly.congr ?_ hcond
  refine exactly_insert (fun sys hsys => Exactly.deref (fun mgmtIntf hmgmt => ?_))
  refine exactly_setCol Cells.mem_insert_self ?_
  have h₂ := started_insert sys (datumFromSmap [(st.external.mgmtIntfMapName, mgmtIntf.name)])
  have hunset₂ := (unset_insertedSystem sys).write (c := .systemMgmtIntf) (by decide)
    (datumFromSmap [(st.external.mgmtIntfMapName, mgmtIntf.name)])
  unfold insertedSystem at hunset₂
  generalize ((Txn.empty : Txn schema).cells.insert Table.system sys).write sys
    Column.systemMgmtIntf _ = C₂ at h₂ hunset₂ ⊢
  have hsys₂ : sys ∈ C₂.rows Table.system := by simp [h₂.systemRows]
  refine (always_sysdConfigureDefaultBridge st.external hsys₂).seq (fun _ C₃ h₃ => ?_)
  obtain ⟨bridge, iface, port, h₃⟩ := h₃
  have hsys₃ := h₃.keeps.kept _ _ hsys₂
  have hunset₃ := hunset₂.extends hsys₂ h₃.keeps (by decide)
  refine (always_sysdConfigureDefaultVrf st.external hsys₃).seq (fun _ C₄ h₄ => ?_)
  obtain ⟨h₄, vrf, hvrf, hvrfs, hnew⟩ := h₄
  have hsys₄ := h₄.kept _ _ hsys₃
  have hunset₄ := hunset₃.extends hsys₃ h₄ (by decide)
  refine Exactly.deref (fun base hbase' => ?_)
  obtain rfl : base = subsys := Option.some.inj (hbase'.symm.trans hbase)
  exact exactly_setCol hsys₄ (exactly_setCol hsys₄ (hrest sys bridge iface port vrf _
    (.of_steps hmgmt h₂ h₃ h₄ hvrf hvrfs hnew)
    ((hunset₄.write (c := .systemManagementMac) (by decide) _).write
      (c := .systemSystemMac) (by decide) _)))

theorem exactly_sysdInitialConfigure_policies (hone : st.subsystems = [subsys])
    (hsubsystems : alloc.subsystems = true) (hinterfaces : alloc.interfaces = true)
    (hdaemons : alloc.daemons = true) :
    Exactly (Txn.empty : Txn schema).cells (st.manifest.mgmtIntf.isSome = true ∧
        PortsFit subsys ∧ PoliciesGiven st.policies)
      (sysdInitialConfigure st alloc osRelease) (fun _ C' => ∃ sys ∈ C'.rows Table.system,
        PoliciesOutcome st.external.queueAlgorithmStrict st.policies sys (insertedSystem sys)
          C') := by
  refine exactly_based_unset (by rw [hone]; rfl) (fun sys bridge iface port vrf C h hunset => ?_)
  have hsys : sys ∈ C.rows Table.system := by simp [h.systemRows]
  unfold configureSubsystems
  rw [if_neg (by simp [hsubsystems]), hone, List.mapM_cons, List.mapM_nil, bind_assoc]
  refine (exactly_sysdInitialSubsystemAdd st hinterfaces subsys).bind (fun sub C₁ h₁ => ?_)
  obtain ⟨intfs, hadded⟩ := h₁
  rw [pure_bind, pure_bind]
  have hsys₁ := hadded.keeps.kept _ _ hsys
  refine exactly_setCol hsys₁ ?_
  have hunset₁ := (hunset.extends hsys hadded.keeps (by decide)).write
    (c := .systemSubsystems) (by decide) [sub]
  have hinit : (C₁.write sys Column.systemSubsystems [sub]).value sys Column.systemDaemons =
      [] := by
    rw [Cells.write_value_of_column_ne (by decide), hadded.keeps.value _ _ hsys _ (by decide),
      h.systemDaemons]
  have hempty : ∀ T ∈ profileTables,
      (C₁.write sys Column.systemSubsystems [sub]).rows T.profile = [] := by
    intro T hT
    rw [Cells.write_rows, hadded.keeps.same _ (profile_apart T hT).1,
      h.empty _ (profile_apart T hT).2]
  have hsys₂ : sys ∈ (C₁.write sys Column.systemSubsystems [sub]).rows Table.system := hsys₁
  refine (exactly_and (exactly_configureRest_policies hsys₂ hinit hempty hunset₁ hdaemons)
    ((exactly_configureRest hsys₂ hinit hempty).congr (by simp [hdaemons]))).mono ?_
  rintro _ C₂ ⟨houtcome, hkeeps, _⟩
  exact ⟨sys, hkeeps.kept _ _ hsys₂, houtcome⟩

/-- One transaction is the whole configuration of an empty database. -/
structure WholeConfiguration (st : Startup) (subsys : Subsystem) (osRelease : Option (List CStr))
    (t : Txn schema) : Prop where
  rows : ∃ system subsystem bridge iface port vrf intfs,
    CoreRows st subsys t.inserted system subsystem bridge iface port vrf intfs ∧
      SettingsRows st subsys osRelease system subsystem
  policies : ∃ system, tableRows .system t.inserted = [system] ∧
    PoliciesOutcome st.external.queueAlgorithmStrict st.policies system.uuid
      (insertedSystem system.uuid) t.cells

theorem wholeConfiguration_of_ok (hone : st.subsystems = [subsys]) {s s' : Idl schema}
    {t : Txn schema} (hs : Filling s (Txn.empty : Txn schema).cells)
    (hok : sysdInitialConfigure st ⟨true, true, true⟩ osRelease s = .ok ((), s'))
    (ht : s'.txn = .opened t) : WholeConfiguration st subsys osRelease t := by
  obtain ⟨t', ht', _, system, subsystem, bridge, iface, port, vrf, intfs, hcore, hsettings⟩ :=
    settingsRows_of_ok hone hs hok
  obtain rfl : t = t' := TxnState.opened.inj (ht.symm.trans ht')
  obtain ⟨_, C', hs', sys, hsys, houtcome⟩ :=
    (exactly_sysdInitialConfigure_policies hone rfl rfl rfl).of_ok hs hok
  obtain ⟨t', ht', rfl, _⟩ := hs'.opened
  obtain rfl : t = t' := TxnState.opened.inj (ht.symm.trans ht')
  obtain rfl : sys = system.uuid := by
    rw [show t.cells.rows Table.system = (tableRows .system t.inserted).map Row.uuid from rfl,
      hcore.systemRows] at hsys
    exact List.mem_singleton.mp hsys
  exact ⟨⟨system, subsystem, bridge, iface, port, vrf, intfs, hcore, hsettings⟩, system,
    hcore.systemRows, houtcome⟩

end Configuration

end OpsSysd.InitialConfigure
