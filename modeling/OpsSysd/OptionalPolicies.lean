import OpsSysd.QosMaps
import OpsSysd.QueueProfiles
import OpsSysd.ScheduleProfiles

/-!
What the initial configuration makes of descriptions that are not there. The
start-up accepts a description without its quality-of-service or access-list
part; each initialiser then decides for itself what it can do without.
-/

namespace OpsSysd.QosInit

open CString Ovsdb Ovsrec Platform InitialConfigure

/-- What the description library answers while it is initialised, and the policies
that it has afterwards. -/
structure YamlOutcome where
  addSubsystem : ℤ
  parseDevices : ℤ
  parsePorts : ℤ
  parseFru : ℤ
  parseQos : ℤ
  parseAcl : ℤ
  initDevices : ℤ
  fruDeviceFound : Bool
  policies : YamlPolicies

def sysdCfgYamlOpen (o : YamlOutcome) : Bool := if o.addSubsystem ≠ 0 then false else true

/-- The result and `fru_yaml`. -/
def sysdCfgYamlInit (fruYamlNotFound : ℤ) (o : YamlOutcome) : Bool × Bool :=
  if !sysdCfgYamlOpen o then (false, true)
  else if 0 > o.parseDevices then (false, true)
  else if 0 > o.parsePorts then (false, true)
  else if o.parseFru ≠ fruYamlNotFound ∧ 0 > o.parseFru then (false, true)
  else
    let fruYaml : Bool := o.parseFru ≠ fruYamlNotFound
    -- the results for QoS and ACL are logged only
    if 0 > o.initDevices then (false, fruYaml)
    else if !o.fruDeviceFound then (false, fruYaml)
    else (true, fruYaml)

/-- The trust is in the map if it is given, and the map is otherwise as before. -/
structure TrustWritten (yaml : YamlPolicies) (before after : Smap) : Prop where
  present : ∀ info trust, yaml.qosInfo = some info → info.trust = some trust →
    smapGet after qosTrustKey = some trust
  absent : (∀ info, yaml.qosInfo = some info → info.trust = none) → after = before
  kept : ∀ k, k ≠ qosTrustKey → smapGet after k = smapGet before k

/-- The limits are in the map if they are given, and the map is otherwise as before. -/
structure LimitsWritten (yaml : YamlPolicies) (before after : Smap) : Prop where
  present : ∀ info, yaml.aclInfo = some info →
    smapGet after aclLimitKeyMaxAcls = some (decimal info.maxAcls) ∧
    smapGet after aclLimitKeyMaxAces = some (decimal info.maxAces) ∧
    smapGet after aclLimitKeyMaxAcesPerAcl = some (decimal info.maxAcesPerAcl)
  absent : yaml.aclInfo = none → after = before
  kept : ∀ k, k ∉ [aclLimitKeyMaxAcls, aclLimitKeyMaxAces, aclLimitKeyMaxAcesPerAcl] →
    smapGet after k = smapGet before k

/-- Every entry that is there has its row in the list of the System row; without
entries the list is as before. -/
structure MapTables.MapWritten (T : MapTables) (entries : List (Option YamlMapEntry)) (sys : Uuid)
    (before : List Uuid) (C' : Cells schema) : Prop where
  present : ∀ (i : ℕ) (e : YamlMapEntry), entries[i]? = some (some e) → ∃ u ∈ C'.rows T.entry,
    (T.system.value C' sys)[i]? = some u ∧ T.MapRow e C' u
  absent : (∀ entry ∈ entries, entry = none) → T.system.value C' sys = before

/-- Every name that is there has its profile with the entries that are there, and the
System row refers to the default one; without a default name it is as before. -/
structure ProfileTables.ProfilesWritten (T : ProfileTables) (content : Cells schema → Uuid → Prop)
    (info : Option YamlQosInfo) (sys : Uuid) (before : Option Uuid) (C' : Cells schema) :
    Prop where
  default : ∀ i name, info = some i → i.defaultName = some name → ∃ u,
    T.rowNamed C' name = some u ∧ content C' u ∧ T.system.value C' sys = some u
  factory : ∀ i name, info = some i → i.factoryDefaultName = some name → ∃ u,
    T.rowNamed C' name = some u ∧ content C' u
  absent : (∀ i, info = some i → i.defaultName = none) → T.system.value C' sys = before

/-- What is present is written and what is absent leaves its column as it was. -/
structure PoliciesWritten (strict : CStr) (yaml : YamlPolicies) (sys : Uuid) (C C' : Cells schema) :
    Prop where
  trust : TrustWritten yaml (C.value sys Column.systemQosConfig)
    (C'.value sys Column.systemQosConfig)
  dscpMap : dscpMapTables.MapWritten yaml.dscpMap sys
    (C.value sys Column.systemQosDscpMapEntries) C'
  cosMap : cosMapTables.MapWritten yaml.cosMap sys (C.value sys Column.systemQosCosMapEntries) C'
  queueProfiles : queueProfileTables.ProfilesWritten (QueueProfile (queueEntries yaml))
    yaml.qosInfo sys (C.value sys Column.systemQProfile) C'
  scheduleProfiles : scheduleProfileTables.ProfilesWritten
    (ScheduleProfile strict (scheduleEntries yaml)) yaml.qosInfo sys
    (C.value sys Column.systemQos) C'
  limits : LimitsWritten yaml (C.value sys Column.systemOtherInfo)
    (C'.value sys Column.systemOtherInfo)

/-- The transaction before the policies: it has the System row, whose maps have every
key once, and no profiles. -/
structure BeforePolicies (sys : Uuid) (C : Cells schema) : Prop where
  system : sys ∈ C.rows Table.system
  profiles : ∀ T ∈ profileTables, C.rows T.profile = []
  qosConfig : KeysNodup (C.value sys Column.systemQosConfig)
  otherInfo : KeysNodup (C.value sys Column.systemOtherInfo)

/-- The initialisers run through, whatever was done before them. -/
def PoliciesComplete (st : Startup) : Prop :=
  ∀ sys C, BeforePolicies sys C → Always C (initPolicies st sys) (fun _ C' =>
    PoliciesWritten st.external.queueAlgorithmStrict st.policies sys C C')

/-- A map has no entries, or entries that are all there, with their texts, and fit
its rows. -/
def MapUsable (count : ℕ) (entries : List (Option YamlMapEntry)) : Prop :=
  (∀ entry ∈ entries, entry = none) ∨
    entries.length ≤ count ∧ ∀ entry ∈ entries, ∃ e, entry = some e ∧ TextsGiven e

/-- What the initialisers need of the policies. -/
structure PoliciesUsable (yaml : YamlPolicies) : Prop where
  dscpMap : MapUsable qosDscpMapEntryCount yaml.dscpMap
  cosMap : MapUsable qosCosMapEntryCount yaml.cosMap
  names : ∀ info, yaml.qosInfo = some info →
    info.defaultName.isSome = true ∧ info.factoryDefaultName.isSome = true ∧ AlgorithmsGiven yaml
  aclInfo : yaml.aclInfo.isSome = true

section Steps

variable {C C' C'' : Cells schema} {sys : Uuid} {yaml : YamlPolicies}

theorem always_qosInitTrust_written (hsys : sys ∈ C.rows Table.system)
    (hnodup : KeysNodup (C.value sys Column.systemQosConfig)) :
    Always C (qosInitTrust yaml sys) (fun _ C' =>
      C.Extends [] [Column.systemQosConfig] C' ∧
        TrustWritten yaml (C.value sys Column.systemQosConfig)
          (C'.value sys Column.systemQosConfig)) := by
  unfold qosInitTrust
  cases hinfo : yaml.qosInfo with
  | none =>
    refine .pure ⟨.refl C, ?_, fun _ => rfl, fun _ _ => rfl⟩
    simp [hinfo]
  | some info =>
    dsimp only
    cases htrust : info.trust with
    | none =>
      refine .pure ⟨.refl C, fun info' trust' hinfo' htrust' => ?_, fun _ => rfl, fun _ _ => rfl⟩
      rw [hinfo, Option.some.injEq] at hinfo'
      rw [hinfo', htrust'] at htrust
      cases htrust
    | some trust =>
      have hget := fun k => smapGet_smapReplace (v := trust) (k := qosTrustKey) hnodup k
      have hdatum := smapGet_datumFromSmap_of_nodup (hnodup.smapReplace qosTrustKey trust)
      refine exactly_getCol hsys
        (always_setCol hsys ⟨(Cells.Extends.refl C).write (by simp) sys _, ?_⟩)
      rw [Cells.write_value]
      refine ⟨fun info' trust' hinfo' htrust' => ?_, fun habsent => ?_, fun k hk => ?_⟩
      · rw [hinfo, Option.some.injEq] at hinfo'
        subst hinfo'
        rw [htrust, Option.some.injEq] at htrust'
        rw [hdatum, hget, if_pos rfl, htrust']
      · rw [habsent info hinfo] at htrust
        cases htrust
      · rw [hdatum, hget, if_neg hk]

theorem always_aclInitLimits_written (hsys : sys ∈ C.rows Table.system)
    (hnodup : KeysNodup (C.value sys Column.systemOtherInfo))
    (hgiven : yaml.aclInfo.isSome = true) :
    Always C (aclInitLimits yaml sys) (fun _ C' =>
      C.Extends [] [Column.systemOtherInfo] C' ∧
        LimitsWritten yaml (C.value sys Column.systemOtherInfo)
          (C'.value sys Column.systemOtherInfo)) := by
  obtain ⟨info, hinfo⟩ := Option.isSome_iff_exists.mp hgiven
  unfold aclInitLimits
  rw [hinfo]
  refine (Exactly.deref (q := fun _ => True) (fun info' hinfo' => ?_)).congr (by simp)
  cases hinfo'
  have h₁ := hnodup.smapReplace aclLimitKeyMaxAcls (decimal info.maxAcls)
  have h₂ := h₁.smapReplace aclLimitKeyMaxAces (decimal info.maxAces)
  have h₃ := h₂.smapReplace aclLimitKeyMaxAcesPerAcl (decimal info.maxAcesPerAcl)
  refine exactly_getCol hsys (always_setCol hsys ⟨(Cells.Extends.refl C).write (by simp) sys _, ?_⟩)
  rw [Cells.write_value]
  refine ⟨fun info' hinfo' => ?_, fun habsent => ?_, fun k hk => ?_⟩
  · rw [hinfo, Option.some.injEq] at hinfo'
    subst hinfo'
    simp only [smapGet_datumFromSmap_of_nodup h₃, smapGet_smapReplace h₂, smapGet_smapReplace h₁,
      smapGet_smapReplace hnodup]
    exact ⟨rfl, rfl, rfl⟩
  · rw [hinfo] at habsent
    cases habsent
  · simp only [List.mem_cons, List.not_mem_nil, or_false, not_or] at hk
    rw [smapGet_datumFromSmap_of_nodup h₃, smapGet_smapReplace h₂, smapGet_smapReplace h₁,
      smapGet_smapReplace hnodup, if_neg hk.2.2, if_neg hk.2.1, if_neg hk.1]

end Steps

section Maps

variable {T : MapTables} {C C' C'' : Cells schema} {sys : Uuid} {before : List Uuid}
  {entries : List (Option YamlMapEntry)}

/-- What becomes of the entries: all are passed over if the first one is not there. -/
structure MapTables.MapOutcome (T : MapTables) (entries : List (Option YamlMapEntry)) (sys : Uuid)
    (before : List Uuid) (C' : Cells schema) : Prop where
  skipped : entries.head?.join = none → T.system.value C' sys = before
  present : entries.head?.join ≠ none → ∀ (i : ℕ) (e : YamlMapEntry),
    entries[i]? = some (some e) → ∃ u ∈ C'.rows T.entry,
      (T.system.value C' sys)[i]? = some u ∧ T.MapRow e C' u

theorem mapGiven_of_usable {count : ℕ} (h : MapUsable count entries) : MapGiven count entries := by
  intro hhead
  rcases h with hnone | ⟨hlength, hall⟩
  · cases entries with
    | nil => exact absurd rfl hhead
    | cons entry rest =>
      rw [List.head?_cons, hnone entry (by simp)] at hhead
      exact absurd rfl hhead
  · exact ⟨hlength, hall⟩

theorem always_initMap_outcome (hT : T.Lawful) (hsys : sys ∈ C.rows Table.system)
    (h : MapGiven T.count entries) :
    Always C (T.init entries sys) (fun _ C' => C.Extends [T.entry] [T.system.column] C' ∧
      T.MapOutcome entries sys (T.system.value C sys) C') := by
  refine ((exactly_initMap_filled hT hsys entries).congr (iff_true_intro h)).mono
    (fun _ C' h' => ?_)
  obtain ⟨hnone, hsome⟩ := h'
  by_cases hhead : entries.head?.join = none
  · rw [hnone hhead]
    exact ⟨.refl C, fun _ => rfl, fun hne => absurd hhead hne⟩
  · obtain ⟨us, hfilled⟩ := hsome hhead
    refine ⟨hfilled.extends, fun hnone => absurd hnone hhead, fun _ i e hi => ?_⟩
    have hi' : i < us.length := by
      rw [hfilled.length]
      exact Nat.lt_of_lt_of_le (List.getElem?_eq_some_iff.mp hi).1 (h hhead).1
    have hus : us[i]? = some us[i] := List.getElem?_eq_getElem hi'
    have hzip : (some e, us[i]) ∈ entries.zip us :=
      List.mem_of_getElem? (List.getElem?_zip_eq_some.mpr ⟨hi, hus⟩)
    obtain ⟨e', he', hrow⟩ := hfilled.written _ hzip
    cases he'
    refine ⟨us[i], ?_, ?_, hrow⟩
    · rw [hfilled.rows]
      exact List.mem_append_right _ (List.getElem_mem hi')
    · rw [hfilled.listed, hus]

/-- What is done elsewhere does not matter to a map. -/
theorem MapTables.MapOutcome.of_extends {Ts : List Table} {L : List Column}
    (h : T.MapOutcome entries sys before C') (hext : C'.Extends Ts L C'')
    (hsys : sys ∈ C'.rows Table.system) (hsystem : T.system.column ∉ L)
    (hcolumns : ∀ c ∈ T.rowColumns, c ∉ L) : T.MapOutcome entries sys before C'' := by
  have hlist : T.system.value C'' sys = T.system.value C' sys :=
    T.system.value_congr (hext.value _ sys hsys _ hsystem)
  refine ⟨fun hhead => hlist.trans (h.skipped hhead), fun hhead i e hi => ?_⟩
  obtain ⟨u, hu, hget, hrow⟩ := h.present hhead i e hi
  refine ⟨u, hext.kept _ u hu, hlist ▸ hget, hrow.of_same (fun c hc => ?_)⟩
  exact hext.value _ u hu c (hcolumns c hc)

theorem MapTables.MapOutcome.written {count : ℕ} (h : T.MapOutcome entries sys before C')
    (husable : MapUsable count entries) : T.MapWritten entries sys before C' := by
  refine ⟨fun i e hi => ?_, fun habsent => h.skipped ?_⟩
  · refine h.present (fun hhead => ?_) i e hi
    rcases husable with habsent | ⟨_, hall⟩
    · cases habsent _ (List.mem_of_getElem? hi)
    · cases entries with
      | nil => simp at hi
      | cons entry rest =>
        obtain ⟨e', rfl, _⟩ := hall entry (by simp)
        simp at hhead
  · cases entries with
    | nil => rfl
    | cons entry rest =>
      rw [List.head?_cons, habsent entry (by simp)]
      rfl

/-- Entries after an absent first one are not written. -/
theorem MapTables.MapOutcome.usable {count : ℕ} (h : T.MapOutcome entries sys [] C')
    (hgiven : MapGiven count entries) (hwritten : T.MapWritten entries sys [] C') :
    MapUsable count entries := by
  by_cases hhead : entries.head?.join = none
  · refine .inl (fun entry hentry => ?_)
    cases entry with
    | none => rfl
    | some e =>
      obtain ⟨i, hi⟩ := List.mem_iff_getElem?.mp hentry
      obtain ⟨u, _, hget, _⟩ := hwritten.present i e hi
      rw [h.skipped hhead] at hget
      simp at hget
  · exact .inr (hgiven hhead)

end Maps

/-- Between the cells the profile `u` of a name comes to hold the entries in `l`; profiles
of other names stay. -/
structure Grouping.Provided {T : ProfileTables} {E : Type} (G : Grouping T E) (l : List E)
    (profileName : CStr) (u : Uuid) (C C' : Cells schema) : Prop where
  found : T.rowNamed C' profileName = some u
  grouped : G.Grouped C' u (l.map G.key) l
  existing : ∀ v, T.rowNamed C profileName = some v → v = u
  others : ∀ name, name ≠ profileName → T.rowNamed C' name = T.rowNamed C name
  kept : ∀ name v qs l', name ≠ profileName → T.rowNamed C name = some v →
    G.Grouped C v qs l' → G.Grouped C' v qs l'
  widens : C.Extends [T.profile, T.entry] (T.name.column :: T.entries.column :: G.columns) C'

/-- Both names have their profile, and the System row refers to the default one. -/
structure Grouping.Installed {T : ProfileTables} {E : Type} (G : Grouping T E) (l : List E)
    (sys : Uuid) (defaultName factoryName : CStr) (C' : Cells schema) : Prop where
  default : ∃ u, T.rowNamed C' defaultName = some u ∧ G.Grouped C' u (l.map G.key) l ∧
    T.system.value C' sys = some u
  factory : ∃ u, T.rowNamed C' factoryName = some u ∧ G.Grouped C' u (l.map G.key) l

/-- The columns that hold the profiles and their entries. -/
def Grouping.usedColumns {T : ProfileTables} {E : Type} (G : Grouping T E) : List Column :=
  T.name.column :: T.entries.column :: T.system.column :: G.columns

section Profiles

variable {T : ProfileTables} {E : Type} {G : Grouping T E} {C C' C'' : Cells schema}
  {u sys : Uuid} {l : List E} {defaultName factoryName profileName : CStr} {Ts : List Table}
  {L : List Column}

theorem Grouping.Created.provided (h : G.Created profileName u l C C') :
    G.Provided l profileName u C C' := by
  refine ⟨h.found, h.grouped, h.existing, fun name hne => h.rowNamed_of_ne hne,
    fun name v qs l' hne hv hgrouped => ?_, fun k w => h.kept, fun k hk => ?_, fun k w _ c hc => ?_⟩
  · have hvu : v ≠ u := by
      rintro rfl
      have hname := (ProfileTables.mem_of_rowNamed ((h.rowNamed_of_ne hne).trans hv)).2
      exact hne (hname.symm.trans (ProfileTables.mem_of_rowNamed h.found).2)
    exact (h.grouped_of_ne hgrouped hvu).1
  · simp only [List.mem_cons, List.not_mem_nil, or_false, not_or] at hk
    exact h.tables k hk.1 hk.2
  · simp only [List.mem_cons, not_or] at hc
    exact h.same w c (fun _ => ⟨hc.2.1, hc.1⟩) (fun _ => hc.2.2)

theorem Grouping.Grouped.provided (h : G.Grouped C u (l.map G.key) l)
    (hfound : T.rowNamed C profileName = some u) : G.Provided l profileName u C C := by
  refine ⟨hfound, h, fun v hv => ?_, fun _ _ => rfl, fun _ _ _ _ _ _ hgrouped => hgrouped, .refl C⟩
  rw [hfound] at hv
  exact (Option.some.inj hv).symm

theorem ProfileTables.rowNamed_of_extends (hext : C.Extends Ts L C') (hprofile : T.profile ∉ Ts)
    (hname : T.name.column ∉ L) (profileName : CStr) :
    T.rowNamed C' profileName = T.rowNamed C profileName := by
  unfold ProfileTables.rowNamed
  rw [hext.same _ hprofile]
  refine List.find?_congr (fun v hv => ?_)
  rw [T.name.value_congr (hext.value _ v hv _ hname)]

theorem Grouping.Grouped.of_extends {qs : List ℤ} (h : G.Grouped C u qs l)
    (hext : C.Extends Ts L C') (hentries : T.entries.column ∉ L)
    (hcolumns : ∀ c ∈ G.columns, c ∉ L) : G.Grouped C' u qs l :=
  h.of_same hext.kept (hext.value _ u h.profile _ hentries)
    (fun w hw c hc => hext.value _ w (h.rows w hw) c (hcolumns c hc))

/-- What is done elsewhere does not matter to the profiles. -/
theorem Grouping.Installed.of_extends (h : G.Installed l sys defaultName factoryName C)
    (hext : C.Extends Ts L C') (hsys : sys ∈ C.rows Table.system) (hprofile : T.profile ∉ Ts)
    (hcolumns : ∀ c ∈ G.usedColumns, c ∉ L) : G.Installed l sys defaultName factoryName C' := by
  have hname : T.name.column ∉ L := hcolumns _ (by simp [Grouping.usedColumns])
  have hentries : T.entries.column ∉ L := hcolumns _ (by simp [Grouping.usedColumns])
  have hsystem : T.system.column ∉ L := hcolumns _ (by simp [Grouping.usedColumns])
  have hrest : ∀ c ∈ G.columns, c ∉ L :=
    fun c hc => hcolumns c (by simp [Grouping.usedColumns, hc])
  obtain ⟨⟨u, hfound, hgrouped, hvalue⟩, ⟨u', hfound', hgrouped'⟩⟩ := h
  refine ⟨⟨u, ?_, hgrouped.of_extends hext hentries hrest, ?_⟩,
    ⟨u', ?_, hgrouped'.of_extends hext hentries hrest⟩⟩
  · rw [ProfileTables.rowNamed_of_extends hext hprofile hname, hfound]
  · rw [T.system.value_congr (hext.value _ sys hsys _ hsystem), hvalue]
  · rw [ProfileTables.rowNamed_of_extends hext hprofile hname, hfound']

theorem ProfileTables.Marked.extends (h : T.Marked u C C') :
    C.Extends [] [T.hwDefault.column, T.entryHwDefault.column] C' := by
  refine ⟨fun k w hw => by rwa [h.rows], fun k _ => by rw [h.rows], fun k w _ c hc => ?_⟩
  simp only [List.mem_cons, List.not_mem_nil, or_false, not_or] at hc
  exact h.same w c (fun _ => hc.1) (fun _ => hc.2)

section Steps

variable {C₁ C₃ : Cells schema} {u' : Uuid} (hT : T ∈ profileTables)
  (h₁ : G.Provided l defaultName u C C₁)
  (h₃ : G.Provided l factoryName u' (C₁.write sys T.system.column (T.system.encode (some u))) C₃)

theorem ProfileTables.setSystem_extends (T : ProfileTables) (C : Cells schema) (sys u : Uuid) :
    C.Extends [] [T.system.column]
      (C.write sys T.system.column (T.system.encode (some u))) :=
  (Cells.Extends.refl C).write (by simp) sys _

include hT h₁ h₃

/-- The second profile leaves the first in place, also when it is the same. -/
theorem Grouping.Provided.default_kept :
    T.rowNamed C₃ defaultName = some u ∧ G.Grouped C₃ u (l.map G.key) l := by
  have hcols := columnsApart hT
  have hcolsG : ∀ c ∈ G.columns, c ∉ [T.system.column] := by
    intro c hc heq
    exact G.apart c hc (by simp [List.mem_singleton.mp heq])
  have hfound : T.rowNamed (C₁.write sys T.system.column (T.system.encode (some u))) defaultName =
      some u := by
    rw [ProfileTables.rowNamed_write hcols.name_system, h₁.found]
  have hgrouped := h₁.grouped.of_extends (T.setSystem_extends C₁ sys u)
    (by simpa using hcols.entries_system) hcolsG
  by_cases hne : defaultName = factoryName
  · subst hne
    have heq := h₃.existing u hfound
    subst heq
    exact ⟨h₃.found, h₃.grouped⟩
  · exact ⟨(h₃.others _ hne).trans hfound, h₃.kept _ u _ _ hne hfound hgrouped⟩

theorem Grouping.Provided.installed (hsys : sys ∈ C.rows Table.system) :
    G.Installed l sys defaultName factoryName C₃ := by
  have hcols := columnsApart hT
  obtain ⟨hfound, hgrouped⟩ := h₁.default_kept hT h₃
  have hsys₁ : sys ∈ C₁.rows Table.system := h₁.widens.kept _ _ hsys
  have hnot : T.system.column ∉ T.name.column :: T.entries.column :: G.columns := by
    simp only [List.mem_cons, not_or]
    exact ⟨hcols.name_system.symm, hcols.entries_system.symm,
      fun hmem => G.apart _ hmem (by simp)⟩
  have hsystem : T.system.value C₃ sys = some u := by
    rw [T.system.value_congr (h₃.widens.value Table.system sys hsys₁ _ hnot)]
    exact T.system.value_write C₁ sys (some u)
  exact ⟨⟨u, hfound, hgrouped, hsystem⟩, ⟨u', h₃.found, h₃.grouped⟩⟩

omit hT in
theorem Grouping.Provided.extends_marked (h' : T.Marked u' C₃ C') :
    C.Extends [T.profile, T.entry]
      (T.hwDefault.column :: T.entryHwDefault.column :: G.usedColumns) C' := by
  have hused : T.name.column :: T.entries.column :: G.columns ⊆
      T.hwDefault.column :: T.entryHwDefault.column :: G.usedColumns := by
    intro c hc
    simp only [Grouping.usedColumns, List.mem_cons] at hc ⊢
    tauto
  have hmarked : [T.hwDefault.column, T.entryHwDefault.column] ⊆
      T.hwDefault.column :: T.entryHwDefault.column :: G.usedColumns := by
    simp
  have hlisted : [T.system.column] ⊆
      T.hwDefault.column :: T.entryHwDefault.column :: G.usedColumns := by
    simp [Grouping.usedColumns]
  have hstart : C.Extends [T.profile, T.entry]
      (T.hwDefault.column :: T.entryHwDefault.column :: G.usedColumns) C := .refl C
  have hfirst := hstart.step h₁.widens (by simp) hused
  have hsystem := hfirst.step (T.setSystem_extends C₁ sys u) (by simp) hlisted
  have hsecond := hsystem.step h₃.widens (by simp) hused
  exact hsecond.step h'.extends (by simp) hmarked

end Steps

/-- The marks are in none of the columns of the grouping. -/
theorem Grouping.usedColumns_notMarked (hT : T ∈ profileTables) :
    ∀ c ∈ G.usedColumns, c ∉ [T.hwDefault.column, T.entryHwDefault.column] := by
  have hcols := columnsApart hT
  intro c hc
  simp only [Grouping.usedColumns, List.mem_cons] at hc
  simp only [List.mem_cons, List.not_mem_nil, or_false, not_or]
  rcases hc with rfl | rfl | rfl | hc
  · exact ⟨hcols.name_hwDefault, hcols.name_entryHwDefault⟩
  · exact ⟨hcols.entries_hwDefault, hcols.entries_entryHwDefault⟩
  · exact ⟨hcols.hwDefault_system.symm, hcols.entryHwDefault_system.symm⟩
  · exact ⟨fun heq => G.apart c hc (by simp [heq]), fun heq => G.apart c hc (by simp [heq])⟩

/-- Both profiles, also of one name, where `ok` is what creating one needs. -/
theorem always_init_installed (ok : Cells schema → CStr → Prop) {create : CStr → OvsM Unit}
    {info : YamlQosInfo} (hT : T ∈ profileTables) (hsys : sys ∈ C.rows Table.system)
    (hdefault : info.defaultName = some defaultName)
    (hfactory : info.factoryDefaultName = some factoryName)
    (hcreate : ∀ C name, ok C name →
      Always C (create name) (fun _ C' => ∃ u, G.Provided l name u C C'))
    (hok : ok C defaultName)
    (hok' : ∀ u C₁, G.Provided l defaultName u C C₁ →
      ok (C₁.write sys T.system.column (T.system.encode (some u))) factoryName) :
    Always C (T.init create sys (some info)) (fun _ C' =>
      C.Extends [T.profile, T.entry]
        (T.hwDefault.column :: T.entryHwDefault.column :: G.usedColumns) C' ∧
        G.Installed l sys defaultName factoryName C') := by
  refine (always_init_steps ok hT hsys hdefault hfactory hcreate
    (fun name u C C' h => ⟨h.found, h.grouped.rows, h.widens.kept _⟩) hok hok').mono
    (fun _ C' h => ?_)
  obtain ⟨u, u', C₁, C₃, h₁, h₃, h'⟩ := h
  have hsys₃ : sys ∈ C₃.rows Table.system := h₃.widens.kept _ _ (h₁.widens.kept _ _ hsys)
  exact ⟨h₁.extends_marked h₃ h', (h₁.installed hT h₃ hsys).of_extends h'.extends hsys₃ (by simp)
    (Grouping.usedColumns_notMarked hT)⟩

/-- What both profiles come to, if their names are there. -/
structure Grouping.InitOutcome {T : ProfileTables} {E : Type} (G : Grouping T E) (l : List E)
    (info : Option YamlQosInfo) (sys : Uuid) (C C' : Cells schema) : Prop where
  widens : C.Extends [T.profile, T.entry]
    (T.hwDefault.column :: T.entryHwDefault.column :: G.usedColumns) C'
  absent : info = none → C' = C
  installed : ∀ i d f, info = some i → i.defaultName = some d → i.factoryDefaultName = some f →
    G.Installed l sys d f C'

theorem always_init_outcome (ok : Cells schema → CStr → Prop) {create : CStr → OvsM Unit}
    {info : Option YamlQosInfo} (hT : T ∈ profileTables) (hsys : sys ∈ C.rows Table.system)
    (hnames : ∀ i, info = some i →
      i.defaultName.isSome = true ∧ i.factoryDefaultName.isSome = true)
    (hcreate : info ≠ none → ∀ C name, ok C name →
      Always C (create name) (fun _ C' => ∃ u, G.Provided l name u C C'))
    (hok : ∀ name, ok C name)
    (hok' : ∀ d f u C₁, G.Provided l d u C C₁ →
      ok (C₁.write sys T.system.column (T.system.encode (some u))) f) :
    Always C (T.init create sys info) (fun _ C' => G.InitOutcome l info sys C C') := by
  cases hinfo : info with
  | none => exact .pure ⟨.refl C, fun _ => rfl, fun _ _ _ h => (by cases h)⟩
  | some i =>
    obtain ⟨hdefault, hfactory⟩ := hnames i hinfo
    obtain ⟨defaultName, hdefault⟩ := Option.isSome_iff_exists.mp hdefault
    obtain ⟨factoryName, hfactory⟩ := Option.isSome_iff_exists.mp hfactory
    refine (always_init_installed ok hT hsys hdefault hfactory (hcreate (by simp [hinfo]))
      (hok defaultName) (hok' defaultName factoryName)).mono (fun _ C' h => ?_)
    refine ⟨h.1, fun hnone => (by cases hnone), ?_⟩
    rintro i' d f hi' hd hf
    cases hi'
    rw [hdefault] at hd
    rw [hfactory] at hf
    cases hd
    cases hf
    exact h.2

end Profiles

section Families

variable {C C' : Cells schema} {sys : Uuid} {yaml : YamlPolicies}

/-- A queue profile can be created if it is new or holds the entries already. -/
def QueueProfileReady (yaml : YamlPolicies) (C : Cells schema) (profileName : CStr) : Prop :=
  queueProfileTables.rowNamed C profileName = none ∨
    ∃ u, queueProfileTables.rowNamed C profileName = some u ∧
      queueGrouping.Grouped C u ((queueEntries yaml).map queueGrouping.key) (queueEntries yaml)

theorem always_qosQueueProfileCreateFactoryDefault_provided {profileName : CStr}
    (h : QueueProfileReady yaml C profileName) :
    Always C (qosQueueProfileCreateFactoryDefault yaml profileName) (fun _ C' =>
      ∃ u, queueGrouping.Provided (queueEntries yaml) profileName u C C') := by
  rcases h with hnone | ⟨u, hfound, hgrouped⟩
  · exact (always_qosQueueProfileCreateFactoryDefault_new hnone).mono
      (fun _ C' ⟨u, h⟩ => ⟨u, h.provided⟩)
  · refine (always_qosQueueProfileCreateFactoryDefault_again hfound hgrouped).mono
      (fun _ C' h => ⟨u, ?_⟩)
    rw [h]
    exact hgrouped.provided hfound

theorem always_qosInitQueueProfile_outcome (hsys : sys ∈ C.rows Table.system)
    (hempty : C.rows Table.qProfile = []) (hnames : ∀ info, yaml.qosInfo = some info →
      info.defaultName.isSome = true ∧ info.factoryDefaultName.isSome = true) :
    Always C (qosInitQueueProfile yaml sys) (fun _ C' =>
      queueGrouping.InitOutcome (queueEntries yaml) yaml.qosInfo sys C C') := by
  have hnone : ∀ name, queueProfileTables.rowNamed C name = none := by
    intro name
    refine ProfileTables.rowNamed_eq_none.mpr (fun v hv => ?_)
    rw [show C.rows queueProfileTables.profile = [] from hempty] at hv
    cases hv
  rw [qosInitQueueProfile_eq]
  refine always_init_outcome (QueueProfileReady yaml) queueProfileTables_mem hsys hnames
    (fun _ C₁ name h => always_qosQueueProfileCreateFactoryDefault_provided h)
    (fun name => .inl (hnone name)) (fun d f u C₁ h₁ => ?_)
  have hwrite := queueProfileTables.setSystem_extends C₁ sys u
  have hrow := ProfileTables.rowNamed_of_extends hwrite (T := queueProfileTables)
    (by simp) (by decide) f
  by_cases hne : f = d
  · subst hne
    exact .inr ⟨u, hrow.trans h₁.found, h₁.grouped.of_extends hwrite (by decide) (by decide)⟩
  · exact .inl (hrow.trans ((h₁.others _ hne).trans (hnone f)))

theorem always_qosInitScheduleProfile_outcome {strict : CStr} (hsys : sys ∈ C.rows Table.system)
    (hnames : ∀ info, yaml.qosInfo = some info →
      info.defaultName.isSome = true ∧ info.factoryDefaultName.isSome = true)
    (hgiven : yaml.qosInfo ≠ none → AlgorithmsGiven yaml) :
    Always C (qosInitScheduleProfile strict yaml sys) (fun _ C' =>
      (scheduleGrouping strict).InitOutcome (scheduleEntries yaml) yaml.qosInfo sys C C') := by
  rw [qosInitScheduleProfile_eq]
  refine always_init_outcome (fun _ _ => True) scheduleProfileTables_mem hsys hnames
    (fun hinfo C₁ name _ => ?_) (fun _ => trivial) (fun _ _ _ _ _ => trivial)
  exact (always_qosScheduleProfileCreateFactoryDefault_created (hgiven hinfo) C₁ name).mono
    (fun _ C' ⟨u, h⟩ => ⟨u, h.provided⟩)

end Families

/-- What the initialisers leave, one after the other. -/
structure PoliciesOutcome (strict : CStr) (yaml : YamlPolicies) (sys : Uuid) (C C' : Cells schema) :
    Prop where
  trust : TrustWritten yaml (C.value sys Column.systemQosConfig)
    (C'.value sys Column.systemQosConfig)
  dscpMap : dscpMapTables.MapOutcome yaml.dscpMap sys
    (C.value sys Column.systemQosDscpMapEntries) C'
  cosMap : cosMapTables.MapOutcome yaml.cosMap sys (C.value sys Column.systemQosCosMapEntries) C'
  queueInstalled : ∀ i d f, yaml.qosInfo = some i → i.defaultName = some d →
    i.factoryDefaultName = some f → queueGrouping.Installed (queueEntries yaml) sys d f C'
  queueAbsent : yaml.qosInfo = none →
    C'.value sys Column.systemQProfile = C.value sys Column.systemQProfile
  scheduleInstalled : ∀ i d f, yaml.qosInfo = some i → i.defaultName = some d →
    i.factoryDefaultName = some f →
      (scheduleGrouping strict).Installed (scheduleEntries yaml) sys d f C'
  scheduleAbsent : yaml.qosInfo = none →
    C'.value sys Column.systemQos = C.value sys Column.systemQos
  limits : LimitsWritten yaml (C.value sys Column.systemOtherInfo)
    (C'.value sys Column.systemOtherInfo)

/-- The columns of the schedule profiles. -/
def scheduleColumns : List Column :=
  [.qosName, .qosQueues, .systemQos, .queueAlgorithm, .queueWeight]

section Policies

variable {st : Startup} {C C' : Cells schema} {sys : Uuid} {strict : CStr} {yaml : YamlPolicies}

/-- Every initialiser writes its own columns and adds rows to its own tables. -/
theorem always_initPolicies_outcome (h : BeforePolicies sys C)
    (hgiven : PoliciesGiven st.policies) :
    Always C (initPolicies st sys) (fun _ C' =>
      PoliciesOutcome st.external.queueAlgorithmStrict st.policies sys C C') := by
  have hdscp := lawful_mapTables dscpMapTables (by simp [mapTables])
  have hcos := lawful_mapTables cosMapTables (by simp [mapTables])
  have hnames : ∀ info, st.policies.qosInfo = some info →
      info.defaultName.isSome = true ∧ info.factoryDefaultName.isSome = true :=
    fun info hinfo => ⟨(hgiven.queueProfiles info hinfo).1, (hgiven.queueProfiles info hinfo).2.2⟩
  have halgorithms : st.policies.qosInfo ≠ none → AlgorithmsGiven st.policies := by
    intro hinfo
    obtain ⟨info, hinfo⟩ := Option.ne_none_iff_exists'.mp hinfo
    exact (hgiven.scheduleProfiles info hinfo).2.1
  unfold initPolicies
  refine (always_qosInitTrust_written h.system h.qosConfig).seq (fun _ C₁ h₁ => ?_)
  obtain ⟨he₁, htrust⟩ := h₁
  have hsys₁ := he₁.kept _ _ h.system
  refine (always_initMap_outcome hdscp hsys₁ hgiven.dscpMap).seq (fun _ C₂ h₂ => ?_)
  obtain ⟨he₂, hdscpMap⟩ := h₂
  have hsys₂ := he₂.kept _ _ hsys₁
  refine (always_initMap_outcome hcos hsys₂ hgiven.cosMap).seq (fun _ C₃ h₃ => ?_)
  obtain ⟨he₃, hcosMap⟩ := h₃
  have hsys₃ := he₃.kept _ _ hsys₂
  have hp₂ := he₁.append he₂
  have hp₃ := hp₂.append he₃
  have hempty : C₃.rows Table.qProfile = [] := by
    rw [hp₃.same _ (by decide)]
    exact h.profiles _ queueProfileTables_mem
  refine (always_qosInitQueueProfile_outcome hsys₃ hempty hnames).seq (fun _ C₄ h₄ => ?_)
  have hsys₄ := h₄.widens.kept _ _ hsys₃
  have hp₄ := hp₃.append h₄.widens
  refine (always_qosInitScheduleProfile_outcome hsys₄ hnames halgorithms).seq (fun _ C₅ h₅ => ?_)
  have hsys₅ := h₅.widens.kept _ _ hsys₄
  have he₅ : C₄.Extends [Table.qos, Table.queue]
      (Column.qosHwDefault :: Column.queueHwDefault :: scheduleColumns) C₅ := h₅.widens
  have hp₅ := hp₄.append he₅
  have hother : C₅.value sys Column.systemOtherInfo = C.value sys Column.systemOtherInfo :=
    hp₅.value _ sys h.system _ (by decide)
  refine (always_aclInitLimits_written hsys₅ (hother ▸ h.otherInfo) hgiven.aclInfo).mono
    (fun _ C₆ h₆ => ?_)
  obtain ⟨he₆, hlimits⟩ := h₆
  have hq₅ := he₅.append he₆
  have hq₄ := h₄.widens.append hq₅
  have hq₃ := he₃.append hq₄
  have hq₂ := he₂.append hq₃
  refine ⟨?_, ?_, ?_, ?_, ?_, ?_, ?_, ?_⟩
  · rw [hq₂.value _ sys hsys₁ _ (by decide)]
    exact htrust
  · have hbefore : C₁.value sys Column.systemQosDscpMapEntries =
        C.value sys Column.systemQosDscpMapEntries := he₁.value _ sys h.system _ (by decide)
    rw [← hbefore]
    exact hdscpMap.of_extends hq₃ hsys₂ (by decide) (by decide)
  · have hbefore : C₂.value sys Column.systemQosCosMapEntries =
        C.value sys Column.systemQosCosMapEntries := hp₂.value _ sys h.system _ (by decide)
    rw [← hbefore]
    exact hcosMap.of_extends hq₄ hsys₃ (by decide) (by decide)
  · exact fun i d f hi hd hf =>
      (h₄.installed i d f hi hd hf).of_extends hq₅ hsys₄ (by decide) (by decide)
  · intro hnone
    rw [hq₅.value _ sys hsys₄ _ (by decide), h₄.absent hnone,
      hp₃.value _ sys h.system _ (by decide)]
  · have hcolumns : ∀ c ∈ scheduleColumns, c ∉ [Column.systemOtherInfo] := by decide
    exact fun i d f hi hd hf =>
      (h₅.installed i d f hi hd hf).of_extends he₆ hsys₅ (by decide) hcolumns
  · intro hnone
    rw [he₆.value _ sys hsys₅ _ (by decide), h₅.absent hnone,
      hp₄.value _ sys h.system _ (by decide)]
  · rw [← hother]
    exact hlimits

theorem ProfileTables.profilesWritten {T : ProfileTables} {E : Type} {G : Grouping T E} {l : List E}
    {content : Cells schema → Uuid → Prop} {info : Option YamlQosInfo} {before : Option Uuid}
    (hcontent : ∀ u, G.Grouped C' u (l.map G.key) l → content C' u)
    (hnames : ∀ i, info = some i →
      i.defaultName.isSome = true ∧ i.factoryDefaultName.isSome = true)
    (hinstalled : ∀ i d f, info = some i → i.defaultName = some d →
      i.factoryDefaultName = some f → G.Installed l sys d f C')
    (habsent : info = none → T.system.value C' sys = before) :
    T.ProfilesWritten content info sys before C' := by
  refine ⟨fun i d hi hd => ?_, fun i f hi hf => ?_, fun hnone => ?_⟩
  · obtain ⟨f, hf⟩ := Option.isSome_iff_exists.mp (hnames i hi).2
    obtain ⟨u, hfound, hgrouped, hsystem⟩ := (hinstalled i d f hi hd hf).default
    exact ⟨u, hfound, hcontent u hgrouped, hsystem⟩
  · obtain ⟨d, hd⟩ := Option.isSome_iff_exists.mp (hnames i hi).1
    obtain ⟨u, hfound, hgrouped⟩ := (hinstalled i d f hi hd hf).factory
    exact ⟨u, hfound, hcontent u hgrouped⟩
  · cases hinfo : info with
    | none => exact habsent hinfo
    | some i =>
      have hsome := (hnames i hinfo).1
      rw [hnone i hinfo] at hsome
      cases hsome

theorem policiesGiven_of_usable (h : PoliciesUsable yaml) : PoliciesGiven yaml where
  dscpMap := mapGiven_of_usable h.dscpMap
  cosMap := mapGiven_of_usable h.cosMap
  queueProfiles info hinfo := ⟨(h.names info hinfo).1, trivial, (h.names info hinfo).2.1⟩
  scheduleProfiles info hinfo :=
    ⟨(h.names info hinfo).1, (h.names info hinfo).2.2, (h.names info hinfo).2.1⟩
  aclInfo := h.aclInfo

theorem PoliciesOutcome.written (h : PoliciesOutcome strict yaml sys C C')
    (husable : PoliciesUsable yaml) : PoliciesWritten strict yaml sys C C' := by
  have hnames : ∀ i, yaml.qosInfo = some i →
      i.defaultName.isSome = true ∧ i.factoryDefaultName.isSome = true :=
    fun i hi => ⟨(husable.names i hi).1, (husable.names i hi).2.1⟩
  refine ⟨h.trust, h.dscpMap.written husable.dscpMap, h.cosMap.written husable.cosMap, ?_, ?_,
    h.limits⟩
  · exact ProfileTables.profilesWritten (fun u hu => queueProfile_of_grouped hu) hnames
      h.queueInstalled h.queueAbsent
  · cases hinfo : yaml.qosInfo with
    | none =>
      exact ⟨fun i _ hi => (by cases hi), fun i _ hi => (by cases hi),
        fun _ => h.scheduleAbsent hinfo⟩
    | some i =>
      have halgorithm : ∀ e ∈ scheduleEntries yaml, e.algorithm.isSome = true := by
        intro e he
        obtain ⟨entry, hentry, heq⟩ := List.mem_filterMap.mp he
        exact (husable.names i hinfo).2.2 entry hentry e heq
      rw [← hinfo]
      exact ProfileTables.profilesWritten
        (fun u hu => scheduleProfile_of_grouped halgorithm hu) hnames h.scheduleInstalled
        h.scheduleAbsent

/-- A transaction that has only the System row. -/
theorem beforePolicies_insert (sys : Uuid) :
    BeforePolicies sys ((Txn.empty : Txn schema).cells.insert Table.system sys) where
  system := Cells.mem_insert_self
  profiles := by
    have hne : ∀ T ∈ profileTables, T.profile ≠ Table.system := by decide
    intro T hT
    rw [Cells.insert_rows_of_ne (hne T hT)]
    rfl
  qosConfig := List.nodup_nil
  otherInfo := List.nodup_nil

theorem BeforePolicies.policyInv (h : BeforePolicies sys C) : PolicyInv C C := by
  refine ⟨.refl C, fun T hT u hu => ?_⟩
  rw [h.profiles T hT] at hu
  cases hu

theorem policiesComplete_iff (st : Startup) :
    PoliciesComplete st ↔ PoliciesUsable st.policies := by
  constructor
  · intro hcomplete
    obtain ⟨sys, s, _, _, hs⟩ := (filling_opening schema).txnInsert Table.system
    have hbefore := beforePolicies_insert sys
    obtain ⟨hgiven, _, C', hwritten, _⟩ := (hcomplete sys _ hbefore).agree
      (exactly_initPolicies st hbefore.policyInv hbefore.system) hs trivial
    obtain ⟨_, _, C'', hwritten, houtcome⟩ := (hcomplete sys _ hbefore).agree
      (always_initPolicies_outcome hbefore hgiven) hs trivial
    refine ⟨houtcome.dscpMap.usable hgiven.dscpMap hwritten.dscpMap,
      houtcome.cosMap.usable hgiven.cosMap hwritten.cosMap, fun info hinfo => ?_, hgiven.aclInfo⟩
    exact ⟨(hgiven.queueProfiles info hinfo).1, (hgiven.queueProfiles info hinfo).2.2,
      (hgiven.scheduleProfiles info hinfo).2.1⟩
  · intro husable sys C hbefore
    exact (always_initPolicies_outcome hbefore (policiesGiven_of_usable husable)).mono
      (fun _ C' h => h.written husable)

/-- A description is accepted whatever its QoS and ACL parts are; it can be used if what
the initialisers read without a check is there. -/
theorem optionalPolicies_iff (fruYamlNotFound : ℤ) (o : YamlOutcome) (st : Startup)
    (haccepted : (sysdCfgYamlInit fruYamlNotFound o).1 = true)
    (hpolicies : st.policies = o.policies) :
    (∀ rc rc', (sysdCfgYamlInit fruYamlNotFound
      { o with parseQos := rc, parseAcl := rc' }).1 = true) ∧
      (PoliciesComplete st ↔ PoliciesUsable o.policies) :=
  ⟨fun _ _ => haccepted, hpolicies ▸ policiesComplete_iff st⟩

end Policies

/-- All files parse but the two that may fail. -/
def withoutPolicyFiles : YamlOutcome where
  addSubsystem := 0
  parseDevices := 0
  parsePorts := 0
  parseFru := 0
  parseQos := -1
  parseAcl := -1
  initDevices := 0
  fruDeviceFound := true
  policies := ⟨none, [], [], [], [], none⟩

/-- The file with the access-list limits parses. -/
def withoutQosFile : YamlOutcome :=
  { withoutPolicyFiles with
    parseAcl := 0
    policies := ⟨none, [], [], [], [], some ⟨512, 1024, 512⟩⟩ }

/-- A platform with these policies. -/
def startupOf (o : YamlOutcome) : Startup :=
  { Startup.plain .empty ⟨rfl, rfl⟩ with policies := o.policies }

theorem optionalPolicies_iff_withoutQos : PoliciesComplete (startupOf withoutQosFile) := by
  refine ((optionalPolicies_iff (-2) withoutQosFile (startupOf withoutQosFile) (by decide)
    rfl).2).mpr ⟨.inl (by simp [withoutQosFile]), .inl (by simp [withoutQosFile]), ?_, rfl⟩
  intro info hinfo
  cases hinfo

/-- Without the limits the start-up is accepted and then ends at a NULL pointer. -/
theorem withoutPolicyFiles_notComplete :
    (sysdCfgYamlInit (-2) withoutPolicyFiles).1 = true ∧
      ¬ PoliciesComplete (startupOf withoutPolicyFiles) := by
  refine ⟨by decide, fun hcomplete => ?_⟩
  have hgiven := ((policiesComplete_iff _).mp hcomplete).aclInfo
  cases hgiven

end OpsSysd.QosInit
