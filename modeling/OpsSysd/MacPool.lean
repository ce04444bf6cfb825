import OpsSysd.ConfigureComplete
import OpsSysd.FruRead

/-!
The pool of MAC addresses from the FRU record to the database. Two addresses are
handed out when the subsystem is set up; the System row publishes both without
asking whether there was one to hand out.
-/

namespace OpsSysd.MacPool

open CString Ovsdb Ovsrec Platform Fru InitialConfigure

/-- The low 48 bits of an address, the most significant byte first. -/
def macBytes (n : ℕ) : List UInt8 :=
  [UInt8.ofNat (n / 2 ^ 40), UInt8.ofNat (n / 2 ^ 32), UInt8.ofNat (n / 2 ^ 24),
    UInt8.ofNat (n / 2 ^ 16), UInt8.ofNat (n / 2 ^ 8), UInt8.ofNat n]

/-- The library prints the low 48 bits. -/
def PrintsMac (ext : External) : Prop := ∀ n, ext.etherString n = macFormat (macBytes n)

/-- A text is that of a 48-bit address. -/
def Publishes (ext : External) (text : CStr) (a : ℕ) : Prop :=
  a < 2 ^ 48 ∧ text = ext.etherString a

/-- What is published comes from the pool, and the pool is accounted for. -/
structure Conserved (ext : External) (base numMacs : ℕ) (db : List OvsRow) (handedOut : List ℕ)
    (system subsystem : OvsRow) : Prop where
  systemRows : tableRows .system db = [system]
  subsystemRows : tableRows .subsystem db = [subsystem]
  distinct : handedOut.Nodup
  fromPool : ∀ a ∈ handedOut, base ≤ a ∧ a < base + numMacs
  published : ∀ a ∈ handedOut, Publishes ext (system.col .systemManagementMac) a ∨
    Publishes ext (system.col .systemSystemMac) a
  managementMac : ∃ a ∈ handedOut, Publishes ext (system.col .systemManagementMac) a
  systemMac : ∃ a ∈ handedOut, Publishes ext (system.col .systemSystemMac) a
  interfaceMacs : ∀ r ∈ tableRows .interface db, ∀ text,
    smapGet (r.col .interfaceHwIntfInfo) ext.macAddr = some text →
      ∃ a ∈ handedOut, Publishes ext text a
  apart : system.col .systemManagementMac ≠ system.col .systemSystemMac
  nextMacAddress :
    Publishes ext (subsystem.col .subsystemNextMacAddress) (base + handedOut.length)
  nextUnused : ∀ a ∈ handedOut, ¬ Publishes ext (subsystem.col .subsystemNextMacAddress) a
  macsRemaining : subsystem.col .subsystemMacsRemaining + (handedOut.length : ℤ) = numMacs
  notNegative : (0 : ℤ) ≤ subsystem.col .subsystemMacsRemaining

/-- The open transaction conserves the pool. -/
def ConservesPool (ext : External) (base numMacs : ℕ) (s : Idl schema) : Prop :=
  ∃ t, s.txn = .opened t ∧ ∃ handedOut system subsystem,
    Conserved ext base numMacs t.inserted handedOut system subsystem

section MacText

theorem hexDigit_injective : ∀ m < 16, ∀ n < 16, hexDigit m = hexDigit n → m = n := by decide

theorem hexDigit_lt : ∀ n < 16, (hexDigit n).toNat < 116 := by decide

theorem eq_of_hexDigits {a b : UInt8} (hhigh : hexDigit (a.toNat / 16) = hexDigit (b.toNat / 16))
    (hlow : hexDigit (a.toNat % 16) = hexDigit (b.toNat % 16)) : a = b := by
  have ha := a.toNat_lt
  have hb := b.toNat_lt
  have h₁ := hexDigit_injective _ (by omega) _ (by omega) hhigh
  have h₂ := hexDigit_injective _ (Nat.mod_lt _ (by decide)) _ (Nat.mod_lt _ (by decide)) hlow
  apply UInt8.toNat_inj.mp
  omega

/-- The text determines the low 48 bits. -/
theorem macBytes_of_macFormat {m n : ℕ} (h : macFormat (macBytes m) = macFormat (macBytes n)) :
    macBytes m = macBytes n := by
  simp only [macBytes, macFormat, List.cons.injEq, true_and, and_true] at h
  obtain ⟨h₅, l₅, h₄, l₄, h₃, l₃, h₂, l₂, h₁, l₁, h₀, l₀⟩ := h
  unfold macBytes
  rw [eq_of_hexDigits h₅ l₅, eq_of_hexDigits h₄ l₄, eq_of_hexDigits h₃ l₃, eq_of_hexDigits h₂ l₂,
    eq_of_hexDigits h₁ l₁, eq_of_hexDigits h₀ l₀]

theorem bigEndian_macBytes (n : ℕ) : bigEndian (macBytes n) = n % 2 ^ 48 := by
  simp only [macBytes, bigEndian, List.foldl_cons, List.foldl_nil, UInt8.toNat_ofNat']
  omega

variable {ext : External} {m n : ℕ}

theorem mod_of_etherString (hprints : PrintsMac ext) (h : ext.etherString m = ext.etherString n) :
    m % 2 ^ 48 = n % 2 ^ 48 := by
  rw [hprints, hprints] at h
  rw [← bigEndian_macBytes, ← bigEndian_macBytes, macBytes_of_macFormat h]

theorem etherString_ne (hprints : PrintsMac ext) (hm : m < 2 ^ 48) (hn : n < 2 ^ 48)
    (hne : m ≠ n) : ext.etherString m ≠ ext.etherString n := by
  intro h
  have hmod := mod_of_etherString hprints h
  rw [Nat.mod_eq_of_lt hm, Nat.mod_eq_of_lt hn] at hmod
  exact hne hmod

/-- An address sorts before the word that marks a capability. -/
theorem not_true_lt_etherString (hprints : PrintsMac ext) (n : ℕ) :
    ¬ cstr "true" < ext.etherString n := by
  rw [hprints]
  exact not_true_lt_cons (hexDigit_lt _ (by have := (UInt8.ofNat (n / 2 ^ 40)).toNat_lt; omega))

theorem etherString_ne_nil (hprints : PrintsMac ext) (n : ℕ) : ext.etherString n ≠ [] := by
  rw [hprints]
  simp [macBytes, macFormat]

end MacText

section Assignment

variable {ptr : Subsystem}

theorem assignMacs_base (h : 2 ≤ ptr.fruEeprom.numMacs.toNat) :
    assignMacs ptr = { ptr with
      mgmtMacAddr := bigEndian ptr.fruEeprom.baseMacAddress.bytes
      systemMacAddr := bigEndian ptr.fruEeprom.baseMacAddress.bytes + 1
      nxtMacAddr := bigEndian ptr.fruEeprom.baseMacAddress.bytes + 1 + 1
      numFreeMacs := (ptr.fruEeprom.numMacs.toNat : ℤ) - 1 - 1 } := by
  have hfirst : (ptr.fruEeprom.numMacs.toNat : ℤ) > 0 := by omega
  have hsecond : (ptr.fruEeprom.numMacs.toNat : ℤ) - 1 > 0 := by omega
  unfold assignMacs
  simp only [if_pos hfirst, if_pos hsecond]

theorem assignMacs_fruEeprom (ptr : Subsystem) :
    (assignMacs ptr).fruEeprom = ptr.fruEeprom := by
  unfold assignMacs
  simp only
  split_ifs <;> rfl

variable {crc32 : List UInt8 → UInt32} {p : FruPlatform} {allocates : Bool}

theorem exists_assignMacs (h : sysdGetSubsystemInfo crc32 p allocates = some ptr) :
    ∃ before, ptr = assignMacs before := by
  unfold sysdGetSubsystemInfo at h
  simp only at h
  split_ifs at h
  exact ⟨_, (Option.some.inj h).symm⟩

end Assignment

section Interfaces

variable {ext : External} {subsys : Subsystem} {intf : YamlPort}

/-- A capability of the same name does not hide the address. -/
theorem smapGet_portHwIntfInfo_macAddr (hkeys : External.KeysApart ext) (hprints : PrintsMac ext)
    (hmac : subsys.systemMacAddr ≠ 0) :
    smapGet (datumFromSmap (portHwIntfInfo ext subsys intf)) ext.macAddr =
      some (ext.etherString subsys.systemMacAddr) := by
  have hnodup : ((hwIntfInfoFixed ext intf).map Prod.fst ++ [ext.macAddr]).Nodup := hkeys
  obtain ⟨_, _, hapart⟩ := List.nodup_append.mp hnodup
  apply smapGet_datumFromSmap_of_mem (mem_portHwIntfInfo.mpr (.inr (.inr ⟨hmac, rfl, rfl⟩)))
  intro w hw
  rcases mem_portHwIntfInfo.mp hw with hw | ⟨_, rfl⟩ | ⟨_, _, rfl⟩
  · exact absurd rfl (hapart _ (List.mem_map_of_mem hw) _ (List.mem_singleton_self _))
  · exact not_true_lt_etherString hprints _
  · exact List.lt_irrefl _

theorem smapGet_singleton {k k' v : CStr} (h : k ≠ k') :
    smapGet (datumFromSmap [(k, v)]) k' = none := by
  apply smapGet_eq_none
  rintro q hq
  rw [show datumFromSmap [(k, v)] = [(k, v)] from rfl, List.mem_singleton] at hq
  rw [hq]
  exact h

end Interfaces

section Pool

variable {st : Startup} {alloc : Allocations} {osRelease : Option (List CStr)}
  {subsys ptr : Subsystem} {base numMacs : ℕ} {db : List OvsRow} {handedOut : List ℕ}
  {system subsystem bridge iface port vrf : OvsRow} {intfs : List OvsRow} {s s' : Idl schema}

/-- Two different texts take two addresses of the pool, and the next one fits. -/
theorem Conserved.pool {ext : External}
    (h : Conserved ext base numMacs db handedOut system subsystem) :
    2 ≤ numMacs ∧ base + 2 < 2 ^ 48 := by
  obtain ⟨a, ha, _, hmanagement⟩ := h.managementMac
  obtain ⟨b, hb, _, hsystem⟩ := h.systemMac
  have hne : a ≠ b := by
    rintro rfl
    exact h.apart (hmanagement.trans hsystem.symm)
  have hpair : [a, b].Nodup := by simp [hne]
  have htwo : 2 ≤ handedOut.length := hpair.length_le_of_subset (by simp [ha, hb])
  have hrange : handedOut ⊆ List.range' base numMacs :=
    fun c hc => List.mem_range'_1.mpr (h.fromPool c hc)
  have hle := h.distinct.length_le_of_subset hrange
  rw [List.length_range'] at hle
  have hfits := h.nextMacAddress.1
  exact ⟨by omega, by omega⟩

/-- The second address is published by every port, the first by none. -/
theorem publishes_interface {r : OvsRow} (hkeys : External.KeysApart st.external)
    (hbridge : st.external.bridge ≠ st.external.macAddr) (hprints : PrintsMac st.external)
    (h : AssembledRows st subsys db system subsystem bridge iface port vrf intfs)
    (hmac : subsys.systemMacAddr ≠ 0) (hr : r ∈ tableRows .interface db) {text : CStr}
    (htext : smapGet (r.col .interfaceHwIntfInfo) st.external.macAddr = some text) :
    text = st.external.etherString subsys.systemMacAddr := by
  rw [h.interfaceRows] at hr
  rcases List.mem_cons.mp hr with rfl | hr
  · rw [h.hwIntfInfo, smapGet_singleton hbridge] at htext
    cases htext
  · obtain ⟨intf, _, hcols⟩ := exists_of_forall₂ h.ports hr
    have hinfo : r.col .interfaceHwIntfInfo =
        datumFromSmap (portHwIntfInfo st.external subsys intf) :=
      hcols .interfaceHwIntfInfo (by decide)
    rw [hinfo, smapGet_portHwIntfInfo_macAddr hkeys hprints hmac] at htext
    exact (Option.some.inj htext).symm

theorem conserved_of_assembledRows (hkeys : External.KeysApart st.external)
    (hbridge : st.external.bridge ≠ st.external.macAddr) (hprints : PrintsMac st.external)
    (h : AssembledRows st subsys db system subsystem bridge iface port vrf intfs)
    (hmanagement : subsys.mgmtMacAddr = base) (hsystem : subsys.systemMacAddr = base + 1)
    (hnext : subsys.nxtMacAddr = base + 1 + 1)
    (hfree : subsys.numFreeMacs = (numMacs : ℤ) - 1 - 1) (hnum : 2 ≤ numMacs)
    (hfits : base + 2 < 2 ^ 48) :
    Conserved st.external base numMacs db [base, base + 1] system subsystem := by
  have hfirst : Publishes st.external (system.col .systemManagementMac) base :=
    ⟨by omega, by rw [h.managementMac, hmanagement]⟩
  have hsecond : Publishes st.external (system.col .systemSystemMac) (base + 1) :=
    ⟨by omega, by rw [h.systemMac, hsystem]⟩
  have hthird : subsystem.col .subsystemNextMacAddress = st.external.etherString (base + 2) := by
    rw [h.nextMacAddress, hnext]
  have hremaining : subsystem.col .subsystemMacsRemaining = (numMacs : ℤ) - 1 - 1 := by
    rw [h.macsRemaining, hfree]
  refine ⟨h.systemRows, h.subsystemRows, by simp, ?_, ?_, ⟨base, by simp, hfirst⟩,
    ⟨base + 1, by simp, hsecond⟩, ?_, ?_, ⟨by simpa using hfits, hthird⟩, ?_, ?_, ?_⟩
  · intro a ha
    simp only [List.mem_cons, List.not_mem_nil, or_false] at ha
    omega
  · intro a ha
    simp only [List.mem_cons, List.not_mem_nil, or_false] at ha
    rcases ha with rfl | rfl
    · exact .inl hfirst
    · exact .inr hsecond
  · intro r hr text htext
    have hmac : subsys.systemMacAddr ≠ 0 := by omega
    refine ⟨base + 1, by simp, hsecond.1, ?_⟩
    rw [publishes_interface hkeys hbridge hprints h hmac hr htext, hsystem]
  · rw [hfirst.2, hsecond.2]
    exact etherString_ne hprints hfirst.1 hsecond.1 (by omega)
  · rintro a ha ⟨hlt, htext⟩
    simp only [List.mem_cons, List.not_mem_nil, or_false] at ha
    rw [hthird] at htext
    exact etherString_ne hprints hfits hlt (by omega) htext
  · have hsum : (numMacs : ℤ) - 1 - 1 + ((2 : ℕ) : ℤ) = numMacs := by omega
    rw [hremaining]
    exact hsum
  · have hle : (0 : ℤ) ≤ (numMacs : ℤ) - 1 - 1 := by omega
    rw [hremaining]
    exact hle

/-- The only subsystem, with the interfaces of the description. -/
def withInterfaces (ptr : Subsystem) (intfCmnInfo : YamlPortInfo) (interfaces : List YamlPort) :
    Subsystem :=
  { ptr with intfCmnInfo := intfCmnInfo, interfaces := interfaces }

/-- Without the arrays of subsystems and interfaces the pool does not reach the database. -/
theorem not_conservesPool (hprints : PrintsMac st.external) (hone : st.subsystems = [subsys])
    (hs : Filling s (Txn.empty : Txn schema).cells)
    (hok : sysdInitialConfigure st alloc osRelease s = .ok ((), s'))
    (hfails : ¬ (alloc.subsystems = true ∧ alloc.interfaces = true)) :
    ¬ ConservesPool st.external base numMacs s' := by
  rintro ⟨t, ht, handedOut, system, subsystem, h⟩
  cases hsubsystems : alloc.subsystems with
  | false =>
    obtain ⟨_, C', hs', hrows, _⟩ :=
      (exactly_sysdInitialConfigure_bare (by rw [hone]; rfl) hsubsystems).of_ok hs hok
    obtain ⟨t', ht', rfl, _⟩ := hs'.opened
    obtain rfl : t = t' := by
      rw [ht] at ht'
      cases ht'
      rfl
    have hnone := tableRows_of_cells hrows
    rw [h.subsystemRows] at hnone
    cases hnone
  | true =>
    have hinterfaces : alloc.interfaces = false := by
      cases hinterfaces : alloc.interfaces with
      | false => rfl
      | true => exact absurd ⟨hsubsystems, hinterfaces⟩ hfails
    obtain ⟨_, C', hs', ⟨sub, hrows, hnext⟩, _⟩ :=
      (exactly_sysdInitialConfigure_header hone hsubsystems hinterfaces).of_ok hs hok
    obtain ⟨t', ht', rfl, hnum⟩ := hs'.opened
    obtain rfl : t = t' := by
      rw [ht] at ht'
      cases ht'
      rfl
    obtain ⟨r, hr, rfl, hmem, htable⟩ := tableRows_singleton hrows
    obtain rfl : r = subsystem := by simpa [hr] using h.subsystemRows
    have hcell : t.cells.value r.uuid Column.subsystemNextMacAddress =
        r.col .subsystemNextMacAddress := hnum.value_of_mem hmem htable.symm
    have htext := h.nextMacAddress.2
    rw [← hcell, hnext] at htext
    exact etherString_ne_nil hprints _ htext.symm

/-- The pool is conserved exactly when it holds both addresses and the next one
is an address. -/
theorem conservesPool_iff {crc32 : List UInt8 → UInt32} {p : FruPlatform} {allocates : Bool}
    {intfCmnInfo : YamlPortInfo} {interfaces : List YamlPort}
    (hptr : sysdGetSubsystemInfo crc32 p allocates = some ptr)
    (hone : st.subsystems = [withInterfaces ptr intfCmnInfo interfaces])
    (hkeys : External.KeysApart st.external) (hbridge : st.external.bridge ≠ st.external.macAddr)
    (hprints : PrintsMac st.external) (hs : s.txn = .opened .empty)
    (hreplica : ∀ r ∈ s.snapshot, schema.monitored r.table = true)
    (hok : sysdInitialConfigure st alloc osRelease s = .ok ((), s')) :
    ConservesPool st.external (bigEndian ptr.fruEeprom.baseMacAddress.bytes)
        ptr.fruEeprom.numMacs.toNat s' ↔
      (alloc.subsystems = true ∧ alloc.interfaces = true) ∧ 2 ≤ ptr.fruEeprom.numMacs.toNat ∧
        bigEndian ptr.fruEeprom.baseMacAddress.bytes + 2 < 2 ^ 48 := by
  have hfill := filling_empty hs hreplica
  constructor
  · intro h
    refine ⟨?_, ?_⟩
    · by_contra hfails
      exact not_conservesPool hprints hone hfill hok hfails h
    · obtain ⟨t, _, handedOut, system, subsystem, h⟩ := h
      exact h.pool
  · rintro ⟨⟨hsubsystems, hinterfaces⟩, hnum, hfits⟩
    obtain ⟨_, C', hs', sys, sub, bridge, iface, port, vrf, intfs, h, _⟩ :=
      (exactly_sysdInitialConfigure hone hsubsystems hinterfaces).of_ok hfill hok
    obtain ⟨t, ht, rfl, hcells⟩ := hs'.opened
    obtain ⟨system, subsystem, bridge, iface, port, vrf, intfs, _, hrows⟩ :=
      assembledRows_of_assembled hcells h
    obtain ⟨before, rfl⟩ := exists_assignMacs hptr
    rw [assignMacs_fruEeprom] at hnum hfits ⊢
    refine ⟨t, ht, _, system, subsystem,
      conserved_of_assembledRows hkeys hbridge hprints hrows ?_ ?_ ?_ ?_ hnum hfits⟩
    all_goals rw [withInterfaces, assignMacs_base hnum]

end Pool

section Samples

/-- A description that gives the size of the pool. -/
def poolPlatform (numMacs : ℤ) : FruPlatform :=
  ⟨true, some { sampleInfo 1 with numMacs := numMacs }, 0, 0, 1, (-1, fun _ => 0), true,
    fun _ => (-1, fun _ => 0)⟩

def poolSubsystem (numMacs : ℤ) : Subsystem :=
  assignMacs { clearedSubsystem with
    name := sysdBaseSubsystem
    fruEeprom :=
      (sysdReadFruEeprom Crc32.crc32 (poolPlatform numMacs) clearedSubsystem.fruEeprom).2 }

def poolStartup (numMacs : ℤ) : Startup :=
  { lanePlatform fourLanes with
    external := { laneKeys with
      bridge := cstr "bridge"
      etherString := fun n => macFormat (macBytes n) }
    subsystems := [withInterfaces (poolSubsystem numMacs) (laneSubsystem fourLanes).intfCmnInfo
      (laneSubsystem fourLanes).interfaces] }

theorem poolSubsystem_eq (numMacs : ℤ) :
    sysdGetSubsystemInfo Crc32.crc32 (poolPlatform numMacs) true = some (poolSubsystem numMacs) :=
  rfl

theorem poolStartup_runs (numMacs : ℤ) : ∃ s', sysdInitialConfigure (poolStartup numMacs)
    ⟨true, true, true⟩ none laneOpened = .ok ((), s') := by
  have hexactly : Exactly (Txn.empty : Txn schema).cells _
      (sysdInitialConfigure (poolStartup numMacs) ⟨true, true, true⟩ none) _ :=
    exactly_sysdInitialConfigure rfl rfl rfl
  have hports : PortsFit (laneSubsystem fourLanes) := by decide +kernel
  obtain ⟨_, s', _, hok, _⟩ := (hexactly laneOpened (filling_empty rfl (by simp [laneOpened]))).1
    ⟨rfl, ⟨hports.speeds, hports.splits⟩, fun _ => policiesGiven_lanePlatform fourLanes⟩
  exact ⟨s', hok⟩

theorem conservesPool_seventyFour : ∃ s',
    sysdInitialConfigure (poolStartup 74) ⟨true, true, true⟩ none laneOpened = .ok ((), s') ∧
      ConservesPool (poolStartup 74).external
        (bigEndian (poolSubsystem 74).fruEeprom.baseMacAddress.bytes)
          (poolSubsystem 74).fruEeprom.numMacs.toNat s' := by
  obtain ⟨s', hok⟩ := poolStartup_runs 74
  refine ⟨s', hok, (conservesPool_iff (poolSubsystem_eq 74) rfl (by decide) (by decide)
    (fun _ => rfl) rfl (by simp [laneOpened]) hok).mpr ⟨⟨rfl, rfl⟩, by decide, by decide⟩⟩

/-- A pool of one: the system address is published as zero. -/
theorem not_conservesPool_one : ∃ s',
    sysdInitialConfigure (poolStartup 1) ⟨true, true, true⟩ none laneOpened = .ok ((), s') ∧
      ¬ ConservesPool (poolStartup 1).external
        (bigEndian (poolSubsystem 1).fruEeprom.baseMacAddress.bytes)
          (poolSubsystem 1).fruEeprom.numMacs.toNat s' := by
  obtain ⟨s', hok⟩ := poolStartup_runs 1
  refine ⟨s', hok, ?_⟩
  rintro ⟨t, _, handedOut, system, subsystem, h⟩
  exact absurd h.pool.1 (by decide)

end Samples

end OpsSysd.MacPool
