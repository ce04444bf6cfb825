import OpsSysd.FruSources
import OpsSysd.Platform

/-!
Reading the FRU record from the source that the platform uses, and what the
base subsystem derives from it. The result of each stage goes through one
boolean: a status of the description that is not zero becomes `true` there.
-/

namespace OpsSysd.Fru

open CString Tlv Platform

/-- What the platform answers while the record is read. -/
structure FruPlatform where
  fruYaml : Bool
  yamlFruInfo : Option YamlFruInfo
  rand₃ : UInt8
  rand₄ : UInt8
  rand₅ : UInt8
  /-- The status of `i2c_data_read` for the header, and the bytes. -/
  header : ℤ × Memory
  /-- The buffer for the image is allocated. -/
  allocates : Bool
  /-- The status of `i2c_data_read` for as many bytes, and the bytes. -/
  image : ℕ → ℤ × Memory

def supportedOcpFruEepromVersion : UInt8 := 1

def sysdCfgYamlFruRead (answer : ℤ × Memory) : Bool := if answer.1 ≠ 0 then false else true

/-- A `bool` compared as an `int`. -/
def boolInt (b : Bool) : ℤ := if b then 1 else 0

section Read

variable (crc32 : List UInt8 → UInt32) (p : FruPlatform)

/-- The status and the record. -/
def sysdReadFruEeprom (fru : FruEeprom) : ℤ × FruEeprom :=
  if p.fruYaml then
    let filled := sysdCfgYamlGetFruInfo p.yamlFruInfo p.rand₃ p.rand₄ p.rand₅ fru
    let rc : Bool := filled.1 ≠ 0
    if 0 > boolInt rc then (-1, filled.2) else (0, filled.2)
  else
    let rc := sysdCfgYamlFruRead p.header
    if !rc then (-1, fru)
    else
      let header := p.header.2
      if header 8 > supportedOcpFruEepromVersion then (-1, fru)
      else
        let totalLen := headerTotalLength header
        let len := totalLen.toNat + fruHeaderSize + 1
        if !p.allocates then (-1, fru)
        else
          let rc := sysdCfgYamlFruRead (p.image len)
          if !rc then (-1, fru)
          else
            let filled := sysdProcessEeprom crc32 (p.image len).2 fru totalLen.toNat
            if !filled.1 then (-1, filled.2) else (0, filled.2)

/-- `sysd_get_subsystem_info` after the record is read. -/
def assignMacs (ptr : Subsystem) : Subsystem :=
  let ptr := { ptr with
    numFreeMacs := ptr.fruEeprom.numMacs.toNat
    nxtMacAddr := bigEndian ptr.fruEeprom.baseMacAddress.bytes }
  let ptr := if ptr.numFreeMacs > 0 then
      { ptr with
        mgmtMacAddr := ptr.nxtMacAddr
        numFreeMacs := ptr.numFreeMacs - 1
        nxtMacAddr := ptr.nxtMacAddr + 1 }
    else ptr
  if ptr.numFreeMacs > 0 then
    { ptr with
      systemMacAddr := ptr.nxtMacAddr
      numFreeMacs := ptr.numFreeMacs - 1
      nxtMacAddr := ptr.nxtMacAddr + 1 }
  else ptr

/-- The subsystem that `calloc` provides. -/
def clearedSubsystem : Subsystem :=
  ⟨[], ⟨0, 0, 0, 0, 0, 0⟩, [], .zero, 0, 0, 0, 0⟩

def sysdBaseSubsystem : CStr := cstr "base"

/-- `none` is `return -1`. -/
def sysdGetSubsystemInfo (allocates : Bool) : Option Subsystem :=
  if !allocates then none
  else
    let read := sysdReadFruEeprom crc32 p clearedSubsystem.fruEeprom
    if read.1 ≠ 0 then none
    else some (assignMacs { clearedSubsystem with name := sysdBaseSubsystem, fruEeprom := read.2 })

/-- The total length in a header, in base 256. -/
def totalLength (header : Memory) : ℕ := (header 9).toNat * 256 + (header 10).toNat

/-- The source that the platform uses delivered a record. -/
def Delivered (fru : FruEeprom) : Prop :=
  if p.fruYaml then
    (sysdCfgYamlGetFruInfo p.yamlFruInfo p.rand₃ p.rand₄ p.rand₅ fru).1 = 0
  else
    p.header.1 = 0 ∧ p.header.2 8 ≤ supportedOcpFruEepromVersion ∧ p.allocates = true ∧
      (p.image (totalLength p.header.2 + fruHeaderSize + 1)).1 = 0 ∧
      (sysdProcessEeprom crc32 (p.image (totalLength p.header.2 + fruHeaderSize + 1)).2 fru
        (totalLength p.header.2)).1 = true

/-- The status tells whether the record was delivered, and the subsystem takes
its addresses from a delivered record only. -/
structure Truthful : Prop where
  zero_iff : ∀ fru, (sysdReadFruEeprom crc32 p fru).1 = 0 ↔ Delivered crc32 p fru
  failed : ∀ fru, ¬ Delivered crc32 p fru → (sysdReadFruEeprom crc32 p fru).1 = -1
  derived : ∀ allocates ptr, sysdGetSubsystemInfo crc32 p allocates = some ptr →
    Delivered crc32 p clearedSubsystem.fruEeprom

theorem headerTotalLength_toNat (header : Memory) :
    (headerTotalLength header).toNat = totalLength header := be16_toNat _ _

theorem sysdReadFruEeprom_yaml (hyaml : p.fruYaml = true) (fru : FruEeprom) :
    (sysdReadFruEeprom crc32 p fru).1 = 0 := by
  have hnot : ∀ b, ¬ 0 > boolInt b := by decide
  unfold sysdReadFruEeprom
  rw [if_pos hyaml]
  simp only [if_neg (hnot _)]

theorem sysdCfgYamlFruRead_eq (answer : ℤ × Memory) :
    sysdCfgYamlFruRead answer = true ↔ answer.1 = 0 := by
  unfold sysdCfgYamlFruRead
  split <;> simp_all

/-- The EEPROM path fails as soon as a stage does. -/
theorem sysdReadFruEeprom_eeprom (heeprom : p.fruYaml = false) (fru : FruEeprom) :
    (Delivered crc32 p fru ∧ (sysdReadFruEeprom crc32 p fru).1 = 0) ∨
      (¬ Delivered crc32 p fru ∧ (sysdReadFruEeprom crc32 p fru).1 = -1) := by
  unfold Delivered sysdReadFruEeprom
  rw [heeprom]
  simp only [Bool.false_eq_true, if_false, headerTotalLength_toNat, Bool.not_eq_true',
    ← sysdCfgYamlFruRead_eq]
  cases sysdCfgYamlFruRead p.header with
  | false => simp
  | true =>
    by_cases hversion : p.header.2 8 > supportedOcpFruEepromVersion
    · have hnot : ¬ p.header.2 8 ≤ supportedOcpFruEepromVersion := UInt8.not_le.mpr hversion
      simp [hversion, hnot]
    · have hle : p.header.2 8 ≤ supportedOcpFruEepromVersion := UInt8.not_lt.mp hversion
      cases p.allocates with
      | false => simp [hversion]
      | true =>
        cases sysdCfgYamlFruRead (p.image (totalLength p.header.2 + fruHeaderSize + 1)) with
        | false => simp [hversion]
        | true =>
          cases (sysdProcessEeprom crc32
              (p.image (totalLength p.header.2 + fruHeaderSize + 1)).2 fru
              (totalLength p.header.2)).1 <;>
            simp [hversion, hle]

theorem sysdGetSubsystemInfo_read {allocates : Bool} {ptr : Subsystem}
    (h : sysdGetSubsystemInfo crc32 p allocates = some ptr) :
    (sysdReadFruEeprom crc32 p clearedSubsystem.fruEeprom).1 = 0 := by
  unfold sysdGetSubsystemInfo at h
  cases allocates with
  | false => cases h
  | true =>
    by_contra hne
    simp [hne] at h

/-- The status is truthful exactly when the description, where it is the source,
has FRU data. -/
theorem truthful_iff : Truthful crc32 p ↔ (p.fruYaml = true → p.yamlFruInfo ≠ none) := by
  constructor
  · intro h hyaml hnone
    have hdelivered := (h.zero_iff .zero).mp (sysdReadFruEeprom_yaml crc32 p hyaml .zero)
    unfold Delivered at hdelivered
    rw [if_pos hyaml, hnone] at hdelivered
    exact absurd hdelivered (by simp [sysdCfgYamlGetFruInfo])
  · intro h
    have hcases : ∀ fru, (Delivered crc32 p fru ∧ (sysdReadFruEeprom crc32 p fru).1 = 0) ∨
        (¬ Delivered crc32 p fru ∧ (sysdReadFruEeprom crc32 p fru).1 = -1) := by
      intro fru
      cases hyaml : p.fruYaml with
      | false => exact sysdReadFruEeprom_eeprom crc32 p hyaml fru
      | true =>
        refine .inl ⟨?_, sysdReadFruEeprom_yaml crc32 p hyaml fru⟩
        obtain ⟨info, hinfo⟩ := Option.ne_none_iff_exists'.mp (h hyaml)
        unfold Delivered
        rw [if_pos hyaml, hinfo]
        rfl
    have hzero : ∀ fru, (sysdReadFruEeprom crc32 p fru).1 = 0 ↔ Delivered crc32 p fru := by
      intro fru
      rcases hcases fru with ⟨hd, hr⟩ | ⟨hd, hr⟩
      · exact ⟨fun _ => hd, fun _ => hr⟩
      · rw [hr]
        exact ⟨fun hbad => absurd hbad (by decide), fun hbad => absurd hbad hd⟩
    refine ⟨hzero, ?_, ?_⟩
    · intro fru hnot
      rcases hcases fru with ⟨hd, _⟩ | ⟨_, hr⟩
      · exact absurd hd hnot
      · exact hr
    · intro allocates ptr hsome
      exact (hzero _).mp (sysdGetSubsystemInfo_read crc32 p hsome)

end Read

/-- A platform that names the description as its source and has no FRU data in it. -/
def emptyYamlPlatform : FruPlatform :=
  ⟨true, none, 7, 8, 9, (-1, fun _ => 0), true, fun _ => (-1, fun _ => 0)⟩

/-- The missing data is reported as read. -/
theorem not_truthful_emptyYaml : ¬ Truthful Crc32.crc32 emptyYamlPlatform := by
  intro h
  have hdelivered := (h.zero_iff .zero).mp (sysdReadFruEeprom_yaml _ _ rfl .zero)
  exact absurd hdelivered (by simp [Delivered, emptyYamlPlatform, sysdCfgYamlGetFruInfo])

end OpsSysd.Fru
