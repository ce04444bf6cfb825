import OpsSysd.BootRun
import OpsSysd.FruBounds
import OpsSysd.HwDesc
import OpsSysd.MacPool
import OpsSysd.ManifestSafety
import OpsSysd.OptionalPolicies

/-!
From the start of the process to its main loop: the manifest, the link to the
hardware description, the description, the FRU record and the ports, each of
which ends the process if it fails or leaves its buffers. What the first pass
makes of an empty database is then determined by the files.
-/

namespace OpsSysd.StartUp

open CString Ovsdb Ovsrec Platform FileLinks
open Manifest (Json Globals sysdReadManifestFile comparedDaemons comparedTag announced GivesUp
  ReachesNonObject CopiesFit)
open Fru (FruPlatform Delivered FruEeprom sysdReadFruEeprom sysdGetSubsystemInfo)
open QosInit (YamlOutcome sysdCfgYamlInit)
open HwDesc (Machine Linkable hwDescDir linked sysdFindHwDescFiles)
open MacPool (withInterfaces)
open InitialConfigure (Configurable)
open SysdRun (Sysd PassInput sysdRun Watched Cooperates Sleeps Published Flagged Finishes lanePass
  laneDaemon daemonsReport)

/-- The status LED of the system; `none` is a LED that the description leaves out. -/
structure SystemLed where
  statusLed : Bool
  on : ℤ
  flashing : ℤ

/-- What the library makes of the description in a directory. -/
structure Description where
  outcome : YamlOutcome
  fru : FruPlatform
  portInfo : Option YamlPortInfo
  portCount : ℤ
  port : ℕ → Option YamlPort
  systemLed : Option SystemLed

/-- What the process finds when it starts. -/
structure Image where
  external : External
  crc32 : List UInt8 → UInt32
  fruYamlNotFound : ℤ
  manifest : Option Json
  /-- The bytes of the block that the allocator gives for a request of none. -/
  emptyBlock : ℕ
  machine : Machine
  description : CStr → Description
  /-- The subsystem and the array of its interfaces are allocated. -/
  allocates : Bool × Bool

/-- How the process ends before its main loop. -/
inductive Ended
  | exited
  | aborted
  | stuck (why : HwDesc.Stuck)
  /-- A copy or a store has left its buffer. -/
  | overrun
  deriving DecidableEq, Repr

/-- What is in place when the main loop begins; the LED holds what was written to it. -/
structure Started where
  st : Startup
  fs : FileSystem
  statusLed : Option ℤ

/-- The value that is written, if there is a LED. -/
def sysdCfgYamlSetSystemStatusLed (systemLed : Option SystemLed) (good : Bool) : Option ℤ :=
  systemLed.bind (fun led =>
    if led.statusLed then some (if good then led.on else led.flashing) else none)

/-- `none` is `return -1`. -/
def sysdGetInterfaceInfo (yaml : Description) (allocates : Bool) (ptr : Subsystem) :
    Option Subsystem := do
  let intfCmnInfo ← yaml.portInfo
  if yaml.portCount ≤ 0 then none
  else if !allocates then none
  else
    let interfaces ← (List.range yaml.portCount.toNat).mapM yaml.port
    return withInterfaces ptr intfCmnInfo interfaces

/-- `exit(-1)` unless the call succeeded. -/
def orExit {α : Type} : Option α → Except Ended α
  | none => .error .exited
  | some a => .ok a

def NamesFit (block : ℕ) (file : Option Json) : Prop := ∀ j ∈ file, CopiesFit block j

instance (block : ℕ) (file : Option Json) : Decidable (NamesFit block file) :=
  inferInstanceAs (Decidable (∀ j ∈ file, _))

def readManifest (block : ℕ) (file : Option Json) : Except Ended { g : Globals // g.Counted } :=
  if NamesFit block file then
    match h : sysdReadManifestFile file with
    | .error .rejected => .error .exited
    | .error .notAnObject => .error .aborted
    | .ok g => .ok ⟨g, Manifest.counted_of_ok h⟩
  else .error .overrun

def findHwDesc (m : Machine) (fuel : ℕ) (fs : FileSystem) : Except Ended HwDesc.Result :=
  match sysdFindHwDescFiles m fuel fs with
  | .error why => .error (.stuck why)
  | .ok result => if result.rc ≠ 0 then .error .exited else .ok result

/-- The record comes from an image whose decoding leaves its buffers. -/
def FruOverruns (crc32 : List UInt8 → UInt32) (p : FruPlatform) : Prop :=
  p.fruYaml = false ∧ p.header.1 = 0 ∧ p.header.2 8 ≤ Fru.supportedOcpFruEepromVersion ∧
    p.allocates = true ∧
      let len := Fru.totalLength p.header.2
      let image := p.image (Fru.eepromBufferSize len)
      image.1 = 0 ∧ ¬ ∀ a ∈ Fru.sysdProcessEepromAccesses crc32 image.2 .zero len,
        a.Inside (Fru.eepromBufferSize len)

instance (crc32 : List UInt8 → UInt32) (p : FruPlatform) : Decidable (FruOverruns crc32 p) :=
  inferInstanceAs (Decidable (_ ∧ _ ∧ _ ∧ _ ∧ _ ∧ _))

def readSubsystem (im : Image) (p : FruPlatform) : Except Ended Subsystem :=
  if FruOverruns im.crc32 p then .error .overrun
  else orExit (sysdGetSubsystemInfo im.crc32 p im.allocates.1)

/-- The globals, the files and the LED when everything has succeeded. -/
def started (im : Image) (manifest : { g : Globals // g.Counted }) (hwdesc : HwDesc.Result)
    (ptr : Subsystem) : Started where
  st := {
    external := im.external
    manifest := manifest.1
    counted := manifest.2
    hwDescDir := hwdesc.gHwDescDir
    subsystems := [ptr]
    policies := (im.description hwdesc.gHwDescDir).outcome.policies }
  fs := hwdesc.fs
  statusLed :=
    sysdCfgYamlSetSystemStatusLed (im.description hwdesc.gHwDescDir).systemLed true

/-- `main` from the manifest to the loop. -/
def startUp (im : Image) (fuel : ℕ) (fs : FileSystem) : Except Ended Started := do
  let manifest ← readManifest im.emptyBlock im.manifest
  let hwdesc ← findHwDesc im.machine fuel fs
  let yaml := im.description hwdesc.gHwDescDir
  let init := sysdCfgYamlInit im.fruYamlNotFound yaml.outcome
  if !init.1 then .error .exited
  else
    let ptr ← readSubsystem im { yaml.fru with fruYaml := init.2 }
    let ptr ← orExit (sysdGetInterfaceInfo yaml im.allocates.2 ptr)
    return started im manifest hwdesc ptr

/-- The record is read from the EEPROM, not from the description. -/
def FromEeprom (im : Image) (yaml : Description) : Prop :=
  yaml.outcome.parseFru = im.fruYamlNotFound

instance (im : Image) (yaml : Description) : Decidable (FromEeprom im yaml) :=
  inferInstanceAs (Decidable (_ = _))

/-- The source of the FRU record. -/
def fruSource (im : Image) (yaml : Description) : FruPlatform :=
  { yaml.fru with fruYaml := decide (¬ FromEeprom im yaml) }

/-- A description that the start-up accepts. Policies and LEDs are optional, and so are the
FRU data of a description that is their source. -/
structure Accepted (im : Image) (yaml : Description) : Prop where
  opened : yaml.outcome.addSubsystem = 0
  devices : 0 ≤ yaml.outcome.parseDevices
  ports : 0 ≤ yaml.outcome.parsePorts
  fru : ¬ FromEeprom im yaml → 0 ≤ yaml.outcome.parseFru
  initialised : 0 ≤ yaml.outcome.initDevices
  fruDevice : yaml.outcome.fruDeviceFound = true
  record : FromEeprom im yaml → Delivered im.crc32 (fruSource im yaml) .zero
  contained : ¬ FruOverruns im.crc32 (fruSource im yaml)
  portInfo : yaml.portInfo.isSome = true
  portCount : 0 < yaml.portCount
  port : ∀ i < yaml.portCount.toNat, (yaml.port i).isSome = true

/-- What the main loop needs. -/
structure Bootable (im : Image) (fs : FileSystem) : Prop where
  manifest : ¬ GivesUp im.manifest
  names : NamesFit im.emptyBlock im.manifest
  objects : ∀ j, im.manifest = some j → ¬ ReachesNonObject (announced comparedTag j)
  allocates : im.allocates = (true, true)
  described : ∃ x y, im.machine.IsManufacturer x ∧ im.machine.IsProductName y ∧
    Linkable im.machine fs (hwDescDir im.machine x y) ∧
      Accepted im (im.description (hwDescDir im.machine x y))

/-- The ports of the description in their order. -/
structure ListsPorts (yaml : Description) (interfaces : List YamlPort) : Prop where
  length : (interfaces.length : ℤ) = yaml.portCount
  get : ∀ i < interfaces.length, interfaces[i]? = yaml.port i

/-- The second address of a record, if it has as many. -/
def systemMac (fru : FruEeprom) : ℕ :=
  if 1 < fru.numMacs.toNat then Fru.bigEndian fru.baseMacAddress.bytes + 1 else 0

/-- The base subsystem of a description, with the record of its source and the address of
the system in it. -/
structure BaseSubsystem (im : Image) (yaml : Description) (ptr : Subsystem) : Prop where
  name : ptr.name = Fru.sysdBaseSubsystem
  record : ptr.fruEeprom = (sysdReadFruEeprom im.crc32 (fruSource im yaml) .zero).2
  systemMacAddr : ptr.systemMacAddr = systemMac ptr.fruEeprom
  portInfo : yaml.portInfo = some ptr.intfCmnInfo
  interfaces : ListsPorts yaml ptr.interfaces

/-- What was started is what the files say. -/
structure Prepared (im : Image) (fs : FileSystem) (j : Json) (s : Started) : Prop where
  manifest : im.manifest = some j
  daemons : s.st.manifest.daemons = comparedDaemons j
  files : s.fs = linked im.machine fs s.st.hwDescDir
  external : s.st.external = im.external
  policies : s.st.policies = (im.description s.st.hwDescDir).outcome.policies
  subsystem : ∃ ptr, s.st.subsystems = [ptr] ∧
    BaseSubsystem im (im.description s.st.hwDescDir) ptr
  statusLed : s.statusLed =
    sysdCfgYamlSetSystemStatusLed (im.description s.st.hwDescDir).systemLed true

section Stages

variable {α β : Type} {im : Image} {yaml : Description} {ptr ptr' : Subsystem}

theorem bind_ok_iff {ε : Type} {x : Except ε α} {f : α → Except ε β} {b : β} :
    (x >>= f) = .ok b ↔ ∃ a, x = .ok a ∧ f a = .ok b := by
  cases x with
  | error e => exact ⟨nofun, nofun⟩
  | ok a =>
    constructor
    · exact fun h => ⟨a, rfl, h⟩
    · rintro ⟨a, ha, h⟩
      cases ha
      exact h

theorem orExit_ok_iff {x : Option α} {a : α} : orExit x = .ok a ↔ x = some a := by
  cases x <;> simp [orExit]

theorem mapM_eq_some_iff {f : α → Option β} {l : List α} {l' : List β} :
    l.mapM f = some l' ↔ List.Forall₂ (fun a b => f a = some b) l l' := by
  induction l generalizing l' with
  | nil => simp [eq_comm]
  | cons a rest ih =>
    rw [List.mapM_cons]
    constructor
    · intro h
      obtain ⟨b, hb, h⟩ := Option.bind_eq_some_iff.mp h
      obtain ⟨rest', hrest, h⟩ := Option.bind_eq_some_iff.mp h
      cases h
      exact .cons hb (ih.mp hrest)
    · rintro (_ | ⟨hb, hrest⟩)
      exact Option.bind_eq_some_iff.mpr
        ⟨_, hb, Option.bind_eq_some_iff.mpr ⟨_, ih.mpr hrest, rfl⟩⟩

theorem readManifest_ok_iff {block : ℕ} {file : Option Json} {m : { g : Globals // g.Counted }} :
    readManifest block file = .ok m ↔
      NamesFit block file ∧ sysdReadManifestFile file = .ok m.1 := by
  unfold readManifest
  split_ifs with hfit
  · simp only [hfit, true_and]
    split
    · next h => simp [h]
    · next h => simp [h]
    · next g h =>
      constructor
      · intro hm
        cases hm
        exact h
      · intro hm
        obtain rfl : g = m.1 := Except.ok.inj (h.symm.trans hm)
        rfl
  · simp [hfit]

theorem readSubsystem_ok_iff {p : FruPlatform} : readSubsystem im p = .ok ptr ↔
    ¬ FruOverruns im.crc32 p ∧ sysdGetSubsystemInfo im.crc32 p im.allocates.1 = some ptr := by
  unfold readSubsystem
  split_ifs with h
  · simp [h]
  · simp [h, orExit_ok_iff]

theorem findHwDesc_ok_iff {m : Machine} {fuel : ℕ} {fs : FileSystem} {r : HwDesc.Result} :
    findHwDesc m fuel fs = .ok r ↔ sysdFindHwDescFiles m fuel fs = .ok r ∧ r.rc = 0 := by
  unfold findHwDesc
  cases sysdFindHwDescFiles m fuel fs with
  | error why => simp
  | ok r' =>
    dsimp only
    split_ifs with hrc
    · constructor
      · intro h
        cases h
      · rintro ⟨h, hzero⟩
        cases h
        exact absurd hzero hrc
    · constructor
      · intro h
        cases h
        exact ⟨rfl, not_not.mp hrc⟩
      · rintro ⟨h, _⟩
        cases h
        rfl

/-- The library's answers decide, and the missing FRU file alone makes the EEPROM the source. -/
theorem sysdCfgYamlInit_iff {fruYamlNotFound : ℤ} {o : YamlOutcome} {fruYaml : Bool} :
    sysdCfgYamlInit fruYamlNotFound o = (true, fruYaml) ↔
      (o.addSubsystem = 0 ∧ 0 ≤ o.parseDevices ∧ 0 ≤ o.parsePorts ∧
        (o.parseFru ≠ fruYamlNotFound → 0 ≤ o.parseFru) ∧ 0 ≤ o.initDevices ∧
          o.fruDeviceFound = true) ∧ fruYaml = decide (o.parseFru ≠ fruYamlNotFound) := by
  have hopen : (!QosInit.sysdCfgYamlOpen o) = true ↔ o.addSubsystem ≠ 0 := by
    unfold QosInit.sysdCfgYamlOpen
    split_ifs with h <;> simp [h]
  unfold sysdCfgYamlInit
  simp only [hopen]
  split_ifs with h₁ h₂ h₃ h₄ h₅ h₆
  · simp [h₁]
  · simp [not_le.mpr h₂]
  · simp [not_le.mpr h₃]
  · simp [h₄.1, not_le.mpr h₄.2]
  · simp [not_le.mpr h₅]
  · simp_all
  · have hfru : o.parseFru ≠ fruYamlNotFound → 0 ≤ o.parseFru :=
      fun hne => not_lt.mp (fun hlt => h₄ ⟨hne, hlt⟩)
    simp only [Bool.not_eq_true', Bool.not_eq_false] at h₆
    simp only [Prod.mk.injEq, true_and]
    constructor
    · rintro rfl
      exact ⟨⟨not_not.mp h₁, not_lt.mp h₂, not_lt.mp h₃, hfru, not_lt.mp h₅, h₆⟩, rfl⟩
    · exact fun h => h.2.symm

/-- The first port that is missing ends the loop. -/
theorem listsPorts_iff (hcount : 0 < yaml.portCount) {interfaces : List YamlPort} :
    (List.range yaml.portCount.toNat).mapM yaml.port = some interfaces ↔
      ListsPorts yaml interfaces := by
  rw [mapM_eq_some_iff, List.forall₂_iff_get]
  constructor
  · rintro ⟨hlength, hget⟩
    rw [List.length_range] at hlength
    refine ⟨by omega, fun i hi => ?_⟩
    have hport := hget i (by rw [List.length_range]; omega) hi
    rw [List.getElem?_eq_getElem hi]
    simpa using hport.symm
  · rintro ⟨hlength, hget⟩
    refine ⟨by rw [List.length_range]; omega, fun i hi hi' => ?_⟩
    have hport := hget i hi'
    rw [List.getElem?_eq_getElem hi'] at hport
    simpa using hport.symm

theorem sysdGetInterfaceInfo_iff {allocates : Bool} :
    sysdGetInterfaceInfo yaml allocates ptr = some ptr' ↔
      allocates = true ∧ 0 < yaml.portCount ∧ ∃ intfCmnInfo interfaces,
        yaml.portInfo = some intfCmnInfo ∧ ListsPorts yaml interfaces ∧
          ptr' = withInterfaces ptr intfCmnInfo interfaces := by
  unfold sysdGetInterfaceInfo
  cases yaml.portInfo with
  | none => simp
  | some info =>
    rw [Option.bind_eq_bind, Option.bind_some]
    split_ifs with hcount hallocates
    · simp [not_lt.mpr hcount]
    · simp_all
    · simp only [Bool.not_eq_true', Bool.not_eq_false] at hallocates
      have hpos : 0 < yaml.portCount := not_le.mp hcount
      rw [Option.bind_eq_bind, Option.bind_eq_some_iff]
      constructor
      · rintro ⟨interfaces, hports, h⟩
        exact ⟨hallocates, hpos, info, interfaces, rfl, (listsPorts_iff hpos).mp hports,
          (Option.some.inj h).symm⟩
      · rintro ⟨_, _, info', interfaces, hinfo, hports, rfl⟩
        cases hinfo
        exact ⟨interfaces, (listsPorts_iff hpos).mpr hports, rfl⟩

theorem sysdGetSubsystemInfo_iff {crc32 : List UInt8 → UInt32} {p : FruPlatform}
    {allocates : Bool} :
    sysdGetSubsystemInfo crc32 p allocates = some ptr ↔
      allocates = true ∧ (sysdReadFruEeprom crc32 p .zero).1 = 0 ∧
        ptr = Fru.assignMacs { Fru.clearedSubsystem with
          name := Fru.sysdBaseSubsystem, fruEeprom := (sysdReadFruEeprom crc32 p .zero).2 } := by
  unfold sysdGetSubsystemInfo
  cases allocates with
  | false => simp
  | true =>
    change (if (sysdReadFruEeprom crc32 p .zero).1 ≠ 0 then none else _) = some ptr ↔ _
    split_ifs with hstatus
    · simp [hstatus]
    · simp [not_not.mp hstatus, Fru.clearedSubsystem, eq_comm]

theorem assignMacs_name (ptr : Subsystem) : (Fru.assignMacs ptr).name = ptr.name := by
  unfold Fru.assignMacs
  dsimp only
  split_ifs <;> rfl

/-- The first address is the management interface's, the second the system's. -/
theorem assignMacs_systemMacAddr (hzero : ptr.systemMacAddr = 0) :
    (Fru.assignMacs ptr).systemMacAddr = systemMac ptr.fruEeprom := by
  unfold systemMac
  split_ifs with hmacs
  · rw [MacPool.assignMacs_base hmacs]
  · have hone : ¬ (ptr.fruEeprom.numMacs.toNat : ℤ) - 1 > 0 := by omega
    unfold Fru.assignMacs
    dsimp only
    split_ifs with hfirst
    · exact hzero
    · exact hzero

/-- A description that is the source never fails. -/
theorem fruSource_status (im : Image) (yaml : Description) :
    (sysdReadFruEeprom im.crc32 (fruSource im yaml) .zero).1 = 0 ↔
      (FromEeprom im yaml → Delivered im.crc32 (fruSource im yaml) .zero) := by
  by_cases heeprom : FromEeprom im yaml
  · have hsource : (fruSource im yaml).fruYaml = false := by simp [fruSource, heeprom]
    rcases Fru.sysdReadFruEeprom_eeprom im.crc32 _ hsource .zero with ⟨hd, hr⟩ | ⟨hd, hr⟩
    · simp [hr, hd]
    · simp [hr, hd, heeprom]
  · have hsource : (fruSource im yaml).fruYaml = true := by simp [fruSource, heeprom]
    simp [Fru.sysdReadFruEeprom_yaml im.crc32 _ hsource, heeprom]

end Stages

section Start

variable {im : Image} {fs : FileSystem} {fuel : ℕ} {s : Started}

theorem startUp_ok_iff : startUp im fuel fs = .ok s ↔
    ∃ manifest hwdesc fruYaml base ptr, readManifest im.emptyBlock im.manifest = .ok manifest ∧
      findHwDesc im.machine fuel fs = .ok hwdesc ∧
      sysdCfgYamlInit im.fruYamlNotFound (im.description hwdesc.gHwDescDir).outcome =
        (true, fruYaml) ∧
      readSubsystem im { (im.description hwdesc.gHwDescDir).fru with fruYaml := fruYaml } =
        .ok base ∧
      sysdGetInterfaceInfo (im.description hwdesc.gHwDescDir) im.allocates.2 base = some ptr ∧
      s = started im manifest hwdesc ptr := by
  unfold startUp
  rw [bind_ok_iff]
  refine exists_congr (fun manifest => ?_)
  rw [bind_ok_iff]
  constructor
  · rintro ⟨hmanifest, hwdesc, hhwdesc, h⟩
    cases hinit : sysdCfgYamlInit im.fruYamlNotFound
      (im.description hwdesc.gHwDescDir).outcome with
    | mk accepted fruYaml =>
      dsimp only at h
      rw [hinit] at h
      cases accepted with
      | false => cases h
      | true =>
        obtain ⟨base, hbase, h⟩ := bind_ok_iff.mp h
        obtain ⟨ptr, hptr, h⟩ := bind_ok_iff.mp h
        cases h
        exact ⟨hwdesc, fruYaml, base, ptr, hmanifest, hhwdesc, hinit, hbase,
          orExit_ok_iff.mp hptr, rfl⟩
  · rintro ⟨hwdesc, fruYaml, base, ptr, hmanifest, hhwdesc, hinit, hbase, hptr, rfl⟩
    refine ⟨hmanifest, hwdesc, hhwdesc, ?_⟩
    dsimp only
    rw [hinit]
    exact bind_ok_iff.mpr ⟨base, hbase, bind_ok_iff.mpr ⟨ptr, orExit_ok_iff.mpr hptr, rfl⟩⟩

variable {yaml : Description} {fruYaml : Bool} {base ptr : Subsystem}

theorem accepted_of_some
    (hinit : sysdCfgYamlInit im.fruYamlNotFound yaml.outcome = (true, fruYaml))
    (hbase : readSubsystem im { yaml.fru with fruYaml := fruYaml } = .ok base)
    (hptr : sysdGetInterfaceInfo yaml im.allocates.2 base = some ptr) :
    im.allocates = (true, true) ∧ Accepted im yaml ∧ BaseSubsystem im yaml ptr := by
  obtain ⟨⟨hopened, hdevices, hports, hfru, hinitialised, hdevice⟩, rfl⟩ :=
    sysdCfgYamlInit_iff.mp hinit
  obtain ⟨hcontained, hbase⟩ := readSubsystem_ok_iff.mp hbase
  obtain ⟨hallocates, hstatus, rfl⟩ := sysdGetSubsystemInfo_iff.mp hbase
  obtain ⟨hallocates', hcount, info, interfaces, hinfo, hlists, rfl⟩ :=
    sysdGetInterfaceInfo_iff.mp hptr
  have hlength := hlists.length
  refine ⟨Prod.ext hallocates hallocates', ?_, ?_⟩
  · exact {
      opened := hopened
      devices := hdevices
      ports := hports
      fru := hfru
      initialised := hinitialised
      fruDevice := hdevice
      record := (fruSource_status im yaml).mp hstatus
      contained := hcontained
      portInfo := by rw [hinfo]; rfl
      portCount := hcount
      port := fun i hi => by
        have hlt : i < interfaces.length := by omega
        rw [← hlists.get i hlt, List.getElem?_eq_getElem hlt]
        rfl }
  · exact {
      name := assignMacs_name _
      record := MacPool.assignMacs_fruEeprom _
      systemMacAddr := by
        change (Fru.assignMacs _).systemMacAddr = systemMac (Fru.assignMacs _).fruEeprom
        rw [MacPool.assignMacs_fruEeprom]
        exact assignMacs_systemMacAddr rfl
      portInfo := hinfo
      interfaces := hlists }

theorem some_of_accepted (hallocates : im.allocates = (true, true)) (h : Accepted im yaml) :
    ∃ fruYaml base ptr, sysdCfgYamlInit im.fruYamlNotFound yaml.outcome = (true, fruYaml) ∧
      readSubsystem im { yaml.fru with fruYaml := fruYaml } = .ok base ∧
      sysdGetInterfaceInfo yaml im.allocates.2 base = some ptr := by
  obtain ⟨info, hinfo⟩ := Option.isSome_iff_exists.mp h.portInfo
  have hlists : ∃ interfaces, ListsPorts yaml interfaces := by
    have hcount := h.portCount
    refine ⟨List.ofFn (fun i : Fin yaml.portCount.toNat => (yaml.port i).get (h.port i i.isLt)),
      by simp [List.length_ofFn]; omega, fun i hi => ?_⟩
    rw [List.getElem?_eq_getElem hi]
    simp
  obtain ⟨interfaces, hlists⟩ := hlists
  have hinit : sysdCfgYamlInit im.fruYamlNotFound yaml.outcome =
      (true, (fruSource im yaml).fruYaml) :=
    sysdCfgYamlInit_iff.mpr ⟨⟨h.opened, h.devices, h.ports, h.fru, h.initialised, h.fruDevice⟩,
      rfl⟩
  have hbase : readSubsystem im (fruSource im yaml) = .ok _ :=
    readSubsystem_ok_iff.mpr ⟨h.contained, sysdGetSubsystemInfo_iff.mpr ⟨by rw [hallocates],
      (fruSource_status im yaml).mpr h.record, rfl⟩⟩
  exact ⟨_, _, _, hinit, hbase, sysdGetInterfaceInfo_iff.mpr
    ⟨by rw [hallocates], h.portCount, info, interfaces, hinfo, hlists, rfl⟩⟩

/-- The manifest is accepted unless the reader gives up or meets a daemon that is no object. -/
theorem exists_manifest_iff : (∃ g, sysdReadManifestFile im.manifest = .ok g) ↔
    ¬ GivesUp im.manifest ∧
      ∀ j, im.manifest = some j → ¬ ReachesNonObject (announced comparedTag j) := by
  rw [← Manifest.sysdReadManifestFile_rejected_iff]
  constructor
  · rintro ⟨g, hg⟩
    refine ⟨by simp [hg], fun j hj => ?_⟩
    rw [← Manifest.sysdReadManifestFile_notAnObject_iff, ← hj, hg]
    exact nofun
  · rintro ⟨hrejected, hobjects⟩
    cases h : sysdReadManifestFile im.manifest with
    | ok g => exact ⟨g, rfl⟩
    | error f =>
      cases f with
      | rejected => exact absurd h hrejected
      | notAnObject =>
        cases hj : im.manifest with
        | none =>
          rw [hj] at h
          cases h
        | some j =>
          rw [hj] at h
          exact absurd ((Manifest.sysdReadManifestFile_notAnObject_iff j).mp h) (hobjects j hj)

theorem prepared_of_ok (htext : im.machine.Textual) (h : startUp im fuel fs = .ok s) :
    Bootable im fs ∧ ∃ j, Prepared im fs j s := by
  obtain ⟨⟨g, hcounted⟩, hwdesc, fruYaml, base, ptr, hmanifest, hhwdesc, hinit, hbase, hptr, rfl⟩ :=
    startUp_ok_iff.mp h
  obtain ⟨hnames, hread⟩ := readManifest_ok_iff.mp hmanifest
  obtain ⟨hgives, hobjects⟩ := exists_manifest_iff.mp ⟨g, hread⟩
  obtain ⟨hfound, hrc⟩ := findHwDesc_ok_iff.mp hhwdesc
  obtain ⟨x, y, hx, hy, hlinkable, rfl⟩ := HwDesc.linked_of_ok htext hfound hrc
  obtain ⟨hallocates, haccepted, hsubsystem⟩ := accepted_of_some hinit hbase hptr
  cases hj : im.manifest with
  | none =>
    rw [hj] at hread
    cases hread
  | some j =>
    have hread' := hread
    rw [hj] at hread'
    obtain ⟨hdaemons, _⟩ := Manifest.sysdReadManifestFile_daemons hread'
    exact ⟨⟨hgives, hnames, hobjects, hallocates, x, y, hx, hy, hlinkable, haccepted⟩, j, hj, hdaemons,
      rfl, rfl, rfl, ⟨ptr, rfl, hsubsystem⟩, rfl⟩

theorem exists_startUp (htext : im.machine.Textual) (h : Bootable im fs) :
    ∃ fuel s, startUp im fuel fs = .ok s := by
  obtain ⟨g, hg⟩ := exists_manifest_iff.mpr ⟨h.manifest, h.objects⟩
  obtain ⟨x, y, hx, hy, hlinkable, haccepted⟩ := h.described
  obtain ⟨fuel, hfound⟩ := @HwDesc.exists_findHwDescFiles im.machine fs _ _ htext hx hy
  rw [HwDesc.createLinkToDescFiles_linkable hlinkable] at hfound
  obtain ⟨fruYaml, base, ptr, hinit, hbase, hptr⟩ := some_of_accepted h.allocates haccepted
  exact ⟨fuel, _, startUp_ok_iff.mpr ⟨⟨g, Manifest.counted_of_ok hg⟩, _, fruYaml, base, ptr,
    readManifest_ok_iff.mpr ⟨h.names, hg⟩, findHwDesc_ok_iff.mpr ⟨hfound, rfl⟩, hinit, hbase, hptr, rfl⟩⟩

end Start

/-- A switch with port 49 and the lanes it is split into, and one hardware daemon. -/
def dellImage : Image where
  external := { InitialConfigure.laneKeys with
    bridge := cstr "bridge"
    etherString := fun n => macFormat (MacPool.macBytes n) }
  crc32 := Crc32.crc32
  fruYamlNotFound := -2
  manifest := some (Manifest.oneDaemonManifest (cstr "ops-fand")).json
  emptyBlock := 24
  machine := HwDesc.dellMachine
  description := fun _ => {
    outcome := ⟨0, 0, 0, 0, 0, 0, 0, true,
      (InitialConfigure.lanePlatform InitialConfigure.fourLanes).policies⟩
    fru := MacPool.poolPlatform 74
    portInfo := some ⟨54, 40000, 9192, 256, 8, 1⟩
    portCount := 5
    port := fun i => (InitialConfigure.laneSubsystem InitialConfigure.fourLanes).interfaces[i]?
    systemLed := some ⟨true, 1, 2⟩ }
  allocates := (true, true)

theorem textual_dellMachine : HwDesc.dellMachine.Textual where
  manufacturer text h := by cases h; decide
  productName text h := by cases h; decide

theorem exists_started_dellImage : ∃ s, startUp dellImage 2 HwDesc.dellFiles = .ok s ∧
    s.statusLed = some 1 ∧ ∀ ptr, s.st.subsystems = [ptr] → Configurable s.st ptr := by
  have hstart : (startUp dellImage 2 HwDesc.dellFiles).toOption.map (fun s => (s.statusLed,
      s.st.manifest.mgmtIntf.isSome,
      decide (∀ ptr ∈ s.st.subsystems, InitialConfigure.PortsFit ptr))) =
        some (some 1, true, true) := by decide +kernel
  obtain ⟨s, hs, hread⟩ := Runs.exists_ok hstart
  obtain ⟨hled, hread⟩ := Prod.mk.inj hread
  obtain ⟨hmgmtIntf, hports⟩ := Prod.mk.inj hread
  obtain ⟨_, j, hprepared⟩ := prepared_of_ok textual_dellMachine hs
  refine ⟨s, hs, hled, fun ptr hptr => ⟨hmgmtIntf, ?_, ?_⟩⟩
  · exact of_decide_eq_true hports ptr (by simp [hptr])
  · rw [hprepared.policies]
    exact InitialConfigure.policiesGiven_lanePlatform InitialConfigure.fourLanes

/-- The tables say what the files say: the daemons that the reader selects from the manifest,
the directory of the description, and its ports with the address of the system in the record
of its FRU source. The path of the time zone fits the daemon's buffer. -/
structure FromFiles (im : Image) (osRelease : Option (List CStr)) (j : Json) (dir : CStr)
    (db : Database schema) : Prop where
  system : ∃ key : SysdRun.SystemKey, Watched.system.keys db = [key] ∧
    InitialConfigure.HoldsSwInfo im.external.softwareInfoOsName osRelease key.softwareInfo
      key.switchVersion ∧ key.zoneFits = true
  subsystem : Watched.subsystem.keys db = [⟨Fru.sysdBaseSubsystem, dfltAssetTag, dir⟩]
  interfaces : ∃ (bridge : SysdRun.InterfaceKey) (ptr : Subsystem),
    bridge.hwIntfInfo = datumFromSmap [(im.external.bridge, im.external.bridgeTrue)] ∧
      BaseSubsystem im (im.description dir) ptr ∧
      (Watched.interface.keys db).Perm (bridge :: ptr.interfaces.map (fun intf =>
        ⟨intf.name, datumFromSmap (InitialConfigure.portHwIntfInfo im.external ptr intf)⟩))
  daemons :
    ((Watched.daemon.keys db).map (fun k : SysdRun.DaemonKey => (k.name, k.isHwHandler))).Perm
      ((comparedDaemons j).map (fun d => (d.name, d.isHwHandler)))

theorem Prepared.fromFiles {im : Image} {fs : FileSystem} {j : Json} {s : Started}
    {ptr : Subsystem} {osRelease : Option (List CStr)} {db : Database schema}
    (hs : Prepared im fs j s) (hone : s.st.subsystems = [ptr])
    (h : SysdRun.Equipped s.st ptr osRelease db) :
    FromFiles im osRelease j s.st.hwDescDir db := by
  obtain ⟨ptr', hone', hptr⟩ := hs.subsystem
  obtain rfl : ptr = ptr' := List.singleton_inj.mp (hone.symm.trans hone')
  obtain ⟨bridge, hbridge, hinterfaces⟩ := h.interfaces
  have hsubsystem := h.subsystem
  have hsystem := h.system
  have hdaemons := h.daemons
  rw [SysdRun.subsystemKeyOf, hptr.name] at hsubsystem
  rw [hs.external] at hsystem hbridge
  rw [hs.daemons] at hdaemons
  refine ⟨hsystem, hsubsystem, ⟨bridge, ptr, hbridge, hptr, ?_⟩, hdaemons⟩
  unfold SysdRun.interfaceKeyOf at hinterfaces
  rwa [hs.external] at hinterfaces

/-- From the files to the tables: after a start-up the link leads to the description, no
cooperative pass on an empty database ends in a fault, and whenever the loop sleeps with the
lock and something has come in the tables say what the files say, and completion is recorded
and can be read unless a flagged row is unfinished. -/
theorem boots_of_startUp {im : Image} {fs : FileSystem} {fuel : ℕ} {s : Started}
    {osRelease : Option (List CStr)} {client : ℕ} {replies : ℕ → Reply schema}
    {inputs : List PassInput} {d : Sysd} (htext : im.machine.Textual)
    (hstart : startUp im fuel fs = .ok s)
    (hconf : ∀ ptr, s.st.subsystems = [ptr] → Configurable s.st ptr)
    (h : Runs.Run (sysdRun s.st) (fun p _ => Cooperates osRelease p)
      (Sysd.init client replies) inputs d) :
    ∃ j dir, im.manifest = some j ∧ readlink s.fs im.machine.hwdescFileLink = some dir ∧
      (∀ p, Cooperates osRelease p → ∃ d', sysdRun s.st p d = .ok d') ∧
        ∀ exiting, Sleeps exiting d → d.idl.seqno ≠ 0 →
          FromFiles im osRelease j dir d.idl.snapshot ∧
            ((∃ r ∈ tableRows .daemon d.idl.snapshot, Flagged r ∧ ¬ Finishes r) ∨
              (d.hwInitDoneSet = true ∧ Published d.idl.snapshot)) := by
  obtain ⟨_, j, hprepared⟩ := prepared_of_ok htext hstart
  obtain ⟨ptr, hone, _⟩ := hprepared.subsystem
  have hconf := hconf ptr hone
  have hbooting := SysdRun.booting_of_run hone hconf h
  refine ⟨j, s.st.hwDescDir, hprepared.manifest, ?_, fun p hp => hbooting.proceeds hone hconf hp,
    fun exiting hsleeps hnews => ?_⟩
  · rw [hprepared.files]
    exact readlink_update _ _ _
  · obtain ⟨hequipped, hdone⟩ := hbooting.sleeps h hsleeps hnews
    exact ⟨hprepared.fromFiles hone hequipped, hdone⟩

theorem sleeps_dellImage : ∃ s d₁ d, startUp dellImage 2 HwDesc.dellFiles = .ok s ∧
    sysdRun s.st lanePass laneDaemon.sysd = .ok d₁ ∧
      sysdRun s.st { lanePass with deliveries := [daemonsReport] } d₁ =
        .ok d ∧ Sleeps false d ∧ d.idl.seqno ≠ 0 := by
  let passes (s : Started) : Except Fault Sysd :=
    sysdRun s.st lanePass laneDaemon.sysd >>=
      sysdRun s.st { lanePass with deliveries := [daemonsReport] }
  have hpasses : (startUp dellImage 2 HwDesc.dellFiles).toOption.map (fun s =>
      (passes s).toOption.map (fun d =>
        (SysdRun.waits false d, d.idl.hasLock, d.idl.lockContended, decide (d.idl.seqno ≠ 0)))) =
      some (some (.block, true, false, true)) := by decide +kernel
  obtain ⟨s, hs, hread⟩ := Runs.exists_ok hpasses
  obtain ⟨d, hd, hread⟩ := Runs.exists_ok hread
  obtain ⟨d₁, hfirst, hsecond⟩ := bind_ok_iff.mp hd
  obtain ⟨hwaits, hread⟩ := Prod.mk.inj hread
  obtain ⟨hlock, hread⟩ := Prod.mk.inj hread
  obtain ⟨hcontended, hnews⟩ := Prod.mk.inj hread
  exact ⟨s, d₁, d, hs, hfirst, hsecond, ⟨hwaits, hlock, hcontended⟩, of_decide_eq_true hnews⟩

/-- The switch boots from its files. -/
theorem boots_dellImage : ∃ s d, startUp dellImage 2 HwDesc.dellFiles = .ok s ∧ Sleeps false d ∧
    ∃ j dir, dellImage.manifest = some j ∧
      readlink s.fs dellImage.machine.hwdescFileLink = some dir ∧
      (∀ p, Cooperates none p → ∃ d', sysdRun s.st p d = .ok d') ∧
        FromFiles dellImage none j dir d.idl.snapshot := by
  obtain ⟨s, d₁, d, hs, hfirst, hsecond, hsleeps, hnews⟩ := sleeps_dellImage
  obtain ⟨s', hs', _, hconf⟩ := exists_started_dellImage
  obtain rfl : s = s' := Except.ok.inj (hs.symm.trans hs')
  have hone : Runs.Run (sysdRun s.st) (fun p _ => Cooperates none p)
      laneDaemon.sysd [lanePass] d₁ :=
    .next .start (@SysdRun.cooperates_lanePass [] (fun d hd => by cases hd)) hfirst
  have hrun : Runs.Run (sysdRun s.st) (fun p _ => Cooperates none p)
      laneDaemon.sysd [lanePass,
        { lanePass with deliveries := [daemonsReport] }] d := by
    refine .next hone (SysdRun.cooperates_lanePass (fun d hd => ?_)) hsecond
    rw [List.mem_singleton.mp hd]
    exact SysdRun.leavesBoot_daemonsReport
  obtain ⟨j, dir, hmanifest, hlink, hproceeds, hasleep⟩ :=
    boots_of_startUp textual_dellMachine hs hconf hrun
  exact ⟨s, d, hs, hsleeps, j, dir, hmanifest, hlink, hproceeds, (hasleep false hsleeps hnews).1⟩

end OpsSysd.StartUp
