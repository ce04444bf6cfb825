import OpsSysd.FruRoundTrip
import OpsSysd.ShowSystem
import OpsSysd.StartUp
import OpsSysd.WholeDatabase

/-!
From the EEPROM to the terminal. The record that the daemon decodes goes to the
database under the keys that the command looks up, so what an administrator reads
is what the image holds.
-/

namespace OpsSysd.ShowFru

open CString Ovsdb Ovsrec Platform Fru Tlv
open InitialConfigure (subsystemOtherInfo orEmpty)
open ShowSystem (pad formatSysOutput infoLine)
open StartUp (Image Started startUp FromEeprom)
open Locking (Net Reaches)
open SysdRun (Daemon Sysd Retains HoldsConfiguration Supplied imageProgram)

/-- One line of the command for a text. -/
def shownLine (label : String) (width : ℕ) (text ending : CStr) : CStr :=
  pad 20 (cstr label) ++ cstr ": " ++ pad width text ++ ending

/-- The lines about the hardware, with the texts under each label. -/
def hardwareLines (newline : CStr) (text : FruType → CStr) (cmn : YamlPortInfo) : List CStr :=
  [shownLine "Product Name" 30 (text .productName) (newline ++ newline),
    shownLine "Vendor" 30 (text .vendor) newline,
    shownLine "Platform" 30 (text .platformName) newline,
    shownLine "Manufacturer" 20 (text .manufacturer) newline,
    shownLine "Manufacturer Date" 20 (text .manufactureDate) (newline ++ newline),
    shownLine "Serial Number" 20 (text .serialNumber) [],
    shownLine "Label Revision" 10 (text .labelRevision) (newline ++ newline),
    shownLine "ONIE Version" 20 (text .onieVersion) [],
    shownLine "DIAG Version" 10 (text .diagVersion) newline,
    shownLine "Base MAC Address" 20 (text .baseMacAddress) [],
    shownLine "Number of MACs" 5 (text .numMac) newline,
    shownLine "Interface Count" 20 (decimal cmn.numberPorts) [],
    shownLine "Max Interface Speed" 6 (decimal cmn.maxPortSpeed) (cstr "Mbps" ++ newline)]

/-- What the image says of a type: the last value, as a text, an address or a number. A type
that the image leaves out reads as zero; extensions and the checksum are not recorded. -/
def imageText (tlvs : List FruTlv) : FruType → CStr
  | .baseMacAddress => macFormat ((lastValue tlvs .baseMacAddress).getD (List.replicate 6 0))
  | .numMac => decimal (bigEndian ((lastValue tlvs .numMac).getD []))
  | .vendorExtension => []
  | .crc => []
  | k => cut ((lastValue tlvs k).getD [])

/-- What a record says of a type. -/
def recordText (fru : FruEeprom) : FruType → CStr
  | .productName => orEmpty fru.productName
  | .partNumber => orEmpty fru.partNumber
  | .serialNumber => orEmpty fru.serialNumber
  | .baseMacAddress => macFormat fru.baseMacAddress.bytes
  | .manufactureDate => fru.manufactureDate.str
  | .deviceVersion => cut [fru.deviceVersion]
  | .labelRevision => orEmpty fru.labelRevision
  | .platformName => orEmpty fru.platformName
  | .onieVersion => orEmpty fru.onieVersion
  | .numMac => decimal fru.numMacs.toNat
  | .manufacturer => orEmpty fru.manufacturer
  | .countryCode => fru.countryCode.str
  | .vendor => orEmpty fru.vendor
  | .diagVersion => orEmpty fru.diagVersion
  | .serviceTag => orEmpty fru.serviceTag
  | .vendorExtension => []
  | .crc => []

/-- The EEPROM holds the image, and reading it works. -/
structure InEeprom (crc32 : List UInt8 → UInt32) (p : FruPlatform) (img : FruImage) : Prop where
  version : img.version ≤ supportedOcpFruEepromVersion
  header : p.header.1 = 0
  headerHolds : Holds p.header.2 0 img.header
  allocates : p.allocates = true
  image : (p.image (img.totalLength + fruHeaderSize + 1)).1 = 0
  imageHolds : Holds (p.image (img.totalLength + fruHeaderSize + 1)).2 0 (img.bytes crc32)

section Record

variable {subsys : Platform.Subsystem} {pSys : ShowSystem.Subsystem}

theorem keysNodup_subsystemOtherInfo (subsys : Platform.Subsystem) :
    KeysNodup (subsystemOtherInfo subsys) := by
  unfold KeysNodup subsystemOtherInfo
  simp only [List.map_cons, List.map_nil]
  decide

theorem infoLine_of_mem (h : pSys.otherInfo = datumFromSmap (subsystemOtherInfo subsys))
    {key : String} {text : CStr} (hmem : (cstr key, text) ∈ subsystemOtherInfo subsys)
    (label : String) (width : ℕ) (ending : CStr) :
    infoLine pSys key label width ending = shownLine label width text ending := by
  have hnodup := keysNodup_subsystemOtherInfo subsys
  have hget : smapGet pSys.otherInfo (cstr key) = some text := by
    rw [h, smapGet_datumFromSmap_of_nodup hnodup]
    exact (smapGet_eq_some hnodup).mpr hmem
  unfold infoLine shownLine
  rw [hget, Option.getD_some]

/-- What the daemon stores is what the command prints. -/
theorem formatSysOutput_of_otherInfo
    (h : pSys.otherInfo = datumFromSmap (subsystemOtherInfo subsys)) (ext : ShowSystem.External)
    (pVswitch : ShowSystem.System) :
    (formatSysOutput ext pSys pVswitch).tail =
      hardwareLines ext.newline (recordText subsys.fruEeprom) subsys.intfCmnInfo := by
  unfold formatSysOutput hardwareLines
  simp only [List.tail_cons, List.cons.injEq, and_true]
  refine ⟨?_, ?_, ?_, ?_, ?_, ?_, ?_, ?_, ?_, ?_, ?_, ?_, ?_⟩
  all_goals exact infoLine_of_mem h (by simp [subsystemOtherInfo, recordText]) _ _ _

end Record

section Image

variable {crc32 : List UInt8 → UInt32} {p : FruPlatform} {img : FruImage}

theorem shows_read {β γ : Type} {before after : β} {read : β → γ} {decode : List UInt8 → γ}
    {value : Option (List UInt8)} (h : Shows before after read decode value) :
    read after = (value.map decode).getD (read before) := by
  cases value with
  | none => exact congrArg read h
  | some v => exact h

theorem orEmpty_of_shows {block value : Option (List UInt8)}
    (h : Shows none block readBlock decodeBlock value) : orEmpty block = cut (value.getD []) := by
  have hread : orEmpty block = (readBlock block).getD [] := by cases block <;> rfl
  rw [hread, shows_read h]
  cases value <;> rfl

theorem str_of_shows {n : ℕ} {text : CharArray n} {value : Option (List UInt8)}
    (hzero : (CharArray.zero n).str = [])
    (h : Shows (CharArray.zero n) text CharArray.str cut value) :
    text.str = cut (value.getD []) := by
  rw [shows_read h, hzero]
  cases value <;> rfl

theorem recordText_foldl_put (tlvs : List FruTlv) :
    recordText (tlvs.foldl FruTlv.put .zero) = imageText tlvs := by
  have h := decoded_foldl_put tlvs .zero
  funext k
  cases k with
  | baseMacAddress =>
    change macFormat (tlvs.foldl FruTlv.put .zero).baseMacAddress.bytes = macFormat _
    rw [shows_read h.baseMacAddress, Option.map_id]
    rfl
  | numMac =>
    change decimal (tlvs.foldl FruTlv.put .zero).numMacs.toNat = decimal _
    rw [shows_read h.numMacs]
    cases lastValue tlvs .numMac <;> rfl
  | deviceVersion =>
    change cut [(tlvs.foldl FruTlv.put .zero).deviceVersion] = cut _
    rw [shows_read h.deviceVersion]
    cases lastValue tlvs .deviceVersion <;> rfl
  | manufactureDate => exact str_of_shows (by decide) h.manufactureDate
  | countryCode => exact str_of_shows (by decide) h.countryCode
  | productName => exact orEmpty_of_shows h.productName
  | partNumber => exact orEmpty_of_shows h.partNumber
  | serialNumber => exact orEmpty_of_shows h.serialNumber
  | labelRevision => exact orEmpty_of_shows h.labelRevision
  | platformName => exact orEmpty_of_shows h.platformName
  | onieVersion => exact orEmpty_of_shows h.onieVersion
  | manufacturer => exact orEmpty_of_shows h.manufacturer
  | vendor => exact orEmpty_of_shows h.vendor
  | diagVersion => exact orEmpty_of_shows h.diagVersion
  | serviceTag => exact orEmpty_of_shows h.serviceTag
  | vendorExtension => rfl
  | crc => rfl

/-- The header alone tells the length. -/
theorem headerTotalLength_header {buf : Memory} (h : Holds buf 0 img.header) :
    (headerTotalLength buf).toNat = img.totalLength := by
  have hshort : img.totalLength < 65536 := Nat.lt_succ_of_le img.short
  unfold FruImage.header be16Bytes at h
  simp only [holds_append, holds_cons, List.length_append, img.id_length, List.length_cons,
    List.length_nil] at h
  obtain ⟨_, hhigh, hlow, _⟩ := h
  unfold headerTotalLength
  rw [hhigh, hlow]
  exact be16_be16Bytes hshort

theorem version_of_header {buf : Memory} (h : Holds buf 0 img.header) : buf 8 = img.version := by
  unfold FruImage.header at h
  simp only [holds_append, holds_cons, List.length_append, img.id_length] at h
  exact h.1.2.1

theorem sysdReadFruEeprom_image (h : InEeprom crc32 p img) :
    sysdReadFruEeprom crc32 { p with fruYaml := false } .zero =
      (0, img.tlvs.foldl FruTlv.put .zero) := by
  have hlength := headerTotalLength_header h.headerHolds
  have hversion : ¬ p.header.2 8 > supportedOcpFruEepromVersion := by
    rw [version_of_header h.headerHolds]
    exact UInt8.not_lt.mpr h.version
  have hheader : sysdCfgYamlFruRead p.header = true := by
    rw [sysdCfgYamlFruRead_eq]
    exact h.header
  have himage : sysdCfgYamlFruRead (p.image (img.totalLength + fruHeaderSize + 1)) = true := by
    rw [sysdCfgYamlFruRead_eq]
    exact h.image
  have hdecodes := sysdProcessEeprom_image h.imageHolds .zero
  rw [headerTotalLength_image h.imageHolds] at hdecodes
  unfold sysdReadFruEeprom
  simp [hheader, hversion, h.allocates, hlength, himage, hdecodes]

end Image

section System

variable {im : Image} {fs : FileLinks.FileSystem} {fuel : ℕ} {s : Started} {img : FruImage}
  {osRelease : Option (List CStr)}

/-- The columns that the command's first part reads. -/
def shownColumns : List Column := [.systemSoftwareInfo, .systemSwitchVersion, .subsystemOtherInfo]

/-- The first part of the command's output is that of the image, and the version that of the
os-release file. -/
def ShowsImage (im : Image) (osRelease : Option (List CStr)) (img : FruImage)
    (cmn : YamlPortInfo) (system subsystem : OvsRow) : Prop :=
  InitialConfigure.HoldsSwInfo im.external.softwareInfoOsName osRelease
      (system.col .systemSoftwareInfo) (system.col .systemSwitchVersion) ∧
    ∀ ext pSys pVswitch, pSys.otherInfo = subsystem.col .subsystemOtherInfo →
      pVswitch.switchVersion = some (system.col .systemSwitchVersion) →
        formatSysOutput ext pSys pVswitch =
          shownLine "OpenSwitch Version" 30 (system.col .systemSwitchVersion) ext.newline ::
            hardwareLines ext.newline (imageText img.tlvs) cmn

theorem shows_of_holds {C : Column → Prop} (hshown : ∀ c ∈ shownColumns, C c) {st : Startup}
    {subsys : Platform.Subsystem} {db : Database schema} (hext : st.external = im.external)
    (hrecord : subsys.fruEeprom = img.tlvs.foldl FruTlv.put .zero)
    (h : HoldsConfiguration C st subsys osRelease db) :
    ∃ system ∈ tableRows .system db, ∃ subsystem ∈ tableRows .subsystem db,
      ShowsImage im osRelease img subsys.intfCmnInfo system subsystem := by
  obtain ⟨t, hwhole, hretains⟩ := h
  obtain ⟨system, subsystem, _, _, _, _, _, hcore, hsettings⟩ := hwhole.rows
  have hkept : ∀ (k : Table) (r : OvsRow), (∃ c ∈ shownColumns, c.table = k) →
      tableRows k t.inserted = [r] →
        ∃ r' ∈ tableRows k db, ∀ c ∈ shownColumns, c.table = k → r'.col c = r.col c := by
    intro k r hk hr
    have hmem : r ∈ tableRows k t.inserted := by simp [hr]
    obtain ⟨hin, rfl⟩ := mem_rowsOf.mp hmem
    obtain ⟨c₀, hc₀, htable₀⟩ := hk
    obtain ⟨r', hr', htable, _, hcols⟩ := hretains r hin ⟨c₀, hshown c₀ hc₀, htable₀⟩
    refine ⟨r', mem_rowsOf.mpr ⟨hr', htable⟩, fun c hc hct => ?_⟩
    have hfollows := hcols c (hshown c hc) hct
    simp only [shownColumns, List.mem_cons, List.not_mem_nil, or_false] at hc
    rcases hc with rfl | rfl | rfl <;> exact hfollows
  obtain ⟨system', hsystem', hsyscols⟩ := hkept .system system (by decide) hcore.systemRows
  obtain ⟨subsystem', hsubsystem', hsubcols⟩ :=
    hkept .subsystem subsystem (by decide) hcore.subsystemRows
  refine ⟨system', hsystem', subsystem', hsubsystem', ?_,
    fun ext pSys pVswitch hpSys hversion => ?_⟩
  · rw [hsyscols .systemSoftwareInfo (by decide) rfl, hsyscols .systemSwitchVersion (by decide) rfl,
      ← hext]
    exact hsettings.swInfo
  · rw [hsubcols .subsystemOtherInfo (by decide) rfl, hsettings.otherInfo] at hpSys
    have htail := formatSysOutput_of_otherInfo hpSys ext pVswitch
    rw [hrecord, recordText_foldl_put] at htail
    rw [← htail]
    unfold formatSysOutput shownLine
    rw [hversion]
    rfl

/-- From the EEPROM to the terminal: once the daemons of an image, whose allocations succeed,
have configured the empty database, in whatever order they act, what the command prints of the
system is the image's record, as long as other clients leave the columns that it reads. -/
theorem shown_of_eeprom {C : Column → Prop} (hC : ∀ c, C c → c.table ≠ .packageInfo)
    (hshown : ∀ c ∈ shownColumns, C c) (htext : im.machine.Textual)
    (hstart : startUp im fuel fs = .ok s)
    (heeprom : FromEeprom im (im.description s.st.hwDescDir))
    (himage : InEeprom im.crc32 (im.description s.st.hwDescDir).fru img)
    {net₀ net : Net Daemon (Database schema) (Finished schema)} (hinitial : net₀.Initial)
    (hempty : tableRows .system net₀.store = [])
    (h : Reaches (((imageProgram s.st).within (Supplied osRelease)).among (Retains C)) net₀ net)
    (hrows : tableRows .system net.store ≠ []) :
    ∃ cmn, (im.description s.st.hwDescDir).portInfo = some cmn ∧
      ∃ system ∈ tableRows .system net.store, ∃ subsystem ∈ tableRows .subsystem net.store,
        ShowsImage im osRelease img cmn system subsystem := by
  obtain ⟨_, j, hprepared⟩ := StartUp.prepared_of_ok htext hstart
  obtain ⟨ptr, hone, hptr⟩ := hprepared.subsystem
  have hrecord : ptr.fruEeprom = img.tlvs.foldl FruTlv.put .zero := by
    have hsource : StartUp.fruSource im (im.description s.st.hwDescDir) =
        { (im.description s.st.hwDescDir).fru with fruYaml := false } := by
      simp [StartUp.fruSource, heeprom]
    rw [hptr.record, hsource, sysdReadFruEeprom_image himage]
  have hholds : HoldsConfiguration C s.st ptr osRelease net.store :=
    Locking.established_of_reaches (SysdRun.imageProgram_fillsOnce s.st osRelease)
      (SysdRun.fills_imageProgram hC hone) (fun _ _ => HoldsConfiguration.retained) hinitial
      (identities_eq_nil.mpr hempty) h (fun hnone => hrows (identities_eq_nil.mp hnone))
  exact ⟨ptr.intfCmnInfo, hptr.portInfo, shows_of_holds hshown hprepared.external hrecord hholds⟩

/-- A switch whose description leaves the record to its EEPROM. -/
def eepromImage : Image :=
  { StartUp.dellImage with
    description := fun dir =>
      let yaml := StartUp.dellImage.description dir
      { yaml with
        outcome := { yaml.outcome with parseFru := StartUp.dellImage.fruYamlNotFound }
        fru := { yaml.fru with
          header := (0, ofList sampleImage.header)
          image := fun _ => (0, ofList (sampleImage.bytes Crc32.crc32)) } } }

theorem inEeprom_eepromImage (dir : CStr) :
    InEeprom eepromImage.crc32 (eepromImage.description dir).fru sampleImage where
  version := by decide
  header := rfl
  headerHolds := holds_ofList _
  allocates := rfl
  image := rfl
  imageHolds := holds_ofList _

theorem exists_started_eepromImage : ∃ s, startUp eepromImage 2 HwDesc.dellFiles = .ok s ∧
    ∀ ptr, s.st.subsystems = [ptr] → InitialConfigure.Configurable s.st ptr := by
  have hstart : (startUp eepromImage 2 HwDesc.dellFiles).toOption.map (fun s => (
      s.st.manifest.mgmtIntf.isSome,
      decide (∀ ptr ∈ s.st.subsystems, InitialConfigure.PortsFit ptr))) =
        some (true, true) := by decide +kernel
  obtain ⟨s, hs, hread⟩ := Runs.exists_ok hstart
  obtain ⟨hmgmtIntf, hports⟩ := Prod.mk.inj hread
  obtain ⟨_, j, hprepared⟩ := StartUp.prepared_of_ok StartUp.textual_dellMachine hs
  refine ⟨s, hs, fun ptr hptr => ⟨hmgmtIntf, ?_, ?_⟩⟩
  · exact of_decide_eq_true hports ptr (by simp [hptr])
  · rw [hprepared.policies]
    exact InitialConfigure.policiesGiven_lanePlatform InitialConfigure.fourLanes

/-- One daemon of a switch that starts from its EEPROM configures the empty database. -/
theorem shown_of_eeprom_eepromImage : ∃ s net, startUp eepromImage 2 HwDesc.dellFiles = .ok s ∧
    Reaches (((imageProgram s.st).within (Supplied none)).among (Retains (· ∈ shownColumns)))
      SysdRun.emptyNet net ∧ ∃ cmn, ∃ system ∈ tableRows .system net.store, ∃ subsystem ∈ tableRows .subsystem net.store,
        ShowsImage eepromImage none sampleImage cmn system subsystem := by
  obtain ⟨s, hs, hconf⟩ := exists_started_eepromImage
  obtain ⟨_, j, hprepared⟩ := StartUp.prepared_of_ok StartUp.textual_dellMachine hs
  obtain ⟨ptr, hone, _⟩ := hprepared.subsystem
  let d : Daemon := ⟨s.st, ⟨ptr, hone⟩, Sysd.init 1 (fun _ => SysdRun.plainReply .success)⟩
  have hsnapshot : (SysdRun.received SysdRun.lanePass d.sysd).snapshot = [] := rfl
  have hbare : SysdRun.Bare (SysdRun.received SysdRun.lanePass d.sysd).snapshot := by
    intro w
    rw [hsnapshot]
    cases w <;> rfl
  have hreplica : (SysdRun.received SysdRun.lanePass d.sysd).Replicated := by
    intro r hr
    rw [hsnapshot] at hr
    cases hr
  have hcooperates : SysdRun.Cooperates none SysdRun.lanePass :=
    @SysdRun.cooperates_lanePass [] (fun d hd => by cases hd)
  obtain ⟨t, n, hconfigure, _⟩ := SysdRun.configure_bare hone (hconf ptr hone) hcooperates rfl
    hreplica hbare d.sysd.hwInitDoneSet
  obtain ⟨net, hreaches, hrows⟩ := @SysdRun.reaches_whole _ none (Retains (· ∈ shownColumns)) d
    SysdRun.lanePass _ _ ⟨1, _, rfl⟩ hone ⟨rfl, rfl⟩ hsnapshot ⟨rfl, rfl, Nat.succ_ne_zero _⟩ hconfigure
  obtain ⟨cmn, _, hshown⟩ := shown_of_eeprom (by decide) (fun c h => h) StartUp.textual_dellMachine
    hs rfl (inEeprom_eepromImage _) SysdRun.initial_emptyNet rfl hreaches hrows
  exact ⟨s, net, hs, hreaches, cmn, hshown⟩

end System

end OpsSysd.ShowFru
