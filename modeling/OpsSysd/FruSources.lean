import OpsSysd.FruRoundTrip
import OpsSysd.Scan

/-!
The hardware description as a source of the FRU record. The six bytes of the
MAC address are converted with stores of four bytes each, so the last three
conversions reach into the date that lies after the address. On a record that
both sources carry they agree up to the device version, which is not copied
here, and the random end of the address.
-/

namespace OpsSysd.Fru

open CString Tlv Scan

/-- The items of `fru_info` in the description. -/
structure YamlFruInfo where
  countryCode : CStr
  deviceVersion : UInt8
  diagVersion : CStr
  labelRevision : CStr
  baseMacAddress : CStr
  manufactureDate : CStr
  manufacturer : CStr
  numMacs : ℤ
  onieVersion : CStr
  partNumber : CStr
  platformName : CStr
  productName : CStr
  serialNumber : CStr
  serviceTag : CStr
  vendor : CStr

/-- The block that a string pointer of the description points to. -/
def aliasOf (s : CStr) : Option (List UInt8) := some (s ++ [0])

def le32 (v : UInt32) : List UInt8 :=
  [v.toUInt8, (v >>> 8).toUInt8, (v >>> 16).toUInt8, (v >>> 24).toUInt8]

namespace FruEeprom

/-- `base_mac_address` and `manufacture_date` have no padding between them. -/
def macAndDate (fru : FruEeprom) :
    CharArray (fruBaseMacAddressLen + (fruManufactureDateLen + 1)) where
  bytes := fru.baseMacAddress.bytes ++ fru.manufactureDate.bytes
  size_eq := by rw [List.length_append, fru.baseMacAddress.size_eq, fru.manufactureDate.size_eq]

def setMacAndDate (fru : FruEeprom)
    (region : CharArray (fruBaseMacAddressLen + (fruManufactureDateLen + 1))) : FruEeprom :=
  { fru with
    baseMacAddress := ⟨region.bytes.take fruBaseMacAddressLen, by
      rw [List.length_take, region.size_eq]
      rfl⟩
    manufactureDate := ⟨region.bytes.drop fruBaseMacAddressLen, by
      rw [List.length_drop, region.size_eq]
      rfl⟩ }

/-- Conversion `k` of the format stores four bytes at `&base_mac_address[k]`. -/
def storeScanned (fru : FruEeprom) (values : List UInt32) : FruEeprom :=
  fru.setMacAndDate
    (values.zipIdx.foldl (fun region p => region.storeAt p.2 (le32 p.1)) fru.macAndDate)

/-- The record with the last three bytes of the address cleared. -/
def maskMacTail (fru : FruEeprom) : FruEeprom :=
  { fru with baseMacAddress := fru.baseMacAddress.storeAt 3 [0, 0, 0] }

end FruEeprom

/-- The last three bytes of the address come from `rand`. -/
def sysdCfgYamlGetFruInfo (fruInfo : Option YamlFruInfo) (rand₃ rand₄ rand₅ : UInt8)
    (fru : FruEeprom) : ℤ × FruEeprom :=
  match fruInfo with
  | none => (-1, fru)
  | some info =>
    let fru := { fru with
      countryCode := (fru.countryCode.store
        (strncpyBytes info.countryCode fruCountryCodeLen)).set fruCountryCodeLen 0
      diagVersion := aliasOf info.diagVersion
      labelRevision := aliasOf info.labelRevision }
    let fru := fru.storeScanned (scanHexes fruBaseMacAddressLen info.baseMacAddress)
    (0, { fru with
      baseMacAddress := ((fru.baseMacAddress.set 3 rand₃).set 4 rand₄).set 5 rand₅
      manufactureDate := (fru.manufactureDate.store
        (strncpyBytes info.manufactureDate fruManufactureDateLen)).set fruManufactureDateLen 0
      manufacturer := aliasOf info.manufacturer
      numMacs := UInt16.ofInt info.numMacs
      onieVersion := aliasOf info.onieVersion
      partNumber := aliasOf info.partNumber
      platformName := aliasOf info.platformName
      productName := aliasOf info.productName
      serialNumber := aliasOf info.serialNumber
      serviceTag := aliasOf info.serviceTag
      vendor := aliasOf info.vendor })

/-- A record whose fields fit the format of the image. -/
structure FruRecord where
  countryCode : CStr
  deviceVersion : UInt8
  diagVersion : CStr
  labelRevision : CStr
  baseMacAddress : List UInt8
  manufactureDate : CStr
  manufacturer : CStr
  numMacs : UInt16
  onieVersion : CStr
  partNumber : CStr
  platformName : CStr
  productName : CStr
  serialNumber : CStr
  serviceTag : CStr
  vendor : CStr
  mac_length : baseMacAddress.length = fruBaseMacAddressLen
  country_short : countryCode.length ≤ fruCountryCodeLen
  date_short : manufactureDate.length ≤ fruManufactureDateLen
  strings_short : ∀ s ∈ [diagVersion, labelRevision, manufacturer, onieVersion, partNumber,
    platformName, productName, serialNumber, serviceTag, vendor], s.length ≤ 255
  nulFree : ∀ s ∈ [countryCode, manufactureDate, diagVersion, labelRevision, manufacturer,
    onieVersion, partNumber, platformName, productName, serialNumber, serviceTag, vendor], 0 ∉ s

namespace FruRecord

/-- The value of the element of a type. -/
def value (r : FruRecord) : FruType → List UInt8
  | .productName => r.productName
  | .partNumber => r.partNumber
  | .serialNumber => r.serialNumber
  | .baseMacAddress => r.baseMacAddress
  | .manufactureDate => r.manufactureDate
  | .deviceVersion => [r.deviceVersion]
  | .labelRevision => r.labelRevision
  | .platformName => r.platformName
  | .onieVersion => r.onieVersion
  | .numMac => be16Bytes r.numMacs.toNat
  | .manufacturer => r.manufacturer
  | .countryCode => r.countryCode
  | .vendor => r.vendor
  | .diagVersion => r.diagVersion
  | .serviceTag => r.serviceTag
  | .vendorExtension | .crc => []

/-- The elements have one of each type, in any order, and any vendor extensions. -/
def Encoded (r : FruRecord) (tlvs : List FruTlv) : Prop :=
  ∀ k, k ≠ .vendorExtension → k ≠ .crc →
    (tlvs.filter (fun t => t.type = k)).map FruTlv.value = [r.value k]

/-- The description has every item of the record, the address in hexadecimal. -/
structure Carried (r : FruRecord) (info : YamlFruInfo) : Prop where
  countryCode : info.countryCode = r.countryCode
  deviceVersion : info.deviceVersion = r.deviceVersion
  diagVersion : info.diagVersion = r.diagVersion
  labelRevision : info.labelRevision = r.labelRevision
  baseMacAddress : HexBytes info.baseMacAddress r.baseMacAddress
  manufactureDate : info.manufactureDate = r.manufactureDate
  manufacturer : info.manufacturer = r.manufacturer
  numMacs : info.numMacs = r.numMacs.toNat
  onieVersion : info.onieVersion = r.onieVersion
  partNumber : info.partNumber = r.partNumber
  platformName : info.platformName = r.platformName
  productName : info.productName = r.productName
  serialNumber : info.serialNumber = r.serialNumber
  serviceTag : info.serviceTag = r.serviceTag
  vendor : info.vendor = r.vendor

end FruRecord

section Agreement

variable {r : FruRecord}

/-- A field of the decoded record is updated by the one element of its type. -/
theorem proj_foldl_encoded {β : Type} {tlvs : List FruTlv} (h : r.Encoded tlvs)
    (proj : FruEeprom → β) (k : FruType) {upd : β → FruTlv → β}
    (hproj : ∀ fru t, proj (FruTlv.put fru t) = t.on k upd (proj fru))
    (hext : k ≠ .vendorExtension) (hcrc : k ≠ .crc) (fru : FruEeprom) :
    ∃ t : FruTlv, t.value = r.value k ∧
      proj (tlvs.foldl FruTlv.put fru) = upd (proj fru) t := by
  have hone := h k hext hcrc
  obtain ⟨t, hfilter, hvalue⟩ := List.map_eq_singleton_iff.mp hone
  refine ⟨t, hvalue, ?_⟩
  rw [proj_foldl_put hproj, hfilter]
  rfl

theorem asBlock_eq {b : Option (List UInt8)} {t : FruTlv} {s : CStr} (hvalue : t.value = s)
    (hnul : 0 ∉ s) : FruTlv.asBlock b t = aliasOf s := by
  subst hvalue
  rw [FruTlv.asBlock, copyString_of_nulFree hnul]
  rfl

theorem asText_eq {n : ℕ} {t : FruTlv} {s : CStr} (a : CharArray (n + 1)) (hvalue : t.value = s)
    (hshort : s.length ≤ n) (hnul : 0 ∉ s) :
    FruTlv.asText (CharArray.zero (n + 1)) t = (a.store (strncpyBytes s n)).set n 0 := by
  subst hvalue
  exact CharArray.store_copyString_zero a _ hshort hnul

theorem asBytes_bytes {n : ℕ} {t : FruTlv} {bytes : List UInt8} (a : CharArray n)
    (hvalue : t.value = bytes) (hlen : bytes.length = n) : (FruTlv.asBytes a t).bytes = bytes := by
  have ha := a.size_eq
  rw [FruTlv.asBytes, hvalue, CharArray.store_bytes_of_le a (by omega),
    List.drop_of_length_le (by omega), List.append_nil]

theorem asWord_eq {t : FruTlv} {n : UInt16} (w : UInt16) (hvalue : t.value = be16Bytes n.toNat) :
    FruTlv.asWord w t = UInt16.ofInt n.toNat := by
  have hn : UInt16.ofInt n.toNat = n := by
    have hlt := n.toNat_lt
    have hmod : (Int.emod n.toNat (2 ^ 16)).toNat = n.toNat := by
      have := Int.emod_eq_of_lt (Int.natCast_nonneg n.toNat)
        (by omega : (n.toNat : ℤ) < 2 ^ 16)
      exact (congrArg Int.toNat this).trans (Int.toNat_natCast _)
    exact (congrArg UInt16.ofNat hmod).trans UInt16.ofNat_toNat
  rw [hn, FruTlv.asWord, hvalue]
  exact UInt16.toNat_inj.mp (be16_be16Bytes n.toNat_lt)

theorem le32_toUInt32 (b : UInt8) : le32 b.toUInt32 = [b, 0, 0, 0] := by
  have hall : ∀ n : Fin 256, le32 (UInt8.ofNat n).toUInt32 = [UInt8.ofNat n, 0, 0, 0] := by
    decide +kernel
  have hb := hall ⟨b.toNat, b.toNat_lt⟩
  rwa [UInt8.ofNat_toNat] at hb

/-- The conversions leave the first three bytes of the address right. -/
theorem storeScanned_mac {fru : FruEeprom} {bytes : List UInt8}
    (hlen : bytes.length = fruBaseMacAddressLen)
    (hmac : fru.baseMacAddress = .zero _) (hdate : fru.manufactureDate = .zero _) :
    (fru.storeScanned (bytes.map UInt8.toUInt32)).baseMacAddress.bytes = bytes := by
  have hregion : fru.macAndDate = .zero _ := by
    apply CharArray.ext_bytes
    change fru.baseMacAddress.bytes ++ fru.manufactureDate.bytes = _
    rw [hmac, hdate]
    rfl
  obtain ⟨b₀, bytes, rfl⟩ := List.exists_cons_of_length_eq_add_one hlen
  obtain ⟨b₁, bytes, rfl⟩ := List.exists_cons_of_length_eq_add_one (Nat.succ.inj hlen)
  obtain ⟨b₂, bytes, rfl⟩ :=
    List.exists_cons_of_length_eq_add_one (Nat.succ.inj (Nat.succ.inj hlen))
  obtain ⟨b₃, b₄, b₅, rfl⟩ := List.length_eq_three.mp
    (Nat.succ.inj (Nat.succ.inj (Nat.succ.inj hlen)))
  unfold FruEeprom.storeScanned
  rw [hregion]
  simp only [List.map_cons, List.map_nil, List.zipIdx_cons, List.zipIdx_nil, List.foldl_cons,
    List.foldl_nil, le32_toUInt32]
  rfl

/-- The two decoders fill a cleared record alike, but for the device version
and the random end of the address. -/
theorem yaml_eq_eeprom {tlvs : List FruTlv} {info : YamlFruInfo} (hcarried : r.Carried info)
    (hencoded : r.Encoded tlvs) (rand₃ rand₄ rand₅ : UInt8) :
    (sysdCfgYamlGetFruInfo (some info) rand₃ rand₄ rand₅ .zero).2.maskMacTail =
      { (tlvs.foldl FruTlv.put .zero).maskMacTail with deviceVersion := 0 } := by
  have hnul := r.nulFree
  simp only [List.forall_mem_cons] at hnul
  obtain ⟨hcountry, hdate, hdiag, hlabel, hmanufacturer, honie, hpart, hplatform, hproduct, hserial,
    hservice, hvendor, _⟩ := hnul
  have hblock : ∀ (proj : FruEeprom → Option (List UInt8)) (k : FruType),
      (∀ fru t, proj (FruTlv.put fru t) = t.on k FruTlv.asBlock (proj fru)) →
        k ≠ .vendorExtension → k ≠ .crc → 0 ∉ r.value k →
          aliasOf (r.value k) = proj (tlvs.foldl FruTlv.put .zero) := by
    intro proj k hproj hext hcrc hs
    obtain ⟨t, ht, hfold⟩ := proj_foldl_encoded hencoded proj k hproj hext hcrc .zero
    rw [hfold, asBlock_eq ht hs]
  have hscan : scanHexes fruBaseMacAddressLen info.baseMacAddress =
      r.baseMacAddress.map UInt8.toUInt32 := by
    rw [← r.mac_length]
    exact scanHexes_of_hexBytes hcarried.baseMacAddress
  unfold sysdCfgYamlGetFruInfo FruEeprom.maskMacTail
  simp only [hcarried.countryCode, hcarried.diagVersion, hcarried.labelRevision,
    hcarried.manufactureDate, hcarried.manufacturer, hcarried.numMacs, hcarried.onieVersion,
    hcarried.partNumber, hcarried.platformName, hcarried.productName, hcarried.serialNumber,
    hcarried.serviceTag, hcarried.vendor, hscan]
  apply FruEeprom.ext
  · obtain ⟨t, ht, hfold⟩ := proj_foldl_encoded hencoded FruEeprom.countryCode .countryCode
      (fun _ _ => rfl) (by decide) (by decide) .zero
    exact (hfold.trans (asText_eq _ ht r.country_short hcountry)).symm
  · rfl
  · exact hblock FruEeprom.diagVersion .diagVersion (fun _ _ => rfl) (by decide) (by decide) hdiag
  · exact hblock FruEeprom.labelRevision .labelRevision (fun _ _ => rfl) (by decide) (by decide)
      hlabel
  · obtain ⟨t, ht, hfold⟩ := proj_foldl_encoded hencoded FruEeprom.baseMacAddress .baseMacAddress
      (fun _ _ => rfl) (by decide) (by decide) .zero
    dsimp only
    rw [CharArray.storeAt_set _ (by decide) (by decide),
      CharArray.storeAt_set _ (by decide) (by decide),
      CharArray.storeAt_set _ (by decide) (by decide)]
    congr 1
    apply CharArray.ext_bytes
    rw [hfold, storeScanned_mac r.mac_length rfl rfl]
    exact (asBytes_bytes _ ht r.mac_length).symm
  · obtain ⟨t, ht, hfold⟩ := proj_foldl_encoded hencoded FruEeprom.manufactureDate .manufactureDate
      (fun _ _ => rfl) (by decide) (by decide) .zero
    exact (hfold.trans (asText_eq _ ht r.date_short hdate)).symm
  · exact hblock FruEeprom.manufacturer .manufacturer (fun _ _ => rfl) (by decide) (by decide)
      hmanufacturer
  · obtain ⟨t, ht, hfold⟩ := proj_foldl_encoded hencoded FruEeprom.numMacs .numMac
      (fun _ _ => rfl) (by decide) (by decide) .zero
    exact (hfold.trans (asWord_eq _ ht)).symm
  · exact hblock FruEeprom.onieVersion .onieVersion (fun _ _ => rfl) (by decide) (by decide) honie
  · exact hblock FruEeprom.partNumber .partNumber (fun _ _ => rfl) (by decide) (by decide) hpart
  · exact hblock FruEeprom.platformName .platformName (fun _ _ => rfl) (by decide) (by decide)
      hplatform
  · exact hblock FruEeprom.productName .productName (fun _ _ => rfl) (by decide) (by decide)
      hproduct
  · exact hblock FruEeprom.serialNumber .serialNumber (fun _ _ => rfl) (by decide) (by decide)
      hserial
  · exact hblock FruEeprom.serviceTag .serviceTag (fun _ _ => rfl) (by decide) (by decide) hservice
  · exact hblock FruEeprom.vendor .vendor (fun _ _ => rfl) (by decide) (by decide) hvendor

end Agreement

section Sources

variable (crc32 : List UInt8 → UInt32)

/-- Both sources fill a cleared record, and alike but for the random bytes. -/
structure SourcesAgree (info : YamlFruInfo) (rand₃ rand₄ rand₅ : UInt8) (buf : Memory) : Prop where
  yaml : (sysdCfgYamlGetFruInfo (some info) rand₃ rand₄ rand₅ .zero).1 = 0
  eeprom : (sysdProcessEeprom crc32 buf .zero (headerTotalLength buf).toNat).1 = true
  record : (sysdCfgYamlGetFruInfo (some info) rand₃ rand₄ rand₅ .zero).2.maskMacTail =
    (sysdProcessEeprom crc32 buf .zero (headerTotalLength buf).toNat).2.maskMacTail

variable {r : FruRecord} {info : YamlFruInfo} {img : FruImage} {buf : Memory}

theorem deviceVersion_encoded {tlvs : List FruTlv} (h : r.Encoded tlvs) :
    (tlvs.foldl FruTlv.put .zero).deviceVersion = r.deviceVersion := by
  obtain ⟨t, ht, hfold⟩ := proj_foldl_encoded h FruEeprom.deviceVersion .deviceVersion
    (fun _ _ => rfl) (by decide) (by decide) .zero
  rw [hfold, FruTlv.asByte, ht]
  rfl

/-- The sources agree on a record exactly when its device version is the zero
that the description leaves. -/
theorem record_agrees_iff (hcarried : r.Carried info) (hencoded : r.Encoded img.tlvs)
    (rand₃ rand₄ rand₅ : UInt8) :
    (sysdCfgYamlGetFruInfo (some info) rand₃ rand₄ rand₅ .zero).2.maskMacTail =
      (img.tlvs.foldl FruTlv.put .zero).maskMacTail ↔ r.deviceVersion = 0 := by
  have hversion := deviceVersion_encoded hencoded
  rw [yaml_eq_eeprom hcarried hencoded]
  constructor
  · intro h
    have hzero := congrArg FruEeprom.deviceVersion h
    exact hversion.symm.trans hzero.symm
  · intro h
    rw [h] at hversion
    apply FruEeprom.ext <;> first | rfl | exact hversion.symm

/-- For a record that the description carries and an image encodes. -/
theorem sourcesAgree_iff (hcarried : r.Carried info) (hencoded : r.Encoded img.tlvs)
    (hbuf : Holds buf 0 (img.bytes crc32)) (rand₃ rand₄ rand₅ : UInt8) :
    SourcesAgree crc32 info rand₃ rand₄ rand₅ buf ↔ r.deviceVersion = 0 := by
  have himage := sysdProcessEeprom_image hbuf .zero
  rw [← record_agrees_iff hcarried hencoded rand₃ rand₄ rand₅]
  constructor
  · intro h
    have hrecord := h.record
    rwa [himage] at hrecord
  · intro h
    refine ⟨rfl, ?_, ?_⟩
    · rw [himage]
    · rw [himage]
      exact h

end Sources

theorem FruRecord.legal (r : FruRecord) {k : FruType} (h : k ≠ .crc) :
    LegalLength k (r.value k).length := by
  have hs := r.strings_short
  simp only [List.forall_mem_cons] at hs
  obtain ⟨hdiag, hlabel, hmanufacturer, honie, hpart, hplatform, hproduct, hserial, hservice,
    hvendor, _⟩ := hs
  cases k with
  | crc => exact absurd rfl h
  | baseMacAddress => exact r.mac_length
  | manufactureDate => exact r.date_short
  | countryCode => exact r.country_short
  | numMac | deviceVersion => rfl
  | vendorExtension => exact Nat.zero_lt_succ _
  | _ =>
    simp only [LegalLength, value]
    omega

def FruRecord.tlv (r : FruRecord) (k : FruType) (h : k ≠ .crc) : FruTlv := ⟨k, r.value k, r.legal h⟩

/-- The record of a virtual switch with a device version. -/
def sampleRecord (version : UInt8) : FruRecord where
  countryCode := cstr "US"
  deviceVersion := version
  diagVersion := cstr "1.0.0.0"
  labelRevision := cstr "L01"
  baseMacAddress := [0x70, 0x72, 0xcf, 0, 0, 1]
  manufactureDate := cstr "09/01/2015 00:00:01"
  manufacturer := cstr "OpenSwitch"
  numMacs := 74
  onieVersion := cstr "2014.08.00.05"
  partNumber := cstr "OPSX8664"
  platformName := cstr "Generic-x86-64"
  productName := cstr "OpenSwitch"
  serialNumber := cstr "X8664001"
  serviceTag := cstr "0"
  vendor := cstr "OpenSwitch"
  mac_length := rfl
  country_short := by decide
  date_short := by decide
  strings_short := by decide
  nulFree := by decide

def sampleInfo (version : UInt8) : YamlFruInfo where
  countryCode := cstr "US"
  deviceVersion := version
  diagVersion := cstr "1.0.0.0"
  labelRevision := cstr "L01"
  baseMacAddress := cstr "70:72:cf:00:00:01"
  manufactureDate := cstr "09/01/2015 00:00:01"
  manufacturer := cstr "OpenSwitch"
  numMacs := 74
  onieVersion := cstr "2014.08.00.05"
  partNumber := cstr "OPSX8664"
  platformName := cstr "Generic-x86-64"
  productName := cstr "OpenSwitch"
  serialNumber := cstr "X8664001"
  serviceTag := cstr "0"
  vendor := cstr "OpenSwitch"

def sampleElements (version : UInt8) : List FruTlv :=
  [(sampleRecord version).tlv .productName (by decide),
    (sampleRecord version).tlv .partNumber (by decide),
    (sampleRecord version).tlv .serialNumber (by decide),
    (sampleRecord version).tlv .baseMacAddress (by decide),
    (sampleRecord version).tlv .manufactureDate (by decide),
    (sampleRecord version).tlv .deviceVersion (by decide),
    (sampleRecord version).tlv .labelRevision (by decide),
    (sampleRecord version).tlv .platformName (by decide),
    (sampleRecord version).tlv .onieVersion (by decide),
    (sampleRecord version).tlv .numMac (by decide),
    (sampleRecord version).tlv .manufacturer (by decide),
    (sampleRecord version).tlv .countryCode (by decide),
    (sampleRecord version).tlv .vendor (by decide),
    (sampleRecord version).tlv .diagVersion (by decide),
    (sampleRecord version).tlv .serviceTag (by decide)]

def sampleRecordImage (version : UInt8) : FruImage where
  id := sampleImage.id
  version := 1
  tlvs := sampleElements version
  id_length := sampleImage.id_length
  short := Nat.le_of_ble_eq_true rfl

theorem carried_sample (version : UInt8) :
    (sampleRecord version).Carried (sampleInfo version) where
  countryCode := rfl
  deviceVersion := rfl
  diagVersion := rfl
  labelRevision := rfl
  baseMacAddress := by
    have hbyte : ∀ p ∈ [(cstr "70", 0x70), (cstr "72", 0x72), (cstr "cf", 0xcf), (cstr "00", 0),
        (cstr "01", 1)], HexByte p.1 p.2 := by
      intro p hp
      simp only [List.mem_cons, List.not_mem_nil, or_false] at hp
      rcases hp with rfl | rfl | rfl | rfl | rfl
      all_goals exact ⟨by decide, List.all_eq_true.mp (by decide), rfl⟩
    have hmac := HexBytes.more (hbyte (cstr "70", 0x70) (by decide))
      (.more (hbyte (cstr "72", 0x72) (by decide)) (.more (hbyte (cstr "cf", 0xcf) (by decide))
        (.more (hbyte (cstr "00", 0) (by decide)) (.more (hbyte (cstr "00", 0) (by decide))
          (.last (hbyte (cstr "01", 1) (by decide)))))))
    exact hmac
  manufactureDate := rfl
  manufacturer := rfl
  numMacs := rfl
  onieVersion := rfl
  partNumber := rfl
  platformName := rfl
  productName := rfl
  serialNumber := rfl
  serviceTag := rfl
  vendor := rfl

theorem encoded_sample (version : UInt8) :
    (sampleRecord version).Encoded (sampleRecordImage version).tlvs := by
  intro k hext hcrc
  cases k with
  | vendorExtension => exact absurd rfl hext
  | crc => exact absurd rfl hcrc
  | _ => rfl

theorem sourcesAgree_sample : SourcesAgree Crc32.crc32 (sampleInfo 0) 7 8 9
    (ofList ((sampleRecordImage 0).bytes Crc32.crc32)) :=
  (sourcesAgree_iff Crc32.crc32 (carried_sample 0) (encoded_sample 0) (holds_ofList _)
    7 8 9).mpr rfl

/-- Device version one is lost on the way through the description. -/
theorem not_sourcesAgree_version :
    (sampleRecord 1).Carried (sampleInfo 1) ∧ (sampleRecord 1).Encoded (sampleRecordImage 1).tlvs ∧
      ¬ SourcesAgree Crc32.crc32 (sampleInfo 1) 7 8 9
        (ofList ((sampleRecordImage 1).bytes Crc32.crc32)) := by
  refine ⟨carried_sample 1, encoded_sample 1, ?_⟩
  intro h
  have hrecord := h.record
  rw [sysdProcessEeprom_image (holds_ofList _),
    record_agrees_iff (carried_sample 1) (encoded_sample 1)] at hrecord
  exact absurd hrecord (by decide)

end OpsSysd.Fru
