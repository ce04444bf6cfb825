import OpsSysd.Fru
import OpsSysd.Crc32

/-!
Decoding a serialised image. An element whose length is legal for its type
updates one field of the record from its value alone, so the loop over a
serialised sequence is a fold, and each field sees only the elements of its
own type.
-/

namespace OpsSysd.Fru

open CString Tlv

/-- The value lengths that are legal for a type; the checksum is not a value. -/
def LegalLength : FruType → ℕ → Prop
  | .baseMacAddress, n => n = fruBaseMacAddressLen
  | .numMac, n => n = 2
  | .deviceVersion, n => n = 1
  | .manufactureDate, n => n ≤ fruManufactureDateLen
  | .countryCode, n => n ≤ fruCountryCodeLen
  | .crc, _ => False
  | _, n => n < 256

theorem LegalLength.lt {t : FruType} {n : ℕ} (h : LegalLength t n) : n < 256 := by
  cases t <;>
    simp only [LegalLength, fruBaseMacAddressLen, fruManufactureDateLen, fruCountryCodeLen] at h <;>
    omega

/-- An element of a supported type with a legal length. -/
structure FruTlv where
  type : FruType
  value : List UInt8
  legal : LegalLength type value.length

namespace FruTlv

def item (t : FruTlv) : Item := ⟨t.type.code, t.value, t.legal.lt⟩

def encode (t : FruTlv) : List UInt8 := t.item.encode

theorem encode_length (t : FruTlv) : t.encode.length = t.value.length + 2 := t.item.encode_length

/-- Update a field if the element is of the field's type. -/
def on {β : Type} (t : FruTlv) (k : FruType) (upd : β → FruTlv → β) (b : β) : β :=
  if t.type = k then upd b t else b

def asBlock (_ : Option (List UInt8)) (t : FruTlv) : Option (List UInt8) :=
  some (copyString t.value t.value.length)

def asText {n : ℕ} (a : CharArray n) (t : FruTlv) : CharArray n :=
  a.store (copyString t.value t.value.length)

def asBytes {n : ℕ} (a : CharArray n) (t : FruTlv) : CharArray n := a.store t.value

def asByte (_ : UInt8) (t : FruTlv) : UInt8 := t.value.getD 0 0

def asWord (_ : UInt16) (t : FruTlv) : UInt16 := be16 (t.value.getD 0 0) (t.value.getD 1 0)

/-- What the loop does to the record for one element. -/
def put (fru : FruEeprom) (t : FruTlv) : FruEeprom where
  countryCode := t.on .countryCode asText fru.countryCode
  deviceVersion := t.on .deviceVersion asByte fru.deviceVersion
  diagVersion := t.on .diagVersion asBlock fru.diagVersion
  labelRevision := t.on .labelRevision asBlock fru.labelRevision
  baseMacAddress := t.on .baseMacAddress asBytes fru.baseMacAddress
  manufactureDate := t.on .manufactureDate asText fru.manufactureDate
  manufacturer := t.on .manufacturer asBlock fru.manufacturer
  numMacs := t.on .numMac asWord fru.numMacs
  onieVersion := t.on .onieVersion asBlock fru.onieVersion
  partNumber := t.on .partNumber asBlock fru.partNumber
  platformName := t.on .platformName asBlock fru.platformName
  productName := t.on .productName asBlock fru.productName
  serialNumber := t.on .serialNumber asBlock fru.serialNumber
  serviceTag := t.on .serviceTag asBlock fru.serviceTag
  vendor := t.on .vendor asBlock fru.vendor

end FruTlv

section Step

variable (crc32 : List UInt8 → UInt32) {bp : Memory} {pos : ℕ} {t : FruTlv}

theorem holds_encode (h : Holds bp pos t.encode) :
    bp pos = t.type.code ∧ (bp (pos + 1)).toNat = t.value.length ∧ Holds bp (pos + 2) t.value := by
  have hitem : itemAt bp pos = t.item := itemAt_of_holds h
  have hlen := itemAt_length bp pos
  rw [hitem] at hlen
  unfold FruTlv.encode Item.encode at h
  rw [holds_cons, holds_cons] at h
  exact ⟨h.1, hlen.symm, h.2.2⟩

theorem holds_slice {bytes : List UInt8} {off : ℕ} (h : Holds bp off bytes) :
    slice bp off bytes.length = bytes := h

theorem holds_slice_succ {bytes : List UInt8} {off : ℕ} (h : Holds bp off bytes) :
    slice bp off (bytes.length + 1) = bytes ++ [bp (off + bytes.length)] := by
  rw [slice_add, holds_slice h, slice_succ, slice_zero]

theorem sysdProcessTlv_encode (len : ℕ) (fru : FruEeprom) (h : Holds bp pos t.encode) :
    sysdProcessTlv crc32 bp len pos fru = some (t.put fru) := by
  obtain ⟨hcode, hlen, hvalue⟩ := holds_encode h
  obtain ⟨type, value, legal⟩ := t
  have hslice : slice bp (pos + 2) value.length = value := hvalue
  have hsucc := holds_slice_succ hvalue
  simp only at hcode hlen hsucc
  unfold sysdProcessTlv
  simp only [hcode, FruType.ofCode_code, hlen, hslice, hsucc]
  cases type with
  | crc => exact legal.elim
  | countryCode =>
    have hfit : value.length < fruCountryCodeLen + 1 := Nat.lt_succ_of_le legal
    simp only [CharArray.set_store_strncpy _ _ _ hfit]
    rfl
  | manufactureDate =>
    have hfit : value.length < fruManufactureDateLen + 1 := Nat.lt_succ_of_le legal
    simp only [CharArray.set_store_strncpy _ _ _ hfit]
    rfl
  | baseMacAddress =>
    have hmac : fruBaseMacAddressLen = value.length := legal.symm
    simp only [hmac, hslice]
    rfl
  | numMac =>
    obtain ⟨a, b, rfl⟩ := List.length_eq_two.mp legal
    rw [holds_cons, holds_cons] at hvalue
    rw [hvalue.1, hvalue.2.1]
    rfl
  | deviceVersion =>
    obtain ⟨a, rfl⟩ := List.length_eq_one_iff.mp legal
    rw [holds_cons] at hvalue
    rw [hvalue.1]
    rfl
  | _ => rfl

/-- The loop over serialised elements is the fold of their updates. -/
theorem sysdProcessEepromLoop_encode {tlvs : List FruTlv} {idx len : ℕ} (fru : FruEeprom)
    (h : Holds bp (fruHeaderSize + idx) (tlvs.flatMap FruTlv.encode))
    (hlen : idx + (tlvs.flatMap FruTlv.encode).length ≤ len) :
    sysdProcessEepromLoop crc32 bp len idx (fruHeaderSize + idx) fru =
      sysdProcessEepromLoop crc32 bp len (idx + (tlvs.flatMap FruTlv.encode).length)
        (fruHeaderSize + (idx + (tlvs.flatMap FruTlv.encode).length))
        (tlvs.foldl FruTlv.put fru) := by
  induction tlvs generalizing idx fru with
  | nil => rfl
  | cons t rest ih =>
    rw [List.flatMap_cons, holds_append] at h
    simp only [List.flatMap_cons, List.length_append, t.encode_length] at hlen h ⊢
    obtain ⟨_, hskip, _⟩ := holds_encode h.1
    rw [sysdProcessEepromLoop, if_pos (by omega), sysdProcessTlv_encode crc32 len fru h.1, hskip]
    simp only [List.foldl_cons]
    rw [show fruHeaderSize + idx + (t.value.length + 2) =
      fruHeaderSize + (idx + (t.value.length + 2)) by omega, ih _ ?_ (by omega)]
    · rw [Nat.add_assoc]
    · rw [← Nat.add_assoc]
      exact h.2

end Step

theorem mul_two_pow_or {x y i : ℕ} (h : y < 2 ^ i) : (x * 2 ^ i) ||| y = x * 2 ^ i + y := by
  rw [← Nat.shiftLeft_eq, Nat.shiftLeft_add_eq_or_of_lt h]

theorem be16_toNat (a b : UInt8) : (be16 a b).toNat = a.toNat * 256 + b.toNat := by
  have ha := a.toNat_lt
  have hb := b.toNat_lt
  have h8 : (8 : UInt16).toNat % 16 = 8 := rfl
  simp only [be16, UInt16.toNat_or, UInt16.toNat_shiftLeft, UInt8.toNat_toUInt16, h8,
    Nat.shiftLeft_eq]
  rw [Nat.mod_eq_of_lt (by omega), mul_two_pow_or (by omega)]
  omega

theorem be32_toNat (a b c d : UInt8) :
    (be32 a b c d).toNat = ((a.toNat * 256 + b.toNat) * 256 + c.toNat) * 256 + d.toNat := by
  have ha := a.toNat_lt
  have hb := b.toNat_lt
  have hc := c.toNat_lt
  have hd := d.toNat_lt
  have h24 : (24 : UInt32).toNat % 32 = 24 := rfl
  have h16 : (16 : UInt32).toNat % 32 = 16 := rfl
  have h8 : (8 : UInt32).toNat % 32 = 8 := rfl
  simp only [be32, UInt32.toNat_or, UInt32.toNat_shiftLeft, UInt8.toNat_toUInt32, h24, h16, h8,
    Nat.shiftLeft_eq]
  rw [Nat.mod_eq_of_lt (by omega), Nat.mod_eq_of_lt (by omega), Nat.mod_eq_of_lt (by omega),
    mul_two_pow_or (by omega : b.toNat * 2 ^ 16 < 2 ^ 24),
    show a.toNat * 2 ^ 24 + b.toNat * 2 ^ 16 = (a.toNat * 256 + b.toNat) * 2 ^ 16 by omega,
    mul_two_pow_or (by omega : c.toNat * 2 ^ 8 < 2 ^ 16),
    show (a.toNat * 256 + b.toNat) * 2 ^ 16 + c.toNat * 2 ^ 8 =
      ((a.toNat * 256 + b.toNat) * 256 + c.toNat) * 2 ^ 8 by omega,
    mul_two_pow_or (by omega : d.toNat < 2 ^ 8)]
  omega

/-- The digits of a number in base 256, most significant first. -/
def bigEndian (bytes : List UInt8) : ℕ := bytes.foldl (fun n b => n * 256 + b.toNat) 0

def be16Bytes (n : ℕ) : List UInt8 := [UInt8.ofNat (n / 256), UInt8.ofNat n]

def be32Bytes (n : ℕ) : List UInt8 :=
  [UInt8.ofNat (n / 2 ^ 24), UInt8.ofNat (n / 2 ^ 16), UInt8.ofNat (n / 2 ^ 8), UInt8.ofNat n]

theorem be16_be16Bytes {n : ℕ} (h : n < 65536) :
    (be16 (UInt8.ofNat (n / 256)) (UInt8.ofNat n)).toNat = n := by
  rw [be16_toNat, UInt8.toNat_ofNat', UInt8.toNat_ofNat']
  omega

theorem be32_be32Bytes (c : UInt32) :
    be32 (UInt8.ofNat (c.toNat / 2 ^ 24)) (UInt8.ofNat (c.toNat / 2 ^ 16))
      (UInt8.ofNat (c.toNat / 2 ^ 8)) (UInt8.ofNat c.toNat) = c := by
  have hc := c.toNat_lt
  apply UInt32.toNat_inj.mp
  rw [be32_toNat]
  simp only [UInt8.toNat_ofNat']
  omega

/-- What an image is made from; the total length fits its two header bytes. -/
structure FruImage where
  id : List UInt8
  version : UInt8
  tlvs : List FruTlv
  id_length : id.length = 8
  short : (tlvs.flatMap FruTlv.encode).length + 6 ≤ 65535

namespace FruImage

variable (crc32 : List UInt8 → UInt32) (img : FruImage)

/-- The length of the elements, the checksum element included. -/
def totalLength : ℕ := (img.tlvs.flatMap FruTlv.encode).length + 6

def header : List UInt8 := img.id ++ [img.version] ++ be16Bytes img.totalLength

/-- Everything before the value of the checksum element. -/
def covered : List UInt8 :=
  img.header ++ img.tlvs.flatMap FruTlv.encode ++ [FruType.crc.code, 4]

def bytes : List UInt8 := img.covered ++ be32Bytes (crc32 img.covered).toNat

theorem header_length : img.header.length = fruHeaderSize := by
  simp [header, be16Bytes, img.id_length, fruHeaderSize]

theorem covered_length : img.covered.length = fruHeaderSize + img.totalLength - 4 := by
  simp only [covered, List.length_append, img.header_length, totalLength, List.length_cons,
    List.length_nil]
  omega

end FruImage

section Image

variable {crc32 : List UInt8 → UInt32} {img : FruImage} {buf : Memory}

theorem headerTotalLength_image (h : Holds buf 0 (img.bytes crc32)) :
    (headerTotalLength buf).toNat = img.totalLength := by
  have hshort : img.totalLength < 65536 := Nat.lt_succ_of_le img.short
  unfold FruImage.bytes FruImage.covered FruImage.header be16Bytes at h
  simp only [holds_append, holds_cons, List.length_append, img.id_length, List.length_cons,
    List.length_nil] at h
  obtain ⟨⟨⟨⟨_, hhi, hlo, _⟩, _⟩, _⟩, _⟩ := h
  unfold headerTotalLength
  rw [hhi, hlo]
  exact be16_be16Bytes hshort

theorem holds_elements (h : Holds buf 0 (img.bytes crc32)) :
    Holds buf fruHeaderSize (img.tlvs.flatMap FruTlv.encode) := by
  unfold FruImage.bytes FruImage.covered at h
  rw [holds_append, holds_append, holds_append, img.header_length, Nat.zero_add] at h
  exact h.1.1.2

theorem crc_element_at (h : Holds buf 0 (img.bytes crc32)) :
    buf (fruHeaderSize + (img.totalLength - 6)) = FruType.crc.code ∧
      buf (fruHeaderSize + (img.totalLength - 6) + 1) = 4 := by
  unfold FruImage.bytes FruImage.covered at h
  simp only [holds_append, holds_cons, List.length_append, img.header_length, Nat.zero_add] at h
  exact ⟨h.1.2.1, h.1.2.2.1⟩

/-- The checksum element is accepted: the range it covers is every byte before its value. -/
theorem sysdProcessTlv_crc (h : Holds buf 0 (img.bytes crc32)) (fru : FruEeprom) :
    sysdProcessTlv crc32 buf img.totalLength (fruHeaderSize + (img.totalLength - 6)) fru =
      some fru := by
  have hrange : crcLen img.totalLength 4 = img.covered.length := by
    have hshort : img.totalLength ≤ 65535 := img.short
    have hsix : 6 ≤ img.totalLength := Nat.le_add_left _ _
    rw [img.covered_length]
    unfold crcLen fruHeaderSize
    omega
  have hpos : fruHeaderSize + (img.totalLength - 6) + 2 = img.covered.length := by
    have hsix : 6 ≤ img.totalLength := Nat.le_add_left _ _
    rw [img.covered_length]
    omega
  have hcovered : slice buf 0 img.covered.length = img.covered :=
    ((holds_append _ _ _ _).mp h).1
  have hcode := crc_element_at h
  have hvalue := ((holds_append _ _ _ _).mp h).2
  rw [Nat.zero_add, ← hpos] at hvalue
  simp only [be32Bytes, holds_cons, Nat.add_assoc] at hvalue
  obtain ⟨h₀, h₁, h₂, h₃, _⟩ := hvalue
  simp only [Nat.add_assoc] at hcode
  unfold sysdProcessTlv calcCrc
  simp only [Nat.add_assoc, hcode.1, hcode.2, FruType.ofCode_code, h₀, h₁, h₂, h₃]
  rw [show (4 : UInt8).toNat = 4 from rfl, hrange, hcovered, be32_be32Bytes]
  simp

theorem sysdProcessEeprom_image (h : Holds buf 0 (img.bytes crc32)) (fru : FruEeprom) :
    sysdProcessEeprom crc32 buf fru (headerTotalLength buf).toNat =
      (true, img.tlvs.foldl FruTlv.put fru) := by
  have hlen : (img.tlvs.flatMap FruTlv.encode).length = img.totalLength - 6 := by
    simp [FruImage.totalLength]
  have hcode := (crc_element_at h).2
  have hsix : 6 ≤ img.totalLength := Nat.le_add_left _ _
  rw [headerTotalLength_image h]
  unfold sysdProcessEeprom
  rw [show fruHeaderSize = fruHeaderSize + 0 from rfl,
    sysdProcessEepromLoop_encode crc32 fru (holds_elements h) (by omega), hlen, Nat.zero_add,
    sysdProcessEepromLoop, if_pos (by omega), sysdProcessTlv_crc h]
  simp only [hcode]
  rw [sysdProcessEepromLoop, if_neg]
  simp
  omega

end Image

/-- The value of the last element of a type. -/
def lastValue (tlvs : List FruTlv) (k : FruType) : Option (List UInt8) :=
  (tlvs.filter (fun t => t.type = k)).getLast?.map FruTlv.value

/-- A field reads as the last value of its type, or is as before. -/
def Shows {β γ : Type} (before after : β) (read : β → γ) (decode : List UInt8 → γ) :
    Option (List UInt8) → Prop
  | none => after = before
  | some v => read after = decode v

def readBlock (block : Option (List UInt8)) : Option CStr := block.map cut

def decodeBlock (v : List UInt8) : Option CStr := some (cut v)

/-- Every field is the value of the last element of its type. -/
structure Decoded (tlvs : List FruTlv) (before after : FruEeprom) : Prop where
  countryCode : Shows before.countryCode after.countryCode CharArray.str cut
    (lastValue tlvs .countryCode)
  deviceVersion : Shows before.deviceVersion after.deviceVersion (fun b => [b]) id
    (lastValue tlvs .deviceVersion)
  diagVersion : Shows before.diagVersion after.diagVersion readBlock decodeBlock
    (lastValue tlvs .diagVersion)
  labelRevision : Shows before.labelRevision after.labelRevision readBlock decodeBlock
    (lastValue tlvs .labelRevision)
  baseMacAddress : Shows before.baseMacAddress after.baseMacAddress CharArray.bytes id
    (lastValue tlvs .baseMacAddress)
  manufactureDate : Shows before.manufactureDate after.manufactureDate CharArray.str cut
    (lastValue tlvs .manufactureDate)
  manufacturer : Shows before.manufacturer after.manufacturer readBlock decodeBlock
    (lastValue tlvs .manufacturer)
  numMacs : Shows before.numMacs after.numMacs UInt16.toNat bigEndian (lastValue tlvs .numMac)
  onieVersion : Shows before.onieVersion after.onieVersion readBlock decodeBlock
    (lastValue tlvs .onieVersion)
  partNumber : Shows before.partNumber after.partNumber readBlock decodeBlock
    (lastValue tlvs .partNumber)
  platformName : Shows before.platformName after.platformName readBlock decodeBlock
    (lastValue tlvs .platformName)
  productName : Shows before.productName after.productName readBlock decodeBlock
    (lastValue tlvs .productName)
  serialNumber : Shows before.serialNumber after.serialNumber readBlock decodeBlock
    (lastValue tlvs .serialNumber)
  serviceTag : Shows before.serviceTag after.serviceTag readBlock decodeBlock
    (lastValue tlvs .serviceTag)
  vendor : Shows before.vendor after.vendor readBlock decodeBlock (lastValue tlvs .vendor)

/-- Two sequences that differ in the order of elements of different types only. -/
def SameByType (tlvs tlvs' : List FruTlv) : Prop :=
  ∀ k : FruType, tlvs'.filter (fun t => t.type = k) = tlvs.filter (fun t => t.type = k)

section Fields

variable {β γ : Type} {proj : FruEeprom → β} {k : FruType} {upd : β → FruTlv → β}

/-- A field's fold runs over the elements of its type. -/
theorem proj_foldl_put (h : ∀ fru t, proj (FruTlv.put fru t) = t.on k upd (proj fru))
    (tlvs : List FruTlv) (fru : FruEeprom) :
    proj (tlvs.foldl FruTlv.put fru) =
      (tlvs.filter (fun t => t.type = k)).foldl upd (proj fru) :=
  foldl_field FruTlv.put FruTlv.type k proj upd h tlvs fru

theorem shows_foldl_put {read : β → γ} {decode : List UInt8 → γ}
    (h : ∀ fru t, proj (FruTlv.put fru t) = t.on k upd (proj fru))
    (hread : ∀ t : FruTlv, t.type = k → ∀ b, read (upd b t) = decode t.value)
    (tlvs : List FruTlv) (fru : FruEeprom) :
    Shows (proj fru) (proj (tlvs.foldl FruTlv.put fru)) read decode (lastValue tlvs k) := by
  have hlast := foldl_last upd read (fun t => decode t.value)
    (tlvs.filter (fun t => t.type = k))
    (fun t ht => hread t (by simpa using (List.mem_filter.mp ht).2))
    (proj fru)
  rw [proj_foldl_put h]
  unfold lastValue
  cases hl : (tlvs.filter (fun t => t.type = k)).getLast? with
  | none => simpa [Shows, hl] using hlast
  | some t => simpa [Shows, hl] using hlast

end Fields

theorem readBlock_asBlock (t : FruTlv) (b : Option (List UInt8)) :
    readBlock (FruTlv.asBlock b t) = decodeBlock t.value := by
  have h := cut_copyString t.value t.value.length []
  rw [List.append_nil, List.take_length] at h
  simp [readBlock, FruTlv.asBlock, decodeBlock, h]

theorem decoded_foldl_put (tlvs : List FruTlv) (fru : FruEeprom) :
    Decoded tlvs fru (tlvs.foldl FruTlv.put fru) where
  countryCode := by
    refine shows_foldl_put (fun _ _ => rfl) (fun t ht a => ?_) tlvs fru
    have hlegal := t.legal
    rw [ht] at hlegal
    exact CharArray.str_store_copyString a (Nat.lt_succ_of_le hlegal)
  deviceVersion := by
    refine shows_foldl_put (fun _ _ => rfl) (fun t ht _ => ?_) tlvs fru
    have hlegal := t.legal
    rw [ht] at hlegal
    obtain ⟨a, ha⟩ := List.length_eq_one_iff.mp hlegal
    simp [FruTlv.asByte, ha]
  diagVersion := shows_foldl_put (fun _ _ => rfl) (fun t _ => readBlock_asBlock t) tlvs fru
  labelRevision := shows_foldl_put (fun _ _ => rfl) (fun t _ => readBlock_asBlock t) tlvs fru
  baseMacAddress := by
    refine shows_foldl_put (fun _ _ => rfl) (fun t ht a => ?_) tlvs fru
    have hlegal := t.legal
    rw [ht] at hlegal
    have hlen : t.value.length = fruBaseMacAddressLen := hlegal
    have hsize := a.size_eq
    unfold FruTlv.asBytes
    rw [CharArray.store_bytes_of_le a (by omega), List.drop_of_length_le (by omega)]
    simp
  manufactureDate := by
    refine shows_foldl_put (fun _ _ => rfl) (fun t ht a => ?_) tlvs fru
    have hlegal := t.legal
    rw [ht] at hlegal
    exact CharArray.str_store_copyString a (Nat.lt_succ_of_le hlegal)
  manufacturer := shows_foldl_put (fun _ _ => rfl) (fun t _ => readBlock_asBlock t) tlvs fru
  numMacs := by
    refine shows_foldl_put (fun _ _ => rfl) (fun t ht _ => ?_) tlvs fru
    have hlegal := t.legal
    rw [ht] at hlegal
    obtain ⟨a, b, hab⟩ := List.length_eq_two.mp hlegal
    simp [FruTlv.asWord, hab, be16_toNat, bigEndian]
  onieVersion := shows_foldl_put (fun _ _ => rfl) (fun t _ => readBlock_asBlock t) tlvs fru
  partNumber := shows_foldl_put (fun _ _ => rfl) (fun t _ => readBlock_asBlock t) tlvs fru
  platformName := shows_foldl_put (fun _ _ => rfl) (fun t _ => readBlock_asBlock t) tlvs fru
  productName := shows_foldl_put (fun _ _ => rfl) (fun t _ => readBlock_asBlock t) tlvs fru
  serialNumber := shows_foldl_put (fun _ _ => rfl) (fun t _ => readBlock_asBlock t) tlvs fru
  serviceTag := shows_foldl_put (fun _ _ => rfl) (fun t _ => readBlock_asBlock t) tlvs fru
  vendor := shows_foldl_put (fun _ _ => rfl) (fun t _ => readBlock_asBlock t) tlvs fru

/-- Only the order within each type matters to the record. -/
theorem foldl_put_sameByType {tlvs tlvs' : List FruTlv} (h : SameByType tlvs tlvs')
    (fru : FruEeprom) : tlvs'.foldl FruTlv.put fru = tlvs.foldl FruTlv.put fru := by
  have hfield : ∀ {β : Type} (proj : FruEeprom → β) (k : FruType) (upd : β → FruTlv → β),
      (∀ fru t, proj (FruTlv.put fru t) = t.on k upd (proj fru)) →
        proj (tlvs'.foldl FruTlv.put fru) = proj (tlvs.foldl FruTlv.put fru) := by
    intro β proj k upd hproj
    rw [proj_foldl_put hproj, proj_foldl_put hproj, h k]
  apply FruEeprom.ext
  · exact hfield FruEeprom.countryCode .countryCode FruTlv.asText (fun _ _ => rfl)
  · exact hfield FruEeprom.deviceVersion .deviceVersion FruTlv.asByte (fun _ _ => rfl)
  · exact hfield FruEeprom.diagVersion .diagVersion FruTlv.asBlock (fun _ _ => rfl)
  · exact hfield FruEeprom.labelRevision .labelRevision FruTlv.asBlock (fun _ _ => rfl)
  · exact hfield FruEeprom.baseMacAddress .baseMacAddress FruTlv.asBytes (fun _ _ => rfl)
  · exact hfield FruEeprom.manufactureDate .manufactureDate FruTlv.asText (fun _ _ => rfl)
  · exact hfield FruEeprom.manufacturer .manufacturer FruTlv.asBlock (fun _ _ => rfl)
  · exact hfield FruEeprom.numMacs .numMac FruTlv.asWord (fun _ _ => rfl)
  · exact hfield FruEeprom.onieVersion .onieVersion FruTlv.asBlock (fun _ _ => rfl)
  · exact hfield FruEeprom.partNumber .partNumber FruTlv.asBlock (fun _ _ => rfl)
  · exact hfield FruEeprom.platformName .platformName FruTlv.asBlock (fun _ _ => rfl)
  · exact hfield FruEeprom.productName .productName FruTlv.asBlock (fun _ _ => rfl)
  · exact hfield FruEeprom.serialNumber .serialNumber FruTlv.asBlock (fun _ _ => rfl)
  · exact hfield FruEeprom.serviceTag .serviceTag FruTlv.asBlock (fun _ _ => rfl)
  · exact hfield FruEeprom.vendor .vendor FruTlv.asBlock (fun _ _ => rfl)

/-- Decoding undoes encoding, and elements of different types commute. -/
theorem sysdProcessEeprom_decodes (crc32 : List UInt8 → UInt32) (img : FruImage) (buf : Memory)
    (h : Holds buf 0 (img.bytes crc32)) (fru : FruEeprom) :
    (sysdProcessEeprom crc32 buf fru (headerTotalLength buf).toNat).1 = true ∧
      Decoded img.tlvs fru (sysdProcessEeprom crc32 buf fru (headerTotalLength buf).toNat).2 ∧
      ∀ (img' : FruImage) (buf' : Memory), SameByType img.tlvs img'.tlvs →
        Holds buf' 0 (img'.bytes crc32) →
          sysdProcessEeprom crc32 buf' fru (headerTotalLength buf').toNat =
            sysdProcessEeprom crc32 buf fru (headerTotalLength buf).toNat := by
  rw [sysdProcessEeprom_image h]
  refine ⟨rfl, decoded_foldl_put img.tlvs fru, ?_⟩
  intro img' buf' hsame h'
  rw [sysdProcessEeprom_image h', foldl_put_sameByType hsame]

/-- Two part numbers around a number of MAC addresses. -/
def sampleImage : FruImage where
  id := cstr "TlvInfo" ++ [0]
  version := 1
  tlvs := [⟨.partNumber, cstr "old", (by decide : (cstr "old").length < 256)⟩,
    ⟨.numMac, [1, 2], rfl⟩,
    ⟨.partNumber, [80, 49, 0, 7], (by decide : 4 < 256)⟩]
  id_length := by decide
  short := by decide

theorem sysdProcessEeprom_sampleImage :
    Decoded sampleImage.tlvs .zero
      (sysdProcessEeprom Crc32.crc32 (ofList (sampleImage.bytes Crc32.crc32)) .zero
        (headerTotalLength (ofList (sampleImage.bytes Crc32.crc32))).toNat).2 :=
  (sysdProcessEeprom_decodes Crc32.crc32 sampleImage _ (holds_ofList _) .zero).2.1

end OpsSysd.Fru
