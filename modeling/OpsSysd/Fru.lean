import OpsSysd.Tlv

/-!
Decoding the FRU EEPROM image. The buffer is a byte memory from its first
address on, so a read past the image returns whatever lies there. The loop
advances a cursor and an index in step; acceptance does not depend on the
record that is being filled.
-/

namespace OpsSysd.Fru

open CString Tlv

/-- The codes the switch knows. -/
inductive FruType
  | productName
  | partNumber
  | serialNumber
  | baseMacAddress
  | manufactureDate
  | deviceVersion
  | labelRevision
  | platformName
  | onieVersion
  | numMac
  | manufacturer
  | countryCode
  | vendor
  | diagVersion
  | serviceTag
  | vendorExtension
  | crc
  deriving DecidableEq, Repr

namespace FruType

def code : FruType → UInt8
  | productName => 0x21
  | partNumber => 0x22
  | serialNumber => 0x23
  | baseMacAddress => 0x24
  | manufactureDate => 0x25
  | deviceVersion => 0x26
  | labelRevision => 0x27
  | platformName => 0x28
  | onieVersion => 0x29
  | numMac => 0x2a
  | manufacturer => 0x2b
  | countryCode => 0x2c
  | vendor => 0x2d
  | diagVersion => 0x2e
  | serviceTag => 0x2f
  | vendorExtension => 0xfd
  | crc => 0xfe

def all : List FruType :=
  [productName, partNumber, serialNumber, baseMacAddress, manufactureDate, deviceVersion,
    labelRevision, platformName, onieVersion, numMac, manufacturer, countryCode, vendor,
    diagVersion, serviceTag, vendorExtension, crc]

def ofCode (c : UInt8) : Option FruType := all.find? (fun t => t.code == c)

@[simp] theorem ofCode_code (t : FruType) : ofCode t.code = some t := by
  cases t <;> decide

end FruType

def fruCountryCodeLen : ℕ := 2
def fruBaseMacAddressLen : ℕ := 6
def fruManufactureDateLen : ℕ := 19

/-- `sizeof(fru_header_t)`: eight id bytes, the version and the total length. -/
def fruHeaderSize : ℕ := 11

/-- A pointer field holds the block it points to. -/
@[ext] structure FruEeprom where
  countryCode : CharArray (fruCountryCodeLen + 1)
  deviceVersion : UInt8
  diagVersion : Option (List UInt8)
  labelRevision : Option (List UInt8)
  baseMacAddress : CharArray fruBaseMacAddressLen
  manufactureDate : CharArray (fruManufactureDateLen + 1)
  manufacturer : Option (List UInt8)
  numMacs : UInt16
  onieVersion : Option (List UInt8)
  partNumber : Option (List UInt8)
  platformName : Option (List UInt8)
  productName : Option (List UInt8)
  serialNumber : Option (List UInt8)
  serviceTag : Option (List UInt8)
  vendor : Option (List UInt8)

/-- The record that `calloc` provides. -/
def FruEeprom.zero : FruEeprom :=
  ⟨.zero _, 0, none, none, .zero _, .zero _, none, 0, none, none, none, none, none, none, none⟩

def be16 (a b : UInt8) : UInt16 := (a.toUInt16 <<< 8) ||| b.toUInt16

def be32 (a b c d : UInt8) : UInt32 :=
  (a.toUInt32 <<< 24) ||| (b.toUInt32 <<< 16) ||| (c.toUInt32 <<< 8) ||| d.toUInt32

section Decode

variable (crc32 : List UInt8 → UInt32)

/-- The checksum of the first `len` bytes; `crc32` is zlib's, started at its initial value. -/
def calcCrc (buf : Memory) (len : ℕ) : UInt32 := crc32 (slice buf 0 len)

/-- `len + sizeof(fru_header_t) - tlv_len`, as the unsigned number that reaches
the checksum. -/
def crcLen (len tlvLen : ℕ) : ℕ := (((len + fruHeaderSize : ℕ) - tlvLen : ℤ) % 2 ^ 32).toNat

/-- One pass through the switch for the element at `buf`; `none` is `return (false)`. -/
def sysdProcessTlv (bp : Memory) (len buf : ℕ) (fru : FruEeprom) : Option FruEeprom :=
  let tlvLen := (bp (buf + 1)).toNat
  let value := buf + 2
  let copy := copyString (slice bp value tlvLen) tlvLen
  match FruType.ofCode (bp buf) with
  | some .productName => some { fru with productName := some copy }
  | some .partNumber => some { fru with partNumber := some copy }
  | some .serialNumber => some { fru with serialNumber := some copy }
  | some .numMac => some { fru with numMacs := be16 (bp value) (bp (value + 1)) }
  | some .baseMacAddress =>
    some { fru with
      baseMacAddress := fru.baseMacAddress.store (slice bp value fruBaseMacAddressLen) }
  | some .manufactureDate =>
    some { fru with
      manufactureDate := (fru.manufactureDate.store
        (strncpyBytes (slice bp value (tlvLen + 1)) (tlvLen + 1))).set tlvLen 0 }
  | some .deviceVersion => some { fru with deviceVersion := bp value }
  | some .labelRevision => some { fru with labelRevision := some copy }
  | some .platformName => some { fru with platformName := some copy }
  | some .onieVersion => some { fru with onieVersion := some copy }
  | some .manufacturer => some { fru with manufacturer := some copy }
  | some .countryCode =>
    some { fru with
      countryCode := (fru.countryCode.store
        (strncpyBytes (slice bp value (tlvLen + 1)) (tlvLen + 1))).set tlvLen 0 }
  | some .vendor => some { fru with vendor := some copy }
  | some .diagVersion => some { fru with diagVersion := some copy }
  | some .serviceTag => some { fru with serviceTag := some copy }
  | some .vendorExtension => some fru
  | some .crc =>
    let chksum := calcCrc crc32 bp (crcLen len tlvLen)
    let foundCrc := be32 (bp value) (bp (value + 1)) (bp (value + 2)) (bp (value + 3))
    if chksum ≠ foundCrc then none else some fru
  | none => none

/-- The loop: `idx` counts from the end of the header, `buf` from the start. -/
def sysdProcessEepromLoop (bp : Memory) (len idx buf : ℕ) (fru : FruEeprom) : Bool × FruEeprom :=
  if idx < len then
    match sysdProcessTlv crc32 bp len buf fru with
    | none => (false, fru)
    | some fru' =>
      let skip := (bp (buf + 1)).toNat + 2
      sysdProcessEepromLoop bp len (idx + skip) (buf + skip) fru'
  else (true, fru)
termination_by len - idx

def sysdProcessEeprom (buf : Memory) (fru : FruEeprom) (len : ℕ) : Bool × FruEeprom :=
  sysdProcessEepromLoop crc32 buf len 0 fruHeaderSize fru

/-- The total length in the header of an image. -/
def headerTotalLength (buf : Memory) : UInt16 := be16 (buf 9) (buf 10)

end Decode

/-- The elements of an image in the order in which the loop visits them. -/
def tlvs (buf : Memory) (len : ℕ) : List (ℕ × Item) :=
  walk buf (fruHeaderSize + len) fruHeaderSize

section Acceptance

variable (crc32 : List UInt8 → UInt32)

/-- The switch has a case for the element and, for a checksum, it matches. -/
def TlvAccepted (bp : Memory) (len : ℕ) (p : ℕ × Item) : Prop :=
  ∃ t, FruType.ofCode p.2.code = some t ∧ (t = .crc →
    calcCrc crc32 bp (crcLen len p.2.value.length) =
      be32 (bp (p.1 + 2)) (bp (p.1 + 3)) (bp (p.1 + 4)) (bp (p.1 + 5)))

theorem sysdProcessTlv_isSome_iff (bp : Memory) (len pos : ℕ) (fru : FruEeprom) :
    (sysdProcessTlv crc32 bp len pos fru).isSome = true ↔
      TlvAccepted crc32 bp len (pos, itemAt bp pos) := by
  unfold sysdProcessTlv TlvAccepted
  simp only [itemAt_length]
  rw [show (itemAt bp pos).code = bp pos from rfl]
  cases h : FruType.ofCode (bp pos) with
  | none => simp
  | some t => cases t <;> simp [Option.isSome_ite]

theorem sysdProcessEepromLoop_fst_iff (bp : Memory) (len idx : ℕ) (fru : FruEeprom) :
    (sysdProcessEepromLoop crc32 bp len idx (fruHeaderSize + idx) fru).1 = true ↔
      ∀ p ∈ walk bp (fruHeaderSize + len) (fruHeaderSize + idx), TlvAccepted crc32 bp len p := by
  induction hn : len - idx using Nat.strong_induction_on generalizing idx fru with
  | _ n ih =>
    rw [sysdProcessEepromLoop, walk]
    by_cases hlt : idx < len
    · have hstep := sysdProcessTlv_isSome_iff crc32 bp len (fruHeaderSize + idx) fru
      rw [if_pos hlt, if_pos (by omega), List.forall_mem_cons, ← hstep, itemAt_length]
      cases htlv : sysdProcessTlv crc32 bp len (fruHeaderSize + idx) fru with
      | none => simp
      | some fru' =>
        simp only [Option.isSome_some, true_and]
        rw [show fruHeaderSize + idx + ((bp (fruHeaderSize + idx + 1)).toNat + 2) =
            fruHeaderSize + (idx + ((bp (fruHeaderSize + idx + 1)).toNat + 2)) by omega,
          show fruHeaderSize + idx + (bp (fruHeaderSize + idx + 1)).toNat + 2 =
            fruHeaderSize + (idx + ((bp (fruHeaderSize + idx + 1)).toNat + 2)) by omega]
        exact ih _ (by omega) _ _ rfl
    · rw [if_neg hlt, if_neg (by omega)]
      simp

/-- An image is accepted exactly when every element of the walk is. -/
theorem sysdProcessEeprom_fst_iff (bp : Memory) (len : ℕ) (fru : FruEeprom) :
    (sysdProcessEeprom crc32 bp fru len).1 = true ↔
      ∀ p ∈ tlvs bp len, TlvAccepted crc32 bp len p :=
  sysdProcessEepromLoop_fst_iff crc32 bp len 0 fru

end Acceptance

end OpsSysd.Fru
