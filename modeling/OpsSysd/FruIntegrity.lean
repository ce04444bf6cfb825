import OpsSysd.Fru
import OpsSysd.Crc32

/-!
What an accepted image guarantees. The checksum is one case of the loop: an
image without the element is never checked, and an element elsewhere than at
the end is checked over a range computed from its own length.
-/

namespace OpsSysd.Fru

open Tlv

def isCrc (p : ℕ × Item) : Bool := p.2.code == FruType.crc.code

/-- The checksum element `last` is the only one, has a four-byte value and ends the image. -/
structure ClosedBy (buf : Memory) (len : ℕ) (last : ℕ × Item) : Prop where
  ends : ∃ before, tlvs buf len = before ++ [last] ∧ ∀ p ∈ before, isCrc p = false
  code : isCrc last = true
  length : last.2.value.length = 4
  finish : last.1 + 6 = fruHeaderSize + len

/-- The value at the position is the checksum of every byte before it. -/
def Verified (crc32 : List UInt8 → UInt32) (buf : Memory) (value : ℕ) : Prop :=
  be32 (buf value) (buf (value + 1)) (buf (value + 2)) (buf (value + 3)) =
    crc32 (slice buf 0 value)

/-- The image carries a checksum of everything before it. -/
def Integrity (crc32 : List UInt8 → UInt32) (buf : Memory) (len : ℕ) : Prop :=
  ∃ last, ClosedBy buf len last ∧ Verified crc32 buf (last.1 + 2)

/-- Some element has a type outside the switch, or is a checksum element that
differs from the checksum of `len + sizeof(fru_header_t)` less its own length bytes. -/
def Refused (crc32 : List UInt8 → UInt32) (buf : Memory) (len : ℕ) : Prop :=
  ∃ p ∈ tlvs buf len, ¬ TlvAccepted crc32 buf len p

section Integrity

variable (crc32 : List UInt8 → UInt32) (buf : Memory) (len : ℕ)

theorem accepted_iff_not_refused (fru : FruEeprom) :
    (sysdProcessEeprom crc32 buf fru len).1 = true ↔ ¬ Refused crc32 buf len := by
  rw [sysdProcessEeprom_fst_iff]
  unfold Refused
  push Not
  rfl

variable {len}

/-- For an element that closes the image the range is every byte before its value. -/
theorem crcLen_of_closedBy {last : ℕ × Item} (hlen : len < 2 ^ 31) (h : ClosedBy buf len last) :
    crcLen len last.2.value.length = last.1 + 2 := by
  have hfinish := h.finish
  rw [h.length]
  unfold crcLen fruHeaderSize at *
  omega

theorem verified_of_accepted {last : ℕ × Item} (hlen : len < 2 ^ 31) (h : ClosedBy buf len last)
    (hacc : TlvAccepted crc32 buf len last) : Verified crc32 buf (last.1 + 2) := by
  obtain ⟨t, ht, hcrc⟩ := hacc
  have hcode : last.2.code = FruType.crc.code := by simpa [isCrc] using h.code
  rw [hcode, FruType.ofCode_code, Option.some.injEq] at ht
  have hsum := hcrc ht.symm
  rw [crcLen_of_closedBy buf hlen h] at hsum
  exact hsum.symm

/-- An accepted image has integrity exactly when a checksum element closes it. -/
theorem integrity_iff_closed (hlen : len < 2 ^ 31) (hacc : ¬ Refused crc32 buf len) :
    Integrity crc32 buf len ↔ ∃ last, ClosedBy buf len last := by
  constructor
  · rintro ⟨last, hclosed, _⟩
    exact ⟨last, hclosed⟩
  · rintro ⟨last, hclosed⟩
    refine ⟨last, hclosed, verified_of_accepted crc32 buf hlen hclosed ?_⟩
    obtain ⟨before, htlvs, _⟩ := hclosed.ends
    by_contra hbad
    exact hacc ⟨last, by simp [htlvs], hbad⟩

/-- Acceptance means integrity exactly for the images that an element refuses
and those that a checksum element closes. -/
theorem accepted_integrity_iff (fru : FruEeprom) (hlen : len < 2 ^ 31) :
    ((sysdProcessEeprom crc32 buf fru len).1 = true → Integrity crc32 buf len) ↔
      Refused crc32 buf len ∨ ∃ last, ClosedBy buf len last := by
  rw [accepted_iff_not_refused]
  by_cases hacc : Refused crc32 buf len
  · simp [hacc]
  · simp only [hacc, not_false_eq_true, true_imp_iff, false_or]
    exact integrity_iff_closed crc32 buf hlen hacc

end Integrity

/-- A one-letter product name. -/
def productElement : Item := ⟨0x21, [65], by decide⟩

/-- The checksum of a header with total length nine, a product name and the
checksum element's own type and length. -/
def crcElement : Item := ⟨0xfe, [213, 241, 35, 203], by decide⟩

def shortImage (totalLength : UInt8) (items : List Item) : Memory :=
  ofList ([84, 108, 118, 73, 110, 102, 111, 0] ++ [1, 0, totalLength] ++
    items.flatMap Item.encode)

theorem tlvs_checked : tlvs (shortImage 9 [productElement, crcElement]) 9 =
    [(11, productElement), (14, crcElement)] :=
  @walk_encode _ [productElement, crcElement] _ _ (by decide) (by decide)

theorem tlvs_unchecked : tlvs (shortImage 3 [productElement]) 3 = [(11, productElement)] :=
  @walk_encode _ [productElement] _ _ (by decide) (by decide)

theorem integrity_checked :
    Integrity Crc32.crc32 (shortImage 9 [productElement, crcElement]) 9 := by
  refine (accepted_integrity_iff Crc32.crc32 _ .zero (by decide)).mpr (.inr ?_) ?_
  · refine ⟨(14, crcElement), ⟨[(11, productElement)], tlvs_checked, by decide⟩, ?_, ?_, ?_⟩ <;>
      decide
  · rw [sysdProcessEeprom_fst_iff, tlvs_checked]
    intro p hp
    rcases List.mem_pair.mp hp with rfl | rfl
    · exact ⟨.productName, by decide, by simp⟩
    · exact ⟨.crc, by decide, fun _ => by decide +kernel⟩

/-- An image without a checksum element is accepted. -/
theorem not_integrity_unchecked :
    ¬ ((sysdProcessEeprom Crc32.crc32 (shortImage 3 [productElement]) .zero 3).1 = true →
      Integrity Crc32.crc32 (shortImage 3 [productElement]) 3) := by
  intro h
  have hacc : (sysdProcessEeprom Crc32.crc32 (shortImage 3 [productElement]) .zero 3).1 = true := by
    rw [sysdProcessEeprom_fst_iff, tlvs_unchecked]
    intro p hp
    rw [List.mem_singleton.mp hp]
    exact ⟨.productName, by decide, by simp⟩
  obtain ⟨last, hclosed, _⟩ := h hacc
  obtain ⟨before, htlvs, _⟩ := hclosed.ends
  have hmem : last ∈ tlvs (shortImage 3 [productElement]) 3 := by simp [htlvs]
  rw [tlvs_unchecked, List.mem_singleton] at hmem
  have hcode := hclosed.code
  rw [hmem] at hcode
  revert hcode
  decide

end OpsSysd.Fru
