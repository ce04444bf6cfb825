import OpsSysd.Fru
import OpsSysd.Crc32

/-!
What decoding an image touches. Each pass through the switch leaves a list of
accesses: the bytes it inspects, the range it hands to the checksum, the bytes
a fixed-size field takes and the indices it stores to. Nothing else of the
memory matters to the result, and the accesses stay inside exactly when every
element that is visited fits.
-/

namespace OpsSysd.Fru

open CString Tlv

/-- How many bytes of a source `strncpy` with bound `n` reads: it stops after a NUL. -/
def strncpyReads (src : List UInt8) (n : ℕ) : ℕ := min n ((cut src).length + 1)

theorem cut_eq_of_take {src src' : List UInt8}
    (h : src.take ((cut src).length + 1) = src'.take ((cut src).length + 1)) :
    cut src' = cut src := by
  induction src generalizing src' with
  | nil => cases src' <;> simp [cut] at h ⊢
  | cons b src ih =>
    cases src' with
    | nil => simp at h
    | cons b' src' =>
      by_cases hb : b = 0
      · subst hb
        simp [cut] at h ⊢
        simp [← h]
      · have hcut : cut (b :: src) = b :: cut src := by simp [cut, hb]
        rw [hcut, List.length_cons, List.take_succ_cons, List.take_succ_cons] at h
        obtain ⟨rfl, htail⟩ := List.cons_eq_cons.mp h
        rw [hcut, show cut (b :: src') = b :: cut src' by simp [cut, hb], ih htail]

/-- A copy depends on the bytes it reads alone. -/
theorem strncpyBytes_congr {src src' : List UInt8} {n : ℕ}
    (h : src.take (strncpyReads src n) = src'.take (strncpyReads src n)) :
    strncpyBytes src n = strncpyBytes src' n := by
  have hcut : cut (src.take n) = cut (src'.take n) := by
    by_cases hn : n ≤ (cut src).length + 1
    · rw [strncpyReads, Nat.min_eq_left hn] at h
      rw [h]
    · rw [strncpyReads, Nat.min_eq_right (by omega)] at h
      rw [cut_take, cut_take, cut_eq_of_take h]
  rw [strncpyBytes, strncpyBytes, hcut]

/-- One access of a pass through the switch. -/
inductive Access
  /-- The byte at an address of the image is read. -/
  | inspect (addr : ℕ)
  /-- `calc_crc` is handed the start of the image and this length. -/
  | checksum (crcLen : ℤ)
  /-- A fixed-size field is set from a byte of a value of some length. -/
  | take (tlvLen offset : ℕ)
  | storeDate (index : ℕ)
  | storeCountry (index : ℕ)
  deriving DecidableEq, Repr

namespace Access

/-- The access stays inside an image of `size` bytes, its own value or its array. -/
def Inside (size : ℕ) : Access → Prop
  | inspect addr => addr < size
  | checksum crcLen => 0 ≤ crcLen ∧ crcLen ≤ size
  | take tlvLen offset => offset < tlvLen
  | storeDate index => index < fruManufactureDateLen + 1
  | storeCountry index => index < fruCountryCodeLen + 1

instance (size : ℕ) (a : Access) : Decidable (a.Inside size) := by
  cases a <;> unfold Inside <;> infer_instance

end Access

section Accesses

variable (bp : Memory) (len : ℕ)

/-- `strncpy` from an address with bound `n`. -/
def inspectCopy (addr n : ℕ) : List Access :=
  (List.range (strncpyReads (slice bp addr n) n)).map fun i => .inspect (addr + i)

/-- `n` bytes of the value at an address, read whatever its length. -/
def inspectFixed (addr tlvLen n : ℕ) : List Access :=
  (List.range n).flatMap fun i => [.inspect (addr + i), .take tlvLen i]

/-- The accesses of `sysdProcessTlv`, case by case. -/
def sysdProcessTlvAccesses (buf : ℕ) : List Access :=
  let tlvLen := (bp (buf + 1)).toNat
  let value := buf + 2
  .inspect buf :: .inspect (buf + 1) ::
    match FruType.ofCode (bp buf) with
    | some .productName | some .partNumber | some .serialNumber | some .labelRevision
    | some .platformName | some .onieVersion | some .manufacturer | some .vendor
    | some .diagVersion | some .serviceTag => inspectCopy bp value tlvLen
    | some .numMac => inspectFixed value tlvLen 2
    | some .baseMacAddress => inspectFixed value tlvLen fruBaseMacAddressLen
    | some .manufactureDate =>
      inspectCopy bp value (tlvLen + 1) ++ (List.range (tlvLen + 1)).map .storeDate ++
        [.storeDate tlvLen]
    | some .deviceVersion => inspectFixed value tlvLen 1
    | some .countryCode =>
      inspectCopy bp value (tlvLen + 1) ++ (List.range (tlvLen + 1)).map .storeCountry ++
        [.storeCountry tlvLen]
    | some .vendorExtension => []
    | some .crc => .checksum (len + fruHeaderSize - tlvLen) :: inspectFixed value tlvLen 4
    | none => []

end Accesses

section Run

variable (crc32 : List UInt8 → UInt32)

/-- The accesses of the loop. -/
def loopAccesses (bp : Memory) (len idx buf : ℕ) (fru : FruEeprom) : List Access :=
  if idx < len then
    sysdProcessTlvAccesses bp len buf ++
      match sysdProcessTlv crc32 bp len buf fru with
      | none => []
      | some fru' =>
        let skip := (bp (buf + 1)).toNat + 2
        loopAccesses bp len (idx + skip) (buf + skip) fru'
  else []
termination_by len - idx

def sysdProcessEepromAccesses (buf : Memory) (fru : FruEeprom) (len : ℕ) : List Access :=
  loopAccesses crc32 buf len 0 fruHeaderSize fru

/-- The loop given at most `fuel` passes; `none` if it has not ended by then. -/
def loopWithin (bp : Memory) (len : ℕ) : ℕ → ℕ → ℕ → FruEeprom → Option (Bool × FruEeprom)
  | fuel, idx, buf, fru =>
    if idx < len then
      match fuel with
      | 0 => none
      | fuel + 1 =>
        match sysdProcessTlv crc32 bp len buf fru with
        | none => some (false, fru)
        | some fru' =>
          let skip := (bp (buf + 1)).toNat + 2
          loopWithin bp len fuel (idx + skip) (buf + skip) fru'
    else some (true, fru)

/-- The size of the buffer that is allocated for a total length. -/
def eepromBufferSize (len : ℕ) : ℕ := len + fruHeaderSize + 1

/-- Decoding an image ends and touches nothing outside the buffer, the value in
question or the array stored to. -/
structure Contained (buf : Memory) (fru : FruEeprom) (len : ℕ) : Prop where
  ends : ∃ fuel, loopWithin crc32 buf len fuel 0 fruHeaderSize fru =
    some (sysdProcessEeprom crc32 buf fru len)
  inside : ∀ a ∈ sysdProcessEepromAccesses crc32 buf fru len, a.Inside (eepromBufferSize len)

end Run

section Dependence

variable (crc32 : List UInt8 → UInt32) {bp bp' : Memory}

/-- Two memories agree on what an access inspects. -/
def Access.Agree (bp bp' : Memory) : Access → Prop
  | .inspect addr => bp addr = bp' addr
  | .checksum crcLen => ∀ addr < (crcLen % 2 ^ 32).toNat, bp addr = bp' addr
  | _ => True

theorem slice_congr {off n : ℕ} (h : ∀ i < n, bp (off + i) = bp' (off + i)) :
    slice bp off n = slice bp' off n := by
  apply List.map_congr_left
  intro i hi
  exact h i (List.mem_range.mp hi)

theorem slice_take (off : ℕ) {m n : ℕ} (h : m ≤ n) : (slice bp off n).take m = slice bp off m := by
  rw [slice, slice, ← List.map_take, List.take_range, Nat.min_eq_left h]

theorem strncpyBytes_agree {addr n : ℕ}
    (h : ∀ a ∈ inspectCopy bp addr n, a.Agree bp bp') :
    strncpyBytes (slice bp addr n) n = strncpyBytes (slice bp' addr n) n := by
  have hle : strncpyReads (slice bp addr n) n ≤ n := Nat.min_le_left _ _
  apply strncpyBytes_congr
  rw [slice_take addr hle, slice_take addr hle]
  apply slice_congr
  intro i hi
  exact h (.inspect (addr + i)) (List.mem_map_of_mem (List.mem_range.mpr hi))

theorem fixed_agree {addr tlvLen n i : ℕ}
    (h : ∀ a ∈ inspectFixed addr tlvLen n, a.Agree bp bp') (hi : i < n) :
    bp (addr + i) = bp' (addr + i) := by
  apply h (.inspect (addr + i))
  exact List.mem_flatMap.mpr ⟨i, List.mem_range.mpr hi, by simp⟩

/-- A pass depends on the bytes its accesses inspect alone. -/
theorem sysdProcessTlv_congr (len buf : ℕ) (fru : FruEeprom)
    (h : ∀ a ∈ sysdProcessTlvAccesses bp len buf, a.Agree bp bp') :
    sysdProcessTlv crc32 bp len buf fru = sysdProcessTlv crc32 bp' len buf fru := by
  unfold sysdProcessTlvAccesses at h
  simp only [List.forall_mem_cons] at h
  obtain ⟨hcode, hlen, hrest⟩ := h
  have hcode : bp buf = bp' buf := hcode
  have hlen : bp (buf + 1) = bp' (buf + 1) := hlen
  unfold sysdProcessTlv
  rw [← hcode, ← hlen]
  cases ht : FruType.ofCode (bp buf) with
  | none => rfl
  | some t =>
    rw [ht] at hrest
    cases t with
    | numMac =>
      simp only [fixed_agree hrest (i := 1) (by omega),
        (fixed_agree hrest (i := 0) (by omega) : bp (buf + 2) = _)]
    | baseMacAddress =>
      simp only [slice_congr (fun i hi => fixed_agree hrest hi)]
    | manufactureDate =>
      simp only [List.forall_mem_append] at hrest
      simp only [strncpyBytes_agree hrest.1.1]
    | deviceVersion => simp only [(fixed_agree hrest (i := 0) (by omega) : bp (buf + 2) = _)]
    | countryCode =>
      simp only [List.forall_mem_append] at hrest
      simp only [strncpyBytes_agree hrest.1.1]
    | vendorExtension => rfl
    | crc =>
      simp only [List.forall_mem_cons] at hrest
      obtain ⟨hsum, hfixed⟩ := hrest
      have hcrc : calcCrc crc32 bp (crcLen len (bp (buf + 1)).toNat) =
          calcCrc crc32 bp' (crcLen len (bp (buf + 1)).toNat) := by
        apply congrArg crc32
        apply slice_congr
        intro i hi
        simp only [Nat.zero_add]
        apply hsum
        simpa [crcLen] using hi
      simp only [hcrc, fixed_agree hfixed (i := 1) (by omega),
        fixed_agree hfixed (i := 2) (by omega), fixed_agree hfixed (i := 3) (by omega),
        (fixed_agree hfixed (i := 0) (by omega) : bp (buf + 2) = _)]
    | _ => simp only [copyString, strncpyBytes_agree hrest]

theorem loopAccesses_congr (len idx buf : ℕ) (fru : FruEeprom)
    (h : ∀ a ∈ loopAccesses crc32 bp len idx buf fru, a.Agree bp bp') :
    sysdProcessEepromLoop crc32 bp len idx buf fru =
      sysdProcessEepromLoop crc32 bp' len idx buf fru := by
  induction hn : len - idx using Nat.strong_induction_on generalizing idx buf fru with
  | _ n ih =>
    rw [sysdProcessEepromLoop, sysdProcessEepromLoop]
    rw [loopAccesses] at h
    by_cases hlt : idx < len
    · simp only [if_pos hlt, List.forall_mem_append] at h ⊢
      obtain ⟨hpass, hrest⟩ := h
      have hlen : bp (buf + 1) = bp' (buf + 1) :=
        hpass (.inspect (buf + 1)) (by simp [sysdProcessTlvAccesses])
      rw [← sysdProcessTlv_congr crc32 len buf fru hpass, ← hlen]
      cases htlv : sysdProcessTlv crc32 bp len buf fru with
      | none => rfl
      | some fru' =>
        rw [htlv] at hrest
        exact ih _ (by omega) _ _ _ hrest rfl
    · rw [if_neg hlt, if_neg hlt]

/-- Decoding depends on the bytes that the accesses of the run inspect alone. -/
theorem sysdProcessEeprom_congr (fru : FruEeprom) (len : ℕ)
    (h : ∀ a ∈ sysdProcessEepromAccesses crc32 bp fru len, a.Agree bp bp') :
    sysdProcessEeprom crc32 bp fru len = sysdProcessEeprom crc32 bp' fru len :=
  loopAccesses_congr crc32 len 0 fruHeaderSize fru h

/-- What a contained run decodes does not depend on what lies beyond the buffer. -/
theorem Contained.congr {fru : FruEeprom} {len : ℕ} (h : Contained crc32 bp fru len)
    (hsame : ∀ addr < eepromBufferSize len, bp addr = bp' addr) :
    sysdProcessEeprom crc32 bp fru len = sysdProcessEeprom crc32 bp' fru len := by
  refine sysdProcessEeprom_congr crc32 fru len (fun a ha => ?_)
  have hinside := h.inside a ha
  cases a with
  | inspect addr => exact hsame addr hinside
  | checksum crcLen =>
    obtain ⟨hpos, hle⟩ := hinside
    intro addr haddr
    refine hsame addr ?_
    omega
  | take _ _ => trivial
  | storeDate _ => trivial
  | storeCountry _ => trivial

end Dependence

section Ends

variable (crc32 : List UInt8 → UInt32)

theorem loopWithin_eq (bp : Memory) (len fuel idx buf : ℕ) (fru : FruEeprom)
    (h : len - idx ≤ fuel) :
    loopWithin crc32 bp len fuel idx buf fru =
      some (sysdProcessEepromLoop crc32 bp len idx buf fru) := by
  induction fuel generalizing idx buf fru with
  | zero => rw [loopWithin, sysdProcessEepromLoop, if_neg (by omega), if_neg (by omega)]
  | succ fuel ih =>
    rw [loopWithin, sysdProcessEepromLoop]
    by_cases hlt : idx < len
    · rw [if_pos hlt, if_pos hlt]
      cases sysdProcessTlv crc32 bp len buf fru with
      | none => rfl
      | some fru' => exact ih _ _ _ (by omega)
    · rw [if_neg hlt, if_neg hlt]

end Ends

/-- What the lengths of an element must meet for its pass to stay inside: a
string reaches up to its length or its first NUL. -/
def Fits (len : ℕ) (p : ℕ × Item) : Prop :=
  let value := p.1 + 2
  let tlvLen := p.2.value.length
  let room := fun n => value + n ≤ eepromBufferSize len
  match FruType.ofCode p.2.code with
  | some .productName | some .partNumber | some .serialNumber | some .labelRevision
  | some .platformName | some .onieVersion | some .manufacturer | some .vendor
  | some .diagVersion | some .serviceTag => room (strncpyReads p.2.value tlvLen)
  | some .numMac => 2 ≤ tlvLen ∧ room 2
  | some .baseMacAddress => fruBaseMacAddressLen ≤ tlvLen ∧ room fruBaseMacAddressLen
  | some .manufactureDate =>
    tlvLen ≤ fruManufactureDateLen ∧ room (strncpyReads p.2.value (tlvLen + 1))
  | some .deviceVersion => 1 ≤ tlvLen ∧ room 1
  | some .countryCode =>
    tlvLen ≤ fruCountryCodeLen ∧ room (strncpyReads p.2.value (tlvLen + 1))
  | some .vendorExtension => True
  | some .crc => tlvLen ≤ len + fruHeaderSize ∧ 4 ≤ tlvLen ∧ room 4
  | none => True

section Bounds

variable {bp : Memory}

theorem inspectCopy_inside {addr n size : ℕ} (hsize : addr ≤ size) :
    (∀ a ∈ inspectCopy bp addr n, a.Inside size) ↔
      addr + strncpyReads (slice bp addr n) n ≤ size := by
  simp only [inspectCopy, List.forall_mem_map, List.mem_range]
  constructor
  · intro h
    rcases Nat.eq_zero_or_pos (strncpyReads (slice bp addr n) n) with hz | hpos
    · omega
    · have hlast := h (strncpyReads (slice bp addr n) n - 1) (by omega)
      simp only [Access.Inside] at hlast
      omega
  · intro h i hi
    simp only [Access.Inside]
    omega

theorem inspectFixed_inside {addr tlvLen n size : ℕ} (hn : 0 < n) :
    (∀ a ∈ inspectFixed addr tlvLen n, a.Inside size) ↔ n ≤ tlvLen ∧ addr + n ≤ size := by
  constructor
  · intro h
    have hmem : ∀ a ∈ [Access.inspect (addr + (n - 1)), Access.take tlvLen (n - 1)],
        a.Inside size := fun a ha =>
      h a (List.mem_flatMap.mpr ⟨n - 1, List.mem_range.mpr (by omega), ha⟩)
    simp only [List.forall_mem_cons, Access.Inside] at hmem
    omega
  · rintro ⟨hlen, hsize⟩ a ha
    obtain ⟨i, hi, ha⟩ := List.mem_flatMap.mp ha
    have hi := List.mem_range.mp hi
    rcases List.mem_pair.mp ha with rfl | rfl <;> simp only [Access.Inside] <;> omega

theorem stores_inside {store : ℕ → Access} {size n tlvLen : ℕ}
    (hstore : ∀ i, (store i).Inside size ↔ i < n + 1) :
    (∀ a ∈ (List.range (tlvLen + 1)).map store ++ [store tlvLen], a.Inside size) ↔ tlvLen ≤ n := by
  simp only [List.forall_mem_append, List.forall_mem_map, List.mem_range, List.forall_mem_singleton,
    hstore]
  constructor
  · rintro ⟨_, hlast⟩
    omega
  · intro h
    exact ⟨fun i hi => by omega, by omega⟩

/-- With one byte more the copy stops no later than at that byte. -/
theorem strncpyReads_slice_succ (addr n : ℕ) :
    strncpyReads (slice bp addr (n + 1)) (n + 1) = strncpyReads (slice bp addr n) (n + 1) := by
  have hcut : (cut (slice bp addr n)) = (cut (slice bp addr (n + 1))).take n := by
    rw [← cut_take, slice_take _ (Nat.le_succ n)]
  have hle := cut_length_le (slice bp addr n)
  rw [slice_length] at hle
  have hlen : (cut (slice bp addr n)).length = min n (cut (slice bp addr (n + 1))).length := by
    rw [hcut, List.length_take]
  unfold strncpyReads
  omega

/-- A pass over an element stays inside exactly when the element fits. -/
theorem sysdProcessTlvAccesses_inside {len pos : ℕ} (hpos : pos < fruHeaderSize + len) :
    (∀ a ∈ sysdProcessTlvAccesses bp len pos, a.Inside (eepromBufferSize len)) ↔
      Fits len (pos, itemAt bp pos) := by
  have hroom : pos + 2 ≤ eepromBufferSize len := by
    unfold eepromBufferSize
    omega
  have hcode : (itemAt bp pos).code = bp pos := rfl
  have hvalue : (itemAt bp pos).value = slice bp (pos + 2) (bp (pos + 1)).toNat := rfl
  unfold sysdProcessTlvAccesses Fits
  simp only [List.forall_mem_cons, hcode, hvalue, slice_length]
  have hhead : ∀ Q : Prop, ((Access.inspect pos).Inside (eepromBufferSize len) ∧
      (Access.inspect (pos + 1)).Inside (eepromBufferSize len) ∧ Q) ↔ Q := by
    intro Q
    constructor
    · exact fun h => h.2.2
    · exact fun h => ⟨show pos < _ by omega, show pos + 1 < _ by omega, h⟩
  rw [hhead]
  cases FruType.ofCode (bp pos) with
  | none => simp
  | some t =>
    cases t with
    | numMac | baseMacAddress | deviceVersion => exact inspectFixed_inside (by decide)
    | manufactureDate =>
      dsimp only
      rw [List.append_assoc, List.forall_mem_append, inspectCopy_inside hroom,
        stores_inside (n := fruManufactureDateLen) (fun _ => Iff.rfl), strncpyReads_slice_succ,
        and_comm]
    | countryCode =>
      dsimp only
      rw [List.append_assoc, List.forall_mem_append, inspectCopy_inside hroom,
        stores_inside (n := fruCountryCodeLen) (fun _ => Iff.rfl), strncpyReads_slice_succ,
        and_comm]
    | vendorExtension => simp
    | crc =>
      dsimp only
      rw [List.forall_mem_cons, inspectFixed_inside (by decide)]
      have hsum : (Access.checksum (len + fruHeaderSize - (bp (pos + 1)).toNat)).Inside
          (eepromBufferSize len) ↔ (bp (pos + 1)).toNat ≤ len + fruHeaderSize := by
        simp only [Access.Inside, eepromBufferSize]
        omega
      rw [hsum]
    | _ => exact inspectCopy_inside hroom

end Bounds

section Contained

variable (crc32 : List UInt8 → UInt32) (bp : Memory) (len : ℕ)

/-- The loop comes to the element: the switch accepts every element before it. -/
inductive Reached : List (ℕ × Item) → ℕ × Item → Prop
  | here (p : ℕ × Item) (rest : List (ℕ × Item)) : Reached (p :: rest) p
  | later {q : ℕ × Item} {rest : List (ℕ × Item)} {p : ℕ × Item}
      (accepted : TlvAccepted crc32 bp len q) (h : Reached rest p) : Reached (q :: rest) p

theorem forall_reached_cons (q : ℕ × Item) (rest : List (ℕ × Item)) (P : ℕ × Item → Prop) :
    (∀ p, Reached crc32 bp len (q :: rest) p → P p) ↔
      P q ∧ (TlvAccepted crc32 bp len q → ∀ p, Reached crc32 bp len rest p → P p) := by
  constructor
  · intro h
    exact ⟨h q (.here q rest), fun hacc p hp => h p (.later hacc hp)⟩
  · rintro ⟨hq, hrest⟩ p hp
    cases hp with
    | here => exact hq
    | later hacc hp => exact hrest hacc p hp

theorem loopAccesses_inside (idx : ℕ) (fru : FruEeprom) :
    (∀ a ∈ loopAccesses crc32 bp len idx (fruHeaderSize + idx) fru,
      a.Inside (eepromBufferSize len)) ↔
    ∀ p, Reached crc32 bp len (walk bp (fruHeaderSize + len) (fruHeaderSize + idx)) p →
      Fits len p := by
  induction hn : len - idx using Nat.strong_induction_on generalizing idx fru with
  | _ n ih =>
    rw [loopAccesses, walk]
    by_cases hlt : idx < len
    · have hacc := sysdProcessTlv_isSome_iff crc32 bp len (fruHeaderSize + idx) fru
      rw [if_pos hlt, if_pos (by omega), List.forall_mem_append, forall_reached_cons, ← hacc,
        sysdProcessTlvAccesses_inside (by omega), itemAt_length]
      apply and_congr_right
      intro _
      cases sysdProcessTlv crc32 bp len (fruHeaderSize + idx) fru with
      | none => simp
      | some fru' =>
        simp only [Option.isSome_some, true_imp_iff]
        rw [show fruHeaderSize + idx + ((bp (fruHeaderSize + idx + 1)).toNat + 2) =
            fruHeaderSize + (idx + ((bp (fruHeaderSize + idx + 1)).toNat + 2)) by omega,
          show fruHeaderSize + idx + (bp (fruHeaderSize + idx + 1)).toNat + 2 =
            fruHeaderSize + (idx + ((bp (fruHeaderSize + idx + 1)).toNat + 2)) by omega]
        exact ih _ (by omega) _ _ rfl
    · rw [if_neg hlt, if_neg (by omega)]
      constructor
      · intro _ p hp
        cases hp
      · intro _ a ha
        cases ha

variable (fru : FruEeprom)

theorem sysdProcessEepromAccesses_inside :
    (∀ a ∈ sysdProcessEepromAccesses crc32 bp fru len, a.Inside (eepromBufferSize len)) ↔
      ∀ p, Reached crc32 bp len (tlvs bp len) p → Fits len p :=
  loopAccesses_inside crc32 bp len 0 fru

/-- For every content and every total length, decoding stays inside its buffers
exactly when every element that the loop comes to fits. -/
theorem contained_iff (totalLen : UInt16) :
    Contained crc32 bp fru totalLen.toNat ↔
      ∀ p, Reached crc32 bp totalLen.toNat (tlvs bp totalLen.toNat) p → Fits totalLen.toNat p := by
  rw [← sysdProcessEepromAccesses_inside crc32 bp totalLen.toNat fru]
  constructor
  · exact fun h => h.inside
  · intro h
    exact ⟨⟨totalLen.toNat, loopWithin_eq crc32 bp _ _ _ _ fru (Nat.le_refl _)⟩, h⟩

end Contained

/-- A manufacture date of twenty characters. -/
def longDate : Item := ⟨0x25, List.replicate 20 57, by decide⟩

def longDateImage : Memory :=
  ofList ([84, 108, 118, 73, 110, 102, 111, 0] ++ [1, 0, 22] ++ longDate.encode)

/-- The terminator of a date of twenty characters lies past its array. -/
theorem not_contained_longDate : ¬ Contained Crc32.crc32 longDateImage .zero 22 := by
  intro h
  have hwalk : tlvs longDateImage 22 = [(11, longDate)] :=
    @walk_encode _ [longDate] _ _ (by decide) (by decide)
  have hfits := (sysdProcessEepromAccesses_inside _ _ _ _).mp h.inside
  rw [hwalk] at hfits
  have hdate : Fits 22 (11, longDate) := hfits _ (.here _ _)
  revert hdate
  exact fun hdate => absurd hdate.1 (by decide)

end OpsSysd.Fru
