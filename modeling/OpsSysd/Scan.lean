import OpsSysd.CString

/-!
Reading hexadecimal numbers from text as `sscanf` with `%x` does: leading
blanks, an optional sign, an optional `0x` and as many digits as there are. A
format of conversions with colons between them stops at the first that fails.
-/

namespace OpsSysd.Scan

open CString

def isBlank (c : UInt8) : Bool := c == 32 || (9 ≤ c && c ≤ 13)

/-- The value of a hexadecimal digit of either case. -/
def hexValue (c : UInt8) : Option ℕ :=
  if 48 ≤ c ∧ c ≤ 57 then some (c.toNat - 48)
  else if 97 ≤ c ∧ c ≤ 102 then some (c.toNat - 87)
  else if 65 ≤ c ∧ c ≤ 70 then some (c.toNat - 55)
  else none

def isHex (c : UInt8) : Bool := (hexValue c).isSome

def hexNumber (text : CStr) : ℕ := text.foldl (fun n c => n * 16 + (hexValue c).getD 0) 0

def skipSign : CStr → Bool × CStr
  | 43 :: rest => (false, rest)
  | 45 :: rest => (true, rest)
  | s => (false, s)

def skipHexMark : CStr → CStr
  | 48 :: 120 :: rest => rest
  | 48 :: 88 :: rest => rest
  | s => s

/-- The `unsigned int` that `%x` stores: an `unsigned long` that saturates, negated
if signed, of which the low half is kept. -/
def storedValue (negative : Bool) (n : ℕ) : UInt32 :=
  let value := if n < 2 ^ 64 then n else 2 ^ 64 - 1
  UInt32.ofNat (if negative then 2 ^ 64 - value else value)

/-- One `%x`: the number and what follows it. -/
def scanHex (s : CStr) : Option (UInt32 × CStr) :=
  let (negative, unsigned) := skipSign (s.dropWhile isBlank)
  let body := skipHexMark unsigned
  let digits := body.takeWhile isHex
  if digits.isEmpty then none
  else some (storedValue negative (hexNumber digits), body.dropWhile isHex)

/-- The numbers that `count` conversions with colons between them store. -/
def scanHexes : ℕ → CStr → List UInt32
  | 0, _ => []
  | count + 1, s =>
    match scanHex s with
    | none => []
    | some (v, rest) =>
      v :: match rest with
        | 58 :: rest => scanHexes count rest
        | _ => []

/-- The text is a byte in hexadecimal digits, with any number of leading zeros. -/
structure HexByte (text : CStr) (b : UInt8) : Prop where
  nonempty : text ≠ []
  digits : ∀ c ∈ text, isHex c = true
  value : hexNumber text = b.toNat

/-- The text is the bytes in hexadecimal digits with colons between them. -/
inductive HexBytes : CStr → List UInt8 → Prop
  | last {text : CStr} {b : UInt8} (h : HexByte text b) : HexBytes text [b]
  | more {text rest : CStr} {b : UInt8} {bytes : List UInt8} (h : HexByte text b)
      (hrest : HexBytes rest bytes) : HexBytes (text ++ 58 :: rest) (b :: bytes)

/-- A digit starts neither a blank, a sign nor the mark. -/
theorem isHex_spec {c : UInt8} (h : isHex c = true) :
    isBlank c = false ∧ c ≠ 43 ∧ c ≠ 45 ∧ c ≠ 120 ∧ c ≠ 88 := by
  have hall : ∀ n : Fin 256, isHex (UInt8.ofNat n) = true → isBlank (UInt8.ofNat n) = false ∧
      UInt8.ofNat n ≠ 43 ∧ UInt8.ofNat n ≠ 45 ∧ UInt8.ofNat n ≠ 120 ∧ UInt8.ofNat n ≠ 88 := by
    decide +kernel
  have hc := hall ⟨c.toNat, c.toNat_lt⟩
  rw [UInt8.ofNat_toNat] at hc
  exact hc h

theorem scanHex_append {text rest : CStr} {b : UInt8} (h : HexByte text b)
    (hrest : ∀ c, rest.head? = some c → isHex c = false ∧ c ≠ 120 ∧ c ≠ 88) :
    scanHex (text ++ rest) = some (b.toUInt32, rest) := by
  obtain ⟨c, tail, rfl⟩ := List.exists_cons_of_ne_nil h.nonempty
  have hc := h.digits c List.mem_cons_self
  obtain ⟨hnotBlank, hplus, hminus, _, _⟩ := isHex_spec hc
  have hblank : (c :: tail ++ rest).dropWhile isBlank = c :: tail ++ rest := by
    simp [hnotBlank]
  have hsign : skipSign (c :: tail ++ rest) = (false, c :: tail ++ rest) := by
    simp only [List.cons_append]
    unfold skipSign
    split <;> simp_all
  have hmark : skipHexMark (c :: tail ++ rest) = c :: tail ++ rest := by
    have hnext : ∀ d, (tail ++ rest).head? = some d → d ≠ 120 ∧ d ≠ 88 := by
      intro d hd
      cases tail with
      | nil => exact (hrest d hd).2
      | cons e tail =>
        have he : e = d := by simpa using hd
        exact (isHex_spec (h.digits d (by simp [he]))).2.2.2
    simp only [List.cons_append]
    unfold skipHexMark
    split
    · next _ heq =>
      rw [(List.cons.inj heq).2] at hnext
      exact absurd rfl (hnext 120 rfl).1
    · next _ heq =>
      rw [(List.cons.inj heq).2] at hnext
      exact absurd rfl (hnext 88 rfl).2
    · rfl
  have htake : (c :: tail ++ rest).takeWhile isHex = c :: tail := by
    rw [List.takeWhile_append_of_pos h.digits]
    cases rest with
    | nil => simp
    | cons d rest => simp [(hrest d rfl).1]
  have hdrop : (c :: tail ++ rest).dropWhile isHex = rest := by
    rw [List.dropWhile_append_of_pos h.digits]
    cases rest with
    | nil => rfl
    | cons d rest => simp [(hrest d rfl).1]
  have hvalue : storedValue false (hexNumber (c :: tail)) = b.toUInt32 := by
    have hb := b.toNat_lt
    rw [h.value]
    apply UInt32.toNat_inj.mp
    simp only [storedValue, Bool.false_eq_true, if_false, UInt32.toNat_ofNat', UInt8.toNat_toUInt32]
    rw [if_pos (by omega)]
    omega
  unfold scanHex
  simp only [hblank, hsign, hmark, htake, hdrop, hvalue]
  simp

/-- Bytes written with colons between them are read back. -/
theorem scanHexes_of_hexBytes {s : CStr} {bytes : List UInt8} (h : HexBytes s bytes) :
    scanHexes bytes.length s = bytes.map UInt8.toUInt32 := by
  induction h with
  | @last text b h =>
    have hscan : scanHex (text ++ []) = some (b.toUInt32, []) := scanHex_append h (by simp)
    rw [List.append_nil] at hscan
    simp [scanHexes, hscan]
  | @more text rest b bytes h _ ih =>
    have hscan : scanHex (text ++ 58 :: rest) = some (b.toUInt32, 58 :: rest) := by
      apply scanHex_append h
      intro c hc
      rw [← Option.some.inj hc]
      decide
    simp only [List.length_cons, scanHexes, hscan, List.map_cons, ih]

end OpsSysd.Scan
