import OpsSysd.Platform
import Mathlib.Data.Nat.Digits.Lemmas

/-!
Decimal texts: reading one back returns the number, and the text of a 64-bit
number is short.
-/

namespace OpsSysd.Platform

open CString

theorem mem_decimalNat {n : ℕ} {c : UInt8} (h : c ∈ decimalNat n) :
    48 ≤ c.toNat ∧ c.toNat < 58 := by
  unfold decimalNat at h
  split_ifs at h with hn
  · rw [List.mem_singleton.mp h]
    decide
  · rw [List.mem_reverse] at h
    obtain ⟨d, hd, rfl⟩ := List.mem_map.mp h
    have hlt : d < 10 := Nat.digits_lt_base (by decide) hd
    show 48 ≤ (48 + d) % 2 ^ 8 ∧ (48 + d) % 2 ^ 8 < 58
    omega

theorem decimalNat_ne_nil (n : ℕ) : decimalNat n ≠ [] := by
  unfold decimalNat
  split_ifs with hn
  · simp
  · simp [Nat.digits_ne_nil_iff_ne_zero.mpr hn]

/-- A decimal text has digits and a sign only. -/
theorem notMem_decimal {c : UInt8} (hc : c.toNat < 45) (v : ℤ) : c ∉ decimal v := by
  intro h
  have hdigit : c ∉ decimalNat v.natAbs := by
    intro hmem
    have := (mem_decimalNat hmem).1
    omega
  unfold decimal at h
  split_ifs at h
  · rcases List.mem_cons.mp h with rfl | hmem
    · exact absurd hc (by decide)
    · exact hdigit hmem
  · exact hdigit h

/-- One more digit of a number that is read. -/
def addDigit (read : Option ℕ) (c : UInt8) : Option ℕ :=
  read.bind (fun n => if 48 ≤ c.toNat ∧ c.toNat < 58 then some (10 * n + (c.toNat - 48)) else none)

def parseNat (s : CStr) : Option ℕ := if s = [] then none else s.foldl addDigit (some 0)

/-- The number that a decimal text stands for. -/
def parseDecimal (s : CStr) : Option ℤ :=
  if s.head? = some 45 then (parseNat s.tail).map (fun n : ℕ => -(n : ℤ))
  else (parseNat s).map (fun n : ℕ => (n : ℤ))

theorem addDigit_ofNat (n : ℕ) {d : ℕ} (hd : d < 10) :
    addDigit (some n) (UInt8.ofNat (48 + d)) = some (10 * n + d) := by
  have htoNat : (UInt8.ofNat (48 + d)).toNat = 48 + d := by
    show (48 + d) % 2 ^ 8 = 48 + d
    omega
  simp only [addDigit, Option.bind_some, htoNat]
  rw [if_pos (by omega), Nat.add_sub_cancel_left]

/-- The digits are read from the highest to the lowest. -/
theorem foldl_addDigit (digits : List ℕ) (h : ∀ d ∈ digits, d < 10) :
    (digits.map (fun d => UInt8.ofNat (48 + d))).reverse.foldl addDigit (some 0) =
      some (Nat.ofDigits 10 digits) := by
  induction digits with
  | nil => rfl
  | cons d rest ih =>
    rw [List.map_cons, List.reverse_cons, List.foldl_append,
      ih (fun d' hd' => h d' (by simp [hd'])),
      List.foldl_cons, List.foldl_nil, addDigit_ofNat _ (h d (by simp)), Nat.ofDigits_cons]
    simp [Nat.add_comm]

theorem parseNat_decimalNat (n : ℕ) : parseNat (decimalNat n) = some n := by
  unfold parseNat
  rw [if_neg (decimalNat_ne_nil n)]
  unfold decimalNat
  split_ifs with hn
  · rw [hn]
    decide
  · rw [foldl_addDigit _ (fun d hd => Nat.digits_lt_base (by decide) hd), Nat.ofDigits_digits]

/-- A number without a sign does not start with one. -/
theorem parseDecimal_decimalNat (n : ℕ) : parseDecimal (decimalNat n) = some (n : ℤ) := by
  have hdigit : (decimalNat n).head? ≠ some 45 := by
    intro hhead
    exact absurd (mem_decimalNat (List.mem_of_head? hhead)).1 (by decide)
  unfold parseDecimal
  rw [if_neg hdigit, parseNat_decimalNat]
  rfl

theorem parseDecimal_decimal (v : ℤ) : parseDecimal (decimal v) = some v := by
  unfold decimal
  split_ifs with hv
  · unfold parseDecimal
    rw [List.head?_cons, if_pos rfl, List.tail_cons, parseNat_decimalNat, Option.map_some]
    congr 1
    omega
  · rw [parseDecimal_decimalNat]
    congr 1
    omega

/-- The text of a 64-bit number has at most twenty bytes, so that none is cut off. -/
theorem length_decimal {v : ℤ} (hlow : -2 ^ 63 ≤ v) (hhigh : v < 2 ^ 63) :
    (decimal v).length ≤ 20 := by
  have hnat : (decimalNat v.natAbs).length ≤ 19 := by
    unfold decimalNat
    split_ifs with hv
    · decide
    · rw [List.length_reverse, List.length_map, Nat.digits_length_le_iff (by decide)]
      omega
  unfold decimal
  split_ifs with hv
  · exact Nat.succ_le_succ hnat
  · omega

end OpsSysd.Platform
