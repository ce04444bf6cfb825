import Mathlib.Data.List.TakeWhile
import Mathlib.Data.List.Infix
import Mathlib.Data.Nat.Digits.Defs

/-!
NUL-terminated strings as the list of the bytes before the terminator, and the
C library calls that read and copy them. A fixed array of characters carries
its size; a store past its end keeps the part that lies inside. Nothing here
is about a particular program.
-/

namespace OpsSysd.CString

abbrev CStr := List UInt8

/-- The bytes of an ASCII literal. -/
def cstr (s : String) : CStr := s.toList.map (fun c => UInt8.ofNat c.toNat)

/-- `strncmp(a, b, n) == 0`. -/
def strncmpEq : CStr → CStr → ℕ → Bool
  | _, _, 0 => true
  | [], [], _ + 1 => true
  | x :: a, y :: b, n + 1 => x == y && strncmpEq a b n
  | _, _, _ + 1 => false

theorem strncmpEq_comm (a b : CStr) (n : ℕ) : strncmpEq a b n = strncmpEq b a n := by
  induction n generalizing a b with
  | zero => simp [strncmpEq]
  | succ n ih =>
    cases a with
    | nil => cases b <;> simp [strncmpEq]
    | cons x a =>
      cases b with
      | nil => simp [strncmpEq]
      | cons y b =>
        simp only [strncmpEq, ih a b]
        rw [Bool.beq_comm]

theorem strncmpEq_length_iff (a b : CStr) : strncmpEq a b a.length = true ↔ a <+: b := by
  induction a generalizing b with
  | nil => simp [strncmpEq]
  | cons x a ih =>
    cases b with
    | nil => simp [strncmpEq]
    | cons y b =>
      simp only [List.length_cons, strncmpEq, Bool.and_eq_true, beq_iff_eq, ih,
        List.cons_prefix_cons]

theorem strncmpEq_length_right_iff (a b : CStr) :
    strncmpEq b a a.length = true ↔ a <+: b := by
  rw [strncmpEq_comm, strncmpEq_length_iff]

/-- What a reader of a character block sees: the bytes before the first NUL. -/
def cut (bytes : List UInt8) : CStr := bytes.takeWhile (· ≠ 0)

/-- The `n` bytes `strncpy(dst, src, n)` stores: the source up to its NUL, then NULs. -/
def strncpyBytes (src : List UInt8) (n : ℕ) : List UInt8 :=
  cut (src.take n) ++ List.replicate (n - (cut (src.take n)).length) 0

theorem cut_length_le (bytes : List UInt8) : (cut bytes).length ≤ bytes.length :=
  (List.takeWhile_sublist _).length_le

theorem strncpyBytes_length (src : List UInt8) (n : ℕ) : (strncpyBytes src n).length = n := by
  have h := cut_length_le (src.take n)
  simp only [strncpyBytes, List.length_append, List.length_replicate]
  have := List.length_take_le n src
  omega

theorem cut_append_zero (bytes rest : List UInt8) : cut (cut bytes ++ 0 :: rest) = cut bytes := by
  unfold cut
  induction bytes with
  | nil => simp
  | cons b bytes ih =>
    by_cases hb : b = 0
    · simp [hb]
    · simpa [hb] using ih

theorem cut_take (bytes : List UInt8) (n : ℕ) : cut (bytes.take n) = (cut bytes).take n := by
  unfold cut
  induction bytes generalizing n with
  | nil => simp
  | cons b bytes ih =>
    cases n with
    | zero => simp
    | succ n =>
      by_cases hb : b = 0
      · simp [hb]
      · simpa [hb] using ih n

/-- Copying fewer bytes stores the start of what copying more stores. -/
theorem take_strncpyBytes (src : List UInt8) {m n : ℕ} (h : m ≤ n) :
    (strncpyBytes src n).take m = strncpyBytes src m := by
  have hpad : ∀ k, strncpyBytes src k = (cut src ++ List.replicate k 0).take k := by
    intro k
    rw [strncpyBytes, cut_take, List.take_append, List.take_replicate, List.length_take]
    congr 2
    omega
  rw [hpad, hpad, List.take_take, Nat.min_eq_left h, List.take_append, List.take_append,
    List.take_replicate, List.take_replicate]
  congr 2
  omega

/-- The block that `malloc(n + 1)`, `strncpy(block, src, n)` and `block[n] = 0` leave. -/
def copyString (src : List UInt8) (n : ℕ) : List UInt8 := strncpyBytes src n ++ [0]

/-- The copy reads as the source up to its first NUL. -/
theorem cut_copyString (src : List UInt8) (n : ℕ) (rest : List UInt8) :
    cut (copyString src n ++ rest) = cut (src.take n) := by
  unfold copyString strncpyBytes
  generalize hk : n - (cut (src.take n)).length = k
  cases k with
  | zero => simpa using cut_append_zero (src.take n) rest
  | succ k => simpa [List.replicate_succ] using cut_append_zero (src.take n) _

theorem cut_of_nulFree {src : List UInt8} (h : 0 ∉ src) : cut src = src := by
  apply List.takeWhile_eq_self_iff.mpr
  intro c hc
  simpa using fun h0 : c = 0 => h (h0 ▸ hc)

theorem copyString_of_nulFree {src : List UInt8} (h : 0 ∉ src) :
    copyString src src.length = src ++ [0] := by
  rw [copyString, strncpyBytes, List.take_length, cut_of_nulFree h]
  simp

/-- A fixed array of characters. -/
structure CharArray (n : ℕ) where
  bytes : List UInt8
  size_eq : bytes.length = n

namespace CharArray

variable {n : ℕ}

def zero (n : ℕ) : CharArray n := ⟨List.replicate n 0, by simp⟩

/-- Store bytes from the start of the array on; what lies past its end is lost. -/
def store (a : CharArray n) (bs : List UInt8) : CharArray n where
  bytes := bs.take n ++ a.bytes.drop bs.length
  size_eq := by
    have := a.size_eq
    simp only [List.length_append, List.length_take, List.length_drop]
    omega

def set (a : CharArray n) (i : ℕ) (b : UInt8) : CharArray n where
  bytes := a.bytes.set i b
  size_eq := by rw [List.length_set, a.size_eq]

/-- Store bytes from an index on. -/
def storeAt (a : CharArray n) (off : ℕ) (bs : List UInt8) : CharArray n where
  bytes := (List.range n).map fun i =>
    if off ≤ i ∧ i < off + bs.length then bs.getD (i - off) 0 else a.bytes.getD i 0
  size_eq := by simp

def str (a : CharArray n) : CStr := cut a.bytes

theorem ext_bytes {a b : CharArray n} (h : a.bytes = b.bytes) : a = b := by
  cases a
  cases b
  cases h
  rfl

/-- What was stored at an index is overwritten. -/
theorem storeAt_set (a : CharArray n) {off i : ℕ} {bs : List UInt8} {b : UInt8} (hoff : off ≤ i)
    (hi : i < off + bs.length) : (a.set i b).storeAt off bs = a.storeAt off bs := by
  apply ext_bytes
  apply List.map_congr_left
  intro j _
  by_cases hj : off ≤ j ∧ j < off + bs.length
  · rw [if_pos hj, if_pos hj]
  · rw [if_neg hj, if_neg hj]
    simp only [set, List.getD_eq_getElem?_getD]
    rw [List.getElem?_set_ne (by omega)]

theorem store_bytes_of_le (a : CharArray n) {bs : List UInt8} (h : bs.length ≤ n) :
    (a.store bs).bytes = bs ++ a.bytes.drop bs.length := by
  simp [store, List.take_of_length_le h]

theorem str_store_copyString (a : CharArray n) {src : List UInt8} (h : src.length < n) :
    (a.store (copyString src src.length)).str = cut src := by
  have hlen : (copyString src src.length).length = src.length + 1 := by
    simp [copyString, strncpyBytes_length]
  unfold str
  rw [store_bytes_of_le _ (by omega), cut_copyString, List.take_length]

/-- Copying one byte more than the value and terminating at its length is
copying the value and its terminator, whatever the byte after it. -/
theorem set_store_strncpy (a : CharArray n) (src : List UInt8) (b : UInt8) (h : src.length < n) :
    (a.store (strncpyBytes (src ++ [b]) (src.length + 1))).set src.length 0 =
      a.store (copyString src src.length) := by
  have hlen : (strncpyBytes (src ++ [b]) (src.length + 1)).length = src.length + 1 :=
    strncpyBytes_length _ _
  have htake : (strncpyBytes (src ++ [b]) (src.length + 1)).take src.length =
      strncpyBytes src src.length := by
    rw [take_strncpyBytes _ (Nat.le_succ _), strncpyBytes, List.take_left]
    rw [strncpyBytes, List.take_length]
  have hlast : (strncpyBytes (src ++ [b]) (src.length + 1)).set src.length 0 =
      copyString src src.length := by
    rw [List.set_eq_take_append_cons_drop, if_pos (by omega), htake,
      List.drop_of_length_le (by omega)]
    rfl
  apply ext_bytes
  have hcopy : (copyString src src.length).length = src.length + 1 := by
    rw [← hlast, List.length_set, hlen]
  rw [store_bytes_of_le _ (by omega), hcopy]
  simp only [set]
  rw [store_bytes_of_le _ (by omega), hlen, List.set_append_left _ _ (by omega), hlast]

/-- Over a cleared array, copying a value with its terminator leaves what the
padded copy of the whole array but its last byte leaves over any array. -/
theorem store_copyString_zero (a : CharArray (n + 1)) (src : List UInt8) (hlen : src.length ≤ n)
    (hnul : 0 ∉ src) :
    (zero (n + 1)).store (copyString src src.length) = (a.store (strncpyBytes src n)).set n 0 := by
  have hcut : cut src = src := cut_of_nulFree hnul
  have hcopy : copyString src src.length = src ++ [0] := copyString_of_nulFree hnul
  have hpad : strncpyBytes src n = src ++ List.replicate (n - src.length) 0 := by
    rw [strncpyBytes, List.take_of_length_le hlen, hcut]
  have hsize : (src ++ List.replicate (n - src.length) 0).length = n := by
    simp only [List.length_append, List.length_replicate]
    omega
  have ha := a.size_eq
  have hrest : (a.bytes.drop n).length = 1 := by
    rw [List.length_drop]
    omega
  obtain ⟨b, hb⟩ := List.length_eq_one_iff.mp hrest
  apply ext_bytes
  simp only [set]
  rw [store_bytes_of_le _ (by rw [hcopy, List.length_append, List.length_singleton]; omega),
    store_bytes_of_le _ (by rw [hpad, hsize]; omega), hcopy, hpad, hsize, hb,
    List.set_append_right _ _ (by omega), hsize, Nat.sub_self, List.set_cons_zero, zero]
  simp only [List.length_append, List.length_singleton, List.drop_replicate, List.append_assoc]
  congr 1
  rw [show n - src.length = n + 1 - (src.length + 1) by omega, List.singleton_append,
    ← List.replicate_succ, ← List.replicate_succ']

end CharArray

end OpsSysd.CString
