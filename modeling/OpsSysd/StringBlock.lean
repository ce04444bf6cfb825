import OpsSysd.CString

/-!
A block of memory that holds NUL-terminated strings, with the C library calls
that read, move and append them in place. A call that would read or write
outside the block has no result. Nothing here is about a particular program.
-/

namespace OpsSysd.StringBlock

open CString

abbrev Block := List UInt8

/-- The string at an offset: the bytes before the first NUL, which the block must have. -/
def strAt (block : Block) (p : ℕ) : Option CStr :=
  if 0 ∈ block.drop p then some (cut (block.drop p)) else none

/-- Store bytes from an offset on. -/
def write (block : Block) (p : ℕ) (bytes : List UInt8) : Option Block :=
  if p + bytes.length ≤ block.length then
    some (block.take p ++ bytes ++ block.drop (p + bytes.length))
  else none

/-- `memmove(dst, src, n)`: the ranges may overlap. -/
def memmove (block : Block) (dst src n : ℕ) : Option Block :=
  if src + n ≤ block.length then write block dst ((block.drop src).take n) else none

/-- `strcpy` to the start of the block. -/
def strcpy (block : Block) (src : CStr) : Option Block := write block 0 (src ++ [0])

/-- `strncat` to the string at the start of the block: at most `n` bytes and a NUL. -/
def strncat (block : Block) (src : CStr) (n : ℕ) : Option Block :=
  (strAt block 0).bind fun s => write block s.length (src.take n ++ [0])

theorem cut_append_terminator {s : CStr} (hs : 0 ∉ s) (after : List UInt8) :
    cut (s ++ 0 :: after) = s := by
  have h := cut_append_zero s after
  rwa [cut_of_nulFree hs] at h

theorem strAt_append (before : List UInt8) {s : CStr} (hs : 0 ∉ s) (after : List UInt8) :
    strAt (before ++ (s ++ 0 :: after)) before.length = some s := by
  rw [strAt, List.drop_left, if_pos (by simp), cut_append_terminator hs]

theorem strAt_zero {s : CStr} (hs : 0 ∉ s) (after : List UInt8) :
    strAt (s ++ 0 :: after) 0 = some s := strAt_append [] hs after

theorem write_append (before old after bytes : List UInt8) (h : old.length = bytes.length) :
    write (before ++ (old ++ after)) before.length bytes =
      some (before ++ (bytes ++ after)) := by
  have hfits : before.length + bytes.length ≤ (before ++ (old ++ after)).length := by
    simp only [List.length_append]
    omega
  have hrest : (before ++ (old ++ after)).drop (before.length + bytes.length) = after := by
    rw [← List.append_assoc, ← h, ← List.length_append, List.drop_left]
  rw [write, if_pos hfits, List.take_left, hrest, List.append_assoc]

theorem memmove_append (before gap : List UInt8) (s : CStr) (after : List UInt8) :
    ∃ after', memmove (before ++ (gap ++ (s ++ 0 :: after))) before.length
        (before.length + gap.length) (1 + s.length) = some (before ++ (s ++ 0 :: after')) ∧
      after'.length = gap.length + after.length := by
  have hsrc : (before ++ (gap ++ (s ++ 0 :: after))).drop (before.length + gap.length) =
      s ++ 0 :: after := by
    rw [← List.append_assoc, ← List.length_append, List.drop_left]
  have hbytes : (s ++ 0 :: after).take (1 + s.length) = s ++ [0] := by
    rw [List.append_cons, Nat.add_comm, ← List.length_singleton (a := (0 : UInt8)),
      ← List.length_append, List.take_left]
  have hbound : before.length + gap.length + (1 + s.length) ≤
      (before ++ (gap ++ (s ++ 0 :: after))).length := by
    simp only [List.length_append, List.length_cons]
    omega
  have hlength : (gap ++ (s ++ 0 :: after)).length =
      gap.length + after.length + (s.length + 1) := by
    simp only [List.length_append, List.length_cons]
    omega
  have hold : ((gap ++ (s ++ 0 :: after)).take (s.length + 1)).length = (s ++ [0]).length := by
    rw [List.length_take, hlength, List.length_append, List.length_singleton]
    omega
  refine ⟨(gap ++ (s ++ 0 :: after)).drop (s.length + 1), ?_, ?_⟩
  · have hwrite := write_append before _ ((gap ++ (s ++ 0 :: after)).drop (s.length + 1)) _ hold
    rw [List.take_append_drop] at hwrite
    rw [memmove, if_pos hbound, hsrc, hbytes, hwrite, List.append_assoc, List.singleton_append]
  · rw [List.length_drop, hlength, Nat.add_sub_cancel]

/-- Appending to a terminated string fits if the bytes that are spare hold what is added. -/
theorem strncat_append {s : CStr} (hs : 0 ∉ s) (after : List UInt8) (src : CStr) (n : ℕ) :
    strncat (s ++ 0 :: after) src n =
      if (src.take n).length ≤ after.length then
        some (s ++ src.take n ++ 0 :: after.drop (src.take n).length)
      else none := by
  rw [strncat, strAt_zero hs, Option.bind_some]
  by_cases hfits : (src.take n).length ≤ after.length
  · have hold : ((0 :: after).take ((src.take n).length + 1)).length =
        (src.take n ++ [0]).length := by
      simp only [List.length_take, List.length_cons, List.length_append, List.length_nil] at hfits ⊢
      omega
    have hwrite := write_append s _ ((0 :: after).drop ((src.take n).length + 1)) _ hold
    rw [List.take_append_drop, List.drop_succ_cons] at hwrite
    rw [if_pos hfits, hwrite, List.append_assoc, List.append_assoc, List.singleton_append]
  · rw [if_neg hfits, write, if_neg]
    simp only [List.length_append, List.length_cons, List.length_nil]
    omega

/-- Appending strings one after another with the size of the block as the bound: they
fit if the spare bytes hold them all. -/
theorem foldlM_strncat {size : ℕ} (pieces : List CStr) (hpieces : ∀ t ∈ pieces, 0 ∉ t) {s : CStr}
    (hs : 0 ∉ s) (after : List UInt8) (hsize : after.length < size) :
    pieces.foldlM (fun block t => strncat block t size) (s ++ 0 :: after) =
      if pieces.flatten.length ≤ after.length then
        some (s ++ pieces.flatten ++ 0 :: after.drop pieces.flatten.length)
      else none := by
  induction pieces generalizing s after with
  | nil => simp
  | cons t pieces ih =>
    rw [List.foldlM_cons, strncat_append hs, List.flatten_cons, List.length_append]
    by_cases hfits : (t.take size).length ≤ after.length
    · have htake : t.take size = t := by
        apply List.take_of_length_le
        rw [List.length_take] at hfits
        omega
      have hnul : 0 ∉ s ++ t := by
        rw [List.mem_append]
        exact not_or.mpr ⟨hs, hpieces t List.mem_cons_self⟩
      rw [if_pos hfits, htake]
      rw [htake] at hfits
      change pieces.foldlM _ (s ++ t ++ 0 :: after.drop t.length) = _
      rw [ih (fun t' ht' => hpieces t' (List.mem_cons_of_mem t ht')) hnul _
        (by rw [List.length_drop]; omega), List.length_drop, List.drop_drop]
      have hroom : pieces.flatten.length ≤ after.length - t.length ↔
          t.length + pieces.flatten.length ≤ after.length := by omega
      simp only [hroom, List.append_assoc]
    · have hover : ¬ t.length + pieces.flatten.length ≤ after.length := by
        rw [List.length_take] at hfits
        omega
      rw [if_neg hfits, if_neg hover]
      rfl

theorem strcpy_of_lt {block : Block} {src : CStr} (h : src.length < block.length) :
    strcpy block src = some (src ++ 0 :: block.drop (src.length + 1)) := by
  have hlength : (src ++ [0]).length = src.length + 1 := by simp
  rw [strcpy, write, if_pos (by omega), hlength, Nat.zero_add, List.take_zero, List.nil_append,
    List.append_assoc, List.singleton_append]

/-- A block of this size with the first bytes of a text, as many as fit with a NUL. -/
structure Holds (size : ℕ) (text : CStr) (block : Block) : Prop where
  nulFree : 0 ∉ text
  length_eq : block.length = size
  shape : ∃ after, block = text.take (size - 1) ++ 0 :: after

theorem Holds.strAt {size : ℕ} {text : CStr} {block : Block} (h : Holds size text block) :
    strAt block 0 = some (text.take (size - 1)) := by
  obtain ⟨after, rfl⟩ := h.shape
  exact strAt_zero (fun h0 => h.nulFree (List.mem_of_mem_take h0)) after

theorem holds_strcpy {block : Block} {src : CStr} (hsrc : 0 ∉ src) (h : src.length < block.length) :
    ∃ block', strcpy block src = some block' ∧ Holds block.length src block' := by
  refine ⟨_, strcpy_of_lt h, hsrc, ?_, block.drop (src.length + 1), ?_⟩
  · simp only [List.length_append, List.length_cons, List.length_drop]
    omega
  · rw [List.take_of_length_le (Nat.le_sub_one_of_lt h)]

/-- Appending with the room that is left as the bound goes on with the text. -/
theorem Holds.strncat {size : ℕ} {text : CStr} {block : Block} (h : Holds size text block)
    {src : CStr} (hsrc : 0 ∉ src) :
    ∃ block', strncat block src (size - 1 - (text.take (size - 1)).length) = some block' ∧
      Holds size (text ++ src) block' := by
  obtain ⟨after, rfl⟩ := h.shape
  have hnul : 0 ∉ text.take (size - 1) := fun h0 => h.nulFree (List.mem_of_mem_take h0)
  have hsize := h.length_eq
  rw [List.length_append, List.length_cons] at hsize
  have hroom : size - 1 - (text.take (size - 1)).length = after.length := by omega
  have hshort : size - 1 - text.length = after.length := by
    rw [List.length_take] at hsize
    omega
  rw [hroom, strncat_append hnul, if_pos (List.length_take_le _ _)]
  refine ⟨_, rfl, ?_, ?_, after.drop (src.take after.length).length, ?_⟩
  · rw [List.mem_append]
    exact not_or.mpr ⟨h.nulFree, hsrc⟩
  · have hle := List.length_take_le after.length src
    simp only [List.length_append, List.length_cons, List.length_drop]
    omega
  · rw [List.take_append, hshort]

end OpsSysd.StringBlock
