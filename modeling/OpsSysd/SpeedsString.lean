import OpsSysd.Decimal
import OpsSysd.StringBlock

/-!
The list of an interface's speeds, written into the caller's buffer. A number
and its comma go through a scratch buffer of ten bytes, and each is appended
with the size of the whole buffer as the bound. The buffer holds the list if no
number is longer than the scratch buffer, and long lists run past its end.
-/

namespace OpsSysd.SpeedsString

open CString StringBlock Platform

def scratchSize : ℕ := 10

/-- The text of the `i`-th entry. -/
def entry (i : ℕ) (speed : ℤ) : CStr := if i = 0 then decimal speed else 44 :: decimal speed

/-- The loop from the `i`-th entry on. -/
def appendSpeeds (len : ℕ) : ℕ → List ℤ → Block → Option Block
  | _, [], speedStr => some speedStr
  | i, speed :: rest, speedStr =>
    let buf := (entry i speed).take (scratchSize - 1)
    (strncat speedStr buf len).bind (appendSpeeds len (i + 1) rest)

def sysdGetSpeedsString (speedStr : Block) (len : ℕ) (speeds : List ℤ) : Option Block :=
  appendSpeeds len 0 speeds speedStr

/-- The numbers in decimal, with commas between. -/
def rendering (speeds : List ℤ) : CStr := [44].intercalate (speeds.map decimal)

/-- Splitting at commas and reading the numbers. -/
def parseSpeeds (s : CStr) : Option (List ℤ) :=
  if s = [] then some [] else (s.splitOn 44).mapM parseDecimal

/-- The list stays in a cleared buffer, and it is in it when its text fits. -/
def Lawful (len : ℕ) (speeds : List ℤ) : Prop :=
  ∃ block, sysdGetSpeedsString (List.replicate len 0) len speeds = some block ∧
    block.length = len ∧
    ((rendering speeds).length < len →
      strAt block 0 = some (rendering speeds) ∧
        (strAt block 0).bind parseSpeeds = some speeds)

/-- The texts of the entries. -/
def entries : List ℤ → List CStr
  | [] => []
  | speed :: rest => decimal speed :: rest.map (fun v => 44 :: decimal v)

section Texts

theorem decimal_ne_nil (v : ℤ) : decimal v ≠ [] := by
  unfold decimal
  split_ifs
  · exact List.cons_ne_nil _ _
  · exact decimalNat_ne_nil _

theorem zero_notMem_entries {speeds : List ℤ} {t : CStr} (ht : t ∈ entries speeds) : 0 ∉ t := by
  cases speeds with
  | nil => simp [entries] at ht
  | cons speed rest =>
    rcases List.mem_cons.mp ht with rfl | hrest
    · exact notMem_decimal (by decide) speed
    · obtain ⟨v, _, rfl⟩ := List.mem_map.mp hrest
      intro h
      rcases List.mem_cons.mp h with h0 | hmem
      · exact absurd h0 (by decide)
      · exact notMem_decimal (by decide) v hmem

theorem rendering_cons (speed : ℤ) (rest : List ℤ) :
    rendering (speed :: rest) = decimal speed ++ (rest.map (fun v => 44 :: decimal v)).flatten := by
  induction rest generalizing speed with
  | nil => simp [rendering]
  | cons v rest ih =>
    have hcons : rendering (speed :: v :: rest) = decimal speed ++ 44 :: rendering (v :: rest) := by
      simp [rendering, List.intercalate_cons_cons]
    rw [hcons, ih, List.map_cons, List.flatten_cons, List.cons_append]

theorem rendering_eq_flatten (speeds : List ℤ) : rendering speeds = (entries speeds).flatten := by
  cases speeds with
  | nil => rfl
  | cons speed rest => rw [rendering_cons, entries, List.flatten_cons]

theorem mapM_parseDecimal (speeds : List ℤ) :
    (speeds.map decimal).mapM parseDecimal = some speeds := by
  induction speeds with
  | nil => rfl
  | cons speed rest ih =>
    rw [List.map_cons, List.mapM_cons, parseDecimal_decimal, ih]
    rfl

/-- The text gives the list back. -/
theorem parseSpeeds_rendering (speeds : List ℤ) : parseSpeeds (rendering speeds) = some speeds := by
  cases speeds with
  | nil => rfl
  | cons speed rest =>
    have hne : rendering (speed :: rest) ≠ [] := by
      rw [rendering_cons]
      exact List.append_ne_nil_of_left_ne_nil (decimal_ne_nil speed) _
    have hsplit : (rendering (speed :: rest)).splitOn 44 = (speed :: rest).map decimal := by
      apply List.splitOn_intercalate
      · intro t ht
        obtain ⟨v, _, rfl⟩ := List.mem_map.mp ht
        exact notMem_decimal (by decide) v
      · simp
    rw [parseSpeeds, if_neg hne, hsplit, mapM_parseDecimal]

end Texts

section Loop

/-- The texts as they leave the scratch buffer. -/
def stored (speeds : List ℤ) : List CStr := (entries speeds).map (·.take (scratchSize - 1))

theorem zero_notMem_stored {speeds : List ℤ} {t : CStr} (ht : t ∈ stored speeds) : 0 ∉ t := by
  obtain ⟨s, hs, rfl⟩ := List.mem_map.mp ht
  exact fun h => zero_notMem_entries hs (List.mem_of_mem_take h)

theorem zero_notMem_flatten (speeds : List ℤ) : 0 ∉ (stored speeds).flatten := by
  intro h
  obtain ⟨t, ht, h0⟩ := List.mem_flatten.mp h
  exact zero_notMem_stored ht h0

theorem length_stored (speeds : List ℤ) :
    (stored speeds).flatten.length =
      ((entries speeds).map (fun t => min (scratchSize - 1) t.length)).sum := by
  rw [List.length_flatten, stored, List.map_map]
  congr 1
  apply List.map_congr_left
  intro t _
  exact List.length_take

theorem appendSpeeds_succ (len i : ℕ) (speeds : List ℤ) (block : Block) :
    appendSpeeds len (i + 1) speeds block =
      (speeds.map (fun v => (44 :: decimal v).take (scratchSize - 1))).foldlM
        (fun block t => strncat block t len) block := by
  induction speeds generalizing i block with
  | nil => rfl
  | cons speed rest ih =>
    rw [appendSpeeds, entry, if_neg (Nat.succ_ne_zero i), List.map_cons, List.foldlM_cons]
    congr 1
    exact funext (ih (i + 1))

theorem sysdGetSpeedsString_eq_foldlM (len : ℕ) (speeds : List ℤ) (block : Block) :
    sysdGetSpeedsString block len speeds =
      (stored speeds).foldlM (fun block t => strncat block t len) block := by
  cases speeds with
  | nil => rfl
  | cons speed rest =>
    rw [sysdGetSpeedsString, appendSpeeds, entry, if_pos rfl, stored, entries, List.map_cons,
      List.foldlM_cons, List.map_map]
    congr 1
    exact funext (appendSpeeds_succ len 0 rest)

/-- In a cleared buffer the texts are joined, or they run past its end. -/
theorem sysdGetSpeedsString_zeroed (size : ℕ) (speeds : List ℤ) :
    sysdGetSpeedsString (List.replicate (size + 1) 0) (size + 1) speeds =
      if (stored speeds).flatten.length ≤ size then
        some ((stored speeds).flatten ++ 0 ::
          (List.replicate size 0).drop (stored speeds).flatten.length)
      else none := by
  have hsize : (List.replicate size (0 : UInt8)).length < size + 1 := by simp
  have h := foldlM_strncat (stored speeds) (fun _ => zero_notMem_stored) List.not_mem_nil _ hsize
  rw [List.length_replicate, List.nil_append, List.nil_append] at h
  rw [sysdGetSpeedsString_eq_foldlM, List.replicate_succ, h]

theorem strAt_sysdGetSpeedsString (size : ℕ) (speeds : List ℤ) :
    ((sysdGetSpeedsString (List.replicate (size + 1) 0) (size + 1) speeds).bind
        fun block => strAt block 0) =
      if (stored speeds).flatten.length < size + 1 then some (stored speeds).flatten else none := by
  rw [sysdGetSpeedsString_zeroed]
  by_cases hfits : (stored speeds).flatten.length ≤ size
  · rw [if_pos hfits, if_pos (Nat.lt_succ_of_le hfits), Option.bind_some,
      strAt_zero (zero_notMem_flatten speeds)]
  · rw [if_neg hfits, if_neg (by omega), Option.bind_none]

end Loop

section Law

theorem length_flatten_map_take (n : ℕ) (texts : List CStr) :
    (texts.map (·.take n)).flatten.length ≤ texts.flatten.length := by
  induction texts with
  | nil => exact Nat.le_refl _
  | cons t texts ih =>
    simp only [List.map_cons, List.flatten_cons, List.length_append, List.length_take]
    omega

/-- Cutting the texts changes their join if one of them is longer. -/
theorem flatten_map_take_eq_iff (n : ℕ) (texts : List CStr) :
    (texts.map (·.take n)).flatten = texts.flatten ↔ ∀ t ∈ texts, t.length ≤ n := by
  constructor
  · intro h
    induction texts with
    | nil => simp
    | cons t texts ih =>
      have hle := length_flatten_map_take n texts
      have hlength := congrArg List.length h
      simp only [List.map_cons, List.flatten_cons, List.length_append, List.length_take] at hlength
      have hfirst : t.length ≤ n := by omega
      rw [List.map_cons, List.flatten_cons, List.flatten_cons, List.take_of_length_le hfirst] at h
      exact List.forall_mem_cons.mpr ⟨hfirst, ih (List.append_cancel_left h)⟩
  · intro h
    have hmap : texts.map (·.take n) = texts := by
      conv_rhs => rw [← List.map_id texts]
      exact List.map_congr_left fun t ht => List.take_of_length_le (h t ht)
    rw [hmap]

/-- The law for a buffer that can hold a string. -/
theorem lawful_succ_iff (size : ℕ) (speeds : List ℤ) :
    Lawful (size + 1) speeds ↔ (stored speeds).flatten.length ≤ size ∧
      ((rendering speeds).length ≤ size → ∀ t ∈ entries speeds, t.length < scratchSize) := by
  constructor
  · rintro ⟨block, hrun, _, htext⟩
    rw [sysdGetSpeedsString_zeroed] at hrun
    split_ifs at hrun with hfits
    cases hrun
    refine ⟨hfits, fun hroom => ?_⟩
    have hstr := (htext (Nat.lt_succ_of_le hroom)).1
    rw [strAt_zero (zero_notMem_flatten speeds), Option.some.injEq, rendering_eq_flatten] at hstr
    intro t ht
    exact Nat.lt_succ_of_le ((flatten_map_take_eq_iff _ _).mp hstr t ht)
  · rintro ⟨hfits, hshort⟩
    refine ⟨_, by rw [sysdGetSpeedsString_zeroed, if_pos hfits], ?_, fun hroom => ?_⟩
    · simp only [List.length_append, List.length_cons, List.length_drop, List.length_replicate]
      omega
    · have hall := hshort (Nat.le_of_lt_succ hroom)
      have htext : (stored speeds).flatten = rendering speeds := by
        rw [rendering_eq_flatten]
        exact (flatten_map_take_eq_iff _ _).mpr fun t ht => Nat.le_of_lt_succ (hall t ht)
      rw [strAt_zero (zero_notMem_flatten speeds), htext]
      exact ⟨rfl, parseSpeeds_rendering speeds⟩

/-- The list is kept exactly if its texts, each cut to the scratch buffer, end before the
buffer does, and none is cut when the whole text would have fitted. -/
theorem speeds_lawful_iff (len : ℕ) (speeds : List ℤ) :
    Lawful len speeds ↔
      (speeds = [] ∨
        ((entries speeds).map (fun t => min (scratchSize - 1) t.length)).sum < len) ∧
      ((rendering speeds).length < len → ∀ t ∈ entries speeds, t.length < scratchSize) := by
  cases len with
  | zero =>
    cases speeds with
    | nil => simp [Lawful, sysdGetSpeedsString, appendSpeeds, entries]
    | cons speed rest =>
      simp [Lawful, sysdGetSpeedsString, appendSpeeds, strncat, strAt]
  | succ size =>
    rw [lawful_succ_iff, length_stored, Nat.lt_succ_iff, Nat.lt_succ_iff]
    apply and_congr_left'
    constructor
    · exact Or.inr
    · rintro (rfl | hfits)
      · exact Nat.zero_le size
      · exact hfits

theorem decimal_gigabit : decimal 1000000000 = cstr "1000000000" := by
  simp [decimal, decimalNat]
  decide

/-- A number of ten digits loses the last one, and a list can be longer than the buffer
although each append is bounded by its size. -/
theorem not_speeds_lawful :
    ¬ Lawful 128 [1000000000] ∧
      sysdGetSpeedsString (List.replicate 128 0) 128 (List.replicate 15 1000000000) = none := by
  constructor
  · intro h
    have hshort := ((lawful_succ_iff 127 _).mp h).2
    rw [rendering_cons, entries, decimal_gigabit] at hshort
    exact absurd (hshort (by decide) _ List.mem_cons_self) (by decide)
  · rw [sysdGetSpeedsString_zeroed, if_neg]
    rw [length_stored, List.replicate_succ, entries, List.map_replicate, decimal_gigabit]
    decide

end Law

end OpsSysd.SpeedsString
