import OpsSysd.Deletion
import OpsSysd.StringBlock
import OpsSysd.TimezoneTree

/-!
The loop with which the shell strips the zone directory from a path, on the
block that holds the path: every pass moves the text behind the occurrence
over it and searches on from there. It leaves the text that the validator's
replacement leaves of the path as it was.
-/

namespace OpsSysd.BasePath

open CString StringBlock Deletion
open Timezone (strstr strstr_cons strstr_lt eraseAll eraseAll_eq_strstr removeBasePath_eq_eraseAll)

inductive Stuck
  | outOfBounds
  | outOfFuel
  deriving DecidableEq, Repr

/-- The loop, with a bound on how often its condition is tested. -/
def removeBasePath (basePath : CStr) : ℕ → Block → ℕ → Except Stuck Block
  | 0, _, _ => .error .outOfFuel
  | fuel + 1, block, fullPath =>
    match strAt block fullPath with
    | none => .error .outOfBounds
    | some s =>
      match strstr s basePath with
      | none => .ok block
      | some i =>
        let found := fullPath + i
        let tail := found + basePath.length
        match (strAt block tail).bind fun t => memmove block found tail (1 + t.length) with
        | none => .error .outOfBounds
        | some block => removeBasePath basePath fuel block found

section Search

theorem absent_of_strstr {s pattern : CStr} (h : strstr s pattern = none) :
    ¬ pattern <:+: s := by
  induction s with
  | nil =>
    intro hinfix
    rw [List.infix_nil.mp hinfix] at h
    simp [strstr] at h
  | cons c s ih =>
    rw [strstr_cons] at h
    split_ifs at h with hprefix
    rw [List.infix_cons_iff]
    rintro (hhead | htail)
    · exact hprefix (List.isPrefixOf_iff_prefix.mpr hhead)
    · exact ih (Option.map_eq_none_iff.mp h) htail

/-- The search finds the first occurrence. -/
theorem firstAt_of_strstr {s pattern : CStr} {i : ℕ} (h : strstr s pattern = some i) :
    ∃ left right, s = left ++ pattern ++ right ∧ left.length = i ∧
      FirstAt pattern left right := by
  induction s generalizing i with
  | nil =>
    cases pattern with
    | nil => exact ⟨[], [], rfl, by simpa [strstr] using h, fun _ _ _ => Nat.zero_le _⟩
    | cons c rest => simp [strstr] at h
  | cons c s ih =>
    rw [strstr_cons] at h
    split_ifs at h with hprefix
    · obtain ⟨right, hright⟩ := List.isPrefixOf_iff_prefix.mp hprefix
      exact ⟨[], right, hright.symm, Option.some.inj h, fun _ _ _ => Nat.zero_le _⟩
    · obtain ⟨j, hj, rfl⟩ := Option.map_eq_some_iff.mp h
      obtain ⟨left, right, rfl, rfl, hfirst⟩ := ih hj
      refine ⟨c :: left, right, rfl, rfl, ?_⟩
      intro left' right' heq
      cases left' with
      | nil =>
        have hhead : pattern <+: c :: (left ++ pattern ++ right) := ⟨right', heq⟩
        exact absurd (List.isPrefixOf_iff_prefix.mpr hhead) hprefix
      | cons c' left' =>
        have htail := hfirst left' right' (List.cons.inj heq).2
        simpa using htail

/-- The replacement goes on behind the first occurrence. -/
theorem eraseAll_first {pattern left right : CStr} (hp : pattern ≠ [])
    (hfirst : FirstAt pattern left right) :
    eraseAll pattern 0 (left ++ pattern ++ right) = left ++ eraseAll pattern 0 right := by
  cases h : strstr (left ++ pattern ++ right) pattern with
  | none => exact absurd (infix_append_append pattern left right) (absent_of_strstr h)
  | some i =>
    obtain ⟨left', right', heq, hi, hfirst'⟩ := firstAt_of_strstr h
    obtain ⟨rfl, rfl⟩ := hfirst.unique hfirst' heq
    have hdrop : (left ++ pattern ++ right).drop (i + pattern.length) = right := by
      rw [← hi, ← List.length_append, List.drop_left]
    have htake : (left ++ pattern ++ right).take i = left := by
      rw [← hi, List.append_assoc, List.take_left]
    rw [eraseAll_eq_strstr hp, h]
    simp only [hdrop, htake]

theorem eraseAll_of_absent {pattern s : CStr} (hp : pattern ≠ []) (h : ¬ pattern <:+: s) :
    eraseAll pattern 0 s = s := by
  cases hstr : strstr s pattern with
  | none => rw [eraseAll_eq_strstr hp, hstr]
  | some i =>
    obtain ⟨left, right, rfl, _, _⟩ := firstAt_of_strstr hstr
    exact absurd (infix_append_append pattern left right) h

/-- The replacement deletes the occurrences from left to right. -/
theorem erased_eraseAll {pattern : CStr} (hp : pattern ≠ []) (s : CStr) :
    Erased pattern s (eraseAll pattern 0 s) := by
  induction hn : s.length using Nat.strong_induction_on generalizing s with
  | _ n ih =>
    cases h : strstr s pattern with
    | none =>
      have habsent := absent_of_strstr h
      rw [eraseAll_of_absent hp habsent]
      exact .none habsent
    | some i =>
      obtain ⟨left, right, rfl, _, hfirst⟩ := firstAt_of_strstr h
      have hpos := List.length_pos_of_ne_nil hp
      simp only [List.length_append] at hn
      rw [eraseAll_first hp hfirst]
      exact .first hfirst (ih right.length (by omega) right rfl)

end Search

section Loop

/-- One pass, on a block that shows the first occurrence at the search pointer. -/
theorem removeBasePath_pass {basePath left right : CStr}
    (hfound : strstr (left ++ basePath ++ right) basePath = some left.length)
    (hnul : 0 ∉ left ++ basePath ++ right) (before after : List UInt8) :
    ∃ after', after'.length = basePath.length + after.length ∧ ∀ fuel,
      removeBasePath basePath (fuel + 1) (before ++ ((left ++ basePath ++ right) ++ 0 :: after))
          before.length =
        removeBasePath basePath fuel ((before ++ left) ++ (right ++ 0 :: after'))
          (before ++ left).length := by
  have hright : 0 ∉ right := fun h => hnul (List.mem_append_right _ h)
  have hshape : before ++ ((left ++ basePath ++ right) ++ 0 :: after) =
      (before ++ left) ++ (basePath ++ (right ++ 0 :: after)) := by
    simp only [List.append_assoc]
  have htail : strAt (before ++ ((left ++ basePath ++ right) ++ 0 :: after))
      (before.length + left.length + basePath.length) = some right := by
    have h := strAt_append (before ++ left ++ basePath) hright after
    rw [List.length_append, List.length_append] at h
    rw [← h, hshape, List.append_assoc (before ++ left)]
  obtain ⟨after', hmove, hlength⟩ := memmove_append (before ++ left) basePath right after
  rw [← hshape, List.length_append] at hmove
  refine ⟨after', hlength, fun fuel => ?_⟩
  rw [removeBasePath, strAt_append before hnul after]
  simp only [hfound, htail, Option.bind_some, hmove, List.length_append]

/-- From the search pointer on, the loop leaves what the replacement leaves of the string
there, and it does not touch what comes before. -/
theorem removeBasePath_append {basePath : CStr} (hp : basePath ≠ []) {s : CStr} (hs : 0 ∉ s)
    (before after : List UInt8) :
    ∃ after', (eraseAll basePath 0 s).length + after'.length = s.length + after.length ∧
      ∀ fuel, s.length < fuel →
        removeBasePath basePath fuel (before ++ (s ++ 0 :: after)) before.length =
          .ok (before ++ (eraseAll basePath 0 s ++ 0 :: after')) := by
  induction hn : s.length using Nat.strong_induction_on generalizing s before after with
  | _ n ih =>
    cases h : strstr s basePath with
    | none =>
      rw [eraseAll_of_absent hp (absent_of_strstr h)]
      refine ⟨after, by rw [hn], fun fuel hfuel => ?_⟩
      obtain ⟨fuel, rfl⟩ := Nat.exists_eq_add_one_of_ne_zero (Nat.ne_zero_of_lt hfuel)
      rw [removeBasePath, strAt_append before hs after]
      simp only [h]
    | some i =>
      obtain ⟨left, right, rfl, rfl, hfirst⟩ := firstAt_of_strstr h
      obtain ⟨gap, hgap, hpass⟩ := removeBasePath_pass h hs before after
      have hpos := List.length_pos_of_ne_nil hp
      have hright : 0 ∉ right := fun h0 => hs (List.mem_append_right _ h0)
      simp only [List.length_append] at hn
      obtain ⟨after', hlength, hrun⟩ := ih right.length (by omega) hright (before ++ left) gap rfl
      rw [eraseAll_first hp hfirst]
      refine ⟨after', ?_, fun fuel hfuel => ?_⟩
      · rw [List.length_append]
        omega
      · obtain ⟨fuel, rfl⟩ := Nat.exists_eq_add_one_of_ne_zero (Nat.ne_zero_of_lt hfuel)
        rw [hpass, hrun fuel (by omega)]
        simp only [List.append_assoc]

/-- An empty path is found at once in every pass: the loop does not end. -/
theorem removeBasePath_nil (fuel : ℕ) {s : CStr} (hs : 0 ∉ s) (before after : List UInt8) :
    removeBasePath [] fuel (before ++ (s ++ 0 :: after)) before.length =
      .error .outOfFuel := by
  have hfound : strstr ([] ++ [] ++ s) [] = some ([] : CStr).length := by
    cases s with
    | nil => rfl
    | cons c s => exact (strstr_cons c s []).trans (if_pos (by simp))
  induction fuel generalizing after with
  | zero => rfl
  | succ fuel ih =>
    obtain ⟨gap, _, hpass⟩ := removeBasePath_pass hfound hs before after
    have hnext := hpass fuel
    simp only [List.append_nil, List.nil_append] at hnext
    exact hnext.trans (ih gap)

theorem strAt_erased {basePath : CStr} (hp : basePath ≠ []) {s : CStr} (hs : 0 ∉ s)
    (after : List UInt8) :
    strAt (eraseAll basePath 0 s ++ 0 :: after) 0 = some (eraseAll basePath 0 s) :=
  strAt_zero (fun h => hs ((erased_eraseAll hp s).sublist.subset h)) after

/-- On the block of a path the loop is the shell's stripping of the path. -/
theorem removeBasePath_zoneinfo {s : CStr} (hs : 0 ∉ s) (after : List UInt8) :
    ∃ block, removeBasePath Timezone.basePath (s.length + 1) (s ++ 0 :: after) 0 = .ok block ∧
      strAt block 0 = some (Timezone.removeBasePath s) := by
  have hp : Timezone.basePath ≠ [] := by decide
  obtain ⟨after', _, hrun⟩ := removeBasePath_append hp hs [] after
  refine ⟨_, hrun _ (Nat.lt_succ_self _), ?_⟩
  rw [removeBasePath_eq_eraseAll]
  exact strAt_erased hp hs after'

/-- In the block of any string the loop ends and leaves, within the block, what the
replacement makes of the string: its occurrences deleted from left to right, the text
before an occurrence not looked at again. -/
theorem removeBasePath_eq_replace {basePath : CStr} (hp : basePath ≠ []) {s : CStr}
    (hs : 0 ∉ s) (after : List UInt8) :
    ∃ block, (∀ fuel, s.length < fuel →
        removeBasePath basePath fuel (s ++ 0 :: after) 0 = .ok block) ∧
      block.length = (s ++ 0 :: after).length ∧
      strAt block 0 = some (eraseAll basePath 0 s) ∧
      (∀ rest, Erased basePath s rest ↔ strAt block 0 = some rest) ∧
      ∀ left right, FirstAt basePath left right → s = left ++ basePath ++ right →
        strAt block 0 = some (left ++ eraseAll basePath 0 right) := by
  obtain ⟨after', hlength, hrun⟩ := removeBasePath_append hp hs [] after
  have hstr := strAt_erased hp hs after'
  refine ⟨eraseAll basePath 0 s ++ 0 :: after', hrun, ?_, hstr, ?_, ?_⟩
  · simp only [List.length_append, List.length_cons]
    omega
  · intro rest
    rw [hstr, Option.some.injEq]
    constructor
    · exact fun h => (erased_eraseAll hp s).unique h
    · rintro rfl
      exact erased_eraseAll hp s
  · rintro left right hfirst rfl
    rw [hstr, eraseAll_first hp hfirst]

/-- What is joined to the path again stays. -/
theorem removeBasePath_recreated :
    ∃ block, removeBasePath (cstr "ab") 5 (cstr "aabb" ++ [0]) 0 = .ok block ∧
      strAt block 0 = some (cstr "ab") := by
  have hp : cstr "ab" ≠ [] := by decide
  have hs : 0 ∉ cstr "aabb" := by decide
  obtain ⟨block, hrun, _, hstr, _⟩ := removeBasePath_eq_replace hp hs []
  exact ⟨block, hrun 5 (by decide), hstr.trans (by decide)⟩

end Loop

end OpsSysd.BasePath
