import Mathlib.Data.List.Infix
import Mathlib.Data.List.TakeDrop

/-!
Deleting a pattern from a text: the occurrences are found from left to right
and the search goes on behind the one deleted, so what the deletions join is
not looked at again. The text that is left is unique. Nothing here is about a
particular program.
-/

namespace OpsSysd.Deletion

variable {α : Type*}

/-- No occurrence of the pattern in `left ++ pattern ++ right` starts before the one shown. -/
def FirstAt (pattern left right : List α) : Prop :=
  ∀ left' right', left' ++ pattern ++ right' = left ++ pattern ++ right →
    left.length ≤ left'.length

/-- Two displays of the first occurrence in a text are one. -/
theorem FirstAt.unique {pattern left right left' right' : List α}
    (h : FirstAt pattern left right) (h' : FirstAt pattern left' right')
    (heq : left ++ pattern ++ right = left' ++ pattern ++ right') :
    left = left' ∧ right = right' := by
  have hlength : left.length = left'.length :=
    Nat.le_antisymm (h left' right' heq.symm) (h' left right heq)
  rw [List.append_assoc, List.append_assoc] at heq
  obtain ⟨hleft, hrest⟩ := List.append_inj heq hlength
  exact ⟨hleft, List.append_cancel_left hrest⟩

/-- What is left of a text when the non-overlapping occurrences are deleted. -/
inductive Erased (pattern : List α) : List α → List α → Prop
  | none {text : List α} (habsent : ¬ pattern <:+: text) : Erased pattern text text
  | first {left right rest : List α} (hfirst : FirstAt pattern left right)
      (hrest : Erased pattern right rest) :
      Erased pattern (left ++ pattern ++ right) (left ++ rest)

theorem infix_append_append (pattern left right : List α) :
    pattern <:+: left ++ pattern ++ right := ⟨left, right, rfl⟩

/-- A text that shows its first occurrence is erased behind it. -/
theorem Erased.of_first {pattern left right text : List α} (hfirst : FirstAt pattern left right)
    (h : Erased pattern (left ++ pattern ++ right) text) :
    ∃ rest, text = left ++ rest ∧ Erased pattern right rest := by
  generalize hall : left ++ pattern ++ right = all at h
  cases h with
  | none habsent => exact absurd (hall ▸ infix_append_append pattern left right) habsent
  | first hfirst' hrest =>
    obtain ⟨rfl, rfl⟩ := hfirst.unique hfirst' hall
    exact ⟨_, rfl, hrest⟩

/-- Deleting leaves one text. -/
theorem Erased.unique {pattern text rest rest' : List α} (h : Erased pattern text rest)
    (h' : Erased pattern text rest') : rest = rest' := by
  induction h generalizing rest' with
  | none habsent =>
    cases h' with
    | none _ => rfl
    | first _ _ => exact absurd (infix_append_append _ _ _) habsent
  | first hfirst _ ih =>
    obtain ⟨rest, rfl, hrest⟩ := h'.of_first hfirst
    rw [ih hrest]

theorem Erased.sublist {pattern text rest : List α} (h : Erased pattern text rest) :
    rest.Sublist text := by
  induction h with
  | none _ => exact .refl _
  | first _ _ ih =>
    rw [List.append_assoc]
    exact (ih.trans (List.sublist_append_right _ _)).append_left _

end OpsSysd.Deletion
