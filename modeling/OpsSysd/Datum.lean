import OpsSysd.Platform
import Mathlib.Data.List.Nodup

/-!
What is found in the map that `ovsdb_datum_from_smap` makes: for each key the
least of the values it was added with.
-/

namespace OpsSysd.Ovsrec

open CString Platform

/-- The value stored under a key. -/
def smapGet (m : Smap) (k : CStr) : Option CStr := (m.find? (fun p => p.1 = k)).map Prod.snd

/-- The smaller of a value and what is there. -/
def least (v : CStr) : Option CStr → CStr
  | none => v
  | some w => if v < w then v else w

/-- The keys grow. -/
def Sorted (m : Smap) : Prop := m.Pairwise (fun p q => p.1 < q.1)

section Datum

variable {m : Smap} {p : CStr × CStr} {k v : CStr}

theorem smapGet_cons (p : CStr × CStr) (m : Smap) (k : CStr) :
    smapGet (p :: m) k = if p.1 = k then some p.2 else smapGet m k := by
  unfold smapGet
  rw [List.find?_cons]
  split_ifs with h
  · simp [h]
  · simp [h]

theorem smapGet_eq_none (h : ∀ q ∈ m, q.1 ≠ k) : smapGet m k = none := by
  unfold smapGet
  rw [Option.map_eq_none_iff, List.find?_eq_none]
  intro q hq
  simpa using h q hq

theorem lt_of_not_lt_of_ne {a b : CStr} (h : ¬ a < b) (hne : a ≠ b) : b < a := by
  by_contra hnot
  rw [List.not_lt] at h hnot
  exact hne (Std.le_antisymm hnot h)

theorem mem_insertDatum {q : CStr × CStr} (h : q ∈ insertDatum p m) : q.1 = p.1 ∨ q ∈ m := by
  induction m with
  | nil =>
    rw [insertDatum, List.mem_singleton] at h
    exact .inl (congrArg Prod.fst h)
  | cons r rest ih =>
    by_cases heq : p.1 = r.1
    · rw [insertDatum, if_pos heq] at h
      rcases List.mem_cons.mp h with rfl | h
      · exact .inl rfl
      · exact .inr (List.mem_cons_of_mem _ h)
    by_cases hlt : p.1 < r.1
    · rw [insertDatum, if_neg heq, if_pos hlt] at h
      rcases List.mem_cons.mp h with rfl | h
      · exact .inl rfl
      · exact .inr h
    · rw [insertDatum, if_neg heq, if_neg hlt] at h
      rcases List.mem_cons.mp h with rfl | h
      · exact .inr (List.mem_cons_self ..)
      · rcases ih h with h | h
        · exact .inl h
        · exact .inr (List.mem_cons_of_mem _ h)

theorem sorted_insertDatum (h : Sorted m) : Sorted (insertDatum p m) := by
  induction m with
  | nil => exact List.pairwise_singleton _ _
  | cons q rest ih =>
    obtain ⟨hq, hrest⟩ := List.pairwise_cons.mp h
    by_cases heq : p.1 = q.1
    · rw [insertDatum, if_pos heq]
      refine List.pairwise_cons.mpr ⟨fun r hr => ?_, hrest⟩
      show p.1 < r.1
      rw [heq]
      exact hq r hr
    by_cases hlt : p.1 < q.1
    · rw [insertDatum, if_neg heq, if_pos hlt]
      refine List.pairwise_cons.mpr ⟨fun r hr => ?_, h⟩
      rcases List.mem_cons.mp hr with rfl | hr
      · exact hlt
      · exact List.lt_trans hlt (hq r hr)
    · rw [insertDatum, if_neg heq, if_neg hlt]
      refine List.pairwise_cons.mpr ⟨fun r hr => ?_, ih hrest⟩
      rcases mem_insertDatum hr with hr | hr
      · rw [hr]
        exact lt_of_not_lt_of_ne hlt heq
      · exact hq r hr

theorem sorted_datumFromSmap (m : Smap) : Sorted (datumFromSmap m) := by
  induction m with
  | nil => exact List.Pairwise.nil
  | cons p rest ih => exact sorted_insertDatum ih

/-- An addition under another key is not seen. -/
theorem smapGet_insertDatum_of_ne (hk : p.1 ≠ k) :
    smapGet (insertDatum p m) k = smapGet m k := by
  induction m with
  | nil => rw [insertDatum, smapGet_cons, if_neg hk]
  | cons q rest ih =>
    by_cases heq : p.1 = q.1
    · rw [insertDatum, if_pos heq, smapGet_cons, smapGet_cons, if_neg hk, if_neg (heq ▸ hk)]
    by_cases hlt : p.1 < q.1
    · rw [insertDatum, if_neg heq, if_pos hlt, smapGet_cons, if_neg hk]
    · rw [insertDatum, if_neg heq, if_neg hlt, smapGet_cons, smapGet_cons, ih]

/-- Of two values under one key the smaller stays. -/
theorem smapGet_insertDatum (h : Sorted m) :
    smapGet (insertDatum p m) p.1 = some (least p.2 (smapGet m p.1)) := by
  induction m with
  | nil =>
    rw [insertDatum, smapGet_cons, if_pos rfl]
    rfl
  | cons q rest ih =>
    obtain ⟨hq, hrest⟩ := List.pairwise_cons.mp h
    by_cases heq : p.1 = q.1
    · rw [insertDatum, if_pos heq, smapGet_cons, smapGet_cons, if_pos rfl, if_pos heq.symm]
      rfl
    by_cases hlt : p.1 < q.1
    · have hnone : smapGet (q :: rest) p.1 = none := by
        apply smapGet_eq_none
        intro r hr hrp
        rcases List.mem_cons.mp hr with rfl | hr
        · exact heq hrp.symm
        · have hlt' := List.lt_trans hlt (hq r hr)
          rw [hrp] at hlt'
          exact List.lt_irrefl _ hlt'
      rw [insertDatum, if_neg heq, if_pos hlt, smapGet_cons, if_pos rfl, hnone]
      rfl
    · rw [insertDatum, if_neg heq, if_neg hlt, smapGet_cons, smapGet_cons, if_neg (Ne.symm heq),
        if_neg (Ne.symm heq), ih hrest]

theorem smapGet_datumFromSmap (m : Smap) (k : CStr) :
    smapGet (datumFromSmap m) k =
      ((m.filter (fun p => p.1 = k)).map Prod.snd).foldr (fun v o => some (least v o)) none := by
  induction m with
  | nil => rfl
  | cons p rest ih =>
    have hcons : datumFromSmap (p :: rest) = insertDatum p (datumFromSmap rest) := rfl
    rw [hcons, List.filter_cons]
    by_cases hk : p.1 = k
    · subst hk
      rw [smapGet_insertDatum (sorted_datumFromSmap rest), ih]
      simp only [decide_true, if_true, List.map_cons, List.foldr_cons]
    · rw [smapGet_insertDatum_of_ne hk, ih]
      simp [hk]

theorem mem_of_foldr_least {l : List CStr}
    (h : l.foldr (fun v o => some (least v o)) none = some v) : v ∈ l := by
  induction l generalizing v with
  | nil => cases h
  | cons w rest ih =>
    rw [List.foldr_cons, Option.some.injEq] at h
    cases hrest : rest.foldr (fun v o => some (least v o)) none with
    | none =>
      rw [hrest] at h
      rw [← h]
      exact List.mem_cons_self ..
    | some x =>
      rw [hrest] at h
      by_cases hlt : w < x
      · have hw : w = v := (if_pos hlt).symm.trans h
        rw [← hw]
        exact List.mem_cons_self ..
      · have hx : x = v := (if_neg hlt).symm.trans h
        rw [← hx]
        exact List.mem_cons_of_mem _ (ih hrest)

/-- A value that no other undercuts is the least. -/
theorem foldr_least {l : List CStr} (hv : v ∈ l) (hleast : ∀ w ∈ l, ¬ w < v) :
    l.foldr (fun v o => some (least v o)) none = some v := by
  induction l with
  | nil => cases hv
  | cons w rest ih =>
    rw [List.foldr_cons, Option.some.injEq]
    have hrest : ∀ x ∈ rest, ¬ x < v := fun x hx => hleast x (List.mem_cons_of_mem _ hx)
    by_cases hin : v ∈ rest
    · rw [ih hin hrest]
      exact if_neg (hleast w (List.mem_cons_self ..))
    · have hw : v = w := by simpa [hin] using hv
      subst hw
      cases hfold : rest.foldr (fun v o => some (least v o)) none with
      | none => rfl
      | some x =>
        have hx := mem_of_foldr_least hfold
        have hlt : v < x :=
          lt_of_not_lt_of_ne (hrest x hx) (fun heq => hin (heq ▸ hx))
        exact if_pos hlt

/-- What the map holds under a key, if no value added under it is smaller. -/
theorem smapGet_datumFromSmap_of_mem (hmem : (k, v) ∈ m) (hleast : ∀ w, (k, w) ∈ m → ¬ w < v) :
    smapGet (datumFromSmap m) k = some v := by
  rw [smapGet_datumFromSmap]
  apply foldr_least
  · exact List.mem_map.mpr ⟨(k, v), List.mem_filter.mpr ⟨hmem, by simp⟩, rfl⟩
  · intro w hw
    obtain ⟨q, hq, rfl⟩ := List.mem_map.mp hw
    obtain ⟨hq, hk⟩ := List.mem_filter.mp hq
    have hk : q.1 = k := by simpa using hk
    exact hleast q.2 (hk ▸ hq)

/-- Every key stands once. -/
def KeysNodup (m : Smap) : Prop := (m.map Prod.fst).Nodup

theorem smapGet_eq_some (h : KeysNodup m) : smapGet m k = some v ↔ (k, v) ∈ m := by
  unfold smapGet
  constructor
  · intro hget
    obtain ⟨q, hq, rfl⟩ := Option.map_eq_some_iff.mp hget
    have hk : q.1 = k := by simpa using List.find?_some hq
    exact hk ▸ List.mem_of_find?_eq_some hq
  · intro hmem
    cases hfind : m.find? (fun p => p.1 = k) with
    | none => simpa using List.find?_eq_none.mp hfind _ hmem
    | some q =>
      have hk : q.1 = k := by simpa using List.find?_some hfind
      have heq : q = (k, v) :=
        List.inj_on_of_nodup_map h (List.mem_of_find?_eq_some hfind) hmem hk
      rw [heq]
      rfl

theorem smapGet_datumFromSmap_of_nodup (h : KeysNodup m) (k : CStr) :
    smapGet (datumFromSmap m) k = smapGet m k := by
  cases hget : smapGet m k with
  | none =>
    rw [smapGet_datumFromSmap]
    have hnil : m.filter (fun p => p.1 = k) = [] := by
      rw [List.filter_eq_nil_iff]
      unfold smapGet at hget
      rwa [Option.map_eq_none_iff, List.find?_eq_none] at hget
    rw [hnil]
    rfl
  | some v =>
    refine smapGet_datumFromSmap_of_mem ((smapGet_eq_some h).mp hget) (fun w hw => ?_)
    rw [← smapGet_eq_some h, hget, Option.some.injEq] at hw
    rw [hw]
    exact List.lt_irrefl w

theorem eraseP_key (h : KeysNodup m) :
    m.eraseP (fun p => p.1 = k) = m.filter (fun p => p.1 ≠ k) := by
  unfold KeysNodup at h
  induction m with
  | nil => rfl
  | cons p rest ih =>
    rw [List.map_cons, List.nodup_cons] at h
    by_cases hk : p.1 = k
    · have hrest : ∀ q ∈ rest, q.1 ≠ k := by
        intro q hq heq
        exact h.1 (hk ▸ heq ▸ List.mem_map_of_mem hq)
      rw [List.eraseP_cons_of_pos (by simpa using hk), List.filter_cons_of_neg (by simpa using hk)]
      exact (List.filter_eq_self.mpr (by simpa using hrest)).symm
    · rw [List.eraseP_cons_of_neg (by simpa using hk), List.filter_cons_of_pos (by simpa using hk),
        ih h.2]

theorem mem_smapReplace (h : KeysNodup m) (q : CStr × CStr) :
    q ∈ smapReplace m k v ↔ (q ∈ m ∧ q.1 ≠ k) ∨ q = (k, v) := by
  unfold smapReplace
  rw [eraseP_key h]
  simp

theorem KeysNodup.smapReplace (h : KeysNodup m) (k v : CStr) : KeysNodup (smapReplace m k v) := by
  unfold Ovsrec.smapReplace
  rw [eraseP_key h]
  unfold KeysNodup at h ⊢
  rw [List.map_append, List.nodup_append]
  refine ⟨h.sublist (List.filter_sublist.map _), by simp, ?_⟩
  intro a ha b hb heq
  obtain ⟨q, hq, rfl⟩ := List.mem_map.mp ha
  have hkey : b = k := by simpa using hb
  simp [heq, hkey] at hq

theorem smapGet_smapReplace (h : KeysNodup m) (k' : CStr) :
    smapGet (smapReplace m k v) k' = if k' = k then some v else smapGet m k' := by
  have hnodup := h.smapReplace k v
  split_ifs with hk
  · rw [smapGet_eq_some hnodup, mem_smapReplace h, hk]
    exact .inr rfl
  · cases hget : smapGet m k' with
    | none =>
      apply smapGet_eq_none
      intro q hq heq
      rcases (mem_smapReplace h q).mp hq with ⟨hold, _⟩ | rfl
      · have hsome := (smapGet_eq_some h).mpr (show (k', q.2) ∈ m from heq ▸ hold)
        rw [hget] at hsome
        cases hsome
      · exact hk heq.symm
    | some w =>
      rw [smapGet_eq_some hnodup, mem_smapReplace h]
      exact .inl ⟨(smapGet_eq_some h).mp hget, hk⟩

theorem Sorted.keysNodup (h : Sorted m) : KeysNodup m := by
  unfold KeysNodup List.Nodup
  rw [List.pairwise_map]
  refine h.imp (fun {p q} hlt heq => ?_)
  rw [heq] at hlt
  exact List.lt_irrefl q.1 hlt

end Datum

end OpsSysd.Ovsrec
