import OpsSysd.OvsdbRun
import OpsSysd.PackageInfo

/-!
The loader writes to the package list only, and it returns with its transaction
committed and destroyed, whatever the parser yields.
-/

namespace OpsSysd.PackageInfo

open CString Ovsdb Ovsrec

def packageFootprint : Footprint schema where
  tables := fun k => k = .packageInfo
  columns := fun c => c.table = .packageInfo
  table_of := fun _ h => h

section Steps

theorem steps_fill (l : Loader) (c : Column) (v : c.type.Value) (hc : c.table = .packageInfo) :
    Steps packageFootprint (fill l c v) :=
  (Steps.deref _).bind (fun _ => Steps.txnWrite hc)

theorem steps_commitAndDestroy : Steps packageFootprint commitAndDestroy :=
  Steps.txnCommitBlock.bind (fun _ => Steps.txnDestroy)

theorem steps_beginPackage (l : Loader) (name : CStr) :
    Steps packageFootprint (beginPackage l name) := by
  refine (Steps.ite Steps.txnCreate (Steps.pure _)).bind (fun _ => ?_)
  have hinsert : Steps packageFootprint (@txnInsert schema .packageInfo) := Steps.txnInsert rfl
  refine hinsert.bind (fun row => ?_)
  have hname : Steps packageFootprint (setCol row .packageInfoName (some name)) :=
    Steps.txnWrite rfl
  exact hname.bind (fun _ => Steps.pure _)

theorem steps_endPackage (l : Loader) (type : CStr) :
    Steps packageFootprint (endPackage l type) := by
  refine (steps_fill l .packageInfoSrcType _ rfl).bind (fun _ => Steps.ite ?_ (Steps.pure _))
  exact steps_commitAndDestroy.bind (fun _ => Steps.pure _)

theorem steps_onScalar (l : Loader) (v : CStr) : Steps packageFootprint (onScalar l v) := by
  unfold onScalar
  cases packageInfoMappingCheckKey v with
  | value =>
    unfold onValue
    cases hstate : l.currentState with
    | value => exact Steps.pure _
    | pkg => exact steps_beginPackage l v
    | pv => exact (steps_fill l .packageInfoVersion _ rfl).bind (fun _ => Steps.pure _)
    | srcrev =>
      refine Steps.ite (Steps.pure _) ?_
      exact (steps_fill l .packageInfoVersion _ rfl).bind (fun _ => Steps.pure _)
    | srcUrl => exact (steps_fill l .packageInfoSrcUrl _ rfl).bind (fun _ => Steps.pure _)
    | type => exact steps_endPackage l v
  | _ => exact Steps.pure _

theorem steps_loop (events : List YamlEvent) (l : Loader) :
    Steps packageFootprint (loop events l) := by
  induction events generalizing l with
  | nil => exact Steps.pure _
  | cons event rest ih =>
    cases event with
    | scalar v => exact (steps_onScalar l v).bind ih
    | streamEnd => exact Steps.pure _
    | other => exact ih l

theorem steps_sysdAddPackageInfo (versionDetail : Option (List YamlEvent)) :
    Steps packageFootprint (sysdAddPackageInfo versionDetail) := by
  cases versionDetail with
  | none => exact Steps.pure _
  | some events =>
    refine (steps_loop events .start).bind (fun l => ?_)
    exact Steps.ite steps_commitAndDestroy (Steps.pure _)

end Steps

/-- The local transaction pointer is set while a transaction is open, and every
transaction before it has been committed. -/
def InStep (l : Loader) (s : Idl schema) : Prop :=
  if l.txn = true then (∃ t, s.txn = .opened t) ∧ s.created = s.finished.length + 1
  else Settled s

section InStep

variable {l l' : Loader} {s s' : Idl schema}

theorem inStep_write {u : Uuid} {c : Column} {v : c.type.Value} (h : InStep l s)
    (hrun : setCol u c v s = .ok ((), s')) : InStep l s' := by
  rcases txnWrite_ok hrun with rfl | ⟨t, ht, rfl⟩
  · exact h
  · unfold InStep at h ⊢
    split_ifs at h ⊢ with htxn
    · exact ⟨⟨_, rfl⟩, h.2⟩
    · rw [h.txn] at ht
      cases ht

theorem inStep_fill {c : Column} {v : c.type.Value} (h : InStep l s)
    (hrun : fill l c v s = .ok ((), s')) : InStep l s' := by
  obtain ⟨u, t, hderef, hset⟩ := bind_eq_ok hrun
  rw [(deref_ok hderef).2] at hset
  exact inStep_write h hset

theorem inStep_commitAndDestroy (h : InStep l s)
    (hrun : commitAndDestroy s = .ok ((), s')) : Settled s' := by
  obtain ⟨status, s₁, hcommit, hdestroy⟩ := bind_eq_ok hrun
  obtain ⟨t, ht, _, rfl⟩ := txnCommitBlock_ok hcommit
  obtain ⟨f, hf, _⟩ := s.commit_finished t
  unfold InStep at h
  split_ifs at h
  · rw [txnDestroy_ok hdestroy]
    refine ⟨rfl, ?_⟩
    simp only [hf, List.length_append, List.length_singleton, Idl.commit_created, h.2]
  · rw [h.txn] at ht
    cases ht

theorem inStep_beginPackage {name : CStr} (h : InStep l s)
    (hrun : beginPackage l name s = .ok (l', s')) : InStep l' s' := by
  obtain ⟨_, s₁, hcreate, hrest⟩ := bind_eq_ok hrun
  obtain ⟨row, s₂, hinsert, hrest⟩ := bind_eq_ok hrest
  obtain ⟨_, s₃, hname, hpure⟩ := bind_eq_ok hrest
  cases hpure
  obtain ⟨t, ht, _, rfl⟩ := txnInsert_ok hinsert
  refine inStep_write ?_ hname
  unfold InStep
  rw [if_pos rfl]
  refine ⟨⟨_, rfl⟩, ?_⟩
  show s₁.created = s₁.finished.length + 1
  unfold createAtMultiple at hcreate
  unfold InStep at h
  split_ifs at hcreate
  · obtain ⟨hnone, rfl⟩ := txnCreate_ok hcreate
    split_ifs at h
    · obtain ⟨⟨t', ht'⟩, _⟩ := h
      rw [hnone] at ht'
      cases ht'
    · simp [h.created]
  · cases hcreate
    split_ifs at h
    · exact h.2
    · rw [h.txn] at ht
      cases ht

theorem inStep_endPackage {type : CStr} (h : InStep l s)
    (hrun : endPackage l type s = .ok (l', s')) : InStep l' s' := by
  obtain ⟨_, s₁, hfill, hrest⟩ := bind_eq_ok hrun
  have h₁ := inStep_fill h hfill
  split_ifs at hrest
  · obtain ⟨_, s₂, hcommit, hpure⟩ := bind_eq_ok hrest
    cases hpure
    exact inStep_commitAndDestroy h₁ hcommit
  · cases hrest
    exact h₁

theorem inStep_onScalar {v : CStr} (h : InStep l s) (hrun : onScalar l v s = .ok (l', s')) :
    InStep l' s' := by
  have hfill : ∀ c w, (do fill l c w; return l : OvsM Loader) s = .ok (l', s') →
      InStep l' s' := by
    intro c w hrun
    obtain ⟨_, s₁, hfill, hpure⟩ := bind_eq_ok hrun
    cases hpure
    exact inStep_fill h hfill
  unfold onScalar at hrun
  cases hkey : packageInfoMappingCheckKey v with
  | value =>
    rw [hkey] at hrun
    unfold onValue at hrun
    cases hstate : l.currentState with
    | value =>
      simp only [hstate] at hrun
      cases hrun
      exact h
    | pkg =>
      simp only [hstate] at hrun
      exact inStep_beginPackage h hrun
    | pv =>
      simp only [hstate] at hrun
      exact hfill _ _ hrun
    | srcrev =>
      simp only [hstate] at hrun
      split_ifs at hrun
      · cases hrun
        exact h
      · exact hfill _ _ hrun
    | srcUrl =>
      simp only [hstate] at hrun
      exact hfill _ _ hrun
    | type =>
      simp only [hstate] at hrun
      exact inStep_endPackage h hrun
  | _ =>
    rw [hkey] at hrun
    cases hrun
    exact h

theorem inStep_loop {events : List YamlEvent} (h : InStep l s)
    (hrun : loop events l s = .ok (l', s')) : InStep l' s' := by
  induction events generalizing l s with
  | nil =>
    cases hrun
    exact h
  | cons event rest ih =>
    cases event with
    | scalar v =>
      obtain ⟨l₁, s₁, hscalar, hrest⟩ := bind_eq_ok hrun
      exact ih (inStep_onScalar h hscalar) hrest
    | streamEnd =>
      cases hrun
      exact h
    | other => exact ih h hrun

/-- The loader leaves no transaction behind, whatever the parser yields. -/
theorem settled_sysdAddPackageInfo {versionDetail : Option (List YamlEvent)} (h : Settled s)
    (hrun : sysdAddPackageInfo versionDetail s = .ok ((), s')) : Settled s' := by
  cases versionDetail with
  | none =>
    cases hrun
    exact h
  | some events =>
    obtain ⟨l, s₁, hloop, hend⟩ := bind_eq_ok hrun
    have hstep : InStep l s₁ := inStep_loop (by exact h) hloop
    split_ifs at hend with htxn
    · exact inStep_commitAndDestroy hstep hend
    · cases hend
      unfold InStep at hstep
      rwa [if_neg htxn] at hstep

end InStep

end OpsSysd.PackageInfo
