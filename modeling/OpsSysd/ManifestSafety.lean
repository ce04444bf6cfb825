import OpsSysd.ManifestMgmtIntf

/-!
What reading a manifest copies on the way, whatever the outcome. The name of a
daemon is copied before the value under it is taken for an object, and that of
the management interface into a block requested with a size of zero; both have
their own length as the bound of the copy.
-/

namespace OpsSysd.Manifest

open CString

/-- The names that `sysdProcessDaemons` copies; at a value that is no object it
stops after the copy. -/
def daemonNamesStored : Members → List CStr
  | [] => []
  | (name, .object _) :: rest => name :: daemonNamesStored rest
  | (name, _) :: _ => [name]

/-- The name that `sysdProcessMgmtIntf` copies. -/
def intfNameStored (ms : Members) : List CStr :=
  match intfMember ms with
  | some (.string s) => [s]
  | _ => []

def daemonNamesCopied : Tag × Members → List CStr
  | (.daemons, ms) => daemonNamesStored ms
  | (.mgmtIntf, _) => []

def intfNamesCopied : Tag × Members → List CStr
  | (.daemons, _) => []
  | (.mgmtIntf, ms) => intfNameStored ms

/-- The names that the loop over the announced objects copies until it stops. -/
def namesStored (copied : Tag × Members → List CStr) : List (Tag × Members) → Globals → List CStr
  | [], _ => []
  | m :: rest, g =>
    copied m ++
      match processFound g m with
      | .ok g' => namesStored copied rest g'
      | .error _ => []

/-- The name and its terminator lie inside the array. -/
def NameHeld (name : CStr) : Prop := name.length + 1 ≤ maxDaemonNameLen

instance (name : CStr) : Decidable (NameHeld name) := inferInstanceAs (Decidable (_ ≤ _))

/-- Every name fits the array or, with `block` bytes for a request of none, the block that
it is copied to. -/
structure CopiesFit (block : ℕ) (j : Json) : Prop where
  daemons : ∀ name ∈ namesStored daemonNamesCopied (announced comparedTag j) .empty, NameHeld name
  interfaces : ∀ name ∈ namesStored intfNamesCopied (announced comparedTag j) .empty,
    name.length ≤ block

instance (block : ℕ) (j : Json) : Decidable (CopiesFit block j) :=
  decidable_of_iff ((∀ name ∈ namesStored daemonNamesCopied (announced comparedTag j) .empty,
      NameHeld name) ∧ ∀ name ∈ namesStored intfNamesCopied (announced comparedTag j) .empty,
        name.length ≤ block) ⟨fun h => ⟨h.1, h.2⟩, fun h => ⟨h.daemons, h.interfaces⟩⟩

theorem daemonNamesStored_of_objects {ms : Members} (h : ∀ x ∈ ms, x.2.isObject = true) :
    daemonNamesStored ms = ms.map Prod.fst := by
  induction ms with
  | nil => rfl
  | cons m rest ih =>
    obtain ⟨name, jp⟩ := m
    rw [List.forall_mem_cons] at h
    cases jp with
    | object attrs => rw [daemonNamesStored, ih h.2, List.map_cons]
    | _ => cases h.1

theorem mem_daemonNamesStored {ms : Members} {name : CStr} (h : name ∈ daemonNamesStored ms) :
    ∃ x ∈ ms, x.1 = name := by
  induction ms with
  | nil => cases h
  | cons m rest ih =>
    obtain ⟨key, jp⟩ := m
    cases jp with
    | object attrs =>
      rcases List.mem_cons.mp h with rfl | h
      · exact ⟨_, List.mem_cons_self, rfl⟩
      · obtain ⟨x, hx, hname⟩ := ih h
        exact ⟨x, List.mem_cons_of_mem _ hx, hname⟩
    | _ => exact ⟨_, List.mem_cons_self, (List.mem_singleton.mp h).symm⟩

theorem mem_intfNameStored {ms : Members} {name : CStr} :
    name ∈ intfNameStored ms ↔ intfMember ms = some (.string name) := by
  unfold intfNameStored
  cases intfMember ms with
  | none => simp
  | some jp => cases jp <;> simp [eq_comm]

section Stored

variable {copied : Tag × Members → List CStr} {l : List (Tag × Members)} {g g' : Globals}

theorem namesStored_append (copied : Tag × Members → List CStr) (rest : List (Tag × Members))
    (h : l.foldlM processFound g = .ok g') :
    namesStored copied (l ++ rest) g = namesStored copied l g ++ namesStored copied rest g' := by
  induction l generalizing g with
  | nil =>
    cases h
    rfl
  | cons m l ih =>
    rw [foldlM_processFound_cons] at h
    cases hm : processFound g m with
    | error f => simp [hm] at h
    | ok g₁ =>
      rw [hm] at h
      simp only [List.cons_append, namesStored, hm, ih h, List.append_assoc]

theorem firstIntfMissing_append {pre : List (Tag × Members)} (post : List (Tag × Members))
    (h : FirstIntfMissing pre) : FirstIntfMissing (pre ++ post) := by
  obtain ⟨before, ms, after, rfl, hbefore, hobj, hms⟩ := h
  exact ⟨before, ms, after ++ post, by simp, hbefore, hobj, hms⟩

/-- A stored name is copied at an object before which nothing is missing. -/
theorem mem_namesStored {name : CStr} (h : name ∈ namesStored copied l g) :
    ∃ pre m post, l = pre ++ m :: post ∧
      (g.isMgmtIntfPresent = false → ¬ FirstIntfMissing pre) ∧ name ∈ copied m := by
  induction l generalizing g with
  | nil => cases h
  | cons m rest ih =>
    obtain ⟨t, ms⟩ := m
    rw [namesStored, List.mem_append] at h
    rcases h with hcopied | hlater
    · exact ⟨[], (t, ms), rest, rfl, fun _ ⟨pre, _, _, heq, _⟩ => by simp at heq, hcopied⟩
    · cases hm : processFound g (t, ms) with
      | error f => simp [hm] at hlater
      | ok g₁ =>
        rw [hm] at hlater
        obtain ⟨pre, m', post, rfl, hpre, hname⟩ := ih hlater
        refine ⟨(t, ms) :: pre, m', post, rfl, fun hp => ?_, hname⟩
        cases t with
        | mgmtIntf =>
          rw [firstIntfMissing_cons_mgmtIntf, not_not]
          rcases sysdProcessMgmtIntf_cases ms g with ⟨_, _, _, hor⟩ | ⟨herr, _, _⟩
          · exact hor.resolve_left (by simp [hp])
          · simp [processFound, herr] at hm
        | daemons =>
          rcases sysdProcessDaemons_cases ms g with ⟨g', hok, hpresent, hobj⟩ | ⟨herr, _⟩
          · rw [firstIntfMissing_cons_daemons hobj]
            have hg : g₁ = g' := Except.ok.inj (hm.symm.trans hok)
            exact hpre (by rw [hg, hpresent, hp])
          · simp [processFound, herr] at hm

end Stored

/-- Reading ends with 0 or -1, what it copies fits, and a key that does not fit
is rejected. -/
structure ManifestSafe (block : ℕ) (j : Json) : Prop where
  returns : sysdProcessJson j .empty ≠ .error .notAnObject
  copies : CopiesFit block j
  rejects : ∀ ms, (Tag.daemons, ms) ∈ announced comparedTag j → ∀ x ∈ ms, ¬ NameHeld x.1 →
    sysdProcessJson j .empty = .error .rejected

/-- Every daemons object that is reached holds objects only, under keys shorter
than the array, and every interface that is reached has a name that fits the block. -/
structure ManifestSound (block : ℕ) (j : Json) : Prop where
  daemons : ∀ pre ms post, announced comparedTag j = pre ++ (.daemons, ms) :: post →
    ¬ FirstIntfMissing pre → ∀ x ∈ ms, x.2.isObject = true ∧ x.1.length < maxDaemonNameLen
  interfaces : ∀ pre ms post, announced comparedTag j = pre ++ (.mgmtIntf, ms) :: post →
    ¬ FirstIntfMissing pre → ∀ name, intfMember ms = some (.string name) → name.length ≤ block

section Safe

variable {block : ℕ} {j : Json}

theorem ManifestSound.copies (h : ManifestSound block j) : CopiesFit block j where
  daemons name hname := by
    obtain ⟨pre, ⟨t, ms⟩, post, hl, hpre, hcopied⟩ := mem_namesStored hname
    cases t with
    | mgmtIntf => cases hcopied
    | daemons =>
      obtain ⟨x, hx, rfl⟩ := mem_daemonNamesStored hcopied
      exact (h.daemons pre ms post hl (hpre rfl) x hx).2
  interfaces name hname := by
    obtain ⟨pre, ⟨t, ms⟩, post, hl, hpre, hcopied⟩ := mem_namesStored hname
    cases t with
    | daemons => cases hcopied
    | mgmtIntf => exact h.interfaces pre ms post hl (hpre rfl) name (mem_intfNameStored.mp hcopied)

theorem manifestSafe_of_manifestSound (h : ManifestSound block j) : ManifestSafe block j where
  returns := by
    rw [sysdProcessJson_eq_foldlM]
    intro habort
    obtain ⟨pre, ms, post, hl, _, hpre, x, hx, hx'⟩ :=
      (foldlM_processFound_notAnObject_iff _ _).mp habort
    have hobj := (h.daemons pre ms post hl (hpre rfl) x hx).1
    rw [hx'] at hobj
    cases hobj
  copies := h.copies
  rejects := by
    intro ms hms x hx hlong
    obtain ⟨pre, post, hl⟩ := List.append_of_mem hms
    rw [sysdProcessJson_eq_foldlM, foldlM_processFound_rejected_iff _ rfl, hl]
    by_contra hmissing
    have hpre : ¬ FirstIntfMissing pre := fun hp => hmissing (firstIntfMissing_append _ hp)
    exact hlong (h.daemons pre ms post hl hpre x hx).2

/-- Reading a manifest that is never fatal gets past every object before which nothing is
missing. -/
theorem ManifestSafe.reaches (h : ManifestSafe block j) {pre post : List (Tag × Members)}
    (hl : announced comparedTag j = pre ++ post) (hpre : ¬ FirstIntfMissing pre) :
    ∃ g, pre.foldlM processFound .empty = .ok g ∧
      post.foldlM processFound g ≠ .error .notAnObject ∧
        ∀ copied, namesStored copied (announced comparedTag j) .empty =
          namesStored copied pre .empty ++ namesStored copied post g := by
  have hreturns := h.returns
  rw [sysdProcessJson_eq_foldlM, hl, List.foldlM_append] at hreturns
  cases hfold : pre.foldlM processFound .empty with
  | error f =>
    cases f with
    | rejected => exact absurd ((foldlM_processFound_rejected_iff pre rfl).mp hfold) hpre
    | notAnObject =>
      rw [hfold] at hreturns
      exact absurd rfl hreturns
  | ok g =>
    rw [hfold] at hreturns
    refine ⟨g, rfl, hreturns, fun copied => ?_⟩
    rw [hl, namesStored_append copied post hfold]

theorem manifestSound_of_manifestSafe (h : ManifestSafe block j) : ManifestSound block j where
  daemons pre ms post hl hpre x hx := by
    obtain ⟨g, _, hreturns, hstored⟩ := h.reaches hl hpre
    have hheld := h.copies.daemons
    rw [foldlM_processFound_cons] at hreturns
    rw [hstored] at hheld
    rcases sysdProcessDaemons_cases ms g with ⟨g', _, _, hobj⟩ | ⟨herr, _⟩
    · refine ⟨hobj x hx, hheld x.1 (List.mem_append_right _ ?_)⟩
      rw [namesStored, daemonNamesCopied, daemonNamesStored_of_objects hobj]
      exact List.mem_append_left _ (List.mem_map_of_mem hx)
    · simp [processFound, herr] at hreturns
  interfaces pre ms post hl hpre name hname := by
    obtain ⟨g, _, _, hstored⟩ := h.reaches hl hpre
    have hheld := h.copies.interfaces
    rw [hstored] at hheld
    refine hheld name (List.mem_append_right _ ?_)
    exact List.mem_append_left _ (mem_intfNameStored.mpr hname)

end Safe

/-- A manifest is never fatal exactly when what is reached of it is sound. -/
theorem manifestSafe_iff (block : ℕ) (j : Json) : ManifestSafe block j ↔ ManifestSound block j :=
  ⟨manifestSound_of_manifestSafe, manifestSafe_of_manifestSound⟩

/-- A daemon under which there is no object, one with a name of 128 bytes, and an interface
whose name is longer than a block of 24 bytes. -/
theorem not_manifestSafe_malformed :
    ¬ ManifestSafe 24 (.object [(daemonsTag, .object [(cstr "ops-fand", .true)])]) ∧
      ¬ ManifestSafe 24 (.object [(daemonsTag,
        .object [(List.replicate 128 97, .object [])])]) ∧
      ¬ ManifestSafe 24 (.object [(mgmtIntfTag,
        .object [(mgmtIntfNameTag, .string (List.replicate 25 97))])]) := by
  refine ⟨fun h => h.returns (by decide), fun h => ?_, fun h => ?_⟩
  · have hname := h.copies.daemons (List.replicate 128 97) (by decide)
    exact absurd hname (by simp [NameHeld, maxDaemonNameLen])
  · exact absurd (h.copies.interfaces (List.replicate 25 97) (by decide)) (by decide)

end OpsSysd.Manifest
