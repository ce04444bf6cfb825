import OpsSysd.Manifest
import Mathlib.Data.List.Perm.Basic
import Mathlib.Logic.Relation

/-!
The daemons array after a manifest has been read, beside the entries that
exact comparison of the keys selects, and what another enumeration order of
the hash tables changes in either.
-/

namespace OpsSysd.Manifest

open CString

def Json.members : Json → Members
  | .object ms => ms
  | _ => []

/-- Hash tables have distinct keys, at every level of the tree. -/
inductive KeysNodup : Json → Prop
  | leaf {j : Json} (hobject : ∀ ms, j ≠ .object ms) (harray : ∀ es, j ≠ .array es) : KeysNodup j
  | object {ms : Members} (hkeys : (ms.map Prod.fst).Nodup)
      (hvalues : ∀ m ∈ ms, KeysNodup m.2) : KeysNodup (.object ms)
  | array {es : List Json} (helems : ∀ e ∈ es, KeysNodup e) : KeysNodup (.array es)

/-- A parsed JSON value. -/
structure JsonTree where
  json : Json
  keysNodup : KeysNodup json

/-- One change of an enumeration order, anywhere in the tree. -/
inductive SwapStep : Json → Json → Prop
  | members {ms ms' : Members} (h : ms.Perm ms') : SwapStep (.object ms) (.object ms')
  | member {pre post : Members} {name : CStr} {v v' : Json} (h : SwapStep v v') :
      SwapStep (.object (pre ++ (name, v) :: post)) (.object (pre ++ (name, v') :: post))
  | elem {pre post : List Json} {v v' : Json} (h : SwapStep v v') :
      SwapStep (.array (pre ++ v :: post)) (.array (pre ++ v' :: post))

/-- The same tree with its members enumerated in other orders. -/
def Reordered : Json → Json → Prop := Relation.ReflTransGen SwapStep

/-- Exact comparison with the tags. -/
def exactTag (name : CStr) : Option Tag :=
  if name = daemonsTag then some .daemons
  else if name = mgmtIntfTag then some .mgmtIntf
  else none

/-- The member's own key decides, whatever else the object holds. -/
def holdsHwHandler (attrs : Members) : Bool :=
  attrs.any (fun a => a.1 == hwHandlerTag && a.2.isTrue)

def expectedEntry (m : CStr × Json) : DaemonInfo where
  name := m.1
  isHwHandler := holdsHwHandler m.2.members
  curHw := if m.1 = nameInDaemonTable then 1 else 0

/-- One entry for each member of each object stored under exactly "daemons"
that is reached without entering a "daemons" or "mgmt_intf" object. -/
def expectedDaemons (j : Json) : List DaemonInfo :=
  (tested exactTag j).flatMap
    (fun m => if exactTag m.1 = some .daemons then m.2.map expectedEntry else [])

/-- What the manifest's reader must leave in the globals. -/
structure ReadsExactly (j : Json) (g : Globals) : Prop where
  daemons_perm : g.daemons.Perm (expectedDaemons j)
  numDaemons_eq : g.numDaemons = (expectedDaemons j).length
  numHwDaemons_eq : g.numHwDaemons = (expectedDaemons j).countP (·.isHwHandler)
  terminated : ∀ d ∈ g.daemons, d.name.length < maxDaemonNameLen

/-- Every accepted enumeration of the tree is read exactly. -/
def DaemonsExact (t : JsonTree) : Prop :=
  (∀ d ∈ expectedDaemons t.json, d.name.length < maxDaemonNameLen) →
    ∀ j g, Reordered t.json j → sysdReadManifestFile (some j) = .ok g → ReadsExactly t.json g

section Reading

def entryOf (m : CStr × Json) : DaemonInfo := daemonEntry m.1 m.2.members

theorem sysdProcessDaemons_ok {ms : Members} {g g' : Globals}
    (h : sysdProcessDaemons ms g = .ok g') :
    g' = { g with
      daemons := g.daemons ++ ms.map entryOf
      numDaemons := g.numDaemons + ms.length } := by
  induction ms generalizing g with
  | nil =>
    simp only [sysdProcessDaemons, Except.ok.injEq] at h
    simp [← h]
  | cons m rest ih =>
    obtain ⟨name, jp⟩ := m
    cases jp with
    | object attrs =>
      have hrest := ih h
      simp only [hrest, List.map_cons, List.append_assoc, List.singleton_append,
        List.length_cons, entryOf, Json.members]
      congr 1
      omega
    | _ => simp [sysdProcessDaemons] at h

theorem checkMgmtIntfPresent_ok {g g' : Globals} (h : checkMgmtIntfPresent g = .ok g') :
    g' = g ∧ g.isMgmtIntfPresent = true := by
  unfold checkMgmtIntfPresent at h
  split at h
  · rename_i hp
    cases h
    exact ⟨rfl, hp⟩
  · cases h

theorem sysdProcessMgmtIntf_daemons {ms : Members} {g g' : Globals}
    (h : sysdProcessMgmtIntf ms g = .ok g') :
    g'.daemons = g.daemons ∧ g'.numDaemons = g.numDaemons := by
  induction ms with
  | nil =>
    obtain ⟨rfl, _⟩ := checkMgmtIntfPresent_ok h
    exact ⟨rfl, rfl⟩
  | cons m rest ih =>
    obtain ⟨name, jp⟩ := m
    simp only [sysdProcessMgmtIntf] at h
    split at h
    · obtain ⟨rfl, _⟩ := checkMgmtIntfPresent_ok h
      cases jp <;> exact ⟨rfl, rfl⟩
    · exact ih h

def foundEntries : Tag × Members → List DaemonInfo
  | (.daemons, ms) => ms.map entryOf
  | (.mgmtIntf, _) => []

theorem processFound_ok {g g' : Globals} {m : Tag × Members} (h : processFound g m = .ok g') :
    g'.daemons = g.daemons ++ foundEntries m ∧
      g'.numDaemons = g.numDaemons + (foundEntries m).length := by
  obtain ⟨t, ms⟩ := m
  cases t with
  | daemons =>
    have hg := sysdProcessDaemons_ok h
    subst hg
    simp [foundEntries]
  | mgmtIntf =>
    obtain ⟨hd, hn⟩ := sysdProcessMgmtIntf_daemons h
    simp [foundEntries, hd, hn]

theorem foldlM_processFound_ok {l : List (Tag × Members)} {g g' : Globals}
    (h : l.foldlM processFound g = .ok g') :
    g'.daemons = g.daemons ++ l.flatMap foundEntries ∧
      g'.numDaemons = g.numDaemons + (l.flatMap foundEntries).length := by
  induction l generalizing g with
  | nil =>
    cases h
    simp
  | cons m rest ih =>
    rw [List.foldlM_cons] at h
    cases hm : processFound g m with
    | error f => simp [hm, bind, Except.bind] at h
    | ok g₁ =>
      rw [hm] at h
      obtain ⟨hd, hn⟩ := ih h
      obtain ⟨hd₁, hn₁⟩ := processFound_ok hm
      constructor
      · rw [hd, hd₁, List.flatMap_cons, List.append_assoc]
      · rw [hn, hn₁, List.flatMap_cons, List.length_append]
        omega

/-- An accepted file is an object or an array, read from empty globals. -/
theorem sysdReadManifestFile_ok {file : Option Json} {g : Globals}
    (h : sysdReadManifestFile file = .ok g) :
    ∃ j g₀, file = some j ∧ (announced comparedTag j).foldlM processFound .empty = .ok g₀ ∧
      g = sysdSetNumHwDaemons g₀ := by
  cases file with
  | none => cases h
  | some j =>
    cases j with
    | object ms =>
      simp only [sysdReadManifestFile, sysdProcessJson_eq_foldlM] at h
      cases hf : (announced comparedTag (.object ms)).foldlM processFound .empty with
      | error f => simp [hf, bind, Except.bind] at h
      | ok g₀ =>
        rw [hf] at h
        cases h
        exact ⟨_, g₀, rfl, hf, rfl⟩
    | array es =>
      simp only [sysdReadManifestFile, sysdProcessJson_eq_foldlM] at h
      cases hf : (announced comparedTag (.array es)).foldlM processFound .empty with
      | error f => simp [hf, bind, Except.bind] at h
      | ok g₀ =>
        rw [hf] at h
        cases h
        exact ⟨_, g₀, rfl, hf, rfl⟩
    | _ => cases h

/-- The entries that prefix comparison selects. -/
def comparedDaemons (j : Json) : List DaemonInfo :=
  (announced comparedTag j).flatMap foundEntries

theorem sysdReadManifestFile_daemons {j : Json} {g : Globals}
    (h : sysdReadManifestFile (some j) = .ok g) :
    g.daemons = comparedDaemons j ∧ g.numDaemons = (comparedDaemons j).length ∧
      g.numHwDaemons = (comparedDaemons j).countP (·.isHwHandler) := by
  obtain ⟨j', g₀, hj, hf, rfl⟩ := sysdReadManifestFile_ok h
  cases hj
  obtain ⟨hd, hn⟩ := foldlM_processFound_ok hf
  have hd₀ : g₀.daemons = comparedDaemons j := hd
  have hn₀ : g₀.numDaemons = (comparedDaemons j).length := by rw [hn]; exact Nat.zero_add _
  refine ⟨hd₀, hn₀, ?_⟩
  simp [sysdSetNumHwDaemons, hd₀, hn₀]

theorem counted_of_ok {file : Option Json} {g : Globals} (h : sysdReadManifestFile file = .ok g) :
    g.Counted := by
  cases file with
  | none => cases h
  | some j =>
    obtain ⟨hd, hn, hw⟩ := sysdReadManifestFile_daemons h
    exact ⟨by rw [hn, hd], by rw [hw, hd]⟩

end Reading

section Tree

/-- Induction over a tree with the hypothesis for every member or element. -/
theorem Json.induct {P : Json → Prop}
    (object : ∀ ms : Members, (∀ m ∈ ms, P m.2) → P (.object ms))
    (array : ∀ es : List Json, (∀ e ∈ es, P e) → P (.array es))
    (leaf : ∀ j : Json, (∀ ms, j ≠ .object ms) → (∀ es, j ≠ .array es) → P j) (j : Json) : P j := by
  refine Json.rec (motive_1 := P) (motive_2 := fun ms => ∀ m ∈ ms, P m.2)
    (motive_3 := fun es => ∀ e ∈ es, P e) (motive_4 := fun m => P m.2)
    ?_ ?_ ?_ ?_ ?_ ?_ (fun ms h => object ms h) (fun es h => array es h)
    (by simp) (fun _ _ h hms => List.forall_mem_cons.mpr ⟨h, hms⟩)
    (by simp) (fun _ _ h hes => List.forall_mem_cons.mpr ⟨h, hes⟩) (fun _ _ h => h) j
  all_goals intros; exact leaf _ (by simp) (by simp)

/-- What one member of an object contributes to the tested members. -/
def testedMember (tag : CStr → Option Tag) (m : CStr × Json) : List (CStr × Members) :=
  match m.2 with
  | .object inner => (m.1, inner) :: if tag m.1 = none then tested tag (.object inner) else []
  | .array es => tested tag (.array es)
  | _ => []

theorem testedMembers_eq_flatMap (tag : CStr → Option Tag) (ms : Members) :
    testedMembers tag ms = ms.flatMap (testedMember tag) := by
  induction ms with
  | nil => rfl
  | cons m rest ih =>
    obtain ⟨name, jp⟩ := m
    cases jp <;> simp [testedMembers, testedMember, ih]

theorem testedElems_eq_flatMap (tag : CStr → Option Tag) (es : List Json) :
    testedElems tag es = es.flatMap (tested tag) := by
  induction es with
  | nil => rfl
  | cons e rest ih => simp [testedElems, ih]

theorem tested_object (tag : CStr → Option Tag) (ms : Members) :
    tested tag (.object ms) = ms.flatMap (testedMember tag) := by
  rw [tested, testedMembers_eq_flatMap]

theorem tested_array (tag : CStr → Option Tag) (es : List Json) :
    tested tag (.array es) = es.flatMap (tested tag) := by
  rw [tested, testedElems_eq_flatMap]

theorem tested_leaf (tag : CStr → Option Tag) {j : Json} (hobject : ∀ ms, j ≠ .object ms)
    (harray : ∀ es, j ≠ .array es) : tested tag j = [] := by
  cases j with
  | object ms => exact absurd rfl (hobject ms)
  | array es => exact absurd rfl (harray es)
  | _ => rfl

end Tree

section Order

/-- A reordered value is an object when the other is, an array when the other is. -/
theorem SwapStep.shape {v v' : Json} (h : SwapStep v v') :
    (∃ ms ms', v = .object ms ∧ v' = .object ms') ∨
      (∃ es es', v = .array es ∧ v' = .array es') := by
  cases h with
  | members h => exact Or.inl ⟨_, _, rfl, rfl⟩
  | member h => exact Or.inl ⟨_, _, rfl, rfl⟩
  | elem h => exact Or.inr ⟨_, _, rfl, rfl⟩

theorem SwapStep.isTrue_eq {v v' : Json} (h : SwapStep v v') : v.isTrue = v'.isTrue := by
  rcases h.shape with ⟨ms, ms', rfl, rfl⟩ | ⟨es, es', rfl, rfl⟩ <;> rfl

theorem SwapStep.holdsHwHandler_eq {v v' : Json} (h : SwapStep v v') :
    holdsHwHandler v.members = holdsHwHandler v'.members := by
  cases h with
  | members h => exact h.any_eq
  | member h => simp [Json.members, holdsHwHandler, h.isTrue_eq]
  | elem h => rfl

theorem SwapStep.expectedEntry_eq {v v' : Json} (h : SwapStep v v') (name : CStr) :
    expectedEntry (name, v) = expectedEntry (name, v') := by
  simp only [expectedEntry, h.holdsHwHandler_eq]

theorem SwapStep.entries_perm {v v' : Json} (h : SwapStep v v') :
    (v.members.map expectedEntry).Perm (v'.members.map expectedEntry) := by
  cases h with
  | members h => exact h.map _
  | @member pre post name v v' h =>
    simp only [Json.members, List.map_append, List.map_cons, h.expectedEntry_eq name]
    exact List.Perm.refl _
  | elem h => exact List.Perm.refl _

theorem expectedDaemons_object (ms : Members) :
    expectedDaemons (.object ms) = ms.flatMap (fun m =>
      (if exactTag m.1 = some .daemons then m.2.members.map expectedEntry else []) ++
        match m.2 with
        | .object inner => if exactTag m.1 = none then expectedDaemons (.object inner) else []
        | v => expectedDaemons v) := by
  unfold expectedDaemons
  rw [tested_object, List.flatMap_assoc]
  apply List.flatMap_congr
  rintro ⟨name, v⟩ hm
  cases v with
  | object inner =>
    by_cases hnone : exactTag name = none <;> simp [testedMember, hnone, Json.members]
  | _ => simp [testedMember, Json.members, tested]

theorem SwapStep.expectedDaemons_perm {j j' : Json} (h : SwapStep j j') :
    (expectedDaemons j).Perm (expectedDaemons j') := by
  induction h with
  | members h =>
    rw [expectedDaemons_object, expectedDaemons_object]
    exact h.flatMap_right _
  | @member pre post name v v' h ih =>
    rw [expectedDaemons_object, expectedDaemons_object, List.flatMap_append, List.flatMap_append,
      List.flatMap_cons, List.flatMap_cons]
    refine List.Perm.append_left _ (List.Perm.append_right _ (List.Perm.append ?_ ?_))
    · split
      · exact h.entries_perm
      · exact List.Perm.refl _
    · rcases h.shape with ⟨ms, ms', rfl, rfl⟩ | ⟨es, es', rfl, rfl⟩
      · by_cases hnone : exactTag name = none
        · simpa [hnone] using ih
        · simp [hnone]
      · simpa using ih
  | @elem pre post v v' h ih =>
    unfold expectedDaemons at ih ⊢
    simp only [tested_array, List.flatMap_append, List.flatMap_cons]
    exact List.Perm.append_left _ (List.Perm.append_right _ ih)

/-- A tested member of the reordered tree was tested before, up to its order. -/
theorem SwapStep.tested {tag : CStr → Option Tag} {j j' : Json} (h : SwapStep j j') :
    ∀ x ∈ tested tag j', ∃ ms, (x.1, ms) ∈ Manifest.tested tag j ∧
      (ms = x.2 ∨ SwapStep (.object ms) (.object x.2)) := by
  induction h with
  | members h =>
    intro x hx
    rw [tested_object] at hx
    obtain ⟨m, hm, hx⟩ := List.mem_flatMap.mp hx
    refine ⟨x.2, ?_, Or.inl rfl⟩
    rw [tested_object]
    exact List.mem_flatMap.mpr ⟨m, h.mem_iff.mpr hm, hx⟩
  | @member pre post name v v' h ih =>
    intro x hx
    rw [tested_object, List.flatMap_append, List.flatMap_cons] at hx
    simp only [tested_object, List.flatMap_append, List.flatMap_cons, List.mem_append]
    rcases List.mem_append.mp hx with hpre | hx
    · exact ⟨x.2, Or.inl hpre, Or.inl rfl⟩
    · rcases List.mem_append.mp hx with hv | hpost
      · rcases h.shape with ⟨ms, ms', rfl, rfl⟩ | ⟨es, es', rfl, rfl⟩
        · simp only [testedMember, List.mem_cons] at hv
          rcases hv with rfl | hv
          · exact ⟨ms, Or.inr (Or.inl List.mem_cons_self), Or.inr h⟩
          · split at hv
            · rename_i hnone
              obtain ⟨inner, hinner, hrel⟩ := ih x hv
              refine ⟨inner, Or.inr (Or.inl ?_), hrel⟩
              simp only [testedMember, if_pos hnone]
              exact List.mem_cons_of_mem _ hinner
            · cases hv
        · obtain ⟨inner, hinner, hrel⟩ := ih x hv
          exact ⟨inner, Or.inr (Or.inl hinner), hrel⟩
      · exact ⟨x.2, Or.inr (Or.inr hpost), Or.inl rfl⟩
  | @elem pre post v v' h ih =>
    intro x hx
    rw [tested_array, List.flatMap_append, List.flatMap_cons] at hx
    simp only [tested_array, List.flatMap_append, List.flatMap_cons, List.mem_append]
    rcases List.mem_append.mp hx with hpre | hx
    · exact ⟨x.2, Or.inl hpre, Or.inl rfl⟩
    · rcases List.mem_append.mp hx with hv | hpost
      · obtain ⟨inner, hinner, hrel⟩ := ih x hv
        exact ⟨inner, Or.inr (Or.inl hinner), hrel⟩
      · exact ⟨x.2, Or.inr (Or.inr hpost), Or.inl rfl⟩

end Order

/-- A manifest with one hardware daemon of the given name and a management
interface. -/
def oneDaemonManifest (name : CStr) : JsonTree where
  json := .object [
    (daemonsTag, .object [(name, .object [(hwHandlerTag, .true)])]),
    (mgmtIntfTag, .object [(mgmtIntfNameTag, .string (cstr "eth0"))])]
  keysNodup := by
    have hleaf : KeysNodup .true := .leaf (by simp) (by simp)
    have hstring : ∀ s, KeysNodup (.string s) := fun s => .leaf (by simp) (by simp)
    refine .object (show [daemonsTag, mgmtIntfTag].Nodup by decide) ?_
    simp only [List.forall_mem_cons, List.not_mem_nil, false_implies, implies_true, and_true]
    refine ⟨.object (by simp) ?_, .object (by simp) (by simpa using hstring _)⟩
    simpa using @KeysNodup.object [(hwHandlerTag, .true)] (by simp) (by simpa using hleaf)

end OpsSysd.Manifest
