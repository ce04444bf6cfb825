import OpsSysd.ManifestMgmtIntf
import Mathlib.Algebra.Order.BigOperators.Group.List

/-!
When the array is exact. The reader takes a key that extends a tag for the tag,
so an accepted manifest is read exactly when its longer keys happen not to
matter: entries under a longer "daemons" key are surplus, expected entries
under a longer key of either kind are missed, and a longer attribute key comes
first in some enumeration order.
-/

namespace OpsSysd.Manifest

open CString

/-- The reader returns 0 on the tree as it is enumerated. -/
def Accepted (j : Json) : Prop :=
  ¬ GivesUp (some j) ∧ ¬ ReachesNonObject (announced comparedTag j)

/-- Some enumeration of the tree is accepted. -/
def Accepts (t : JsonTree) : Prop := ∃ j, Reordered t.json j ∧ Accepted j

/-- No daemon's name properly extends sysd's own, and every attribute key that
begins with the tag has the value that the exact key stands for. -/
def EntriesRight (ms : Members) : Prop :=
  ∀ m ∈ ms, (nameInDaemonTable <+: m.1 → m.1 = nameInDaemonTable) ∧
    ∀ a ∈ m.2.members, hwHandlerTag <+: a.1 → a.2.isTrue = holdsHwHandler m.2.members

/-- A key that properly extends one of the two tags. -/
def LongerKey (name : CStr) : Prop := comparedTag name ≠ none ∧ exactTag name = none

instance : DecidablePred LongerKey := fun name => by
  unfold LongerKey
  infer_instance

/-- Nothing is entered for an object under a longer "daemons" key. -/
def NoSurplus (m : CStr × Members) : Prop := daemonsTag <+: m.1 → m.1 ≠ daemonsTag → m.2 = []

/-- No expected entry lies in an object under a longer key, which is not searched. -/
def NoneMissed (m : CStr × Members) : Prop := LongerKey m.1 → expectedDaemons (.object m.2) = []

structure KeyRight (m : CStr × Members) : Prop where
  entries : m.1 = daemonsTag → EntriesRight m.2
  surplus : NoSurplus m
  missed : NoneMissed m

/-- The longer keys that the reader meets change nothing. -/
def TagsRight (j : Json) : Prop := ∀ m ∈ tested comparedTag j, KeyRight m

instance : DecidablePred EntriesRight := fun ms => by
  unfold EntriesRight
  infer_instance

instance (m : CStr × Members) : Decidable (KeyRight m) :=
  decidable_of_iff
    ((m.1 = daemonsTag → EntriesRight m.2) ∧ (daemonsTag <+: m.1 → m.1 ≠ daemonsTag → m.2 = []) ∧
      (LongerKey m.1 → expectedDaemons (.object m.2) = []))
    ⟨fun h => ⟨h.1, h.2.1, h.2.2⟩, fun h => ⟨h.entries, h.surplus, h.missed⟩⟩

instance : DecidablePred TagsRight := fun j => by
  unfold TagsRight
  infer_instance

/-- Surplus entries and missed entries do not occur together. -/
def OneSided (j : Json) : Prop :=
  (∀ m ∈ tested comparedTag j, NoSurplus m) ∨ (∀ m ∈ tested comparedTag j, NoneMissed m)

theorem accepted_iff (j : Json) : Accepted j ↔ ∃ g, sysdReadManifestFile (some j) = .ok g := by
  rw [Accepted, ← sysdReadManifestFile_rejected_iff, ← sysdReadManifestFile_notAnObject_iff]
  cases sysdReadManifestFile (some j) with
  | ok g => simp
  | error f => cases f <;> simp

section Tags

theorem comparedTag_daemons_iff (name : CStr) :
    comparedTag name = some .daemons ↔ daemonsTag <+: name := by
  rw [← strncmpEq_length_right_iff]
  unfold comparedTag
  split
  · simp_all
  · split <;> simp_all

theorem exactTag_daemons_iff (name : CStr) : exactTag name = some .daemons ↔ name = daemonsTag := by
  unfold exactTag
  split
  · simp_all
  · split <;> simp_all

theorem exactTag_eq_none {name : CStr} (h : comparedTag name = none) : exactTag name = none := by
  unfold comparedTag at h
  unfold exactTag
  split at h
  · cases h
  · rename_i hd
    split at h
    · cases h
    · rename_i hm
      rw [strncmpEq_length_right_iff] at hd hm
      have hned : name ≠ daemonsTag := fun he => hd (he ▸ List.prefix_rfl)
      have hnem : name ≠ mgmtIntfTag := fun he => hm (he ▸ List.prefix_rfl)
      rw [if_neg hned, if_neg hnem]

/-- Exact comparison goes on where a longer key has stopped the search. -/
def goneOn (m : CStr × Members) : List (CStr × Members) :=
  if LongerKey m.1 then tested exactTag (.object m.2) else []

theorem tested_exactTag (j : Json) :
    tested exactTag j = (tested comparedTag j).flatMap (fun m => m :: goneOn m) := by
  induction j using Json.induct with
  | object ms ih =>
    rw [tested_object, tested_object, List.flatMap_assoc]
    apply List.flatMap_congr
    intro m hm
    have ihm := ih m hm
    obtain ⟨name, v⟩ := m
    cases v with
    | object inner =>
      simp only [testedMember, List.flatMap_cons, List.cons_append, List.cons.injEq, true_and]
      by_cases hc : comparedTag name = none
      · simpa [hc, exactTag_eq_none hc, goneOn, LongerKey] using ihm
      · simp [hc, goneOn, LongerKey]
    | array es => exact ihm
    | _ => rfl
  | array es ih =>
    rw [tested_array, tested_array, List.flatMap_assoc]
    exact List.flatMap_congr ih
  | leaf j hobject harray =>
    rw [tested_leaf exactTag hobject harray, tested_leaf comparedTag hobject harray]
    rfl

end Tags

section Shares

/-- The entries the reader takes from one object. -/
def taken (m : CStr × Members) : List DaemonInfo :=
  if daemonsTag <+: m.1 then m.2.map entryOf else []

/-- The expected entries that lie in it. -/
def owed (m : CStr × Members) : List DaemonInfo :=
  (if m.1 = daemonsTag then m.2.map expectedEntry else []) ++
    if LongerKey m.1 then expectedDaemons (.object m.2) else []

theorem comparedDaemons_eq (j : Json) :
    comparedDaemons j = (tested comparedTag j).flatMap taken := by
  unfold comparedDaemons announced
  induction tested comparedTag j with
  | nil => rfl
  | cons m rest ih =>
    rw [List.flatMap_cons, ← ih]
    simp only [taken, ← comparedTag_daemons_iff]
    cases h : comparedTag m.1 with
    | none => simp [h]
    | some t => cases t <;> simp [h, foundEntries]

theorem expectedDaemons_eq (j : Json) :
    expectedDaemons j = (tested comparedTag j).flatMap owed := by
  unfold expectedDaemons
  rw [tested_exactTag, List.flatMap_assoc]
  apply List.flatMap_congr
  intro m _
  simp only [List.flatMap_cons, exactTag_daemons_iff, owed, goneOn]
  congr 1
  split
  · simp only [expectedDaemons, exactTag_daemons_iff]
  · rfl

theorem sysdGetHwHandler_eq {attrs : Members} {flag : Bool} (habsent : holdsHwHandler attrs = flag)
    (hflags : ∀ a ∈ attrs, hwHandlerTag <+: a.1 → a.2.isTrue = flag) :
    sysdGetHwHandler attrs = flag := by
  induction attrs with
  | nil => exact habsent
  | cons a rest ih =>
    obtain ⟨name, v⟩ := a
    simp only [sysdGetHwHandler, strncmpEq_length_right_iff]
    split
    · rename_i hp
      exact hflags (name, v) List.mem_cons_self hp
    · rename_i hp
      have hne : (name == hwHandlerTag) = Bool.false :=
        beq_false_of_ne (fun he => hp (he ▸ List.prefix_rfl))
      refine ih ?_ (fun b hb => hflags b (List.mem_cons_of_mem _ hb))
      simpa [holdsHwHandler, hne] using habsent

theorem entryOf_eq_expectedEntry {m : CStr × Json}
    (hname : nameInDaemonTable <+: m.1 → m.1 = nameInDaemonTable)
    (hflag : sysdGetHwHandler m.2.members = holdsHwHandler m.2.members) :
    entryOf m = expectedEntry m := by
  have hcur : (nameInDaemonTable <+: m.1) = (m.1 = nameInDaemonTable) :=
    propext ⟨hname, fun h => h ▸ List.prefix_rfl⟩
  simp only [entryOf, daemonEntry, expectedEntry, hflag, strncmpEq_length_right_iff, hcur]

theorem taken_eq_owed {m : CStr × Members} (hm : KeyRight m) : taken m = owed m := by
  have hmissed : (if LongerKey m.1 then expectedDaemons (.object m.2) else []) = [] := by
    split
    · rename_i hlonger
      exact hm.missed hlonger
    · rfl
  rw [owed, hmissed, List.append_nil, taken]
  by_cases hname : m.1 = daemonsTag
  · rw [if_pos (hname ▸ List.prefix_rfl), if_pos hname]
    apply List.map_congr_left
    intro x hx
    obtain ⟨hsysd, hattrs⟩ := hm.entries hname x hx
    exact entryOf_eq_expectedEntry hsysd (sysdGetHwHandler_eq rfl hattrs)
  · rw [if_neg hname]
    split
    · rename_i hp
      rw [hm.surplus hp hname, List.map_nil]
    · rfl

end Shares

section Order

theorem SwapStep.symm {j j' : Json} (h : SwapStep j j') : SwapStep j' j := by
  induction h with
  | members h => exact .members h.symm
  | member _ ih => exact .member ih
  | elem _ ih => exact .elem ih

theorem Reordered.symm {j j' : Json} (h : Reordered j j') : Reordered j' j := by
  induction h with
  | refl => exact .refl
  | tail _ hstep ih => exact .head hstep.symm ih

theorem Reordered.expectedDaemons_perm {j j' : Json} (h : Reordered j j') :
    (expectedDaemons j).Perm (expectedDaemons j') := by
  induction h with
  | refl => exact .refl _
  | tail _ hstep ih => exact ih.trans hstep.expectedDaemons_perm

/-- What holds of the tested members, whatever the order inside them, holds of
those of every enumeration. -/
theorem Reordered.forall_tested {tag : CStr → Option Tag} {P : CStr × Members → Prop}
    (hP : ∀ name ms ms', SwapStep (.object ms) (.object ms') → P (name, ms) → P (name, ms'))
    {j j' : Json} (h : Reordered j j') (hj : ∀ m ∈ tested tag j, P m) :
    ∀ m ∈ tested tag j', P m := by
  induction h with
  | refl => exact hj
  | tail _ hstep ih =>
    intro m hm
    obtain ⟨ms, hms, hrel⟩ := hstep.tested m hm
    rcases hrel with rfl | hrel
    · exact ih _ hms
    · exact hP m.1 ms m.2 hrel (ih _ hms)

/-- A member of the reordered object was there before, up to its order. -/
theorem SwapStep.member_before {ms ms' : Members} (h : SwapStep (.object ms) (.object ms'))
    {m : CStr × Json} (hm : m ∈ ms') : ∃ v, (m.1, v) ∈ ms ∧ (v = m.2 ∨ SwapStep v m.2) := by
  cases h with
  | members h => exact ⟨m.2, h.mem_iff.mpr hm, Or.inl rfl⟩
  | @member pre post name v v' h =>
    rcases List.mem_append.mp hm with hpre | hm
    · exact ⟨m.2, List.mem_append_left _ hpre, Or.inl rfl⟩
    · rcases List.mem_cons.mp hm with rfl | hpost
      · exact ⟨v, by simp, Or.inr h⟩
      · exact ⟨m.2, by simp [hpost], Or.inl rfl⟩

/-- An attribute keeps its key and whether it is true. -/
theorem SwapStep.attr_before {v v' : Json} (h : SwapStep v v') {a : CStr × Json}
    (ha : a ∈ v'.members) : ∃ b ∈ v.members, b.1 = a.1 ∧ b.2.isTrue = a.2.isTrue := by
  rcases h.shape with ⟨ms, ms', rfl, rfl⟩ | ⟨es, es', rfl, rfl⟩
  · obtain ⟨w, hw, hrel⟩ := h.member_before ha
    refine ⟨(a.1, w), hw, rfl, ?_⟩
    rcases hrel with rfl | hrel
    · rfl
    · exact hrel.isTrue_eq
  · cases ha

theorem SwapStep.entriesRight {ms ms' : Members} (h : SwapStep (.object ms) (.object ms'))
    (hms : EntriesRight ms) : EntriesRight ms' := by
  intro m hm
  obtain ⟨v, hv, hrel⟩ := h.member_before hm
  obtain ⟨hname, hattrs⟩ := hms _ hv
  refine ⟨hname, fun a ha hp => ?_⟩
  rcases hrel with rfl | hrel
  · exact hattrs a ha hp
  · obtain ⟨b, hb, hkey, htrue⟩ := hrel.attr_before ha
    rw [← htrue, ← hrel.holdsHwHandler_eq]
    exact hattrs b hb (hkey ▸ hp)

theorem noSurplus_swap (name : CStr) (ms ms' : Members)
    (h : SwapStep (.object ms) (.object ms')) (hms : NoSurplus (name, ms)) :
    NoSurplus (name, ms') := by
  intro hp hne
  rw [List.eq_nil_iff_forall_not_mem]
  intro m hm
  obtain ⟨v, hv, _⟩ := h.member_before hm
  have hnil : ms = [] := hms hp hne
  simp [hnil] at hv

theorem noneMissed_swap (name : CStr) (ms ms' : Members)
    (h : SwapStep (.object ms) (.object ms')) (hms : NoneMissed (name, ms)) :
    NoneMissed (name, ms') := by
  intro hlonger
  have hperm := h.expectedDaemons_perm
  rw [show expectedDaemons (.object ms) = [] from hms hlonger] at hperm
  exact hperm.nil_eq.symm

theorem keyRight_swap (name : CStr) (ms ms' : Members)
    (h : SwapStep (.object ms) (.object ms')) (hms : KeyRight (name, ms)) :
    KeyRight (name, ms') where
  entries hname := h.entriesRight (hms.entries hname)
  surplus := noSurplus_swap name ms ms' h hms.surplus
  missed := noneMissed_swap name ms ms' h hms.missed

theorem Reordered.tagsRight {j j' : Json} (h : Reordered j j') (hj : TagsRight j) :
    TagsRight j' := h.forall_tested keyRight_swap hj

theorem Reordered.oneSided {j j' : Json} (h : Reordered j j') (hj : OneSided j) : OneSided j' :=
  hj.imp (h.forall_tested noSurplus_swap) (h.forall_tested noneMissed_swap)

end Order

/-- An accepted enumeration is read exactly when it selects the expected
entries. -/
theorem readsExactly_iff {t : JsonTree} {j : Json} {g : Globals} (horder : Reordered t.json j)
    (hshort : ∀ d ∈ expectedDaemons t.json, d.name.length < maxDaemonNameLen)
    (hread : sysdReadManifestFile (some j) = .ok g) :
    ReadsExactly t.json g ↔ (comparedDaemons j).Perm (expectedDaemons j) := by
  obtain ⟨hd, hn, hh⟩ := sysdReadManifestFile_daemons hread
  have hexpected := horder.expectedDaemons_perm
  constructor
  · intro h
    exact (hd ▸ h.daemons_perm).trans hexpected
  · intro h
    have hperm : g.daemons.Perm (expectedDaemons t.json) := (hd ▸ h).trans hexpected.symm
    refine ⟨hperm, ?_, ?_, fun d hmem => hshort d (hperm.mem_iff.mp hmem)⟩
    · rw [hn, ← hd]
      exact hperm.length_eq
    · rw [hh, ← hd]
      exact hperm.countP_eq _

theorem TagsRight.daemonsExact {t : JsonTree} (h : Accepts t → TagsRight t.json) :
    DaemonsExact t := by
  intro hshort j g horder hread
  have htags : TagsRight j :=
    horder.tagsRight (h ⟨j, horder, (accepted_iff j).mpr ⟨g, hread⟩⟩)
  rw [readsExactly_iff horder hshort hread, comparedDaemons_eq, expectedDaemons_eq,
    List.flatMap_congr (fun m hm => taken_eq_owed (htags m hm))]

section Balance

/-- Lists that differ nowhere in total differ in no part, when the parts of one
are never longer. -/
theorem length_eq_of_flatMap {α β γ : Type*} {l : List α} {f : α → List β} {g : α → List γ}
    (hle : ∀ x ∈ l, (f x).length ≤ (g x).length)
    (h : (l.flatMap f).length = (l.flatMap g).length) : ∀ x ∈ l, (f x).length = (g x).length := by
  rw [List.length_flatMap, List.length_flatMap] at h
  by_contra hne
  push Not at hne
  obtain ⟨x, hx, hne⟩ := hne
  have hlt := List.sum_lt_sum _ _ hle ⟨x, hx, lt_of_le_of_ne (hle x hx) hne⟩
  exact absurd h hlt.ne

theorem length_taken_le {m : CStr × Members} (hm : NoSurplus m) :
    (taken m).length ≤ (owed m).length := by
  unfold taken owed
  by_cases hname : m.1 = daemonsTag
  · simp [hname]
  · split
    · rename_i hp
      simp [hm hp hname]
    · exact Nat.zero_le _

theorem length_owed_le {m : CStr × Members} (hm : NoneMissed m) :
    (owed m).length ≤ (taken m).length := by
  unfold taken owed
  by_cases hname : m.1 = daemonsTag
  · have hnot : ¬ LongerKey m.1 := fun h => by
      have hsome := (exactTag_daemons_iff m.1).mpr hname
      simp [h.2] at hsome
    rw [if_neg hnot, if_pos hname, if_pos (hname ▸ List.prefix_rfl)]
    simp
  · by_cases hlonger : LongerKey m.1
    · rw [if_neg hname, if_pos hlonger, hm hlonger]
      exact Nat.zero_le _
    · simp [hname, hlonger]

/-- Where surplus and missed entries do not occur together, neither occurs in
an enumeration that selects as many entries as are expected. -/
theorem balanced_of_length {j : Json} (hone : OneSided j)
    (h : (comparedDaemons j).length = (expectedDaemons j).length) :
    ∀ m ∈ tested comparedTag j, NoSurplus m ∧ NoneMissed m := by
  rw [comparedDaemons_eq, expectedDaemons_eq] at h
  intro m hm
  rcases hone with hsurplus | hmissed
  · have hlen := length_eq_of_flatMap (fun x hx => length_taken_le (hsurplus x hx)) h m hm
    refine ⟨hsurplus m hm, fun hlonger => ?_⟩
    have hne : m.1 ≠ daemonsTag := fun he => by
      have hsome := (exactTag_daemons_iff m.1).mpr he
      simp [hlonger.2] at hsome
    have htaken : taken m = [] := by
      unfold taken
      split
      · rename_i hp
        rw [hsurplus m hm hp hne, List.map_nil]
      · rfl
    have howed : owed m = expectedDaemons (.object m.2) := by
      rw [owed, if_neg hne, if_pos hlonger, List.nil_append]
    rw [htaken, howed] at hlen
    exact List.length_eq_zero_iff.mp hlen.symm
  · have hlen := length_eq_of_flatMap (fun x hx => length_owed_le (hmissed x hx)) h.symm m hm
    refine ⟨fun hp hne => ?_, hmissed m hm⟩
    have howed : owed m = [] := by
      unfold owed
      rw [if_neg hne, List.nil_append]
      split
      · rename_i hlonger
        exact hmissed m hm hlonger
      · rfl
    rw [howed, taken, if_pos hp, List.length_map] at hlen
    exact List.length_eq_zero_iff.mp hlen.symm

/-- The members of the objects under exactly "daemons". -/
def ownMembers (j : Json) : Members :=
  (tested comparedTag j).flatMap (fun m => if m.1 = daemonsTag then m.2 else [])

theorem daemons_of_balanced {j : Json}
    (h : ∀ m ∈ tested comparedTag j, NoSurplus m ∧ NoneMissed m) :
    comparedDaemons j = (ownMembers j).map entryOf ∧
      expectedDaemons j = (ownMembers j).map expectedEntry := by
  rw [comparedDaemons_eq, expectedDaemons_eq, ownMembers, List.map_flatMap, List.map_flatMap]
  constructor <;> apply List.flatMap_congr <;> intro m hm <;> obtain ⟨hs, hn⟩ := h m hm
  · unfold taken
    by_cases hname : m.1 = daemonsTag
    · rw [if_pos hname, if_pos (hname ▸ List.prefix_rfl)]
    · rw [if_neg hname]
      split
      · rename_i hp
        rw [hs hp hname]
      · rfl
  · have hnone : (if LongerKey m.1 then expectedDaemons (.object m.2) else []) = [] := by
      split
      · rename_i hlonger
        exact hn hlonger
      · rfl
    rw [owed, hnone, List.append_nil]
    split <;> rfl

/-- The name that stands for a finished daemon is exactly sysd's own. -/
theorem name_of_entries_perm {ms : Members}
    (h : (ms.map entryOf).Perm (ms.map expectedEntry)) {m : CStr × Json} (hm : m ∈ ms)
    (hp : nameInDaemonTable <+: m.1) : m.1 = nameInDaemonTable := by
  obtain ⟨x, _, hx⟩ := List.mem_map.mp (h.mem_iff.mp (List.mem_map_of_mem hm))
  have hname : x.1 = m.1 := congrArg DaemonInfo.name hx
  have hcur : (if x.1 = nameInDaemonTable then (1 : ℤ) else 0) = 1 := by
    have h₁ := congrArg DaemonInfo.curHw hx
    simpa [expectedEntry, entryOf, daemonEntry, (strncmpEq_length_right_iff _ _).mpr hp] using h₁
  rw [hname] at hcur
  by_contra hne
  simp [hne] at hcur

/-- As many flags as expected, none of them lacking: none is surplus. -/
theorem flag_of_entries_perm {ms : Members}
    (h : (ms.map entryOf).Perm (ms.map expectedEntry))
    (hle : ∀ m ∈ ms, holdsHwHandler m.2.members = true →
      sysdGetHwHandler m.2.members = true) :
    ∀ m ∈ ms, sysdGetHwHandler m.2.members = holdsHwHandler m.2.members := by
  have hsub : (ms.filter fun m => holdsHwHandler m.2.members).Sublist
      (ms.filter fun m => sysdGetHwHandler m.2.members) := by
    have hfilter : (ms.filter fun m => holdsHwHandler m.2.members) =
        (ms.filter fun m => sysdGetHwHandler m.2.members).filter
          fun m => holdsHwHandler m.2.members := by
      rw [List.filter_filter]
      apply List.filter_congr
      intro m hm
      cases hh : holdsHwHandler m.2.members
      · simp
      · simp [hle m hm hh]
    rw [hfilter]
    exact List.filter_sublist
  have hcount := h.countP_eq (·.isHwHandler)
  rw [List.countP_map, List.countP_map, List.countP_eq_length_filter,
    List.countP_eq_length_filter] at hcount
  have heq := hsub.eq_of_length hcount.symm
  intro m hm
  cases hh : holdsHwHandler m.2.members with
  | true => exact hle m hm hh
  | false =>
    by_contra hg
    rw [Bool.not_eq_false] at hg
    have hmem : m ∈ ms.filter fun m => holdsHwHandler m.2.members :=
      heq ▸ List.mem_filter.mpr ⟨hm, hg⟩
    simp [hh] at hmem

end Balance

section Flip

/-- What one member of an object contributes to the announced objects. -/
def announcedMember (tag : CStr → Option Tag) (m : CStr × Json) : List (Tag × Members) :=
  (testedMember tag m).filterMap (fun x => (tag x.1).map (·, x.2))

theorem announced_object (tag : CStr → Option Tag) (ms : Members) :
    announced tag (.object ms) = ms.flatMap (announcedMember tag) := by
  rw [announced, tested_object, List.filterMap_flatMap]
  rfl

theorem announced_array (tag : CStr → Option Tag) (es : List Json) :
    announced tag (.array es) = es.flatMap (announced tag) := by
  rw [announced, tested_array, List.filterMap_flatMap]
  rfl

/-- What can be changed alone in the value of a member can be changed alone in the member. -/
theorem exists_swap_announcedMember {tag : CStr → Option Tag} {m : CStr × Json}
    {x : Tag × Members} {ms : Members} (hx : x ∈ announcedMember tag m)
    (h : SwapStep (.object x.2) (.object ms))
    (ih : x ∈ announced tag m.2 → ∃ v pre post, SwapStep m.2 v ∧
      announced tag m.2 = pre ++ x :: post ∧ announced tag v = pre ++ (x.1, ms) :: post) :
    ∃ v pre post, SwapStep m.2 v ∧ announcedMember tag m = pre ++ x :: post ∧
      announcedMember tag (m.1, v) = pre ++ (x.1, ms) :: post := by
  obtain ⟨name, value⟩ := m
  cases value with
  | object inner =>
    cases ht : tag name with
    | some t =>
      have hself : announcedMember tag (name, .object inner) = [(t, inner)] := by
        simp [announcedMember, testedMember, ht]
      rw [hself, List.mem_singleton] at hx
      subst hx
      exact ⟨_, [], [], h, hself, by simp [announcedMember, testedMember, ht]⟩
    | none =>
      have hinner : ∀ ms, announcedMember tag (name, .object ms) = announced tag (.object ms) :=
        fun ms => by simp [announcedMember, testedMember, ht, announced]
      rw [hinner] at hx
      obtain ⟨v, pre, post, hv, hpre, hpost⟩ := ih hx
      rcases hv.shape with ⟨_, inner', _, rfl⟩ | ⟨_, _, hobject, _⟩
      · exact ⟨_, pre, post, hv, (hinner inner).trans hpre, (hinner inner').trans hpost⟩
      · cases hobject
  | array es =>
    obtain ⟨v, pre, post, hv, hpre, hpost⟩ := ih hx
    rcases hv.shape with ⟨_, _, harray, _⟩ | ⟨_, es', _, rfl⟩
    · cases harray
    · exact ⟨_, pre, post, hv, hpre, hpost⟩
  | _ => simp [announcedMember, testedMember] at hx

/-- The order inside one announced object can be changed alone. -/
theorem exists_swap_announced {tag : CStr → Option Tag} {j : Json} {x : Tag × Members}
    {ms : Members} (hx : x ∈ announced tag j) (h : SwapStep (.object x.2) (.object ms)) :
    ∃ j' pre post, SwapStep j j' ∧ announced tag j = pre ++ x :: post ∧
      announced tag j' = pre ++ (x.1, ms) :: post := by
  induction j using Json.induct with
  | object members ih =>
    rw [announced_object] at hx
    obtain ⟨m, hm, hmember⟩ := List.mem_flatMap.mp hx
    obtain ⟨v, pre, post, hv, hpre, hpost⟩ := exists_swap_announcedMember hmember h (ih m hm)
    obtain ⟨before, after, rfl⟩ := List.append_of_mem hm
    refine ⟨.object (before ++ (m.1, v) :: after), before.flatMap (announcedMember tag) ++ pre,
      post ++ after.flatMap (announcedMember tag), .member hv, ?_, ?_⟩
    · simp [announced_object, hpre]
    · simp [announced_object, hpost]
  | array es ih =>
    rw [announced_array] at hx
    obtain ⟨e, he, hx⟩ := List.mem_flatMap.mp hx
    obtain ⟨v, pre, post, hv, hpre, hpost⟩ := ih e he hx
    obtain ⟨before, after, rfl⟩ := List.append_of_mem he
    refine ⟨.array (before ++ v :: after), before.flatMap (announced tag) ++ pre,
      post ++ after.flatMap (announced tag), .elem hv, ?_, ?_⟩
    · simp [announced_array, hpre]
    · simp [announced_array, hpost]
  | leaf j hobject harray =>
    rw [announced, tested_leaf tag hobject harray] at hx
    cases hx

/-- An object is processed or not whatever was entered before, as long as the
name of the management interface has been read or not. -/
theorem processFound_of_present {m : Tag × Members} {g g' r : Globals}
    (hp : g.isMgmtIntfPresent = g'.isMgmtIntfPresent) (h : processFound g m = .ok r) :
    ∃ r', processFound g' m = .ok r' ∧ r.isMgmtIntfPresent = r'.isMgmtIntfPresent := by
  obtain ⟨t, ms⟩ := m
  cases t with
  | daemons =>
    rcases sysdProcessDaemons_cases ms g with ⟨r₁, hr₁, hp₁, hobj⟩ | ⟨herr, _⟩
    · rcases sysdProcessDaemons_cases ms g' with ⟨r', hr', hp', _⟩ | ⟨_, x, hx, hnon⟩
      · cases h.symm.trans hr₁
        exact ⟨r', hr', by rw [hp₁, hp', hp]⟩
      · simp [hobj x hx] at hnon
    · cases h.symm.trans herr
  | mgmtIntf =>
    rcases sysdProcessMgmtIntf_cases ms g with ⟨r₁, hr₁, hp₁, hor⟩ | ⟨herr, _⟩
    · rcases sysdProcessMgmtIntf_cases ms g' with ⟨r', hr', hp', _⟩ | ⟨_, habsent, hmissing⟩
      · cases h.symm.trans hr₁
        exact ⟨r', hr', hp₁.trans hp'.symm⟩
      · exact absurd (hor.resolve_left (by simp [hp, habsent])) hmissing
    · cases h.symm.trans herr

theorem foldlM_of_present (l : List (Tag × Members)) {g g' r : Globals}
    (hp : g.isMgmtIntfPresent = g'.isMgmtIntfPresent) (h : l.foldlM processFound g = .ok r) :
    ∃ r', l.foldlM processFound g' = .ok r' := by
  induction l generalizing g g' with
  | nil => exact ⟨g', rfl⟩
  | cons m rest ih =>
    rw [foldlM_processFound_cons] at h ⊢
    cases hm : processFound g m with
    | error f => simp [hm] at h
    | ok r₁ =>
      rw [hm] at h
      obtain ⟨r', hr', hp'⟩ := processFound_of_present hp hm
      rw [hr']
      exact ih hp' h

/-- One daemons object may be replaced by another that holds objects only. -/
theorem foldlM_of_swap {pre post : List (Tag × Members)} {ms ms' : Members} {g r : Globals}
    (hobj : ∀ x ∈ ms', x.2.isObject = true)
    (h : (pre ++ (.daemons, ms) :: post).foldlM processFound g = .ok r) :
    ∃ r', (pre ++ (.daemons, ms') :: post).foldlM processFound g = .ok r' := by
  induction pre generalizing g with
  | nil =>
    rw [List.nil_append, foldlM_processFound_cons] at h ⊢
    rcases sysdProcessDaemons_cases ms g with ⟨r₁, hr₁, hp₁, _⟩ | ⟨herr, _⟩
    · rcases sysdProcessDaemons_cases ms' g with ⟨r', hr', hp', _⟩ | ⟨_, x, hx, hnon⟩
      · simp only [processFound, hr₁] at h
        simp only [processFound, hr']
        exact foldlM_of_present post (hp₁.trans hp'.symm) h
      · simp [hobj x hx] at hnon
    · simp [processFound, herr] at h
  | cons m pre ih =>
    rw [List.cons_append, foldlM_processFound_cons] at h ⊢
    cases hm : processFound g m with
    | error f => simp [hm] at h
    | ok r₁ =>
      rw [hm] at h
      exact ih h

theorem daemonsAreObjects_of_ok {l : List (Tag × Members)} {g r : Globals}
    (h : l.foldlM processFound g = .ok r) : DaemonsAreObjects l := by
  induction l generalizing g with
  | nil => simp [DaemonsAreObjects]
  | cons m rest ih =>
    rw [foldlM_processFound_cons] at h
    cases hm : processFound g m with
    | error f => simp [hm] at h
    | ok r₁ =>
      rw [hm] at h
      refine List.forall_mem_cons.mpr ⟨?_, ih h⟩
      obtain ⟨t, ms⟩ := m
      rintro rfl
      rcases sysdProcessDaemons_cases ms g with ⟨_, _, _, hobj⟩ | ⟨herr, _⟩
      · exact hobj
      · cases hm.symm.trans herr

/-- Another order inside a daemons object that is read is accepted too. -/
theorem exists_read_of_swap {j : Json} {g : Globals} (hread : sysdReadManifestFile (some j) = .ok g)
    {ms ms' : Members} (hms : (.daemons, ms) ∈ announced comparedTag j)
    (hobj : (∀ x ∈ ms, x.2.isObject = true) → ∀ x ∈ ms', x.2.isObject = true)
    (hswap : SwapStep (.object ms) (.object ms')) :
    ∃ j' g' pre post, SwapStep j j' ∧ sysdReadManifestFile (some j') = .ok g' ∧
      announced comparedTag j = pre ++ (.daemons, ms) :: post ∧
      announced comparedTag j' = pre ++ (.daemons, ms') :: post := by
  obtain ⟨j', pre, post, hstep, hj, hj'⟩ := exists_swap_announced hms hswap
  obtain ⟨_, g₀, heq, hf, rfl⟩ := sysdReadManifestFile_ok hread
  cases heq
  have hobj' := hobj (daemonsAreObjects_of_ok hf _ hms rfl)
  rw [hj] at hf
  obtain ⟨g₁, hg₁⟩ := foldlM_of_swap hobj' hf
  have hcontainer : j'.isContainer = true := by
    rcases hstep.shape with ⟨_, _, _, rfl⟩ | ⟨_, _, _, rfl⟩ <;> rfl
  refine ⟨j', sysdSetNumHwDaemons g₁, pre, post, hstep, ?_, hj, hj'⟩
  rw [sysdReadManifestFile_container hcontainer, hj', hg₁]

/-- In a manifest whose accepted enumerations are all read exactly, every
attribute key that begins with the tag has the value of the first one. -/
theorem flag_of_daemonsExact {t : JsonTree} (hexact : DaemonsExact t)
    (hshort : ∀ d ∈ expectedDaemons t.json, d.name.length < maxDaemonNameLen) {j : Json}
    (horder : Reordered t.json j) {g : Globals} (hread : sysdReadManifestFile (some j) = .ok g)
    {ms : Members} (hms : (.daemons, ms) ∈ announced comparedTag j) {m : CStr × Json}
    (hm : m ∈ ms) {a : CStr × Json} (ha : a ∈ m.2.members) (hp : hwHandlerTag <+: a.1) :
    a.2.isTrue = sysdGetHwHandler m.2.members := by
  obtain ⟨name, value⟩ := m
  cases value with
  | object attrs =>
    obtain ⟨s, u, rfl⟩ : ∃ s u, attrs = s ++ a :: u := List.append_of_mem ha
    obtain ⟨before, after, rfl⟩ := List.append_of_mem hm
    have hswap : SwapStep (.object (before ++ (name, .object (s ++ a :: u)) :: after))
        (.object (before ++ (name, .object (a :: (s ++ u))) :: after)) :=
      .member (.members List.perm_middle)
    have hobj : (∀ x ∈ before ++ (name, Json.object (s ++ a :: u)) :: after,
        x.2.isObject = true) →
        ∀ x ∈ before ++ (name, Json.object (a :: (s ++ u))) :: after, x.2.isObject = true := by
      intro h
      rw [List.forall_mem_append, List.forall_mem_cons] at h ⊢
      exact ⟨h.1, rfl, h.2.2⟩
    obtain ⟨j', g', pre, post, hstep, hread', hj, hj'⟩ :=
      exists_read_of_swap hread hms hobj hswap
    have horder' : Reordered t.json j' := horder.tail hstep
    have hperm : (comparedDaemons j).Perm (comparedDaemons j') :=
      ((readsExactly_iff horder hshort hread).mp (hexact hshort j g horder hread)).trans
        (hstep.expectedDaemons_perm.trans
          ((readsExactly_iff horder' hshort hread').mp
            (hexact hshort j' g' horder' hread')).symm)
    unfold comparedDaemons at hperm
    rw [hj, hj'] at hperm
    simp only [List.flatMap_append, List.flatMap_cons, foundEntries, List.map_append,
      List.map_cons, List.perm_append_left_iff, List.perm_append_right_iff] at hperm
    have hentry : entryOf (name, .object (s ++ a :: u)) =
        entryOf (name, .object (a :: (s ++ u))) := by
      rw [← List.singleton_append, ← List.singleton_append (l := after.map entryOf)] at hperm
      exact List.singleton_perm_singleton.mp ((List.perm_append_right_iff _).mp hperm)
    have hfirst : sysdGetHwHandler (a :: (s ++ u)) = a.2.isTrue := by
      obtain ⟨key, v⟩ := a
      simp only [sysdGetHwHandler, (strncmpEq_length_right_iff _ _).mpr hp, if_true]
    rw [← hfirst]
    exact (congrArg DaemonInfo.isHwHandler hentry).symm
  | _ => cases ha

end Flip

theorem mem_announced_daemons {j : Json} {ms : Members}
    (h : (daemonsTag, ms) ∈ tested comparedTag j) :
    (.daemons, ms) ∈ announced comparedTag j := by
  refine List.mem_filterMap.mpr ⟨_, h, ?_⟩
  simp [(comparedTag_daemons_iff daemonsTag).mpr List.prefix_rfl]

/-- The own key, wherever it stands, decides what every key beginning with the
tag has to say. -/
theorem sysdGetHwHandler_of_holds {attrs : Members}
    (hflags : ∀ a ∈ attrs, hwHandlerTag <+: a.1 → a.2.isTrue = sysdGetHwHandler attrs)
    (h : holdsHwHandler attrs = true) : sysdGetHwHandler attrs = true := by
  obtain ⟨a, ha, hkey⟩ := List.any_eq_true.mp h
  rw [Bool.and_eq_true, beq_iff_eq] at hkey
  rw [← hflags a ha (hkey.1 ▸ List.prefix_rfl)]
  exact hkey.2

theorem tagsRight_of_daemonsExact {t : JsonTree} (hexact : DaemonsExact t)
    (hshort : ∀ d ∈ expectedDaemons t.json, d.name.length < maxDaemonNameLen)
    (hone : OneSided t.json) (haccepts : Accepts t) : TagsRight t.json := by
  obtain ⟨j, horder, haccepted⟩ := haccepts
  obtain ⟨g, hread⟩ := (accepted_iff j).mp haccepted
  apply horder.symm.tagsRight
  have hperm := (readsExactly_iff horder hshort hread).mp (hexact hshort j g horder hread)
  have hbalanced := balanced_of_length (horder.oneSided hone) hperm.length_eq
  obtain ⟨hcompared, hexpected⟩ := daemons_of_balanced hbalanced
  rw [hcompared, hexpected] at hperm
  have hown : ∀ {m x}, m ∈ tested comparedTag j → m.1 = daemonsTag → x ∈ m.2 →
      x ∈ ownMembers j := fun hm hname hx =>
    List.mem_flatMap.mpr ⟨_, hm, by rwa [if_pos hname]⟩
  have hflags : ∀ x ∈ ownMembers j, ∀ a ∈ x.2.members, hwHandlerTag <+: a.1 →
      a.2.isTrue = sysdGetHwHandler x.2.members := by
    intro x hx a ha hp
    obtain ⟨⟨name, ms⟩, hm, hx⟩ := List.mem_flatMap.mp hx
    split at hx
    · rename_i hname
      obtain rfl : name = daemonsTag := hname
      exact flag_of_daemonsExact hexact hshort horder hread (mem_announced_daemons hm) hx ha hp
    · cases hx
  have hright := flag_of_entries_perm hperm
    (fun x hx => sysdGetHwHandler_of_holds (hflags x hx))
  intro m hm
  refine ⟨fun hname x hx => ⟨name_of_entries_perm hperm (hown hm hname hx), fun a ha hp => ?_⟩,
    (hbalanced m hm).1, (hbalanced m hm).2⟩
  rw [hflags x (hown hm hname hx) a ha hp, hright x (hown hm hname hx)]

/-- A manifest is read exactly when its longer keys change nothing, or none of
its enumerations is accepted: enough for every tree, and necessary unless there
are surplus and missed entries at once, which can cancel. -/
theorem daemonsExact_iff (t : JsonTree) :
    ((Accepts t → TagsRight t.json) → DaemonsExact t) ∧
      ((∀ d ∈ expectedDaemons t.json, d.name.length < maxDaemonNameLen) → OneSided t.json →
        (DaemonsExact t ↔ (Accepts t → TagsRight t.json))) :=
  ⟨TagsRight.daemonsExact, fun hshort hone =>
    ⟨fun hexact => tagsRight_of_daemonsExact hexact hshort hone, TagsRight.daemonsExact⟩⟩

theorem daemonsExact_fand : DaemonsExact (oneDaemonManifest (cstr "ops-fand")) := by
  have hright : TagsRight (oneDaemonManifest (cstr "ops-fand")).json := by decide
  have hone : OneSided (oneDaemonManifest (cstr "ops-fand")).json :=
    Or.inl (fun m hm => (hright m hm).surplus)
  exact ((daemonsExact_iff _).2 (by decide) hone).mpr (fun _ => hright)

/-- A daemon whose name only begins with sysd's own is entered as finished. -/
theorem not_daemonsExact_longer_name :
    ¬ DaemonsExact (oneDaemonManifest (cstr "ops-sysd-aux")) := by
  intro h
  have hread := h (by decide) _ _ Relation.ReflTransGen.refl
    (show _ = Except.ok ⟨[⟨cstr "ops-sysd-aux", true, 1⟩], 1, 1, some ⟨0, cstr "eth0"⟩, true⟩
      by decide)
  exact absurd hread.daemons_perm (by decide)

end OpsSysd.Manifest
