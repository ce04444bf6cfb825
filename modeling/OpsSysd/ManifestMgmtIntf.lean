import OpsSysd.ManifestDaemons

/-!
The management interface of an accepted manifest. Presence is tested only by
the function that runs when a "mgmt_intf" object has been found, and the block
for the name is allocated with a size of zero elements, so what acceptance
should promise holds exactly of the manifests that are not accepted.
-/

namespace OpsSysd.Manifest

open CString

/-- The first value occurs in the second, at any depth. -/
inductive Within (x : Json) : Json → Prop
  | self : Within x x
  | member {ms : Members} {m : CStr × Json} (hm : m ∈ ms) (h : Within x m.2) :
      Within x (.object ms)
  | elem {es : List Json} {e : Json} (he : e ∈ es) (h : Within x e) : Within x (.array es)

/-- Some "mgmt_intf" object of the tree has the string as its member "intf". -/
def NamesMgmtIntf (j : Json) (s : CStr) : Prop :=
  ∃ outer ms, Within (.object outer) j ∧ (mgmtIntfTag, .object ms) ∈ outer ∧
    (mgmtIntfNameTag, .string s) ∈ ms

/-- Acceptance yields a terminated name of the manifest, and a manifest that
names no interface is rejected. -/
def MgmtIntfNamed (file : Option Json) : Prop :=
  (∀ g, sysdReadManifestFile file = .ok g →
    ∃ j b, file = some j ∧ NamesMgmtIntf j b.name ∧ g.mgmtIntf = some b ∧ b.Terminated) ∧
  (∀ j, file = some j → (∀ s, ¬ NamesMgmtIntf j s) →
    sysdReadManifestFile file = .error .rejected)

def Json.isObject : Json → Bool
  | .object _ => Bool.true
  | _ => Bool.false

def Json.isString : Json → Bool
  | .string _ => Bool.true
  | _ => Bool.false

/-- The value of the first member whose key starts with "intf". -/
def intfMember : Members → Option Json
  | [] => none
  | (name, jp) :: rest =>
    if strncmpEq name mgmtIntfNameTag mgmtIntfNameTag.length then some jp else intfMember rest

def HasIntfString (ms : Members) : Prop := ∃ jp, intfMember ms = some jp ∧ jp.isString = true

/-- The daemons objects found hold objects only. -/
def DaemonsAreObjects (l : List (Tag × Members)) : Prop :=
  ∀ m ∈ l, m.1 = .daemons → ∀ x ∈ m.2, x.2.isObject = true

/-- The first management object found has no name to read. -/
def FirstIntfMissing (l : List (Tag × Members)) : Prop :=
  ∃ pre ms post, l = pre ++ (.mgmtIntf, ms) :: post ∧ (∀ m ∈ pre, m.1 = .daemons) ∧
    DaemonsAreObjects pre ∧ ¬ HasIntfString ms

/-- A daemons object with a member that is no object is reached. -/
def ReachesNonObject (l : List (Tag × Members)) : Prop :=
  ∃ pre ms post, l = pre ++ (.daemons, ms) :: post ∧ DaemonsAreObjects pre ∧
    ¬ FirstIntfMissing pre ∧ ∃ x ∈ ms, x.2.isObject = false

section Outcome

theorem sysdProcessMgmtIntf_eq (ms : Members) (g : Globals) :
    sysdProcessMgmtIntf ms g = checkMgmtIntfPresent
      (match intfMember ms with
        | some jp => readMgmtIntfName jp g
        | none => g) := by
  induction ms with
  | nil => rfl
  | cons m rest ih =>
    obtain ⟨name, jp⟩ := m
    simp only [sysdProcessMgmtIntf, intfMember]
    split
    · rfl
    · exact ih

theorem isMgmtIntfPresent_readMgmtIntfName (jp : Json) (g : Globals) :
    (readMgmtIntfName jp g).isMgmtIntfPresent = (g.isMgmtIntfPresent || jp.isString) := by
  cases jp <;> simp [readMgmtIntfName, Json.isString]

/-- A management object is accepted when a name has been read, now or before. -/
theorem sysdProcessMgmtIntf_cases (ms : Members) (g : Globals) :
    (∃ g', sysdProcessMgmtIntf ms g = .ok g' ∧ g'.isMgmtIntfPresent = true ∧
      (g.isMgmtIntfPresent = true ∨ HasIntfString ms)) ∨
    (sysdProcessMgmtIntf ms g = .error .rejected ∧ g.isMgmtIntfPresent = false ∧
      ¬ HasIntfString ms) := by
  rw [sysdProcessMgmtIntf_eq]
  unfold checkMgmtIntfPresent HasIntfString
  cases hm : intfMember ms with
  | none => cases hp : g.isMgmtIntfPresent <;> simp [hp]
  | some jp =>
    simp only [isMgmtIntfPresent_readMgmtIntfName]
    cases hp : g.isMgmtIntfPresent <;> cases hs : jp.isString <;>
      simp [hs, isMgmtIntfPresent_readMgmtIntfName, hp]

theorem sysdProcessDaemons_cases (ms : Members) (g : Globals) :
    (∃ g', sysdProcessDaemons ms g = .ok g' ∧ g'.isMgmtIntfPresent = g.isMgmtIntfPresent ∧
      ∀ x ∈ ms, x.2.isObject = true) ∨
    (sysdProcessDaemons ms g = .error .notAnObject ∧ ∃ x ∈ ms, x.2.isObject = false) := by
  induction ms generalizing g with
  | nil => exact Or.inl ⟨g, rfl, rfl, by simp⟩
  | cons m rest ih =>
    obtain ⟨name, jp⟩ := m
    cases jp with
    | object attrs =>
      rcases ih { g with
          daemons := g.daemons ++ [daemonEntry name attrs]
          numDaemons := g.numDaemons + 1 } with ⟨g', hg', hp, hall⟩ | ⟨herr, x, hx, hx'⟩
      · exact Or.inl ⟨g', hg', hp, List.forall_mem_cons.mpr ⟨rfl, hall⟩⟩
      · exact Or.inr ⟨herr, x, List.mem_cons_of_mem _ hx, hx'⟩
    | _ => exact Or.inr ⟨rfl, _, List.mem_cons_self, rfl⟩

theorem firstIntfMissing_cons_mgmtIntf (ms : Members) (l : List (Tag × Members)) :
    FirstIntfMissing ((.mgmtIntf, ms) :: l) ↔ ¬ HasIntfString ms := by
  constructor
  · rintro ⟨pre, ms', post, heq, hpre, _, hms⟩
    cases pre with
    | nil =>
      cases heq
      exact hms
    | cons m pre =>
      cases heq
      have := hpre _ List.mem_cons_self
      cases this
  · intro h
    exact ⟨[], ms, l, rfl, by simp, by simp [DaemonsAreObjects], h⟩

theorem firstIntfMissing_cons_daemons {ms : Members} (hms : ∀ x ∈ ms, x.2.isObject = true)
    (l : List (Tag × Members)) : FirstIntfMissing ((.daemons, ms) :: l) ↔ FirstIntfMissing l := by
  constructor
  · rintro ⟨pre, ms', post, heq, hpre, hobj, hms'⟩
    cases pre with
    | nil => cases heq
    | cons m pre =>
      cases heq
      exact ⟨pre, ms', post, rfl, fun x hx => hpre x (List.mem_cons_of_mem _ hx),
        fun x hx => hobj x (List.mem_cons_of_mem _ hx), hms'⟩
  · rintro ⟨pre, ms', post, rfl, hpre, hobj, hms'⟩
    refine ⟨(.daemons, ms) :: pre, ms', post, rfl, List.forall_mem_cons.mpr ⟨rfl, hpre⟩, ?_, hms'⟩
    exact List.forall_mem_cons.mpr ⟨fun _ => hms, hobj⟩

theorem not_firstIntfMissing_cons_nonObject {ms : Members} (hms : ∃ x ∈ ms, x.2.isObject = false)
    (l : List (Tag × Members)) : ¬ FirstIntfMissing ((.daemons, ms) :: l) := by
  rintro ⟨pre, ms', post, heq, _, hobj, _⟩
  cases pre with
  | nil => cases heq
  | cons m pre =>
    cases heq
    obtain ⟨x, hx, hx'⟩ := hms
    have := hobj _ List.mem_cons_self rfl x hx
    rw [hx'] at this
    cases this

theorem foldlM_processFound_cons (m : Tag × Members) (l : List (Tag × Members)) (g : Globals) :
    (m :: l).foldlM processFound g =
      match processFound g m with
      | .ok g' => l.foldlM processFound g'
      | .error f => .error f := by
  rw [List.foldlM_cons]
  cases processFound g m <;> rfl

/-- After one name has been read nothing is rejected any more. -/
theorem foldlM_processFound_ne_rejected (l : List (Tag × Members)) {g : Globals}
    (hp : g.isMgmtIntfPresent = true) : l.foldlM processFound g ≠ .error .rejected := by
  induction l generalizing g with
  | nil => simp [pure, Except.pure]
  | cons m rest ih =>
    obtain ⟨t, ms⟩ := m
    rw [foldlM_processFound_cons]
    cases t with
    | daemons =>
      rcases sysdProcessDaemons_cases ms g with ⟨g', hg', hp', _⟩ | ⟨herr, _⟩
      · simp only [processFound, hg']
        exact ih (hp'.trans hp)
      · simp [processFound, herr]
    | mgmtIntf =>
      rcases sysdProcessMgmtIntf_cases ms g with ⟨g', hg', hp', _⟩ | ⟨_, habsent, _⟩
      · simp only [processFound, hg']
        exact ih hp'
      · simp [hp] at habsent

theorem foldlM_processFound_rejected_iff (l : List (Tag × Members)) {g : Globals}
    (hp : g.isMgmtIntfPresent = false) :
    l.foldlM processFound g = .error .rejected ↔ FirstIntfMissing l := by
  induction l generalizing g with
  | nil => simp [pure, Except.pure, FirstIntfMissing]
  | cons m rest ih =>
    obtain ⟨t, ms⟩ := m
    rw [foldlM_processFound_cons]
    cases t with
    | daemons =>
      rcases sysdProcessDaemons_cases ms g with ⟨g', hg', hp', hobj⟩ | ⟨herr, hnon⟩
      · simp only [processFound, hg', firstIntfMissing_cons_daemons hobj]
        exact ih (hp'.trans hp)
      · simp [processFound, herr, not_firstIntfMissing_cons_nonObject hnon]
    | mgmtIntf =>
      rw [firstIntfMissing_cons_mgmtIntf]
      rcases sysdProcessMgmtIntf_cases ms g with ⟨g', hg', hp', hor⟩ | ⟨herr, _, hms⟩
      · have hms : HasIntfString ms := hor.resolve_left (by simp [hp])
        simp only [processFound, hg', hms, not_true_eq_false, iff_false]
        exact foldlM_processFound_ne_rejected rest hp'
      · simp [processFound, herr, hms]

theorem foldlM_processFound_notAnObject_iff (l : List (Tag × Members)) (g : Globals) :
    l.foldlM processFound g = .error .notAnObject ↔
      ∃ pre ms post, l = pre ++ (.daemons, ms) :: post ∧ DaemonsAreObjects pre ∧
        (g.isMgmtIntfPresent = false → ¬ FirstIntfMissing pre) ∧
        ∃ x ∈ ms, x.2.isObject = false := by
  induction l generalizing g with
  | nil => simp [pure, Except.pure]
  | cons m rest ih =>
    obtain ⟨t, ms⟩ := m
    rw [foldlM_processFound_cons]
    cases t with
    | daemons =>
      rcases sysdProcessDaemons_cases ms g with ⟨g', hg', hp', hobj⟩ | ⟨herr, hnon⟩
      · simp only [processFound, hg', ih, hp']
        constructor
        · rintro ⟨pre, ms', post, rfl, hpre, hfirst, hnon⟩
          refine ⟨(.daemons, ms) :: pre, ms', post, rfl,
            List.forall_mem_cons.mpr ⟨fun _ => hobj, hpre⟩, fun hp => ?_, hnon⟩
          rw [firstIntfMissing_cons_daemons hobj]
          exact hfirst hp
        · rintro ⟨pre, ms', post, heq, hpre, hfirst, x, hx, hx'⟩
          cases pre with
          | nil =>
            cases heq
            simp [hobj x hx] at hx'
          | cons m pre =>
            cases heq
            refine ⟨pre, ms', post, rfl, fun y hy => hpre y (List.mem_cons_of_mem _ hy),
              fun hp => ?_, x, hx, hx'⟩
            rw [← firstIntfMissing_cons_daemons hobj]
            exact hfirst hp
      · simp only [processFound, herr, true_iff]
        refine ⟨[], ms, rest, rfl, by simp [DaemonsAreObjects], fun _ => ?_, hnon⟩
        rintro ⟨pre, _, _, heq, _⟩
        simp at heq
    | mgmtIntf =>
      rcases sysdProcessMgmtIntf_cases ms g with ⟨g', hg', hp', hor⟩ | ⟨herr, habsent, hms⟩
      · simp only [processFound, hg', ih, hp']
        constructor
        · rintro ⟨pre, ms', post, rfl, hpre, _, hnon⟩
          refine ⟨(.mgmtIntf, ms) :: pre, ms', post, rfl,
            List.forall_mem_cons.mpr ⟨by simp, hpre⟩, fun hp => ?_, hnon⟩
          rw [firstIntfMissing_cons_mgmtIntf, not_not]
          exact hor.resolve_left (by simp [hp])
        · rintro ⟨pre, ms', post, heq, hpre, _, hnon⟩
          cases pre with
          | nil => cases heq
          | cons m pre =>
            cases heq
            exact ⟨pre, ms', post, rfl, fun y hy => hpre y (List.mem_cons_of_mem _ hy),
              by simp, hnon⟩
      · simp only [processFound, herr, Except.error.injEq, reduceCtorEq, false_iff]
        rintro ⟨pre, ms', post, heq, _, hfirst, _⟩
        cases pre with
        | nil => cases heq
        | cons m pre =>
          cases heq
          exact hfirst habsent ((firstIntfMissing_cons_mgmtIntf ms pre).mpr hms)

/-- The block for the name has no bytes at all. -/
theorem foldlM_processFound_block {l : List (Tag × Members)} {g g' : Globals}
    (hg : ∀ b, g.mgmtIntf = some b → b.size = 0) (h : l.foldlM processFound g = .ok g') :
    ∀ b, g'.mgmtIntf = some b → b.size = 0 := by
  induction l generalizing g with
  | nil =>
    cases h
    exact hg
  | cons m rest ih =>
    rw [foldlM_processFound_cons] at h
    cases hm : processFound g m with
    | error f => simp [hm] at h
    | ok g₁ =>
      rw [hm] at h
      refine ih ?_ h
      obtain ⟨t, ms⟩ := m
      cases t with
      | daemons =>
        have hg₁ := sysdProcessDaemons_ok hm
        subst hg₁
        exact hg
      | mgmtIntf =>
        simp only [processFound, sysdProcessMgmtIntf_eq] at hm
        obtain ⟨rfl, _⟩ := checkMgmtIntfPresent_ok hm
        cases intfMember ms with
        | none => exact hg
        | some jp =>
          cases jp with
          | string s =>
            intro b hb
            cases hb
            rfl
          | _ => exact hg

end Outcome

def Json.isContainer : Json → Bool
  | .object _ => Bool.true
  | .array _ => Bool.true
  | _ => Bool.false

/-- When the reader gives up, in terms of the file: it cannot be read, it holds
no object or array, or the first management object found has no name. -/
def GivesUp (file : Option Json) : Prop :=
  ∀ j, file = some j → j.isContainer = true → FirstIntfMissing (announced comparedTag j)

theorem sysdReadManifestFile_container {j : Json} (hj : j.isContainer = true) :
    sysdReadManifestFile (some j) =
      match (announced comparedTag j).foldlM processFound .empty with
      | .ok g => .ok (sysdSetNumHwDaemons g)
      | .error f => .error f := by
  cases j with
  | object ms =>
    simp only [sysdReadManifestFile, sysdProcessJson_eq_foldlM]
    cases (announced comparedTag (.object ms)).foldlM processFound .empty <;> rfl
  | array es =>
    simp only [sysdReadManifestFile, sysdProcessJson_eq_foldlM]
    cases (announced comparedTag (.array es)).foldlM processFound .empty <;> rfl
  | _ => cases hj

theorem sysdReadManifestFile_rejected_iff (file : Option Json) :
    sysdReadManifestFile file = .error .rejected ↔ GivesUp file := by
  cases file with
  | none => simp [sysdReadManifestFile, GivesUp]
  | some j =>
    simp only [GivesUp, Option.some.injEq, forall_eq']
    by_cases hj : j.isContainer = true
    · rw [sysdReadManifestFile_container hj,
        ← foldlM_processFound_rejected_iff (g := .empty) _ rfl]
      simp only [hj, forall_const]
      cases (announced comparedTag j).foldlM processFound .empty <;> simp
    · cases j <;> simp_all [sysdReadManifestFile, Json.isContainer]

theorem sysdReadManifestFile_notAnObject_iff (j : Json) :
    sysdReadManifestFile (some j) = .error .notAnObject ↔
      ReachesNonObject (announced comparedTag j) := by
  by_cases hj : j.isContainer = true
  · have h := foldlM_processFound_notAnObject_iff (announced comparedTag j) .empty
    simp only [Globals.empty, forall_const] at h
    rw [sysdReadManifestFile_container hj, ReachesNonObject, ← h]
    cases hf : (announced comparedTag j).foldlM processFound .empty <;>
      simp_all [Globals.empty]
  · have hnil : announced comparedTag j = [] := by
      cases j <;> simp_all [Json.isContainer, announced, tested]
    rw [hnil]
    cases j <;> simp_all [sysdReadManifestFile, Json.isContainer, ReachesNonObject]

/-- No accepted manifest has the name of its management interface in a block
that holds it. -/
theorem not_terminated_of_ok {file : Option Json} {g : Globals}
    (h : sysdReadManifestFile file = .ok g) : ∀ b, g.mgmtIntf = some b → ¬ b.Terminated := by
  obtain ⟨j, g₀, rfl, hf, rfl⟩ := sysdReadManifestFile_ok h
  intro b hb
  have hsize := foldlM_processFound_block (by simp [Globals.empty]) hf b hb
  simp [MgmtIntf.Terminated, hsize]

/-- The management interface is as promised exactly when the reader gives up, or
stops at a daemons object with a member that is no object although some
interface is named. -/
theorem mgmtIntfNamed_iff (file : Option Json) :
    MgmtIntfNamed file ↔ GivesUp file ∨
      ∃ j s, file = some j ∧ NamesMgmtIntf j s ∧ ReachesNonObject (announced comparedTag j) := by
  rw [← sysdReadManifestFile_rejected_iff]
  constructor
  · rintro ⟨hok, hnone⟩
    cases hr : sysdReadManifestFile file with
    | ok g =>
      obtain ⟨j, b, _, _, hb, hterm⟩ := hok g hr
      exact absurd hterm (not_terminated_of_ok hr b hb)
    | error f =>
      cases f with
      | rejected => exact Or.inl rfl
      | notAnObject =>
        cases file with
        | none => simp [sysdReadManifestFile] at hr
        | some j =>
          right
          by_contra hno
          have hnames : ∀ s, ¬ NamesMgmtIntf j s := fun s hs =>
            hno ⟨j, s, rfl, hs, (sysdReadManifestFile_notAnObject_iff j).mp hr⟩
          have := hnone j rfl hnames
          simp [hr] at this
  · rintro (hrej | ⟨j, s, rfl, hs, hreach⟩)
    · exact ⟨fun g hg => by simp [hrej] at hg, fun _ _ _ => hrej⟩
    · have habort := (sysdReadManifestFile_notAnObject_iff j).mpr hreach
      refine ⟨fun g hg => by simp [habort] at hg, fun j' hj' hnone => ?_⟩
      cases hj'
      exact absurd hs (hnone s)

/-- Neither a manifest without a management interface nor one with "eth0" is
read as promised: both are accepted, the first without a name and the second
with a block of no bytes. -/
theorem not_mgmtIntfNamed_accepted :
    ¬ MgmtIntfNamed (some (.object [(daemonsTag, .object [])])) ∧
      ¬ MgmtIntfNamed (some (.object [(mgmtIntfTag,
        .object [(mgmtIntfNameTag, .string (cstr "eth0"))])])) := by
  constructor
  · rintro ⟨hok, _⟩
    obtain ⟨_, b, _, _, hb, _⟩ := hok ⟨[], 0, 0, none, false⟩ (by decide)
    cases hb
  · rintro ⟨hok, _⟩
    obtain ⟨_, b, _, _, hb, hterm⟩ := hok ⟨[], 0, 0, some ⟨0, cstr "eth0"⟩, true⟩ (by decide)
    cases hb
    exact absurd hterm (by unfold MgmtIntf.Terminated; decide)

end OpsSysd.Manifest
