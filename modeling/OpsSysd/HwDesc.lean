import OpsSysd.FileLinks
import OpsSysd.SysCmdOut
import OpsSysd.TimezoneTree

/-!
Where the hardware description is. The manufacturer and the product name come
from two commands, lose the quotes around them and name a directory; a link is
made to it for everyone else.
-/

namespace OpsSysd.HwDesc

open CString StringBlock FileLinks
open SysCmdOut (Heap Outcome getSysCmdOut firstLine readLines)
open Timezone (snprintf)

/-- Why a call does not come back. -/
inductive Stuck
  | running
  | outOfBounds
  deriving DecidableEq, Repr

/-- What the build and the machine provide. A stream is `none` if `popen` fails; each
command finds its own memory. -/
structure Machine where
  simulation : Bool
  sysconfdir : CStr
  manufacturer : Heap × Option CStr
  productName : Heap × Option CStr
  removes : Bool
  mkdirWorks : Bool
  symlinkWorks : Bool

def Machine.hwdescFileLinkPath (m : Machine) : CStr := m.sysconfdir ++ cstr "/openswitch"
def Machine.hwdescFileLink (m : Machine) : CStr := m.sysconfdir ++ cstr "/openswitch/hwdesc"
def Machine.hwdescFilesPath (m : Machine) : CStr := m.sysconfdir ++ cstr "/openswitch/platform"

def genericX86Manufacturer : CStr := cstr "Generic-x86"
def genericX86ProductName : CStr := cstr "X86-64"

/-- In place: the last quote becomes the terminator, and the rest moves down. -/
def stripQuotes (string : Block) : Option Block := do
  let s ← strAt string 0
  let len := s.length
  if string[0]? = some 34 ∧ string[len - 1]? = some 34 then
    let string ← write string (len - 1) [0]
    memmove string 0 1 (len - 1)
  else return string

/-- The outcome of a call with its output; `none` is NULL. -/
def finished : Option Outcome → Except Stuck (Option Block)
  | none => .error .running
  | some .outOfBounds => .error .outOfBounds
  | some (.returned output) => .ok output

def inBounds : Option Block → Except Stuck Block
  | none => .error .outOfBounds
  | some block => .ok block

section Program

variable (m : Machine)

def getManufAndProdname (fuel : ℕ) : Except Stuck (Option Block × Option Block) := do
  let manufacturer ← finished (getSysCmdOut m.manufacturer.1 fuel m.manufacturer.2)
  match manufacturer with
  | none => return (none, none)
  | some manufacturer =>
    let manufacturer ← inBounds (stripQuotes manufacturer)
    let productName ← finished (getSysCmdOut m.productName.1 fuel m.productName.2)
    match productName with
    | none => return (some manufacturer, none)
    | some productName =>
      let productName ← inBounds (stripQuotes productName)
      return (some manufacturer, some productName)

/-- The status, `g_hw_desc_dir` and the files afterwards. -/
structure Result where
  rc : ℤ
  gHwDescDir : CStr
  fs : FileSystem

def hwDescDir (manufacturer productName : CStr) : CStr :=
  snprintf 1024 (m.hwdescFilesPath ++ cstr "/" ++ manufacturer ++ cstr "/" ++ productName)

/-- The last step of `create_link_to_desc_files`. -/
def createLink (dir : CStr) (fs : FileSystem) : Result :=
  match symlink m.symlinkWorks fs dir m.hwdescFileLink with
  | .error _ => ⟨-1, dir, fs⟩
  | .ok fs => ⟨0, dir, fs⟩

def createLinkToDescFiles (manufacturer productName : CStr) (fs : FileSystem) : Result :=
  let dir := hwDescDir m manufacturer productName
  if (stat fs dir).isNone then ⟨-1, dir, fs⟩
  else
    let fs := remove m.removes fs m.hwdescFileLink
    match mkdir m.mkdirWorks fs m.hwdescFileLinkPath with
    | .error .refused => ⟨-1, dir, fs⟩
    | .error .exists => createLink m dir fs
    | .ok fs => createLink m dir fs

/-- The text in a block whose terminator is there. -/
def textOf (block : Block) : Except Stuck CStr :=
  match strAt block 0 with
  | none => .error .outOfBounds
  | some s => .ok s

/-- Before the call `g_hw_desc_dir` is the root. -/
def sysdCreateLinkToHwdescFiles (fuel : ℕ) (fs : FileSystem) : Except Stuck Result :=
  if m.simulation then
    .ok (createLinkToDescFiles m genericX86Manufacturer genericX86ProductName fs)
  else do
    let names ← getManufAndProdname m fuel
    match names with
    | (some manufacturer, some productName) =>
      let manufacturer ← textOf manufacturer
      let productName ← textOf productName
      return createLinkToDescFiles m manufacturer productName fs
    | _ => return ⟨-1, cstr "/", fs⟩

def sysdFindHwDescFiles (fuel : ℕ) (fs : FileSystem) : Except Stuck Result := do
  let result ← sysdCreateLinkToHwdescFiles m fuel fs
  return if result.rc ≠ 0 then { result with rc := -1 } else result

end Program

/-- The text without quotes around it. -/
def unquote (s : CStr) : CStr :=
  if s.head? = some 34 ∧ s.getLast? = some 34 then s.tail.dropLast else s

/-- The first line of a command's output that is no comment, without its last byte and
without quotes. -/
def ReadsAs (stream : Option CStr) (name : CStr) : Prop :=
  ∃ text line, stream = some text ∧ firstLine text = some line ∧ name = unquote line.dropLast

section Names

/-- The block holds the text without its quotes afterwards. -/
theorem stripQuotes_holds {s : CStr} (hs : 0 ∉ s) (after : List UInt8) :
    ∃ block, stripQuotes (s ++ 0 :: after) = some block ∧ strAt block 0 = some (unquote s) := by
  have hkept : ¬ (s.head? = some 34 ∧ s.getLast? = some 34) →
      ¬ ((s ++ 0 :: after)[0]? = some 34 ∧ (s ++ 0 :: after)[s.length - 1]? = some 34) →
      ∃ block, stripQuotes (s ++ 0 :: after) = some block ∧ strAt block 0 = some (unquote s) := by
    intro hquotes hbytes
    refine ⟨_, ?_, (strAt_zero hs after).trans ?_⟩
    · unfold stripQuotes
      rw [strAt_zero hs, Option.bind_eq_bind, Option.bind_some]
      exact if_neg hbytes
    · rw [unquote, if_neg hquotes]
  rcases s with _ | ⟨c, t⟩
  · exact hkept (by simp) (by simp)
  rcases List.eq_nil_or_concat t with rfl | ⟨mid, d, rfl⟩
  · by_cases hc : c = 34
    · subst hc
      exact ⟨0 :: 0 :: after, by simp [stripQuotes, strAt, cut, write, memmove], by
        simp [strAt, cut, unquote]⟩
    · exact hkept (by simp [hc]) (by simp [hc])
  · rw [List.concat_eq_append] at hs hkept ⊢
    have hhead : (c :: (mid ++ [d])).head? = some c := rfl
    have hlast : (c :: (mid ++ [d])).getLast? = some d := by
      rw [← List.cons_append, List.getLast?_concat]
    have hlength : (c :: (mid ++ [d])).length - 1 = (c :: mid).length := by simp
    have hfirst : ((c :: (mid ++ [d])) ++ 0 :: after)[0]? = some c := rfl
    have hend : ((c :: (mid ++ [d])) ++ 0 :: after)[(c :: mid).length]? = some d := by
      rw [← List.cons_append, List.append_assoc, List.getElem?_append_right (Nat.le_refl _),
        Nat.sub_self]
      rfl
    by_cases hquotes : c = 34 ∧ d = 34
    · obtain ⟨rfl, rfl⟩ := hquotes
      have hmid : 0 ∉ mid := fun hnul => hs (by simp [hnul])
      have hwrite : write ((34 :: (mid ++ [34])) ++ 0 :: after) (34 :: mid).length [0] =
          some ((34 :: mid) ++ ([0] ++ 0 :: after)) := by
        have h := write_append (34 :: mid) [34] (0 :: after) [0] rfl
        rwa [← List.append_assoc] at h
      obtain ⟨after', hmove, _⟩ := memmove_append [] [34] mid (0 :: after)
      refine ⟨mid ++ 0 :: after', ?_, (strAt_zero hmid after').trans ?_⟩
      · unfold stripQuotes
        rw [strAt_zero hs, Option.bind_eq_bind, Option.bind_some]
        dsimp only
        rw [hlength, if_pos ⟨hfirst, hend⟩, hwrite, Option.bind_some]
        rw [Nat.add_comm 1 mid.length] at hmove
        exact hmove
      · rw [unquote, if_pos ⟨hhead, hlast⟩, List.tail_cons, List.dropLast_concat]
    · refine hkept ?_ ?_
      · rw [hhead, hlast]
        simpa using hquotes
      · rw [hlength, hfirst, hend]
        simpa using hquotes

variable {heap : Heap} {stream : CStr}

/-- More fuel changes nothing once the loop has ended. -/
theorem readLines_mono {outcome : Outcome} {fuel k : ℕ} (more : ℕ)
    (h : readLines heap fuel k stream = some outcome) :
    readLines heap (fuel + more) k stream = some outcome := by
  induction fuel generalizing k stream with
  | zero => cases h
  | succ fuel ih =>
    rw [Nat.add_right_comm, readLines]
    rw [readLines] at h
    generalize SysCmdOut.getline heap k stream = got at h ⊢
    by_cases hend : got.nbytes ≤ 0
    · rw [if_pos hend] at h ⊢
      exact h
    · rw [if_neg hend] at h ⊢
      cases hbuf : got.buf with
      | nil =>
        rw [hbuf] at h
        exact h
      | cons c rest =>
        rw [hbuf] at h
        dsimp only at h ⊢
        split_ifs at h ⊢
        · exact ih h
        · exact h
        · exact h
        · exact ih h

/-- A terminated text and what comes behind it. -/
theorem eq_append_of_strAt {block : Block} {s : CStr} (h : strAt block 0 = some s) :
    0 ∉ s ∧ ∃ after, block = s ++ 0 :: after := by
  have hnul : 0 ∈ block := by
    unfold strAt at h
    split_ifs at h with hmem
    exact hmem
  obtain ⟨front, after, rfl, hfront⟩ := List.eq_append_cons_of_mem hnul
  rw [strAt_zero hfront] at h
  cases h
  exact ⟨hfront, after, rfl⟩

theorem stripped_of_strAt {block : Block} {s : CStr} (h : strAt block 0 = some s) :
    ∃ stripped, stripQuotes block = some stripped ∧ strAt stripped 0 = some (unquote s) := by
  obtain ⟨hs, after, rfl⟩ := eq_append_of_strAt h
  exact stripQuotes_holds hs after

variable {output : Option CStr} {name : CStr}

/-- The name is read, given time. -/
theorem exists_read (heap : Heap) (hnul : ∀ text, output = some text → 0 ∉ text)
    (h : ReadsAs output name) :
    ∃ block stripped fuel, (∀ more, getSysCmdOut heap (fuel + more) output =
      some (.returned (some block))) ∧ stripQuotes block = some stripped ∧
        strAt stripped 0 = some name := by
  obtain ⟨text, line, rfl, hline, rfl⟩ := h
  obtain ⟨block, hstr, ⟨fuel, hrun⟩, _⟩ :=
    SysCmdOut.readLines_some heap (hnul text rfl) hline 0
  obtain ⟨stripped, hstripped, hname⟩ := stripped_of_strAt hstr
  exact ⟨block, stripped, fuel, fun more => readLines_mono more hrun, hstripped, hname⟩

/-- What is returned is the name, or the command could not be run. -/
theorem read_of_returned {heap : Heap} {fuel : ℕ} {block : Option Block}
    (hnul : ∀ text, output = some text → 0 ∉ text)
    (h : getSysCmdOut heap fuel output = some (.returned block)) :
    (output = none ∧ block = none) ∨ ∃ name block' stripped, ReadsAs output name ∧
      block = some block' ∧ stripQuotes block' = some stripped ∧ strAt stripped 0 = some name := by
  cases output with
  | none =>
    cases h
    exact Or.inl ⟨rfl, rfl⟩
  | some text =>
    right
    cases hline : firstLine text with
    | none =>
      rcases SysCmdOut.readLines_none heap (hnul text rfl) hline fuel 0 with hbad | hbad
      · cases hbad.symm.trans h
      · cases hbad.symm.trans h
    | some line =>
      obtain ⟨block', hstr, _, hall⟩ := SysCmdOut.readLines_some heap (hnul text rfl) hline 0
      obtain ⟨stripped, hstripped, hname⟩ := stripped_of_strAt hstr
      rcases hall fuel with hbad | hsome
      · cases hbad.symm.trans h
      · cases hsome.symm.trans h
        exact ⟨_, block', stripped, ⟨text, line, rfl, hline, rfl⟩, rfl, hstripped, hname⟩

end Names

section Platform

variable {m : Machine} {fs : FileSystem} {fuel : ℕ} {x y : CStr} {r : Result}

def Machine.IsManufacturer (m : Machine) (name : CStr) : Prop :=
  if m.simulation then name = genericX86Manufacturer else ReadsAs m.manufacturer.2 name

def Machine.IsProductName (m : Machine) (name : CStr) : Prop :=
  if m.simulation then name = genericX86ProductName else ReadsAs m.productName.2 name

/-- The outputs of the commands are texts. -/
structure Machine.Textual (m : Machine) : Prop where
  manufacturer : ∀ text, m.manufacturer.2 = some text → 0 ∉ text
  productName : ∀ text, m.productName.2 = some text → 0 ∉ text

/-- The directory is there and the link to it can be made. -/
structure Linkable (m : Machine) (fs : FileSystem) (dir : CStr) : Prop where
  found : (stat fs dir).isSome = true
  parent : (fs m.hwdescFileLinkPath).isSome = true ∨ m.mkdirWorks = true
  free : fs m.hwdescFileLink = none ∨ m.removes = true
  works : m.symlinkWorks = true

def withParent (m : Machine) (fs : FileSystem) : FileSystem :=
  Function.update fs m.hwdescFileLinkPath ((fs m.hwdescFileLinkPath).or (some .directory))

/-- The link, in its directory, and nothing else. -/
def linked (m : Machine) (fs : FileSystem) (dir : CStr) : FileSystem :=
  Function.update (withParent m fs) m.hwdescFileLink (some (.link dir))

/-- Nothing but the link and its directory is touched, and a failure makes no new link. -/
structure Contained (m : Machine) (fs : FileSystem) (r : Result) : Prop where
  others : ∀ path, path ≠ m.hwdescFileLink → path ≠ m.hwdescFileLinkPath → r.fs path = fs path
  link : r.rc ≠ 0 → r.fs m.hwdescFileLink = fs m.hwdescFileLink ∨ r.fs m.hwdescFileLink = none
  status : r.rc ≠ 0 → r.rc = -1

theorem hwdescFileLinkPath_ne (m : Machine) : m.hwdescFileLinkPath ≠ m.hwdescFileLink := by
  intro h
  have hlength := congrArg List.length (List.append_cancel_left h)
  revert hlength
  decide

theorem withParent_of_ne {path : CStr} (h : path ≠ m.hwdescFileLinkPath) :
    withParent m fs path = fs path := Function.update_of_ne h _ _

theorem withParent_remove (m : Machine) (fs : FileSystem) :
    withParent m (remove m.removes fs m.hwdescFileLink) =
      remove m.removes (withParent m fs) m.hwdescFileLink := by
  have hne := hwdescFileLinkPath_ne m
  unfold withParent
  rw [remove_of_ne hne]
  unfold remove
  split_ifs
  · exact (Function.update_comm hne _ _ _).symm
  · rfl

theorem createLinkToDescFiles_cases (m : Machine) (x y : CStr) (fs : FileSystem) :
    (stat fs (hwDescDir m x y) = none ∧
      createLinkToDescFiles m x y fs = ⟨-1, hwDescDir m x y, fs⟩) ∨
    (stat fs (hwDescDir m x y) ≠ none ∧ fs m.hwdescFileLinkPath = none ∧ m.mkdirWorks = false ∧
      createLinkToDescFiles m x y fs =
        ⟨-1, hwDescDir m x y, remove m.removes fs m.hwdescFileLink⟩) ∨
    (stat fs (hwDescDir m x y) ≠ none ∧
      ((fs m.hwdescFileLinkPath).isSome = true ∨ m.mkdirWorks = true) ∧
      createLinkToDescFiles m x y fs = createLink m (hwDescDir m x y)
        (remove m.removes (withParent m fs) m.hwdescFileLink)) := by
  have hparent := @remove_of_ne m.removes fs _ _ (hwdescFileLinkPath_ne m)
  unfold createLinkToDescFiles
  cases hstat : stat fs (hwDescDir m x y) with
  | none => exact Or.inl ⟨rfl, by simp [hstat]⟩
  | some found =>
    right
    rw [← withParent_remove]
    unfold mkdir withParent
    cases hpath : fs m.hwdescFileLinkPath with
    | some node =>
      refine Or.inr ⟨by simp, Or.inl rfl, ?_⟩
      have hsame : Function.update (remove m.removes fs m.hwdescFileLink) m.hwdescFileLinkPath
          (some node) = remove m.removes fs m.hwdescFileLink := by
        rw [← hpath, ← hparent, Function.update_eq_self]
      simp [hstat, hparent, hpath, hsame]
    | none =>
      cases hworks : m.mkdirWorks with
      | true => exact Or.inr ⟨by simp, Or.inr rfl, by simp [hstat, hparent, hpath]⟩
      | false => exact Or.inl ⟨by simp, rfl, rfl, by simp [hstat, hparent, hpath]⟩

theorem createLink_cases (m : Machine) (dir : CStr) (fs : FileSystem) :
    (((withParent m fs) m.hwdescFileLink = none ∨ m.removes = true) ∧ m.symlinkWorks = true ∧
      createLink m dir (remove m.removes (withParent m fs) m.hwdescFileLink) =
        ⟨0, dir, linked m fs dir⟩) ∨
    (¬ (((withParent m fs) m.hwdescFileLink = none ∨ m.removes = true) ∧
        m.symlinkWorks = true) ∧
      createLink m dir (remove m.removes (withParent m fs) m.hwdescFileLink) =
        ⟨-1, dir, remove m.removes (withParent m fs) m.hwdescFileLink⟩) := by
  unfold createLink
  cases h : symlink m.symlinkWorks (remove m.removes (withParent m fs) m.hwdescFileLink) dir
    m.hwdescFileLink with
  | error e =>
    refine Or.inr ⟨fun ⟨hfree, hworks⟩ => ?_, rfl⟩
    rw [symlink_remove_ok_iff.mpr ⟨hfree, hworks, rfl⟩] at h
    cases h
  | ok fs' =>
    obtain ⟨hfree, hworks, rfl⟩ := symlink_remove_ok_iff.mp h
    exact Or.inl ⟨hfree, hworks, rfl⟩

theorem createLinkToDescFiles_linkable (h : Linkable m fs (hwDescDir m x y)) :
    createLinkToDescFiles m x y fs =
      ⟨0, hwDescDir m x y, linked m fs (hwDescDir m x y)⟩ := by
  have hfree : withParent m fs m.hwdescFileLink = none ∨ m.removes = true := by
    rw [withParent_of_ne (Ne.symm (hwdescFileLinkPath_ne m))]
    exact h.free
  rcases createLinkToDescFiles_cases m x y fs with ⟨hnone, _⟩ | ⟨_, hnone, hnot, _⟩ | ⟨_, _, heq⟩
  · have hfound := h.found
    rw [hnone] at hfound
    cases hfound
  · rcases h.parent with hparent | hworks
    · rw [hnone] at hparent
      cases hparent
    · rw [hnot] at hworks
      cases hworks
  · rw [heq]
    rcases createLink_cases m (hwDescDir m x y) fs with ⟨_, _, hlink⟩ | ⟨hnot, _⟩
    · exact hlink
    · exact absurd ⟨hfree, h.works⟩ hnot

theorem linkable_of_rc (h : (createLinkToDescFiles m x y fs).rc = 0) :
    Linkable m fs (hwDescDir m x y) := by
  rcases createLinkToDescFiles_cases m x y fs with
    ⟨_, heq⟩ | ⟨_, _, _, heq⟩ | ⟨hfound, hparent, heq⟩
  · rw [heq] at h
    cases h
  · rw [heq] at h
    cases h
  · rw [heq] at h
    rcases createLink_cases m (hwDescDir m x y) fs with ⟨hfree, hworks, _⟩ | ⟨_, hlink⟩
    · rw [withParent_of_ne (Ne.symm (hwdescFileLinkPath_ne m))] at hfree
      exact ⟨Option.isSome_iff_ne_none.mpr hfound, hparent, hfree, hworks⟩
    · rw [hlink] at h
      cases h

theorem contained_createLinkToDescFiles (m : Machine) (x y : CStr) (fs : FileSystem) :
    Contained m fs (createLinkToDescFiles m x y fs) := by
  have hremoved : ∀ fs' : FileSystem, fs' m.hwdescFileLink = fs m.hwdescFileLink →
      remove m.removes fs' m.hwdescFileLink m.hwdescFileLink = fs m.hwdescFileLink ∨
        remove m.removes fs' m.hwdescFileLink m.hwdescFileLink = none := by
    intro fs' hsame
    unfold remove
    split_ifs
    · exact Or.inr (Function.update_self _ _ _)
    · exact Or.inl hsame
  have hlink := @withParent_of_ne m fs _ (Ne.symm (hwdescFileLinkPath_ne m))
  rcases createLinkToDescFiles_cases m x y fs with ⟨_, heq⟩ | ⟨_, _, _, heq⟩ | ⟨_, _, heq⟩
  · rw [heq]
    exact ⟨fun _ _ _ => rfl, fun _ => Or.inl rfl, fun _ => rfl⟩
  · rw [heq]
    exact ⟨fun path hne _ => remove_of_ne hne, fun _ => hremoved fs rfl, fun _ => rfl⟩
  · rw [heq]
    rcases createLink_cases m (hwDescDir m x y) fs with ⟨_, _, hmade⟩ | ⟨_, hmade⟩
    · rw [hmade]
      refine ⟨fun path hne hparent => ?_, fun hrc => absurd rfl hrc, fun hrc => absurd rfl hrc⟩
      exact (Function.update_of_ne hne _ _).trans (withParent_of_ne hparent)
    · rw [hmade]
      refine ⟨fun path hne hparent => ?_, fun _ => hremoved _ hlink, fun _ => rfl⟩
      exact (remove_of_ne hne).trans (withParent_of_ne hparent)

theorem sysdFindHwDescFiles_of_ok (h : sysdCreateLinkToHwdescFiles m fuel fs = .ok r)
    (hstatus : r.rc ≠ 0 → r.rc = -1) : sysdFindHwDescFiles m fuel fs = .ok r := by
  unfold sysdFindHwDescFiles
  rw [h]
  by_cases hrc : r.rc = 0
  · simp [hrc, Except.bind, bind, pure, Except.pure]
  · have hsame : { r with rc := -1 } = r := by rw [← hstatus hrc]
    simp [hrc, hsame, Except.bind, bind, pure, Except.pure]

theorem exists_findHwDescFiles (htext : m.Textual) (hx : m.IsManufacturer x)
    (hy : m.IsProductName y) :
    ∃ fuel, sysdFindHwDescFiles m fuel fs = .ok (createLinkToDescFiles m x y fs) := by
  have hstatus := (contained_createLinkToDescFiles m x y fs).status
  unfold Machine.IsManufacturer at hx
  unfold Machine.IsProductName at hy
  cases hsimulation : m.simulation with
  | true =>
    rw [if_pos hsimulation] at hx hy
    refine ⟨0, sysdFindHwDescFiles_of_ok ?_ hstatus⟩
    rw [sysdCreateLinkToHwdescFiles, if_pos hsimulation, hx, hy]
  | false =>
    have hnot : ¬ m.simulation = true := by simp [hsimulation]
    rw [if_neg hnot] at hx hy
    obtain ⟨b₁, t₁, fuel₁, hrun₁, hstrip₁, hstr₁⟩ :=
      exists_read m.manufacturer.1 htext.manufacturer hx
    obtain ⟨b₂, t₂, fuel₂, hrun₂, hstrip₂, hstr₂⟩ :=
      exists_read m.productName.1 htext.productName hy
    have hfuel : getSysCmdOut m.productName.1 (fuel₁ + fuel₂) m.productName.2 =
        some (.returned (some b₂)) := by
      rw [Nat.add_comm]
      exact hrun₂ fuel₁
    have hnames : getManufAndProdname m (fuel₁ + fuel₂) = .ok (some t₁, some t₂) := by
      unfold getManufAndProdname
      rw [hrun₁ fuel₂, hfuel]
      simp [finished, hstrip₁, hstrip₂, inBounds, Except.bind, bind, pure, Except.pure]
    refine ⟨fuel₁ + fuel₂, sysdFindHwDescFiles_of_ok ?_ hstatus⟩
    rw [sysdCreateLinkToHwdescFiles, if_neg hnot, hnames]
    simp [textOf, hstr₁, hstr₂, Except.bind, bind, pure, Except.pure]

/-- A call that comes back has the block of the name, or the command could not be run. -/
theorem finished_ok {heap : Heap} {output : Option CStr} {block : Option Block}
    (hnul : ∀ text, output = some text → 0 ∉ text)
    (h : finished (getSysCmdOut heap fuel output) = .ok block) :
    block = none ∨ ∃ name block' stripped, ReadsAs output name ∧ block = some block' ∧
      stripQuotes block' = some stripped ∧ strAt stripped 0 = some name := by
  have hreturned : getSysCmdOut heap fuel output = some (.returned block) := by
    cases hrun : getSysCmdOut heap fuel output with
    | none =>
      rw [hrun] at h
      cases h
    | some outcome =>
      rw [hrun] at h
      cases outcome with
      | outOfBounds => cases h
      | returned found =>
        cases h
        rfl
  rcases read_of_returned hnul hreturned with ⟨_, hnone⟩ | hread
  · exact Or.inl hnone
  · exact Or.inr hread

theorem getManufAndProdname_ok (htext : m.Textual) {names : Option Block × Option Block}
    (h : getManufAndProdname m fuel = .ok names) :
    (names.1 = none ∨ names.2 = none) ∨ ∃ x y block block', names = (some block, some block') ∧
      ReadsAs m.manufacturer.2 x ∧ strAt block 0 = some x ∧
        ReadsAs m.productName.2 y ∧ strAt block' 0 = some y := by
  unfold getManufAndProdname at h
  cases hfirst : finished (getSysCmdOut m.manufacturer.1 fuel m.manufacturer.2) with
  | error e =>
    rw [hfirst] at h
    cases h
  | ok found =>
    rw [hfirst] at h
    rcases finished_ok htext.manufacturer hfirst with rfl | ⟨x, b, t, hx, rfl, hstrip, hstr⟩
    · cases h
      exact Or.inl (Or.inl rfl)
    · change (inBounds (stripQuotes b) >>= fun manufacturer => _) = _ at h
      rw [hstrip] at h
      change (finished (getSysCmdOut m.productName.1 fuel m.productName.2) >>=
        fun productName => _) = _ at h
      cases hsecond : finished (getSysCmdOut m.productName.1 fuel m.productName.2) with
      | error e =>
        rw [hsecond] at h
        cases h
      | ok found' =>
        rw [hsecond] at h
        rcases finished_ok htext.productName hsecond with rfl | ⟨y, b', t', hy, rfl, hstrip', hstr'⟩
        · cases h
          exact Or.inl (Or.inr rfl)
        · change (inBounds (stripQuotes b') >>= fun productName => _) = _ at h
          rw [hstrip'] at h
          cases h
          exact Or.inr ⟨x, y, t, t', rfl, hx, hstr, hy, hstr'⟩

/-- A call that comes back has read two names, or a command could not be run. -/
theorem findHwDescFiles_ok (htext : m.Textual) (h : sysdFindHwDescFiles m fuel fs = .ok r) :
    (∃ x y, m.IsManufacturer x ∧ m.IsProductName y ∧ r = createLinkToDescFiles m x y fs) ∨
      r = ⟨-1, cstr "/", fs⟩ := by
  obtain ⟨q, hq⟩ : ∃ q, sysdCreateLinkToHwdescFiles m fuel fs = .ok q := by
    unfold sysdFindHwDescFiles at h
    cases hq : sysdCreateLinkToHwdescFiles m fuel fs with
    | error e =>
      rw [hq] at h
      cases h
    | ok q => exact ⟨q, rfl⟩
  have hcases : (∃ x y, m.IsManufacturer x ∧ m.IsProductName y ∧
      q = createLinkToDescFiles m x y fs) ∨ q = ⟨-1, cstr "/", fs⟩ := by
    unfold sysdCreateLinkToHwdescFiles at hq
    split_ifs at hq with hsimulation
    · cases hq
      refine Or.inl ⟨genericX86Manufacturer, genericX86ProductName, ?_, ?_, rfl⟩
      · rw [Machine.IsManufacturer, if_pos hsimulation]
      · rw [Machine.IsProductName, if_pos hsimulation]
    · cases hnames : getManufAndProdname m fuel with
      | error e =>
        rw [hnames] at hq
        cases hq
      | ok names =>
        rw [hnames] at hq
        obtain ⟨a, b⟩ := names
        rcases getManufAndProdname_ok htext hnames with hmissing |
          ⟨x, y, block, block', hsome, hx, hstr, hy, hstr'⟩
        · right
          rcases hmissing with rfl | rfl
          · cases hq
            rfl
          · cases a <;> cases hq <;> rfl
        · left
          cases hsome
          change (textOf block >>= fun manufacturer => textOf block' >>= fun productName =>
            _) = _ at hq
          rw [textOf, hstr, textOf, hstr'] at hq
          cases hq
          refine ⟨x, y, ?_, ?_, rfl⟩
          · rwa [Machine.IsManufacturer, if_neg hsimulation]
          · rwa [Machine.IsProductName, if_neg hsimulation]
  have hstatus : q.rc ≠ 0 → q.rc = -1 := by
    rcases hcases with ⟨x, y, _, _, rfl⟩ | rfl
    · exact (contained_createLinkToDescFiles m x y fs).status
    · exact fun _ => rfl
  have hsame := sysdFindHwDescFiles_of_ok hq hstatus
  rw [h] at hsame
  cases hsame
  exact hcases

theorem linked_of_ok (htext : m.Textual) (h : sysdFindHwDescFiles m fuel fs = .ok r)
    (hrc : r.rc = 0) :
    ∃ x y, m.IsManufacturer x ∧ m.IsProductName y ∧ Linkable m fs (hwDescDir m x y) ∧
      r = ⟨0, hwDescDir m x y, linked m fs (hwDescDir m x y)⟩ := by
  rcases findHwDescFiles_ok htext h with ⟨x, y, hx, hy, rfl⟩ | rfl
  · have hlinkable := linkable_of_rc hrc
    exact ⟨x, y, hx, hy, hlinkable, createLinkToDescFiles_linkable hlinkable⟩
  · cases hrc

/-- The link to the hardware description is made exactly if both names can be read, the
directory that they name is there and the link can be made; then the link leads to that
directory and it is the directory that is used. A call that fails makes no link. -/
theorem findHwDescFiles_iff (htext : m.Textual) (fs : FileSystem) (r : Result) :
    ((∃ fuel, sysdFindHwDescFiles m fuel fs = .ok r) ∧ r.rc = 0 ↔
      ∃ x y, m.IsManufacturer x ∧ m.IsProductName y ∧ Linkable m fs (hwDescDir m x y) ∧
        r = ⟨0, hwDescDir m x y, linked m fs (hwDescDir m x y)⟩) ∧
      ∀ fuel, sysdFindHwDescFiles m fuel fs = .ok r → Contained m fs r := by
  refine ⟨⟨?_, ?_⟩, fun fuel h => ?_⟩
  · rintro ⟨⟨fuel, h⟩, hrc⟩
    exact linked_of_ok htext h hrc
  · rintro ⟨x, y, hx, hy, hlinkable, rfl⟩
    obtain ⟨fuel, h⟩ := @exists_findHwDescFiles m fs _ _ htext hx hy
    rw [createLinkToDescFiles_linkable hlinkable] at h
    exact ⟨⟨fuel, h⟩, rfl⟩
  · rcases findHwDescFiles_ok htext h with ⟨x, y, _, _, rfl⟩ | rfl
    · exact contained_createLinkToDescFiles m x y fs
    · exact ⟨fun _ _ _ => rfl, fun _ => Or.inl rfl, fun _ => rfl⟩

end Platform

/-- A switch whose manufacturer is printed in quotes after a comment. -/
def dellMachine : Machine where
  simulation := false
  sysconfdir := cstr "/etc"
  manufacturer := (SysCmdOut.clearHeap, some (cstr "# SMBIOS\n\"Dell\"\n"))
  productName := (SysCmdOut.clearHeap, some (cstr "S6000\n"))
  removes := true
  mkdirWorks := true
  symlinkWorks := true

/-- The description is there, and a link to that of another switch. -/
def dellFiles : FileSystem := fun path =>
  if path = cstr "/etc/openswitch/platform/Dell/S6000" then some .directory
  else if path = cstr "/etc/openswitch" then some .directory
  else if path = cstr "/etc/openswitch/hwdesc" then
    some (.link (cstr "/etc/openswitch/platform/Dell/Z9000"))
  else none

theorem findHwDescFiles_dell : ∃ fuel r, sysdFindHwDescFiles dellMachine fuel dellFiles = .ok r ∧
    r.rc = 0 ∧ r.gHwDescDir = cstr "/etc/openswitch/platform/Dell/S6000" ∧
      readlink r.fs dellMachine.hwdescFileLink = some r.gHwDescDir := by
  have htext : dellMachine.Textual :=
    ⟨fun text h => by cases h; decide, fun text h => by cases h; decide⟩
  have hdir : hwDescDir dellMachine (cstr "Dell") (cstr "S6000") =
      cstr "/etc/openswitch/platform/Dell/S6000" := by decide
  obtain ⟨⟨fuel, hrun⟩, hrc⟩ := (findHwDescFiles_iff htext dellFiles _).1.mpr
    ⟨cstr "Dell", cstr "S6000", ⟨_, cstr "\"Dell\"\n", rfl, by decide, by decide⟩,
      ⟨_, cstr "S6000\n", rfl, by decide, by decide⟩,
      ⟨by decide, Or.inr rfl, Or.inr rfl, rfl⟩, rfl⟩
  exact ⟨fuel, _, hrun, hrc, hdir, readlink_update _ _ _⟩

end OpsSysd.HwDesc
