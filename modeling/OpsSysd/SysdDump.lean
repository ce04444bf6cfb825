import OpsSysd.Decimal
import OpsSysd.Manifest
import OpsSysd.StringBlock

/-!
The diagnostic dump: headings, the daemons and the management interface are
appended to the caller's buffer, each with the room that is left as the bound.
The buffer always holds the first bytes of what is printed. The loop over the
daemons array runs as often as there are hardware daemons, so the last entries
are missing when there are others.
-/

namespace OpsSysd.SysdDump

open CString StringBlock Platform Manifest

def daemonInfoHeading : CStr := cstr "=============== Daemon Info =========================\n"
def columnsHeading : CStr := cstr "Name\t\t\tis_hw_handler\t\t\tcur_hw\n"
def mgmtIntfHeading : CStr := cstr "=============== Mgmt_intf Info ==========================\n"
def tabs : CStr := cstr "\t\t\t"
def newline : CStr := cstr "\n"

/-- `REM_BUF_LEN`: the length of the string is unsigned, so the difference wraps. -/
def remBufLen (buflen : ℤ) (strlen : ℕ) : ℕ := ((buflen - 1 - strlen) % 2 ^ 64).toNat

/-- `strncat(buf, src, REM_BUF_LEN)`. -/
def append (buflen : ℤ) (buf : Block) (src : CStr) : Option Block :=
  (strAt buf 0).bind fun s => strncat buf src (remBufLen buflen s.length)

/-- `sprintf` into `tmp_buf`. -/
def sprintf (s : CStr) : Option CStr := if s.length < 100 then some s else none

def hwHandlerText (d : DaemonInfo) : CStr := decimal (if d.isHwHandler then 1 else 0)

/-- The body of the loop. -/
def dumpDaemon (buflen : ℤ) (d : DaemonInfo) (buf : Block) : Option Block := do
  let buf ← append buflen buf d.name
  let buf ← append buflen buf tabs
  let tmpBuf ← sprintf (hwHandlerText d)
  let buf ← append buflen buf tmpBuf
  let buf ← append buflen buf tabs
  let tmpBuf ← sprintf (decimal d.curHw)
  let buf ← append buflen buf tmpBuf
  append buflen buf newline

/-- The loop from `i` on. -/
def dumpDaemons (g : Globals) (buflen : ℤ) (i : ℕ) (buf : Block) : Option Block :=
  if (g.numHwDaemons : ℤ) - 1 ≥ i then
    (g.daemons[i]?).bind fun d =>
      (dumpDaemon buflen d buf).bind fun buf => dumpDaemons g buflen (i + 1) buf
  else some buf
termination_by g.numHwDaemons - i

def sysdDump (g : Globals) (buf : Block) (buflen : ℤ) : Option Block := do
  let buf ← strcpy buf daemonInfoHeading
  let buf ← append buflen buf columnsHeading
  let buf ← dumpDaemons g buflen 0 buf
  let buf ← append buflen buf mgmtIntfHeading
  let mgmtIntf ← g.mgmtIntf
  let buf ← append buflen buf mgmtIntf.name
  append buflen buf newline

/-- The line of a daemon. -/
def daemonLine (d : DaemonInfo) : CStr :=
  d.name ++ tabs ++ hwHandlerText d ++ tabs ++ decimal d.curHw ++ newline

def daemonLines (daemons : List DaemonInfo) : CStr := (daemons.map daemonLine).flatten

def headings : CStr := daemonInfoHeading ++ columnsHeading

def mgmtSection (m : MgmtIntf) : CStr := mgmtIntfHeading ++ m.name ++ newline

/-- The whole text of the dump. -/
def fullText (g : Globals) (m : MgmtIntf) : CStr :=
  headings ++ daemonLines g.daemons ++ mgmtSection m

/-- The buffer keeps its size and has the first bytes of the whole text and a NUL. -/
def Complete (g : Globals) (buf : Block) : Prop :=
  ∃ m buf', g.mgmtIntf = some m ∧ sysdDump g buf buf.length = some buf' ∧
    buf'.length = buf.length ∧ strAt buf' 0 = some ((fullText g m).take (buf.length - 1))

/-- What the C types give: names are strings and `cur_hw` is a 64-bit number. -/
structure Typed (g : Globals) : Prop where
  names : ∀ d ∈ g.daemons, 0 ∉ d.name
  curHw : ∀ d ∈ g.daemons, -2 ^ 63 ≤ d.curHw ∧ d.curHw < 2 ^ 63
  mgmtIntf : ∀ m, g.mgmtIntf = some m → 0 ∉ m.name

section Appends

variable {size : ℕ}

theorem remBufLen_eq {strlen : ℕ} (hsize : size < 2 ^ 31) (h : strlen < size) :
    remBufLen size strlen = size - 1 - strlen := by
  unfold remBufLen
  rw [Int.emod_eq_of_lt (by omega) (by omega)]
  omega

theorem holds_append (hsize : size < 2 ^ 31) {text : CStr} {buf : Block}
    (h : Holds size text buf) {src : CStr} (hsrc : 0 ∉ src) :
    ∃ buf', append size buf src = some buf' ∧ Holds size (text ++ src) buf' := by
  obtain ⟨buf', hrun, hholds⟩ := h.strncat hsrc
  have hlt : (text.take (size - 1)).length < size := by
    obtain ⟨after, hshape⟩ := h.shape
    have hlength := congrArg List.length hshape
    rw [h.length_eq, List.length_append, List.length_cons] at hlength
    omega
  refine ⟨buf', ?_, hholds⟩
  rw [append, h.strAt, Option.bind_some, remBufLen_eq hsize hlt, hrun]

theorem length_hwHandlerText (d : DaemonInfo) : (hwHandlerText d).length ≤ 20 := by
  unfold hwHandlerText
  apply length_decimal
  · split_ifs <;> decide
  · split_ifs <;> decide

theorem holds_dumpDaemon (hsize : size < 2 ^ 31) {text : CStr} {buf : Block}
    (h : Holds size text buf) {d : DaemonInfo} (hname : 0 ∉ d.name)
    (hcur : -2 ^ 63 ≤ d.curHw ∧ d.curHw < 2 ^ 63) :
    ∃ buf', dumpDaemon size d buf = some buf' ∧ Holds size (text ++ daemonLine d) buf' := by
  have htabs : 0 ∉ tabs := by decide
  have hnewline : 0 ∉ newline := by decide
  have hflag : sprintf (hwHandlerText d) = some (hwHandlerText d) :=
    if_pos (Nat.lt_of_le_of_lt (length_hwHandlerText d) (by decide))
  have hcurText : sprintf (decimal d.curHw) = some (decimal d.curHw) :=
    if_pos (Nat.lt_of_le_of_lt (length_decimal hcur.1 hcur.2) (by decide))
  obtain ⟨b₁, h₁, hb₁⟩ := holds_append hsize h hname
  obtain ⟨b₂, h₂, hb₂⟩ := holds_append hsize hb₁ htabs
  have hflagText : 0 ∉ hwHandlerText d := notMem_decimal (by decide) _
  obtain ⟨b₃, h₃, hb₃⟩ := holds_append hsize hb₂ hflagText
  obtain ⟨b₄, h₄, hb₄⟩ := holds_append hsize hb₃ htabs
  obtain ⟨b₅, h₅, hb₅⟩ := holds_append hsize hb₄ (notMem_decimal (by decide) d.curHw)
  obtain ⟨b₆, h₆, hb₆⟩ := holds_append hsize hb₅ hnewline
  refine ⟨b₆, ?_, ?_⟩
  · simp only [dumpDaemon, hflag, hcurText, h₁, h₂, h₃, h₄, h₅, h₆, Option.bind_eq_bind,
      Option.bind_some]
  · simpa only [daemonLine, List.append_assoc] using hb₆

/-- The loop prints the entries from `i` up to the number of hardware daemons, whichever
they are. -/
theorem holds_dumpDaemons (hsize : size < 2 ^ 31) {g : Globals} (htyped : Typed g)
    (hnum : g.numHwDaemons ≤ g.daemons.length) (i : ℕ) {text : CStr} {buf : Block}
    (h : Holds size text buf) :
    ∃ buf', dumpDaemons g size i buf = some buf' ∧
      Holds size (text ++ daemonLines ((g.daemons.take g.numHwDaemons).drop i)) buf' := by
  induction hn : g.numHwDaemons - i generalizing i text buf with
  | zero =>
    have hstop : ¬ (g.numHwDaemons : ℤ) - 1 ≥ i := by omega
    have hnone : (g.daemons.take g.numHwDaemons).drop i = [] := by
      apply List.drop_of_length_le
      rw [List.length_take]
      omega
    refine ⟨buf, ?_, ?_⟩
    · rw [dumpDaemons, if_neg hstop]
    · rw [hnone]
      simpa [daemonLines] using h
  | succ n ih =>
    have hgo : (g.numHwDaemons : ℤ) - 1 ≥ i := by omega
    have hi : i < g.daemons.length := by omega
    have hmem : g.daemons[i] ∈ g.daemons := List.getElem_mem hi
    obtain ⟨buf₁, hrun₁, hholds₁⟩ :=
      holds_dumpDaemon hsize h (htyped.names _ hmem) (htyped.curHw _ hmem)
    obtain ⟨buf₂, hrun₂, hholds₂⟩ := ih (i + 1) hholds₁ (by omega)
    have hshow : (g.daemons.take g.numHwDaemons).drop i =
        g.daemons[i] :: (g.daemons.take g.numHwDaemons).drop (i + 1) := by
      rw [List.drop_eq_getElem_cons (by rw [List.length_take]; omega), List.getElem_take]
    refine ⟨buf₂, ?_, ?_⟩
    · rw [dumpDaemons, if_pos hgo, List.getElem?_eq_getElem hi, Option.bind_some, hrun₁,
        Option.bind_some, hrun₂]
    · rw [hshow, daemonLines, List.map_cons, List.flatten_cons, ← List.append_assoc]
      exact hholds₂

/-- The text that is printed. -/
def printedText (g : Globals) (m : MgmtIntf) : CStr :=
  headings ++ daemonLines (g.daemons.take g.numHwDaemons) ++ mgmtSection m

/-- Whatever the sizes, the dump stays in the buffer and leaves the first bytes of what it
prints. -/
theorem holds_sysdDump {g : Globals} (htyped : Typed g)
    (hnum : g.numHwDaemons ≤ g.daemons.length) {m : MgmtIntf} (hm : g.mgmtIntf = some m)
    {buf : Block} (hlarge : daemonInfoHeading.length < buf.length) (hint : buf.length < 2 ^ 31) :
    ∃ buf', sysdDump g buf buf.length = some buf' ∧
      Holds buf.length (printedText g m) buf' := by
  have hinfo : 0 ∉ daemonInfoHeading := by decide
  have hcolumns : 0 ∉ columnsHeading := by decide
  have hmgmt : 0 ∉ mgmtIntfHeading := by decide
  have hnewline : 0 ∉ newline := by decide
  obtain ⟨b₁, h₁, hb₁⟩ := holds_strcpy hinfo hlarge
  obtain ⟨b₂, h₂, hb₂⟩ := holds_append hint hb₁ hcolumns
  obtain ⟨b₃, h₃, hb₃⟩ := holds_dumpDaemons hint htyped hnum 0 hb₂
  obtain ⟨b₄, h₄, hb₄⟩ := holds_append hint hb₃ hmgmt
  obtain ⟨b₅, h₅, hb₅⟩ := holds_append hint hb₄ (htyped.mgmtIntf m hm)
  obtain ⟨b₆, h₆, hb₆⟩ := holds_append hint hb₅ hnewline
  refine ⟨b₆, ?_, ?_⟩
  · simp only [sysdDump, hm, h₁, h₂, h₃, h₄, h₅, h₆, Option.bind_eq_bind, Option.bind_some]
  · simpa only [printedText, headings, mgmtSection, List.drop_zero, List.append_assoc] using hb₆

end Appends

section Complete

/-- The number of leading bytes in which two texts agree. -/
def commonPrefix : CStr → CStr → ℕ
  | a :: s, b :: t => if a = b then commonPrefix s t + 1 else 0
  | [], _ => 0
  | _ :: _, [] => 0

theorem take_eq_take_iff_commonPrefix (s t : CStr) (n : ℕ) :
    s.take n = t.take n ↔ s = t ∨ n ≤ commonPrefix s t := by
  induction s, t using commonPrefix.induct generalizing n with
  | case1 a s t ih =>
    cases n with
    | zero => simp
    | succ n => simp [commonPrefix, ih n]
  | case2 a s b t hne =>
    cases n with
    | zero => simp
    | succ n => simp [commonPrefix, hne]
  | case3 t => cases n <;> cases t <;> simp [commonPrefix]
  | case4 a s => cases n <;> simp [commonPrefix]

theorem take_append_eq_iff (start s t : CStr) (n : ℕ) :
    (start ++ s).take n = (start ++ t).take n ↔
      s = t ∨ n ≤ start.length + commonPrefix s t := by
  rw [List.take_append, List.take_append, List.append_cancel_left_eq,
    take_eq_take_iff_commonPrefix, Nat.sub_le_iff_le_add']

theorem daemonLines_eq_nil_iff (daemons : List DaemonInfo) :
    daemonLines daemons = [] ↔ daemons = [] := by
  cases daemons with
  | nil => simp [daemonLines]
  | cons d rest =>
    have hne : daemonLine d ≠ [] := List.append_ne_nil_of_right_ne_nil _ (by decide)
    simp [daemonLines, hne]

/-- Printing only the first hardware-daemon-many entries shows in the buffer unless all are
hardware daemons or the buffer ends before the texts differ. -/
theorem take_printedText_eq_iff {g : Globals} (hnum : g.numHwDaemons ≤ g.daemons.length)
    (m : MgmtIntf) (n : ℕ) :
    (printedText g m).take n = (fullText g m).take n ↔
      g.numHwDaemons = g.daemons.length ∨
        n ≤ (headings ++ daemonLines (g.daemons.take g.numHwDaemons)).length +
          commonPrefix (mgmtSection m)
            (daemonLines (g.daemons.drop g.numHwDaemons) ++ mgmtSection m) := by
  have hsplit : daemonLines g.daemons = daemonLines (g.daemons.take g.numHwDaemons) ++
      daemonLines (g.daemons.drop g.numHwDaemons) := by
    rw [daemonLines, daemonLines, daemonLines, ← List.flatten_append, ← List.map_append,
      List.take_append_drop]
  have hnone : mgmtSection m = daemonLines (g.daemons.drop g.numHwDaemons) ++ mgmtSection m ↔
      g.numHwDaemons = g.daemons.length := by
    rw [List.self_eq_append_left, daemonLines_eq_nil_iff, List.drop_eq_nil_iff]
    omega
  have hfull : fullText g m = headings ++ daemonLines (g.daemons.take g.numHwDaemons) ++
      (daemonLines (g.daemons.drop g.numHwDaemons) ++ mgmtSection m) := by
    simp only [fullText, hsplit, List.append_assoc]
  rw [hfull, printedText, take_append_eq_iff, hnone]

theorem complete_iff_take {g : Globals} (htyped : Typed g)
    (hnum : g.numHwDaemons ≤ g.daemons.length) {buf : Block}
    (hlarge : daemonInfoHeading.length < buf.length) (hint : buf.length < 2 ^ 31) :
    Complete g buf ↔ ∃ m, g.mgmtIntf = some m ∧
      (printedText g m).take (buf.length - 1) = (fullText g m).take (buf.length - 1) := by
  constructor
  · rintro ⟨m, buf', hm, hrun, _, htext⟩
    obtain ⟨buf'', hrun', hholds⟩ := holds_sysdDump htyped hnum hm hlarge hint
    cases Option.some.inj (hrun.symm.trans hrun')
    exact ⟨m, hm, Option.some.inj (hholds.strAt.symm.trans htext)⟩
  · rintro ⟨m, hm, htext⟩
    obtain ⟨buf', hrun, hholds⟩ := holds_sysdDump htyped hnum hm hlarge hint
    refine ⟨m, buf', hm, hrun, hholds.length_eq, ?_⟩
    rw [hholds.strAt, htext]

theorem numHwDaemons_le {g : Globals} (h : g.numHwDaemons = g.daemons.countP (·.isHwHandler)) :
    g.numHwDaemons ≤ g.daemons.length := by
  rw [h]
  exact List.countP_le_length

/-- The dump is complete exactly if there is an interface and all daemons are hardware
daemons, or the buffer ends before the text of the interface differs from the lines that
are left out. -/
theorem sysdDump_complete_iff {g : Globals} (htyped : Typed g)
    (hnum : g.numHwDaemons = g.daemons.countP (·.isHwHandler)) {buf : Block}
    (hlarge : daemonInfoHeading.length < buf.length) (hint : buf.length < 2 ^ 31) :
    Complete g buf ↔ ∃ m, g.mgmtIntf = some m ∧
      (g.numHwDaemons = g.daemons.length ∨
        buf.length - 1 ≤ (headings ++ daemonLines (g.daemons.take g.numHwDaemons)).length +
          commonPrefix (mgmtSection m)
            (daemonLines (g.daemons.drop g.numHwDaemons) ++ mgmtSection m)) := by
  have hle := numHwDaemons_le hnum
  rw [complete_iff_take htyped hle hlarge hint]
  constructor
  · rintro ⟨m, hm, htext⟩
    exact ⟨m, hm, (take_printedText_eq_iff hle m _).mp htext⟩
  · rintro ⟨m, hm, hcond⟩
    exact ⟨m, hm, (take_printedText_eq_iff hle m _).mpr hcond⟩

/-- A manifest with one daemon. -/
def oneDaemon (isHwHandler : Bool) : Globals where
  daemons := [⟨cstr "ops-fand", isHwHandler, 0⟩]
  numDaemons := 1
  numHwDaemons := if isHwHandler then 1 else 0
  mgmtIntf := some ⟨0, cstr "eth0"⟩
  isMgmtIntfPresent := true

theorem oneDaemon_typed (isHwHandler : Bool) : Typed (oneDaemon isHwHandler) where
  names := by
    intro d hd
    rw [List.mem_singleton.mp hd]
    show 0 ∉ cstr "ops-fand"
    decide
  curHw := by
    intro d hd
    rw [List.mem_singleton.mp hd]
    show -2 ^ 63 ≤ (0 : ℤ) ∧ (0 : ℤ) < 2 ^ 63
    decide
  mgmtIntf := by
    intro m hm
    cases Option.some.inj hm
    decide

/-- A hardware daemon alone is dumped. -/
theorem sysdDump_complete_hwDaemon : Complete (oneDaemon true) (List.replicate 16000 0) :=
  (sysdDump_complete_iff (oneDaemon_typed true) rfl
    (by rw [List.length_replicate]; decide) (by rw [List.length_replicate]; decide)).mpr
      ⟨_, rfl, Or.inl rfl⟩

/-- Another daemon alone is missing from the dump. -/
theorem sysdDump_not_complete : ¬ Complete (oneDaemon false) (List.replicate 16000 0) := by
  have hlarge : daemonInfoHeading.length < (List.replicate 16000 (0 : UInt8)).length := by
    rw [List.length_replicate]
    decide
  have hint : (List.replicate 16000 (0 : UInt8)).length < 2 ^ 31 := by
    rw [List.length_replicate]
    decide
  rw [complete_iff_take (oneDaemon_typed false) (Nat.zero_le _) hlarge hint]
  rintro ⟨m, hm, htext⟩
  cases Option.some.inj hm
  rcases (take_printedText_eq_iff (Nat.zero_le _) _ _).mp htext with hall | hshort
  · exact absurd hall (by decide)
  · rw [List.length_replicate] at hshort
    exact absurd hshort (by decide)

end Complete

end OpsSysd.SysdDump
