import OpsSysd.StartUp
import OpsSysd.SysdDump

/-!
The main loop of the process, from the start-up to the exit. Each round makes a pass
and then serves the commands that have arrived. An exit ends the loop after the
round and releases the array of subsystems.
-/

namespace OpsSysd.Lifecycle

open CString StringBlock Ovsdb Ovsrec Platform
open Manifest (Globals)
open SysdDump (sysdDump printedText Typed holds_sysdDump numHwDaemons_le)
open StartUp (SystemLed Image Started sysdCfgYamlSetSystemStatusLed startUp FromFiles bind_ok_iff)
open InitialConfigure (Configurable)
open SysdRun (Sysd PassInput sysdRun received Cooperates Current lanePass laneDaemon)

inductive Request
  | dump
  | diagDump
  | exit
  deriving DecidableEq, Repr

/-- A pass, and the commands that have arrived by its end. -/
structure Round where
  pass : PassInput
  requests : List Request

structure Process where
  sysd : Sysd
  /-- The parent has been told that the start-up is complete. -/
  complete : Bool
  exiting : Bool
  statusLed : Option ℤ
  /-- The array of subsystems has been released. -/
  released : Bool

inductive Crash
  | fault (why : Fault)
  | useAfterFree
  | dump
  | doubleFree

def bufLen : ℕ := 16000

def supportDump : CStr := cstr "Support Dump for Platform SYS Daemon (ops-sysd)\n\n"

def zeroedBuffer : Block := List.replicate bufLen 0

/-- The name of the management interface ends in the `block` zeroed bytes that the allocator
gives for a request of none. -/
def NameEnds (block : ℕ) (g : Globals) : Prop := ∀ m ∈ g.mgmtIntf, m.name.length < block

instance (block : ℕ) (g : Globals) : Decidable (NameEnds block g) :=
  inferInstanceAs (Decidable (∀ m ∈ g.mgmtIntf, _))

/-- The string in the buffer after a dump. -/
def dumped (block : ℕ) (g : Globals) (buf : Block) : Option CStr :=
  if NameEnds block g then (sysdDump g buf bufLen).bind (fun buf => strAt buf 0) else none

def sysdDiagDumpBasicCb (block : ℕ) (g : Globals) : Option CStr := dumped block g zeroedBuffer

def sysdUnixctlDump (block : ℕ) (g : Globals) : Option CStr :=
  (strcpy zeroedBuffer supportDump).bind (dumped block g)

def orCrash {α : Type} (why : Crash) : Option α → Except Crash α
  | none => .error why
  | some a => .ok a

/-- The pass gets to `sysd_initial_configure`, which reads the array of subsystems. -/
def readsSubsystems (p : PassInput) (s : Sysd) : Bool :=
  !(received p s).lockContended && (received p s).hasLock &&
    (received p s).seqno != s.idlSeqno && (tableRows .system (received p s).snapshot).isEmpty

/-- The pass gets to `daemonize_complete`. -/
def completes (p : PassInput) (s : Sysd) : Bool :=
  !(received p s).lockContended && (received p s).hasLock

/-- The process after the pass of a round. -/
def afterPass (r : Round) (d : Sysd) (s : Process) : Process :=
  { s with sysd := d, complete := s.complete || completes r.pass s.sysd }

section Loop

variable (st : Startup) (block : ℕ) (systemLed : Option SystemLed)

def sysdExit (s : Process) : Process :=
  { s with
    exiting := true
    statusLed := (sysdCfgYamlSetSystemStatusLed systemLed false).or s.statusLed
    released := true }

def serve (s : Process) : Request → Except Crash (CStr × Process)
  | .dump => (orCrash .dump (sysdUnixctlDump block st.manifest)).map (fun text => (text, s))
  | .diagDump =>
    (orCrash .dump (sysdDiagDumpBasicCb block st.manifest)).map (fun text => (text, s))
  | .exit => if s.released then .error .doubleFree else .ok ([], sysdExit systemLed s)

def unixctlServerRun : List Request → Process → Except Crash (List CStr × Process)
  | [], s => .ok ([], s)
  | q :: rest, s => do
    let (text, s) ← serve st block systemLed s q
    let (texts, s) ← unixctlServerRun rest s
    return (text :: texts, s)

def round (r : Round) (s : Process) : Except Crash (List CStr × Process) :=
  if s.released && readsSubsystems r.pass s.sysd then .error .useAfterFree
  else match sysdRun st r.pass s.sysd with
    | .error why => .error (.fault why)
    | .ok sysd => unixctlServerRun st block systemLed r.requests (afterPass r sysd s)

/-- `while (!exiting)`, with the texts of all replies. -/
def mainLoop : List Round → Process → Except Crash (List CStr × Process)
  | [], s => .ok ([], s)
  | r :: rest, s =>
    if s.exiting then .ok ([], s)
    else do
      let (texts, s) ← round st block systemLed r s
      let (more, s) ← mainLoop rest s
      return (texts ++ more, s)

end Loop

def Process.start (s : Started) (client : ℕ) (replies : ℕ → Reply schema) : Process where
  sysd := Sysd.init client replies
  complete := false
  exiting := false
  statusLed := s.statusLed
  released := false

/-- The rounds up to the first in which an exit is served. -/
def served : List Round → List Round
  | [] => []
  | r :: rest => r :: if Request.exit ∈ r.requests then [] else served rest

def asked (rounds : List Round) : List Request := (served rounds).flatMap Round.requests

/-- There is an interface, and its name can be read. -/
def Dumpable (block : ℕ) (g : Globals) : Prop := g.mgmtIntf ≠ none ∧ NameEnds block g

/-- There is an interface to dump if a dump is asked for, and at most one exit. -/
structure Servable (block : ℕ) (g : Globals) (requests : List Request) : Prop where
  interface : ∀ q ∈ requests, q ≠ .exit → Dumpable block g
  exits : requests.count .exit ≤ 1

/-- The reply to a command: a dump prints the first entries of the daemons array, as many as
there are hardware daemons, and the interface, cut to the buffer. -/
def answer (g : Globals) (q : Request) : CStr :=
  if q = .exit then [] else
    (g.mgmtIntf.map (fun m => (printedText g m).take (bufLen - 1))).getD []

def locked (rounds : List Round) : Bool :=
  rounds.any (fun r => !r.pass.lockContended && r.pass.hasLock)

/-- The process after the rounds, its last pass having left the given state. -/
def ended (systemLed : Option SystemLed) (rounds : List Round) (d : Sysd) (s : Process) : Process :=
  let s := { s with sysd := d, complete := s.complete || locked (served rounds) }
  if Request.exit ∈ asked rounds then sysdExit systemLed s else s

structure Alive (s : Process) : Prop where
  running : s.exiting = false
  kept : s.released = false

section Dump

variable {g : Globals}

theorem length_zeroedBuffer : zeroedBuffer.length = bufLen := List.length_replicate

theorem sysdDump_of_no_interface (hnone : g.mgmtIntf = none) (buf : Block) (buflen : ℤ) :
    sysdDump g buf buflen = none := by
  unfold sysdDump
  simp only [hnone, Option.bind_eq_bind, Option.bind_none, Option.bind_fun_none]

/-- What was in the buffer is overwritten, and the text is cut where the buffer ends. -/
theorem dumped_eq (htyped : Typed g) (hnum : g.numHwDaemons ≤ g.daemons.length) (block : ℕ)
    {buf : Block} (hbuf : buf.length = bufLen) :
    dumped block g buf = if NameEnds block g then
      g.mgmtIntf.map (fun m => (printedText g m).take (bufLen - 1)) else none := by
  unfold dumped
  congr 1
  cases hm : g.mgmtIntf with
  | none => rw [sysdDump_of_no_interface hm, Option.bind_none, Option.map_none]
  | some m =>
    have hlarge : SysdDump.daemonInfoHeading.length < buf.length := by
      rw [hbuf]
      decide
    have hint : buf.length < 2 ^ 31 := by
      rw [hbuf]
      decide
    obtain ⟨buf', hrun, hholds⟩ := holds_sysdDump htyped hnum hm hlarge hint
    rw [hbuf] at hrun hholds
    rw [hrun, Option.bind_some, hholds.strAt, Option.map_some]

theorem dumps_eq (htyped : Typed g) (hnum : g.numHwDaemons ≤ g.daemons.length) (block : ℕ) :
    sysdUnixctlDump block g = (if NameEnds block g then
      g.mgmtIntf.map (fun m => (printedText g m).take (bufLen - 1)) else none) ∧
      sysdDiagDumpBasicCb block g = sysdUnixctlDump block g := by
  have hbanner : 0 ∉ supportDump := by decide
  have hfits : supportDump.length < zeroedBuffer.length := by
    rw [length_zeroedBuffer]
    decide
  obtain ⟨buf, hcopy, hbuf⟩ := holds_strcpy hbanner hfits
  have hlength : buf.length = bufLen := hbuf.length_eq.trans length_zeroedBuffer
  unfold sysdUnixctlDump sysdDiagDumpBasicCb
  rw [hcopy, Option.bind_some, dumped_eq htyped hnum block hlength,
    dumped_eq htyped hnum block length_zeroedBuffer]
  exact ⟨rfl, rfl⟩

end Dump

section Loop

variable {st : Startup} {block : ℕ} {systemLed : Option SystemLed} {s s' : Process}

theorem orCrash_eq_ok_iff {α : Type} {why : Crash} {x : Option α} {a : α} :
    orCrash why x = .ok a ↔ x = some a := by
  cases x with
  | none => exact ⟨nofun, nofun⟩
  | some b => simp [orCrash]

theorem map_eq_ok_iff {α β : Type} {x : Except Crash α} {f : α → β} {b : β} :
    x.map f = .ok b ↔ ∃ a, x = .ok a ∧ f a = b := by
  cases x with
  | error why => exact ⟨nofun, nofun⟩
  | ok a => simp [Except.map]

theorem dump_ok_iff {dump : Option CStr} {q : Request} (hq : q ≠ .exit)
    (hdump : dump = if NameEnds block st.manifest then st.manifest.mgmtIntf.map
      (fun m => (printedText st.manifest m).take (bufLen - 1)) else none) {text : CStr} :
    (orCrash .dump dump).map (fun text => (text, s)) = .ok (text, s') ↔
      Dumpable block st.manifest ∧ text = answer st.manifest q ∧ s' = s := by
  rw [map_eq_ok_iff]
  simp only [orCrash_eq_ok_iff, hdump, answer, if_neg hq, Prod.mk.injEq, Dumpable]
  by_cases hends : NameEnds block st.manifest
  · simp only [hends, if_true, and_true]
    cases hm : st.manifest.mgmtIntf with
    | none => simp
    | some m =>
      constructor
      · rintro ⟨_, hsome, rfl, rfl⟩
        exact ⟨Option.some_ne_none m, (Option.some.inj hsome).symm, rfl⟩
      · rintro ⟨_, rfl, rfl⟩
        exact ⟨_, rfl, rfl, rfl⟩
  · simp [hends]

theorem serve_ok_iff (htyped : Typed st.manifest) {q : Request} {text : CStr} :
    serve st block systemLed s q = .ok (text, s') ↔
      (q ≠ .exit → Dumpable block st.manifest) ∧ (q = .exit → s.released = false) ∧
        text = answer st.manifest q ∧ s' = if q = .exit then sysdExit systemLed s else s := by
  obtain ⟨hunixctl, hdiag⟩ := dumps_eq htyped (numHwDaemons_le st.counted.2) block
  have hanswered : ∀ {dump : Option CStr} {q : Request}, q ≠ .exit →
      dump = (if NameEnds block st.manifest then st.manifest.mgmtIntf.map
        (fun m => (printedText st.manifest m).take (bufLen - 1)) else none) →
      ((orCrash .dump dump).map (fun text => (text, s)) = .ok (text, s') ↔
        (q ≠ .exit → Dumpable block st.manifest) ∧ (q = .exit → s.released = false) ∧
          text = answer st.manifest q ∧ s' = if q = .exit then sysdExit systemLed s else s) := by
    intro dump q hq hdump
    rw [dump_ok_iff hq hdump, if_neg hq]
    exact ⟨fun ⟨hm, h⟩ => ⟨fun _ => hm, fun h' => absurd h' hq, h⟩, fun ⟨hm, _, h⟩ => ⟨hm hq, h⟩⟩
  cases q with
  | dump =>
    rw [serve]
    exact hanswered nofun hunixctl
  | diagDump =>
    rw [serve]
    exact hanswered nofun (hdiag.trans hunixctl)
  | exit =>
    unfold serve answer
    rw [if_pos rfl, if_pos rfl]
    cases hreleased : s.released with
    | true => simp
    | false =>
      constructor
      · intro h
        cases h
        exact ⟨nofun, fun _ => rfl, rfl, rfl⟩
      · rintro ⟨_, _, rfl, rfl⟩
        rfl

theorem unixctlServerRun_cons_ok_iff {q : Request} {rest : List Request} {texts : List CStr} :
    unixctlServerRun st block systemLed (q :: rest) s = .ok (texts, s') ↔
      ∃ text s₁ more, serve st block systemLed s q = .ok (text, s₁) ∧
        unixctlServerRun st block systemLed rest s₁ = .ok (more, s') ∧ texts = text :: more := by
  rw [unixctlServerRun, bind_ok_iff]
  constructor
  · rintro ⟨⟨text, s₁⟩, hserve, h⟩
    obtain ⟨⟨more, s₂⟩, hrest, h⟩ := bind_ok_iff.mp h
    cases h
    exact ⟨text, s₁, more, hserve, hrest, rfl⟩
  · rintro ⟨text, s₁, more, hserve, hrest, rfl⟩
    exact ⟨_, hserve, bind_ok_iff.mpr ⟨_, hrest, rfl⟩⟩

theorem unixctlServerRun_ok_iff (htyped : Typed st.manifest) {requests : List Request}
    {texts : List CStr} : unixctlServerRun st block systemLed requests s = .ok (texts, s') ↔
      (∀ q ∈ requests, q ≠ .exit → Dumpable block st.manifest) ∧
        requests.count .exit + s.released.toNat ≤ 1 ∧
          texts = requests.map (answer st.manifest) ∧
            s' = if Request.exit ∈ requests then sysdExit systemLed s else s := by
  induction requests generalizing s texts with
  | nil =>
    have hreleased : s.released.toNat ≤ 1 := Bool.toNat_le _
    constructor
    · intro h
      cases h
      exact ⟨nofun, by simpa using hreleased, rfl, rfl⟩
    · rintro ⟨_, _, rfl, rfl⟩
      rfl
  | cons q rest ih =>
    rw [unixctlServerRun_cons_ok_iff]
    simp only [serve_ok_iff htyped, ih]
    by_cases hq : q = .exit
    · -- The array is released now, so no exit may follow.
      subst hq
      have hleft : (sysdExit systemLed s).released.toNat = 1 := rfl
      simp only [reduceIte, List.count_cons_self]
      constructor
      · rintro ⟨_, _, _, ⟨_, hkept, rfl, rfl⟩, ⟨hdumps, hexits, rfl, rfl⟩, rfl⟩
        rw [hleft] at hexits
        have hnone : Request.exit ∉ rest := List.count_eq_zero.mp (by omega)
        refine ⟨?_, ?_, rfl, ?_⟩
        · intro q hq hne
          rcases List.mem_cons.mp hq with rfl | hrest
          · exact absurd rfl hne
          · exact hdumps q hrest hne
        · rw [hkept trivial]
          exact hexits
        · rw [if_neg hnone, if_pos List.mem_cons_self]
      · rintro ⟨hdumps, hexits, rfl, rfl⟩
        have hkept : s.released = false := by
          cases h : s.released with
          | false => rfl
          | true => rw [h, Bool.toNat_true] at hexits; omega
        have hnone : Request.exit ∉ rest := List.count_eq_zero.mp (by omega)
        refine ⟨_, _, _, ⟨nofun, fun _ => hkept, rfl, rfl⟩,
          ⟨fun q hq => hdumps q (List.mem_cons_of_mem _ hq), by omega, rfl, ?_⟩, rfl⟩
        rw [if_neg hnone, if_pos List.mem_cons_self]
    · simp only [hq, if_false, false_implies, true_and]
      constructor
      · rintro ⟨_, _, _, ⟨hm, rfl, rfl⟩, ⟨hdumps, hexits, rfl, rfl⟩, rfl⟩
        refine ⟨?_, ?_, rfl, by simp [Ne.symm hq]⟩
        · rintro q' hq'
          rcases List.mem_cons.mp hq' with rfl | hrest
          · exact hm
          · exact hdumps q' hrest
        · rwa [List.count_cons_of_ne hq]
      · rintro ⟨hdumps, hexits, rfl, rfl⟩
        rw [List.count_cons_of_ne hq] at hexits
        refine ⟨_, _, _, ⟨hdumps q List.mem_cons_self, rfl, rfl⟩,
          ⟨fun q' hq' => hdumps q' (List.mem_cons_of_mem _ hq'), hexits, rfl, ?_⟩, rfl⟩
        simp [Ne.symm hq]

theorem completes_eq (p : PassInput) (d : Sysd) :
    completes p d = (!p.lockContended && p.hasLock) := rfl

theorem round_ok_iff (htyped : Typed st.manifest) (hkept : s.released = false) {r : Round}
    {texts : List CStr} : round st block systemLed r s = .ok (texts, s') ↔
      ∃ d, sysdRun st r.pass s.sysd = .ok d ∧ Servable block st.manifest r.requests ∧
        texts = r.requests.map (answer st.manifest) ∧
          s' = if Request.exit ∈ r.requests
            then sysdExit systemLed (afterPass r d s) else afterPass r d s := by
  have hguard : ¬ (s.released && readsSubsystems r.pass s.sysd) = true := by simp [hkept]
  unfold round
  rw [if_neg hguard]
  cases sysdRun st r.pass s.sysd with
  | error why => simp
  | ok d =>
    have hserve : unixctlServerRun st block systemLed r.requests (afterPass r d s) =
        .ok (texts, s') ↔ _ := unixctlServerRun_ok_iff htyped
    have hreleased : (afterPass r d s).released = false := hkept
    rw [hreleased, Bool.toNat_false, Nat.add_zero] at hserve
    refine hserve.trans ?_
    constructor
    · rintro ⟨hinterface, hexits, htexts, hs'⟩
      exact ⟨d, rfl, ⟨hinterface, hexits⟩, htexts, hs'⟩
    · rintro ⟨_, hd, ⟨hinterface, hexits⟩, htexts, hs'⟩
      cases hd
      exact ⟨hinterface, hexits, htexts, hs'⟩

theorem mainLoop_of_exiting (h : s.exiting = true) (rounds : List Round) :
    mainLoop st block systemLed rounds s = .ok ([], s) := by
  cases rounds with
  | nil => rfl
  | cons r rest => rw [mainLoop, if_pos h]

theorem mainLoop_cons_ok_iff (h : s.exiting = false) {r : Round} {rest : List Round}
    {texts : List CStr} : mainLoop st block systemLed (r :: rest) s = .ok (texts, s') ↔
      ∃ first s₁ more, round st block systemLed r s = .ok (first, s₁) ∧
        mainLoop st block systemLed rest s₁ = .ok (more, s') ∧ texts = first ++ more := by
  rw [mainLoop, h, if_neg Bool.false_ne_true, bind_ok_iff]
  constructor
  · rintro ⟨⟨first, s₁⟩, hround, h⟩
    obtain ⟨⟨more, s₂⟩, hrest, h⟩ := bind_ok_iff.mp h
    cases h
    exact ⟨first, s₁, more, hround, hrest, rfl⟩
  · rintro ⟨first, s₁, more, hround, hrest, rfl⟩
    exact ⟨_, hround, bind_ok_iff.mpr ⟨_, hrest, rfl⟩⟩

section Rounds

variable {r : Round} {rest : List Round}

theorem served_of_exit (h : Request.exit ∈ r.requests) : served (r :: rest) = [r] := by
  rw [served, if_pos h]

theorem served_of_not_exit (h : Request.exit ∉ r.requests) :
    served (r :: rest) = r :: served rest := by
  rw [served, if_neg h]

theorem asked_of_exit (h : Request.exit ∈ r.requests) : asked (r :: rest) = r.requests := by
  rw [asked, served_of_exit h, List.flatMap_singleton]

theorem asked_of_not_exit (h : Request.exit ∉ r.requests) :
    asked (r :: rest) = r.requests ++ asked rest := by
  rw [asked, served_of_not_exit h, List.flatMap_cons, ← asked]

theorem ended_of_exit (h : Request.exit ∈ r.requests) (d : Sysd) :
    ended systemLed (r :: rest) d s = sysdExit systemLed (afterPass r d s) := by
  unfold ended
  rw [asked_of_exit h, served_of_exit h, if_pos h]
  simp [locked, afterPass, completes_eq]

theorem ended_of_not_exit (h : Request.exit ∉ r.requests) (d d' : Sysd) :
    ended systemLed (r :: rest) d' s = ended systemLed rest d' (afterPass r d s) := by
  have hcomplete : (s.complete || locked (served (r :: rest))) =
      ((afterPass r d s).complete || locked (served rest)) := by
    simp [served_of_not_exit h, locked, afterPass, completes_eq, Bool.or_assoc]
  have hexit : Request.exit ∈ asked (r :: rest) ↔ Request.exit ∈ asked rest := by
    rw [asked_of_not_exit h, List.mem_append, or_iff_right h]
  unfold ended
  simp only [hcomplete, hexit]
  rfl

theorem servable_append {g : Globals} {before after : List Request}
    (h : Request.exit ∉ before) :
    Servable block g (before ++ after) ↔ Servable block g before ∧ Servable block g after := by
  have hcount : before.count .exit = 0 := List.count_eq_zero.mpr h
  constructor
  · rintro ⟨hinterface, hexits⟩
    rw [List.count_append, hcount, Nat.zero_add] at hexits
    exact ⟨⟨fun q hq => hinterface q (List.mem_append_left _ hq), by omega⟩,
      ⟨fun q hq => hinterface q (List.mem_append_right _ hq), hexits⟩⟩
  · rintro ⟨hbefore, hafter⟩
    refine ⟨fun q hq => ?_, ?_⟩
    · rcases List.mem_append.mp hq with hq | hq
      · exact hbefore.interface q hq
      · exact hafter.interface q hq
    · rw [List.count_append, hcount, Nat.zero_add]
      exact hafter.exits

end Rounds

/-- The loop does what the passes and the commands of the rounds up to the exit do. -/
theorem mainLoop_ok_iff (htyped : Typed st.manifest) (halive : Alive s) {rounds : List Round}
    {texts : List CStr} : mainLoop st block systemLed rounds s = .ok (texts, s') ↔
      ∃ d, Runs.Run (sysdRun st) Runs.unguarded s.sysd ((served rounds).map Round.pass) d ∧
        Servable block st.manifest (asked rounds) ∧
          texts = (asked rounds).map (answer st.manifest) ∧ s' = ended systemLed rounds d s := by
  induction rounds generalizing s texts with
  | nil =>
    have hended : ended systemLed [] s.sysd s = s := by
      unfold ended asked locked served
      simp
    simp only [served, List.map_nil, Runs.run_nil_iff, exists_eq_left, hended]
    constructor
    · intro h
      cases h
      exact ⟨⟨nofun, Nat.zero_le 1⟩, rfl, rfl⟩
    · rintro ⟨_, rfl, rfl⟩
      rfl
  | cons r rest ih =>
    rw [mainLoop_cons_ok_iff halive.running]
    simp only [round_ok_iff htyped halive.kept]
    by_cases hexit : Request.exit ∈ r.requests
    · have hstops : ∀ d more, mainLoop st block systemLed rest (sysdExit systemLed (afterPass r d s)) =
          .ok (more, s') ↔ more = [] ∧ s' = sysdExit systemLed (afterPass r d s) := by
        intro d more
        rw [mainLoop_of_exiting rfl]
        simp [eq_comm]
      simp only [served_of_exit hexit, asked_of_exit hexit, ended_of_exit hexit, if_pos hexit,
        List.map_cons, List.map_nil, Runs.run_cons_iff, Runs.run_nil_iff]
      constructor
      · rintro ⟨_, _, more, ⟨d, hd, hservable, rfl, rfl⟩, hrest, rfl⟩
        obtain ⟨rfl, rfl⟩ := (hstops d more).mp hrest
        exact ⟨d, ⟨d, trivial, hd, rfl⟩, hservable, List.append_nil _, rfl⟩
      · rintro ⟨d, ⟨_, _, hd, rfl⟩, hservable, rfl, rfl⟩
        exact ⟨_, _, [], ⟨d, hd, hservable, rfl, rfl⟩, (hstops d []).mpr ⟨rfl, rfl⟩,
          (List.append_nil _).symm⟩
    · have hgoes : ∀ d, Alive (afterPass r d s) := fun d => ⟨halive.running, halive.kept⟩
      simp only [served_of_not_exit hexit, asked_of_not_exit hexit, if_neg hexit, List.map_cons,
        List.map_append, Runs.run_cons_iff, servable_append hexit]
      constructor
      · rintro ⟨_, _, more, ⟨d, hd, hservable, rfl, rfl⟩, hrest, rfl⟩
        obtain ⟨d', hrun, hservable', rfl, rfl⟩ := (ih (hgoes d)).mp hrest
        exact ⟨d', ⟨d, trivial, hd, hrun⟩, ⟨hservable, hservable'⟩, rfl,
          (ended_of_not_exit hexit d d').symm⟩
      · rintro ⟨d', ⟨d, _, hd, hrun⟩, ⟨hservable, hservable'⟩, rfl, rfl⟩
        exact ⟨_, _, _, ⟨d, hd, hservable, rfl, rfl⟩,
          (ih (hgoes d)).mpr ⟨d', hrun, hservable', rfl, ended_of_not_exit hexit d d'⟩, rfl⟩

end Loop

section Life

variable {im : Image} {fs : FileLinks.FileSystem} {fuel : ℕ} {s : Started} {client : ℕ}
  {replies : ℕ → Reply schema}

theorem seqno_received_of_raises {p : PassInput} (h : p.raises = true) (d : Sysd) :
    (received p d).seqno ≠ 0 := by
  unfold received Idl.run Idl.setLock
  simp [h]

/-- The body has run once a pass has held the lock after the library reported something new. -/
theorem processed_of_news {st : Startup} {passes : List PassInput} {d : Sysd}
    (h : Runs.Run (sysdRun st) Runs.unguarded (Sysd.init client replies) passes d)
    (hnews : ∃ p ∈ passes, p.hasLock = true ∧ p.lockContended = false ∧ p.raises = true) :
    d.processed.isSome = true := by
  induction h with
  | start =>
    obtain ⟨_, hp, _⟩ := hnews
    cases hp
  | @next passes p t d hrun _ hdone ih =>
    have hsettled := SysdRun.settled_run (SysdRun.settled_init client replies) hrun
    cases SysdRun.passed_of_ok st p hsettled.txn hdone with
    | ran _ _ _ _ => rfl
    | idle notRun =>
      obtain ⟨q, hq, hlock, hcontended, hraises⟩ := hnews
      rcases List.mem_append.mp hq with hq | hq
      · exact ih ⟨q, hq, hlock, hcontended, hraises⟩
      · -- The sequence number of this pass is not the first one, which the body has not seen.
        obtain rfl := List.mem_singleton.mp hq
        by_contra hnone
        rw [Bool.not_eq_true, Option.isSome_eq_false_iff, Option.isNone_iff_eq_none] at hnone
        have hfirst := ((SysdRun.current_run hrun).2.started hnone).1
        have hseqno : (received q t).seqno ≠ t.idlSeqno := by
          rw [hfirst]
          exact seqno_received_of_raises hraises t
        exact notRun ⟨hcontended, hlock, hseqno⟩

/-- The process at the end of a life whose last pass has left the given state: an exit switches
the LED over. -/
def atEnd (systemLed : Option SystemLed) (told exited : Bool) (d : Sysd) : Process where
  sysd := d
  complete := told
  exiting := exited
  statusLed := sysdCfgYamlSetSystemStatusLed systemLed (!exited)
  released := exited

theorem statusLed_exit (systemLed : Option SystemLed) :
    (sysdCfgYamlSetSystemStatusLed systemLed false).or
      (sysdCfgYamlSetSystemStatusLed systemLed true) =
        sysdCfgYamlSetSystemStatusLed systemLed false := by
  cases systemLed with
  | none => rfl
  | some led => cases hled : led.statusLed <;> simp [sysdCfgYamlSetSystemStatusLed, hled]

def dellRounds : List Round :=
  [⟨lanePass, []⟩, ⟨{ lanePass with deliveries := [SysdRun.daemonsReport] }, [.dump, .exit]⟩,
    ⟨lanePass, [.exit]⟩]

theorem typed_dellImage {s : Started}
    (hs : startUp StartUp.dellImage 2 HwDesc.dellFiles = .ok s) : Typed s.st.manifest := by
  have hstart : (startUp StartUp.dellImage 2 HwDesc.dellFiles).toOption.map (fun s =>
      (decide (∀ d ∈ s.st.manifest.daemons, 0 ∉ d.name ∧ -2 ^ 63 ≤ d.curHw ∧ d.curHw < 2 ^ 63),
        s.st.manifest.mgmtIntf.all (fun m => decide (0 ∉ m.name)))) = some (true, true) := by
    decide +kernel
  obtain ⟨s', hs', hread⟩ := Runs.exists_ok hstart
  obtain rfl : s = s' := Except.ok.inj (hs.symm.trans hs')
  obtain ⟨hdaemons, hinterface⟩ := Prod.mk.inj hread
  have hdaemons := of_decide_eq_true hdaemons
  refine ⟨fun d hd => (hdaemons d hd).1, fun d hd => (hdaemons d hd).2, fun m hm => ?_⟩
  rw [hm] at hinterface
  exact of_decide_eq_true hinterface

theorem nameEnds_dellImage {s : Started}
    (hs : startUp StartUp.dellImage 2 HwDesc.dellFiles = .ok s) :
    NameEnds StartUp.dellImage.emptyBlock s.st.manifest := by
  have hstart : (startUp StartUp.dellImage 2 HwDesc.dellFiles).toOption.map (fun s =>
      decide (NameEnds StartUp.dellImage.emptyBlock s.st.manifest)) = some true := by
    decide +kernel
  obtain ⟨s', hs', hread⟩ := Runs.exists_ok hstart
  obtain rfl : s = s' := Except.ok.inj (hs.symm.trans hs')
  exact of_decide_eq_true hread

theorem exists_run {st : Startup} {subsys : Subsystem} {osRelease : Option (List CStr)}
    (hone : st.subsystems = [subsys]) (hconf : Configurable st subsys) (passes : List PassInput)
    (hpasses : ∀ p ∈ passes, Cooperates osRelease p) :
    ∃ d, Runs.Run (sysdRun st) (fun p _ => Cooperates osRelease p) (Sysd.init client replies)
      passes d := by
  induction passes using List.reverseRecOn with
  | nil => exact ⟨_, .start⟩
  | append_singleton before p ih =>
    obtain ⟨d, hrun⟩ := ih (fun q hq => hpasses q (List.mem_append_left _ hq))
    have hp := hpasses p (List.mem_append_right _ (List.mem_singleton_self p))
    obtain ⟨d', hd'⟩ := (SysdRun.booting_of_run hone hconf hrun).proceeds hone hconf hp
    exact ⟨d', .next hrun hp hd'⟩

end Life

end OpsSysd.Lifecycle
