import Mathlib.Data.List.Perm.Subperm
import Mathlib.Logic.Function.Basic
import Mathlib.Logic.Relation

/-!
Processes that contend for one lock on one store. A process works in passes: it
looks at a snapshot, settles what to commit and commits it piece by piece, while
the other processes and other clients go on. A table that is filled only by a
pass that has found it empty is filled once.
-/

namespace OpsSysd.Locking

variable {σ ι δ κ υ : Type}

/-- What the processes do between two contacts with the store, and the store. -/
structure Program (σ ι δ κ : Type) where
  starts : σ → Prop
  /-- The snapshot of a pass that finds itself holding the lock. -/
  seen : ι → σ → Option δ
  /-- The commits of a pass and the state after it, unless the process ends in it. -/
  pass : ι → σ → List κ × Option σ
  apply : κ → δ → δ
  /-- The process is told that the commit has succeeded. -/
  succeeded : κ → Prop
  others : δ → δ → Prop
  /-- The snapshot is that of the store. -/
  agrees : δ → δ → Prop

/-- A pass under way. A commit is in progress from the pass's start or from the end
of the commit before it; `dropped` is that the connection has been lost meanwhile. -/
structure Pass (σ δ κ : Type) where
  commits : List κ
  after : Option σ
  dropped : Bool
  held : Bool
  seen : Option δ

inductive Process (σ δ κ : Type)
  | waiting (s : σ)
  | passing (pass : Pass σ δ κ)

/-- Losing the connection makes the commit in progress fail. -/
def Process.disconnected : Process σ δ κ → Process σ δ κ
  | .waiting s => .waiting s
  | .passing pass => .passing { pass with dropped := true }

/-- A commit that took effect, with the start of its pass. -/
structure Entry (δ κ : Type) where
  process : ℕ
  commit : κ
  held : Bool
  seen : Option δ

structure Net (σ δ κ : Type) where
  store : δ
  /-- The store after the last commit of a process, and all it has been since. -/
  recent : List δ
  owner : Option ℕ
  process : ℕ → Option (Process σ δ κ)
  log : List (Entry δ κ)

namespace Net

variable (net : Net σ δ κ) (i : ℕ)

structure Initial (net : Net σ δ κ) : Prop where
  recent : net.recent = [net.store]
  owner : net.owner = none
  process : ∀ i, net.process i = none

def place (q : Option (Process σ δ κ)) : Net σ δ κ :=
  { net with process := Function.update net.process i q }

def released : Option ℕ := if net.owner = some i then none else net.owner

def left (q : Option (Process σ δ κ)) : Net σ δ κ :=
  { net.place i q with owner := net.released i }

def begun (M : Program σ ι δ κ) (input : ι) (s : σ) : Net σ δ κ :=
  net.place i (some (.passing {
    commits := (M.pass input s).1
    after := (M.pass input s).2
    dropped := net.owner ≠ some i
    held := net.owner = some i
    seen := M.seen input s }))

def changed (M : Program σ ι δ κ) (pass : Pass σ δ κ) (c : κ) : Net σ δ κ :=
  { net with
    store := M.apply c net.store
    recent := [M.apply c net.store]
    log := net.log ++ [⟨i, c, pass.held, pass.seen⟩] }

def advanced (pass : Pass σ δ κ) (rest : List κ) : Net σ δ κ :=
  net.place i (some (.passing { pass with commits := rest, dropped := net.owner ≠ some i }))

end Net

/-- The steps of the processes, of the lock and of the other clients. A commit takes
effect only while its process holds the lock and has held it since the commit began. A pass
that finds the lock held has seen all that earlier holders and the process itself committed. -/
inductive Step (M : Program σ ι δ κ) (net : Net σ δ κ) : Net σ δ κ → Prop
  | start {i : ℕ} {s : σ} (free : net.process i = none) (starts : M.starts s) :
      Step M net (net.place i (some (.waiting s)))
  | stop (i : ℕ) : Step M net (net.left i none)
  | disconnect {i : ℕ} {q : Process σ δ κ} (running : net.process i = some q) :
      Step M net (net.left i (some q.disconnected))
  | grant {i : ℕ} {q : Process σ δ κ} (running : net.process i = some q)
      (free : net.owner = none) : Step M net { net with owner := some i }
  | others {d : δ} (change : M.others net.store d) :
      Step M net { net with store := d, recent := net.recent ++ [d] }
  | pass {i : ℕ} {s : σ} (input : ι) (waits : net.process i = some (.waiting s))
      (informed : net.owner = some i → ∀ snapshot, M.seen input s = some snapshot →
        ∃ d ∈ net.recent, M.agrees snapshot d) : Step M net (net.begun i M input s)
  | commit {i : ℕ} {pass : Pass σ δ κ} {c : κ} {rest : List κ}
      (passes : net.process i = some (.passing pass)) (next : pass.commits = c :: rest)
      (lock : net.owner = some i ∧ pass.dropped = false) :
      Step M net ((net.changed i M pass c).advanced i pass rest)
  | refuse {i : ℕ} {pass : Pass σ δ κ} {c : κ} {rest : List κ}
      (passes : net.process i = some (.passing pass)) (next : pass.commits = c :: rest)
      (told : ¬ M.succeeded c) : Step M net (net.advanced i pass rest)
  | finish {i : ℕ} {pass : Pass σ δ κ} {s : σ} (passes : net.process i = some (.passing pass))
      (done : pass.commits = []) (after : pass.after = some s) :
      Step M net (net.place i (some (.waiting s)))

def Reaches (M : Program σ ι δ κ) : Net σ δ κ → Net σ δ κ → Prop :=
  Relation.ReflTransGen (Step M)

/-- A table of the store and what the commits add to it. Only a pass that has seen
the table empty adds to it, in its first commit. -/
structure FilledOnce (M : Program σ ι δ κ) (rows : δ → List υ) (added : κ → List υ)
    (good : σ → Prop) : Prop where
  starts : ∀ s, M.starts s → good s
  kept : ∀ input s s', good s → (M.pass input s).2 = some s' → good s'
  apply : ∀ c d, rows (M.apply c d) = rows d ++ added c
  others : ∀ d d', M.others d d' → (rows d').Subperm (rows d)
  agrees : ∀ snapshot d, M.agrees snapshot d → rows snapshot = [] → rows d = []
  later : ∀ input s, good s → ∀ c ∈ (M.pass input s).1.tail, added c = []
  first : ∀ input s, good s → ∀ c ∈ (M.pass input s).1.head?, added c ≠ [] →
    ∃ snapshot, M.seen input s = some snapshot ∧ rows snapshot = [] ∧
      ∀ d, M.agrees snapshot d → (added c).length = 1

/-- The row comes from a pass that held the lock when it saw the table empty. -/
def Written (rows : δ → List υ) (added : κ → List υ) (log : List (Entry δ κ)) (u : υ) : Prop :=
  ∃ e ∈ log, u ∈ added e.commit ∧ e.held = true ∧
    ∃ snapshot, e.seen = some snapshot ∧ rows snapshot = []

section Invariant

variable {M : Program σ ι δ κ} {rows : δ → List υ} {added : κ → List υ} {good : σ → Prop}
  {net net' : Net σ δ κ} {i j : ℕ} {pass : Pass σ δ κ} {c : κ} {rest : List κ}

/-- A pass that still has rows to add has held the lock all along, over an empty table. -/
structure PassFits (rows : δ → List υ) (added : κ → List υ) (good : σ → Prop)
    (net : Net σ δ κ) (i : ℕ) (pass : Pass σ δ κ) : Prop where
  after : ∀ s, pass.after = some s → good s
  later : ∀ c ∈ pass.commits.tail, added c = []
  first : ∀ c ∈ pass.commits.head?, added c ≠ [] → pass.dropped = false →
    (net.owner = some i ∧ rows net.store = []) ∧ (added c).length = 1 ∧ pass.held = true ∧
      ∃ snapshot, pass.seen = some snapshot ∧ rows snapshot = []

def Fits (rows : δ → List υ) (added : κ → List υ) (good : σ → Prop) (net : Net σ δ κ)
    (i : ℕ) : Process σ δ κ → Prop
  | .waiting s => good s
  | .passing pass => PassFits rows added good net i pass

structure Inv (rows : δ → List υ) (added : κ → List υ) (good : σ → Prop) (net : Net σ δ κ) :
    Prop where
  current : net.store ∈ net.recent
  emptied : ∀ d ∈ net.recent, rows d = [] → rows net.store = []
  single : (rows net.store).length ≤ 1
  written : ∀ u ∈ rows net.store, Written rows added net.log u
  process : ∀ i q, net.process i = some q → Fits rows added good net i q

theorem inv_initial (h : net.Initial) (hempty : rows net.store = []) :
    Inv rows added good net where
  current := by simp [h.recent]
  emptied _ _ _ := hempty
  single := by simp [hempty]
  written u hu := by simp [hempty] at hu
  process i q hq := by simp [h.process i] at hq

theorem Fits.frame {q : Process σ δ κ} (h : Fits rows added good net i q)
    (hkeep : net.owner = some i → rows net.store = [] →
      net'.owner = some i ∧ rows net'.store = []) : Fits rows added good net' i q := by
  cases q with
  | waiting s => exact h
  | passing pass =>
    refine ⟨h.after, h.later, fun c hc hadded hdropped => ?_⟩
    obtain ⟨⟨howner, hempty⟩, hrest⟩ := h.first c hc hadded hdropped
    exact ⟨hkeep howner hempty, hrest⟩

theorem process_place_self (net : Net σ δ κ) (i : ℕ) (q : Option (Process σ δ κ)) :
    (net.place i q).process i = q := by
  change Function.update net.process i q i = q
  rw [Function.update_self]

theorem process_place {q : Option (Process σ δ κ)} {q' : Process σ δ κ}
    (h : (net.place i q).process j = some q') :
    (j = i ∧ q = some q') ∨ (j ≠ i ∧ net.process j = some q') := by
  change Function.update net.process i q j = some q' at h
  by_cases hj : j = i
  · subst hj
    rw [Function.update_self] at h
    exact .inl ⟨rfl, h⟩
  · rw [Function.update_of_ne hj] at h
    exact .inr ⟨hj, h⟩

theorem Inv.place (h : Inv rows added good net) {q : Option (Process σ δ κ)}
    (hq : ∀ q', q = some q' → Fits rows added good net i q') :
    Inv rows added good (net.place i q) := by
  refine ⟨h.current, h.emptied, h.single, h.written, fun j q' hq' => ?_⟩
  have hfits : Fits rows added good net j q' := by
    rcases process_place hq' with ⟨rfl, hsome⟩ | ⟨_, hold⟩
    · exact hq q' hsome
    · exact h.process j q' hold
  exact hfits.frame (fun howner hempty => ⟨howner, hempty⟩)

theorem Inv.left (h : Inv rows added good net) {q : Option (Process σ δ κ)}
    (hq : ∀ q', q = some q' → Fits rows added good (net.left i q) i q') :
    Inv rows added good (net.left i q) := by
  refine ⟨h.current, h.emptied, h.single, h.written, fun j q' hq' => ?_⟩
  have hplaced : (net.place i q).process j = some q' := hq'
  rcases process_place hplaced with ⟨rfl, hsome⟩ | ⟨hj, hold⟩
  · exact hq q' hsome
  · refine (h.process j q' hold).frame (fun howner hempty => ⟨?_, hempty⟩)
    have hother : net.owner ≠ some i := by
      rw [howner]
      exact fun heq => hj (Option.some.inj heq)
    exact (if_neg hother).trans howner

theorem Fits.disconnected {q : Process σ δ κ} (h : Fits rows added good net i q) :
    Fits rows added good net' i q.disconnected := by
  cases q with
  | waiting s => exact h
  | passing pass => exact ⟨h.after, h.later, fun _ _ _ hdropped => by cases hdropped⟩

theorem owner_eq (hi : net.owner = some i) (hj : net.owner = some j) : j = i :=
  Option.some.inj (hj.symm.trans hi)

theorem Inv.changed (hM : FilledOnce M rows added good) (h : Inv rows added good net)
    (hpass : PassFits rows added good net i pass) (hc : pass.commits.head? = some c)
    (hdropped : pass.dropped = false) :
    (rows (net.changed i M pass c).store).length ≤ 1 ∧
      ∀ u ∈ rows (net.changed i M pass c).store,
        Written rows added (net.changed i M pass c).log u := by
  have hrows : rows (net.changed i M pass c).store = rows net.store ++ added c :=
    hM.apply c net.store
  rw [hrows]
  by_cases hadded : added c = []
  · rw [hadded, List.append_nil]
    refine ⟨h.single, fun u hu => ?_⟩
    obtain ⟨e, he, hrest⟩ := h.written u hu
    exact ⟨e, List.mem_append_left _ he, hrest⟩
  · obtain ⟨⟨_, hempty⟩, hone, hheld, hseen⟩ :=
      hpass.first c (Option.mem_def.mpr hc) hadded hdropped
    rw [hempty, List.nil_append]
    exact ⟨by omega, fun u hu => ⟨_, List.mem_append_right _ (List.mem_singleton_self _), hu,
      hheld, hseen⟩⟩

theorem PassFits.advanced (h : PassFits rows added good net i pass)
    (hnext : pass.commits = c :: rest) (dropped : Bool) :
    PassFits rows added good net' i { pass with commits := rest, dropped := dropped } := by
  have hrest : ∀ c' ∈ rest, added c' = [] := by
    intro c' hc'
    exact h.later c' (by rw [hnext]; exact hc')
  refine ⟨h.after, fun c' hc' => hrest c' (List.mem_of_mem_tail hc'), fun c' hc' hadded => ?_⟩
  exact absurd (hrest c' (List.mem_of_mem_head? hc')) hadded

theorem Inv.commit (hM : FilledOnce M rows added good) (h : Inv rows added good net)
    (hpasses : net.process i = some (.passing pass)) (hnext : pass.commits = c :: rest)
    (howner : net.owner = some i) (hdropped : pass.dropped = false) :
    Inv rows added good ((net.changed i M pass c).advanced i pass rest) := by
  have hpass : PassFits rows added good net i pass := h.process i _ hpasses
  obtain ⟨hsingle, hwritten⟩ := h.changed hM hpass (by rw [hnext]; rfl) hdropped
  have hprocess : ∀ j q, ((net.changed i M pass c).advanced i pass rest).process j = some q →
      Fits rows added good ((net.changed i M pass c).advanced i pass rest) j q := by
    intro j q hq
    rcases process_place hq with ⟨rfl, hsome⟩ | ⟨hj, hold⟩
    · rw [← Option.some.inj hsome]
      exact hpass.advanced hnext _
    · refine (h.process j q hold).frame (fun hother _ => ?_)
      exact absurd (owner_eq howner hother) hj
  refine ⟨List.mem_singleton_self _, fun d hd hempty => ?_, hsingle, hwritten, hprocess⟩
  rw [List.mem_singleton.mp hd] at hempty
  exact hempty

/-- What a pass starts with: its first commit may add rows if the table is empty
in the store as well. -/
theorem PassFits.begun (hM : FilledOnce M rows added good) (h : Inv rows added good net) {s : σ}
    (hs : good s) (input : ι)
    (hinformed : net.owner = some i → ∀ snapshot, M.seen input s = some snapshot →
      ∃ d ∈ net.recent, M.agrees snapshot d) :
    PassFits rows added good net i {
      commits := (M.pass input s).1
      after := (M.pass input s).2
      dropped := net.owner ≠ some i
      held := net.owner = some i
      seen := M.seen input s } := by
  refine ⟨fun s' hs' => hM.kept input s s' hs hs', hM.later input s hs, ?_⟩
  intro c hc hadded hdropped
  have howner : net.owner = some i := by simpa using hdropped
  obtain ⟨snapshot, hseen, hempty, hone⟩ := hM.first input s hs c hc hadded
  obtain ⟨d, hd, hagrees⟩ := hinformed howner snapshot hseen
  have hstore := h.emptied d hd (hM.agrees snapshot d hagrees hempty)
  exact ⟨⟨howner, hstore⟩, hone d hagrees, by simp [howner], snapshot, hseen, hempty⟩

theorem Inv.others (h : Inv rows added good net) {d : δ}
    (hrows : (rows d).Subperm (rows net.store)) :
    Inv rows added good { net with store := d, recent := net.recent ++ [d] } := by
  have hkeep : rows net.store = [] → rows d = [] := by
    intro hempty
    rw [hempty] at hrows
    exact List.subperm_nil.mp hrows
  refine ⟨List.mem_append_right _ (List.mem_singleton_self _), fun d' hd' hempty => ?_,
    Nat.le_trans hrows.length_le h.single, fun u hu => h.written u (hrows.subset hu), fun j q hq =>
      (h.process j q hq).frame (fun howner hempty => ⟨howner, hkeep hempty⟩)⟩
  rcases List.mem_append.mp hd' with hold | hnew
  · exact hkeep (h.emptied d' hold hempty)
  · rw [List.mem_singleton.mp hnew] at hempty
    exact hempty

theorem Inv.step (hM : FilledOnce M rows added good) (h : Inv rows added good net)
    (hstep : Step M net net') : Inv rows added good net' := by
  cases hstep with
  | start _ starts =>
    refine h.place (fun q hq => ?_)
    rw [← Option.some.inj hq]
    exact hM.starts _ starts
  | stop i => exact h.left (fun q hq => by cases hq)
  | @disconnect i q running =>
    refine h.left (fun q' hq' => ?_)
    rw [← Option.some.inj hq']
    exact (h.process i q running).disconnected
  | @grant i q running free =>
    refine ⟨h.current, h.emptied, h.single, h.written, fun j q' hq' => ?_⟩
    refine (h.process j q' hq').frame (fun howner _ => ?_)
    rw [free] at howner
    cases howner
  | others change => exact h.others (hM.others _ _ change)
  | @pass i s input waits informed =>
    refine h.place (fun q hq => ?_)
    rw [← Option.some.inj hq]
    exact PassFits.begun hM h (h.process i _ waits) input informed
  | commit passes next lock => exact h.commit hM passes next lock.1 lock.2
  | @refuse i pass c rest passes next told =>
    refine h.place (fun q hq => ?_)
    have hpass : PassFits rows added good net i pass := h.process i _ passes
    rw [← Option.some.inj hq]
    exact hpass.advanced next _
  | @finish i pass s passes done after =>
    refine h.place (fun q hq => ?_)
    have hpass : PassFits rows added good net i pass := h.process i _ passes
    rw [← Option.some.inj hq]
    exact hpass.after s after

/-- In every interleaving the table is filled at most once. -/
theorem inv_of_reaches (hM : FilledOnce M rows added good) (hinitial : net.Initial)
    (hempty : rows net.store = []) (h : Reaches M net net') : Inv rows added good net' := by
  induction h with
  | refl => exact inv_initial hinitial hempty
  | tail _ hstep ih => exact ih.step hM hstep

end Invariant

theorem reaches_alone {M : Program σ ι δ κ} {net : Net σ δ κ} (hinitial : net.Initial) {s : σ}
    {input : ι} {c : κ} {rest : List κ} (hstarts : M.starts s)
    (hcommits : (M.pass input s).1 = c :: rest)
    (hagrees : ∀ snapshot, M.seen input s = some snapshot → M.agrees snapshot net.store) :
    ∃ net', Reaches M net net' ∧ net'.store = M.apply c net.store := by
  let waiting := net.place 0 (some (.waiting s))
  let holding : Net σ δ κ := { waiting with owner := some 0 }
  have hstart : Step M net waiting := .start (hinitial.process 0) hstarts
  have hgrant : Step M waiting holding := .grant (process_place_self net 0 _) hinitial.owner
  have hpass : Step M holding (holding.begun 0 M input s) := by
    refine .pass input (process_place_self net 0 _)
      (fun _ snapshot hseen => ⟨net.store, ?_, hagrees _ hseen⟩)
    show net.store ∈ net.recent
    simp [hinitial.recent]
  have hcommit : Step M (holding.begun 0 M input s) _ :=
    .commit (process_place_self holding 0 _) hcommits ⟨rfl, by simp [holding]⟩
  exact ⟨_, (((Relation.ReflTransGen.single hstart).tail hgrant).tail hpass).tail hcommit, rfl⟩

end OpsSysd.Locking
