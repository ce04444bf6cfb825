import OpsSysd.PackageLoad
import Mathlib.Data.List.DropRight

/-!
The calls of the package loader to the database client, and what they require of
the rows and transactions they are made on. Rows come with names and
transactions with the counter that types advance, so the calls are in order
exactly when every batch of types begins with one name.
-/

namespace OpsSysd.PackageInfo

open CString Ovsdb Ovsrec

inductive Call
  | create
  | insert
  /-- A setter, on the row inserted last. -/
  | set
  | commit
  | destroy
  deriving DecidableEq, Repr

/-- The variables that decide which calls are made. -/
structure Control where
  currentState : Key
  recordCount : ℕ
  txn : Bool

def Control.start : Control := ⟨.value, 0, false⟩

def Loader.control (l : Loader) : Control := ⟨l.currentState, l.recordCount, l.txn⟩

/-- The calls of `onValue`. -/
def onValueCalls (c : Control) (v : CStr) : List Call × Control :=
  match c.currentState with
  | .value => ([], c)
  | .pkg =>
    ((if c.recordCount % pkgInfoEntriesPerCommit = 0 then [.create] else []) ++ [.insert, .set],
      { c with txn := true })
  | .pv | .srcUrl => ([.set], c)
  | .srcrev => if v = cstr "INVALID" then ([], c) else ([.set], c)
  | .type =>
    if (c.recordCount + 1) % pkgInfoEntriesPerCommit = 0 then
      ([.set, .commit, .destroy], { c with recordCount := c.recordCount + 1, txn := false })
    else ([.set], { c with recordCount := c.recordCount + 1 })

def onScalarCalls (c : Control) (v : CStr) : List Call × Control :=
  match packageInfoMappingCheckKey v with
  | .value => onValueCalls c v
  | key => ([], { c with currentState := key })

/-- The calls of the loop and of what follows it. -/
def loopCalls : List YamlEvent → Control → List Call
  | [], c | .streamEnd :: _, c => if c.txn then [.commit, .destroy] else []
  | .scalar v :: rest, c => (onScalarCalls c v).1 ++ loopCalls rest (onScalarCalls c v).2
  | .other :: rest, c => loopCalls rest c

def sysdAddPackageInfoCalls (versionDetail : Option (List YamlEvent)) : List Call :=
  match versionDetail with
  | none => []
  | some events => loopCalls events .start

inductive RowState
  | none
  | live
  /-- Its transaction has been destroyed. -/
  | gone
  deriving DecidableEq

/-- What the loader's transaction and its last row are. -/
structure Lifetimes where
  txn : Bool
  row : RowState
  deriving DecidableEq

namespace Lifetimes

def start : Lifetimes := ⟨false, .none⟩

def after (g : Lifetimes) : Call → Lifetimes
  | .create => { g with txn := true }
  | .insert => { g with row := .live }
  | .set | .commit => g
  | .destroy => ⟨false, if g.row = .live then .gone else g.row⟩

/-- No second transaction, no insertion without one, no setter without a live row. -/
def Allows (g : Lifetimes) : Call → Prop
  | .create => g.txn = false
  | .insert => g.txn = true
  | .set => g.row = .live
  | .commit | .destroy => True

instance (g : Lifetimes) (c : Call) : Decidable (g.Allows c) := by
  cases c <;> unfold Allows <;> infer_instance

/-- Every call is allowed when it is made. -/
def AllowsAll : Lifetimes → List Call → Prop
  | _, [] => True
  | g, c :: rest => g.Allows c ∧ (g.after c).AllowsAll rest

instance : (g : Lifetimes) → (calls : List Call) → Decidable (g.AllowsAll calls)
  | _, [] => inferInstanceAs (Decidable True)
  | g, c :: rest =>
    have := instDecidableAllowsAll (g.after c) rest
    inferInstanceAs (Decidable (g.Allows c ∧ (g.after c).AllowsAll rest))

theorem allowsAll_append (g : Lifetimes) (calls rest : List Call) :
    g.AllowsAll (calls ++ rest) ↔ g.AllowsAll calls ∧ (calls.foldl after g).AllowsAll rest := by
  induction calls generalizing g with
  | nil => simp [AllowsAll]
  | cons c calls ih =>
    rw [List.cons_append, AllowsAll, AllowsAll, ih, List.foldl_cons, and_assoc]

end Lifetimes

/-- The loader is safe on a file. -/
def LoaderSafe (versionDetail : Option (List YamlEvent)) : Prop :=
  Lifetimes.start.AllowsAll (sysdAddPackageInfoCalls versionDetail)

instance (versionDetail : Option (List YamlEvent)) : Decidable (LoaderSafe versionDetail) :=
  inferInstanceAs (Decidable (Lifetimes.AllowsAll _ _))

/-- The fields that the values of a file fill, in order. -/
def fieldsFilled : Key → List YamlEvent → List Key
  | _, [] | _, .streamEnd :: _ => []
  | state, .scalar v :: rest =>
    match packageInfoMappingCheckKey v with
    | .value =>
      if state = .value ∨ state = .srcrev ∧ v = cstr "INVALID" then fieldsFilled state rest
      else state :: fieldsFilled state rest
    | key => fieldsFilled key rest
  | state, .other :: rest => fieldsFilled state rest

/-- Where the types so far are a multiple of the batch size, a name comes next
unless there is one since the last type, and otherwise no name comes. -/
def NamesInPlace (fields : List Key) : Prop :=
  ∀ before k after, fields = before ++ k :: after →
    before.count .type % pkgInfoEntriesPerCommit = 0 →
      (k = .pkg ↔ .pkg ∉ before.rtakeWhile (· ≠ .type))

section Fields

/-- The counter and whether a transaction is open. -/
structure Batch where
  count : ℕ
  opened : Bool

namespace Batch

def FieldOk (b : Batch) (k : Key) : Prop :=
  if k = .pkg then (b.count % pkgInfoEntriesPerCommit = 0 ↔ b.opened = false) else b.opened = true

def afterField (b : Batch) : Key → Batch
  | .pkg => { b with opened := true }
  | .type =>
    ⟨b.count + 1, if (b.count + 1) % pkgInfoEntriesPerCommit = 0 then false else b.opened⟩
  | _ => b

def FieldsOk : Batch → List Key → Prop
  | _, [] => True
  | b, k :: rest => b.FieldOk k ∧ (b.afterField k).FieldsOk rest

/-- A transaction is open exactly inside a batch. -/
structure Tracks (b : Batch) (before : List Key) : Prop where
  count : b.count = before.count .type
  opened : b.opened = true ↔ b.count % pkgInfoEntriesPerCommit ≠ 0 ∨
    .pkg ∈ before.rtakeWhile (· ≠ .type)

theorem Tracks.fieldOk_iff {b : Batch} {before : List Key} (h : b.Tracks before) (k : Key) :
    b.FieldOk k ↔ (before.count .type % pkgInfoEntriesPerCommit = 0 →
      (k = .pkg ↔ .pkg ∉ before.rtakeWhile (· ≠ .type))) := by
  have hopened := h.opened
  unfold FieldOk
  rw [← h.count]
  by_cases hmultiple : b.count % pkgInfoEntriesPerCommit = 0
  · by_cases hk : k = .pkg
    · cases ho : b.opened <;> simp_all
    · cases ho : b.opened <;> simp_all
  · by_cases hk : k = .pkg
    · cases ho : b.opened <;> simp_all
    · cases ho : b.opened <;> simp_all

theorem Tracks.afterField {b : Batch} {before : List Key} (h : b.Tracks before) {k : Key}
    (hk : b.FieldOk k) : (b.afterField k).Tracks (before ++ [k]) := by
  have hcount := h.count
  have hopened := h.opened
  cases k with
  | pkg =>
    refine ⟨by simp [Batch.afterField, hcount], ?_⟩
    simp [Batch.afterField]
  | type =>
    have ho : b.opened = true := hk
    refine ⟨by simp [Batch.afterField, hcount], ?_⟩
    simp only [Batch.afterField, List.rtakeWhile_concat, ho]
    split <;> simp_all
  | _ =>
    refine ⟨by simp [Batch.afterField, hcount], ?_⟩
    simpa [Batch.afterField, List.rtakeWhile_concat] using hopened

theorem Tracks.fieldsOk_iff {b : Batch} {before : List Key} (h : b.Tracks before)
    (fields : List Key) : b.FieldsOk fields ↔ ∀ mid k after, fields = mid ++ k :: after →
      (before ++ mid).count .type % pkgInfoEntriesPerCommit = 0 →
        (k = .pkg ↔ .pkg ∉ (before ++ mid).rtakeWhile (· ≠ .type)) := by
  induction fields generalizing b before with
  | nil => simp [FieldsOk]
  | cons k rest ih =>
    rw [FieldsOk]
    constructor
    · rintro ⟨hk, hrest⟩ mid k' after heq
      cases mid with
      | nil =>
        obtain ⟨rfl, rfl⟩ := List.cons.inj heq
        rw [List.append_nil]
        exact (h.fieldOk_iff k).mp hk
      | cons m mid =>
        obtain ⟨rfl, rfl⟩ := List.cons.inj heq
        have := (ih (h.afterField hk)).mp hrest mid k' after rfl
        rwa [List.append_assoc] at this
    · intro hall
      have hk : b.FieldOk k := by
        have := hall [] k rest rfl
        rw [List.append_nil] at this
        exact (h.fieldOk_iff k).mpr this
      refine ⟨hk, (ih (h.afterField hk)).mpr ?_⟩
      rintro mid k' after rfl
      have := hall (k :: mid) k' after rfl
      rwa [List.append_assoc]

end Batch

theorem namesInPlace_iff (fields : List Key) :
    NamesInPlace fields ↔ (⟨0, false⟩ : Batch).FieldsOk fields := by
  have htracks : (⟨0, false⟩ : Batch).Tracks [] := ⟨rfl, by simp⟩
  exact (htracks.fieldsOk_iff fields).symm

end Fields

section Calls

/-- The client's side agrees with the variables of the loader. -/
structure Lifetimes.Agrees (g : Lifetimes) (c : Control) : Prop where
  txn : g.txn = c.txn
  row : g.row = .live ↔ c.txn = true

def Control.batch (c : Control) : Batch := ⟨c.recordCount, c.txn⟩

variable {g : Lifetimes} {c : Control}

theorem onValueCalls_idle {v : CStr}
    (hidle : c.currentState = .value ∨ c.currentState = .srcrev ∧ v = cstr "INVALID") :
    onValueCalls c v = ([], c) := by
  rcases hidle with hvalue | ⟨hsrcrev, hv⟩
  · simp [onValueCalls, hvalue]
  · simp [onValueCalls, hsrcrev, hv]

/-- The calls for a value that fills a field are allowed exactly when the field is in place. -/
theorem allowsAll_onValueCalls (h : g.Agrees c) (v : CStr) (hstate : c.currentState ≠ .value)
    (hv : ¬ (c.currentState = .srcrev ∧ v = cstr "INVALID")) :
    (g.AllowsAll (onValueCalls c v).1 ↔ c.batch.FieldOk c.currentState) ∧
      (c.batch.FieldOk c.currentState →
        ((onValueCalls c v).1.foldl Lifetimes.after g).Agrees (onValueCalls c v).2 ∧
          (onValueCalls c v).2.batch = c.batch.afterField c.currentState ∧
          (onValueCalls c v).2.currentState = c.currentState) := by
  have htxn := h.txn
  have hrow := h.row
  have hset : ∀ k, k ≠ .pkg → (g.row = .live ↔ c.batch.FieldOk k) := by
    intro k hk
    simp only [Batch.FieldOk, if_neg hk, Control.batch]
    exact hrow
  obtain ⟨state, count, opened⟩ := c
  cases state with
  | value => exact absurd rfl hstate
  | pkg =>
    by_cases hmultiple : count % pkgInfoEntriesPerCommit = 0
    · refine ⟨?_, fun _ => ⟨⟨?_, ?_⟩, rfl, rfl⟩⟩ <;>
        simp_all [onValueCalls, Lifetimes.AllowsAll, Lifetimes.Allows, Lifetimes.after,
          Batch.FieldOk, Control.batch]
    · refine ⟨?_, fun hok => ⟨⟨?_, ?_⟩, rfl, rfl⟩⟩ <;>
        simp_all [onValueCalls, Lifetimes.AllowsAll, Lifetimes.Allows, Lifetimes.after,
          Batch.FieldOk, Control.batch]
  | pv | srcUrl =>
    refine ⟨?_, fun _ => ⟨h, rfl, rfl⟩⟩
    simpa [onValueCalls, Lifetimes.AllowsAll, Lifetimes.Allows] using hset _ (by decide)
  | srcrev =>
    have hvalid : v ≠ cstr "INVALID" := fun heq => hv ⟨rfl, heq⟩
    simp only [onValueCalls, if_neg hvalid]
    refine ⟨?_, fun _ => ⟨h, rfl, trivial⟩⟩
    simpa [Lifetimes.AllowsAll, Lifetimes.Allows] using hset .srcrev (by decide)
  | type =>
    have hlive := hset .type (by decide)
    by_cases hfull : (count + 1) % pkgInfoEntriesPerCommit = 0
    · simp only [onValueCalls, if_pos hfull]
      refine ⟨?_, fun hok => ⟨⟨rfl, ?_⟩, ?_, trivial⟩⟩
      · simpa [Lifetimes.AllowsAll, Lifetimes.Allows] using hlive
      · simp [Lifetimes.after, hlive.mpr hok]
      · simp [Control.batch, Batch.afterField, hfull]
    · simp only [onValueCalls, if_neg hfull]
      refine ⟨?_, fun _ => ⟨⟨h.txn, h.row⟩, ?_, trivial⟩⟩
      · simpa [Lifetimes.AllowsAll, Lifetimes.Allows] using hlive
      · simp [Control.batch, Batch.afterField, hfull]

theorem agrees_onScalarCalls (h : g.Agrees c) {v : CStr}
    (hallows : g.AllowsAll (onScalarCalls c v).1) :
    ((onScalarCalls c v).1.foldl Lifetimes.after g).Agrees (onScalarCalls c v).2 := by
  unfold onScalarCalls at hallows ⊢
  cases hkey : packageInfoMappingCheckKey v with
  | value =>
    rw [hkey] at hallows
    by_cases hidle : c.currentState = .value ∨ c.currentState = .srcrev ∧ v = cstr "INVALID"
    · rw [onValueCalls_idle hidle]
      exact h
    · have hstate : c.currentState ≠ .value := fun heq => hidle (.inl heq)
      obtain ⟨hiff, hafter⟩ := allowsAll_onValueCalls h v hstate (fun hv => hidle (.inr hv))
      exact (hafter (hiff.mp hallows)).1
  | _ => exact ⟨h.txn, h.row⟩

theorem allowsAll_loopCalls (events : List YamlEvent) (h : g.Agrees c) :
    g.AllowsAll (loopCalls events c) ↔
      c.batch.FieldsOk (fieldsFilled c.currentState events) := by
  induction events generalizing g c with
  | nil =>
    cases hc : c.txn <;>
      simp [loopCalls, fieldsFilled, hc, Lifetimes.AllowsAll, Lifetimes.Allows, Batch.FieldsOk]
  | cons e rest ih =>
    cases e with
    | streamEnd =>
      cases hc : c.txn <;>
        simp [loopCalls, fieldsFilled, hc, Lifetimes.AllowsAll, Lifetimes.Allows, Batch.FieldsOk]
    | other => exact ih h
    | scalar v =>
      rw [loopCalls, fieldsFilled, onScalarCalls]
      cases hkey : packageInfoMappingCheckKey v with
      | value =>
        dsimp only
        by_cases hidle : c.currentState = .value ∨ c.currentState = .srcrev ∧ v = cstr "INVALID"
        · rw [if_pos hidle, onValueCalls_idle hidle]
          exact ih h
        · have hstate : c.currentState ≠ .value := fun heq => hidle (.inl heq)
          obtain ⟨hallows, hafter⟩ := allowsAll_onValueCalls h v hstate (fun hv => hidle (.inr hv))
          rw [if_neg hidle, Lifetimes.allowsAll_append, Batch.FieldsOk, hallows]
          apply and_congr_right
          intro hok
          obtain ⟨hagrees, hbatch, hsame⟩ := hafter hok
          rw [ih hagrees, hbatch, hsame]
      | _ => exact ih ⟨h.txn, h.row⟩

theorem agrees_start : Lifetimes.start.Agrees Control.start := ⟨rfl, by decide⟩

/-- The loader is safe exactly on the files whose names are in place. -/
theorem loaderSafe_iff (events : List YamlEvent) :
    LoaderSafe (some events) ↔ NamesInPlace (fieldsFilled .value events) := by
  rw [namesInPlace_iff]
  exact allowsAll_loopCalls events agrees_start

/-- A second name before the first type, and a version before the first name. -/
theorem not_loaderSafe_samples :
    ¬ LoaderSafe (some ([cstr "PKG", cstr "a", cstr "PKG", cstr "b"].map .scalar ++ [.streamEnd])) ∧
      ¬ LoaderSafe (some ([cstr "PV", cstr "1.0"].map .scalar ++ [.streamEnd])) := by
  decide

end Calls

section Faults

/-- The transaction is open while the loader thinks so, and then holds its row. -/
def Holds (l : Loader) (s : Idl schema) : Prop :=
  if l.txn = true then
    ∃ t u, s.txn = .opened t ∧ l.row = some u ∧
      (@findRow schema .packageInfo u t.inserted).isSome = true
  else s.txn = .none

variable {l : Loader} {s : Idl schema}

theorem holds_fill (h : Holds l s) (htxn : l.txn = true) {c : Column}
    (hc : c.table = .packageInfo) (v : c.type.Value) :
    ∃ s', fill l c v s = .ok ((), s') ∧ Holds l s' := by
  unfold Holds at h
  rw [if_pos htxn] at h
  obtain ⟨t, u, ht, hu, hin⟩ := h
  obtain ⟨t', hwrite, hkeeps⟩ := @txnWrite_inserted schema s u c v t ht
    (by rw [show schema.tableOf c = .packageInfo from hc]; exact hin)
  refine ⟨{ s with txn := .opened t' }, ?_, ?_⟩
  · have hderef : (deref l.row : OvsM Uuid) s = .ok (u, s) := by
      rw [hu]
      rfl
    exact (bind_ok _ hderef).trans hwrite
  · unfold Holds
    rw [if_pos htxn]
    exact ⟨t', u, rfl, hu, (hkeeps _ _).trans hin⟩

theorem holds_commitAndDestroy (h : Holds l s) (htxn : l.txn = true) :
    ∃ s', commitAndDestroy s = .ok ((), s') ∧ s'.txn = .none := by
  unfold Holds at h
  rw [if_pos htxn] at h
  obtain ⟨t, _, ht, _⟩ := h
  exact ⟨_, commitAndDestroy_opened ht, rfl⟩

theorem holds_beginPackage (h : Holds l s) (hok : l.control.batch.FieldOk .pkg) (name : CStr) :
    ∃ l' s', beginPackage l name s = .ok (l', s') ∧ Holds l' s' ∧
      l'.control = ⟨l.currentState, l.recordCount, true⟩ := by
  have hcreate : ∃ s₁ t, createAtMultiple l.recordCount s = .ok ((), s₁) ∧ s₁.txn = .opened t := by
    simp only [Batch.FieldOk, if_true, Control.batch, Loader.control] at hok
    unfold createAtMultiple
    unfold Holds at h
    by_cases hmultiple : l.recordCount % pkgInfoEntriesPerCommit = 0
    · rw [if_neg (by simp [hok.mp hmultiple])] at h
      refine ⟨{ s with txn := .opened .empty, created := s.created + 1 }, .empty, ?_, rfl⟩
      rw [if_pos hmultiple]
      unfold txnCreate
      rw [h]
    · have htxn : l.txn = true := by
        cases hl : l.txn with
        | false => exact absurd (hok.mpr hl) hmultiple
        | true => rfl
      rw [if_pos htxn] at h
      obtain ⟨t, _, ht, _⟩ := h
      refine ⟨s, t, ?_, ht⟩
      rw [if_neg hmultiple]
      rfl
  obtain ⟨s₁, t, hcreate, ht⟩ := hcreate
  obtain ⟨u, s₂, t₂, hinsert, ht₂, hin⟩ := txnInsert_opened ht .packageInfo
  obtain ⟨t', hname, hkeeps⟩ := @txnWrite_inserted schema s₂ u .packageInfoName (some name) t₂ ht₂
    hin
  refine ⟨{ l with row := some u, txn := true }, { s₂ with txn := .opened t' },
    (bind_ok _ hcreate).trans ((bind_ok _ hinsert).trans (bind_ok _ hname)), ?_, rfl⟩
  unfold Holds
  rw [if_pos rfl]
  exact ⟨t', u, rfl, rfl, (hkeeps _ _).trans hin⟩

theorem holds_endPackage (h : Holds l s) (htxn : l.txn = true) (type : CStr) :
    ∃ l' s', endPackage l type s = .ok (l', s') ∧ Holds l' s' ∧
      l'.control = ⟨l.currentState, l.recordCount + 1,
        decide ((l.recordCount + 1) % pkgInfoEntriesPerCommit ≠ 0)⟩ := by
  obtain ⟨s₁, hfill, hholds⟩ := holds_fill h htxn (c := .packageInfoSrcType) rfl (some type)
  unfold endPackage
  rw [bind_ok _ hfill]
  by_cases hfull : (l.recordCount + 1) % pkgInfoEntriesPerCommit = 0
  · obtain ⟨s₂, hcommit, hnone⟩ := holds_commitAndDestroy hholds htxn
    rw [if_pos hfull]
    refine ⟨_, s₂, bind_ok _ hcommit, ?_, by simp [Loader.control, hfull]⟩
    unfold Holds
    rwa [if_neg (by simp)]
  · rw [if_neg hfull]
    exact ⟨_, s₁, rfl, hholds, by simp [Loader.control, hfull, htxn]⟩

theorem holds_onScalar (h : Holds l s) {v : CStr}
    (hok : packageInfoMappingCheckKey v = .value → l.currentState ≠ .value →
      ¬ (l.currentState = .srcrev ∧ v = cstr "INVALID") →
      l.control.batch.FieldOk l.currentState) :
    ∃ l' s', onScalar l v s = .ok (l', s') ∧ Holds l' s' ∧
      l'.control = (onScalarCalls l.control v).2 := by
  have hset : ∀ c : Column, c.table = .packageInfo → l.txn = true → ∀ w : c.type.Value,
      ∃ l' s', (do fill l c w; return l : OvsM Loader) s = .ok (l', s') ∧ Holds l' s' ∧
        l'.control = l.control := by
    intro c hc htxn w
    obtain ⟨s', hrun, hholds⟩ := holds_fill h htxn hc w
    exact ⟨l, s', (bind_ok _ hrun).trans rfl, hholds, rfl⟩
  unfold onScalar onScalarCalls
  cases hkey : packageInfoMappingCheckKey v with
  | value =>
    dsimp only
    have hok := hok hkey
    unfold onValue onValueCalls
    rw [show l.control.currentState = l.currentState from rfl]
    cases hstate : l.currentState with
    | value => exact ⟨l, s, rfl, h, rfl⟩
    | pkg =>
      rw [hstate] at hok
      have hbegin := holds_beginPackage h (hok (by decide) (by simp)) v
      rwa [hstate] at hbegin
    | pv =>
      rw [hstate] at hok
      exact hset _ rfl (hok (by decide) (by simp)) _
    | srcUrl =>
      rw [hstate] at hok
      exact hset _ rfl (hok (by decide) (by simp)) _
    | srcrev =>
      rw [hstate] at hok
      dsimp only
      by_cases hv : v = cstr "INVALID"
      · rw [if_pos hv, if_pos hv]
        exact ⟨l, s, rfl, h, rfl⟩
      · rw [if_neg hv, if_neg hv]
        exact hset _ rfl (hok (by decide) (fun hbad => hv hbad.2)) _
    | type =>
      rw [hstate] at hok
      have htxn : l.txn = true := hok (by decide) (by simp)
      have hend := holds_endPackage h htxn v
      dsimp only
      rw [show l.control.recordCount = l.recordCount from rfl]
      by_cases hfull : (l.recordCount + 1) % pkgInfoEntriesPerCommit = 0
      · simpa [hfull, Loader.control, hstate] using hend
      · simpa [hfull, Loader.control, hstate, htxn] using hend
  | _ => exact ⟨_, s, rfl, h, rfl⟩

theorem holds_loop {g : Lifetimes} (h : Holds l s) (hg : g.Agrees l.control)
    (events : List YamlEvent) (hcalls : g.AllowsAll (loopCalls events l.control)) :
    ∃ l' s', loop events l s = .ok (l', s') ∧ Holds l' s' := by
  induction events generalizing l s g with
  | nil => exact ⟨l, s, rfl, h⟩
  | cons e rest ih =>
    cases e with
    | streamEnd => exact ⟨l, s, rfl, h⟩
    | other => exact ih h hg hcalls
    | scalar v =>
      rw [loopCalls, Lifetimes.allowsAll_append] at hcalls
      obtain ⟨hnow, hlater⟩ := hcalls
      have hok : packageInfoMappingCheckKey v = .value → l.currentState ≠ .value →
          ¬ (l.currentState = .srcrev ∧ v = cstr "INVALID") →
          l.control.batch.FieldOk l.currentState := by
        intro hkey hstate hv
        unfold onScalarCalls at hnow
        rw [hkey] at hnow
        exact (allowsAll_onValueCalls hg v hstate hv).1.mp hnow
      obtain ⟨l', s', hrun, hholds, hcontrol⟩ := holds_onScalar h hok
      have hagrees := agrees_onScalarCalls hg hnow
      rw [← hcontrol] at hagrees hlater
      obtain ⟨l'', s'', hrest, hend⟩ := ih hholds hagrees hlater
      exact ⟨l'', s'', (bind_ok _ hrun).trans hrest, hend⟩

/-- A loader whose calls are in order meets no fault of the client. -/
theorem sysdAddPackageInfo_ok {versionDetail : Option (List YamlEvent)}
    (h : LoaderSafe versionDetail) (hs : s.txn = .none) :
    ∃ s', sysdAddPackageInfo versionDetail s = .ok ((), s') := by
  cases versionDetail with
  | none => exact ⟨s, rfl⟩
  | some events =>
    have hstart : Holds .start s := hs
    obtain ⟨l, s₁, hloop, hholds⟩ := holds_loop hstart agrees_start events h
    have hend : ∃ s₂,
        (if l.txn then commitAndDestroy else return : OvsM Unit) s₁ = .ok ((), s₂) := by
      split_ifs with htxn
      · obtain ⟨s₂, hcommit, _⟩ := holds_commitAndDestroy hholds htxn
        exact ⟨s₂, hcommit⟩
      · exact ⟨s₁, rfl⟩
    obtain ⟨s₂, hend⟩ := hend
    exact ⟨s₂, (bind_ok _ hloop).trans hend⟩

end Faults

end OpsSysd.PackageInfo
