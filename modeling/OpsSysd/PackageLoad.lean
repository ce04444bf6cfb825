import OpsSysd.OvsdbBatch
import OpsSysd.PackageEntry

/-!
The loader over a whole file. The counter, the open transaction and the rows of
the batch that is not committed yet go together, entry by entry; what has been
committed are full batches in the order of the entries.
-/

namespace OpsSysd.PackageInfo

open CString Ovsdb Ovsrec

theorem observable_contentOf : @Observable schema _ .packageInfo contentOf := by
  intro db
  unfold observe
  rw [rowsOf_replica rfl, List.map_map]
  apply List.map_congr_left
  intro r _
  simp [contentOf, Row.replicated]

/-- The commits so far, as seen in the package list. -/
abbrev LoadCommitted (s₀ s : Idl schema) (fs : List (Finished schema)) : Prop :=
  @Committed schema _ .packageInfo contentOf s₀ s fs

/-- What is left to commit when the parser stops: the rows of the last batch. -/
structure Ends (s₀ : Idl schema) (fs : List (Finished schema)) (rows : List OvsRow)
    (l : Loader) (s : Idl schema) : Prop where
  committed : LoadCommitted s₀ s fs
  txn : s.txn = if rows = [] then .none else .opened ⟨rows, []⟩
  isTxn : l.txn = decide (rows ≠ [])

/-- The entries so far are the rows committed in full batches and those of the batch
that is not committed yet. -/
structure Loaded (s₀ : Idl schema) (es : List PackageEntry) (fs : List (Finished schema))
    (cur : List OvsRow) (l : Loader) (s : Idl schema) : Prop where
  between : Between s l cur
  committed : LoadCommitted s₀ s fs
  full : ∀ f ∈ fs, f.txn.inserted.length = pkgInfoEntriesPerCommit
  contents : (fs.flatMap (fun f => f.txn.inserted) ++ cur).map contentOf =
    es.map PackageEntry.content
  tables : ∀ r ∈ fs.flatMap (fun f => f.txn.inserted) ++ cur, r.table = .packageInfo
  counted : l.recordCount = es.length
  total : es.length = fs.length * pkgInfoEntriesPerCommit + cur.length

variable {s₀ s : Idl schema} {es : List PackageEntry} {e : PackageEntry}
  {fs : List (Finished schema)} {cur rows : List OvsRow} {l : Loader}

theorem Loaded.start (hs : s₀.txn = .none) : Loaded s₀ [] [] [] .start s₀ where
  between := ⟨hs, rfl, rfl, by simp⟩
  committed := .refl s₀
  full := by simp
  contents := rfl
  tables := by simp
  counted := rfl
  total := rfl

theorem Loaded.ends (h : Loaded s₀ es fs cur l s) : Ends s₀ fs cur l s :=
  ⟨h.committed, h.between.txn, h.between.isTxn⟩

section Commit

theorem commitAndDestroy_opened {t : Txn schema} (h : s.txn = .opened t) :
    commitAndDestroy s = .ok ((), { (s.commit t).2 with txn := .none }) := by
  have hcommit : (txnCommitBlock : OvsM TxnStatus) s = .ok (s.commit t) := by
    unfold txnCommitBlock
    rw [h]
  have hdestroy : (txnDestroy : OvsM Unit) (s.commit t).2 =
      .ok ((), { (s.commit t).2 with txn := .none }) := by
    unfold txnDestroy
    rw [Idl.commit_txn]
  exact (bind_ok _ hcommit).trans hdestroy

theorem commit_batch (hc : LoadCommitted s₀ s fs) (hrows : rows ≠ [])
    (htxn : s.txn = .opened ⟨rows, []⟩) :
    ∃ f : Finished schema, f.txn = ⟨rows, []⟩ ∧ commitAndDestroy s =
        .ok ((), { (s.commit ⟨rows, []⟩).2 with txn := .none }) ∧
      LoadCommitted s₀ { (s.commit ⟨rows, []⟩).2 with txn := .none } (fs ++ [f]) := by
  have hne : (⟨rows, []⟩ : Txn schema).isEmpty = false := by simp [Txn.isEmpty, hrows]
  obtain ⟨f, hf, htxn'⟩ := hc.commit observable_contentOf hne rfl
  exact ⟨f, htxn', commitAndDestroy_opened htxn, hf.congr rfl rfl rfl rfl⟩

theorem Ends.finish (h : Ends s₀ fs rows l s) :
    ∃ s' fs', (if l.txn then commitAndDestroy else return : OvsM Unit) s = .ok ((), s') ∧
      LoadCommitted s₀ s' (fs ++ fs') ∧
      (rows = [] ∧ fs' = [] ∨ rows ≠ [] ∧ ∃ f, fs' = [f] ∧ f.txn = ⟨rows, []⟩) := by
  by_cases hrows : rows = []
  · have hl : l.txn = false := by simp [h.isTxn, hrows]
    refine ⟨s, [], ?_, by simpa using h.committed, .inl ⟨hrows, rfl⟩⟩
    rw [hl]
    rfl
  · have hl : l.txn = true := by simp [h.isTxn, hrows]
    have htxn := h.txn
    rw [if_neg hrows] at htxn
    obtain ⟨f, hf, hrun, hc⟩ := commit_batch h.committed hrows htxn
    refine ⟨_, [f], ?_, hc, .inr ⟨hrows, f, rfl, hf⟩⟩
    rw [hl]
    exact hrun

end Commit

section Entry

/-- Inside an entry the row being filled is the last of its batch. -/
structure Inside (s₀ : Idl schema) (fs : List (Finished schema)) (cur : List OvsRow)
    (r : OvsRow) (l : Loader) (s : Idl schema) : Prop where
  filling : Filling s l cur r
  committed : LoadCommitted s₀ s fs
  fresh : ∀ q ∈ cur ++ [r], q.uuid.serial < s.nextSerial

theorem Inside.ends {r : OvsRow} (h : Inside s₀ fs cur r l s) : Ends s₀ fs (cur ++ [r]) l s where
  committed := h.committed
  txn := by simpa using h.filling.txn
  isTxn := by simpa using h.filling.isTxn

/-- The name of an entry and tame scalars after it, from between two entries. -/
theorem foldlM_inside (h : Loaded s₀ es fs cur l s) (he : e.Plain) {vs : List CStr}
    (hvs : Tame .pkg vs) :
    ∃ l' s' u, ([cstr "PKG", e.name] ++ vs).foldlM onScalar l s = .ok (l', s') ∧
      Inside s₀ fs cur (vs.foldl feedRow (.pkg, newRow u e.name)).2 l' s' ∧
      l'.currentState = (vs.foldl feedRow (.pkg, newRow u e.name)).1 ∧
      l'.recordCount = l.recordCount := by
  have hname : packageInfoMappingCheckKey e.name = .value :=
    he.checkKey (by simp [PackageEntry.values])
  obtain ⟨created, hbegin, hfilling⟩ := foldlM_begin h.between hname
  obtain ⟨hrun, hfilled⟩ := foldlM_filling hfilling hvs
  obtain ⟨huuid, _⟩ := foldl_feedRow_row vs (.pkg, newRow ⟨s.client, s.nextSerial⟩ e.name)
  refine ⟨_, _, ⟨s.client, s.nextSerial⟩, ?_, ⟨hfilled, h.committed.congr rfl rfl rfl rfl, ?_⟩,
    rfl, rfl⟩
  · rw [List.foldlM_append]
    exact (bind_ok _ hbegin).trans hrun
  · intro q hq
    show q.uuid.serial < s.nextSerial + 1
    rcases List.mem_append.mp hq with hold | hnew
    · exact Nat.lt_succ_of_lt (h.between.fresh q hold)
    · rw [List.mem_singleton.mp hnew, huuid]
      exact Nat.lt_succ_self _

theorem Inside.fresh_set {r : OvsRow} (h : Inside s₀ fs cur r l s) {v : Option CStr} :
    ∀ q ∈ cur ++ [r.setCol .packageInfoSrcType v], q.uuid.serial < s.nextSerial := by
  intro q hq
  rcases List.mem_append.mp hq with hold | hnew
  · exact h.fresh q (by simp [hold])
  · rw [List.mem_singleton.mp hnew]
    exact h.fresh r (by simp)

/-- The type closes an entry, and at a multiple of the batch size the batch. -/
theorem onScalar_type {r : OvsRow} (h : Inside s₀ fs cur r l s) (hstate : l.currentState = .type)
    {type : CStr} (htype : packageInfoMappingCheckKey type = .value)
    (hcount : l.recordCount % pkgInfoEntriesPerCommit = cur.length) :
    ∃ fs' cur' l' s', onScalar l type s = .ok (l', s') ∧ Between s' l' cur' ∧
      LoadCommitted s₀ s' (fs ++ fs') ∧ l'.recordCount = l.recordCount + 1 ∧
      (fs' = [] ∧ cur' = cur ++ [r.setCol .packageInfoSrcType (some type)] ∨
        cur' = [] ∧ cur.length + 1 = pkgInfoEntriesPerCommit ∧ ∃ f, fs' = [f] ∧
          f.txn.inserted = cur ++ [r.setCol .packageInfoSrcType (some type)]) := by
  have hfill := fill_filling h.filling (c := .packageInfoSrcType) rfl (some type)
  have hbatch : pkgInfoEntriesPerCommit = 2000 := rfl
  have hrun : onScalar l type s = endPackage l type s := by
    unfold onScalar onValue
    rw [htype, hstate]
  have hheld : LoadCommitted s₀
      (holding s (cur ++ [r.setCol .packageInfoSrcType (some type)])) fs :=
    h.committed.congr rfl rfl rfl rfl
  rw [hrun]
  unfold endPackage
  rw [bind_ok _ hfill]
  split_ifs with hfull
  · obtain ⟨f, hf, hcommit, hc⟩ := commit_batch hheld (by simp) rfl
    refine ⟨[f], [], _, _, bind_ok _ hcommit, ⟨rfl, rfl, ?_, by simp⟩, hc, rfl,
      .inr ⟨rfl, ?_, f, rfl, by rw [hf]⟩⟩
    · simpa using hfull
    · rw [hbatch] at hfull hcount ⊢
      omega
  · refine ⟨[], cur ++ [r.setCol .packageInfoSrcType (some type)], _, _, rfl,
      ⟨?_, ?_, ?_, h.fresh_set⟩, ?_, rfl, .inl ⟨rfl, rfl⟩⟩
    · simp [holding]
    · simpa using h.filling.isTxn
    · rw [List.length_append, List.length_singleton]
      rw [hbatch] at hfull hcount ⊢
      dsimp only
      omega
    · simpa using hheld

theorem Loaded.entry (h : Loaded s₀ es fs cur l s) (he : e.Plain) :
    ∃ fs' cur' l' s', e.scalars.foldlM onScalar l s = .ok (l', s') ∧
      Loaded s₀ (es ++ [e]) fs' cur' l' s' := by
  obtain ⟨l₁, s₁, u, hrun, hinside, hstate, hcount⟩ := foldlM_inside h he (tame_fields he)
  rw [(foldl_fields he _).1] at hstate
  have htype : packageInfoMappingCheckKey e.type = .value :=
    he.checkKey (by simp [PackageEntry.values])
  obtain ⟨fs', cur', l₂, s₂, hlast, hbetween, hc, hcount', hcases⟩ :=
    onScalar_type hinside hstate htype (hcount ▸ h.between.count)
  have hsplit : e.scalars =
      [cstr "PKG", e.name] ++ (e.fields ++ [cstr "TYPE"]) ++ [e.type] := by
    simp [PackageEntry.scalars]
  have hcontent : contentOf (e.filled (newRow u e.name)) = e.content := contentOf_filled he rfl
  have htable : (e.filled (newRow u e.name)).table = .packageInfo :=
    (foldl_feedRow_row _ (.pkg, newRow u e.name)).2
  have hrows : (fs ++ fs').flatMap (fun f => f.txn.inserted) ++ cur' =
      (fs.flatMap (fun f => f.txn.inserted) ++ cur) ++ [e.filled (newRow u e.name)] := by
    rcases hcases with ⟨rfl, rfl⟩ | ⟨rfl, _, f, rfl, hf⟩
    · rw [List.append_nil, List.append_assoc]
      rfl
    · rw [List.flatMap_append, List.flatMap_singleton, hf, List.append_nil, List.append_assoc]
      rfl
  refine ⟨fs ++ fs', cur', l₂, s₂, ?_, hbetween, hc, ?_, ?_, ?_, ?_, ?_⟩
  · rw [hsplit, List.foldlM_append]
    refine (bind_ok _ hrun).trans ?_
    rw [List.foldlM_cons]
    exact bind_ok _ hlast
  · intro f hf
    rcases List.mem_append.mp hf with hold | hnew
    · exact h.full f hold
    · rcases hcases with ⟨rfl, _⟩ | ⟨_, hlength, f', rfl, hf'⟩
      · cases hnew
      · rw [List.mem_singleton.mp hnew, hf', List.length_append]
        exact hlength
  · rw [hrows, List.map_append, h.contents, List.map_append]
    simp [hcontent]
  · rw [hrows]
    intro r hr
    rcases List.mem_append.mp hr with hold | hnew
    · exact h.tables r hold
    · rw [List.mem_singleton.mp hnew]
      exact htable
  · rw [hcount', hcount, h.counted, List.length_append, List.length_singleton]
  · have htotal := h.total
    rcases hcases with ⟨rfl, rfl⟩ | ⟨rfl, hlength, f, rfl, _⟩
    · simp only [List.length_append, List.length_singleton, List.append_nil]
      omega
    · simp only [List.length_append, List.length_singleton, List.length_nil, Nat.add_mul]
      omega

theorem Loaded.entries {es' : List PackageEntry} (h : Loaded s₀ es fs cur l s)
    (he : ∀ e ∈ es', e.Plain) :
    ∃ fs' cur' l' s', (es'.flatMap PackageEntry.scalars).foldlM onScalar l s = .ok (l', s') ∧
      Loaded s₀ (es ++ es') fs' cur' l' s' := by
  induction es' generalizing es fs cur l s with
  | nil => exact ⟨fs, cur, l, s, rfl, by simpa using h⟩
  | cons e rest ih =>
    obtain ⟨fs₁, cur₁, l₁, s₁, hrun, h₁⟩ := h.entry (he e (by simp))
    obtain ⟨fs', cur', l', s', hrest, h'⟩ := ih h₁ (fun e' he' => he e' (by simp [he']))
    refine ⟨fs', cur', l', s', ?_, by simpa using h'⟩
    rw [List.flatMap_cons, List.foldlM_append]
    exact (bind_ok _ hrun).trans hrest

/-- How many names of a single entry have been delivered with these scalars. -/
def namesIn (part : List CStr) : ℕ := if 2 ≤ part.length then 1 else 0

theorem Loaded.part (h : Loaded s₀ es fs cur l s) (he : e.Plain) {part : List CStr}
    (hpart : part <+: e.scalars) (hne : part ≠ e.scalars) :
    ∃ rows l' s', part.foldlM onScalar l s = .ok (l', s') ∧ Ends s₀ fs rows l' s' ∧
      rows.length = cur.length + namesIn part := by
  unfold PackageEntry.scalars at hpart hne
  cases part with
  | nil => exact ⟨cur, l, s, rfl, h.ends, rfl⟩
  | cons key rest =>
    rw [List.cons_prefix_cons] at hpart
    obtain ⟨rfl, hpart⟩ := hpart
    cases rest with
    | nil =>
      refine ⟨cur, { l with currentState := .pkg }, s, ?_, ⟨h.committed, ?_, ?_⟩, rfl⟩
      · rw [List.foldlM_cons]
        unfold onScalar
        rw [checkKey_pkg]
        rfl
      · exact h.between.txn
      · exact h.between.isTxn
    | cons name vs =>
      rw [List.cons_prefix_cons] at hpart
      obtain ⟨rfl, hpart⟩ := hpart
      have hlist : e.fields ++ [cstr "TYPE", e.type] = (e.fields ++ [cstr "TYPE"]) ++ [e.type] := by
        simp
      rw [hlist] at hpart hne
      have hvs : vs <+: e.fields ++ [cstr "TYPE"] := by
        rcases List.prefix_concat_iff.mp hpart with heq | hprefix
        · exact absurd (by rw [heq]) hne
        · exact hprefix
      obtain ⟨l', s', u, hrun, hinside, _, _⟩ := foldlM_inside h he ((tame_fields he).initial hvs)
      refine ⟨_, l', s', hrun, hinside.ends, ?_⟩
      simp [namesIn]

end Entry

section File

/-- The commits that so many names need. -/
def batches (names : ℕ) : ℕ := (names + (pkgInfoEntriesPerCommit - 1)) / pkgInfoEntriesPerCommit

/-- What the parser delivers of a file with these entries: how many names, and
whether it gets through the last type. It may fail after any event. -/
inductive Reads (entries : List PackageEntry) : Option (List YamlEvent) → ℕ → Bool → Prop
  | closed : Reads entries none 0 false
  | whole {events stop : List YamlEvent}
      (scalars : scalarsOf events = entries.flatMap PackageEntry.scalars)
      (inside : .streamEnd ∉ events) (stops : stop = [] ∨ ∃ rest, stop = .streamEnd :: rest) :
      Reads entries (some (events ++ stop)) entries.length true
  | breaks {events : List YamlEvent} {before after : List PackageEntry} {e : PackageEntry}
      {part : List CStr} (split : entries = before ++ e :: after)
      (scalars : scalarsOf events = before.flatMap PackageEntry.scalars ++ part)
      (proper : part <+: e.scalars ∧ part ≠ e.scalars) (inside : .streamEnd ∉ events) :
      Reads entries (some events) (before.length + namesIn part) false

/-- The transactions hold one row for each entry, in order, in full batches. -/
structure Batched (entries : List PackageEntry) (fs : List (Finished schema)) : Prop where
  contents : (fs.flatMap (fun f => f.txn.inserted)).map contentOf =
    entries.map PackageEntry.content
  tables : ∀ f ∈ fs, ∀ r ∈ f.txn.inserted, r.table = .packageInfo
  full : ∀ f ∈ fs.dropLast, f.txn.inserted.length = pkgInfoEntriesPerCommit
  nonempty : ∀ f ∈ fs, f.txn.inserted ≠ []
  bounded : ∀ f ∈ fs, f.txn.inserted.length ≤ pkgInfoEntriesPerCommit

theorem sysdAddPackageInfo_run {events : List YamlEvent} {s' s'' : Idl schema} {l' : Loader}
    (hloop : loop events .start s₀ = .ok (l', s'))
    (hend : (if l'.txn then commitAndDestroy else return : OvsM Unit) s' = .ok ((), s'')) :
    sysdAddPackageInfo (some events) s₀ = .ok ((), s'') :=
  (bind_ok _ hloop).trans hend

theorem length_batches {n m k : ℕ} (hn : n = m * pkgInfoEntriesPerCommit + k)
    (hk : k ≤ pkgInfoEntriesPerCommit) :
    batches n = m + if k = 0 then 0 else 1 := by
  have hbatch : pkgInfoEntriesPerCommit = 2000 := rfl
  unfold batches
  rw [hbatch] at hn hk ⊢
  split_ifs
  · omega
  · omega

theorem Loaded.length_lt (h : Loaded s₀ es fs cur l s) : cur.length < pkgInfoEntriesPerCommit := by
  rw [← h.between.count]
  exact Nat.mod_lt _ (by decide)

theorem Loaded.batched {fs' : List (Finished schema)} (h : Loaded s₀ es fs cur l s)
    (hlast : cur = [] ∧ fs' = [] ∨ cur ≠ [] ∧ ∃ f, fs' = [f] ∧ f.txn = ⟨cur, []⟩) :
    Batched es (fs ++ fs') := by
  have hfull : ∀ f ∈ fs, f.txn.inserted ≠ [] := by
    intro f hf hnil
    have hlength := h.full f hf
    rw [hnil] at hlength
    cases hlength
  have htables : ∀ f ∈ fs, ∀ r ∈ f.txn.inserted, r.table = .packageInfo := fun f hf r hr =>
    h.tables r (List.mem_append_left _ (List.mem_flatMap.mpr ⟨f, hf, hr⟩))
  rcases hlast with ⟨rfl, rfl⟩ | ⟨hne, f, rfl, hf⟩
  · rw [List.append_nil]
    refine ⟨by simpa using h.contents, htables, ?_, hfull, fun f hf => (h.full f hf).le⟩
    exact fun f hf => h.full f (List.mem_of_mem_dropLast hf)
  · have hinserted : f.txn.inserted = cur := by rw [hf]
    refine ⟨?_, ?_, ?_, ?_, ?_⟩
    · rw [List.flatMap_append, List.flatMap_singleton, hinserted]
      exact h.contents
    · intro f' hf' r hr
      rcases List.mem_append.mp hf' with hold | hnew
      · exact htables f' hold r hr
      · rw [List.mem_singleton.mp hnew, hinserted] at hr
        exact h.tables r (List.mem_append_right _ hr)
    · rw [List.dropLast_concat]
      exact h.full
    · intro f' hf'
      rcases List.mem_append.mp hf' with hold | hnew
      · exact hfull f' hold
      · rw [List.mem_singleton.mp hnew, hinserted]
        exact hne
    · intro f' hf'
      rcases List.mem_append.mp hf' with hold | hnew
      · exact (h.full f' hold).le
      · rw [List.mem_singleton.mp hnew, hinserted]
        exact h.length_lt.le

theorem length_finish {fs' : List (Finished schema)} {n : ℕ}
    (hlast : rows = [] ∧ fs' = [] ∨ rows ≠ [] ∧ ∃ f, fs' = [f] ∧ f.txn = ⟨rows, []⟩)
    (hn : n = fs.length * pkgInfoEntriesPerCommit + rows.length)
    (hrows : rows.length ≤ pkgInfoEntriesPerCommit) : (fs ++ fs').length = batches n := by
  rw [length_batches hn hrows, List.length_append]
  rcases hlast with ⟨rfl, rfl⟩ | ⟨hne, f, rfl, _⟩
  · rfl
  · rw [if_neg (by simpa using hne)]
    rfl

/-- The loader on any file: it returns, after one commit for each batch of names. -/
theorem sysdAddPackageInfo_reads {entries : List PackageEntry}
    (hplain : ∀ e ∈ entries, e.Plain) (hs : s₀.txn = .none)
    {versionDetail : Option (List YamlEvent)} {names : ℕ} {whole : Bool}
    (hreads : Reads entries versionDetail names whole) :
    ∃ s fs, sysdAddPackageInfo versionDetail s₀ = .ok ((), s) ∧ LoadCommitted s₀ s fs ∧
      fs.length = batches names ∧ (whole = true → Batched entries fs) := by
  cases hreads with
  | closed => exact ⟨s₀, [], rfl, .refl s₀, by decide, fun h => by cases h⟩
  | whole scalars inside stops =>
    obtain ⟨fs, cur, l, s, hrun, hloaded⟩ := (Loaded.start hs).entries hplain
    obtain ⟨s', fs', hend, hc, hlast⟩ := hloaded.ends.finish
    rw [← scalars, ← loop_eq_foldlM inside stops] at hrun
    refine ⟨s', fs ++ fs', sysdAddPackageInfo_run hrun hend, hc, ?_, fun _ => ?_⟩
    · exact length_finish hlast hloaded.total hloaded.length_lt.le
    · exact hloaded.batched hlast
  | @breaks events before after e part split scalars proper inside =>
    have hbefore : ∀ e ∈ before, e.Plain := fun e he => hplain e (by simp [split, he])
    obtain ⟨fs, cur, l, s, hrun, hloaded⟩ := (Loaded.start hs).entries hbefore
    obtain ⟨rows, l', s', hpart, hends, hlength⟩ :=
      hloaded.part (hplain e (by simp [split])) proper.1 proper.2
    obtain ⟨s'', fs', hend, hc, hlast⟩ := hends.finish
    have hloop : loop events .start s₀ = .ok (l', s') := by
      have hfold := loop_eq_foldlM inside (.inl rfl) .start
      rw [List.append_nil, scalars, List.foldlM_append] at hfold
      rw [hfold]
      exact (bind_ok _ hrun).trans hpart
    refine ⟨s'', fs ++ fs', sysdAddPackageInfo_run hloop hend, hc, ?_, fun h => by cases h⟩
    have htotal := hloaded.total
    have hlt := hloaded.length_lt
    have hnames : namesIn part ≤ 1 := by
      unfold namesIn
      split_ifs <;> omega
    refine length_finish hlast ?_ (by omega)
    rw [hlength]
    simp only [List.nil_append] at htotal
    omega

/-- A package file is loaded completely and in batches: where every commit succeeds,
the loader returns with no transaction left, and its transactions hold one row for
each entry, in order and filled as the entry says, all but the last of them in
full batches. -/
theorem sysdAddPackageInfo_loads {entries : List PackageEntry} {events rest : List YamlEvent}
    (hplain : ∀ e ∈ entries, e.Plain)
    (hscalars : scalarsOf events = entries.flatMap PackageEntry.scalars)
    (hinside : .streamEnd ∉ events) (hs : Settled s₀)
    (hsucceeds : ∀ i < batches entries.length, s₀.succeeds i) :
    ∃ s fs, sysdAddPackageInfo (some (events ++ .streamEnd :: rest)) s₀ = .ok ((), s) ∧
      Settled s ∧ s.finished = s₀.finished ++ fs ∧
      (∀ f ∈ fs, f.status = .success ∧ f.txn.updates = []) ∧ Batched entries fs := by
  obtain ⟨s, fs, hrun, hc, hlength, hbatched⟩ :=
    sysdAddPackageInfo_reads hplain hs.txn (.whole hscalars hinside (.inr ⟨rest, rfl⟩))
  refine ⟨s, fs, hrun, settled_sysdAddPackageInfo hs hrun, hc.finished, fun f hf => ?_,
    hbatched rfl⟩
  obtain ⟨i, hi, rfl⟩ := List.mem_iff_getElem.mp hf
  exact ⟨(hc.status i hi).mpr (hsucceeds i (hlength ▸ hi)), hc.updates _ hf⟩

/-- Two entries: a package with an invalid revision, and one with a URL. -/
def sampleEntries : List PackageEntry :=
  [⟨cstr "bash", some (cstr "4.3"), some (cstr "INVALID"), none, cstr "recipe"⟩,
    ⟨cstr "ops-sysd", none, some (cstr "9f2c"), some (cstr "git://ops-sysd"), cstr "daemon"⟩]

/-- A replica with the lock on which every commit succeeds. -/
def plainReplica : Idl schema :=
  ⟨0, 0, [], .none, 0, true, false, fun _ => ⟨[], .success, [], true, false, false⟩, 0, []⟩

theorem sysdAddPackageInfo_sampleEntries :
    ∃ s fs, sysdAddPackageInfo (some (.other ::
        (sampleEntries.flatMap PackageEntry.scalars).map .scalar ++ [.streamEnd])) plainReplica =
        .ok ((), s) ∧ Settled s ∧ s.finished = fs ∧ Batched sampleEntries fs := by
  obtain ⟨s, fs, hrun, hsettled, hfinished, _, hbatched⟩ :=
    @sysdAddPackageInfo_loads plainReplica sampleEntries
      (.other :: (sampleEntries.flatMap PackageEntry.scalars).map .scalar) []
      (by decide) (by decide) (by decide) ⟨rfl, rfl⟩
      (fun _ _ => ⟨rfl, fun _ _ => rfl, rfl⟩)
  exact ⟨s, fs, hrun, hsettled, hfinished, hbatched⟩

end File

end OpsSysd.PackageInfo
