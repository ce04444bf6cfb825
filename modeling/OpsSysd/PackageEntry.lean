import OpsSysd.PackageInfoFrame

/-!
The loader inside one entry of a file that lists packages. The last row of the
open transaction is the one being filled, and what its columns become is a fold
over the scalars of the entry.
-/

namespace OpsSysd.PackageInfo

open CString Ovsdb Ovsrec

/-- One entry of the file; the fields after the name are in this order. -/
structure PackageEntry where
  name : CStr
  pv : Option CStr
  srcrev : Option CStr
  srcUrl : Option CStr
  type : CStr
  deriving DecidableEq

/-- The columns of a row of the package list. -/
structure PackageContent where
  name : Option CStr
  srcType : Option CStr
  srcUrl : Option CStr
  version : Option CStr
  deriving DecidableEq

def contentOf (r : OvsRow) : PackageContent where
  name := r.col .packageInfoName
  srcType := r.col .packageInfoSrcType
  srcUrl := r.col .packageInfoSrcUrl
  version := r.col .packageInfoVersion

section Content

variable (r : OvsRow) (v : Option CStr)

theorem contentOf_setType :
    contentOf (r.setCol .packageInfoSrcType v) = { contentOf r with srcType := v } := rfl

end Content

namespace PackageEntry

variable (e : PackageEntry)

/-- A key word and a value, if the field is there. -/
def field (key : CStr) : Option CStr → List CStr
  | none => []
  | some v => [key, v]

/-- The fields between the name and the type. -/
def fields : List CStr :=
  field (cstr "PV") e.pv ++ field (cstr "SRCREV") e.srcrev ++ field (cstr "SRC_URL") e.srcUrl

def scalars : List CStr := cstr "PKG" :: e.name :: (e.fields ++ [cstr "TYPE", e.type])

def values : List CStr :=
  e.name :: (e.pv.toList ++ e.srcrev.toList ++ e.srcUrl.toList ++ [e.type])

/-- No value is a key word. -/
def Plain : Prop := ∀ v ∈ e.values, v ∉ keystrPkgInfo.map Prod.fst

instance : Decidable e.Plain := inferInstanceAs (Decidable (∀ v ∈ e.values, _))

/-- The source revision unless it is missing or invalid, else the package version. -/
def version : Option CStr :=
  match e.srcrev with
  | none => e.pv
  | some rev => if rev = cstr "INVALID" then e.pv else some rev

/-- The row that the entry asks for. -/
def content : PackageContent := ⟨some e.name, some e.type, e.srcUrl, e.version⟩

end PackageEntry

theorem checkKey_value {v : CStr} (h : v ∉ keystrPkgInfo.map Prod.fst) :
    packageInfoMappingCheckKey v = .value := by
  unfold packageInfoMappingCheckKey
  have hnone : keystrPkgInfo.find? (fun p => p.1 = v) = none := by
    rw [List.find?_eq_none]
    intro p hp heq
    exact h (List.mem_map.mpr ⟨p, hp, by simpa using heq⟩)
  rw [hnone]
  rfl

section Fold

/-- What a value does to the current row, apart from a name or a type. -/
def fillRow (r : OvsRow) (v : CStr) : Key → OvsRow
  | .pv => r.setCol .packageInfoVersion (some v)
  | .srcrev => if v = cstr "INVALID" then r else r.setCol .packageInfoVersion (some v)
  | .srcUrl => r.setCol .packageInfoSrcUrl (some v)
  | _ => r

/-- The key word in force and the current row after a scalar. -/
def feedRow (q : Key × OvsRow) (v : CStr) : Key × OvsRow :=
  match packageInfoMappingCheckKey v with
  | .value => (q.1, fillRow q.2 v q.1)
  | key => (key, q.2)

/-- No value comes where a name or a type is expected. -/
def Tame : Key → List CStr → Prop
  | _, [] => True
  | state, v :: rest =>
    match packageInfoMappingCheckKey v with
    | .value => state ≠ .pkg ∧ state ≠ .type ∧ Tame state rest
    | key => Tame key rest

theorem Tame.initial {state : Key} {l l' : List CStr} (h : Tame state l') (hl : l <+: l') :
    Tame state l := by
  induction l generalizing state l' with
  | nil => trivial
  | cons v rest ih =>
    obtain ⟨tail, rfl⟩ := hl
    rw [List.cons_append] at h
    unfold Tame at h ⊢
    cases hkey : packageInfoMappingCheckKey v with
    | value =>
      simp only [hkey] at h ⊢
      exact ⟨h.1, h.2.1, ih h.2.2 (List.prefix_append _ _)⟩
    | _ =>
      simp only [hkey] at h ⊢
      exact ih h (List.prefix_append _ _)

variable {e : PackageEntry}

theorem PackageEntry.Plain.checkKey (h : e.Plain) {v : CStr} (hv : v ∈ e.values) :
    packageInfoMappingCheckKey v = .value := checkKey_value (h v hv)

theorem checkKey_pv : packageInfoMappingCheckKey (cstr "PV") = .pv := by decide
theorem checkKey_srcrev : packageInfoMappingCheckKey (cstr "SRCREV") = .srcrev := by decide
theorem checkKey_srcUrl : packageInfoMappingCheckKey (cstr "SRC_URL") = .srcUrl := by decide
theorem checkKey_type : packageInfoMappingCheckKey (cstr "TYPE") = .type := by decide
theorem checkKey_pkg : packageInfoMappingCheckKey (cstr "PKG") = .pkg := by decide

/-- A field is tame and decides the key word and the row by its value. -/
theorem tame_field {key : CStr} {k : Key} (hkey : packageInfoMappingCheckKey key = k)
    (hk : k ≠ .value ∧ k ≠ .pkg ∧ k ≠ .type) {o : Option CStr}
    (ho : ∀ v ∈ o, packageInfoMappingCheckKey v = .value) {state : Key} {rest : List CStr}
    (hrest : ∀ state, Tame state rest) : Tame state (PackageEntry.field key o ++ rest) := by
  cases o with
  | none => exact hrest state
  | some v =>
    have hv := ho v rfl
    cases k <;> simp_all [PackageEntry.field, Tame]

theorem foldl_field {key : CStr} {k : Key} (hkey : packageInfoMappingCheckKey key = k)
    (hk : k ≠ .value) {o : Option CStr} (ho : ∀ v ∈ o, packageInfoMappingCheckKey v = .value)
    (q : Key × OvsRow) : ((PackageEntry.field key o).foldl feedRow q).2 =
      o.elim q.2 (fun v => fillRow q.2 v k) := by
  cases o with
  | none => rfl
  | some v =>
    have hv := ho v rfl
    cases k <;> simp_all [PackageEntry.field, feedRow]

theorem checkKey_fields (h : e.Plain) :
    (∀ v ∈ e.pv, packageInfoMappingCheckKey v = .value) ∧
      (∀ v ∈ e.srcrev, packageInfoMappingCheckKey v = .value) ∧
      ∀ v ∈ e.srcUrl, packageInfoMappingCheckKey v = .value := by
  refine ⟨fun v hv => h.checkKey ?_, fun v hv => h.checkKey ?_, fun v hv => h.checkKey ?_⟩
  · simp [PackageEntry.values, Option.mem_def.mp hv]
  · simp [PackageEntry.values, Option.mem_def.mp hv]
  · simp [PackageEntry.values, Option.mem_def.mp hv]

theorem tame_fields (h : e.Plain) : Tame .pkg (e.fields ++ [cstr "TYPE"]) := by
  obtain ⟨hpv, hrev, hurl⟩ := checkKey_fields h
  have htype : ∀ state, Tame state [cstr "TYPE"] := by
    intro state
    simp [Tame, checkKey_type]
  unfold PackageEntry.fields
  rw [List.append_assoc, List.append_assoc]
  refine tame_field checkKey_pv (by decide) hpv (fun state => ?_)
  refine tame_field checkKey_srcrev (by decide) hrev (fun state => ?_)
  exact tame_field checkKey_srcUrl (by decide) hurl htype

/-- What an entry makes of the row with its name. -/
def PackageEntry.filled (e : PackageEntry) (r : OvsRow) : OvsRow :=
  (((e.fields ++ [cstr "TYPE"]).foldl feedRow (.pkg, r)).2).setCol .packageInfoSrcType
    (some e.type)

theorem foldl_fields (h : e.Plain) (r : OvsRow) :
    ((e.fields ++ [cstr "TYPE"]).foldl feedRow (.pkg, r)).1 = .type ∧
      ((e.fields ++ [cstr "TYPE"]).foldl feedRow (.pkg, r)).2 =
        e.srcUrl.elim (e.srcrev.elim (e.pv.elim r (fun v => fillRow r v .pv))
            (fun v => fillRow (e.pv.elim r (fun v => fillRow r v .pv)) v .srcrev))
          (fun v => fillRow (e.srcrev.elim (e.pv.elim r (fun v => fillRow r v .pv))
            (fun v => fillRow (e.pv.elim r (fun v => fillRow r v .pv)) v .srcrev)) v .srcUrl) := by
  obtain ⟨hpv, hrev, hurl⟩ := checkKey_fields h
  have htype : ∀ q, feedRow q (cstr "TYPE") = (.type, q.2) := by
    intro q
    unfold feedRow
    rw [checkKey_type]
  rw [List.foldl_append, List.foldl_cons, List.foldl_nil, htype]
  refine ⟨rfl, ?_⟩
  unfold PackageEntry.fields
  rw [List.foldl_append, List.foldl_append]
  rw [foldl_field checkKey_srcUrl (by decide) hurl, foldl_field checkKey_srcrev (by decide) hrev,
    foldl_field checkKey_pv (by decide) hpv]

theorem contentOf_fillPv (r : OvsRow) (v : CStr) :
    contentOf (fillRow r v .pv) = { contentOf r with version := some v } := rfl

theorem contentOf_fillSrcrev (r : OvsRow) (v : CStr) :
    contentOf (fillRow r v .srcrev) = { contentOf r with
      version := if v = cstr "INVALID" then (contentOf r).version else some v } := by
  unfold fillRow
  split_ifs <;> rfl

theorem contentOf_fillSrcUrl (r : OvsRow) (v : CStr) :
    contentOf (fillRow r v .srcUrl) = { contentOf r with srcUrl := some v } := rfl

theorem contentOf_filled (h : e.Plain) {r : OvsRow}
    (hr : contentOf r = ⟨some e.name, none, none, none⟩) : contentOf (e.filled r) = e.content := by
  unfold PackageEntry.filled
  rw [contentOf_setType, (foldl_fields h r).2]
  unfold PackageEntry.content PackageEntry.version
  cases e.srcUrl <;> cases e.pv <;> cases e.srcrev <;>
    simp [contentOf_fillPv, contentOf_fillSrcrev, contentOf_fillSrcUrl, hr]

end Fold

/-- The scalars among the events. -/
def scalarsOf (events : List YamlEvent) : List CStr :=
  events.filterMap (fun event =>
    match event with
    | .scalar v => some v
    | _ => none)

theorem loop_eq_foldlM {events stop : List YamlEvent} (h : .streamEnd ∉ events)
    (hstop : stop = [] ∨ ∃ rest, stop = .streamEnd :: rest) (l : Loader) :
    loop (events ++ stop) l = (scalarsOf events).foldlM onScalar l := by
  induction events generalizing l with
  | nil =>
    rcases hstop with rfl | ⟨rest, rfl⟩
    · rfl
    · rfl
  | cons event rest ih =>
    have hrest := ih (fun hin => h (by simp [hin]))
    cases event with
    | scalar v =>
      show (onScalar l v >>= loop (rest ++ stop)) = _
      rw [show loop (rest ++ stop) = (scalarsOf rest).foldlM onScalar from funext hrest]
      rfl
    | streamEnd => exact absurd (by simp) h
    | other => exact hrest l

section Filling

/-- The replica with these rows in an open transaction. -/
def holding (s : Idl schema) (rows : List OvsRow) : Idl schema :=
  { s with txn := .opened ⟨rows, []⟩ }

/-- The last row of the open transaction is the one being filled. -/
structure Filling (s : Idl schema) (l : Loader) (pre : List OvsRow) (r : OvsRow) : Prop where
  txn : s.txn = .opened ⟨pre ++ [r], []⟩
  row : l.row = some r.uuid
  isTxn : l.txn = true
  table : r.table = .packageInfo
  fresh : ∀ q ∈ pre, q.uuid ≠ r.uuid

variable {s : Idl schema} {l : Loader} {pre : List OvsRow} {r : OvsRow}

theorem setCol_filling (h : Filling s l pre r) {c : Column} (hc : c.table = .packageInfo)
    (v : c.type.Value) :
    setCol r.uuid c v s = .ok ((), holding s (pre ++ [@Row.setCol schema r c v])) := by
  have hpre : ∀ q ∈ pre, ¬ q.is (schema.tableOf c) r.uuid = true := by
    intro q hq his
    exact h.fresh q hq ((q.is_iff _ _).mp his).2
  have his : r.is (schema.tableOf c) r.uuid = true :=
    (r.is_iff _ _).mpr ⟨h.table.trans hc.symm, rfl⟩
  have hrow : findRow (schema.tableOf c) r.uuid (pre ++ [r]) = some r := by
    unfold findRow
    rw [List.find?_append, List.find?_eq_none.mpr hpre, Option.none_or]
    simp [his]
  have hfind : s.find (schema.tableOf c) r.uuid = some r := by
    unfold Idl.find Txn.find
    rw [h.txn]
    dsimp only
    rw [hrow]
    rfl
  unfold setCol txnWrite
  rw [hfind]
  dsimp only
  split_ifs with hsame
  · have hset : @Row.setCol schema r c v = r := by
      unfold Row.setCol
      rw [← hsame.2, Function.update_eq_self]
    unfold holding
    rw [hset, ← h.txn]
  · rw [h.txn]
    have hmap : pre.map (⟨r.uuid, c, v⟩ : Update schema).applyRow = pre := by
      conv_rhs => rw [← List.map_id pre]
      exact List.map_congr_left (fun q hq => Update.applyRow_of_not_is _ (hpre q hq))
    have hput : (⟨pre ++ [r], []⟩ : Txn schema).put ⟨r.uuid, c, v⟩ =
        ⟨pre ++ [@Row.setCol schema r c v], []⟩ := by
      unfold Txn.put
      rw [if_pos (by rw [hrow]; rfl)]
      unfold Update.apply
      rw [List.map_append, hmap]
      have hlast : (⟨r.uuid, c, v⟩ : Update schema).applyRow r = r.setCol c v := if_pos his
      rw [List.map_singleton, hlast]
    dsimp only
    rw [hput]
    rfl

theorem fill_filling (h : Filling s l pre r) {c : Column} (hc : c.table = .packageInfo)
    (v : c.type.Value) :
    fill l c v s = .ok ((), holding s (pre ++ [@Row.setCol schema r c v])) := by
  have hderef : (deref l.row : OvsM Uuid) s = .ok (r.uuid, s) := by
    unfold deref
    rw [h.row]
  exact (bind_ok _ hderef).trans (setCol_filling h hc v)

theorem onScalar_filling (h : Filling s l pre r) {v : CStr}
    (hv : packageInfoMappingCheckKey v = .value → l.currentState ≠ .pkg ∧ l.currentState ≠ .type) :
    onScalar l v s = .ok ({ l with currentState := (feedRow (l.currentState, r) v).1 },
      holding s (pre ++ [(feedRow (l.currentState, r) v).2])) := by
  have hsame : holding s (pre ++ [r]) = s := by
    unfold holding
    rw [← h.txn]
  have hfill : ∀ (c : Column) (w : c.type.Value), c.table = .packageInfo →
      (do fill l c w; return l : OvsM Loader) s =
        .ok (l, holding s (pre ++ [@Row.setCol schema r c w])) := by
    intro c w hc
    exact bind_ok _ (fill_filling h hc w)
  unfold onScalar feedRow
  cases hkey : packageInfoMappingCheckKey v with
  | value =>
    obtain ⟨hpkg, htype⟩ := hv hkey
    have hl : ∀ k, l.currentState = k → ({ l with currentState := k } : Loader) = l := by
      rintro k rfl
      rfl
    unfold onValue
    cases hstate : l.currentState with
    | value =>
      show Except.ok (l, s) = _
      rw [← hl _ hstate, ← hsame]
      rfl
    | pkg => exact absurd hstate hpkg
    | pv =>
      rw [hl _ hstate]
      exact hfill .packageInfoVersion (some v) rfl
    | srcrev =>
      dsimp only
      unfold fillRow
      split_ifs with hinvalid
      · rw [hl _ hstate, hsame]
        rfl
      · rw [hl _ hstate]
        exact hfill .packageInfoVersion (some v) rfl
    | srcUrl =>
      rw [hl _ hstate]
      exact hfill .packageInfoSrcUrl (some v) rfl
    | type => exact absurd hstate htype
  | _ =>
    simp only [hsame]
    rfl

theorem feedRow_row (q : Key × OvsRow) (v : CStr) :
    (feedRow q v).2.uuid = q.2.uuid ∧ (feedRow q v).2.table = q.2.table := by
  unfold feedRow
  cases packageInfoMappingCheckKey v with
  | value =>
    dsimp only
    cases q.1 with
    | srcrev =>
      unfold fillRow
      split_ifs
      · exact ⟨rfl, rfl⟩
      · exact ⟨rfl, rfl⟩
    | _ => exact ⟨rfl, rfl⟩
  | _ => exact ⟨rfl, rfl⟩

theorem foldl_feedRow_row (vs : List CStr) (q : Key × OvsRow) :
    (vs.foldl feedRow q).2.uuid = q.2.uuid ∧ (vs.foldl feedRow q).2.table = q.2.table := by
  induction vs generalizing q with
  | nil => exact ⟨rfl, rfl⟩
  | cons v rest ih =>
    obtain ⟨huuid, htable⟩ := ih (feedRow q v)
    obtain ⟨huuid', htable'⟩ := feedRow_row q v
    exact ⟨huuid.trans huuid', htable.trans htable'⟩

theorem Filling.hold (h : Filling s l pre r) {r' : OvsRow} (huuid : r'.uuid = r.uuid)
    (htable : r'.table = r.table) (k : Key) :
    Filling (holding s (pre ++ [r'])) { l with currentState := k } pre r' where
  txn := rfl
  row := huuid ▸ h.row
  isTxn := h.isTxn
  table := htable.trans h.table
  fresh := huuid ▸ h.fresh

theorem foldlM_filling {vs : List CStr} (h : Filling s l pre r) (ht : Tame l.currentState vs) :
    vs.foldlM onScalar l s =
        .ok ({ l with currentState := (vs.foldl feedRow (l.currentState, r)).1 },
          holding s (pre ++ [(vs.foldl feedRow (l.currentState, r)).2])) ∧
      Filling (holding s (pre ++ [(vs.foldl feedRow (l.currentState, r)).2]))
        { l with currentState := (vs.foldl feedRow (l.currentState, r)).1 } pre
        (vs.foldl feedRow (l.currentState, r)).2 := by
  induction vs generalizing s l r with
  | nil =>
    refine ⟨?_, h.hold rfl rfl _⟩
    unfold holding
    rw [List.foldl_nil, ← h.txn]
    rfl
  | cons v rest ih =>
    obtain ⟨huuid, htable⟩ := feedRow_row (l.currentState, r) v
    have hstep := h.hold huuid htable (feedRow (l.currentState, r) v).1
    have hv : packageInfoMappingCheckKey v = .value →
        l.currentState ≠ .pkg ∧ l.currentState ≠ .type := by
      intro hkey
      unfold Tame at ht
      rw [hkey] at ht
      exact ⟨ht.1, ht.2.1⟩
    have hrest : Tame (feedRow (l.currentState, r) v).1 rest := by
      unfold Tame at ht
      unfold feedRow
      cases hkey : packageInfoMappingCheckKey v with
      | value =>
        rw [hkey] at ht
        exact ht.2.2
      | _ =>
        rw [hkey] at ht
        exact ht
    obtain ⟨hrun, hfilling⟩ := ih hstep hrest
    rw [List.foldlM_cons, List.foldl_cons]
    exact ⟨(bind_ok _ (onScalar_filling h hv)).trans hrun, hfilling⟩

end Filling

section Begin

/-- The new row of a package. -/
def newRow (u : Uuid) (name : CStr) : OvsRow :=
  (⟨.packageInfo, u, schema.initial⟩ : OvsRow).setCol .packageInfoName (some name)

/-- Between two entries: the rows of the batch that is not committed yet. -/
structure Between (s : Idl schema) (l : Loader) (cur : List OvsRow) : Prop where
  txn : s.txn = if cur = [] then .none else .opened ⟨cur, []⟩
  isTxn : l.txn = decide (cur ≠ [])
  count : l.recordCount % pkgInfoEntriesPerCommit = cur.length
  fresh : ∀ q ∈ cur, q.uuid.serial < s.nextSerial

variable {s : Idl schema} {l : Loader} {cur : List OvsRow}

/-- The replica when a row has been added to the batch. -/
def began (s : Idl schema) (cur : List OvsRow) (name : CStr) (created : ℕ) : Idl schema :=
  { s with
    txn := .opened ⟨cur ++ [newRow ⟨s.client, s.nextSerial⟩ name], []⟩
    nextSerial := s.nextSerial + 1
    created := created }

theorem createAtMultiple_between (h : Between s l cur) :
    ∃ created, createAtMultiple l.recordCount s =
      .ok ((), { s with txn := .opened ⟨cur, []⟩, created := created }) := by
  have htxn := h.txn
  have hcount := h.count
  unfold createAtMultiple
  by_cases hcur : cur = []
  · rw [if_pos hcur] at htxn
    have hzero : l.recordCount % pkgInfoEntriesPerCommit = 0 := by
      rw [hcount, hcur, List.length_nil]
    rw [if_pos hzero]
    refine ⟨s.created + 1, ?_⟩
    unfold txnCreate
    rw [htxn, hcur]
    rfl
  · rw [if_neg hcur] at htxn
    have hpos : ¬ l.recordCount % pkgInfoEntriesPerCommit = 0 := by
      rw [hcount, List.length_eq_zero_iff]
      exact hcur
    rw [if_neg hpos]
    refine ⟨s.created, ?_⟩
    rw [← htxn]
    rfl

/-- The key word and the name open an entry, and at a multiple of the batch size a
transaction. -/
theorem foldlM_begin (h : Between s l cur) {name : CStr}
    (hname : packageInfoMappingCheckKey name = .value) :
    ∃ created, [cstr "PKG", name].foldlM onScalar l s =
        .ok ({ l with currentState := .pkg, row := some ⟨s.client, s.nextSerial⟩, txn := true },
          began s cur name created) ∧
      Filling (began s cur name created)
        { l with currentState := .pkg, row := some ⟨s.client, s.nextSerial⟩, txn := true } cur
        (newRow ⟨s.client, s.nextSerial⟩ name) := by
  obtain ⟨created, hcreate⟩ := createAtMultiple_between h
  have hfresh : ∀ q ∈ cur, q.uuid ≠ ⟨s.client, s.nextSerial⟩ := by
    intro q hq heq
    have hlt := h.fresh q hq
    rw [heq] at hlt
    exact Nat.lt_irrefl _ hlt
  have hfilling : Filling (began s cur name created)
      { l with currentState := .pkg, row := some ⟨s.client, s.nextSerial⟩, txn := true } cur
      (newRow ⟨s.client, s.nextSerial⟩ name) := ⟨rfl, rfl, rfl, rfl, hfresh⟩
  refine ⟨created, ?_, hfilling⟩
  have hkey : onScalar l (cstr "PKG") s = .ok ({ l with currentState := .pkg }, s) := by
    unfold onScalar
    rw [checkKey_pkg]
    rfl
  have hopened : Filling { began s cur name created with
      txn := .opened ⟨cur ++ [⟨.packageInfo, ⟨s.client, s.nextSerial⟩, schema.initial⟩], []⟩ }
      { l with currentState := .pkg, row := some ⟨s.client, s.nextSerial⟩, txn := true } cur
      ⟨.packageInfo, ⟨s.client, s.nextSerial⟩, schema.initial⟩ := ⟨rfl, rfl, rfl, rfl, hfresh⟩
  have hinsert : (txnInsert .packageInfo : OvsM Uuid)
      { s with txn := .opened ⟨cur, []⟩, created := created } =
      .ok (⟨s.client, s.nextSerial⟩, { began s cur name created with
        txn := .opened ⟨cur ++ [⟨.packageInfo, ⟨s.client, s.nextSerial⟩, schema.initial⟩], []⟩ }) :=
    rfl
  have hset := setCol_filling hopened (c := .packageInfoName) rfl (some name)
  have hbegin : onScalar { l with currentState := .pkg } name s =
      .ok ({ l with currentState := .pkg, row := some ⟨s.client, s.nextSerial⟩, txn := true },
        began s cur name created) := by
    unfold onScalar
    rw [hname]
    exact (bind_ok _ hcreate).trans ((bind_ok _ hinsert).trans (bind_ok _ hset))
  rw [List.foldlM_cons]
  refine (bind_ok _ hkey).trans ?_
  rw [List.foldlM_cons]
  exact bind_ok _ hbegin

end Begin

end OpsSysd.PackageInfo
