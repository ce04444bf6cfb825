import OpsSysd.OvsdbFrame
import OpsSysd.Ovsrec

/-!
The loader of the package list: a state machine over the events of a YAML
parser. A key word selects the column that the next values fill; a name opens a
transaction at every multiple of the batch size and a type closes it there.
-/

namespace OpsSysd.PackageInfo

open CString Ovsdb Ovsrec

def pkgInfoEntriesPerCommit : ℕ := 2000

inductive Key
  | value
  | pkg
  | pv
  | srcrev
  | srcUrl
  | type
  deriving DecidableEq, Repr

/-- `keystr_pkg_info` from `PKG` on. -/
def keystrPkgInfo : List (CStr × Key) :=
  [(cstr "PKG", .pkg), (cstr "PV", .pv), (cstr "SRCREV", .srcrev), (cstr "SRC_URL", .srcUrl),
    (cstr "TYPE", .type)]

def packageInfoMappingCheckKey (data : CStr) : Key :=
  ((keystrPkgInfo.find? (fun p => p.1 = data)).map Prod.snd).getD .value

/-- What one call of the parser yields; the end of a list of events is its failure. -/
inductive YamlEvent
  | scalar (value : CStr)
  | streamEnd
  | other
  deriving DecidableEq

/-- The local variables of the loop. -/
structure Loader where
  currentState : Key
  recordCount : ℕ
  row : Option Uuid
  txn : Bool
  deriving DecidableEq

def Loader.start : Loader := ⟨.value, 0, none, false⟩

/-- Filling a column of the current row. -/
def fill (l : Loader) (c : Column) (v : c.type.Value) : OvsM Unit := do
  let row ← deref l.row
  setCol row c v

/-- A transaction for the entries up to the next multiple of the batch size. -/
def createAtMultiple (recordCount : ℕ) : OvsM Unit :=
  if recordCount % pkgInfoEntriesPerCommit = 0 then txnCreate else pure ()

def commitAndDestroy : OvsM Unit := do
  let _ ← txnCommitBlock
  txnDestroy

/-- The `PKG` case. -/
def beginPackage (l : Loader) (name : CStr) : OvsM Loader := do
  createAtMultiple l.recordCount
  let row ← txnInsert .packageInfo
  setCol row .packageInfoName (some name)
  return { l with row := some row, txn := true }

/-- The `TYPE` case. -/
def endPackage (l : Loader) (type : CStr) : OvsM Loader := do
  fill l .packageInfoSrcType (some type)
  if (l.recordCount + 1) % pkgInfoEntriesPerCommit = 0 then
    commitAndDestroy
    return { l with recordCount := l.recordCount + 1, txn := false }
  else return { l with recordCount := l.recordCount + 1 }

def onValue (l : Loader) (v : CStr) : OvsM Loader :=
  match l.currentState with
  | .value => pure l
  | .pkg => beginPackage l v
  | .pv => do
    fill l .packageInfoVersion (some v)
    return l
  | .srcrev =>
    if v = cstr "INVALID" then pure l
    else do
      fill l .packageInfoVersion (some v)
      return l
  | .srcUrl => do
    fill l .packageInfoSrcUrl (some v)
    return l
  | .type => endPackage l v

def onScalar (l : Loader) (v : CStr) : OvsM Loader :=
  match packageInfoMappingCheckKey v with
  | .value => onValue l v
  | key => pure { l with currentState := key }

def loop : List YamlEvent → Loader → OvsM Loader
  | [], l => pure l
  | .streamEnd :: _, l => pure l
  | .scalar v :: rest, l => do
    let l ← onScalar l v
    loop rest l
  | .other :: rest, l => loop rest l

/-- `none` is a parser or a file that cannot be opened. -/
def sysdAddPackageInfo (versionDetail : Option (List YamlEvent)) : OvsM Unit := do
  match versionDetail with
  | none => return
  | some events =>
    let l ← loop events .start
    if l.txn then commitAndDestroy else return

end OpsSysd.PackageInfo
