import OpsSysd.InitialConfigure
import OpsSysd.PackageInfo

/-!
One pass of the main loop, with the boot handshake. The daemon keeps the
sequence number of the last pass through the body and the flag that completion
has been recorded; a pass meets the outside world through its input.
-/

namespace OpsSysd.SysdRun

open CString Ovsdb Ovsrec Platform

/-- The loop over the Daemon rows: the first flagged row whose name the manifest's
name is a prefix of decides. -/
def daemonCurHw (name : CStr) : List OvsRow → Option ℤ
  | [] => none
  | r :: rest =>
    let isHwHandler : Bool := r.col .daemonIsHwHandler
    let dbName : CStr := r.col .daemonName
    if isHwHandler ∧ strncmpEq name dbName name.length then some (r.col .daemonCurHw)
    else daemonCurHw name rest

/-- The loop over the manifest, with `not_set` and `num_found` at its end. -/
def hwDaemonsLoop (db : List OvsRow) : List Manifest.DaemonInfo → ℕ → Bool × ℕ
  | [], numFound => (false, numFound)
  | d :: rest, numFound =>
    if d.isHwHandler then
      match daemonCurHw d.name db with
      | none => hwDaemonsLoop db rest numFound
      | some curHw =>
        if curHw > 0 then hwDaemonsLoop db rest (numFound + 1) else (true, numFound)
    else hwDaemonsLoop db rest numFound

/-- Whether `sysd_chk_if_hw_daemons_done` goes on to `sysd_set_hw_done`. -/
def hwDaemonsDone (m : Manifest.Globals) (db : List OvsRow) : Bool :=
  m.numHwDaemons = 0 ∨
    ((hwDaemonsLoop db m.daemons 0).1 = false ∧ (hwDaemonsLoop db m.daemons 0).2 ≠ 0)

/-- The writes of `sysd_set_hw_done`. -/
def setHwDoneRows : OvsM Unit := do
  let systems : List OvsRow ← rows .system
  systems.forM (fun r => do
    setCol r.uuid .systemCurHw 1
    setCol r.uuid .systemNextHw 1)

def sysdSetHwDone : OvsM Unit := do
  let _ ← transaction setHwDoneRows

/-- The result is `hw_init_done_set` afterwards, given that it was false. -/
def sysdChkIfHwDaemonsDone (m : Manifest.Globals) : OvsM Bool := do
  let db : List OvsRow ← rows .daemon
  if hwDaemonsDone m db then
    sysdSetHwDone
    return true
  else return false

/-- What the outside world does in one pass. -/
structure PassInput where
  deliveries : List (Delivery schema)
  hasLock : Bool
  lockContended : Bool
  /-- The library raises its sequence number for anything but the deliveries. -/
  raises : Bool
  replies : ℕ → Reply schema
  allocations : InitialConfigure.Allocations
  osRelease : Option (List CStr)
  versionDetail : Option (List PackageInfo.YamlEvent)
  symlinkWorks : Bool

structure Sysd where
  idl : Idl schema
  idlSeqno : ℕ
  hwInitDoneSet : Bool
  /-- Where `/etc/localtime` points. -/
  localtime : Option CStr
  /-- The snapshot on which the body last ran. -/
  processed : Option (Database schema)

/-- After `sysd_ovsdb_conn_init`, before the first contact with the server. -/
def Sysd.init (client : ℕ) (replies : ℕ → Reply schema) : Sysd where
  idl := ⟨client, 0, [], .none, 0, false, false, replies, 0, []⟩
  idlSeqno := 0
  hwInitDoneSet := false
  localtime := none
  processed := none

section Pass

variable (st : Startup) (p : PassInput)

/-- The branch on the System row; the result is `hw_init_done_set` afterwards. -/
def configure (hwInitDoneSet : Bool) : OvsM Bool := do
  let systems : List OvsRow ← rows .system
  match systems.head? with
  | none =>
    let _ ← transaction
      (InitialConfigure.sysdInitialConfigure st p.allocations p.osRelease)
    return hwInitDoneSet
  | some cfg =>
    SoftwareInfo.sysdUpdateSwInfo st.external.softwareInfoOsName p.osRelease cfg.uuid
    if hwInitDoneSet then return true
    else sysdChkIfHwDaemonsDone st.manifest

def loadPackageInfo : OvsM Unit := do
  let packages : List OvsRow ← rows .packageInfo
  if packages = [] then PackageInfo.sysdAddPackageInfo p.versionDetail else return

def zoneinfoBasePath : CStr := cstr "/usr/share/zoneinfo/posix/"

/-- `timezone_cmd[200]` takes the path and its terminator. -/
def timezoneCmd (timezone : CStr) : Option CStr :=
  if (zoneinfoBasePath ++ timezone).length < 200 then some (zoneinfoBasePath ++ timezone) else none

/-- Where `/etc/localtime` points afterwards. -/
def sysdHandleTimezoneUpdate (localtime : Option CStr) : OvsM (Option CStr) := do
  let systems : List OvsRow ← rows .system
  match systems.head? with
  | none => return localtime
  | some cfg =>
    let timezoneCmd ← deref (timezoneCmd (cfg.col .systemTimezone))
    return if p.symlinkWorks then some timezoneCmd else none

/-- The pass through the body. -/
def body (s : Sysd) : OvsM (Bool × Option CStr) := do
  let hwInitDoneSet ← configure st p s.hwInitDoneSet
  loadPackageInfo p
  let localtime ← sysdHandleTimezoneUpdate p s.localtime
  return (hwInitDoneSet, localtime)

/-- The replica after `ovsdb_idl_run`. -/
def received (s : Sysd) : Idl schema :=
  { s.idl with replies := p.replies }.run p.deliveries p.hasLock p.lockContended p.raises

def sysdRun (s : Sysd) : Except Fault Sysd :=
  let idl := received p s
  if idl.lockContended = true then .ok { s with idl := idl }
  else if idl.hasLock = false then .ok { s with idl := idl }
  else if idl.seqno ≠ s.idlSeqno then
    match body st p s idl with
    | .error f => .error f
    | .ok ((hwInitDoneSet, localtime), idl') =>
      .ok {
        idl := idl'
        idlSeqno := idl.seqno
        hwInitDoneSet := hwInitDoneSet
        localtime := localtime
        processed := some idl.snapshot }
  else .ok { s with idl := idl }

end Pass

section Plain

/-- A commit during which nothing else happens. -/
def plainReply (status : TxnStatus) : Reply schema := ⟨[], status, [], true, false, false⟩

/-- A pass with the lock held, commits that all end alike and no files to read. -/
def plainPass (deliveries : List (Delivery schema)) (status : TxnStatus) : PassInput where
  deliveries := deliveries
  hasLock := true
  lockContended := false
  raises := true
  replies := fun _ => plainReply status
  allocations := default
  osRelease := none
  versionDetail := none
  symlinkWorks := true

def systemRow : OvsRow := ⟨.system, ⟨1, 0⟩, schema.initial⟩

/-- A row of the Daemon table that is flagged `is_hw_handler`. -/
def daemonRow (serial : ℕ) (name : CStr) (curHw : ℤ) : OvsRow where
  table := .daemon
  uuid := ⟨1, serial⟩
  col
    | .daemonName => name
    | .daemonCurHw => curHw
    | .daemonIsHwHandler => true
    | c => c.type.initial

/-- One hardware daemon. -/
def fandManifest : Manifest.Globals :=
  ⟨[⟨cstr "ops-fand", true, 0⟩], 1, 1, some ⟨0, cstr "eth0"⟩, true⟩

def fandPlatform : Startup := .plain fandManifest ⟨rfl, rfl⟩

/-- The only hardware daemon has finished. -/
def fandReady : Database schema := [systemRow, daemonRow 1 (cstr "ops-fand") 1]

end Plain

end OpsSysd.SysdRun
