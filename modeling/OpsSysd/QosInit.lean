import OpsSysd.OvsdbFrame
import OpsSysd.Platform

/-!
The quality-of-service and access-list part of the initial configuration. The
profile tables are not monitored, so a search by name sees the rows of the open
transaction only. A NULL string that the source copies or compares is a bad
access.
-/

namespace OpsSysd.QosInit

open CString Ovsdb Ovsrec Platform

def qosCosMapEntryCount : ℕ := 8
def qosDscpMapEntryCount : ℕ := 64
def qosTrustKey : CStr := cstr "qos_trust"
def qosDefaultCodePointKey : CStr := cstr "default_code_point"
def qosDefaultLocalPriorityKey : CStr := cstr "default_local_priority"
def qosDefaultColorKey : CStr := cstr "default_color"
def qosDefaultDescriptionKey : CStr := cstr "default_description"
def aclLimitKeyMaxAcls : CStr := cstr "max_acls"
def aclLimitKeyMaxAces : CStr := cstr "max_aces"
def aclLimitKeyMaxAcesPerAcl : CStr := cstr "max_aces_per_acl"

/-- The search by name in a profile table. -/
def getProfileRow (k : Table) (name : OvsRow → CStr) (profileName : CStr) : OvsM (Option Uuid) := do
  let profiles : List OvsRow ← rows k
  return (profiles.find? (fun r => name r = profileName)).map (fun r => r.uuid)

def qosGetQueueProfileRow (profileName : CStr) : OvsM (Option Uuid) :=
  getProfileRow .qProfile (fun r => r.col .qProfileName) profileName

def qosGetScheduleProfileRow (profileName : CStr) : OvsM (Option Uuid) :=
  getProfileRow .qos (fun r => r.col .qosName) profileName

/-- The value stored under a queue number. -/
def entryRow (entries : List (ℤ × Uuid)) (queueNum : ℤ) : Option Uuid :=
  (entries.find? (fun p => p.1 = queueNum)).map Prod.snd

def qosGetQueueProfileEntryRow (profileRow : Uuid) (queueNum : ℤ) : OvsM (Option Uuid) := do
  let entries : List (ℤ × Uuid) ← getCol profileRow .qProfileQProfileEntries
  return entryRow entries queueNum

def insertQueueProfileQueueRow (profileRow : Uuid) (queueNum : ℤ) : OvsM Uuid := do
  let queueRow ← txnInsert .qProfileEntry
  let entries : List (ℤ × Uuid) ← getCol profileRow .qProfileQProfileEntries
  setCol profileRow .qProfileQProfileEntries (entries ++ [(queueNum, queueRow)])
  return queueRow

def qosQueueProfileCommand (profileName : CStr) : OvsM Unit := do
  match ← qosGetQueueProfileRow profileName with
  | some _ => return
  | none =>
    let profileRow ← txnInsert .qProfile
    setCol profileRow .qProfileName profileName

def addLocalPriority (queueRow : Uuid) (localPriority : ℤ) : OvsM Unit := do
  let priorities : List ℤ ← getCol queueRow .qProfileEntryLocalPriorities
  if localPriority ∈ priorities then return
  else setCol queueRow .qProfileEntryLocalPriorities (priorities ++ [localPriority])

/-- The entry's row, inserted if the profile has none for the queue. -/
def queueProfileEntryRow (profileRow : Uuid) (queueNum : ℤ) : OvsM Uuid := do
  match ← qosGetQueueProfileEntryRow profileRow queueNum with
  | some queueRow => return queueRow
  | none => insertQueueProfileQueueRow profileRow queueNum

def qosQueueProfileRowCommand (profileName : CStr) (queueNum localPriority : ℤ)
    (description : Option CStr) : OvsM Bool := do
  match ← qosGetQueueProfileRow profileName with
  | none => return false
  | some profileRow =>
    let queueRow ← queueProfileEntryRow profileRow queueNum
    addLocalPriority queueRow localPriority
    match description with
    | none => return true
    | some _ =>
      setCol queueRow .qProfileEntryDescription description
      return true

def qosQueueProfileCreateFactoryDefault (yaml : YamlPolicies) (defaultName : CStr) : OvsM Unit := do
  qosQueueProfileCommand defaultName
  yaml.queueProfile.forM (fun entry =>
    match entry with
    | none => pure ()
    | some e => do
      let _ ← qosQueueProfileRowCommand defaultName e.queue e.localPriority e.description)

def qosGetScheduleProfileEntryRow (profileRow : Uuid) (queueNum : ℤ) : OvsM (Option Uuid) := do
  let queues : List (ℤ × Uuid) ← getCol profileRow .qosQueues
  return entryRow queues queueNum

def insertScheduleProfileQueueRow (profileRow : Uuid) (queueNum : ℤ) : OvsM Uuid := do
  let queueRow ← txnInsert .queue
  let queues : List (ℤ × Uuid) ← getCol profileRow .qosQueues
  setCol profileRow .qosQueues (queues ++ [(queueNum, queueRow)])
  return queueRow

def qosScheduleProfileCommand (profileName : CStr) : OvsM Unit := do
  match ← qosGetScheduleProfileRow profileName with
  | some _ => return
  | none =>
    let profileRow ← txnInsert .qos
    setCol profileRow .qosName profileName

def scheduleProfileEntryRow (profileRow : Uuid) (queueNum : ℤ) : OvsM Uuid := do
  match ← qosGetScheduleProfileEntryRow profileRow queueNum with
  | some queueRow => return queueRow
  | none => insertScheduleProfileQueueRow profileRow queueNum

def qosScheduleProfileRowCommand (strict profileName : CStr) (queueNum : ℤ)
    (algorithm : Option CStr) (weight : ℤ) : OvsM Bool := do
  match ← qosGetScheduleProfileRow profileName with
  | none => return false
  | some profileRow =>
    let queueRow ← scheduleProfileEntryRow profileRow queueNum
    let algorithm ← deref algorithm
    setCol queueRow .queueAlgorithm algorithm
    setCol queueRow .queueWeight (if algorithm = strict then [] else [weight])
    return true

def qosScheduleProfileCreateFactoryDefault (strict : CStr) (yaml : YamlPolicies)
    (defaultName : CStr) : OvsM Unit := do
  qosScheduleProfileCommand defaultName
  let profileRow ← qosGetScheduleProfileRow defaultName
  let profileRow ← deref profileRow
  setCol profileRow .qosQueues []
  yaml.scheduleProfile.forM (fun entry =>
    match entry with
    | none => pure ()
    | some e => do
      let _ ← qosScheduleProfileRowCommand strict defaultName e.queue e.algorithm e.weight)

def qosInitTrust (yaml : YamlPolicies) (systemRow : Uuid) : OvsM Unit := do
  match yaml.qosInfo with
  | none => return
  | some qosInfo =>
    match qosInfo.trust with
    | none => return
    | some trust =>
      let smap : Smap ← getCol systemRow .systemQosConfig
      setCol systemRow .systemQosConfig (datumFromSmap (smapReplace smap qosTrustKey trust))

/-- The columns of a map entry row. -/
structure MapColumns where
  table : Table
  codePoint : Uuid → ℤ → OvsM Unit
  localPriority : Uuid → ℤ → OvsM Unit
  color : Uuid → CStr → OvsM Unit
  description : Uuid → CStr → OvsM Unit
  hwDefaults : Uuid → OvsM Smap
  setHwDefaults : Uuid → Smap → OvsM Unit

def cosMapColumns : MapColumns where
  table := .qosCosMapEntry
  codePoint u v := setCol u .qosCosMapEntryCodePoint v
  localPriority u v := setCol u .qosCosMapEntryLocalPriority v
  color u v := setCol u .qosCosMapEntryColor v
  description u v := setCol u .qosCosMapEntryDescription v
  hwDefaults u := getCol u .qosCosMapEntryHwDefaults
  setHwDefaults u v := setCol u .qosCosMapEntryHwDefaults v

def dscpMapColumns : MapColumns where
  table := .qosDscpMapEntry
  codePoint u v := setCol u .qosDscpMapEntryCodePoint v
  localPriority u v := setCol u .qosDscpMapEntryLocalPriority v
  color u v := setCol u .qosDscpMapEntryColor v
  description u v := setCol u .qosDscpMapEntryDescription v
  hwDefaults u := getCol u .qosDscpMapEntryHwDefaults
  setHwDefaults u v := setCol u .qosDscpMapEntryHwDefaults v

def setMapEntry (cols : MapColumns) (row : Uuid) (e : YamlMapEntry) : OvsM Unit := do
  cols.codePoint row e.codePoint
  cols.localPriority row e.localPriority
  let color ← deref e.color
  cols.color row color
  let description ← deref e.description
  cols.description row description
  let smap ← cols.hwDefaults row
  let smap := smapReplace smap qosDefaultCodePointKey (decimal e.codePoint)
  let smap := smapReplace smap qosDefaultLocalPriorityKey (decimal e.localPriority)
  let smap := smapReplace smap qosDefaultColorKey color
  let smap := smapReplace smap qosDefaultDescriptionKey description
  cols.setHwDefaults row (datumFromSmap smap)

/-- Entry `ii` goes to row `ii`; past the array there is no row. -/
def initDefaultMap (cols : MapColumns) (entries : List (Option YamlMapEntry))
    (mapRows : List Uuid) : OvsM Unit :=
  entries.zipIdx.forM (fun p => do
    let entry ← deref p.1
    let row ← deref mapRows[p.2]?
    setMapEntry cols row entry)

/-- `qos_init_cos_map` and `qos_init_dscp_map`: the rows, their entries and the
System column that lists them. -/
def initMap (cols : MapColumns) (count : ℕ) (entries : List (Option YamlMapEntry))
    (setEntries : List Uuid → OvsM Unit) : OvsM Unit := do
  match entries.head?.join with
  | none => return
  | some _ =>
    let mapRows ← (List.range count).mapM (fun _ => txnInsert cols.table)
    initDefaultMap cols entries mapRows
    setEntries mapRows

def qosInitCosMap (yaml : YamlPolicies) (systemRow : Uuid) : OvsM Unit :=
  initMap cosMapColumns qosCosMapEntryCount yaml.cosMap
    (fun mapRows => setCol systemRow .systemQosCosMapEntries mapRows)

def qosInitDscpMap (yaml : YamlPolicies) (systemRow : Uuid) : OvsM Unit :=
  initMap dscpMapColumns qosDscpMapEntryCount yaml.dscpMap
    (fun mapRows => setCol systemRow .systemQosDscpMapEntries mapRows)

def qosInitQueueProfile (yaml : YamlPolicies) (systemRow : Uuid) : OvsM Unit := do
  match yaml.qosInfo with
  | none => return
  | some qosInfo =>
    let defaultName ← deref qosInfo.defaultName
    qosQueueProfileCreateFactoryDefault yaml defaultName
    match ← qosGetQueueProfileRow defaultName with
    | none => return
    | some defaultProfile =>
      setCol systemRow .systemQProfile (some defaultProfile)
      let factoryDefaultName ← deref qosInfo.factoryDefaultName
      qosQueueProfileCreateFactoryDefault yaml factoryDefaultName
      match ← qosGetQueueProfileRow factoryDefaultName with
      | none => return
      | some factoryDefaultProfile =>
        setCol factoryDefaultProfile .qProfileHwDefault [true]
        let entries : List (ℤ × Uuid) ← getCol factoryDefaultProfile .qProfileQProfileEntries
        entries.forM (fun p => setCol p.2 .qProfileEntryHwDefault [true])

def qosInitScheduleProfile (strict : CStr) (yaml : YamlPolicies) (systemRow : Uuid) :
    OvsM Unit := do
  match yaml.qosInfo with
  | none => return
  | some qosInfo =>
    let defaultName ← deref qosInfo.defaultName
    qosScheduleProfileCreateFactoryDefault strict yaml defaultName
    match ← qosGetScheduleProfileRow defaultName with
    | none => return
    | some defaultProfile =>
      setCol systemRow .systemQos (some defaultProfile)
      let factoryDefaultName ← deref qosInfo.factoryDefaultName
      qosScheduleProfileCreateFactoryDefault strict yaml factoryDefaultName
      match ← qosGetScheduleProfileRow factoryDefaultName with
      | none => return
      | some factoryDefaultProfile =>
        setCol factoryDefaultProfile .qosHwDefault [true]
        let queues : List (ℤ × Uuid) ← getCol factoryDefaultProfile .qosQueues
        queues.forM (fun p => setCol p.2 .queueHwDefault [true])

def aclInitLimits (yaml : YamlPolicies) (systemRow : Uuid) : OvsM Unit := do
  let aclInfo ← deref yaml.aclInfo
  let smap : Smap ← getCol systemRow .systemOtherInfo
  let smap := smapReplace smap aclLimitKeyMaxAcls (decimal aclInfo.maxAcls)
  let smap := smapReplace smap aclLimitKeyMaxAces (decimal aclInfo.maxAces)
  let smap := smapReplace smap aclLimitKeyMaxAcesPerAcl (decimal aclInfo.maxAcesPerAcl)
  setCol systemRow .systemOtherInfo (datumFromSmap smap)

end OpsSysd.QosInit
