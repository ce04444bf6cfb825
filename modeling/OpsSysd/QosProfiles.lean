import OpsSysd.QosInit

/-!
Queue and schedule profiles are handled alike: a profile is looked up by name,
and its entries are looked up by queue number or added to its map.
-/

namespace OpsSysd.QosInit

open CString Ovsdb Ovsrec Platform

/-- A column whose values have a known type. -/
structure TypedColumn (k : ColumnType) where
  column : Column
  type : column.type = k

namespace TypedColumn

variable {k : ColumnType}

def encode (c : TypedColumn k) (v : k.Value) : c.column.type.Value :=
  cast (congrArg ColumnType.Value c.type.symm) v

def decode (c : TypedColumn k) (v : c.column.type.Value) : k.Value :=
  cast (congrArg ColumnType.Value c.type) v

theorem decode_encode (c : TypedColumn k) (v : k.Value) : c.decode (c.encode v) = v := by
  obtain ⟨c, rfl⟩ := c
  rfl

theorem encode_decode (c : TypedColumn k) (v : c.column.type.Value) :
    c.encode (c.decode v) = v := by
  obtain ⟨c, rfl⟩ := c
  rfl

theorem decode_initial (c : TypedColumn k) : c.decode c.column.type.initial = k.initial := by
  obtain ⟨c, rfl⟩ := c
  rfl

variable (c : TypedColumn k)

def set (u : Uuid) (v : k.Value) : OvsM Unit := setCol u c.column (c.encode v)

def get (u : Uuid) : OvsM k.Value :=
  cast (congrArg (fun k => OvsM k.Value) c.type) (getCol u c.column)

def ofRow (r : OvsRow) : k.Value := c.decode (r.col c.column)

end TypedColumn

/-- The tables and columns of a family of profiles. -/
structure ProfileTables where
  profile : Table
  entry : Table
  name : TypedColumn .string
  entries : TypedColumn .rowMap
  hwDefault : TypedColumn .booleans
  entryHwDefault : TypedColumn .booleans
  system : TypedColumn .row
  nameTable : name.column.table = profile
  entriesTable : entries.column.table = profile
  hwDefaultTable : hwDefault.column.table = profile
  entryHwDefaultTable : entryHwDefault.column.table = entry
  systemTable : system.column.table = .system
  unmonitored : schema.monitored profile = false

namespace ProfileTables

variable (T : ProfileTables)

def getRow (profileName : CStr) : OvsM (Option Uuid) :=
  getProfileRow T.profile T.name.ofRow profileName

def command (profileName : CStr) : OvsM Unit := do
  match ← T.getRow profileName with
  | some _ => return
  | none =>
    let profileRow ← txnInsert T.profile
    T.name.set profileRow profileName

/-- The profile of the name, found or added, without entries. -/
def clear (profileName : CStr) : OvsM Unit := do
  T.command profileName
  let profileRow ← T.getRow profileName
  let profileRow ← deref profileRow
  T.entries.set profileRow []

def insertEntry (profileRow : Uuid) (queueNum : ℤ) : OvsM Uuid := do
  let queueRow ← txnInsert T.entry
  let entries ← T.entries.get profileRow
  T.entries.set profileRow (entries ++ [(queueNum, queueRow)])
  return queueRow

def getEntry (profileRow : Uuid) (queueNum : ℤ) : OvsM (Option Uuid) := do
  let entries ← T.entries.get profileRow
  return entryRow entries queueNum

def findOrInsert (profileRow : Uuid) (queueNum : ℤ) : OvsM Uuid := do
  match ← T.getEntry profileRow queueNum with
  | some queueRow => return queueRow
  | none => T.insertEntry profileRow queueNum

/-- What an entry of the description does to the profile of the name. -/
def rowCommand (profileName : CStr) (queueNum : ℤ) (fill : Uuid → OvsM Bool) : OvsM Bool := do
  match ← T.getRow profileName with
  | none => return false
  | some profileRow =>
    let row ← T.findOrInsert profileRow queueNum
    fill row

/-- The loop over the entries of the description. -/
def fillAll {E : Type} (profileName : CStr) (key : E → ℤ) (fill : E → Uuid → OvsM Bool)
    (entries : List (Option E)) : OvsM Unit :=
  entries.forM (fun entry =>
    match entry with
    | none => pure ()
    | some e => do
      let _ ← T.rowCommand profileName (key e) (fill e))

/-- Both profiles, where `create` fills the one of a name. -/
def init (create : CStr → OvsM Unit) (systemRow : Uuid) (info : Option YamlQosInfo) :
    OvsM Unit := do
  match info with
  | none => return
  | some qosInfo =>
    let defaultName ← deref qosInfo.defaultName
    create defaultName
    match ← T.getRow defaultName with
    | none => return
    | some defaultProfile =>
      T.system.set systemRow (some defaultProfile)
      let factoryDefaultName ← deref qosInfo.factoryDefaultName
      create factoryDefaultName
      match ← T.getRow factoryDefaultName with
      | none => return
      | some factoryDefaultProfile =>
        T.hwDefault.set factoryDefaultProfile [true]
        let entries ← T.entries.get factoryDefaultProfile
        entries.forM (fun p => T.entryHwDefault.set p.2 [true])

end ProfileTables

def queueProfileTables : ProfileTables where
  profile := .qProfile
  entry := .qProfileEntry
  name := ⟨.qProfileName, rfl⟩
  entries := ⟨.qProfileQProfileEntries, rfl⟩
  hwDefault := ⟨.qProfileHwDefault, rfl⟩
  entryHwDefault := ⟨.qProfileEntryHwDefault, rfl⟩
  system := ⟨.systemQProfile, rfl⟩
  nameTable := rfl
  entriesTable := rfl
  hwDefaultTable := rfl
  entryHwDefaultTable := rfl
  systemTable := rfl
  unmonitored := by decide

def scheduleProfileTables : ProfileTables where
  profile := .qos
  entry := .queue
  name := ⟨.qosName, rfl⟩
  entries := ⟨.qosQueues, rfl⟩
  hwDefault := ⟨.qosHwDefault, rfl⟩
  entryHwDefault := ⟨.queueHwDefault, rfl⟩
  system := ⟨.systemQos, rfl⟩
  nameTable := rfl
  entriesTable := rfl
  hwDefaultTable := rfl
  entryHwDefaultTable := rfl
  systemTable := rfl
  unmonitored := by decide

theorem qosQueueProfileCommand_eq (name : CStr) :
    qosQueueProfileCommand name = queueProfileTables.command name := rfl

theorem qosScheduleProfileCommand_eq (name : CStr) :
    qosScheduleProfileCommand name = scheduleProfileTables.command name := rfl

theorem queueProfileEntryRow_eq (row : Uuid) (queueNum : ℤ) :
    queueProfileEntryRow row queueNum = queueProfileTables.findOrInsert row queueNum := rfl

theorem scheduleProfileEntryRow_eq (row : Uuid) (queueNum : ℤ) :
    scheduleProfileEntryRow row queueNum = scheduleProfileTables.findOrInsert row queueNum := rfl

theorem qosInitQueueProfile_eq (yaml : YamlPolicies) (sys : Uuid) :
    qosInitQueueProfile yaml sys =
      queueProfileTables.init (qosQueueProfileCreateFactoryDefault yaml) sys yaml.qosInfo := rfl

theorem qosInitScheduleProfile_eq (strict : CStr) (yaml : YamlPolicies) (sys : Uuid) :
    qosInitScheduleProfile strict yaml sys =
      scheduleProfileTables.init (qosScheduleProfileCreateFactoryDefault strict yaml) sys
        yaml.qosInfo := rfl

def profileTables : List ProfileTables := [queueProfileTables, scheduleProfileTables]

theorem queueProfileTables_mem : queueProfileTables ∈ profileTables := List.mem_cons_self

theorem scheduleProfileTables_mem : scheduleProfileTables ∈ profileTables :=
  List.mem_cons_of_mem _ List.mem_cons_self

end OpsSysd.QosInit
