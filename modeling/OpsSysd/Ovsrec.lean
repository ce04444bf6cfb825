import OpsSysd.CString
import OpsSysd.Ovsdb

/-!
The tables and columns that the daemon reads or writes, and how it registers
them when it connects. A pointer to a row is the row's identity; a setter is a
write of its column.
-/

namespace OpsSysd.Ovsrec

open CString Ovsdb

inductive Table
  | system
  | subsystem
  | interface
  | bridge
  | port
  | vrf
  | daemon
  | packageInfo
  | qProfile
  | qProfileEntry
  | qos
  | queue
  | qosCosMapEntry
  | qosDscpMapEntry
  deriving DecidableEq, Repr

/-- A string map as it is built, in the order of the additions. -/
abbrev Smap := List (CStr × CStr)

inductive ColumnType
  | string
  | optString
  | integer
  | integers
  | boolean
  | booleans
  | map
  | row
  | rows
  | rowMap
  deriving DecidableEq

namespace ColumnType

abbrev Value : ColumnType → Type
  | string => CStr
  | optString => Option CStr
  | integer => ℤ
  | integers => List ℤ
  | boolean => Bool
  | booleans => List Bool
  | map => Smap
  | row => Option Uuid
  | rows => List Uuid
  | rowMap => List (ℤ × Uuid)

def initial : (k : ColumnType) → k.Value
  | string => []
  | optString => none
  | integer => 0
  | integers => []
  | boolean => false
  | booleans => []
  | map => []
  | row => none
  | rows => []
  | rowMap => []

instance : (k : ColumnType) → DecidableEq k.Value
  | string => inferInstanceAs (DecidableEq CStr)
  | optString => inferInstanceAs (DecidableEq (Option CStr))
  | integer => inferInstanceAs (DecidableEq ℤ)
  | integers => inferInstanceAs (DecidableEq (List ℤ))
  | boolean => inferInstanceAs (DecidableEq Bool)
  | booleans => inferInstanceAs (DecidableEq (List Bool))
  | map => inferInstanceAs (DecidableEq Smap)
  | row => inferInstanceAs (DecidableEq (Option Uuid))
  | rows => inferInstanceAs (DecidableEq (List Uuid))
  | rowMap => inferInstanceAs (DecidableEq (List (ℤ × Uuid)))

end ColumnType

inductive Column
  | systemMgmtIntf
  | systemMgmtIntfStatus
  | systemBridges
  | systemVrfs
  | systemManagementMac
  | systemSystemMac
  | systemSubsystems
  | systemDaemons
  | systemSoftwareInfo
  | systemSwitchVersion
  | systemTimezone
  | systemQosConfig
  | systemQosCosMapEntries
  | systemQosDscpMapEntries
  | systemQProfile
  | systemQos
  | systemOtherInfo
  | systemCurHw
  | systemNextHw
  | subsystemName
  | subsystemAssetTagNumber
  | subsystemHwDescDir
  | subsystemOtherInfo
  | subsystemNextMacAddress
  | subsystemMacsRemaining
  | subsystemInterfaces
  | interfaceName
  | interfaceType
  | interfaceAdminState
  | interfaceHwIntfInfo
  | interfaceUserConfig
  | interfaceSplitParent
  | interfaceSplitChildren
  | bridgeName
  | bridgePorts
  | portName
  | portInterfaces
  | vrfName
  | vrfTableId
  | vrfStatus
  | daemonName
  | daemonCurHw
  | daemonIsHwHandler
  | packageInfoName
  | packageInfoSrcType
  | packageInfoSrcUrl
  | packageInfoVersion
  | qProfileName
  | qProfileQProfileEntries
  | qProfileHwDefault
  | qProfileEntryLocalPriorities
  | qProfileEntryDescription
  | qProfileEntryHwDefault
  | qosName
  | qosQueues
  | qosHwDefault
  | queueAlgorithm
  | queueWeight
  | queueHwDefault
  | qosCosMapEntryCodePoint
  | qosCosMapEntryLocalPriority
  | qosCosMapEntryColor
  | qosCosMapEntryDescription
  | qosCosMapEntryHwDefaults
  | qosDscpMapEntryCodePoint
  | qosDscpMapEntryLocalPriority
  | qosDscpMapEntryColor
  | qosDscpMapEntryDescription
  | qosDscpMapEntryHwDefaults
  deriving DecidableEq, Repr

namespace Column

def table : Column → Table
  | systemMgmtIntf | systemMgmtIntfStatus | systemBridges | systemVrfs | systemManagementMac
  | systemSystemMac | systemSubsystems | systemDaemons | systemSoftwareInfo
  | systemSwitchVersion | systemTimezone | systemQosConfig | systemQosCosMapEntries
  | systemQosDscpMapEntries | systemQProfile | systemQos | systemOtherInfo | systemCurHw
  | systemNextHw => .system
  | subsystemName | subsystemAssetTagNumber | subsystemHwDescDir | subsystemOtherInfo
  | subsystemNextMacAddress | subsystemMacsRemaining | subsystemInterfaces => .subsystem
  | interfaceName | interfaceType | interfaceAdminState | interfaceHwIntfInfo
  | interfaceUserConfig | interfaceSplitParent | interfaceSplitChildren => .interface
  | bridgeName | bridgePorts => .bridge
  | portName | portInterfaces => .port
  | vrfName | vrfTableId | vrfStatus => .vrf
  | daemonName | daemonCurHw | daemonIsHwHandler => .daemon
  | packageInfoName | packageInfoSrcType | packageInfoSrcUrl | packageInfoVersion => .packageInfo
  | qProfileName | qProfileQProfileEntries | qProfileHwDefault => .qProfile
  | qProfileEntryLocalPriorities | qProfileEntryDescription
  | qProfileEntryHwDefault => .qProfileEntry
  | qosName | qosQueues | qosHwDefault => .qos
  | queueAlgorithm | queueWeight | queueHwDefault => .queue
  | qosCosMapEntryCodePoint | qosCosMapEntryLocalPriority | qosCosMapEntryColor
  | qosCosMapEntryDescription | qosCosMapEntryHwDefaults => .qosCosMapEntry
  | qosDscpMapEntryCodePoint | qosDscpMapEntryLocalPriority | qosDscpMapEntryColor
  | qosDscpMapEntryDescription | qosDscpMapEntryHwDefaults => .qosDscpMapEntry

abbrev type : Column → ColumnType
  | systemManagementMac | systemSystemMac | systemSwitchVersion | systemTimezone | subsystemName
  | subsystemAssetTagNumber | subsystemHwDescDir | subsystemNextMacAddress | interfaceName
  | interfaceType | interfaceAdminState | bridgeName | portName | vrfName | daemonName
  | qProfileName | qosName | queueAlgorithm | qosCosMapEntryColor | qosCosMapEntryDescription
  | qosDscpMapEntryColor | qosDscpMapEntryDescription => .string
  | packageInfoName | packageInfoSrcType | packageInfoSrcUrl | packageInfoVersion
  | qProfileEntryDescription => .optString
  | systemCurHw | systemNextHw | subsystemMacsRemaining | daemonCurHw | qosCosMapEntryCodePoint
  | qosCosMapEntryLocalPriority | qosDscpMapEntryCodePoint
  | qosDscpMapEntryLocalPriority => .integer
  | vrfTableId | qProfileEntryLocalPriorities | queueWeight => .integers
  | daemonIsHwHandler => .boolean
  | qProfileHwDefault | qProfileEntryHwDefault | qosHwDefault | queueHwDefault => .booleans
  | systemMgmtIntf | systemMgmtIntfStatus | systemSoftwareInfo | systemQosConfig
  | systemOtherInfo | subsystemOtherInfo | interfaceHwIntfInfo | interfaceUserConfig | vrfStatus
  | qosCosMapEntryHwDefaults | qosDscpMapEntryHwDefaults => .map
  | systemQProfile | systemQos | interfaceSplitParent => .row
  | systemBridges | systemVrfs | systemSubsystems | systemDaemons | systemQosCosMapEntries
  | systemQosDscpMapEntries | subsystemInterfaces | interfaceSplitChildren | bridgePorts
  | portInterfaces => .rows
  | qProfileQProfileEntries | qosQueues => .rowMap

end Column

/-- The registrations of `sysd_ovsdb_conn_init`. -/
@[reducible] def schema : Schema where
  Table := Table
  Column := Column
  Value := fun c => c.type.Value
  tableOf := Column.table
  initial := fun c => c.type.initial
  monitored := fun k => k ∈ [.system, .subsystem, .interface, .daemon, .packageInfo]
  alerting := [.systemTimezone, .daemonName, .daemonCurHw, .systemMgmtIntf, .systemMgmtIntfStatus]
  writeOnly := [.systemSubsystems, .systemCurHw, .systemNextHw, .systemOtherInfo,
    .systemSoftwareInfo, .systemSwitchVersion, .subsystemName, .subsystemAssetTagNumber,
    .subsystemHwDescDir, .subsystemInterfaces, .interfaceName, .interfaceHwIntfInfo,
    .interfaceType, .interfaceUserConfig, .daemonIsHwHandler, .packageInfoName,
    .packageInfoSrcType, .packageInfoSrcUrl, .packageInfoVersion]

abbrev OvsM := IdlM schema

abbrev OvsRow := Row schema

/-- The rows of a table. -/
abbrev tableRows (k : Table) (db : Database schema) : List OvsRow := @rowsOf schema k db

/-- `ovsrec_<table>_set_<column>`. -/
def setCol (u : Uuid) (c : Column) (v : c.type.Value) : OvsM Unit := txnWrite u c v

def setColOpt (u : Uuid) (c : Column) : Option c.type.Value → OvsM Unit
  | none => pure ()
  | some v => setCol u c v

/-- Reading `row-><column>`. -/
def getCol (u : Uuid) (c : Column) : OvsM c.type.Value := @readCol schema u c

/-- `ovsdb_datum_from_smap`: sorted by key, of equal keys the least value. -/
def insertDatum (p : CStr × CStr) : Smap → Smap
  | [] => [p]
  | q :: rest =>
    if p.1 = q.1 then (p.1, if p.2 < q.2 then p.2 else q.2) :: rest
    else if p.1 < q.1 then p :: q :: rest
    else q :: insertDatum p rest

def datumFromSmap (m : Smap) : Smap := m.foldr insertDatum []

def smapAdd (m : Smap) (k v : CStr) : Smap := m ++ [(k, v)]

def smapAddOnce (m : Smap) (k v : CStr) : Smap :=
  if m.any (fun p => p.1 = k) then m else smapAdd m k v

def smapReplace (m : Smap) (k v : CStr) : Smap := m.eraseP (fun p => p.1 = k) ++ [(k, v)]

end OpsSysd.Ovsrec
