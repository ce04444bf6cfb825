import OpsSysd.QosInit
import OpsSysd.SoftwareInfo
import OpsSysd.SpeedsString

/-!
The transaction that fills an empty database: the System row, the default
bridge and VRF, the subsystem with its interfaces, the daemons of the manifest
and the policies. Everything it writes belongs to rows it has inserted itself.
-/

namespace OpsSysd.InitialConfigure

open CString Ovsdb Ovsrec Platform

/-- What `sysd_get_speeds_string` leaves in the cleared `buf[128]`. -/
def speedsText (speeds : List ℤ) : Option CStr :=
  (SpeedsString.sysdGetSpeedsString (List.replicate 128 0) 128 speeds).bind
    fun buf => StringBlock.strAt buf 0

def hwIntfInfo (ext : External) (subsys : Subsystem) (intf : YamlPort) (speeds : CStr) : Smap :=
  let info : Smap :=
    [(ext.pluggable, if intf.pluggable then ext.pluggableTrue else ext.pluggableFalse),
      (ext.connector, intf.connector),
      (ext.maxSpeed, decimal intf.maxSpeed),
      (ext.speeds, speeds),
      (ext.switchUnit, decimal intf.device),
      (ext.switchIntfId, decimal intf.devicePort)]
  let info := info ++ intf.capabilities.map (fun cap => (cap, cstr "true"))
  if subsys.systemMacAddr ≠ 0 then
    smapAdd info ext.macAddr (ext.etherString subsys.systemMacAddr)
  else info

def sysdInitialInterfaceAdd (ext : External) (subsys : Subsystem) (intf : YamlPort) :
    OvsM Uuid := do
  let ovsIntf ← txnInsert .interface
  setCol ovsIntf .interfaceName intf.name
  setCol ovsIntf .interfaceType ext.interfaceTypeSystem
  setCol ovsIntf .interfaceAdminState ext.interfaceAdminStateDown
  let speeds ← deref (speedsText intf.speeds)
  setCol ovsIntf .interfaceHwIntfInfo (datumFromSmap (hwIntfInfo ext subsys intf speeds))
  return ovsIntf

def sysdMaxSplitPorts : ℕ := 4

/-- The ports that split or are split, by the names of their rows; the last
addition of a name is found first. -/
def splitPorts : List (YamlPort × Uuid) → OvsM (List (CStr × Uuid))
  | [] => return []
  | (intf, row) :: rest => do
    if intf.subports ≠ [] ∨ intf.parentPort.isSome then
      let name : CStr ← getCol row .interfaceName
      let ports ← splitPorts rest
      return ports ++ [(name, row)]
    else splitPorts rest

def shashFind (ports : List (CStr × Uuid)) (name : CStr) : Option Uuid :=
  (ports.find? (fun p => p.1 = name)).map Prod.snd

/-- The loop over the subport names; `subports[j]` is stored before it is tested. -/
def collectSubports (ports : List (CStr × Uuid)) : List CStr → List Uuid → OvsM (List Uuid)
  | [], found => return found
  | name :: rest, found =>
    if found.length < sysdMaxSplitPorts then
      match shashFind ports name with
      | none => collectSubports ports rest found
      | some child => collectSubports ports rest (found ++ [child])
    else deref none

def setSplitParent (ports : List (CStr × Uuid)) (intf : YamlPort) (row : Uuid) : OvsM Unit :=
  match intf.parentPort with
  | none => pure ()
  | some parentPort =>
    match shashFind ports parentPort with
    | none => pure ()
    | some parent => setCol row .interfaceSplitParent (some parent)

def setSplitChildren (ports : List (CStr × Uuid)) (intf : YamlPort) (row : Uuid) : OvsM Unit :=
  if intf.subports = [] then pure ()
  else do
    let children ← collectSubports ports intf.subports []
    setCol row .interfaceSplitChildren children

def sysdSetSplittablePortInfo (ovsIntf : List Uuid) (subsys : Subsystem) : OvsM Unit := do
  let ports ← splitPorts (subsys.interfaces.zip ovsIntf)
  (subsys.interfaces.zip ovsIntf).forM (fun p => do
    setSplitParent ports p.1 p.2
    setSplitChildren ports p.1 p.2)

def sysdInitialDaemonAdd (daemon : Manifest.DaemonInfo) : OvsM Uuid := do
  let ovsDaemon ← txnInsert .daemon
  setCol ovsDaemon .daemonName daemon.name
  setCol ovsDaemon .daemonCurHw daemon.curHw
  setCol ovsDaemon .daemonIsHwHandler daemon.isHwHandler
  return ovsDaemon

/-- A string field that may be NULL, read as "" then. -/
def orEmpty (block : Option (List UInt8)) : CStr := cut (block.getD [])

def subsystemOtherInfo (subsys : Subsystem) : Smap :=
  let fru := subsys.fruEeprom
  let cmn := subsys.intfCmnInfo
  [(cstr "country_code", fru.countryCode.str),
    (cstr "device_version", cut [fru.deviceVersion]),
    (cstr "diag_version", orEmpty fru.diagVersion),
    (cstr "label_revision", orEmpty fru.labelRevision),
    (cstr "base_mac_address", macFormat fru.baseMacAddress.bytes),
    (cstr "number_of_macs", decimal fru.numMacs.toNat),
    (cstr "manufacturer", orEmpty fru.manufacturer),
    (cstr "manufacture_date", fru.manufactureDate.str),
    (cstr "onie_version", orEmpty fru.onieVersion),
    (cstr "part_number", orEmpty fru.partNumber),
    (cstr "Product Name", orEmpty fru.productName),
    (cstr "platform_name", orEmpty fru.platformName),
    (cstr "serial_number", orEmpty fru.serialNumber),
    (cstr "vendor", orEmpty fru.vendor),
    (cstr "interface_count", decimal cmn.numberPorts),
    (cstr "max_interface_speed", decimal cmn.maxPortSpeed),
    (cstr "max_transmission_unit", decimal cmn.maxTransmissionUnit),
    (cstr "max_bond_count", decimal cmn.maxLagCount),
    (cstr "max_bond_member_count", decimal cmn.maxLagMemberCount),
    (cstr "l3_port_requires_internal_vlan", decimal cmn.l3PortRequiresInternalVlan)]

/-- Which of the three allocations of the initial configuration succeed. -/
structure Allocations where
  subsystems : Bool
  daemons : Bool
  interfaces : Bool
  deriving Inhabited

/-- The row of `sysd_initial_subsystem_add` before its interfaces are allocated. -/
def addSubsystemRow (st : Startup) (subsys : Subsystem) : OvsM Uuid := do
  let ovsSubsys ← txnInsert .subsystem
  setCol ovsSubsys .subsystemName subsys.name
  setCol ovsSubsys .subsystemAssetTagNumber dfltAssetTag
  setCol ovsSubsys .subsystemHwDescDir st.hwDescDir
  setCol ovsSubsys .subsystemOtherInfo (datumFromSmap (subsystemOtherInfo subsys))
  return ovsSubsys

def sysdInitialSubsystemAdd (st : Startup) (alloc : Allocations) (subsys : Subsystem) :
    OvsM Uuid := do
  let ovsSubsys ← addSubsystemRow st subsys
  if alloc.interfaces = false then return ovsSubsys
  else
    let ovsIntf ← subsys.interfaces.mapM (sysdInitialInterfaceAdd st.external subsys)
    sysdSetSplittablePortInfo ovsIntf subsys
    setCol ovsSubsys .subsystemNextMacAddress (st.external.etherString subsys.nxtMacAddr)
    setCol ovsSubsys .subsystemMacsRemaining subsys.numFreeMacs
    setCol ovsSubsys .subsystemInterfaces ovsIntf
    return ovsSubsys

/-- The interface of the default bridge. -/
def addBridgeInterface (ext : External) : OvsM Uuid := do
  let iface ← txnInsert .interface
  setCol iface .interfaceName ext.defaultBridgeName
  setCol iface .interfaceType ext.interfaceTypeInternal
  setCol iface .interfaceHwIntfInfo (datumFromSmap [(ext.bridge, ext.bridgeTrue)])
  setCol iface .interfaceUserConfig
    (datumFromSmap [(ext.userConfigAdmin, ext.userConfigAdminUp)])
  return iface

def sysdConfigureDefaultBridge (ext : External) (ovsRow : Uuid) : OvsM Unit := do
  let bridge ← txnInsert .bridge
  setCol bridge .bridgeName ext.defaultBridgeName
  setCol ovsRow .systemBridges [bridge]
  let iface ← addBridgeInterface ext
  let port ← txnInsert .port
  setCol port .portName ext.defaultBridgeName
  setCol port .portInterfaces [iface]
  setCol bridge .bridgePorts [port]

/-- The table id and the status of the default VRF; the count passed for `table_id` is the
size of one value in bytes. -/
def setVrfStatus (ext : External) (vrf : Uuid) : OvsM Unit := do
  setCol vrf .vrfTableId (0 :: ext.afterTableId)
  let status : Smap ← getCol vrf .vrfStatus
  setCol vrf .vrfStatus (datumFromSmap (smapAddOnce status ext.vrfStatusKey ext.vrfStatusValue))

def sysdConfigureDefaultVrf (ext : External) (ovsRow : Uuid) : OvsM Unit := do
  let vrf ← txnInsert .vrf
  setCol vrf .vrfName ext.defaultVrfName
  setCol ovsRow .systemVrfs [vrf]
  setVrfStatus ext vrf

def addDaemons (st : Startup) (sys : Uuid) : OvsM Unit :=
  if st.manifest.daemons = [] then pure ()
  else do
    let ovsDaemons ← st.manifest.daemons.mapM sysdInitialDaemonAdd
    setCol sys .systemDaemons ovsDaemons

/-- The policies, set last. -/
def initPolicies (st : Startup) (sys : Uuid) : OvsM Unit := do
  QosInit.qosInitTrust st.policies sys
  QosInit.qosInitDscpMap st.policies sys
  QosInit.qosInitCosMap st.policies sys
  QosInit.qosInitQueueProfile st.policies sys
  QosInit.qosInitScheduleProfile st.external.queueAlgorithmStrict st.policies sys
  QosInit.aclInitLimits st.policies sys

/-- `osRelease` is the os-release file. -/
def sysdInitialConfigure (st : Startup) (alloc : Allocations) (osRelease : Option (List CStr)) :
    OvsM Unit := do
  let sys ← txnInsert .system
  let mgmtIntf ← deref st.manifest.mgmtIntf
  setCol sys .systemMgmtIntf (datumFromSmap [(st.external.mgmtIntfMapName, mgmtIntf.name)])
  sysdConfigureDefaultBridge st.external sys
  sysdConfigureDefaultVrf st.external sys
  let base ← deref st.subsystems.head?
  setCol sys .systemManagementMac (st.external.etherString base.mgmtMacAddr)
  setCol sys .systemSystemMac (st.external.etherString base.systemMacAddr)
  if alloc.subsystems = false then return
  else
    let ovsSubsys ← st.subsystems.mapM (sysdInitialSubsystemAdd st alloc)
    setCol sys .systemSubsystems ovsSubsys
    if alloc.daemons = false then return
    else
      addDaemons st sys
      SoftwareInfo.sysdUpdateSwInfo st.external.softwareInfoOsName osRelease sys
      setCol sys .systemTimezone dfltTimezone
      initPolicies st sys

end OpsSysd.InitialConfigure
