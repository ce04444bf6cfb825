import OpsSysd.Manifest
import OpsSysd.Fru
import OpsSysd.Ovsrec
import Mathlib.Data.Nat.Digits.Defs

/-!
What the daemon knows when its main loop starts: the manifest, the subsystems
and the hardware description. Names and values that come from headers outside
the repository are collected in one record. A hardware description may leave
the quality-of-service and access-list data out.
-/

namespace OpsSysd.Platform

open CString Ovsrec

/-- `%d` of a natural number. -/
def decimalNat (n : ℕ) : CStr :=
  if n = 0 then [48] else ((Nat.digits 10 n).map (fun d => UInt8.ofNat (48 + d))).reverse

/-- `%d`. -/
def decimal (n : ℤ) : CStr := if n < 0 then 45 :: decimalNat n.natAbs else decimalNat n.natAbs

def hexDigit (n : ℕ) : UInt8 := UInt8.ofNat (if n < 10 then 48 + n else 87 + n)

/-- `%02x` of each byte, with colons between. -/
def macFormat : List UInt8 → CStr
  | [] => []
  | [b] => [hexDigit (b.toNat / 16), hexDigit (b.toNat % 16)]
  | b :: rest => hexDigit (b.toNat / 16) :: hexDigit (b.toNat % 16) :: 58 :: macFormat rest

/-- What the headers and libraries outside the repository provide. -/
structure External where
  interfaceTypeSystem : CStr
  interfaceTypeInternal : CStr
  interfaceAdminStateDown : CStr
  pluggable : CStr
  pluggableTrue : CStr
  pluggableFalse : CStr
  connector : CStr
  maxSpeed : CStr
  speeds : CStr
  switchUnit : CStr
  switchIntfId : CStr
  macAddr : CStr
  bridge : CStr
  bridgeTrue : CStr
  userConfigAdmin : CStr
  userConfigAdminUp : CStr
  defaultBridgeName : CStr
  defaultVrfName : CStr
  vrfStatusKey : CStr
  vrfStatusValue : CStr
  mgmtIntfMapName : CStr
  softwareInfoOsName : CStr
  queueAlgorithmStrict : CStr
  /-- `ops_ether_ulong_long_to_string`. -/
  etherString : ℕ → CStr
  /-- The seven words that lie after `table_id` on the stack. -/
  afterTableId : List ℤ
  deriving Inhabited

structure YamlPort where
  name : CStr
  pluggable : Bool
  connector : CStr
  maxSpeed : ℤ
  speeds : List ℤ
  device : ℤ
  devicePort : ℤ
  capabilities : List CStr
  subports : List CStr
  parentPort : Option CStr

structure YamlPortInfo where
  numberPorts : ℤ
  maxPortSpeed : ℤ
  maxTransmissionUnit : ℤ
  maxLagCount : ℤ
  maxLagMemberCount : ℤ
  l3PortRequiresInternalVlan : ℤ

structure Subsystem where
  name : CStr
  intfCmnInfo : YamlPortInfo
  interfaces : List YamlPort
  fruEeprom : Fru.FruEeprom
  nxtMacAddr : ℕ
  numFreeMacs : ℤ
  mgmtMacAddr : ℕ
  systemMacAddr : ℕ

structure YamlQosInfo where
  defaultName : Option CStr
  factoryDefaultName : Option CStr
  trust : Option CStr

/-- An entry of the class-of-service map or of the code-point map. -/
structure YamlMapEntry where
  codePoint : ℤ
  localPriority : ℤ
  color : Option CStr
  description : Option CStr

structure YamlQueueProfileEntry where
  queue : ℤ
  localPriority : ℤ
  description : Option CStr

structure YamlScheduleProfileEntry where
  queue : ℤ
  algorithm : Option CStr
  weight : ℤ

structure YamlAclInfo where
  maxAcls : ℤ
  maxAces : ℤ
  maxAcesPerAcl : ℤ

/-- The optional parts of the hardware description; `none` is a NULL pointer. -/
structure YamlPolicies where
  qosInfo : Option YamlQosInfo
  cosMap : List (Option YamlMapEntry)
  dscpMap : List (Option YamlMapEntry)
  queueProfile : List (Option YamlQueueProfileEntry)
  scheduleProfile : List (Option YamlScheduleProfileEntry)
  aclInfo : Option YamlAclInfo

structure Startup where
  external : External
  manifest : Manifest.Globals
  counted : manifest.Counted
  hwDescDir : CStr
  subsystems : List Subsystem
  policies : YamlPolicies

/-- A platform whose hardware description is empty. -/
def Startup.plain (m : Manifest.Globals) (counted : m.Counted) : Startup where
  external := default
  manifest := m
  counted := counted
  hwDescDir := []
  subsystems := []
  policies := ⟨none, [], [], [], [], none⟩

def dfltAssetTag : CStr := cstr "OpenSwitch asset tag"
def dfltTimezone : CStr := cstr "UTC"

example : decimal (-120) = cstr "-120" := by simp [decimal, decimalNat]; decide

end OpsSysd.Platform
