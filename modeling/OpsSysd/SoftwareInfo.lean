import OpsSysd.Ovsrec
import Mathlib.Data.List.DropRight

/-!
The software information from the os-release file. Lines are C strings; a name
is the text before the first equals sign, a value the text after it without
trailing white space.
-/

namespace OpsSysd.SoftwareInfo

open CString Ovsdb Ovsrec

/-- The size of the version buffers, terminator included. -/
def nstr : ℕ := 80

def osReleaseName : CStr := cstr "NAME"
def osReleaseBuildName : CStr := cstr "BUILD_ID"
def osReleaseVersionName : CStr := cstr "VERSION_ID"

def isspace (b : UInt8) : Bool := b == 32 || (9 ≤ b && b ≤ 13)

/-- The name and the value of a line, if it has an equals sign. -/
def splitLine (line : CStr) : Option (CStr × CStr) :=
  if 61 ∈ line then
    some (line.takeWhile (· ≠ 61),
      ((line.dropWhile (· ≠ 61)).drop 1).rdropWhile isspace)
  else none

/-- What the scan has found so far. -/
structure Release where
  smap : Smap
  versionId : CStr
  buildId : CStr
  deriving DecidableEq

/-- One line; `osNameKey` is the database's key for the name. -/
def scanLine (osNameKey : CStr) (r : Release) (line : CStr) : Release :=
  match splitLine line with
  | none => r
  | some (name, value) =>
    if name = osReleaseName ∧ value ≠ [] then { r with smap := smapAdd r.smap osNameKey value }
    else if name = osReleaseVersionName then { r with versionId := value.take (nstr - 1) }
    else if name = osReleaseBuildName then { r with buildId := value.take (nstr - 1) }
    else r

def scan (osNameKey : CStr) (lines : List CStr) : Release :=
  lines.foldl (scanLine osNameKey) ⟨[], [], []⟩

namespace Release

/-- The map written to the database, unless it is empty. -/
def softwareInfo (r : Release) : Option Smap :=
  if r.smap = [] then none else some (datumFromSmap r.smap)

/-- The version written to the database, unless a part is missing. -/
def switchVersion (r : Release) : Option CStr :=
  if r.buildId ≠ [] ∧ r.versionId ≠ [] then
    some ((r.versionId ++ cstr " (Build: " ++ r.buildId ++ cstr ")").take (nstr - 1))
  else none

end Release

/-- `file` is the content of the os-release file, if it can be opened. -/
def sysdUpdateSwInfo (osNameKey : CStr) (file : Option (List CStr)) (cfg : Uuid) : OvsM Unit :=
  match file with
  | none => pure ()
  | some lines => do
    setColOpt cfg .systemSoftwareInfo (scan osNameKey lines).softwareInfo
    setColOpt cfg .systemSwitchVersion (scan osNameKey lines).switchVersion

example : ((scan (cstr "os_name") [cstr "NAME=a b \n", cstr "VERSION_ID=1\n",
    cstr "x", cstr "BUILD_ID=2"]).switchVersion) = some (cstr "1 (Build: 2)") := by decide

end OpsSysd.SoftwareInfo
