import OpsSysd.CString

/-!
Reading the image manifest: the recursive search of a JSON tree for objects
stored under "daemons" and "mgmt_intf", and the globals it fills. Keys are
compared with strncmp over the length of the tag, as the source does. The
members of an object are listed in the order in which its hash table
enumerates them.
-/

namespace OpsSysd.Manifest

open CString

inductive Json
  | null
  | false
  | true
  | integer
  | real
  | string (s : CStr)
  | object (members : List (CStr × Json))
  | array (elems : List Json)

abbrev Members := List (CStr × Json)

def Json.isTrue : Json → Bool
  | .true => Bool.true
  | _ => Bool.false

def daemonsTag : CStr := cstr "daemons"
def hwHandlerTag : CStr := cstr "is_hw_handler"
def nameInDaemonTable : CStr := cstr "ops-sysd"
def mgmtIntfTag : CStr := cstr "mgmt_intf"
def mgmtIntfNameTag : CStr := cstr "intf"

def maxDaemonNameLen : ℕ := 128
def maxMgmtIntfNameLen : ℕ := 128

/-- `name` holds the bytes copied to the start of a zeroed array of
`maxDaemonNameLen` bytes: the array is a string as long as they are fewer. -/
structure DaemonInfo where
  name : CStr
  isHwHandler : Bool
  curHw : ℤ
  deriving DecidableEq, Repr

/-- A zeroed block of `size` bytes with the bytes `name` copied to its start. -/
structure MgmtIntf where
  size : ℕ
  name : CStr
  deriving DecidableEq, Repr

/-- The bytes and their terminator lie inside the block. -/
def MgmtIntf.Terminated (b : MgmtIntf) : Prop := b.name.length + 1 ≤ b.size

/-- The globals that reading the manifest fills, with the function-static flag
of `_sysd_process_mgmt_intf`. -/
structure Globals where
  daemons : List DaemonInfo
  numDaemons : ℕ
  numHwDaemons : ℕ
  mgmtIntf : Option MgmtIntf
  isMgmtIntfPresent : Bool
  deriving DecidableEq, Repr

def Globals.empty : Globals := ⟨[], 0, 0, none, false⟩

/-- `rejected` is the return value -1; `notAnObject` is the assertion of
`json_object` on a value that is not an object. -/
inductive Failure
  | rejected
  | notAnObject
  deriving DecidableEq, Repr

/-- The first member whose key starts with the tag decides. -/
def sysdGetHwHandler : Members → Bool
  | [] => false
  | (name, jp) :: rest =>
    if strncmpEq name hwHandlerTag hwHandlerTag.length then jp.isTrue
    else sysdGetHwHandler rest

/-- The entry that one iteration of the loop appends. -/
def daemonEntry (name : CStr) (attrs : Members) : DaemonInfo where
  name := name
  isHwHandler := sysdGetHwHandler attrs
  curHw := if strncmpEq name nameInDaemonTable nameInDaemonTable.length then 1 else 0

def sysdProcessDaemons : Members → Globals → Except Failure Globals
  | [], g => .ok g
  | (name, .object attrs) :: rest, g =>
    sysdProcessDaemons rest { g with
      daemons := g.daemons ++ [daemonEntry name attrs]
      numDaemons := g.numDaemons + 1 }
  | _ :: _, _ => .error .notAnObject

/-- The bytes of a zeroed block of `count` elements of `size` bytes. -/
def xcallocSize (count size : ℕ) : ℕ := count * size

/-- The switch on the type of the "intf" member. -/
def readMgmtIntfName (jp : Json) (g : Globals) : Globals :=
  match jp with
  | .string s =>
    { g with
      mgmtIntf := some ⟨xcallocSize maxMgmtIntfNameLen 0, s⟩
      isMgmtIntfPresent := true }
  | _ => g

def checkMgmtIntfPresent (g : Globals) : Except Failure Globals :=
  if g.isMgmtIntfPresent then .ok g else .error .rejected

def sysdProcessMgmtIntf : Members → Globals → Except Failure Globals
  | [], g => checkMgmtIntfPresent g
  | (name, jp) :: rest, g =>
    if strncmpEq name mgmtIntfNameTag mgmtIntfNameTag.length then
      checkMgmtIntfPresent (readMgmtIntfName jp g)
    else sysdProcessMgmtIntf rest g

mutual

def sysdProcessJson : Json → Globals → Except Failure Globals
  | .object object, g => sysdProcessMembers object g
  | .array elems, g => sysdProcessElems elems g
  | _, g => .ok g

/-- The loop of the `JSON_OBJECT` case. -/
def sysdProcessMembers : Members → Globals → Except Failure Globals
  | [], g => .ok g
  | (name, .object inner) :: rest, g => do
    let g ←
      if strncmpEq name daemonsTag daemonsTag.length then sysdProcessDaemons inner g
      else if strncmpEq name mgmtIntfTag mgmtIntfTag.length then sysdProcessMgmtIntf inner g
      else sysdProcessJson (.object inner) g
    sysdProcessMembers rest g
  | (_, .array elems) :: rest, g => do
    let g ← sysdProcessJson (.array elems) g
    sysdProcessMembers rest g
  | _ :: rest, g => sysdProcessMembers rest g

/-- The loop of the `JSON_ARRAY` case. -/
def sysdProcessElems : List Json → Globals → Except Failure Globals
  | [], g => .ok g
  | jp :: rest, g => do
    let g ← sysdProcessJson jp g
    sysdProcessElems rest g

end

/-- The loop counts the flagged ones of the first `numDaemons` entries. -/
def sysdSetNumHwDaemons (g : Globals) : Globals :=
  { g with numHwDaemons := (g.daemons.take g.numDaemons).countP (·.isHwHandler) }

/-- `none` is a file that `json_from_file` cannot read. -/
def sysdReadManifestFile : Option Json → Except Failure Globals
  | none => .error .rejected
  | some (.object ms) => do
    let g ← sysdProcessJson (.object ms) .empty
    return sysdSetNumHwDaemons g
  | some (.array es) => do
    let g ← sysdProcessJson (.array es) .empty
    return sysdSetNumHwDaemons g
  | some _ => .error .rejected

/-- The two counters are those of the array. -/
structure Globals.Counted (g : Globals) : Prop where
  daemons : g.numDaemons = g.daemons.length
  hwDaemons : g.numHwDaemons = g.daemons.countP (·.isHwHandler)

/-- Which of the two objects a key announces. -/
inductive Tag
  | daemons
  | mgmtIntf
  deriving DecidableEq, Repr

/-- The key tests in the order in which the loop makes them. -/
def comparedTag (name : CStr) : Option Tag :=
  if strncmpEq name daemonsTag daemonsTag.length then some .daemons
  else if strncmpEq name mgmtIntfTag mgmtIntfTag.length then some .mgmtIntf
  else none

mutual

/-- The object-valued members whose keys the traversal tests, in order, for any
reading of the keys. An announced object is not searched further. -/
def tested (tag : CStr → Option Tag) : Json → List (CStr × Members)
  | .object ms => testedMembers tag ms
  | .array es => testedElems tag es
  | _ => []

def testedMembers (tag : CStr → Option Tag) : Members → List (CStr × Members)
  | [] => []
  | (name, .object inner) :: rest =>
    (name, inner) ::
      ((if tag name = none then tested tag (.object inner) else []) ++ testedMembers tag rest)
  | (_, .array es) :: rest => tested tag (.array es) ++ testedMembers tag rest
  | _ :: rest => testedMembers tag rest

def testedElems (tag : CStr → Option Tag) : List Json → List (CStr × Members)
  | [] => []
  | jp :: rest => tested tag jp ++ testedElems tag rest

end

/-- The announced objects in traversal order. -/
def announced (tag : CStr → Option Tag) (j : Json) : List (Tag × Members) :=
  (tested tag j).filterMap (fun m => (tag m.1).map (·, m.2))

def processFound (g : Globals) : Tag × Members → Except Failure Globals
  | (.daemons, ms) => sysdProcessDaemons ms g
  | (.mgmtIntf, ms) => sysdProcessMgmtIntf ms g

/-- The recursion over the tree is a loop over the announced objects. -/
theorem sysdProcessJson_eq_foldlM (j : Json) (g : Globals) :
    sysdProcessJson j g = (announced comparedTag j).foldlM processFound g := by
  unfold announced
  induction j, g using sysdProcessJson.induct
    (motive_2 := fun es g => sysdProcessElems es g =
      ((testedElems comparedTag es).filterMap
        (fun m => (comparedTag m.1).map (·, m.2))).foldlM processFound g)
    (motive_3 := fun ms g => sysdProcessMembers ms g =
      ((testedMembers comparedTag ms).filterMap
        (fun m => (comparedTag m.1).map (·, m.2))).foldlM processFound g) with
  | case1 ms g ih => simpa [sysdProcessJson, tested] using ih
  | case2 es g ih => simpa [sysdProcessJson, tested] using ih
  | case3 j g hobject harray => cases j <;> simp_all [sysdProcessJson, tested, pure, Except.pure]
  | case4 g => rfl
  | case5 name inner rest g hdaemons ih =>
    simp [sysdProcessMembers, testedMembers, comparedTag, hdaemons, processFound, ih]
  | case6 name inner rest g hdaemons hmgmt ih =>
    simp [sysdProcessMembers, testedMembers, comparedTag, hdaemons, hmgmt, processFound, ih]
  | case7 name inner rest g hdaemons hmgmt ih ihInner =>
    simp [sysdProcessMembers, testedMembers, comparedTag, hdaemons, hmgmt, ihInner, ih]
  | case8 name es rest g ihElems ih =>
    simp [sysdProcessMembers, testedMembers, ihElems, ih]
  | case9 head rest g hobject harray ih =>
    obtain ⟨name, jp⟩ := head
    cases jp <;> simp_all [sysdProcessMembers, testedMembers]
  | case10 g => rfl
  | case11 jp rest g ih ihRest => simp [sysdProcessElems, testedElems, ih, ihRest]

end OpsSysd.Manifest
