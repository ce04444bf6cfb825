import OpsSysd.CString

/-!
Files, directories and symbolic links by their full paths, with the calls that
look a path up, remove it and make it anew. A call may also be refused for a
reason that is not in the tree; whether it is comes from outside. Nothing here is
about a particular program.
-/

namespace OpsSysd.FileLinks

open CString

inductive Inode
  | file
  | directory
  | link (target : CStr)
  deriving DecidableEq, Repr

abbrev FileSystem := CStr → Option Inode

/-- The links that a lookup follows before it gives up. -/
def maxSymlinks : ℕ := 40

/-- What a path leads to, through so many links at most. -/
def follow (fs : FileSystem) : ℕ → CStr → Option Inode
  | 0, _ => none
  | n + 1, path =>
    match fs path with
    | some (.link target) => follow fs n target
    | found => found

def stat (fs : FileSystem) (path : CStr) : Option Inode := follow fs (maxSymlinks + 1) path

def readlink (fs : FileSystem) (path : CStr) : Option CStr :=
  match fs path with
  | some (.link target) => some target
  | _ => none

inductive Errno
  | exists
  | refused
  deriving DecidableEq, Repr

section Calls

variable (works : Bool) (fs : FileSystem)

def remove (path : CStr) : FileSystem := if works then Function.update fs path none else fs

def mkdir (path : CStr) : Except Errno FileSystem :=
  if (fs path).isSome then .error .exists
  else if works then .ok (Function.update fs path (some .directory))
  else .error .refused

def symlink (target path : CStr) : Except Errno FileSystem :=
  if (fs path).isSome then .error .exists
  else if works then .ok (Function.update fs path (some (.link target)))
  else .error .refused

end Calls

section Lemmas

variable {works removes : Bool} {fs fs' : FileSystem} {path target : CStr}

theorem remove_of_ne {other : CStr} (h : other ≠ path) : remove works fs path other = fs other := by
  unfold remove
  split_ifs
  · rw [Function.update_of_ne h]
  · rfl

theorem remove_eq_none_iff : remove works fs path path = none ↔ fs path = none ∨ works = true := by
  unfold remove
  cases works with
  | true => simp
  | false => simp

theorem symlink_ok_iff : symlink works fs target path = .ok fs' ↔
    fs path = none ∧ works = true ∧ fs' = Function.update fs path (some (.link target)) := by
  unfold symlink
  cases hpath : fs path with
  | some found => simp
  | none => cases works <;> simp [eq_comm]

/-- Removing what is at a path before linking it makes no difference elsewhere. -/
theorem symlink_remove_ok_iff : symlink works (remove removes fs path) target path = .ok fs' ↔
    (fs path = none ∨ removes = true) ∧ works = true ∧
      fs' = Function.update fs path (some (.link target)) := by
  have hupdate : Function.update (remove removes fs path) path (some (.link target)) =
      Function.update fs path (some (.link target)) := by
    funext other
    by_cases h : other = path
    · rw [h, Function.update_self, Function.update_self]
    · rw [Function.update_of_ne h, Function.update_of_ne h, remove_of_ne h]
  rw [symlink_ok_iff, remove_eq_none_iff, hupdate]

@[simp] theorem readlink_update (fs : FileSystem) (path target : CStr) :
    readlink (Function.update fs path (some (.link target))) path = some target := by
  simp [readlink]

end Lemmas

end OpsSysd.FileLinks
