import Mathlib.Data.List.Basic
import Mathlib.Logic.Function.Basic

/-!
A client's replica of a database, after the OVSDB client library. The replica
holds one snapshot and at most one transaction. Reads see the open
transaction's writes; a commit hands the writes to the server and delivers what
other clients did meanwhile. The sequence number grows with every delivery that
changes an alerting column or the set of rows; when else it grows, with the
first contents or a lock, is the library's own choice at each of its runs.
Nothing here is about a particular program or a particular set of tables.
-/

namespace OpsSysd.Ovsdb

/-- Tables, their columns and how the client monitors them. -/
structure Schema where
  Table : Type
  Column : Type
  Value : Column → Type
  tableOf : Column → Table
  initial : (c : Column) → Value c
  monitored : Table → Bool
  alerting : List Column
  /-- Monitored without alerts, so that an equal write is dropped. -/
  writeOnly : List Column
  [tableEq : DecidableEq Table]
  [columnEq : DecidableEq Column]
  [valueEq : (c : Column) → DecidableEq (Value c)]

attribute [instance] Schema.tableEq Schema.columnEq Schema.valueEq

/-- The client that inserted the row and a number that client never reuses. -/
structure Uuid where
  client : ℕ
  serial : ℕ
  deriving DecidableEq, Repr

structure Row (S : Schema) where
  table : S.Table
  uuid : Uuid
  col : (c : S.Column) → S.Value c

abbrev Database (S : Schema) := List (Row S)

section Database

variable {S : Schema}

def Row.is (r : Row S) (k : S.Table) (u : Uuid) : Bool := r.table = k ∧ r.uuid = u

def Row.setCol (r : Row S) (c : S.Column) (v : S.Value c) : Row S :=
  { r with col := Function.update r.col c v }

structure Update (S : Schema) where
  uuid : Uuid
  column : S.Column
  value : S.Value column

def Update.applyRow (w : Update S) (r : Row S) : Row S :=
  if r.is (S.tableOf w.column) w.uuid then r.setCol w.column w.value else r

def Update.apply (w : Update S) (db : Database S) : Database S := db.map w.applyRow

def rowsOf (k : S.Table) (db : Database S) : List (Row S) := db.filter (fun r => r.table = k)

def findRow (k : S.Table) (u : Uuid) (db : Database S) : Option (Row S) :=
  db.find? (fun r => r.is k u)

def Row.replicated (r : Row S) : Row S :=
  { r with col := fun c => if c ∈ S.alerting ∨ c ∈ S.writeOnly then r.col c else S.initial c }

def replica (db : Database S) : Database S :=
  (db.filter (fun r => S.monitored r.table)).map Row.replicated

/-- What a delivery is compared by: the monitored rows and their alerting columns. -/
def signature (db : Database S) : List (S.Table × Uuid × List ((c : S.Column) × S.Value c)) :=
  (db.filter (fun r => S.monitored r.table)).map (fun r =>
    (r.table, r.uuid,
      (S.alerting.filter (fun c => S.tableOf c = r.table)).map (fun c => ⟨c, r.col c⟩)))

/-- Two snapshots between which nothing alerts. -/
def Quiet (db db' : Database S) : Prop := (signature db).Perm (signature db')

instance (db db' : Database S) : Decidable (Quiet db db') :=
  inferInstanceAs (Decidable ((signature db).Perm (signature db')))

theorem Quiet.refl (db : Database S) : Quiet db db := List.Perm.refl _

theorem Quiet.trans {db₁ db₂ db₃ : Database S} (h : Quiet db₁ db₂) (h' : Quiet db₂ db₃) :
    Quiet db₁ db₃ := List.Perm.trans h h'

end Database

/-- The rows a transaction adds and its writes to rows of the snapshot. -/
structure Txn (S : Schema) where
  inserted : List (Row S)
  updates : List (Update S)

namespace Txn

variable {S : Schema}

def empty : Txn S := ⟨[], []⟩

def isEmpty (t : Txn S) : Bool := t.inserted.isEmpty && t.updates.isEmpty

def updated (t : Txn S) (db : Database S) : Database S :=
  t.updates.foldl (fun db w => w.apply db) db

def apply (t : Txn S) (db : Database S) : Database S := t.updated db ++ t.inserted

/-- A row the transaction has inserted hides every other. -/
def find (t : Txn S) (k : S.Table) (u : Uuid) (db : Database S) : Option (Row S) :=
  (findRow k u t.inserted).or (findRow k u (t.updated db))

def put (t : Txn S) (w : Update S) : Txn S :=
  if (findRow (S.tableOf w.column) w.uuid t.inserted).isSome then
    { t with inserted := w.apply t.inserted }
  else { t with updates := t.updates ++ [w] }

end Txn

/-- `ended` is committed and not yet destroyed. -/
inductive TxnState (S : Schema)
  | none
  | opened (t : Txn S)
  | ended

inductive TxnStatus
  | unchanged
  | aborted
  | success
  | tryAgain
  | notLocked
  | error
  deriving DecidableEq, Repr

/-- What other clients did to the database, as one delivery brings it. -/
abbrev Delivery (S : Schema) := Database S → Database S

/-- What happens during one commit: deliveries before the change takes effect,
the outcome, deliveries after it, the lock at the end, and whether the library
raises its sequence number for anything but the deliveries. -/
structure Reply (S : Schema) where
  before : List (Delivery S)
  status : TxnStatus
  after : List (Delivery S)
  hasLock : Bool
  lockContended : Bool
  raises : Bool

/-- The history of one commit: the snapshot it was built on and the one it met. -/
structure Finished (S : Schema) where
  txn : Txn S
  status : TxnStatus
  seen : Database S
  base : Database S

structure Idl (S : Schema) where
  client : ℕ
  nextSerial : ℕ
  snapshot : Database S
  txn : TxnState S
  seqno : ℕ
  hasLock : Bool
  lockContended : Bool
  replies : ℕ → Reply S
  created : ℕ
  finished : List (Finished S)

/-- `noTransaction` is a write or a commit without an open transaction,
`transactionOpen` a second one, `badAccess` a pointer that is not a row or not there, or
a store past the end of a block. -/
inductive Fault
  | noTransaction
  | transactionOpen
  | badAccess
  deriving DecidableEq, Repr

abbrev IdlM (S : Schema) := StateT (Idl S) (Except Fault)

namespace Idl

variable {S : Schema}

def view (s : Idl S) : Database S :=
  match s.txn with
  | .opened t => t.apply s.snapshot
  | _ => s.snapshot

def find (s : Idl S) (k : S.Table) (u : Uuid) : Option (Row S) :=
  match s.txn with
  | .opened t => t.find k u s.snapshot
  | _ => findRow k u s.snapshot

def value (s : Idl S) (u : Uuid) (c : S.Column) : Option (S.Value c) :=
  (s.find (S.tableOf c) u).map (fun r => r.col c)

def deliver (s : Idl S) (d : Delivery S) : Idl S :=
  { s with
    snapshot := replica (d s.snapshot)
    seqno := if Quiet s.snapshot (replica (d s.snapshot)) then s.seqno else s.seqno + 1 }

def deliverAll (s : Idl S) (ds : List (Delivery S)) : Idl S := ds.foldl deliver s

def setLock (s : Idl S) (hasLock lockContended raises : Bool) : Idl S :=
  { s with
    hasLock := hasLock
    lockContended := lockContended
    seqno := if raises then s.seqno + 1 else s.seqno }

def run (s : Idl S) (ds : List (Delivery S)) (hasLock lockContended raises : Bool) : Idl S :=
  (s.deliverAll ds).setLock hasLock lockContended raises

def finish (s : Idl S) (f : Finished S) : Idl S :=
  { s with txn := .ended, finished := s.finished ++ [f] }

/-- The replica when the server takes up the next change. -/
def met (s : Idl S) : Idl S :=
  { s with replies := fun i => s.replies (i + 1) }.deliverAll (s.replies 0).before

def change (s : Idl S) (status : TxnStatus) (t : Txn S) : Idl S :=
  if status = .success then s.deliver t.apply else s

def replied (s : Idl S) (t : Txn S) : Idl S :=
  ((s.met.change (s.replies 0).status t).deliverAll (s.replies 0).after).setLock
    (s.replies 0).hasLock (s.replies 0).lockContended (s.replies 0).raises

/-- `ovsdb_idl_txn_commit_block` for the open transaction `t`. Without the lock,
and for a transaction that changes nothing, it gives up before it asks the server. -/
def commit (s : Idl S) (t : Txn S) : TxnStatus × Idl S :=
  if s.hasLock = false then
    (.notLocked, s.finish ⟨t, .notLocked, s.snapshot, s.snapshot⟩)
  else if t.isEmpty = true then
    (.unchanged, s.finish ⟨t, .unchanged, s.snapshot, s.snapshot⟩)
  else
    ((s.replies 0).status,
      (s.replied t).finish ⟨t, (s.replies 0).status, s.snapshot, s.met.snapshot⟩)

end Idl

section Operations

variable {S : Schema}

def txnCreate : IdlM S Unit := fun s =>
  match s.txn with
  | .none => .ok ((), { s with txn := .opened .empty, created := s.created + 1 })
  | _ => .error .transactionOpen

def txnCommitBlock : IdlM S TxnStatus := fun s =>
  match s.txn with
  | .opened t => .ok (s.commit t)
  | _ => .error .noTransaction

def txnDestroy : IdlM S Unit := fun s =>
  match s.txn with
  | .none => .error .badAccess
  | _ => .ok ((), { s with txn := .none })

def txnInsert (k : S.Table) : IdlM S Uuid := fun s =>
  match s.txn with
  | .opened t =>
    let u : Uuid := ⟨s.client, s.nextSerial⟩
    .ok (u, { s with
      nextSerial := s.nextSerial + 1
      txn := .opened { t with inserted := t.inserted ++ [⟨k, u, S.initial⟩] } })
  | _ => .error .noTransaction

/-- A write of the stored value to a write-only column is dropped; any other
needs an open transaction. -/
def txnWrite (u : Uuid) (c : S.Column) (v : S.Value c) : IdlM S Unit := fun s =>
  match s.find (S.tableOf c) u with
  | none => .error .badAccess
  | some r =>
    if c ∈ S.writeOnly ∧ r.col c = v then .ok ((), s)
    else
      match s.txn with
      | .opened t => .ok ((), { s with txn := .opened (t.put ⟨u, c, v⟩) })
      | _ => .error .noTransaction

def readCol (u : Uuid) (c : S.Column) : IdlM S (S.Value c) := fun s =>
  match s.find (S.tableOf c) u with
  | none => .error .badAccess
  | some r => .ok (r.col c, s)

def rows (k : S.Table) : IdlM S (List (Row S)) := fun s => .ok (rowsOf k s.view, s)

/-- Following a pointer that may be NULL, or filling a block that may be too small. -/
def deref {α : Type} (p : Option α) : IdlM S α := fun s =>
  match p with
  | none => .error .badAccess
  | some a => .ok (a, s)

def transaction (m : IdlM S Unit) : IdlM S TxnStatus := do
  txnCreate
  m
  let status ← txnCommitBlock
  txnDestroy
  return status

end Operations

end OpsSysd.Ovsdb
