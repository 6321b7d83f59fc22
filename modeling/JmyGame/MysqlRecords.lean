import JmyGame.LibMachine
import JmyGame.LibUnorderedMap
import JmyGame.CommonBiMap

/-! The records of a database table: `mysql_record_state_manager`, which keeps what is to be done for a
record, and `mysql_records_manager`, which finds records by their keys and flushes what is to be done. The
records are those of the structs that the db generator makes: fields with their states, and the requests
for the row of a record. -/

namespace JmyGame

inductive MysqlTableRecordState where
  | none
  | insert
  | delete
  | update
  deriving DecidableEq, Repr

inductive MysqlTableFieldValueState where
  | idle
  | inited
  | changed
  | committing
  | commited
  deriving DecidableEq, Repr

/-- The fields of a row, apart from its key. -/
abbrev Row (ι ν : Type) := ι → ν

/-- A record with the key of its row, its fields and their states. -/
@[ext]
structure TableRecord (κ ι ν : Type) where
  key : κ
  value : Row ι ν
  fieldState : ι → MysqlTableFieldValueState

namespace TableRecord

variable {κ ι ν : Type}

/-- A record behind its constructor, with its key. -/
def make [Inhabited ν] (key : κ) : TableRecord κ ι ν := ⟨key, fun _ => default, fun _ => .idle⟩

/-- A record whose fields are those of a row, by `init_` functions. -/
def ofRow (key : κ) (row : Row ι ν) : TableRecord κ ι ν := ⟨key, row, fun _ => .inited⟩

/-- The `set_` function of a field. -/
def set [DecidableEq ι] (t : TableRecord κ ι ν) (field : ι) (data : ν) : TableRecord κ ι ν :=
  { t with
    value := Function.update t.value field data
    fieldState := Function.update t.fieldState field .changed }

/-- `insert_request`, with the record and the row that it leaves. A row that is there already stays. -/
def insertRequest (t : TableRecord κ ι ν) (row : Option (Row ι ν)) : TableRecord κ ι ν × Option (Row ι ν) :=
  ({ t with fieldState := fun _ => .committing }, row.or (some t.value))

/-- `delete_request`. -/
def deleteRequest (t : TableRecord κ ι ν) (_ : Option (Row ι ν)) : TableRecord κ ι ν × Option (Row ι ν) :=
  (t, none)

/-- `update_request`, which writes the fields that are changed. -/
def updateRequest (t : TableRecord κ ι ν) (row : Option (Row ι ν)) : TableRecord κ ι ν × Option (Row ι ν) :=
  ({ t with fieldState := fun i => if t.fieldState i = .changed then .committing else t.fieldState i },
    row.map fun r i => if t.fieldState i = .changed then t.value i else r i)

/-- The record agrees with the row in the fields that are not changed. -/
def Synced (t : TableRecord κ ι ν) (row : Option (Row ι ν)) : Prop :=
  ∀ r, row = some r → ∀ i, t.fieldState i ≠ .changed → t.value i = r i

end TableRecord

/-- What is to be done for a record, by its address. -/
abbrev RecordStates := UnorderedMap ℕ MysqlTableRecordState

namespace RecordStates

/-- A commit: the first state of a record that has none, and else the next one. -/
def commit (first : MysqlTableRecordState) (next : MysqlTableRecordState → MysqlTableRecordState)
    (states : RecordStates) (record : ℕ) : RecordStates :=
  match states.find record with
  | none => states.emplace record first
  | some state => states.modify record fun _ => next state

def afterInsert : MysqlTableRecordState → MysqlTableRecordState
  | .none => .insert
  | .delete => .none
  | .insert => .insert
  | .update => .update

def afterDelete : MysqlTableRecordState → MysqlTableRecordState
  | .none => .delete
  | .insert => .none
  | .delete => .delete
  | .update => .delete

def afterUpdate : MysqlTableRecordState → MysqlTableRecordState
  | .none => .update
  | .insert => .insert
  | .delete => .delete
  | .update => .update

/-- `commit_insert`. -/
def commitInsert : RecordStates → ℕ → RecordStates := commit .insert afterInsert

/-- `commit_delete`. -/
def commitDelete : RecordStates → ℕ → RecordStates := commit .delete afterDelete

/-- `commit_update`. -/
def commitUpdate : RecordStates → ℕ → RecordStates := commit .update afterUpdate

theorem find_commit {first : MysqlTableRecordState} {next : MysqlTableRecordState → MysqlTableRecordState}
    {states : RecordStates} {p q : ℕ} : UnorderedMap.find (commit first next states p) q =
      if q = p then some (((states.find p).map next).getD first) else states.find q := by
  unfold commit
  cases hfind : states.find p with
  | none => exact UnorderedMap.find_emplace hfind
  | some state =>
      dsimp only
      rw [UnorderedMap.find_modify, hfind]
      rfl

end RecordStates

/-- The commits for a record. -/
inductive Commit where
  | insert
  | delete
  | update
  deriving DecidableEq, Repr

def Commit.states : Commit → RecordStates → ℕ → RecordStates
  | .insert => RecordStates.commitInsert
  | .delete => RecordStates.commitDelete
  | .update => RecordStates.commitUpdate

/-- The request that a commit stands for. -/
def Commit.request {κ ι ν : Type} : Commit → TableRecord κ ι ν → Option (Row ι ν) →
    TableRecord κ ι ν × Option (Row ι ν)
  | .insert => TableRecord.insertRequest
  | .delete => TableRecord.deleteRequest
  | .update => TableRecord.updateRequest

/-- Whether a commit is legal for a row that is there or not: an insert when it is absent, an update or a delete
when it is present. -/
def Commit.allowed : Commit → Bool → Bool
  | .insert, present => !present
  | .delete, present => present
  | .update, present => present

/-- Whether the row is there after the commit. -/
def Commit.present : Commit → Bool
  | .insert => true
  | .delete => false
  | .update => true

/-- The manager of the records of a table, the records by their addresses, the first address that is free,
and the rows of the table. The field `present` says which rows would be there if the commits had been
executed; no function of the manager reads it. -/
structure RecordsStore (κ ι ν : Type) where
  keyRecordMap : BiMap κ ℕ
  states : RecordStates
  heap : ℕ → Option (TableRecord κ ι ν)
  next : ℕ
  rows : κ → Option (Row ι ν)
  present : κ → Bool

namespace RecordsStore

variable {κ ι ν : Type} [DecidableEq κ]

/-- No record is loaded. -/
def start (rows : κ → Option (Row ι ν)) : RecordsStore κ ι ν where
  keyRecordMap := .empty
  states := ∅
  heap := fun _ => none
  next := 0
  rows := rows
  present := fun key => (rows key).isSome

variable (s : RecordsStore κ ι ν)

def get (key : κ) : Option ℕ := s.keyRecordMap.find1 key

/-- A new record with its entry in the map. -/
def add (key : κ) (t : TableRecord κ ι ν) : ℕ × RecordsStore κ ι ν :=
  (s.next, { s with
    keyRecordMap := (s.keyRecordMap.insert key s.next).2
    heap := Function.update s.heap s.next (some t)
    next := s.next + 1 })

def getNew [Inhabited ν] (key : κ) : ℕ × RecordsStore κ ι ν := s.add key (.make key)

/-- `remove` of a record. -/
def remove (record : ℕ) : Bool × RecordsStore κ ι ν :=
  match s.keyRecordMap.find2 record with
  | none => (false, s)
  | some _ => (true, { s with
      heap := Function.update s.heap record none
      keyRecordMap := (s.keyRecordMap.remove2 record).2 })

/-- `commit_insert_request`, `commit_delete_request` and `commit_update_request` of a record. -/
def commitRequest (c : Commit) (record : ℕ) : RecordsStore κ ι ν := { s with states := c.states s.states record }

/-- `commit_insert_request` of a key, which makes the record if there is none. -/
def commitInsertRequest [Inhabited ν] (key : κ) : RecordsStore κ ι ν :=
  match s.get key with
  | some record => s.commitRequest .insert record
  | none => (s.getNew key).2.commitRequest .insert (s.getNew key).1

/-- `commit_delete_request` and `commit_update_request` of a key. -/
def commitKeyRequest (c : Commit) (key : κ) : Bool × RecordsStore κ ι ν :=
  match s.get key with
  | none => (false, s)
  | some record => (true, s.commitRequest c record)

/-- A request of a record for its row. A record that is freed has none. -/
def request (c : Commit) (record : ℕ) : Option (RecordsStore κ ι ν) :=
  (s.heap record).map fun t => { s with
    heap := Function.update s.heap record (some (c.request t (s.rows t.key)).1)
    rows := Function.update s.rows t.key (c.request t (s.rows t.key)).2 }

/-- `update_one_record`; `succeeds` says whether the request of the record succeeds. -/
def updateOneRecord (succeeds : Bool) (record : ℕ) : Option (ℤ × RecordsStore κ ι ν) :=
  match s.states.find record with
  | some .insert => if succeeds then (s.request .insert record).map fun s₁ => (1, s₁) else some (0, s)
  | some .delete => if succeeds then (s.request .delete record).map fun s₁ => (2, s₁) else some (0, s)
  | some .update => if succeeds then (s.request .update record).map fun s₁ => (1, s₁) else some (0, s)
  | _ => some (1, s)

/-- The loop of `update` over the records that have states, in the order of their hash map. -/
def updateLoop (succeeds : ℕ → Bool) : List ℕ → RecordsStore κ ι ν → Option (RecordsStore κ ι ν)
  | [], s => some { s with states := ∅ }
  | record :: order, s =>
    (s.updateOneRecord (succeeds record) record).bind fun r =>
      if r.1 < 0 then some r.2
      else if r.1 = 2 then updateLoop succeeds order (r.2.remove record).2
      else updateLoop succeeds order r.2

/-- `update`. -/
def update (succeeds : ℕ → Bool) (order : List ℕ) : Option (RecordsStore κ ι ν) := s.updateLoop succeeds order

end RecordsStore

/-- What is done with the records of a table: a record is loaded for a row, or made for a key without a row;
fields are set; commits come for a record or for a key; and `update` flushes them. -/
inductive RecordEvent (κ ι ν : Type) where
  | load (key : κ)
  | getNew (key : κ)
  | set (record : ℕ) (field : ι) (data : ν)
  | commit (c : Commit) (record : ℕ)
  | commitKey (c : Commit) (key : κ)
  | update (order : List ℕ)

namespace RecordsStore

variable {κ ι ν : Type} [DecidableEq κ] [DecidableEq ι] [Inhabited ν]

/-- The row of a key is there or not after a commit. -/
def mark (s : RecordsStore κ ι ν) (key : κ) (c : Commit) : RecordsStore κ ι ν :=
  { s with present := Function.update s.present key c.present }

/-- A commit for a key. Without a record there is nothing to delete or to update. -/
def commitKey (s : RecordsStore κ ι ν) : Commit → κ → RecordsStore κ ι ν
  | .insert, key => (s.commitInsertRequest key).mark key .insert
  | c, key => match s.commitKeyRequest c key with
    | (false, s₁) => s₁
    | (true, s₁) => s₁.mark key c

/-- One event. Commits are legal and for records of the manager, and requests succeed. -/
def step (s : RecordsStore κ ι ν) : RecordEvent κ ι ν → Option (RecordsStore κ ι ν)
  | .load key => match s.get key, s.rows key with
    | none, some row => some (s.add key (.ofRow key row)).2
    | _, _ => none
  | .getNew key => if s.get key = none ∧ s.present key = false then some (s.getNew key).2 else none
  | .set record field data =>
    (s.heap record).map fun t => { s with heap := Function.update s.heap record (some (t.set field data)) }
  | .commit c record => (s.keyRecordMap.find2 record).bind fun key =>
    if c.allowed (s.present key) then some ((s.commitRequest c record).mark key c) else none
  | .commitKey c key => if c.allowed (s.present key) then some (s.commitKey c key) else none
  | .update order =>
    if order.Nodup ∧ order.toFinset = s.states.keys then s.update (fun _ => true) order else none

end RecordsStore

def recordsMachine (κ ι ν : Type) [DecidableEq κ] [DecidableEq ι] [Inhabited ν] :
    Machine (RecordsStore κ ι ν) (RecordEvent κ ι ν) := ⟨RecordsStore.step⟩

end JmyGame
