import JmyGame.MysqlRecords

/-! `mysql_records_manager2`: the records of a table with two keys. A record is found by either key; what is to be
done for it is kept by its address, as for the records with one key. -/

namespace JmyGame

/-- `key_record_map_` and `key2_record_map_`. -/
structure KeyMaps (κ κ₂ : Type) where
  keyRecordMap : BiMap κ ℕ
  key2RecordMap : BiMap κ₂ ℕ

/-- The manager of the records of a table with two keys, the records by their addresses, and the requests that were
made, each with the record before it. The last two fields are a record of what has happened: the keys that a
record was made with, until it is freed, and the maps before and after each removal that returned false. -/
structure RecordsStore2 (κ κ₂ τ : Type) extends KeyMaps κ κ₂ where
  states : RecordStates
  heap : ℕ → Option τ
  requests : List (Commit × τ)
  made : ℕ → Option (Option κ × Option κ₂)
  refused : List (KeyMaps κ κ₂ × KeyMaps κ κ₂)

namespace RecordsStore2

variable {κ κ₂ τ : Type}

def start : RecordsStore2 κ κ₂ τ := ⟨⟨.empty, .empty⟩, ∅, fun _ => none, [], fun _ => none, []⟩

variable (s : RecordsStore2 κ κ₂ τ)

def getByKey (key : κ) : Option ℕ := s.keyRecordMap.find1 key

def getByKey2 (key2 : κ₂) : Option ℕ := s.key2RecordMap.find1 key2

/-- `jmy_mem_malloc`, which gives an address that is free, for a record with keys. -/
def malloc [Inhabited τ] (keys : Option κ × Option κ₂) (record : ℕ) : Option (RecordsStore2 κ κ₂ τ) :=
  if s.heap record = none then some { s with
    heap := Function.update s.heap record (some default)
    made := Function.update s.made record (some keys) }
  else none

/-- `jmy_mem_free`. -/
def free (record : ℕ) : RecordsStore2 κ κ₂ τ :=
  { s with
    heap := Function.update s.heap record none
    made := Function.update s.made record none }

section keys

variable [DecidableEq κ] [DecidableEq κ₂]

/-- The common body of the functions that make a record and insert its keys. The result of `insert` is not read. -/
def getNew [Inhabited τ] (key : Option κ) (key2 : Option κ₂) (record : ℕ) : Option (RecordsStore2 κ κ₂ τ) :=
  (s.malloc (key, key2) record).map fun s₁ => { s₁ with
    keyRecordMap := key.elim s₁.keyRecordMap fun k => (s₁.keyRecordMap.insert k record).2
    key2RecordMap := key2.elim s₁.key2RecordMap fun k => (s₁.key2RecordMap.insert k record).2 }

def getNewByKey [Inhabited τ] (key : κ) : ℕ → Option (RecordsStore2 κ κ₂ τ) := s.getNew (some key) none

def getNewByKey2 [Inhabited τ] (key2 : κ₂) : ℕ → Option (RecordsStore2 κ κ₂ τ) := s.getNew none (some key2)

def getNewByKeyAndKey2 [Inhabited τ] (key : κ) (key2 : κ₂) : ℕ → Option (RecordsStore2 κ κ₂ τ) :=
  s.getNew (some key) (some key2)

/-- `insert_key_record`, for a record that has its second key. -/
def insertKeyRecord (key : κ) (record : ℕ) : Bool × RecordsStore2 κ κ₂ τ :=
  if s.key2RecordMap.find2 record = none then (false, s)
  else if s.keyRecordMap.find1 key = none then
    (true, { s with keyRecordMap := (s.keyRecordMap.insert key record).2 })
  else (true, s)

/-- `insert_key2_record`, for a record that has its first key. -/
def insertKey2Record (key2 : κ₂) (record : ℕ) : Bool × RecordsStore2 κ κ₂ τ :=
  if s.keyRecordMap.find2 record = none then (false, s)
  else if s.key2RecordMap.find1 key2 = none then
    (true, { s with key2RecordMap := (s.key2RecordMap.insert key2 record).2 })
  else (true, s)

/-- The maps before and after a removal that returned false are recorded. -/
def noting (r : Bool × RecordsStore2 κ κ₂ τ) : Bool × RecordsStore2 κ κ₂ τ :=
  (r.1, if r.1 then r.2 else { r.2 with refused := r.2.refused ++ [(s.toKeyMaps, r.2.toKeyMaps)] })

def removeByKey (key : κ) : Bool × RecordsStore2 κ κ₂ τ :=
  s.noting <| match s.keyRecordMap.find1 key with
    | none => (false, s)
    | some record =>
      let removed := s.key2RecordMap.remove2 record
      let s₁ := { s with key2RecordMap := removed.2 }
      if removed.1 = false then (false, s₁)
      else (true, { s₁ with keyRecordMap := (s.keyRecordMap.remove1 key).2 }.free record)

def removeByKey2 (key2 : κ₂) : Bool × RecordsStore2 κ κ₂ τ :=
  s.noting <| match s.key2RecordMap.find1 key2 with
    | none => (false, s)
    | some record =>
      let removed := s.keyRecordMap.remove2 record
      let s₁ := { s with keyRecordMap := removed.2 }
      if removed.1 = false then (false, s₁)
      else (true, { s₁ with key2RecordMap := (s.key2RecordMap.remove1 key2).2 }.free record)

/-- `remove_record`. The second key of the record stays. -/
def removeRecord (record : ℕ) : Bool × RecordsStore2 κ κ₂ τ :=
  s.noting <|
    if s.keyRecordMap.find2 record = none then (false, s)
    else
      let s₁ := { s with keyRecordMap := (s.keyRecordMap.remove2 record).2 }
      if s₁.key2RecordMap.find2 record = none then (false, s₁) else (true, s₁.free record)

/-- `commit_insert_request`, `commit_delete_request` and `commit_update_request`. -/
def commitRequest (c : Commit) (record : ℕ) : RecordsStore2 κ κ₂ τ := { s with states := c.states s.states record }

/-- `commit_insert_request_by_key`. A record that is not there is made with its second key, to which the key is
converted. -/
def commitInsertRequestByKey [Inhabited τ] (conv : κ → κ₂) (key : κ) (record : ℕ) :
    Option (RecordsStore2 κ κ₂ τ) :=
  match s.getByKey key with
  | some found => some (s.commitRequest .insert found)
  | none => (s.getNewByKey2 (conv key) record).map fun s₁ => s₁.commitRequest .insert record

/-- `commit_insert_request_by_key2`. -/
def commitInsertRequestByKey2 [Inhabited τ] (key2 : κ₂) (record : ℕ) : Option (RecordsStore2 κ κ₂ τ) :=
  match s.getByKey2 key2 with
  | some found => some (s.commitRequest .insert found)
  | none => (s.getNewByKey2 key2 record).map fun s₁ => s₁.commitRequest .insert record

/-- `commit_delete_request_by_key` and its siblings, for the record that was found. -/
def commitFound (c : Commit) : Option ℕ → Bool × RecordsStore2 κ κ₂ τ
  | none => (false, s)
  | some record => (true, s.commitRequest c record)

/-- `commit_delete_request_by_key` and `commit_update_request_by_key`. -/
def commitRequestByKey (c : Commit) (key : κ) : Bool × RecordsStore2 κ κ₂ τ := s.commitFound c (s.getByKey key)

/-- `commit_delete_request_by_key2` and `commit_update_request_by_key2`. -/
def commitRequestByKey2 (c : Commit) (key2 : κ₂) : Bool × RecordsStore2 κ κ₂ τ :=
  s.commitFound c (s.getByKey2 key2)

variable (after : Commit → τ → τ)

/-- A request of a record, which leaves the record that `after` says. A record that is freed has none. -/
def request (c : Commit) (record : ℕ) : Option (RecordsStore2 κ κ₂ τ) :=
  (s.heap record).map fun t => { s with
    heap := Function.update s.heap record (some (after c t))
    requests := s.requests ++ [(c, t)] }

/-- `update_one_record`; `succeeds` says whether the request of the record succeeds. -/
def updateOneRecord (succeeds : Bool) (record : ℕ) : Option (ℤ × RecordsStore2 κ κ₂ τ) :=
  match s.states.find record with
  | some .insert => if succeeds then (s.request after .insert record).map fun s₁ => (1, s₁) else some (0, s)
  | some .delete => if succeeds then (s.request after .delete record).map fun s₁ => (2, s₁) else some (0, s)
  | some .update => if succeeds then (s.request after .update record).map fun s₁ => (1, s₁) else some (0, s)
  | _ => some (1, s)

/-- The loop of `update` over the records that have states, in the order of their hash map. -/
def updateLoop (succeeds : ℕ → Bool) : List ℕ → RecordsStore2 κ κ₂ τ → Option (RecordsStore2 κ κ₂ τ)
  | [], s => some { s with states := ∅ }
  | record :: order, s =>
    (s.updateOneRecord after (succeeds record) record).bind fun r =>
      if r.1 < 0 then some r.2
      else if r.1 = 2 then updateLoop succeeds order (r.2.removeRecord record).2
      else updateLoop succeeds order r.2

/-- `update`. -/
def update (succeeds : ℕ → Bool) (order : List ℕ) : Option (RecordsStore2 κ κ₂ τ) :=
  if s.states.size = 0 then some s else s.updateLoop after succeeds order

end keys

end RecordsStore2

/-- The calls for the records of a table with two keys. A call that may make a record has the address that it
then gets, and `update` has what the requests return and the order of the hash map. -/
inductive RecordEvent2 (κ κ₂ : Type) where
  | getNewByKey (key : κ) (record : ℕ)
  | getNewByKey2 (key2 : κ₂) (record : ℕ)
  | getNewByKeyAndKey2 (key : κ) (key2 : κ₂) (record : ℕ)
  | insertKeyRecord (key : κ) (record : ℕ)
  | insertKey2Record (key2 : κ₂) (record : ℕ)
  | removeByKey (key : κ)
  | removeByKey2 (key2 : κ₂)
  | removeRecord (record : ℕ)
  | commit (c : Commit) (record : ℕ)
  | commitByKey (c : Commit) (key : κ) (record : ℕ)
  | commitByKey2 (c : Commit) (key2 : κ₂) (record : ℕ)
  | update (succeeds : ℕ → Bool) (order : List ℕ)

namespace RecordsStore2

variable {κ κ₂ τ : Type} [DecidableEq κ] [DecidableEq κ₂] [Inhabited τ]

/-- A commit for a key. -/
def commitByKey (conv : κ → κ₂) (s : RecordsStore2 κ κ₂ τ) (record : ℕ) :
    Commit → κ → Option (RecordsStore2 κ κ₂ τ)
  | .insert, key => s.commitInsertRequestByKey conv key record
  | c, key => some (s.commitRequestByKey c key).2

/-- A commit for a second key. -/
def commitByKey2 (s : RecordsStore2 κ κ₂ τ) (record : ℕ) : Commit → κ₂ → Option (RecordsStore2 κ κ₂ τ)
  | .insert, key2 => s.commitInsertRequestByKey2 key2 record
  | c, key2 => some (s.commitRequestByKey2 c key2).2

/-- One call. The records that are given to a call are not freed. -/
def step (conv : κ → κ₂) (after : Commit → τ → τ) (s : RecordsStore2 κ κ₂ τ) :
    RecordEvent2 κ κ₂ → Option (RecordsStore2 κ κ₂ τ)
  | .getNewByKey key record => s.getNewByKey key record
  | .getNewByKey2 key2 record => s.getNewByKey2 key2 record
  | .getNewByKeyAndKey2 key key2 record => s.getNewByKeyAndKey2 key key2 record
  | .insertKeyRecord key record => (s.heap record).map fun _ => (s.insertKeyRecord key record).2
  | .insertKey2Record key2 record => (s.heap record).map fun _ => (s.insertKey2Record key2 record).2
  | .removeByKey key => some (s.removeByKey key).2
  | .removeByKey2 key2 => some (s.removeByKey2 key2).2
  | .removeRecord record => (s.heap record).map fun _ => (s.removeRecord record).2
  | .commit c record => (s.heap record).map fun _ => s.commitRequest c record
  | .commitByKey c key record => s.commitByKey conv record c key
  | .commitByKey2 c key2 record => s.commitByKey2 record c key2
  | .update succeeds order =>
    if order.Nodup ∧ order.toFinset = s.states.keys then s.update after succeeds order else none

end RecordsStore2

def records2Machine {κ κ₂ τ : Type} [DecidableEq κ] [DecidableEq κ₂] [Inhabited τ] (conv : κ → κ₂)
    (after : Commit → τ → τ) : Machine (RecordsStore2 κ κ₂ τ) (RecordEvent2 κ κ₂) := ⟨RecordsStore2.step conv after⟩

end JmyGame
