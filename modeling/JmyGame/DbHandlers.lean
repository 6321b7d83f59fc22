import JmyGame.GateHandlers

/-! The db server: the records of players with their two keys, the link to the game server and the
message handlers of `GameHandler`. What the database answers is an input. -/

namespace JmyGame

open CArith

/-- A record of `t_player`. -/
structure TPlayer where
  account : Str
  roleId : BitVec 64
  nickName : Str
  sex : ℤ
  level : ℤ
  items : BitVec 32 → Option (BitVec 32)

def TPlayer.new : TPlayer := ⟨[], 0, [], 0, 0, fun _ => none⟩

/-- `MysqlTableRecordState`. -/
inductive RecordState where
  | none
  | insert
  | delete
  | update
  deriving DecidableEq, Repr

/-- `mysql_records_manager2` of `t_player`, with the role id and the account as keys. A record is named
by the number of its object; those from `next` on are not allocated. -/
structure PlayerTable where
  keyRecordMap : BiMap (BitVec 64) ℕ
  key2RecordMap : BiMap Str ℕ
  states : ℕ → Option RecordState
  recs : ℕ → TPlayer
  next : ℕ

namespace PlayerTable

def empty : PlayerTable := ⟨.empty, .empty, fun _ => none, fun _ => .new, 0⟩

variable (t : PlayerTable)

def getByKey (roleId : BitVec 64) : Option ℕ := t.keyRecordMap.find1 roleId

def getByKey2 (account : Str) : Option ℕ := t.key2RecordMap.find1 account

def getNewByKey2 (account : Str) : ℕ × PlayerTable :=
  (t.next, { t with
    next := t.next + 1
    recs := Function.update t.recs t.next .new
    key2RecordMap := (t.key2RecordMap.insert account t.next).2 })

def getNewByKeyAndKey2 (roleId : BitVec 64) (account : Str) : ℕ × PlayerTable :=
  (t.next, { t with
    next := t.next + 1
    recs := Function.update t.recs t.next .new
    keyRecordMap := (t.keyRecordMap.insert roleId t.next).2
    key2RecordMap := (t.key2RecordMap.insert account t.next).2 })

/-- `insert_key_record`, for a record that has its second key. -/
def insertKeyRecord (roleId : BitVec 64) (r : ℕ) : Bool × PlayerTable :=
  if t.key2RecordMap.find2 r = none then (false, t)
  else if t.keyRecordMap.find1 roleId = none then
    (true, { t with keyRecordMap := (t.keyRecordMap.insert roleId r).2 })
  else (true, t)

/-- `remove_record`. The second key of the record stays. -/
def removeRecord (r : ℕ) : Bool × PlayerTable :=
  if t.keyRecordMap.find2 r = none then (false, t)
  else
    let t₁ := { t with keyRecordMap := (t.keyRecordMap.remove2 r).2 }
    if t₁.key2RecordMap.find2 r = none then (false, t₁) else (true, t₁)

def modify (r : ℕ) (f : TPlayer → TPlayer) : PlayerTable :=
  { t with recs := Function.update t.recs r (f (t.recs r)) }

def setState (r : ℕ) (state : RecordState) : PlayerTable :=
  { t with states := Function.update t.states r (some state) }

/-- `commit_insert_request`, which knows all states. -/
def commitInsertRequest (r : ℕ) : Bool × PlayerTable :=
  match t.states r with
  | some .none => (true, t.setState r .insert)
  | some .delete => (true, t.setState r .none)
  | some .insert => (true, t)
  | some .update => (true, t)
  | none => (true, t.setState r .insert)

/-- `commit_update_request`, which knows all states. -/
def commitUpdateRequest (r : ℕ) : Bool × PlayerTable :=
  match t.states r with
  | some .none => (true, t.setState r .update)
  | some .delete => (true, t)
  | some .insert => (true, t)
  | some .update => (true, t)
  | none => (true, t.setState r .update)

def commitUpdateRequestByKey (roleId : BitVec 64) : Bool × PlayerTable :=
  match t.getByKey roleId with
  | none => (false, t)
  | some r => t.commitUpdateRequest r

/-- `update`, which sends the changes to the database. No record is ever marked for deletion. -/
def update : PlayerTable := { t with states := fun _ => none }

end PlayerTable

/-- The db server. `agent` is the game agent of the connection `connId`, `selecting` are the accounts
that the database is asked for, each with the connection that asked, and `toGame` is what the link has
still to deliver. -/
structure DB where
  table : PlayerTable
  gameUp : Bool
  connId : ℤ
  agent : Option ℤ
  counter : BitVec 16
  selecting : List (Str × ℤ)
  toGame : List Packet

/-- What a select gives: no rows, a row that cannot be read to its end, or a row. -/
inductive SelectResult where
  | empty
  | broken (row : TPlayer)
  | row (row : TPlayer)

namespace DB

def start : DB := ⟨.empty, false, 0, none, 0, [], []⟩

variable (d : DB)

/-- `send(msg_id, data, len)` on the connection of the game server. -/
def gameConnSend (msgId : MsgId) (data : List Byte) : ℤ × DB :=
  if d.gameUp ∧ sendTakes msgId data then
    (data.length, { d with toGame := d.toGame ++ [⟨none, msgId, short data⟩] })
  else (-1, d)

/-- `sendMsg` of the game agent. -/
def agentSend (msgId : MsgId) (data : List Byte) : ℤ × DB :=
  let sent := d.gameConnSend msgId data
  (if sent.1 < 0 then -1 else 0, sent.2)

/-- `getByConnId`. -/
def hasAgent (connId : ℤ) : Bool := d.agent.isSome ∧ connId = d.connId

/-- `newAgent`, for a connection that has none. -/
def newAgent (gameId : ℤ) : Bool × DB :=
  if gameId < gameServerMinId ∨ gameServerMaxId < gameId then (false, d)
  else (true, { d with agent := some gameId })

/-- `force_close` of the connection of the game server, with `GameHandler::onDisconnect`. -/
def closeGame : DB := { d with gameUp := false, agent := none }

/-- `run` closes the connection after a handler with a negative result. -/
def closeGameOnError (r : ℤ × DB) : DB := if r.1 < 0 then r.2.closeGame else r.2

def setTable (table : PlayerTable) : DB := { d with table := table }

/-- `gen_unique_role_id` at a time. -/
def genUniqueRoleId (serverId : ℤ) (time : ℕ) : BitVec 64 × DB :=
  (((BitVec.ofInt 64 serverId <<< 48) &&& 0xffff000000000000) +
    ((BitVec.ofNat 64 time <<< 16) &&& 0xffff0000) + d.counter.setWidth 64,
    { d with counter := d.counter + 1 })

end DB

namespace DBResCBFuncs

/-- The size of `tmp_`. -/
def tmpSize : ℕ := 4096 * 128

variable (P : Protocol)

/-- The common body of the two role responses. -/
def sendRole (d : DB) (response : MsgRoleResponse) (connId : ℤ) : ℤ × DB :=
  if d.hasAgent connId = false then (-1, d)
  else match P.ds2gsGetRoleResponse.serializeToArray tmpSize response with
  | none => (-1, d)
  | some tmp =>
    let sent := d.agentSend MsgId.ds2gsGetRoleResponse tmp
    if sent.1 < 0 then (-1, sent.2) else (0, sent.2)

def sendGetRoleResponse (d : DB) (user : TPlayer) (connId : ℤ) : ℤ × DB :=
  sendRole P d ⟨user.account, ⟨user.roleId, user.nickName, 0, user.sex, 0, user.level⟩⟩ connId

def sendGetRoleEmptyResponse (d : DB) (account : Str) (connId : ℤ) : ℤ × DB :=
  sendRole P d ⟨account, ⟨0, [], 0, 0, 0, 0⟩⟩ connId

/-- The answer of the database to the select of `processGetRole`. -/
def onSelect (d : DB) (account : Str) (connId : ℤ) : SelectResult → ℤ × DB
  | .empty =>
    let sent := sendGetRoleEmptyResponse P d account connId
    if sent.1 < 0 then (-1, sent.2) else (0, sent.2)
  | .broken row =>
    let new := d.table.getNewByKey2 account
    let table := new.2.modify new.1 fun _ => row
    (-1, d.setTable (table.removeRecord new.1).2)
  | .row row =>
    let new := d.table.getNewByKey2 account
    let table := new.2.modify new.1 fun _ => row
    let keyed := if row.roleId = 0 then (true, table) else table.insertKeyRecord row.roleId new.1
    if keyed.1 = false then (-1, d.setTable keyed.2)
    else
      let sent := sendGetRoleResponse P (d.setTable keyed.2) row connId
      if sent.1 < 0 then (-1, sent.2) else (0, sent.2)

end DBResCBFuncs

namespace DbGameHandler

open DBResCBFuncs

variable (P : Protocol)

def processConnectDBRequest (d : DB) (info : JmyMsgInfo) : ℤ × DB :=
  if d.hasAgent info.connId then (-1, d)
  else match P.connectDBRequest.parse info.data with
  | none => (-1, d)
  | some gameId =>
    let made := d.newAgent gameId
    if made.1 = false then (-1, made.2)
    else match P.connectDBResponse.serializeToArray maxMsgSize () with
    | none => (-1, made.2)
    | some tmp =>
      let sent := made.2.agentSend MsgId.ds2gsConnectDBResponse tmp
      if sent.1 < 0 then (-1, sent.2) else (info.len, sent.2)

/-- `processGetRole`; `selected` is the result of the select, whose answer comes later. -/
def processGetRole (selected : Bool) (d : DB) (info : JmyMsgInfo) : ℤ × DB :=
  match P.gs2dsGetRoleRequest.parse info.data with
  | none => (-1, d)
  | some account =>
    match d.table.getByKey2 account with
    | none =>
      if selected = false then (-1, d)
      else (info.len, { d with selecting := d.selecting ++ [(account, info.connId)] })
    | some user =>
      let sent := sendGetRoleResponse P d (d.table.recs user) info.connId
      if sent.1 < 0 then (-1, sent.2) else (info.len, sent.2)

/-- `processCreateRole` at a time. A role that is there already is no error. -/
def processCreateRole (time : ℕ) (d : DB) (info : JmyMsgInfo) : ℤ × DB :=
  if d.gameUp = false then (-1, d)
  else match P.gs2dsCreateRoleRequest.parse info.data with
  | none => (-1, d)
  | some request =>
    match d.table.getByKey2 request.account with
    | some _ => (0, d)
    | none =>
      let gen := d.genUniqueRoleId (d.agent.getD 0) time
      let new := gen.2.table.getNewByKeyAndKey2 gen.1 request.account
      match new.2.getByKey gen.1 with
      | none => (-1, gen.2.setTable new.2)
      | some _ =>
        let table := new.2.modify new.1 fun user => { user with
          roleId := gen.1, account := request.account, sex := request.sex, nickName := request.nickName }
        let committed := table.commitInsertRequest new.1
        let d₁ := gen.2.setTable committed.2
        if committed.1 = false then (-1, d₁)
        else match P.ds2gsCreateRoleResponse.serializeToArray maxMsgSize
          ⟨request.account, ⟨gen.1, request.nickName, request.race, request.sex, 0, 0⟩⟩ with
        | none => (-1, d₁)
        | some tmp =>
          let sent := d₁.gameConnSend MsgId.ds2gsCreateRoleResponse tmp
          if sent.1 < 0 then (-1, sent.2) else (info.len, sent.2)

def processSetRoleData (d : DB) (info : JmyMsgInfo) : ℤ × DB :=
  if d.gameUp = false then (-1, d)
  else match P.gs2dsSetRoleDataRequest.parse info.data with
  | none => (-1, d)
  | some request =>
    match d.table.getByKey request.roleId with
    | none => (-1, d)
    | some p =>
      let table := d.table.modify p fun user =>
        { user with sex := request.roleData.sex, level := request.roleData.level }
      let d₁ := d.setTable (table.commitUpdateRequestByKey request.roleId).2
      match P.ds2gsSetRoleDataResponse.serializeToArray maxMsgSize
        ⟨0, ⟨0, [], 0, request.roleData.sex, 0, request.roleData.level⟩⟩ with
      | none => (-1, d₁)
      | some tmp =>
        let sent := d₁.gameConnSend MsgId.ds2gsSetRoleDataResponse tmp
        if sent.1 < 0 then (-1, sent.2) else (info.len, sent.2)

def processAddItem (d : DB) (info : JmyMsgInfo) : ℤ × DB :=
  if d.gameUp = false then (-1, d)
  else match P.addItemRequest.parse info.data with
  | none => (-1, d)
  | some request =>
    match d.table.getByKey request.roleId with
    | none => (-1, d)
    | some p =>
      let table := d.table.modify p fun user => { user with
        items := Function.update user.items request.typeId
          (some ((user.items request.typeId).getD 0 + request.itemNum)) }
      let d₁ := d.setTable (table.commitUpdateRequest p).2
      match P.addItemResponse.serializeToArray maxMsgSize request with
      | none => (-1, d₁)
      | some tmp =>
        let sent := d₁.gameConnSend MsgId.ds2gsAddItemResponse tmp
        if sent.1 < 0 then (-1, sent.2) else (info.len, sent.2)

def processDefault (d : DB) (info : JmyMsgInfo) : ℤ × DB :=
  if info.msgId = MsgId.gs2dsSetRoleDataRequest then processSetRoleData P d info
  else if info.msgId = MsgId.gs2dsAddItemRequest then processAddItem P d info
  else (info.len, d)

/-- The handlers of `s_game_handlers`. -/
def handle (selected : Bool) (time : ℕ) (d : DB) (info : JmyMsgInfo) : ℤ × DB :=
  if info.msgId = MsgId.gs2dsConnectDBRequest then processConnectDBRequest P d info
  else if info.msgId = MsgId.gs2dsGetRoleRequest then processGetRole P selected d info
  else if info.msgId = MsgId.gs2dsCreateRoleRequest then processCreateRole P time d info
  else processDefault P d info

end DbGameHandler

end JmyGame
