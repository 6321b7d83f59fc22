import JmyGame.GateHandlers
import JmyGame.GamePlayers

/-! The game server: its links to the gate and to the db server, the commands of `GmManager` and the
message handlers of `ConnGateHandler` and `ConnDBHandler`. A handler answers its result and the server
it leaves; the ones that can read a parameter that a client has not given answer nothing then. -/

namespace JmyGame

open CArith

/-- What the game server reads from its configuration: its id, and the `max_count` of the items. -/
structure GameConfig where
  id : ℤ
  itemTable : BitVec 32 → Option ℤ

/-- The game server. `gateUp` and `dbUp` say whether its connections are connected, `gateConn` and
`dbConn` whether `GlobalData` knows them; `toGate` and `toDB` are what they have still to deliver. -/
structure Game where
  mgr : PlayerManager
  gateUp : Bool
  gateConn : Bool
  toGate : List Packet
  dbUp : Bool
  dbConn : Bool
  toDB : List Packet

namespace Game

def start : Game := ⟨.empty, false, false, [], false, false, []⟩

variable (s : Game)

/-- `send(msg_id, data, len)` on the connection to the gate. -/
def gateConnSend (msgId : MsgId) (data : List Byte) : ℤ × Game :=
  if s.gateUp ∧ sendTakes msgId data then
    (data.length, { s with toGate := s.toGate ++ [⟨none, msgId, short data⟩] })
  else (-1, s)

/-- `send(user_id, msg_id, data, len)` on the connection to the gate. -/
def gateConnSendUser (userId : BitVec 32) (msgId : MsgId) (data : List Byte) : ℤ × Game :=
  if s.gateUp ∧ sendUserTakes userId msgId (short data) then
    ((short data).length, { s with toGate := s.toGate ++ [⟨some userId, msgId, short data⟩] })
  else (-1, s)

/-- `sendGate(msg_id, data, len)`. -/
def sendGate (msgId : MsgId) (data : List Byte) : ℤ × Game :=
  if s.gateConn then s.gateConnSend msgId (short data) else (-1, s)

/-- `sendGate(user_id, msg_id, data, len)`. -/
def sendGateUser (userId : BitVec 32) (msgId : MsgId) (data : List Byte) : ℤ × Game :=
  if s.gateConn then s.gateConnSendUser userId msgId data else (-1, s)

/-- `send(msg_id, data, len)` on the connection to the db server. -/
def dbConnSend (msgId : MsgId) (data : List Byte) : ℤ × Game :=
  if s.dbUp ∧ sendTakes msgId data then
    (data.length, { s with toDB := s.toDB ++ [⟨none, msgId, short data⟩] })
  else (-1, s)

/-- `sendDB(msg_id, data, len)`. -/
def sendDB (msgId : MsgId) (data : List Byte) : ℤ × Game :=
  if s.dbConn then s.dbConnSend msgId (short data) else (-1, s)

/-- `send_gate` of a player, whose result is a truth value. -/
def sendGatePlayer (obj : ℕ) (msgId : MsgId) (data : List Byte) : ℤ × Game :=
  let userId := (s.mgr.objs obj).userId
  if userId = 0 then (0, s)
  else
    let sent := s.sendGateUser (BitVec.ofInt 32 userId) msgId data
    (if sent.1 < 0 then 1 else 0, sent.2)

/-- `force_close` of the connection to the gate, with `ConnGateHandler::onDisconnect`. -/
def closeGate : Game := { s with gateUp := false, gateConn := false }

/-- `force_close` of the connection to the db server, with `ConnDBHandler::onDisconnect`. -/
def closeDB : Game := { s with dbUp := false, dbConn := false }

/-- `run` closes the link to the gate after a handler with a negative result. -/
def closeGateOnError (r : ℤ × Game) : Game := if r.1 < 0 then r.2.closeGate else r.2

/-- `run` closes the link to the db server after a handler with a negative result. -/
def closeDBOnError (r : ℤ × Game) : Game := if r.1 < 0 then r.2.closeDB else r.2

/-- `PLAYER_MGR->` with an operation that changes the players. -/
def setMgr (mgr : PlayerManager) : Game := { s with mgr := mgr }

end Game

/-- The value of the digits at the front. -/
def digitsValue : ℕ → Str → ℕ
  | acc, [] => acc
  | acc, c :: cs => if 48 ≤ c.toNat ∧ c.toNat ≤ 57 then digitsValue (acc * 10 + (c.toNat - 48)) cs else acc

/-- `isspace`. -/
def isSpace (c : Byte) : Bool := c.toNat = 32 ∨ 9 ≤ c.toNat ∧ c.toNat ≤ 13

/-- `strtoul` with base 10. A number that is too large gives `ULONG_MAX`. -/
def strtoul (s : Str) : BitVec 64 :=
  let value (digits : Str) (negate : Bool) : BitVec 64 :=
    let n := digitsValue 0 digits
    if 2 ^ 64 ≤ n then BitVec.ofNat 64 (2 ^ 64 - 1)
    else if negate then -BitVec.ofNat 64 n else BitVec.ofNat 64 n
  match s.dropWhile isSpace with
  | [] => 0
  | c :: cs => if c = 45 then value cs true else if c = 43 then value cs false else value (c :: cs) false

namespace GmManager

/-- The word `/gm`. -/
def gm : Str := [47, 103, 109]

/-- The commands of `gm_cmds`. -/
inductive GmCommand where
  | addItem
  | rmItem
  | levelUp
  | other
  deriving DecidableEq

/-- `cmd_map_`; `setlevel`, `addexp` and `newmail` do nothing. -/
def find (cmd : Str) : Option GmCommand :=
  if cmd = [97, 100, 100, 105, 116, 101, 109] then some .addItem
  else if cmd = [114, 109, 105, 116, 101, 109] then some .rmItem
  else if cmd = [108, 101, 118, 101, 108, 117, 112] then some .levelUp
  else if cmd = [115, 101, 116, 108, 101, 118, 101, 108] ∨ cmd = [97, 100, 100, 101, 120, 112] ∨
    cmd = [110, 101, 119, 109, 97, 105, 108] then some .other
  else none

/-- `parse_command`: the words, when the text is a command. -/
def parseCommand (command : Str) : Option (List Str) :=
  let results := List.splitOn (32 : Byte) command
  if results.length ≤ 1 then none
  else if results.head? ≠ some gm then none
  else some results

variable (P : Protocol) (config : GameConfig)

/-- The common end of `gm_add_item` and `gm_rm_item`: the items that are left go to the db server. -/
def sendItem (s : Game) (obj : ℕ) (msgId : MsgId) (codec : Codec MsgItem) (item : MsgItem)
    (items : Option ItemMgr) : ℤ × Game :=
  match items with
  | none => (-1, s)
  | some items =>
    let s₁ := s.setMgr (s.mgr.modify obj fun p => { p with items := items })
    match codec.serializeToArray 128 item with
    | none => (-1, s₁)
    | some tmp =>
      let sent := s₁.sendDB msgId tmp
      if sent.1 < 0 then (-1, sent.2) else (0, sent.2)

/-- `gm_add_item`. The parameters are read without a check that they are there. -/
def gmAddItem (s : Game) (roleId : BitVec 64) (params : List Str) : Option (ℤ × Game) :=
  match params[2]?, params[3]? with
  | some p₂, some p₃ =>
    let typeId := (strtoul p₂).truncate 32
    let itemNum := (strtoul p₃).truncate 32
    some (match s.mgr.getByRoleId roleId with
    | none => (-1, s)
    | some obj => sendItem s obj MsgId.gs2dsAddItemRequest P.addItemRequest ⟨roleId, typeId, itemNum⟩
        ((s.mgr.objs obj).items.addItem config.itemTable typeId itemNum))
  | _, _ => none

/-- `gm_rm_item`. -/
def gmRmItem (s : Game) (roleId : BitVec 64) (params : List Str) : Option (ℤ × Game) :=
  match params[2]?, params[3]? with
  | some p₂, some p₃ =>
    let typeId := (strtoul p₂).truncate 32
    let itemNum := (strtoul p₃).truncate 32
    some (match s.mgr.getByRoleId roleId with
    | none => (-1, s)
    | some obj => sendItem s obj MsgId.gs2dsRmItemRequest P.rmItemRequest ⟨roleId, typeId, itemNum⟩
        ((s.mgr.objs obj).items.rmItem typeId itemNum))
  | _, _ => none

/-- `gm_levelup`. -/
def gmLevelup (s : Game) (roleId : BitVec 64) (params : List Str) : Option (ℤ × Game) :=
  match params[2]? with
  | none => none
  | some p₂ =>
    let level := ((strtoul p₂).truncate 32 : BitVec 32).toInt
    some (match s.mgr.getByRoleId roleId with
    | none => (-1, s)
    | some obj => (0, s.setMgr (s.mgr.modify obj fun p => { p with level := level })))

/-- `execute_command`, on words that `parse_command` found. -/
def executeCommand (s : Game) (roleId : BitVec 64) (results : List Str) : Option (Bool × Game) :=
  match results[1]?.bind find with
  | none => some (false, s)
  | some .addItem => (gmAddItem P config s roleId results).map fun r => (0 ≤ r.1, r.2)
  | some .rmItem => (gmRmItem P s roleId results).map fun r => (0 ≤ r.1, r.2)
  | some .levelUp => (gmLevelup s roleId results).map fun r => (0 ≤ r.1, r.2)
  | some .other => some (true, s)

end GmManager

namespace ConnGateHandler

variable (P : Protocol) (config : GameConfig)

/-- `onConnect`, which introduces the game server to the gate. -/
def onConnect (s : Game) : ℤ × Game :=
  match P.connectGateRequest.serializeToArray maxMsgSize config.id with
  | none => (-1, s)
  | some tmp =>
    let sent := s.gateConnSend MsgId.gs2gtConnectGateRequest tmp
    if sent.1 < 0 then (-1, sent.2) else (0, sent.2)

def processConnectGateResponse (s : Game) (info : JmyMsgInfo) : ℤ × Game :=
  if s.gateUp = false then (-1, s)
  else match P.connectGateResponse.parse info.data with
  | none => (-1, s)
  | some response =>
    let made := s.mgr.init response.startUserId response.maxUserCount
    if made.1 = false then (-1, s.setMgr made.2)
    else (info.len, { s.setMgr made.2 with gateConn := true })

def processGetRole (s : Game) (info : JmyMsgInfo) : ℤ × Game :=
  match P.gt2gsGetRoleRequest.parse info.data with
  | none => (-1, s)
  | some account =>
    match P.gs2dsGetRoleRequest.serializeToArray maxMsgSize account with
    | none => (-1, s)
    | some tmp =>
      let sent := s.sendDB MsgId.gs2dsGetRoleRequest tmp
      if sent.1 < 0 then (-1, sent.2) else (info.len, sent.2)

def processCreateRole (s : Game) (info : JmyMsgInfo) : ℤ × Game :=
  match P.gt2gsCreateRoleRequest.parse info.data with
  | none => (-1, s)
  | some request =>
    match P.gs2dsCreateRoleRequest.serializeToArray maxMsgSize request with
    | none => (-1, s)
    | some tmp =>
      let sent := s.sendDB MsgId.gs2dsCreateRoleRequest tmp
      if sent.1 < 0 then (-1, sent.2) else (info.len, sent.2)

/-- The player of a user that enters the game: the one that the user id has, else a new one. -/
def enterPlayer (s : Game) (userId : ℤ) (roleId : BitVec 64) : Game :=
  match s.mgr.get userId with
  | none => s.setMgr (s.mgr.malloc userId roleId)
  | some _ => s

/-- `processEnterGame`. The complete notify carries the bytes of the response. -/
def processEnterGame (s : Game) (info : JmyMsgInfo) : ℤ × Game :=
  match P.enterGameRequest.parse info.data with
  | none => (-1, s)
  | some roleId =>
    if info.userId.toInt ≤ 0 then (-1, s)
    else
      let s₁ := enterPlayer s info.userId.toInt roleId
      match P.s2cEnterGameResponse.serializeToArray maxMsgSize () with
      | none => (-1, s₁)
      | some tmp =>
        let sent := s₁.sendGateUser info.userId MsgId.s2cEnterGameResponse tmp
        if sent.1 < 0 then (-1, sent.2)
        else
          let sent' := sent.2.sendGateUser info.userId MsgId.s2cEnterGameCompleteNotify tmp
          if sent'.1 < 0 then (-1, sent'.2) else (info.len, sent'.2)

/-- `processLeaveGame`. The role id of the request goes to `free`, which takes a user id. -/
def processLeaveGame (s : Game) (info : JmyMsgInfo) : ℤ × Game :=
  match P.leaveGameRequest.parse info.data with
  | none => (-1, s)
  | some roleId =>
    match s.mgr.get info.userId.toInt with
    | none => (-1, s)
    | some _ => (info.len, s.setMgr (s.mgr.free (roleId.truncate 32 : BitVec 32).toInt).2)

def processChat (s : Game) (info : JmyMsgInfo) : Option (ℤ × Game) :=
  if s.gateUp = false then some (-1, s)
  else match P.chatRequest.parse info.data with
  | none => some (-1, s)
  | some request =>
    match GmManager.parseCommand request.content with
    | some results =>
      match s.mgr.get info.userId.toInt with
      | none => some (0, s)
      | some obj => (GmManager.executeCommand P config s (s.mgr.objs obj).roleId results).map fun r =>
        (if r.1 then (info.len : ℤ) else 0, r.2)
    | none => some (
      match P.chatResponse.serializeToArray maxMsgSize request with
      | none => (-1, s)
      | some tmp =>
        let sent := s.gateConnSendUser info.userId MsgId.s2cChatResponse tmp
        if sent.1 < 0 then (-1, sent.2)
        else match sent.2.mgr.getByRoleId request.roleId with
        | none => (0, sent.2)
        | some obj =>
          match P.chatNotify.serializeToArray maxMsgSize ⟨[], request.chatType, request.channel, 0⟩ with
          | none => (-1, sent.2)
          | some tmp =>
            let sent' := sent.2.sendGatePlayer obj MsgId.s2cChatNotify tmp
            if sent'.1 < 0 then (-1, sent'.2) else (info.len, sent'.2))

/-- `processSetRoleData`. -/
def processSetRoleData (s : Game) (info : JmyMsgInfo) : ℤ × Game :=
  match P.setRoleDataRequest.parse info.data with
  | none => (-1, s)
  | some d =>
    match P.gs2dsSetRoleDataRequest.serializeToArray maxMsgSize
      ⟨s.mgr.getRoleIdByUserId info.userId.toInt, ⟨0, [], d.race, d.sex, d.hp, d.level⟩⟩ with
    | none => (-1, s)
    | some tmp =>
      let sent := s.sendDB MsgId.gs2dsSetRoleDataRequest tmp
      if sent.1 < 0 then (-1, sent.2) else (info.len, sent.2)

def processDefault (s : Game) (info : JmyMsgInfo) : Option (ℤ × Game) :=
  if info.msgId = MsgId.c2sChatRequest then processChat P config s info
  else if info.msgId = MsgId.c2sSetRoleDataRequest then some (processSetRoleData P s info)
  else some (info.len, s)

/-- The handlers of `s_conn_gate_handlers`. -/
def handle (s : Game) (info : JmyMsgInfo) : Option (ℤ × Game) :=
  if info.msgId = MsgId.gt2gsConnectGateResponse then some (processConnectGateResponse P s info)
  else if info.msgId = MsgId.gt2gsGetRoleRequest then some (processGetRole P s info)
  else if info.msgId = MsgId.gt2gsCreateRoleRequest then some (processCreateRole P s info)
  else if info.msgId = MsgId.gt2gsEnterGameRequest then some (processEnterGame P s info)
  else if info.msgId = MsgId.gt2gsLeaveGameRequest then some (processLeaveGame P s info)
  else processDefault P config s info

end ConnGateHandler

namespace ConnDBHandler

variable (P : Protocol) (config : GameConfig)

/-- `onConnect`, which introduces the game server to the db server. -/
def onConnect (s : Game) : ℤ × Game :=
  match P.connectDBRequest.serializeToArray maxMsgSize config.id with
  | none => (-1, s)
  | some tmp =>
    let sent := s.dbConnSend MsgId.gs2dsConnectDBRequest tmp
    if sent.1 < 0 then (-1, sent.2) else (0, sent.2)

def processConnectDBResponse (s : Game) (info : JmyMsgInfo) : ℤ × Game :=
  match P.connectDBResponse.parse info.data with
  | none => (-1, s)
  | some _ => if s.dbUp = false then (-1, s) else (info.len, { s with dbConn := true })

/-- The common body of `processGetRoleResponse` and `processCreateRoleResponse`. -/
def passRole (parser codec : Codec MsgRoleResponse) (msgId : MsgId) (s : Game) (info : JmyMsgInfo) :
    ℤ × Game :=
  match parser.parse info.data with
  | none => (-1, s)
  | some response =>
    let d := response.roleData
    match codec.serializeToArray maxMsgSize
      ⟨response.account, ⟨d.roleId, d.nickName, d.race, d.sex, 0, 0⟩⟩ with
    | none => (-1, s)
    | some tmp =>
      let sent := s.sendGate msgId tmp
      if sent.1 < 0 then (-1, sent.2) else (info.len, sent.2)

def processGetRoleResponse : Game → JmyMsgInfo → ℤ × Game :=
  passRole P.ds2gsGetRoleResponse P.gs2gtGetRoleResponse MsgId.gs2gtGetRoleResponse

def processCreateRoleResponse : Game → JmyMsgInfo → ℤ × Game :=
  passRole P.ds2gsCreateRoleResponse P.gs2gtCreateRoleResponse MsgId.gs2gtCreateRoleResponse

def processDefault (s : Game) (info : JmyMsgInfo) : ℤ × Game := (info.len, s)

/-- The handlers of `s_conn_db_handlers`. -/
def handle (s : Game) (info : JmyMsgInfo) : ℤ × Game :=
  if info.msgId = MsgId.ds2gsConnectDBResponse then processConnectDBResponse P s info
  else if info.msgId = MsgId.ds2gsGetRoleResponse then processGetRoleResponse P s info
  else if info.msgId = MsgId.ds2gsCreateRoleResponse then processCreateRoleResponse P s info
  else processDefault s info

end ConnDBHandler

end JmyGame
