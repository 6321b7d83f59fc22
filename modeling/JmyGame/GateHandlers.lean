import JmyGame.LibMachine
import JmyGame.GateClients

/-! The gate server: its client connections, its link to the game server and the message handlers of
`ClientHandler` and `GameHandler`. A connection is known by its id and has the state of its
`JmyTcpConnection`; a connection that `run_conns` has freed has none. A handler answers its result and
the gate it leaves. The field `trace` records what happened and is read by no handler. -/

namespace JmyGame

open CArith

/-- What the gate does for others to see: it gives a slot to an account, gets a role response for an
account, and sends messages to clients and to the game server. -/
inductive GateObs where
  | alloc (p : ℤ) (account : Str)
  | role (account : Str) (roleId : BitVec 64)
  | toClient (connId : ℤ) (msgId : MsgId) (data : List Byte)
  | toGame (packet : Packet)
  deriving DecidableEq, Repr

/-- The gate. `gameAgent` is `the_game_id_` with its agent, `gameUp` says whether the connection to the
game server is connected, and `toGame` is what it has still to deliver. -/
structure Gate where
  mgr : ClientManager
  connState : ℤ → Option JmyConnState
  lastConn : ℤ
  maxConn : ℤ
  gameAgent : Option ℤ
  gameUp : Bool
  toGame : List Packet
  trace : List GateObs

/-- `DEFAULT_CLIENT_START_ID`. -/
def defaultClientStartId : ℤ := 100000

/-- The bytes that a length of type `unsigned short` covers. -/
def short (data : List Byte) : List Byte := data.take (data.length % 2 ^ 16)

theorem length_short_lt (data : List Byte) : (short data).length < 2 ^ 16 :=
  (List.length_take_le _ _).trans_lt (Nat.mod_lt _ (by decide))

theorem short_of_lt {data : List Byte} (h : data.length < 2 ^ 16) : short data = data := by
  rw [short, Nat.mod_eq_of_lt h, List.take_length]

theorem short_short (data : List Byte) : short (short data) = short data := short_of_lt (length_short_lt data)

namespace Gate

/-- A gate behind `init`, with its connection to the game server. -/
def start (maxConn : ℕ) : Gate where
  mgr := .init maxConn defaultClientStartId
  connState := fun _ => none
  lastConn := 0
  maxConn := maxConn
  gameAgent := none
  gameUp := true
  toGame := []
  trace := []

variable (g : Gate)

/-- The gate with what its removals read of erased nodes. -/
def reading (reads : ℕ → FreedReads) : Gate := { g with mgr := { g.mgr with reads := reads } }

def observe (o : GateObs) : Gate := { g with trace := g.trace ++ [o] }

def setConn (connId : ℤ) (state : Option JmyConnState) : Gate :=
  { g with connState := Function.update g.connState connId state }

/-- `JmyTcpConnection::send`. -/
def connSend (connId : ℤ) (msgId : MsgId) (data : List Byte) : ℤ × Gate :=
  if g.connState connId = some .connected ∧ sendTakes msgId data then
    (data.length, g.observe (.toClient connId msgId data))
  else (-1, g)

/-- `JmyTcpConnection::close`. The send list takes the disconnect packet. -/
def connClose (connId : ℤ) : Gate :=
  if g.connState connId = some .connected then g.setConn connId (some .disconnecting) else g

/-- `ClientHandler::onDisconnect`. -/
def onDisconnect (connId : ℤ) : Gate :=
  match g.connState connId with
  | none => g
  | some _ => { g with mgr := (g.mgr.removeByConnId connId).2 }

/-- `JmyTcpConnection::force_close`, which raises the disconnect event. -/
def connForceClose (connId : ℤ) : Gate :=
  match g.connState connId with
  | none => g
  | some .disconnected => g
  | some _ => (g.setConn connId (some .disconnected)).onDisconnect connId

/-- `get_connection` of a `ClientInfo`. -/
def clientConn (p : ℤ) : Option ℤ :=
  if (g.mgr.info p).hasMgr ∧ (g.connState (g.mgr.info p).connId).isSome then
    some (g.mgr.info p).connId
  else none

/-- `ClientInfo::send`. -/
def clientSend (p : ℤ) (msgId : MsgId) (data : List Byte) : ℤ × Gate :=
  if (g.mgr.info p).used = false then (-1, g)
  else match g.clientConn p with
  | none => (-1, g)
  | some connId => g.connSend connId msgId (short data)

/-- `ClientInfo::close`. -/
def clientClose (p : ℤ) : Gate :=
  if (g.mgr.info p).used = false then g
  else match g.clientConn p with
  | none => g
  | some connId =>
    let g₁ := g.connClose connId
    { g₁ with mgr := g₁.mgr.modifyInfo p fun ci => { ci with used := false } }

/-- `ClientInfo::force_close`. -/
def clientForceClose (p : ℤ) : Gate :=
  if (g.mgr.info p).used = false then g
  else match g.clientConn p with
  | none => g
  | some connId => g.connForceClose connId

/-- `ClientManager::newClient`: the slot of the account, or nothing. -/
def newClient (account : Str) : Option ℤ × Gate :=
  match g.mgr.accountIdBimap.find1 account with
  | some id =>
    match g.mgr.clientArray.get id with
    | none => (none, g)
    | some p =>
      let g₁ := g.clientForceClose p
      (some p, { g₁ with mgr := g₁.mgr.modifyInfo p fun ci => { ci with account := account } })
  | none =>
    match g.mgr.takeFree account with
    | none => (none, g)
    | some (p, m) =>
      (some p, { g.observe (.alloc p account) with
        mgr := m.modifyInfo p fun ci => { ci with account := account } })

/-- `sendGameMsg(msg_id, data, len)`. -/
def sendGameMsg (msgId : MsgId) (data : List Byte) : ℤ × Gate :=
  if g.gameAgent.isSome ∧ g.gameUp ∧ sendTakes msgId (short data) then
    ((short data).length, { g.observe (.toGame ⟨none, msgId, short data⟩) with
      toGame := g.toGame ++ [⟨none, msgId, short data⟩] })
  else (-1, g)

/-- `sendGameMsg(user_id, msg_id, data, len)`. -/
def sendGameUserMsg (userId : ℤ) (msgId : MsgId) (data : List Byte) : ℤ × Gate :=
  if g.gameAgent.isSome ∧ g.gameUp ∧ sendUserTakes (BitVec.ofInt 32 userId) msgId (short data) then
    ((short data).length,
      { g.observe (.toGame ⟨some (BitVec.ofInt 32 userId), msgId, short data⟩) with
        toGame := g.toGame ++ [⟨some (BitVec.ofInt 32 userId), msgId, short data⟩] })
  else (-1, g)

/-- `newGameAgent` for the one connection of the game server. -/
def newGameAgent (gameId : ℤ) : Bool × Gate :=
  if g.gameAgent.isSome then (false, g)
  else if gameId < gameServerMinId ∨ gameServerMaxId < gameId then (false, g)
  else (true, { g with gameAgent := some gameId })

/-- `force_close` of the connection to the game server, with `GameHandler::onDisconnect`. -/
def closeGame : Gate := { g with gameUp := false, gameAgent := none }

variable (P : Protocol)

/-- `send_error`. -/
def sendError (connId : ℤ) (error : ProtoErrorType) : Gate :=
  (g.connSend connId MsgId.error (P.error.serialize error.code)).2

end Gate

namespace ClientHandler

open Gate

variable (P : Protocol)

/-- The kick of a client that is there already. -/
def kick (g : Gate) : Option ℤ → Gate
  | none => g
  | some p => g.clientForceClose p

/-- The connection that a client gets with its slot. -/
def bindConn (g : Gate) (connId p : ℤ) : Gate :=
  { g with mgr := (g.mgr.insertConnIdId connId (g.mgr.info p).id).2.modifyInfo p fun ci =>
    { ci with connId := connId, hasMgr := true } }

def processGetRoleRequest (time : ℤ) (g : Gate) (info : JmyMsgInfo) : ℤ × Gate :=
  match g.connState info.connId with
  | none => (-1, g)
  | some _ =>
    match P.c2sGetRoleRequest.parse info.data with
    | none => (-1, g)
    | some request =>
      let g₁ := kick g (g.mgr.getClientInfoByAccount request.account)
      let check := g₁.mgr.checkSessionByAccount time request.account request.enterSession
      let g₂ := { g₁ with mgr := check.2 }
      if check.1 = false then (-1, g₂.sendError P info.connId .loginAccountOrPasswordInvalid)
      else match g₂.newClient request.account with
      | (none, g₃) => (-1, g₃.sendError P info.connId .enterGameInvalidAccount)
      | (some p, g₃) =>
        if g₃.maxConn ≤ g₃.mgr.clientArray.getUsedSize then
          (-1, (g₃.sendError P info.connId .enterGamePlayerCountMaximum).clientClose p)
        else
          let g₄ := bindConn g₃ info.connId p
          match P.gt2gsGetRoleRequest.serializeToArray maxMsgSize (g₄.mgr.info p).account with
          | none => (-1, g₄)
          | some _ =>
            let sent := g₄.sendGameMsg MsgId.gt2gsGetRoleRequest info.data
            if sent.1 < 0 then (-1, sent.2) else (info.len, sent.2)

def processCreateRoleRequest (g : Gate) (info : JmyMsgInfo) : ℤ × Gate :=
  match g.connState info.connId with
  | none => (-1, g)
  | some _ =>
    match g.mgr.getClientInfoByConnId info.connId with
    | none => (-1, g)
    | some p =>
      match P.c2sCreateRoleRequest.parse info.data with
      | none => (-1, g)
      | some request =>
        match P.gt2gsCreateRoleRequest.serializeToArray maxMsgSize
          ⟨(g.mgr.info p).account, request.nickName, request.sex, request.race⟩ with
        | none => (-1, g)
        | some tmp => (info.len, (g.sendGameMsg MsgId.gt2gsCreateRoleRequest tmp).2)

def processEnterGameRequest (g : Gate) (info : JmyMsgInfo) : ℤ × Gate :=
  match g.connState info.connId with
  | none => (-1, g)
  | some _ =>
    match g.mgr.getClientInfoByConnId info.connId with
    | none => (-1, g)
    | some p =>
      if (g.mgr.info p).currRoleId = 0 then
        (-1, g.sendError P info.connId .enterGameInvalidAccount)
      else match P.enterGameRequest.serializeToArray maxMsgSize (g.mgr.info p).currRoleId with
      | none => (-1, g)
      | some tmp =>
        (info.len, (g.sendGameUserMsg (g.mgr.info p).id MsgId.gt2gsEnterGameRequest tmp).2)

/-- `processLeaveGameRequest`. The role id of the request is never set. -/
def processLeaveGameRequest (g : Gate) (info : JmyMsgInfo) : ℤ × Gate :=
  match g.mgr.getClientInfoByConnId info.connId with
  | none => (-1, g)
  | some p =>
    let g₁ := g.clientClose p
    match P.leaveGameRequest.serializeToArray maxMsgSize 0 with
    | none => (-1, g₁)
    | some tmp =>
      let sent := g₁.sendGameUserMsg (g₁.mgr.info p).id MsgId.gt2gsLeaveGameRequest tmp
      if sent.1 < 0 then (-1, sent.2) else (info.len, sent.2)

/-- `processReconnectRequest`; `session` is the new session code. -/
def processReconnectRequest (session : Str) (g : Gate) (info : JmyMsgInfo) : ℤ × Gate :=
  match P.c2sReconnectRequest.parse info.data with
  | none => (-1, g)
  | some request =>
    match g.connState info.connId with
    | none => (-1, g)
    | some _ =>
      match g.mgr.getClientInfoByAccount request.account with
      | none => (-1, g.sendError P info.connId .reconnAccountNotFound)
      | some p =>
        let g₁ := if g.clientConn p = some info.connId then g else g.clientForceClose p
        let g₂ := { g₁ with mgr := g₁.mgr.modifyInfo p fun ci => { ci with reconnSession := session } }
        match P.s2cReconnectResponse.serializeToArray maxMsgSize session with
        | none => (-1, g₂.sendError P info.connId .reconnFailed)
        | some tmp =>
          let sent := g₂.connSend info.connId MsgId.s2cReconnectResponse tmp
          if sent.1 < (0 : ℤ) then (-1, sent.2) else (info.len, sent.2)

def processDefault (g : Gate) (info : JmyMsgInfo) : ℤ × Gate :=
  match g.connState info.connId with
  | none => (-1, g)
  | some _ =>
    let id := g.mgr.getIdByConnId info.connId
    if id = 0 then (-1, g.sendError P info.connId .serverInternalError)
    else
      let sent := g.sendGameUserMsg id info.msgId info.data
      if sent.1 < 0 then (info.len, sent.2.sendError P info.connId .serverInternalError)
      else (info.len, sent.2)

/-- The handlers of `s_client_handlers`. -/
def handle (time : ℤ) (session : Str) (g : Gate) (info : JmyMsgInfo) : ℤ × Gate :=
  if info.msgId = MsgId.c2sGetRoleRequest then processGetRoleRequest P time g info
  else if info.msgId = MsgId.c2sCreateRoleRequest then processCreateRoleRequest P g info
  else if info.msgId = MsgId.c2sEnterGameRequest then processEnterGameRequest P g info
  else if info.msgId = MsgId.c2sLeaveGameRequest then processLeaveGameRequest P g info
  else if info.msgId = MsgId.c2sReconnectRequest then processReconnectRequest P session g info
  else processDefault P g info

end ClientHandler

namespace GateGameHandler

open Gate

variable (P : Protocol)

def processConnectGateRequest (g : Gate) (info : JmyMsgInfo) : ℤ × Gate :=
  match P.connectGateRequest.parse info.data with
  | none => (-1, g)
  | some gameId =>
    let made := g.newGameAgent gameId
    if made.1 = false then (-1, made.2)
    else match P.connectGateResponse.serializeToArray maxMsgSize
      ⟨made.2.maxConn, made.2.mgr.clientArray.startId⟩ with
    | none => (-1, made.2)
    | some tmp =>
      let sent := made.2.sendGameMsg MsgId.gt2gsConnectGateResponse tmp
      if sent.1 < 0 then (-1, sent.2) else (info.len, sent.2)

/-- `processGetRoleResponse`; `session` is the new session code. The bytes that go to the client are
those of the response of the game server. -/
def processGetRoleResponse (session : Str) (g : Gate) (info : JmyMsgInfo) : ℤ × Gate :=
  match P.gs2gtGetRoleResponse.parse info.data with
  | none => (-1, g)
  | some response =>
    let g₀ := g.observe (.role response.account response.roleData.roleId)
    match g₀.mgr.getClientInfoByAccount response.account with
    | none => (-1, g₀)
    | some p =>
      if response.roleData.roleId = 0 then
        match P.error.serializeToArray maxMsgSize ProtoErrorType.getRoleNone.code with
        | none => (-1, g₀)
        | some tmp =>
          let sent := g₀.clientSend p MsgId.error tmp
          if sent.1 < 0 then (-1, sent.2) else (info.len, sent.2)
      else
        let g₁ := { g₀ with mgr := g₀.mgr.modifyInfo p fun ci => { ci with reconnSession := session } }
        match P.gs2gtGetRoleResponse.serializeToArray maxMsgSize response with
        | none => (-1, g₁)
        | some tmp =>
          let sent := g₁.clientSend p MsgId.s2cGetRoleResponse tmp
          if sent.1 < 0 then (-1, sent.2)
          else (info.len, { sent.2 with
            mgr := sent.2.mgr.modifyInfo p fun ci => ci.setRole response.roleData.roleId })

def processCreateRoleResponse (g : Gate) (info : JmyMsgInfo) : ℤ × Gate :=
  match P.gs2gtCreateRoleResponse.parse info.data with
  | none => (-1, g)
  | some response =>
    let g₀ := g.observe (.role response.account response.roleData.roleId)
    match g₀.mgr.getClientInfoByAccount response.account with
    | none => (-1, g₀)
    | some p =>
      let g₁ := { g₀ with
        mgr := g₀.mgr.modifyInfo p fun ci => ci.setRole response.roleData.roleId }
      match P.s2cCreateRoleResponse.serializeToArray maxMsgSize
        ⟨response.roleData.roleId, response.roleData.nickName, response.roleData.race,
          response.roleData.sex, 0, 0⟩ with
      | none => (-1, g₁)
      | some tmp =>
        let sent := g₁.clientSend p MsgId.s2cCreateRoleResponse tmp
        if sent.1 < 0 then (-1, sent.2) else (info.len, sent.2)

/-- `processDefault`, on the connection of the game server. -/
def processDefault (g : Gate) (info : JmyMsgInfo) : ℤ × Gate :=
  if g.gameUp = false then (-1, g)
  else if info.userId = 0 then (-1, g)
  else match g.mgr.getClientInfo info.userId.toInt with
  | none => (-1, g)
  | some p =>
    let sent := g.clientSend p info.msgId info.data
    if sent.1 < 0 then (-1, sent.2) else (info.len, sent.2)

/-- The handlers of `s_game_handlers`. -/
def handle (session : Str) (g : Gate) (info : JmyMsgInfo) : ℤ × Gate :=
  if info.msgId = MsgId.gs2gtConnectGateRequest then processConnectGateRequest P g info
  else if info.msgId = MsgId.gs2gtGetRoleResponse then processGetRoleResponse P session g info
  else if info.msgId = MsgId.gs2gtCreateRoleResponse then processCreateRoleResponse P g info
  else processDefault g info

end GateGameHandler

/-- What happens at the gate. Connections are accepted, closed for any reason, marked connected again
by `start_recv` and freed; messages come from clients and from the game server with the time and the
session code that their handlers get; the login server grants sessions. -/
inductive GateEvent where
  | connect
  | drop (connId : ℤ)
  | revive (connId : ℤ)
  | release (connId : ℤ)
  | session (time : ℤ) (account session : Str)
  | client (time : ℤ) (session : Str) (connId : ℤ) (msgId : MsgId) (data : List Byte)
  | game (session : Str) (userId : BitVec 32) (msgId : MsgId) (data : List Byte)

namespace Gate

/-- `run` closes a connection after a handler with a negative result. -/
def closeOnError (connId : ℤ) (r : ℤ × Gate) : Gate := if r.1 < 0 then r.2.connForceClose connId else r.2

/-- `run` closes the link to the game server after a handler with a negative result. -/
def closeGameOnError (r : ℤ × Gate) : Gate := if r.1 < 0 then r.2.closeGame else r.2

/-- A message of a client. -/
def onClient (P : Protocol) (g : Gate) (time : ℤ) (session : Str) (connId : ℤ) (msgId : MsgId)
    (data : List Byte) : ℤ × Gate :=
  ClientHandler.handle P time session g ⟨0, msgId, data, data.length, connId⟩

/-- A message of the game server. -/
def onGame (P : Protocol) (g : Gate) (session : Str) (userId : BitVec 32) (msgId : MsgId)
    (data : List Byte) : ℤ × Gate :=
  GateGameHandler.handle P session g ⟨userId, msgId, data, data.length, 0⟩

def step (P : Protocol) (g : Gate) : GateEvent → Option Gate
  | .connect => some { g.setConn (g.lastConn + 1) (some .connected) with lastConn := g.lastConn + 1 }
  | .drop connId => some (g.connForceClose connId)
  | .revive connId =>
    if (g.connState connId).isSome then some (g.setConn connId (some .connected)) else none
  | .release connId =>
    if g.connState connId = some .disconnected then some (g.setConn connId none) else none
  | .session time account session => some { g with mgr := g.mgr.newAccountSession time account session }
  | .client time session connId msgId data =>
    if (g.connState connId).isSome then
      some (closeOnError connId (g.onClient P time session connId msgId data))
    else none
  | .game session userId msgId data =>
    if g.gameUp then some (closeGameOnError (g.onGame P session userId msgId data)) else none

end Gate

def gateMachine (P : Protocol) : Machine Gate GateEvent := ⟨Gate.step P⟩

end JmyGame
