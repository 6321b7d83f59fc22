import JmyGame.LibMachine
import JmyGame.CommonAgents

/-! The login server: its client and gate connections, the agents of the clients and of the gates and the
handlers of `ClientHandler`, `GateHandler` and `ConnConfigHandler`. A handler answers its result and the
server it leaves. The field `trace` records what happened and is read by no handler. -/

namespace JmyGame

open CArith Protobuf

namespace MsgId

def c2sLoginRequest : MsgId := 10000
def s2cLoginResponse : MsgId := 10001
def c2sSelectServerRequest : MsgId := 10002
def s2cSelectServerResponse : MsgId := 10003
def c2sEchoRequest : MsgId := 19003
def gt2lsConnectLoginRequest : MsgId := 20000
def ls2gtConnectLoginResponse : MsgId := 20001
def ls2gtSelectedServerNotify : MsgId := 20002
def gt2lsSelectedServerResponse : MsgId := 20003

end MsgId

/-- The errors of `ProtoErrorType` that the login server has. -/
inductive LoginError where
  | repeated
  | dataInvalid
  | gameServerMaintenance
  deriving DecidableEq, Repr

def LoginError.code : LoginError → ℕ
  | .repeated => 102
  | .dataInvalid => 103
  | .gameServerMaintenance => 104

structure MsgLoginRequest where
  account : Str
  password : Str
  deriving DecidableEq, Repr

structure MsgServerInfo where
  id : ℤ
  name : Str
  isMaintenance : Bool
  isBusy : Bool
  deriving DecidableEq, Repr

structure MsgSelectServerResponse where
  sessionCode : Str
  serverIp : Str
  port : ℤ
  deriving DecidableEq, Repr

structure MsgConnectLoginRequest where
  gateServerId : ℤ
  gateServerIp : Str
  gateServerPort : ℤ
  deriving DecidableEq, Repr

structure MsgSelectedServerResponse where
  account : Str
  sessionCode : Str
  deriving DecidableEq, Repr

structure MsgGateConfData where
  name : Str
  id : ℤ
  ip : Str
  port : ℤ
  platform : Str
  channelCode : Str
  isBusy : Bool
  isMaintenance : Bool
  deriving DecidableEq, Repr

/-- The codecs of the messages of the login server. -/
structure LoginProtocol where
  error : Codec ℕ
  loginRequest : Codec MsgLoginRequest
  loginResponse : Codec (List MsgServerInfo)
  selectServerRequest : Codec ℤ
  selectServerResponse : Codec MsgSelectServerResponse
  echoRequest : Codec Str
  echoResponse : Codec Str
  connectLoginRequest : Codec MsgConnectLoginRequest
  connectLoginResponse : Codec ℤ
  selectedServerNotify : Codec Str
  selectedServerResponse : Codec MsgSelectedServerResponse
  connectConfigResponse : Codec (List MsgGateConfData)

namespace Wire

def loginRequest : Codec MsgLoginRequest :=
  ⟨fun bs => (decode bs).map fun fs => ⟨bytesOf fs 1, bytesOf fs 2⟩,
    fun m => encodeBytes 1 m.account ++ encodeBytes 2 m.password⟩

def serverInfo : Codec MsgServerInfo :=
  ⟨fun bs => (decode bs).map fun fs => ⟨int32Of fs 1, bytesOf fs 2, boolOf fs 3, boolOf fs 4⟩,
    fun m => encodeInt32 1 m.id ++ encodeBytes 2 m.name ++ encodeBool 3 m.isMaintenance ++
      encodeBool 4 m.isBusy⟩

/-- A message with one repeated field. -/
def repeated {α : Type} (c : Codec α) : Codec (List α) :=
  ⟨fun bs => (decode bs).bind fun fs => (messagesOf fs 1).mapM c.parse,
    fun ms => ms.flatMap fun m => encodeMessage 1 (c.serialize m)⟩

def selectServerResponse : Codec MsgSelectServerResponse :=
  ⟨fun bs => (decode bs).map fun fs => ⟨bytesOf fs 1, bytesOf fs 2, int32Of fs 3⟩,
    fun m => encodeBytes 1 m.sessionCode ++ encodeBytes 2 m.serverIp ++ encodeInt32 3 m.port⟩

def connectLoginRequest : Codec MsgConnectLoginRequest :=
  ⟨fun bs => (decode bs).bind fun fs => (string (bytesOf fs 2)).map fun ip =>
    ⟨int32Of fs 1, ip, int32Of fs 3⟩,
    fun m => encodeInt32 1 m.gateServerId ++ encodeBytes 2 m.gateServerIp ++
      encodeInt32 3 m.gateServerPort⟩

def selectedServerResponse : Codec MsgSelectedServerResponse :=
  ⟨fun bs => (decode bs).bind fun fs => (string (bytesOf fs 1)).bind fun account =>
    (string (bytesOf fs 2)).map fun code => ⟨account, code⟩,
    fun m => encodeBytes 1 m.account ++ encodeBytes 2 m.sessionCode⟩

def gateConfData : Codec MsgGateConfData :=
  ⟨fun bs => (decode bs).bind fun fs => (string (bytesOf fs 3)).bind fun ip =>
    (string (bytesOf fs 5)).bind fun platform => (string (bytesOf fs 6)).map fun channelCode =>
      ⟨bytesOf fs 1, int32Of fs 2, ip, int32Of fs 4, platform, channelCode, boolOf fs 7, boolOf fs 8⟩,
    fun m => encodeBytes 1 m.name ++ encodeInt32 2 m.id ++ encodeBytes 3 m.ip ++ encodeInt32 4 m.port ++
      encodeBytes 5 m.platform ++ encodeBytes 6 m.channelCode ++ encodeBool 7 m.isBusy ++
      encodeBool 8 m.isMaintenance⟩

end Wire

/-- The protocol of the `.proto` files. -/
def loginWire : LoginProtocol where
  error := Wire.uint
  loginRequest := Wire.loginRequest
  loginResponse := Wire.repeated Wire.serverInfo
  selectServerRequest := Wire.int32
  selectServerResponse := Wire.selectServerResponse
  echoRequest := Wire.bytes
  echoResponse := Wire.bytes
  connectLoginRequest := Wire.connectLoginRequest
  connectLoginResponse := Wire.int32
  selectedServerNotify := Wire.account
  selectedServerResponse := Wire.selectedServerResponse
  connectConfigResponse := Wire.repeated Wire.gateConfData

/-- What the login server does for others to see: the disconnect event of a client connection comes, an
account logs in on a connection, and messages go to clients and to gates. -/
inductive LoginObs where
  | disconnect (connId : ℤ)
  | login (connId : ℤ) (account : Str)
  | toClient (connId : ℤ) (msgId : MsgId) (data : List Byte)
  | toGate (connId : ℤ) (msgId : MsgId) (data : List Byte)
  deriving DecidableEq, Repr

structure ClientData where
  gateId : ℤ
  deriving DecidableEq, Repr

instance : Inhabited ClientData := ⟨⟨0⟩⟩

structure GateData where
  id : ℤ
  ip : Str
  port : BitVec 16
  deriving DecidableEq, Repr

instance : Inhabited GateData := ⟨⟨0, [], 0⟩⟩

/-- `GATE_SERVER_MIN_ID` and `GATE_SERVER_MAX_ID`. -/
def gateServerMinId : ℤ := 20001

def gateServerMaxId : ℤ := 20100

/-- The connections of one listening server: their states by their ids, and the last id. A connection that
`run_conns` has freed has no state. -/
structure Conns where
  state : ℤ → Option JmyConnState
  last : ℤ

def Conns.none : Conns := ⟨fun _ => Option.none, 0⟩

def Conns.set (conns : Conns) (connId : ℤ) (state : Option JmyConnState) : Conns :=
  { conns with state := Function.update conns.state connId state }

/-- `JmyTcpConnection::force_close` does something. -/
def Conns.Live (conns : Conns) (connId : ℤ) : Prop :=
  conns.state connId ≠ Option.none ∧ conns.state connId ≠ some .disconnected

instance (conns : Conns) (connId : ℤ) : Decidable (conns.Live connId) := instDecidableAnd

/-- The login server. `serverId` and `maxConn` are in `SERVER_CONFIG`, `tmp` is the buffer of
`ClientHandler`. -/
structure LoginServer where
  serverId : ℤ
  maxConn : ℤ
  clients : AgentManager Str ClientData
  conns : Conns
  gates : AgentManagerPerf GateData
  gateConns : Conns
  gateConfList : List MsgGateConfData
  tmp : ℕ → Byte
  trace : List LoginObs

namespace LoginServer

def start (serverId maxConn : ℤ) : LoginServer where
  serverId := serverId
  maxConn := maxConn
  clients := .empty
  conns := .none
  gates := .init gateServerMinId gateServerMaxId
  gateConns := .none
  gateConfList := []
  tmp := fun _ => 0
  trace := []

variable (s : LoginServer)

def observe (o : LoginObs) : LoginServer := { s with trace := s.trace ++ [o] }

/-- A message is serialized to `tmp_`. -/
def writeTmp (bytes : List Byte) : LoginServer :=
  { s with tmp := fun i => (bytes[i]?).getD (s.tmp i) }

/-- `JmyTcpConnection::send`. -/
def connSend (connId : ℤ) (msgId : MsgId) (data : List Byte) : ℤ × LoginServer :=
  if s.conns.state connId = some .connected ∧ sendTakes msgId data then
    (data.length, s.observe (.toClient connId msgId data))
  else (-1, s)

/-- `ClientHandler::onDisconnect`. -/
def onDisconnect (connId : ℤ) : LoginServer :=
  let s₁ := s.observe (.disconnect connId)
  match s₁.clients.getAgentByConnId connId with
  | none => s₁
  | some _ => { s₁ with clients := (s₁.clients.deleteAgentByConnId connId).2 }

/-- `JmyTcpConnection::force_close`, which raises the disconnect event. -/
def connForceClose (connId : ℤ) : LoginServer :=
  if s.conns.Live connId then
    { s with conns := s.conns.set connId (some .disconnected) }.onDisconnect connId
  else s

/-- `ClientManager::isFull`. -/
def isFull : Bool := s.maxConn ≤ s.clients.getAgentSize

/-- `accept_new` with `ClientHandler::onConnect`. -/
def accept : LoginServer :=
  let id := s.conns.last + 1
  let s₁ := { s with conns := { s.conns.set id (some .connected) with last := id } }
  if s₁.isFull then s₁.connForceClose id else s₁

/-- `Agent::sendMsg` of a client. -/
def clientSend (account : Str) (msgId : MsgId) (data : List Byte) : ℤ × LoginServer :=
  match s.clients.getAgent account with
  | none => (-1, s)
  | some agent =>
    if agent.state ≠ .verified then (0, s)
    else
      let sent := s.connSend agent.connId msgId data
      (if sent.1 < 0 then -1 else 0, sent.2)

def gateConnSend (connId : ℤ) (msgId : MsgId) (data : List Byte) : ℤ × LoginServer :=
  if s.gateConns.state connId = some .connected ∧ sendTakes msgId data then
    (data.length, s.observe (.toGate connId msgId data))
  else (-1, s)

/-- `GateHandler::onDisconnect`. -/
def onGateDisconnect (connId : ℤ) : LoginServer :=
  { s with gates := (s.gates.deleteAgentByConnId connId).2 }

def gateForceClose (connId : ℤ) : LoginServer :=
  if s.gateConns.Live connId then
    { s with gateConns := s.gateConns.set connId (some .disconnected) }.onGateDisconnect connId
  else s

def acceptGate : LoginServer :=
  let id := s.gateConns.last + 1
  { s with gateConns := { s.gateConns.set id (some .connected) with last := id } }

/-- `Agent::sendMsg` of a gate. -/
def gateSend (gateId : ℤ) (msgId : MsgId) (data : List Byte) : ℤ × LoginServer :=
  match s.gates.getAgent gateId with
  | none => (-1, s)
  | some agent =>
    if agent.state ≠ .verified then (0, s)
    else
      let sent := s.gateConnSend agent.connId msgId data
      (if sent.1 < 0 then -1 else 0, sent.2)

/-- `send_error`. The bytes that go out are those that `tmp_` has from the message before, as many as the
error would take. -/
def sendError (P : LoginProtocol) (connId : ℤ) (error : LoginError) : LoginServer :=
  (s.connSend connId MsgId.s2cLoginResponse
    ((List.range (P.error.serialize error.code).length).map s.tmp)).2

end LoginServer

namespace LoginClientHandler

open LoginServer

variable (P : LoginProtocol)

/-- The kick of the agent that has the account already. -/
def kick (s : LoginServer) (account : Str) : LoginServer :=
  match s.clients.getAgent account with
  | none => s
  | some agent =>
    let s₁ := s.connForceClose agent.connId
    { s₁ with clients := (s₁.clients.deleteAgent account).2 }

/-- What a client is told of a gate. -/
def serverInfo (data : MsgGateConfData) : MsgServerInfo :=
  ⟨data.id, data.name, data.isMaintenance, data.isBusy⟩

/-- The end of `processLogin`, which tells the client of the gates. -/
def respondLogin (s : LoginServer) (info : JmyMsgInfo) (account : Str) : ℤ × LoginServer :=
  match P.loginResponse.serializeToArray maxMsgSize (s.gateConfList.map serverInfo) with
  | none => (-1, s)
  | some tmp =>
    let sent := (s.writeTmp tmp).clientSend account MsgId.s2cLoginResponse tmp
    if sent.1 < 0 then (-1, sent.2) else (info.len, sent.2.observe (.login info.connId account))

def processLogin (s : LoginServer) (info : JmyMsgInfo) : ℤ × LoginServer :=
  match P.loginRequest.parse info.data with
  | none => (-1, s.sendError P info.connId .dataInvalid)
  | some request =>
    let s₁ := kick s request.account
    match s₁.clients.newAgent request.account info.connId with
    | none => (-1, s₁.sendError P info.connId .repeated)
    | some clients =>
      respondLogin P { s₁ with clients := clients.modifyAgent request.account fun agent =>
        { agent with state := .verified } } info request.account

def processSelectServer (s : LoginServer) (info : JmyMsgInfo) : ℤ × LoginServer :=
  match P.selectServerRequest.parse info.data with
  | none => (-1, s.sendError P info.connId .dataInvalid)
  | some gateId =>
    match s.gates.getAgent gateId with
    | none => (-1, s.sendError P info.connId .gameServerMaintenance)
    | some _ =>
      match s.clients.getKeyByConnId info.connId with
      | none => (-1, s.sendError P info.connId .dataInvalid)
      | some account =>
        match P.selectedServerNotify.serializeToArray maxMsgSize account with
        | none => (-1, s)
        | some tmp =>
          let sent := (s.writeTmp tmp).gateSend gateId MsgId.ls2gtSelectedServerNotify tmp
          if sent.1 < 0 then (-1, sent.2)
          else (info.len, { sent.2 with
            clients := sent.2.clients.modifyAgent account fun agent => { agent with data := ⟨gateId⟩ } })

/-- `processEcho`. The response is not sent. -/
def processEcho (s : LoginServer) (info : JmyMsgInfo) : ℤ × LoginServer :=
  match s.conns.state info.connId with
  | none => (-1, s)
  | some _ =>
    match P.echoRequest.parse info.data with
    | none => (-1, s)
    | some echoStr =>
      match P.echoResponse.serializeToArray maxMsgSize echoStr with
      | none => (-1, s)
      | some tmp => (info.len, s.writeTmp tmp)

/-- The handlers of `s_client_handlers`. There is no default handler. -/
def handle (s : LoginServer) (info : JmyMsgInfo) : ℤ × LoginServer :=
  if info.msgId = MsgId.c2sLoginRequest then processLogin P s info
  else if info.msgId = MsgId.c2sSelectServerRequest then processSelectServer P s info
  else if info.msgId = MsgId.c2sEchoRequest then processEcho P s info
  else (0, s)

end LoginClientHandler

namespace LoginGateHandler

open LoginServer

variable (P : LoginProtocol)

def processConnectLogin (s : LoginServer) (info : JmyMsgInfo) : ℤ × LoginServer :=
  match P.connectLoginRequest.parse info.data with
  | none => (-1, s)
  | some request =>
    match s.gates.getAgent request.gateServerId with
    | some _ => (-1, s)
    | none =>
      match s.gates.newAgent request.gateServerId info.connId with
      | none => (-1, s)
      | some gates =>
        let s₁ := { s with gates := gates.modifyAgent request.gateServerId fun agent => { agent with
          data := ⟨request.gateServerId, request.gateServerIp, BitVec.ofInt 16 request.gateServerPort⟩ } }
        match P.connectLoginResponse.serializeToArray maxMsgSize s₁.serverId with
        | none => (-1, s₁)
        | some tmp =>
          let sent := s₁.gateSend request.gateServerId MsgId.ls2gtConnectLoginResponse tmp
          if sent.1 < 0 then (-1, sent.2) else (info.len, sent.2)

/-- `processSelectedServerResponse`. The response goes to the client with the address of the gate. -/
def processSelectedServerResponse (s : LoginServer) (info : JmyMsgInfo) : ℤ × LoginServer :=
  match P.selectedServerResponse.parse info.data with
  | none => (-1, s)
  | some res =>
    match s.clients.getAgent res.account with
    | none => (-1, s)
    | some agent =>
      match s.gates.getAgent agent.data.gateId with
      | none => (-1, s)
      | some _ =>
        match s.gateConfList.find? (·.id = agent.data.gateId) with
        | none => (-1, s)
        | some d =>
          match P.selectServerResponse.serializeToArray maxMsgSize ⟨res.sessionCode, d.ip, d.port⟩ with
          | none => (-1, s)
          | some tmp =>
            let sent := s.clientSend res.account MsgId.s2cSelectServerResponse tmp
            if sent.1 < 0 then (-1, sent.2) else (info.len, sent.2)

/-- The handlers of `s_gate_handlers`. -/
def handle (s : LoginServer) (info : JmyMsgInfo) : ℤ × LoginServer :=
  if info.msgId = MsgId.gt2lsConnectLoginRequest then processConnectLogin P s info
  else if info.msgId = MsgId.gt2lsSelectedServerResponse then processSelectedServerResponse P s info
  else (0, s)

end LoginGateHandler

/-- `ConnConfigHandler::processConnectConfigResponse`, the one handler for messages of the config server. -/
def processConnectConfigResponse (P : LoginProtocol) (s : LoginServer) (data : List Byte) : LoginServer :=
  match P.connectConfigResponse.parse data with
  | none => s
  | some gateList => { s with gateConfList := gateList }

/-- What happens at the login server. Connections of clients and of gates are accepted, closed for any
reason, marked connected again by `start_recv` and freed; messages come from clients, from gates and from
the config server. -/
inductive LoginEvent where
  | connect
  | drop (connId : ℤ)
  | revive (connId : ℤ)
  | release (connId : ℤ)
  | client (connId : ℤ) (msgId : MsgId) (data : List Byte)
  | gateConnect
  | gateDrop (connId : ℤ)
  | gateRevive (connId : ℤ)
  | gateRelease (connId : ℤ)
  | gate (connId : ℤ) (msgId : MsgId) (data : List Byte)
  | config (data : List Byte)

/-- `start_recv` marks a connection connected. -/
def Conns.revive (conns : Conns) (connId : ℤ) : Option Conns :=
  if (conns.state connId).isSome then some (conns.set connId (some .connected)) else Option.none

/-- `run_conns` frees a connection that is disconnected. -/
def Conns.release (conns : Conns) (connId : ℤ) : Option Conns :=
  if conns.state connId = some .disconnected then some (conns.set connId Option.none) else Option.none

namespace LoginServer

/-- `run` closes the connection of a client after a handler with a negative result. -/
def closeOnError (connId : ℤ) (r : ℤ × LoginServer) : LoginServer :=
  if r.1 < 0 then r.2.connForceClose connId else r.2

def closeGateOnError (connId : ℤ) (r : ℤ × LoginServer) : LoginServer :=
  if r.1 < 0 then r.2.gateForceClose connId else r.2

/-- One event. `run` handles the messages of a connection only while it is connected. -/
def step (P : LoginProtocol) (s : LoginServer) : LoginEvent → Option LoginServer
  | .connect => some s.accept
  | .drop connId => some (s.connForceClose connId)
  | .revive connId => (s.conns.revive connId).map fun conns => { s with conns := conns }
  | .release connId => (s.conns.release connId).map fun conns => { s with conns := conns }
  | .client connId msgId data =>
    if s.conns.state connId = some .connected then
      some (closeOnError connId (LoginClientHandler.handle P s ⟨0, msgId, data, data.length, connId⟩))
    else none
  | .gateConnect => some s.acceptGate
  | .gateDrop connId => some (s.gateForceClose connId)
  | .gateRevive connId => (s.gateConns.revive connId).map fun conns => { s with gateConns := conns }
  | .gateRelease connId => (s.gateConns.release connId).map fun conns => { s with gateConns := conns }
  | .gate connId msgId data =>
    if s.gateConns.state connId = some .connected then
      some (closeGateOnError connId (LoginGateHandler.handle P s ⟨0, msgId, data, data.length, connId⟩))
    else none
  | .config data => some (processConnectConfigResponse P s data)

end LoginServer

def loginMachine (P : LoginProtocol) : Machine LoginServer LoginEvent := ⟨LoginServer.step P⟩

end JmyGame
