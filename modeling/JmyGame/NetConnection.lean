import JmyGame.LibMachine
import JmyGame.NetDataHandler2

/-! `JmyTcpConnection`: the connection object with its pending socket operations, the methods of the
class, and the completion handlers it passes to the socket. Methods are functions on the object; an
operation that was started stays pending until its completion handler is run. The fields `trace` and
`Pending.owner` record what happened and are read by no method. -/

namespace JmyGame

open CArith

inductive JmyConnType where
  | none
  | active
  | passive
  deriving DecidableEq, Repr

inductive JmyConnState where
  | notUse
  | notConnect
  | connecting
  | connected
  | disconnecting
  | disconnected
  deriving DecidableEq, Repr

/-- `JmyConnectionBuffer` with the fields a connection uses. -/
structure JmyConnectionBuffer where
  sendBuff : JmyDoubleSessionBuffer
  sendBuffList : JmySessionBufferList
  recvBuffList : JmySessionBufferList
  useSendList : Bool
  deriving DecidableEq

namespace JmyConnectionBuffer

/-- A buffer behind `init` with `use_send_buff_list` set. -/
def list : JmyConnectionBuffer := ⟨.empty, .init 0 0, .init 0 0, true⟩

def clear (b : JmyConnectionBuffer) : JmyConnectionBuffer :=
  { b with
    sendBuffList := b.sendBuffList.clear
    recvBuffList := b.recvBuffList.clear
    sendBuff := b.sendBuff.clear }

end JmyConnectionBuffer

/-- The socket operations a connection starts, with what their completion handlers capture. A send
holds the bytes that it offers. -/
inductive AsyncOp where
  | readHead
  | readBody (type : JmyPacketType2) (packLen : ℕ)
  | bufferSend (offered : List Byte)
  | bufferListSend (offered : List Byte)
  deriving DecidableEq, Repr

/-- A started operation. `owner` is the connection id at the start, and `sockOpen` says whether the
socket was open then: an operation on a closed socket can only fail. -/
structure Pending where
  op : AsyncOp
  owner : ℤ
  sockOpen : Bool
  deriving DecidableEq, Repr

/-- What a connection shows to the outside: the events it raises, the messages it hands to message
handlers and the send calls it gets. -/
inductive Obs where
  | disconnect (connId : ℤ)
  | tick (connId : ℤ)
  | message (info : JmyMsgInfo)
  | send (msgId : BitVec 32) (data : List Byte)
  | sendUser (userId msgId : BitVec 32) (data : List Byte)
  deriving DecidableEq, Repr

structure JmyTcpConnection where
  id : ℤ
  connType : JmyConnType
  state : JmyConnState
  sendingData : Bool
  buffSendCount : ℕ
  activeCloseStart : ℤ
  hasHandler : Bool
  hasBuffer : Bool
  buffer : JmyConnectionBuffer
  sockOpen : Bool
  pending : List Pending
  trace : List Obs
  deriving DecidableEq

/-- `JMY_ACTIVE_CLOSE_CONNECTION_TIMEOUT` in seconds. -/
def activeCloseConnectionTimeout : ℤ := 30

namespace JmyTcpConnection

variable (c : JmyTcpConnection)

def observe (o : Obs) : JmyTcpConnection := { c with trace := c.trace ++ [o] }

/-- Start an operation on the socket. -/
def startOp (op : AsyncOp) : JmyTcpConnection :=
  { c with pending := c.pending ++ [⟨op, c.id, c.sockOpen⟩] }

def setSendBuff (b : JmyDoubleSessionBuffer) : JmyTcpConnection :=
  { c with buffer := { c.buffer with sendBuff := b } }

def setSendBuffList (l : JmySessionBufferList) : JmyTcpConnection :=
  { c with buffer := { c.buffer with sendBuffList := l } }

def setRecvBuffList (l : JmySessionBufferList) : JmyTcpConnection :=
  { c with buffer := { c.buffer with recvBuffList := l } }

/-- The body of `force_close`. The disconnect handler runs on a connection that is already
DISCONNECTED, where every call it could make back into the connection returns at once. -/
def closed : JmyTcpConnection :=
  { c with
    sockOpen := false
    buffer := if c.hasBuffer then c.buffer.clear else c.buffer
    state := .disconnected
    sendingData := false
    trace := c.trace ++ [.disconnect c.id] }

/-- `force_close`. -/
def forceClose : JmyTcpConnection := if c.state = .disconnected then c else c.closed

/-- A control packet written to the send buffer in use. -/
def writeControl (packet : Option (List Byte)) : ℤ × JmyTcpConnection :=
  if c.buffer.useSendList then
    let r := writePacket c.buffer.sendBuffList packet
    (if r.1 < 0 then -1 else 0, c.setSendBuffList r.2)
  else
    let r := writePacket c.buffer.sendBuff packet
    (if r.1 < 0 then -1 else 0, c.setSendBuff r.2)

def sendDisconnect : ℤ × JmyTcpConnection := c.writeControl (packDisconnect disconnectPackLen)

def sendDisconnectAck : ℤ × JmyTcpConnection :=
  c.writeControl (packDisconnectAck disconnectAckPackLen)

/-- `close` at the time `now`, in nanoseconds. -/
def close (now : ℤ) : JmyTcpConnection :=
  if c.state ≠ .connected then c
  else
    let r := c.sendDisconnect
    if r.1 < 0 then r.2
    else { r.2 with activeCloseStart := now, state := .disconnecting }

/-- The common body of the two `send` overloads: a user packet written to the send buffer in use. -/
def writeUser (len : ℕ) (onList : JmySessionBufferList → Option (ℤ × JmySessionBufferList))
    (onBuff : JmyDoubleSessionBuffer → Option (ℤ × JmyDoubleSessionBuffer)) :
    Option (ℤ × JmyTcpConnection) :=
  if c.state ≠ .connected then some (-1, c)
  else if c.buffer.useSendList then (onList c.buffer.sendBuffList).map fun r =>
    (if r.1 < 0 then -1 else toInt len, c.setSendBuffList r.2)
  else (onBuff c.buffer.sendBuff).map fun r =>
    (if r.1 < 0 then -1 else toInt len, c.setSendBuff r.2)

/-- `send(msg_id, data, len)`. -/
def send (msgId : BitVec 32) (data : List Byte) : Option (ℤ × JmyTcpConnection) :=
  (c.observe (.send msgId data)).writeUser data.length (fun l => writeUserData l msgId data)
    fun b => writeUserData b msgId data

/-- `send(user_id, msg_id, data, len)` with an `unsigned short` length. -/
def sendUser (userId msgId : BitVec 32) (data : List Byte) : Option (ℤ × JmyTcpConnection) :=
  (c.observe (.sendUser userId msgId data)).writeUser (data.length % 2 ^ 16)
    (fun l => writeUserIdAndData l userId msgId data) fun b => writeUserIdAndData b userId msgId data

/-- `start_recv`, whose tail marks a passive connection as connected. -/
def startRecv : JmyTcpConnection :=
  if c.connType = .active ∧ c.state ≠ .connected then c
  else if c.hasHandler = false ∨ c.hasBuffer = false then c
  else
    let c₁ := c.startOp .readHead
    if c₁.connType = .passive ∧ c₁.state ≠ .connected then { c₁ with state := .connected } else c₁

/-- `recv_packet`. -/
def recvPacket (type : JmyPacketType2) (packLen : ℕ) : JmyTcpConnection :=
  c.startOp (.readBody type packLen)

def handleHeartbeat : ℤ × JmyTcpConnection := (0, c)

def handleDisconnect : ℤ × JmyTcpConnection :=
  if c.state = .disconnecting then (0, c) else c.sendDisconnectAck

def handleDisconnectAck : ℤ × JmyTcpConnection :=
  if c.state ≠ .disconnecting then (0, c) else (1, c.forceClose)

/-- `handle_packet_type`: 1 for a packet whose body is to be read. -/
def handlePacketType (type : JmyPacketType2) : ℤ × JmyTcpConnection :=
  match type with
  | .disconnect => (0, c.handleDisconnect.2)
  | .disconnectAck => (0, c.handleDisconnectAck.2)
  | .heartbeat => (0, c.handleHeartbeat.2)
  | .userData => (1, c)
  | .userIdData => (1, c)
  | _ => (0, c)

/-- The completion handler of the head read in `start_recv`. The body length is passed as an
`unsigned short`. -/
def onReadHead (bytes : List Byte) : JmyTcpConnection :=
  if bytes.length ≠ lenHead + lenType then c.forceClose
  else match getPacketLenType bytes with
  | none => c.forceClose
  | some (type, len) =>
    let r := c.handlePacketType type
    if r.1 = 0 then r.2.startRecv
    else r.2.recvPacket type ((len - BitVec.ofNat 32 lenType).toNat % 2 ^ 16)

/-- The completion handler of the body read in `recv_packet`. -/
def onReadBody (type : JmyPacketType2) (packLen : ℕ) (bytes : List Byte) : JmyTcpConnection :=
  if bytes.length ≠ packLen then c.forceClose
  else (c.setRecvBuffList (c.buffer.recvBuffList.writeParam (type.code.toNat % 2 ^ 16) bytes
    packLen).2).startRecv

/-- `buffer_send`. -/
def bufferSend : JmyTcpConnection := c.startOp (.bufferSend c.buffer.sendBuff.unread)

/-- `buffer_list_send`. -/
def bufferListSend : JmyTcpConnection := c.startOp (.bufferListSend c.buffer.sendBuffList.front)

/-- The completion handler of `buffer_send`. -/
def onBufferSend (n : ℕ) : JmyTcpConnection :=
  let r := c.buffer.sendBuff.readLen n
  if 0 < n then
    if r.1 = false then c.setSendBuff r.2
    else { c.setSendBuff r.2 with sendingData := false }
  else { c with sendingData := false }

/-- The completion handler of `buffer_list_send`: after 100 completions, or when nothing is left, the
next send waits for `run`. -/
def onBufferListSend (n : ℕ) : JmyTcpConnection :=
  let c₁ := { c.setSendBuffList (c.buffer.sendBuffList.readLen n) with
    buffSendCount := c.buffSendCount + 1 }
  if 100 ≤ c₁.buffSendCount ∨ c₁.buffer.sendBuffList.getUsingSize = 0 then
    { c₁ with buffSendCount := 0, sendingData := false }
  else c₁.bufferListSend

/-- The number of bytes that the send buffer in use offers. -/
def sendReadLen : ℕ :=
  if c.buffer.useSendList then c.buffer.sendBuffList.getReadLen else c.buffer.sendBuff.getReadLen

/-- `start_send`. -/
def startSend : ℤ × JmyTcpConnection :=
  if c.state ≠ .connected then (-1, c)
  else if c.sendingData then (0, c)
  else if c.sendReadLen = 0 then (0, c)
  else if c.buffer.useSendList then (1, { c.bufferListSend with sendingData := true })
  else (1, { c.bufferSend with sendingData := true })

end JmyTcpConnection

/-- The calls that the program makes on a connection. -/
inductive ConnCall where
  | send (msgId : BitVec 32) (data : List Byte)
  | sendUser (userId msgId : BitVec 32) (data : List Byte)
  | close (now : ℤ)
  | forceClose
  deriving DecidableEq, Repr

/-- The result of a socket operation. -/
inductive Completion where
  | read (bytes : List Byte)
  | sent (n : ℕ)
  | failed
  deriving DecidableEq, Repr

/-- What the socket can answer to an operation: an error, the bytes read or the number of bytes sent,
at most as many as asked for, and only if the socket was open. -/
def Completion.possible (p : Pending) : Completion → Bool
  | .failed => true
  | .read bytes => p.sockOpen && match p.op with
    | .readHead => decide (bytes.length ≤ lenHead + lenType)
    | .readBody _ packLen => decide (bytes.length ≤ packLen)
    | _ => false
  | .sent n => p.sockOpen && match p.op with
    | .bufferSend offered => decide (n ≤ offered.length)
    | .bufferListSend offered => decide (n ≤ offered.length)
    | _ => false

namespace JmyTcpConnection

variable (c : JmyTcpConnection)

/-- A call on a connection; undefined where `send` copies past a buffer. -/
def call : ConnCall → Option JmyTcpConnection
  | .send msgId data => (c.send msgId data).map Prod.snd
  | .sendUser userId msgId data => (c.sendUser userId msgId data).map Prod.snd
  | .close now => some (c.close now)
  | .forceClose => some c.forceClose

/-- Several calls in a row, as a handler of the program makes them. -/
def calls (cs : List ConnCall) : Option JmyTcpConnection := cs.foldlM call c

/-- The completion handler of an operation. `handle_recv_error` and the send handlers close the
connection on an error. -/
def onComplete (op : AsyncOp) (r : Completion) : JmyTcpConnection :=
  match op, r with
  | _, .failed => c.forceClose
  | .readHead, .read bytes => c.onReadHead bytes
  | .readBody type packLen, .read bytes => c.onReadBody type packLen bytes
  | .bufferSend _, .sent n => c.onBufferSend n
  | .bufferListSend _, .sent n => c.onBufferListSend n
  | _, _ => c

/-- The socket completes the `i`-th pending operation and its handler runs. -/
def complete (i : ℕ) (r : Completion) : Option JmyTcpConnection :=
  match c.pending[i]? with
  | none => none
  | some p =>
    if r.possible p then some ({ c with pending := c.pending.eraseIdx i }.onComplete p.op r)
    else none

end JmyTcpConnection

section run

variable {σ : Type} (view : σ → JmyTcpConnection)
  (modify : (JmyTcpConnection → JmyTcpConnection) → σ → σ)

/-- A method with a result, on the connection inside a larger state. -/
def callOn (f : JmyTcpConnection → ℤ × JmyTcpConnection) (s : σ) : ℤ × σ :=
  ((f (view s)).1, modify (fun c => (f c).2) s)

/-- A message handler called from `processData`. A handler that changes the receive list under the
loop leaves it with a dangling iterator. -/
def underLoop (handler : JmyMsgHandler σ) : JmyMsgHandler σ := fun info s =>
  (handler info (modify (JmyTcpConnection.observe · (.message info)) s)).bind fun r =>
    if (view r.2).buffer.recvBuffList = (view s).buffer.recvBuffList then some r else none

/-- `handle_recv`: `processData` on the receive list of the connection. -/
def handleRecv (h : JmyDataHandler2 σ) (past : ℕ → Byte) (data : JmyPacketUnpackData2) (s : σ) :
    Option (ℤ × JmyPacketUnpackData2 × σ) :=
  JmyDataHandler2.processData
    ⟨fun id => (h.msgHandlerMap id).map (underLoop view modify),
      h.defaultMsgHandler.map (underLoop view modify)⟩ past
    (some ⟨callOn view modify JmyTcpConnection.handleHeartbeat,
      callOn view modify JmyTcpConnection.handleDisconnect,
      callOn view modify JmyTcpConnection.handleDisconnectAck⟩)
    (modify fun c => c.setRecvBuffList c.buffer.recvBuffList.clear)
    (view s).buffer.recvBuffList.usingList data (view s).id s

/-- `run` at the time `now` of a connection inside a larger state, with the tick handler and the
message handlers of the program and the unpack data of the data handler. -/
def runConn (h : JmyDataHandler2 σ) (past : ℕ → Byte) (now : ℤ) (tick : σ → Option σ)
    (data : JmyPacketUnpackData2) (s : σ) : Option (ℤ × JmyPacketUnpackData2 × σ) :=
  (tick s).bind fun s₁ =>
    if (view s₁).state = .disconnecting ∧
        activeCloseConnectionTimeout ≤ (now - (view s₁).activeCloseStart).tdiv 1000000000 then
      some (0, data, modify JmyTcpConnection.forceClose s₁)
    else if (view s₁).state ≠ .connected then some (0, data, s₁)
    else (handleRecv view modify h past data s₁).map fun r =>
      if r.1 < 0 then (-1, r.2.1, modify JmyTcpConnection.forceClose r.2.2)
      else
        let t := callOn view modify JmyTcpConnection.startSend r.2.2
        (t.1, r.2.1, t.2)

end run

/-- The message and tick handlers of a program that works on one connection: a message handler
answers its result and the calls it makes. They may look at all that happened so far. -/
structure ConnHandlers where
  msgHandlerMap : BitVec 32 → Option (JmyMsgInfo → JmyTcpConnection → ℤ × List ConnCall)
  defaultMsgHandler : Option (JmyMsgInfo → JmyTcpConnection → ℤ × List ConnCall)
  tickHandler : Option (JmyTcpConnection → List ConnCall)

namespace ConnHandlers

def msgHandler (f : JmyMsgInfo → JmyTcpConnection → ℤ × List ConnCall) :
    JmyMsgHandler JmyTcpConnection := fun info c =>
  (c.calls (f info c).2).map fun c' => ((f info c).1, c')

def dataHandler (h : ConnHandlers) : JmyDataHandler2 JmyTcpConnection :=
  ⟨fun id => (h.msgHandlerMap id).map msgHandler, h.defaultMsgHandler.map msgHandler⟩

def tick (h : ConnHandlers) (c : JmyTcpConnection) : Option JmyTcpConnection :=
  match h.tickHandler with
  | none => some c
  | some f => (c.observe (.tick c.id)).calls (f (c.observe (.tick c.id)))

end ConnHandlers

/-- What happens to a connection. A `run` brings the handlers of the program, the time, the unpack
data that earlier packets left and the bytes that lie behind received packets in memory. -/
inductive ConnEvent where
  | call (call : ConnCall)
  | complete (i : ℕ) (result : Completion)
  | run (handlers : ConnHandlers) (now : ℤ) (data : JmyPacketUnpackData2) (past : ℕ → Byte)

namespace JmyTcpConnection

/-- `run` of a connection whose handlers call only this connection. -/
def run (c : JmyTcpConnection) (h : ConnHandlers) (now : ℤ) (data : JmyPacketUnpackData2)
    (past : ℕ → Byte) : Option (ℤ × JmyPacketUnpackData2 × JmyTcpConnection) :=
  runConn (fun c => c) (fun f => f) h.dataHandler past now h.tick data c

/-- One step of a connection that has a data handler and a buffer. -/
def step (c : JmyTcpConnection) : ConnEvent → Option JmyTcpConnection
  | .call call => c.call call
  | .complete i r => c.complete i r
  | .run h now data past => (c.run h now data past).map fun r => r.2.2

end JmyTcpConnection

def connMachine : Machine JmyTcpConnection ConnEvent := ⟨JmyTcpConnection.step⟩

end JmyGame
