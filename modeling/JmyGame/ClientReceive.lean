import JmyGame.LibMachine
import JmyGame.NetUserPackets

/-! The client of `network_test`: the unpack functions of `net_proto` and the receive path of
`AsynchronousClient`. The client reads a head, then as many bytes as the length field says, and hands what
it has read to the handler of the message. The length field of the server counts the type byte, which the
client has already read with the head. -/

namespace JmyGame

open CArith

namespace NetProto

/-- `PacketType`; a cast of a byte can give values that it does not name. -/
inductive PacketType where
  | none
  | userData
  | ack
  | heartbeat
  | disconnect
  | disconnectAck
  | unnamed (code : Byte)
  deriving DecidableEq, Repr

/-- The cast `(PacketType)b`. -/
def PacketType.ofByte (b : Byte) : PacketType :=
  if b = 0 then none
  else if b = 5 then userData
  else if b = 6 then ack
  else if b = 7 then heartbeat
  else if b = 8 then disconnect
  else if b = 9 then disconnectAck
  else unnamed b

/-- `unpack_int16_from_buff`. Bytes are unsigned, and the sum is cast to `Int16`. -/
def unpackInt16FromBuff (b0 b1 : Byte) : ℤ :=
  (((b0.setWidth 32 <<< 8) &&& 0xff00#32) + (b1.setWidth 32 &&& 0xff#32)).setWidth 16 |>.toInt

/-- `unpack_int32_from_buff`. -/
def unpackInt32FromBuff (b0 b1 b2 b3 : Byte) : ℤ :=
  (((b0.setWidth 32 <<< 24) &&& 0xff000000#32) + ((b1.setWidth 32 <<< 16) &&& 0xff0000#32) +
    ((b2.setWidth 32 <<< 8) &&& 0xff00#32) + (b3.setWidth 32 &&& 0xff#32)).toInt

/-- `net_proto_get_packet_len_type`. -/
def getPacketLenType (byteData : List Byte) : Option (PacketType × ℤ) :=
  match byteData with
  | b0 :: b1 :: b2 :: _ => some (.ofByte b2, unpackInt16FromBuff b0 b1)
  | _ => none

structure MsgInfo where
  msgId : ℤ
  buf : List Byte
  offset : ℕ
  len : ℕ
  deriving DecidableEq, Repr

/-- The bytes that a handler reads. -/
def MsgInfo.payload (m : MsgInfo) : List Byte := (m.buf.drop m.offset).take m.len

/-- `PacketUnpackData`, as far as it is used. -/
structure PacketUnpackData where
  param : ℤ
  msgInfo : MsgInfo
  deriving DecidableEq, Repr

def PacketUnpackData.init : PacketUnpackData := ⟨0, ⟨0, [], 0, 0⟩⟩

/-- The cast to `ushort`. -/
def toUshort (n : ℤ) : ℕ := (n % 2 ^ 16).toNat

/-- `net_proto_unpack_data`. A read outside of the array throws. -/
def unpackData (type : PacketType) (buf : List Byte) (offset len : ℕ) (data : PacketUnpackData) :
    Option (ℤ × PacketUnpackData) :=
  match type with
  | .userData =>
    match buf[offset]?, buf[offset + 1]? with
    | some b0, some b1 =>
      some (0, ⟨unpackInt16FromBuff b0 b1, ⟨unpackInt16FromBuff b0 b1, buf, toUshort (offset + 2 : ℕ),
        toUshort (len - toUshort (offset + 2 : ℕ))⟩⟩)
    | _, _ => none
  | .heartbeat =>
    if (len : ℤ) - offset < lenTimestamp then some (0, data)
    else match buf[offset]?, buf[offset + 1]?, buf[offset + 2]?, buf[offset + 3]? with
    | some b0, some b1, some b2, some b3 =>
      some (lenTimestamp, { data with param := unpackInt32FromBuff b0 b1 b2 b3 })
    | _, _, _, _ => none
  | .disconnect => some (0, data)
  | .disconnectAck => some (0, data)
  | _ => some (-1, data)

end NetProto

open NetProto

/-- The `BeginReceive` that is under way: of a head, or of the rest of a packet with this many bytes. -/
inductive Receiving where
  | head
  | packet (byteSize : ℕ)
  deriving DecidableEq, Repr

/-- A connected client, with what the server has sent and the socket has not given yet, and with the
messages that handlers got. -/
structure AsynchronousClient where
  stream : List Byte
  receiving : Option Receiving
  isReceiving : Bool
  receiveList : List (List Byte)
  d : PacketUnpackData
  handled : List MsgInfo

namespace AsynchronousClient

/-- A client behind `ConnectCallback`. -/
def start (stream : List Byte) : AsynchronousClient := ⟨stream, none, false, [], .init, []⟩

variable (c : AsynchronousClient)

/-- `StartReceive`. -/
def startReceive : AsynchronousClient := { c with receiving := some .head }

/-- `HandlePacketType`. -/
def handlePacketType (type : PacketType) : ℤ := if type = .userData then 1 else 0

/-- `RecvPacket`. -/
def recvPacket (byteSize : ℕ) : AsynchronousClient := { c with receiving := some (.packet byteSize) }

/-- `ReceiveCallback` with the bytes of a head. -/
def receiveCallback (buffer : List Byte) : AsynchronousClient :=
  match NetProto.getPacketLenType buffer with
  | none => { c with receiving := none }
  | some (type, len) =>
    if handlePacketType type = 0 then c.startReceive
    else c.recvPacket (toUshort len)

/-- `ReceivePacketCallback`. Without bytes nothing more is received. -/
def receivePacketCallback (buffer : List Byte) : AsynchronousClient :=
  if 0 < buffer.length then
    { c with receiveList := c.receiveList ++ [buffer] }.startReceive
  else { c with receiving := none }

/-- `HandleOne`. -/
def handleOne (handlers : ℤ → Option (MsgInfo → ℤ)) (data : List Byte) : Option (ℤ × AsynchronousClient) :=
  match NetProto.unpackData .userData data 0 data.length c.d with
  | none => none
  | some (res, d) =>
    if res < 0 then some (-1, { c with d := d })
    else match handlers d.msgInfo.msgId with
    | none => some (0, { c with d := d })
    | some handle => some (if handle d.msgInfo < 0 then -1 else 1,
        { c with d := d, handled := c.handled ++ [d.msgInfo] })

/-- The loop of `ProcessData`, which stops behind a handler that fails. -/
def processLoop (handlers : ℤ → Option (MsgInfo → ℤ)) :
    List (List Byte) → AsynchronousClient → Option (ℤ × AsynchronousClient)
  | [], c => some (0, c)
  | data :: datas, c => (c.handleOne handlers data).bind fun r =>
    if r.1 < 0 then some (-1, r.2) else processLoop handlers datas r.2

/-- `ProcessData`. What was not handled is dropped with the rest of the list. -/
def processData (handlers : ℤ → Option (MsgInfo → ℤ)) : Option (ℤ × AsynchronousClient) :=
  if c.receiveList.length = 0 then some (0, c)
  else (processLoop handlers c.receiveList c).map fun r => (r.1, { r.2 with receiveList := [] })

/-- `Run` of a connected client. -/
def run (handlers : ℤ → Option (MsgInfo → ℤ)) : Option AsynchronousClient :=
  let c₁ := if c.isReceiving then c else { c.startReceive with isReceiving := true }
  (c₁.processData handlers).map Prod.snd

end AsynchronousClient

/-- What happens at the client: a receive gives as many bytes as it asked for, or the worker runs. -/
inductive AsyncClientEvent where
  | receive
  | run (handlers : ℤ → Option (MsgInfo → ℤ))

namespace AsynchronousClient

def step (c : AsynchronousClient) : AsyncClientEvent → Option AsynchronousClient
  | .receive =>
    match c.receiving with
    | none => none
    | some .head => if c.stream.length < 3 then none
        else some ({ c with stream := c.stream.drop 3 }.receiveCallback (c.stream.take 3))
    | some (.packet n) => if c.stream.length < n then none
        else some ({ c with stream := c.stream.drop n }.receivePacketCallback (c.stream.take n))
  | .run handlers => c.run handlers

end AsynchronousClient

def asyncClientMachine : Machine AsynchronousClient AsyncClientEvent := ⟨AsynchronousClient.step⟩

end JmyGame
