import JmyGame.LibProtobuf
import JmyGame.NetConnection

/-! The messages of the gate, game and db servers. Their encoding is that of a third party: a
`Protocol` gives for every message a parser and a serializer, and the servers are modelled over any
such protocol; `wire` is the protocol of the `.proto` files. -/

namespace JmyGame

open CArith Protobuf

/-- `int` values of message ids. -/
abbrev MsgId := BitVec 32

namespace MsgId

def error : MsgId := 1
def c2sGetRoleRequest : MsgId := 10010
def s2cGetRoleResponse : MsgId := 10011
def c2sCreateRoleRequest : MsgId := 10014
def s2cCreateRoleResponse : MsgId := 10015
def c2sEnterGameRequest : MsgId := 10020
def s2cEnterGameResponse : MsgId := 10021
def s2cEnterGameCompleteNotify : MsgId := 10022
def c2sLeaveGameRequest : MsgId := 10023
def c2sReconnectRequest : MsgId := 10025
def s2cReconnectResponse : MsgId := 10026
def c2sChatRequest : MsgId := 10100
def s2cChatResponse : MsgId := 10101
def s2cChatNotify : MsgId := 10102
def c2sSetRoleDataRequest : MsgId := 19001
def gs2gtConnectGateRequest : MsgId := 20200
def gt2gsConnectGateResponse : MsgId := 20201
def gt2gsGetRoleRequest : MsgId := 20202
def gs2gtGetRoleResponse : MsgId := 20203
def gt2gsCreateRoleRequest : MsgId := 20204
def gs2gtCreateRoleResponse : MsgId := 20205
def gt2gsEnterGameRequest : MsgId := 20210
def gt2gsLeaveGameRequest : MsgId := 20212
def gs2dsConnectDBRequest : MsgId := 25000
def ds2gsConnectDBResponse : MsgId := 25001
def gs2dsGetRoleRequest : MsgId := 25010
def ds2gsGetRoleResponse : MsgId := 25011
def gs2dsCreateRoleRequest : MsgId := 25012
def ds2gsCreateRoleResponse : MsgId := 25013
def gs2dsSetRoleDataRequest : MsgId := 25100
def ds2gsSetRoleDataResponse : MsgId := 25101
def gs2dsAddItemRequest : MsgId := 25102
def ds2gsAddItemResponse : MsgId := 25103
def gs2dsRmItemRequest : MsgId := 25104

end MsgId

/-- The errors that the gate sends to clients. -/
inductive ProtoErrorType where
  | serverInternalError
  | loginAccountOrPasswordInvalid
  | getRoleNone
  | enterGameInvalidAccount
  | enterGamePlayerCountMaximum
  | reconnAccountNotFound
  | reconnFailed
  deriving DecidableEq, Repr

def ProtoErrorType.code : ProtoErrorType → ℕ
  | .serverInternalError => 3
  | .loginAccountOrPasswordInvalid => 100
  | .getRoleNone => 150
  | .enterGameInvalidAccount => 202
  | .enterGamePlayerCountMaximum => 204
  | .reconnAccountNotFound => 210
  | .reconnFailed => 212

/-- `std::string`. -/
abbrev Str := List Byte

instance : LawfulBEq Str := inferInstance

/-- The ids of game servers. -/
def gameServerMinId : ℤ := 40001

def gameServerMaxId : ℤ := 40100

structure MsgBaseRoleData where
  roleId : BitVec 64
  nickName : Str
  race : ℤ
  sex : ℤ
  hp : ℤ
  level : ℤ
  deriving DecidableEq, Repr

structure MsgGetRoleRequest where
  account : Str
  enterSession : Str
  deriving DecidableEq, Repr

structure MsgC2SCreateRoleRequest where
  nickName : Str
  race : ℤ
  sex : ℤ
  deriving DecidableEq, Repr

structure MsgReconnectRequest where
  account : Str
  reconnectSession : Str
  deriving DecidableEq, Repr

structure MsgConnectGateResponse where
  maxUserCount : ℤ
  startUserId : ℤ
  deriving DecidableEq, Repr

/-- The role requests of the gate to the game server and of the game server to the db server. -/
structure MsgCreateRoleRequest where
  account : Str
  nickName : Str
  sex : ℤ
  race : ℤ
  deriving DecidableEq, Repr

/-- The role responses of the db server to the game server and of the game server to the gate. -/
structure MsgRoleResponse where
  account : Str
  roleData : MsgBaseRoleData
  deriving DecidableEq, Repr

structure MsgChat where
  content : Str
  chatType : BitVec 32
  channel : BitVec 32
  roleId : BitVec 64
  deriving DecidableEq, Repr

structure MsgRoleData where
  roleId : BitVec 64
  roleData : MsgBaseRoleData
  deriving DecidableEq, Repr

structure MsgItem where
  roleId : BitVec 64
  typeId : BitVec 32
  itemNum : BitVec 32
  deriving DecidableEq, Repr

/-- `ParseFromArray` and the bytes of a message. -/
structure Codec (α : Type) where
  parse : List Byte → Option α
  serialize : α → List Byte

/-- `SerializeToArray`, which fails when the message does not fit. -/
def Codec.serializeToArray {α : Type} (c : Codec α) (size : ℕ) (m : α) : Option (List Byte) :=
  if (c.serialize m).length ≤ size then some (c.serialize m) else none

theorem Codec.eq_serialize {α : Type} {c : Codec α} {size : ℕ} {m : α} {tmp : List Byte}
    (h : c.serializeToArray size m = some tmp) : tmp = c.serialize m := by
  obtain ⟨-, heq⟩ := Option.ite_none_right_eq_some.1 h
  exact (Option.some.inj heq).symm

/-- The codecs of the messages. A message without fields is a `Unit`. -/
structure Protocol where
  error : Codec ℕ
  c2sGetRoleRequest : Codec MsgGetRoleRequest
  c2sCreateRoleRequest : Codec MsgC2SCreateRoleRequest
  s2cCreateRoleResponse : Codec MsgBaseRoleData
  s2cEnterGameResponse : Codec Unit
  c2sReconnectRequest : Codec MsgReconnectRequest
  s2cReconnectResponse : Codec Str
  chatRequest : Codec MsgChat
  chatResponse : Codec MsgChat
  chatNotify : Codec MsgChat
  setRoleDataRequest : Codec MsgBaseRoleData
  connectGateRequest : Codec ℤ
  connectGateResponse : Codec MsgConnectGateResponse
  gt2gsGetRoleRequest : Codec Str
  gs2gtGetRoleResponse : Codec MsgRoleResponse
  gt2gsCreateRoleRequest : Codec MsgCreateRoleRequest
  gs2gtCreateRoleResponse : Codec MsgRoleResponse
  enterGameRequest : Codec (BitVec 64)
  leaveGameRequest : Codec (BitVec 64)
  connectDBRequest : Codec ℤ
  connectDBResponse : Codec Unit
  gs2dsGetRoleRequest : Codec Str
  ds2gsGetRoleResponse : Codec MsgRoleResponse
  gs2dsCreateRoleRequest : Codec MsgCreateRoleRequest
  ds2gsCreateRoleResponse : Codec MsgRoleResponse
  gs2dsSetRoleDataRequest : Codec MsgRoleData
  ds2gsSetRoleDataResponse : Codec MsgRoleData
  addItemRequest : Codec MsgItem
  addItemResponse : Codec MsgItem
  rmItemRequest : Codec MsgItem

/-- `JMY_MAX_MSG_SIZE`, the size of the buffers that messages are serialized to. -/
def maxMsgSize : ℕ := 64 * 1024

namespace Wire

def string (s : Str) : Option Str := if validUtf8 s.length s then some s else none

def roleData : Codec MsgBaseRoleData where
  parse bs := (decode bs).map fun fs => ⟨BitVec.ofNat 64 (uintOf fs 1), bytesOf fs 2, int32Of fs 3,
    int32Of fs 4, int32Of fs 5, int32Of fs 6⟩
  serialize m := encodeUint 1 m.roleId.toNat ++ encodeBytes 2 m.nickName ++ encodeInt32 3 m.race ++
    encodeInt32 4 m.sex ++ encodeInt32 5 m.hp ++ encodeInt32 6 m.level

/-- A message without fields. -/
def unit : Codec Unit := ⟨fun bs => (decode bs).map fun _ => (), fun _ => []⟩

/-- A message with one integer. -/
def uint : Codec ℕ := ⟨fun bs => (decode bs).map fun fs => uintOf fs 1, encodeUint 1⟩

def uint64 : Codec (BitVec 64) :=
  ⟨fun bs => (decode bs).map fun fs => BitVec.ofNat 64 (uintOf fs 1), fun v => encodeUint 1 v.toNat⟩

def int32 : Codec ℤ := ⟨fun bs => (decode bs).map fun fs => int32Of fs 1, encodeInt32 1⟩

def bytes : Codec Str := ⟨fun bs => (decode bs).map fun fs => bytesOf fs 1, encodeBytes 1⟩

/-- A message with one account, which is a `string`. -/
def account : Codec Str :=
  ⟨fun bs => (decode bs).bind fun fs => string (bytesOf fs 1), encodeBytes 1⟩

def getRoleRequest : Codec MsgGetRoleRequest :=
  ⟨fun bs => (decode bs).map fun fs => ⟨bytesOf fs 1, bytesOf fs 2⟩,
    fun m => encodeBytes 1 m.account ++ encodeBytes 2 m.enterSession⟩

def c2sCreateRoleRequest : Codec MsgC2SCreateRoleRequest :=
  ⟨fun bs => (decode bs).map fun fs => ⟨bytesOf fs 1, int32Of fs 2, int32Of fs 3⟩,
    fun m => encodeBytes 1 m.nickName ++ encodeInt32 2 m.race ++ encodeInt32 3 m.sex⟩

def reconnectRequest : Codec MsgReconnectRequest :=
  ⟨fun bs => (decode bs).map fun fs => ⟨bytesOf fs 1, bytesOf fs 2⟩,
    fun m => encodeBytes 1 m.account ++ encodeBytes 2 m.reconnectSession⟩

def chat : Codec MsgChat :=
  ⟨fun bs => (decode bs).map fun fs => ⟨bytesOf fs 1, BitVec.ofNat 32 (uintOf fs 2),
    BitVec.ofNat 32 (uintOf fs 3), BitVec.ofNat 64 (uintOf fs 4)⟩,
    fun m => encodeBytes 1 m.content ++ encodeUint 2 m.chatType.toNat ++
      encodeUint 3 m.channel.toNat ++ encodeUint 4 m.roleId.toNat⟩

/-- A message whose field `n` is the role data. -/
def ofRoleData (n : ℕ) : Codec MsgBaseRoleData :=
  ⟨fun bs => (decode bs).bind fun fs => roleData.parse (messageOf fs n),
    fun m => encodeMessage n (roleData.serialize m)⟩

def connectGateResponse : Codec MsgConnectGateResponse :=
  ⟨fun bs => (decode bs).map fun fs => ⟨int32Of fs 1, int32Of fs 2⟩,
    fun m => encodeInt32 1 m.maxUserCount ++ encodeInt32 2 m.startUserId⟩

def createRoleRequest : Codec MsgCreateRoleRequest :=
  ⟨fun bs => (decode bs).bind fun fs => (string (bytesOf fs 1)).map fun a =>
    ⟨a, bytesOf fs 2, int32Of fs 3, int32Of fs 4⟩,
    fun m => encodeBytes 1 m.account ++ encodeBytes 2 m.nickName ++ encodeInt32 3 m.sex ++
      encodeInt32 4 m.race⟩

def roleResponse : Codec MsgRoleResponse :=
  ⟨fun bs => (decode bs).bind fun fs => (string (bytesOf fs 1)).bind fun a =>
    (roleData.parse (messageOf fs 2)).map fun d => ⟨a, d⟩,
    fun m => encodeBytes 1 m.account ++ encodeMessage 2 (roleData.serialize m.roleData)⟩

def setRoleData : Codec MsgRoleData :=
  ⟨fun bs => (decode bs).bind fun fs => (roleData.parse (messageOf fs 2)).map fun d =>
    ⟨BitVec.ofNat 64 (uintOf fs 1), d⟩,
    fun m => encodeUint 1 m.roleId.toNat ++ encodeMessage 2 (roleData.serialize m.roleData)⟩

def item : Codec MsgItem :=
  ⟨fun bs => (decode bs).map fun fs => ⟨BitVec.ofNat 64 (uintOf fs 1), BitVec.ofNat 32 (uintOf fs 2),
    BitVec.ofNat 32 (uintOf fs 3)⟩,
    fun m => encodeUint 1 m.roleId.toNat ++ encodeUint 2 m.typeId.toNat ++ encodeUint 3 m.itemNum.toNat⟩

/-- A role id comes back. -/
theorem uint64_round_trip (v : BitVec 64) : uint64.parse (uint64.serialize v) = some v := by
  have hdecode := decode_uints [(1, v.toNat)] (by simpa using v.isLt)
  rw [List.flatMap_singleton, List.flatMap_singleton] at hdecode
  have hvalue : uintOf (uintField 1 v.toNat) 1 = v.toNat := by
    unfold uintField
    split_ifs with h
    · exact h.symm
    · rfl
  simp only [uint64, hdecode, hvalue, Option.map_some, BitVec.ofNat_toNat, BitVec.setWidth_eq]

/-- A number of items comes back. -/
theorem item_round_trip (m : MsgItem) : item.parse (item.serialize m) = some m := by
  have hdecode := decode_uints [(1, m.roleId.toNat), (2, m.typeId.toNat), (3, m.itemNum.toNat)]
    (by
      have h₁ := m.roleId.isLt
      have h₂ := m.typeId.isLt
      have h₃ := m.itemNum.isLt
      simp only [List.mem_cons, List.not_mem_nil, or_false, forall_eq_or_imp, forall_eq]
      omega)
  simp only [List.flatMap_cons, List.flatMap_nil, List.append_nil, ← List.append_assoc] at hdecode
  have hvalues : ∀ a b c, let fs := uintField 1 a ++ uintField 2 b ++ uintField 3 c
      uintOf fs 1 = a ∧ uintOf fs 2 = b ∧ uintOf fs 3 = c := by
    intro a b c
    unfold uintField
    split_ifs <;> simp_all [uintOf]
  obtain ⟨h₁, h₂, h₃⟩ := hvalues m.roleId.toNat m.typeId.toNat m.itemNum.toNat
  simp only [item, hdecode, h₁, h₂, h₃, Option.map_some, BitVec.ofNat_toNat, BitVec.setWidth_eq]

theorem length_item_le (m : MsgItem) : (item.serialize m).length ≤ 60 := by
  have h₁ := length_encodeUint_le 1 m.roleId.toNat
  have h₂ := length_encodeUint_le 2 m.typeId.toNat
  have h₃ := length_encodeUint_le 3 m.itemNum.toNat
  simp only [item, List.length_append]
  omega

end Wire

/-- The protocol of the `.proto` files. -/
def wire : Protocol where
  error := Wire.uint
  c2sGetRoleRequest := Wire.getRoleRequest
  c2sCreateRoleRequest := Wire.c2sCreateRoleRequest
  s2cCreateRoleResponse := Wire.ofRoleData 1
  s2cEnterGameResponse := Wire.unit
  c2sReconnectRequest := Wire.reconnectRequest
  s2cReconnectResponse := Wire.bytes
  chatRequest := Wire.chat
  chatResponse := Wire.chat
  chatNotify := Wire.chat
  setRoleDataRequest := Wire.ofRoleData 1
  connectGateRequest := Wire.int32
  connectGateResponse := Wire.connectGateResponse
  gt2gsGetRoleRequest := Wire.account
  gs2gtGetRoleResponse := Wire.roleResponse
  gt2gsCreateRoleRequest := Wire.createRoleRequest
  gs2gtCreateRoleResponse := Wire.roleResponse
  enterGameRequest := Wire.uint64
  leaveGameRequest := Wire.uint64
  connectDBRequest := Wire.int32
  connectDBResponse := Wire.unit
  gs2dsGetRoleRequest := Wire.account
  ds2gsGetRoleResponse := Wire.roleResponse
  gs2dsCreateRoleRequest := Wire.createRoleRequest
  ds2gsCreateRoleResponse := Wire.roleResponse
  gs2dsSetRoleDataRequest := Wire.setRoleData
  ds2gsSetRoleDataResponse := Wire.setRoleData
  addItemRequest := Wire.item
  addItemResponse := Wire.item
  rmItemRequest := Wire.item

/-- `send(msg_id, data, len)` succeeds on a connected connection with a send list. The lists of the
servers have no limits, so that what they hold does not matter. -/
def sendTakes (msgId : MsgId) (data : List Byte) : Bool :=
  match writeUserData (JmySessionBufferList.init 0 0) msgId data with
  | some r => 0 ≤ r.1
  | none => false

/-- `send(user_id, msg_id, data, len)` succeeds on a connected connection with a send list. -/
def sendUserTakes (userId : BitVec 32) (msgId : MsgId) (data : List Byte) : Bool :=
  match writeUserIdAndData (JmySessionBufferList.init 0 0) userId msgId data with
  | some r => 0 ≤ r.1
  | none => false

section unlimited

variable {l : JmySessionBufferList} (hbytes : l.maxBytes = 0) (hcount : l.maxCount = 0)

include hbytes hcount

theorem overLimit_unlimited (len : ℕ) : l.overLimit len = false := by
  simp [JmySessionBufferList.overLimit, hbytes, hcount]

theorem writeHeadAndData_unlimited (head data : List Byte) :
    (writeHeadAndData l head data).map Prod.fst =
      (writeHeadAndData (JmySessionBufferList.init 0 0) head data).map Prod.fst := by
  have hover := overLimit_unlimited hbytes hcount
  have hover' := overLimit_unlimited (l := JmySessionBufferList.init 0 0) rfl rfl
  unfold writeHeadAndData
  by_cases hdata : data.length = 0
  · simp only [if_pos hdata, SendBuffer.writeData, JmySessionBufferList.writeData, hover, hover',
      Bool.false_eq_true, if_false]
    cases Buffer.initData head (head.length % 2 ^ 16) <;> rfl
  · simp only [if_neg hdata, SendBuffer.writeDatas, JmySessionBufferList.writeDatas, hover, hover',
      Bool.false_eq_true, if_false, reduceCtorEq]
    cases (Buffer.initLen (([head, data].map List.length).sum % 2 ^ 32 % 2 ^ 16)).bind fun b =>
      JmySessionBufferList.fill b [head, data] <;> rfl

/-- A write to a list without limits is refused or not whatever the list holds. -/
theorem writeUserData_unlimited (msgId : MsgId) (data : List Byte) :
    (writeUserData l msgId data).map Prod.fst =
      (writeUserData (JmySessionBufferList.init 0 0) msgId data).map Prod.fst := by
  unfold writeUserData
  split
  · rfl
  · exact writeHeadAndData_unlimited hbytes hcount _ _

end unlimited

theorem writeUserData_list_defined (l : JmySessionBufferList) (msgId : MsgId) (data : List Byte) :
    ∃ r, writeUserData l msgId data = some r := by
  unfold writeUserData writeHeadAndData
  split
  · exact ⟨_, rfl⟩
  · split
    · exact ⟨_, rfl⟩
    · exact ⟨_, rfl⟩

/-- `sendTakes` is the result of `send` on a connected connection with an unlimited send list. -/
theorem send_eq_sendTakes {c : JmyTcpConnection} (hstate : c.state = .connected)
    (hlist : c.buffer.useSendList = true) (hbytes : c.buffer.sendBuffList.maxBytes = 0)
    (hcount : c.buffer.sendBuffList.maxCount = 0) (msgId : MsgId) (data : List Byte) :
    (c.send msgId data).map Prod.fst = some (if sendTakes msgId data then toInt data.length else -1) := by
  have hsame := writeUserData_unlimited hbytes hcount msgId data
  obtain ⟨r, hr⟩ := writeUserData_list_defined (JmySessionBufferList.init 0 0) msgId data
  rw [hr, Option.map_some] at hsame
  obtain ⟨r', hr', hfst⟩ := Option.map_eq_some_iff.1 hsame
  have htakes : sendTakes msgId data = decide (0 ≤ r.1) := by rw [sendTakes, hr]
  simp only [JmyTcpConnection.send, JmyTcpConnection.observe, JmyTcpConnection.writeUser, hstate, hlist,
    ne_eq, not_true_eq_false, if_false, if_true, hr', Option.map_some, hfst, htakes, decide_eq_true_eq,
    Option.some.injEq]
  by_cases hneg : r.1 < 0
  · rw [if_pos hneg, if_neg (not_le.2 hneg)]
  · rw [if_neg hneg, if_pos (not_lt.1 hneg)]

/-- A packet on the link between two servers. A plain packet has no user id. -/
structure Packet where
  userId : Option (BitVec 32)
  msgId : MsgId
  data : List Byte
  deriving DecidableEq, Repr

end JmyGame
