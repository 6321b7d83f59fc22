import Mathlib.Data.List.GetD
import JmyGame.NetProto2
import JmyGame.LibBlock

/-! The packet format of `jmy_net_proto`, which is older than `jmy_net_proto2`: a packet begins with its type byte, and
only user packets have a length. Each kind of packet has its own packer and its own branch in the unpacker. -/

namespace JmyGame

open CArith Block

/-- `JmyPacketType`, which has the values of `JmyPacketType2`. -/
abbrev JmyPacketType := JmyPacketType2

/-- `JmyUnpackResultType`. -/
abbrev JmyUnpackResultType := JmyUnpackResultType2

/-- `JmyPacketUnpackData`, which a data handler keeps from one packet to the next. -/
structure JmyPacketUnpackData where
  type : JmyPacketType
  param : BitVec 64
  data : BitVec 32
  result : JmyUnpackResultType
  msgInfo : JmyMsgInfo
  deriving DecidableEq, Repr

def JmyPacketUnpackData.init : JmyPacketUnpackData := ⟨.none, 0, 0, .noError, ⟨0, 0, [], 0, 0⟩⟩

namespace NetProto

def packetLenType : ℕ := 1
def packetLenDisconnect : ℕ := 1
def packetLenDisconnectAck : ℕ := 1
def packetLenUserDataHead : ℕ := 1 + 2 + 2
def packetLenUserIdDataHead : ℕ := 1 + 4 + 2 + 2
def packetLenAck : ℕ := 1 + 2 + 2
def packetLenHeartbeat : ℕ := 1 + 4

/-! ### Packers

A packer gets the size of its buffer and answers the bytes it writes, or nothing where it returns `-1`. -/

def packDisconnect (len : ℕ) : Option (List Byte) :=
  if len < packetLenDisconnect then none else some [JmyPacketType2.disconnect.toChar]

def packDisconnectAck (len : ℕ) : Option (List Byte) :=
  if len < packetLenDisconnectAck then none else some [JmyPacketType2.disconnectAck.toChar]

def packMsgidDatalen (len : ℕ) (msgid : BitVec 32) (dataLen : BitVec 16) : Option (List Byte) :=
  if len < packetLenUserDataHead then none
  else some ([JmyPacketType2.userData.toChar] ++ packInt16 (dataLen.setWidth 32 + 2#32) ++ packInt16 msgid)

def packUseridMsgidDatalen (len : ℕ) (userId msgId : BitVec 32) (dataLen : BitVec 16) : Option (List Byte) :=
  if len < packetLenUserIdDataHead then none
  else some ([JmyPacketType2.userIdData.toChar] ++ packInt32 userId ++ packInt16 (dataLen.setWidth 32 + 2#32) ++
    packInt16 msgId)

def packAck (len : ℕ) (msgCount currId : BitVec 16) : Option (List Byte) :=
  if len < packetLenAck then none
  else some ([JmyPacketType2.ack.toChar] ++ packInt16 (msgCount.setWidth 32) ++ packInt16 (currId.setWidth 32))

/-- `t` is the clock. -/
def packHeartbeat (len : ℕ) (t : BitVec 64) : Option (List Byte) :=
  if len < packetLenHeartbeat then none else some ([JmyPacketType2.heartbeat.toChar] ++ packInt32 t)

/-- `PACK_INT64_TO_BUFF`. -/
def packInt64 {w : ℕ} (value : BitVec w) : List Byte :=
  [byteOf 7 value, byteOf 6 value, byteOf 5 value, byteOf 4 value, byteOf 3 value, byteOf 2 value, byteOf 1 value,
    byteOf 0 value]

/-- The value of a user defined head. -/
inductive DefinedParam where
  | int64 (value : BitVec 64)
  | int (value : BitVec 32)
  | short (value : BitVec 16)
  | char (value : Byte)
  deriving DecidableEq, Repr

/-- The bytes of the value, the highest first. -/
def DefinedParam.bytes : DefinedParam → List Byte
  | .int64 value => packInt64 value
  | .int value => packInt32 value
  | .short value => packInt16 (value.signExtend 32)
  | .char value => [value]

/-- `jmy_net_proto_pack_defined_type_head` into a buffer: the buffer behind it, or nothing where it returns `-1`. The
macros write the value to the beginning of the buffer; a `char` is written behind the type byte. -/
def packDefinedTypeHead (buf : List Byte) (type : Byte) (param : DefinedParam) : Option (List Byte) :=
  if buf.length < packetLenType + param.bytes.length then none
  else match param with
  | .int64 value => some (write (write buf 0 [type]) 0 (packInt64 value))
  | .int value => some (write (write buf 0 [type]) 0 (packInt32 value))
  | .short value => some (write (write buf 0 [type]) 0 (packInt16 (value.signExtend 32)))
  | .char value => some (write (write buf 0 [type]) 1 [value])

/-- An `unsigned int` as an `int`. -/
def intOf (n : ℕ) : ℤ := (BitVec.ofNat 32 n).toInt

/-- The user id of a user packet and the offset behind it; nothing when the packet is too short. -/
def unpackUserId (type : JmyPacketType) (buf : List Byte) : Option (BitVec 32 × ℕ) :=
  if type = .userIdData then
    if buf.length - packetLenType < 4 then none
    else some (unpackInt32 (buf.getD 1 0) (buf.getD 2 0) (buf.getD 3 0) (buf.getD 4 0), packetLenType + 4)
  else some (0, packetLenType)

/-- The user data branch of `jmy_net_proto_unpack_data_head`. -/
def unpackUser (type : JmyPacketType) (buf : List Byte) (data : JmyPacketUnpackData) (connId : ℤ) :
    ℤ × JmyPacketUnpackData :=
  match unpackUserId type buf with
  | none => (0, { data with result := .dataNotEnough })
  | some (userId, offset) =>
      if intOf buf.length - offset - 2 < 0 then (0, { data with result := .dataNotEnough })
      else
        let dataLen : BitVec 16 := (unpackInt16 (buf.getD offset 0) (buf.getD (offset + 1) 0)).setWidth 16
        if dataLen.toNat < 2 then (-1, { data with data := dataLen.setWidth 32, result := .msgLenInvalid })
        else if intOf (buf.length - (offset + 2)) < dataLen.toNat then
          (0, { data with data := dataLen.setWidth 32 + BitVec.ofNat 32 (offset + 2), result := .userDataNotEnough })
        else
          let msgId := unpackInt16 (buf.getD (offset + 2) 0) (buf.getD (offset + 3) 0)
          let len := dataLen.toNat - 2
          ((offset + 4 + len : ℕ), { data with
            param := msgId.signExtend 64
            result := .noError
            msgInfo := ⟨userId, msgId, (buf.drop (offset + 4)).take len, len, connId⟩ })

/-- `jmy_net_proto_unpack_data_head`: the number of handled bytes, or `-1`, and the new unpack data. -/
def unpackDataHead (buf : List Byte) (data : JmyPacketUnpackData) (connId : ℤ) : ℤ × JmyPacketUnpackData :=
  if buf.length = 0 then (0, data)
  else
    let type := JmyPacketType2.ofChar (buf.getD 0 0)
    let data := { data with type := type }
    match type with
    | .userData => unpackUser .userData buf data connId
    | .userIdData => unpackUser .userIdData buf data connId
    | .ack =>
        if buf.length - 1 ≤ 2 + 2 then (0, { data with result := .dataNotEnough })
        else (1 + 2 + 2, { data with
          data := unpackInt16 (buf.getD 1 0) (buf.getD 2 0)
          param := (unpackInt16 (buf.getD 3 0) (buf.getD 4 0)).signExtend 64
          result := .noError })
    | .heartbeat =>
        if buf.length - 1 ≤ 4 then (0, { data with result := .dataNotEnough })
        else (1 + 4, { data with
          param := (unpackInt32 (buf.getD 1 0) (buf.getD 2 0) (buf.getD 3 0) (buf.getD 4 0)).setWidth 64
          result := .noError })
    | .disconnect =>
        if buf.length < packetLenDisconnect then (0, { data with result := .dataNotEnough })
        else (packetLenDisconnect, { data with result := .noError })
    | .disconnectAck =>
        if buf.length < packetLenDisconnectAck then (0, { data with result := .dataNotEnough })
        else (packetLenDisconnectAck, { data with result := .noError })
    | _ => (-1, data)

/-- A packet with the fields it is packed from. User packets carry `data_len` bytes behind their head. -/
inductive WirePacket where
  | disconnect
  | disconnectAck
  | userData (msgId : BitVec 32) (payload : List Byte) (fits : payload.length ≤ 65533)
  | userIdData (userId msgId : BitVec 32) (payload : List Byte) (fits : payload.length ≤ 65533)
  | ack (msgCount currId : BitVec 16)
  | heartbeat (t : BitVec 64)

namespace WirePacket

def type : WirePacket → JmyPacketType
  | disconnect => .disconnect
  | disconnectAck => .disconnectAck
  | userData _ _ _ => .userData
  | userIdData _ _ _ _ => .userIdData
  | ack _ _ => .ack
  | heartbeat _ => .heartbeat

/-- What the packer writes into a buffer of the size of its packet. -/
def pack : WirePacket → Option (List Byte)
  | disconnect => packDisconnect packetLenDisconnect
  | disconnectAck => packDisconnectAck packetLenDisconnectAck
  | userData msgId payload _ => packMsgidDatalen packetLenUserDataHead msgId (BitVec.ofNat 16 payload.length)
  | userIdData userId msgId payload _ =>
      packUseridMsgidDatalen packetLenUserIdDataHead userId msgId (BitVec.ofNat 16 payload.length)
  | ack msgCount currId => packAck packetLenAck msgCount currId
  | heartbeat t => packHeartbeat packetLenHeartbeat t

/-- The bytes behind what the packer writes. -/
def payload : WirePacket → List Byte
  | userData _ payload _ => payload
  | userIdData _ _ payload _ => payload
  | _ => []

/-- The bytes of the packet. -/
def bytes (p : WirePacket) : List Byte := p.pack.getD [] ++ p.payload

/-- The unpack data holds the fields of the packet. -/
def FieldsIn (p : WirePacket) (connId : ℤ) (data : JmyPacketUnpackData) : Prop :=
  match p with
  | disconnect => True
  | disconnectAck => True
  | userData msgId payload _ => data.msgInfo = ⟨0, msgId, payload, payload.length, connId⟩
  | userIdData userId msgId payload _ => data.msgInfo = ⟨userId, msgId, payload, payload.length, connId⟩
  | ack msgCount currId => data.data = msgCount.setWidth 32 ∧ data.param = currId.setWidth 64
  | heartbeat t => data.param = (t.setWidth 32).setWidth 64

/-- The unpacker reads the packet back from its bytes and waits for more bytes when there are fewer. -/
structure RoundTrips (p : WirePacket) : Prop where
  consumes : ∀ data connId, (unpackDataHead p.bytes data connId).1 = p.bytes.length
  type : ∀ data connId, (unpackDataHead p.bytes data connId).2.type = p.type
  fields : ∀ data connId, p.FieldsIn connId (unpackDataHead p.bytes data connId).2
  waits : ∀ data connId n, n < p.bytes.length → (unpackDataHead (p.bytes.take n) data connId).1 = 0

/-- The message id has two bytes, and the unpacker does not ask for a byte more than the packet has. -/
def Fits : WirePacket → Prop
  | disconnect => True
  | disconnectAck => True
  | userData msgId _ _ => msgId.toNat ≤ 65535
  | userIdData _ msgId _ _ => msgId.toNat ≤ 65535
  | ack _ _ => False
  | heartbeat _ => False

end WirePacket

theorem intOf_eq {n : ℕ} (h : n < 2 ^ 31) : intOf n = n := by
  rw [intOf, BitVec.toInt_ofNat', Int.bmod_eq_of_le] <;> omega

/-- The length field of a user packet. -/
theorem lenField_eq {n : ℕ} (h : n ≤ 65533) : (BitVec.ofNat 16 n).setWidth 32 + 2#32 = BitVec.ofNat 32 (n + 2) := by
  apply BitVec.eq_of_toNat_eq
  rw [BitVec.toNat_add, BitVec.toNat_setWidth, BitVec.toNat_ofNat, BitVec.toNat_ofNat, BitVec.toNat_ofNat]
  omega

/-- With the length field in the buffer the branch waits until the whole packet is there. -/
theorem unpackUser_cases {type : JmyPacketType} {buf : List Byte} {userId : BitVec 32} {offset n : ℕ}
    (data : JmyPacketUnpackData) (connId : ℤ) (hlen : buf.length < 2 ^ 31)
    (hid : unpackUserId type buf = some (userId, offset)) (hoffset : offset ≤ buf.length) (hn : n ≤ 65533)
    (hsmall : offset ≤ 5)
    (hfield : offset + 2 ≤ buf.length →
      unpackInt16 (buf.getD offset 0) (buf.getD (offset + 1) 0) = BitVec.ofNat 32 (n + 2)) :
    (offset + 4 + n ≤ buf.length ∧ unpackUser type buf data connId = (((offset + 4 + n : ℕ) : ℤ), { data with
      param := (unpackInt16 (buf.getD (offset + 2) 0) (buf.getD (offset + 3) 0)).signExtend 64
      result := .noError
      msgInfo := ⟨userId, unpackInt16 (buf.getD (offset + 2) 0) (buf.getD (offset + 3) 0),
        (buf.drop (offset + 4)).take n, n, connId⟩ })) ∨
    (buf.length < offset + 4 + n ∧ ∃ data', unpackUser type buf data connId = (0, data') ∧ data'.type = data.type ∧
      (data'.result = .dataNotEnough ∨
        data'.result = .userDataNotEnough ∧ data'.data = BitVec.ofNat 32 (offset + 4 + n))) := by
  unfold unpackUser
  rw [hid]
  dsimp only
  rw [intOf_eq hlen]
  by_cases hhead : offset + 2 ≤ buf.length
  · have hdataLen : ((BitVec.ofNat 32 (n + 2)).setWidth 16).toNat = n + 2 := by
      rw [BitVec.toNat_setWidth, BitVec.toNat_ofNat]
      omega
    rw [if_neg (by omega), hfield hhead, hdataLen, if_neg (by omega), intOf_eq (by omega), Nat.add_sub_cancel]
    by_cases hall : offset + 4 + n ≤ buf.length
    · rw [if_neg (by omega)]
      exact Or.inl ⟨hall, rfl⟩
    · rw [if_pos (by omega)]
      refine Or.inr ⟨by omega, _, rfl, rfl, Or.inr ⟨rfl, ?_⟩⟩
      apply BitVec.eq_of_toNat_eq
      rw [BitVec.toNat_add, BitVec.toNat_setWidth, hdataLen, BitVec.toNat_ofNat, BitVec.toNat_ofNat]
      omega
  · rw [if_pos (by omega)]
    exact Or.inr ⟨by omega, _, rfl, rfl, Or.inl rfl⟩

namespace WirePacket

/-- A message id as the unpacker reads it. -/
def wireMsgId (msgId : BitVec 32) : BitVec 32 := unpackInt16 (byteOf 1 msgId) (byteOf 0 msgId)

/-- The message of a user packet, as the unpacker reads it. -/
def msgInfo (connId : ℤ) : WirePacket → JmyMsgInfo
  | userData msgId payload _ => ⟨0, wireMsgId msgId, payload, payload.length, connId⟩
  | userIdData userId msgId payload _ => ⟨userId, wireMsgId msgId, payload, payload.length, connId⟩
  | _ => ⟨0, 0, [], 0, connId⟩

theorem bytes_userData (msgId : BitVec 32) (payload : List Byte) (fits : payload.length ≤ 65533) :
    (userData msgId payload fits).bytes =
      [5#8] ++ packInt16 (BitVec.ofNat 32 (payload.length + 2)) ++ packInt16 msgId ++ payload := by
  rw [← lenField_eq fits]
  rfl

theorem bytes_userIdData (userId msgId : BitVec 32) (payload : List Byte) (fits : payload.length ≤ 65533) :
    (userIdData userId msgId payload fits).bytes =
      [10#8] ++ packInt32 userId ++ packInt16 (BitVec.ofNat 32 (payload.length + 2)) ++ packInt16 msgId ++ payload := by
  rw [← lenField_eq fits]
  rfl

theorem getD_of_isPrefix {buf whole : List Byte} (h : buf <+: whole) {i : ℕ} (hi : i < buf.length) :
    buf.getD i 0 = whole.getD i 0 := by
  obtain ⟨t, rfl⟩ := h
  exact (List.getD_append buf t 0 i hi).symm

/-- The unpacker has read a user packet. -/
structure Reads (p : WirePacket) (connId : ℤ) (r : ℤ × JmyPacketUnpackData) : Prop where
  handled : r.1 = p.bytes.length
  type : r.2.type = p.type
  result : r.2.result = .noError
  msgInfo : r.2.msgInfo = p.msgInfo connId

/-- The unpacker waits for more of a user packet. -/
structure Waits (p : WirePacket) (r : ℤ × JmyPacketUnpackData) : Prop where
  handled : r.1 = 0
  type : r.2.type = p.type
  result : r.2.result = .dataNotEnough ∨
    r.2.result = .userDataNotEnough ∧ r.2.data = BitVec.ofNat 32 p.bytes.length

theorem length_bytes_userData (msgId : BitVec 32) (payload : List Byte) (fits : payload.length ≤ 65533) :
    (userData msgId payload fits).bytes.length = 1 + 4 + payload.length := by
  rw [bytes_userData]
  simp only [List.length_append, List.length_singleton, length_packInt16]

theorem length_bytes_userIdData (userId msgId : BitVec 32) (payload : List Byte) (fits : payload.length ≤ 65533) :
    (userIdData userId msgId payload fits).bytes.length = 5 + 4 + payload.length := by
  rw [bytes_userIdData]
  simp only [List.length_append, List.length_singleton, length_packInt16, length_packInt32]

theorem take_drop_of_isPrefix {buf head body more : List Byte} (h : buf <+: head ++ body ++ more)
    (hle : head.length + body.length ≤ buf.length) : (buf.drop head.length).take body.length = body := by
  obtain ⟨t, ht⟩ := h
  have hdrop : (buf ++ t).drop head.length = body ++ more := by
    rw [ht, List.append_assoc, List.drop_left]
  rw [List.drop_append_of_le_length (by omega)] at hdrop
  have htake := congrArg (List.take body.length) hdrop
  rw [List.take_left, List.take_append_of_le_length] at htake
  · exact htake
  · rw [List.length_drop]
    omega

/-- A user packet whose type and user id are read: the unpacker has it, or it waits for more. `head` is what stands in
front of the length. -/
theorem unpackUser_reads_or_waits {p : WirePacket} {userId msgId : BitVec 32} {head buf more : List Byte}
    (hbytes : p.bytes = head ++ packInt16 (BitVec.ofNat 32 (p.payload.length + 2)) ++ packInt16 msgId ++ p.payload)
    (fits : p.payload.length ≤ 65533) (hbuf : buf <+: p.bytes ++ more) (hlen : buf.length < 2 ^ 31)
    (hhead : head.length ≤ 5) (hle : head.length ≤ buf.length)
    (hid : unpackUserId p.type buf = some (userId, head.length)) {data : JmyPacketUnpackData}
    (htype : data.type = p.type) {connId : ℤ}
    (hmsg : p.msgInfo connId = ⟨userId, wireMsgId msgId, p.payload, p.payload.length, connId⟩) :
    (p.bytes.length ≤ buf.length ∧ p.Reads connId (unpackUser p.type buf data connId)) ∨
    (buf.length < p.bytes.length ∧ p.Waits (unpackUser p.type buf data connId)) := by
  have hlength : p.bytes.length = head.length + 4 + p.payload.length := by
    rw [hbytes]
    simp only [List.length_append, length_packInt16]
  have hget : ∀ i, head.length + i < buf.length → buf.getD (head.length + i) 0 =
      (packInt16 (BitVec.ofNat 32 (p.payload.length + 2)) ++ packInt16 msgId ++ (p.payload ++ more)).getD i 0 := by
    intro i hi
    rw [getD_of_isPrefix hbuf hi, hbytes]
    simp only [List.append_assoc]
    rw [List.getD_append_right _ _ _ _ (Nat.le_add_right _ _), Nat.add_sub_cancel_left]
  have hfield : head.length + 2 ≤ buf.length → unpackInt16 (buf.getD head.length 0) (buf.getD (head.length + 1) 0) =
      BitVec.ofNat 32 (p.payload.length + 2) := by
    intro hle
    have h0 := hget 0 (by omega)
    rw [Nat.add_zero] at h0
    rw [h0, hget 1 (by omega)]
    refine unpackInt16_byteOf _ ?_
    rw [BitVec.toNat_ofNat]
    omega
  rcases unpackUser_cases data connId hlen hid hle fits hhead hfield with
    ⟨hle, heq⟩ | ⟨hlt, data', heq, htype', hresult⟩
  · refine Or.inl ⟨by omega, ?_⟩
    rw [heq]
    refine ⟨by rw [hlength], htype, rfl, ?_⟩
    have hpayload : (buf.drop (head.length + 4)).take p.payload.length = p.payload := by
      have hfour : (head ++ packInt16 (BitVec.ofNat 32 (p.payload.length + 2)) ++ packInt16 msgId).length =
          head.length + 4 := by
        simp only [List.length_append, length_packInt16]
      rw [← hfour]
      rw [hbytes] at hbuf
      exact take_drop_of_isPrefix hbuf (hfour.symm ▸ hle)
    dsimp only
    rw [hpayload, hget 2 (by omega), hget 3 (by omega), hmsg]
    rfl
  · refine Or.inr ⟨by omega, ?_⟩
    rw [heq]
    exact ⟨rfl, htype'.trans htype, by rw [hlength]; exact hresult⟩

theorem unpack_userData {msgId : BitVec 32} {payload : List Byte} {fits : payload.length ≤ 65533}
    {buf more : List Byte} (hbuf : buf <+: (userData msgId payload fits).bytes ++ more) (hne : buf ≠ [])
    (hlen : buf.length < 2 ^ 31) (data : JmyPacketUnpackData) (connId : ℤ) :
    ((userData msgId payload fits).bytes.length ≤ buf.length ∧
      (userData msgId payload fits).Reads connId (unpackDataHead buf data connId)) ∨
    (buf.length < (userData msgId payload fits).bytes.length ∧
      (userData msgId payload fits).Waits (unpackDataHead buf data connId)) := by
  have hpos := List.length_pos_iff.2 hne
  have hfirst : JmyPacketType2.ofChar (buf.getD 0 0) = .userData := by
    rw [getD_of_isPrefix hbuf hpos, bytes_userData]
    rfl
  have hunpack : unpackDataHead buf data connId = unpackUser .userData buf { data with type := .userData } connId := by
    unfold unpackDataHead
    rw [if_neg (by omega), hfirst]
  rw [hunpack]
  exact unpackUser_reads_or_waits (bytes_userData msgId payload fits) fits hbuf hlen (by decide) hpos rfl rfl rfl

theorem unpack_userIdData {userId msgId : BitVec 32} {payload : List Byte} {fits : payload.length ≤ 65533}
    {buf more : List Byte} (hbuf : buf <+: (userIdData userId msgId payload fits).bytes ++ more) (hne : buf ≠ [])
    (hlen : buf.length < 2 ^ 31) (data : JmyPacketUnpackData) (connId : ℤ) :
    ((userIdData userId msgId payload fits).bytes.length ≤ buf.length ∧
      (userIdData userId msgId payload fits).Reads connId (unpackDataHead buf data connId)) ∨
    (buf.length < (userIdData userId msgId payload fits).bytes.length ∧
      (userIdData userId msgId payload fits).Waits (unpackDataHead buf data connId)) := by
  have hpos := List.length_pos_iff.2 hne
  have hbytes := bytes_userIdData userId msgId payload fits
  have hfirst : JmyPacketType2.ofChar (buf.getD 0 0) = .userIdData := by
    rw [getD_of_isPrefix hbuf hpos, hbytes]
    rfl
  have hunpack : unpackDataHead buf data connId =
      unpackUser .userIdData buf { data with type := .userIdData } connId := by
    unfold unpackDataHead
    rw [if_neg (by omega), hfirst]
  rw [hunpack]
  by_cases hshort : buf.length - packetLenType < 4
  · -- the user id is not there
    have hnone : unpackUserId .userIdData buf = none := by rw [unpackUserId, if_pos rfl, if_pos hshort]
    refine Or.inr ⟨?_, ?_⟩
    · rw [length_bytes_userIdData]
      rw [packetLenType] at hshort
      omega
    · rw [unpackUser, hnone]
      exact ⟨rfl, rfl, Or.inl rfl⟩
  · have hfive : 5 ≤ buf.length := by
      rw [packetLenType] at hshort
      omega
    have hsome : unpackUserId .userIdData buf = some (userId, 5) := by
      rw [unpackUserId, if_pos rfl, if_neg hshort, getD_of_isPrefix hbuf (by omega), getD_of_isPrefix hbuf (by omega),
        getD_of_isPrefix hbuf (by omega), getD_of_isPrefix hbuf (by omega), hbytes]
      exact congrArg (fun id => some (id, 5)) (unpackInt32_byteOf userId)
    exact unpackUser_reads_or_waits hbytes fits hbuf hlen le_rfl hfive hsome rfl rfl

theorem user_cases {p : WirePacket} (hp : p.type.IsUser) : (∃ msgId payload fits, p = userData msgId payload fits) ∨
    ∃ userId msgId payload fits, p = userIdData userId msgId payload fits := by
  cases p with
  | userData msgId payload fits => exact Or.inl ⟨msgId, payload, fits, rfl⟩
  | userIdData userId msgId payload fits => exact Or.inr ⟨userId, msgId, payload, fits, rfl⟩
  | disconnect => exact absurd hp (by decide)
  | disconnectAck => exact absurd hp (by decide)
  | ack msgCount currId => exact absurd hp (by simp [type, JmyPacketType2.IsUser])
  | heartbeat t => exact absurd hp (by simp [type, JmyPacketType2.IsUser])

/-- A buffer with the beginning of a stream that starts with a user packet. -/
theorem unpack_user {p : WirePacket} (hp : p.type.IsUser) {buf more : List Byte} (hbuf : buf <+: p.bytes ++ more)
    (hne : buf ≠ []) (hlen : buf.length < 2 ^ 31) (data : JmyPacketUnpackData) (connId : ℤ) :
    (p.bytes.length ≤ buf.length ∧ p.Reads connId (unpackDataHead buf data connId)) ∨
    (buf.length < p.bytes.length ∧ p.Waits (unpackDataHead buf data connId)) := by
  obtain ⟨msgId, payload, fits, rfl⟩ | ⟨userId, msgId, payload, fits, rfl⟩ := user_cases hp
  · exact unpack_userData hbuf hne hlen data connId
  · exact unpack_userIdData hbuf hne hlen data connId

theorem length_user {p : WirePacket} (hp : p.type.IsUser) : 0 < p.bytes.length ∧ p.bytes.length < 2 ^ 17 := by
  obtain ⟨msgId, payload, fits, rfl⟩ | ⟨userId, msgId, payload, fits, rfl⟩ := user_cases hp
  · rw [length_bytes_userData]
    omega
  · rw [length_bytes_userIdData]
    omega

/-- A message id survives its two bytes when it has no more. -/
theorem wireMsgId_eq_iff (msgId : BitVec 32) : wireMsgId msgId = msgId ↔ msgId.toNat ≤ 65535 := by
  constructor
  · intro h
    have htoNat := toNat_unpackInt16 (byteOf 1 msgId) (byteOf 0 msgId)
    have h1 := (byteOf 1 msgId).isLt
    have h0 := (byteOf 0 msgId).isLt
    rw [wireMsgId] at h
    rw [h] at htoNat
    omega
  · intro h
    exact unpackInt16_byteOf msgId (by omega)

/-- Of the fields of a user packet, only the message id may come out different. -/
theorem msgInfo_eq_iff (userId msgId : BitVec 32) (payload : List Byte) :
    (∀ (connId : ℤ) (data : JmyPacketUnpackData),
      data.msgInfo = ⟨userId, wireMsgId msgId, payload, payload.length, connId⟩ →
        data.msgInfo = ⟨userId, msgId, payload, payload.length, connId⟩) ↔ msgId.toNat ≤ 65535 := by
  rw [← wireMsgId_eq_iff]
  constructor
  · intro h
    exact congrArg JmyMsgInfo.msgId (h 0 { JmyPacketUnpackData.init with msgInfo := _ } rfl)
  · intro h connId data hdata
    rw [h] at hdata
    exact hdata

theorem user_roundTrips_iff {p : WirePacket} (hp : p.type.IsUser) :
    p.RoundTrips ↔ ∀ connId data, data.msgInfo = p.msgInfo connId → p.FieldsIn connId data := by
  obtain ⟨hpos, hlt⟩ := length_user hp
  have hwhole : ∀ data connId, p.Reads connId (unpackDataHead p.bytes data connId) := by
    intro data connId
    have hbegins : p.bytes <+: p.bytes ++ [] := List.prefix_append p.bytes []
    rcases unpack_user hp hbegins (List.ne_nil_of_length_pos hpos) (by omega) data connId with ⟨-, h⟩ | ⟨hlt, -⟩
    · exact h
    · exact absurd hlt (lt_irrefl _)
  have hwaits : ∀ data connId n, n < p.bytes.length → (unpackDataHead (p.bytes.take n) data connId).1 = 0 := by
    intro data connId n hn
    rcases Nat.eq_zero_or_pos n with rfl | hn0
    · rfl
    · have hlength : (p.bytes.take n).length = n := by
        rw [List.length_take]
        omega
      have hbegins : p.bytes.take n <+: p.bytes ++ [] := (List.take_prefix n p.bytes).trans (List.prefix_append _ _)
      have hne : p.bytes.take n ≠ [] := List.ne_nil_of_length_pos (by omega)
      rcases unpack_user hp hbegins hne (by omega) data connId with ⟨hle, -⟩ | ⟨-, h⟩
      · omega
      · exact h.handled
  constructor
  · intro h connId data hmsg
    have hread := hwhole data connId
    have hfields := h.fields data connId
    obtain ⟨msgId, payload, fits, rfl⟩ | ⟨userId, msgId, payload, fits, rfl⟩ := user_cases hp
    · exact hmsg.trans (hread.msgInfo.symm.trans hfields)
    · exact hmsg.trans (hread.msgInfo.symm.trans hfields)
  · intro h
    exact ⟨fun data connId => (hwhole data connId).handled, fun data connId => (hwhole data connId).type,
      fun data connId => h connId _ (hwhole data connId).msgInfo, hwaits⟩

/-- The unpacker reads back what a packer wrote, and waits for the rest of it, exactly for these packets: disconnect
and its ack, and user packets whose message id has two bytes. Of an ack or a heartbeat it wants a byte more than there
is. -/
theorem roundTrips_iff (p : WirePacket) : p.RoundTrips ↔ p.Fits := by
  cases p with
  | disconnect =>
      refine iff_of_true ⟨fun _ _ => rfl, fun _ _ => rfl, fun _ _ => trivial, fun data connId n hn => ?_⟩ trivial
      rw [Nat.lt_one_iff.1 hn]
      rfl
  | disconnectAck =>
      refine iff_of_true ⟨fun _ _ => rfl, fun _ _ => rfl, fun _ _ => trivial, fun data connId n hn => ?_⟩ trivial
      rw [Nat.lt_one_iff.1 hn]
      rfl
  | userData msgId payload fits =>
      rw [user_roundTrips_iff (Or.inl rfl)]
      exact msgInfo_eq_iff 0 msgId payload
  | userIdData userId msgId payload fits =>
      rw [user_roundTrips_iff (Or.inr rfl)]
      exact msgInfo_eq_iff userId msgId payload
  | ack msgCount currId =>
      refine iff_of_false (fun h => ?_) not_false
      have hzero : (0 : ℤ) = 5 := h.consumes .init 0
      exact absurd hzero (by decide)
  | heartbeat t =>
      refine iff_of_false (fun h => ?_) not_false
      have hzero : (0 : ℤ) = 5 := h.consumes .init 0
      exact absurd hzero (by decide)

end WirePacket

/-- A head that is written begins with the type byte, and the value is behind it. -/
def HeadStarts (buf : List Byte) (type : Byte) (param : DefinedParam) : Prop :=
  ∀ buf', packDefinedTypeHead buf type param = some buf' →
    buf'.take (packetLenType + param.bytes.length) = type :: param.bytes

/-- The buffer is refused; or the value is a `char`; or all bytes of the value and the byte that was in the buffer at
their end are the type byte. -/
def HeadFits (buf : List Byte) (type : Byte) (param : DefinedParam) : Prop :=
  buf.length < packetLenType + param.bytes.length ∨ (∃ value, param = .char value) ∨
    (∀ b ∈ param.bytes, b = type) ∧ buf.getD param.bytes.length 0 = type

theorem concat_eq_cons_iff {l : List Byte} {a b : Byte} : l ++ [b] = a :: l ↔ (∀ x ∈ l, x = a) ∧ b = a := by
  induction l generalizing a with
  | nil => simp
  | cons c l ih =>
      rw [List.cons_append, List.cons.injEq, List.forall_mem_cons, and_assoc]
      refine and_congr_right fun hc => ?_
      rw [hc]
      exact ih

/-- A value that is written over the type byte. -/
theorem take_overwritten {buf value : List Byte} (type : Byte) (hpos : 0 < value.length)
    (hlen : packetLenType + value.length ≤ buf.length) :
    (write (write buf 0 [type]) 0 value).take (packetLenType + value.length) =
      value ++ [buf.getD value.length 0] := by
  rw [packetLenType] at hlen ⊢
  have hcell : (buf.drop 1).drop (value.length - 1) = buf.getD value.length 0 :: buf.drop (value.length + 1) := by
    rw [List.drop_drop, show 1 + (value.length - 1) = value.length by omega, List.drop_eq_getElem_cons (by omega),
      List.getD_eq_getElem]
  have hwritten : write (write buf 0 [type]) 0 value =
      value ++ buf.getD value.length 0 :: buf.drop (value.length + 1) := by
    rw [← hcell]
    simp only [write, List.take_zero, List.nil_append, Nat.zero_add, List.length_singleton]
    rw [List.drop_append, List.length_singleton, List.drop_eq_nil_of_le (by rw [List.length_singleton]; omega),
      List.nil_append]
  rw [hwritten, List.take_append, List.take_of_length_le (by omega), Nat.add_sub_cancel, List.take_succ_cons,
    List.take_zero]

theorem headStarts_iff_of_overwritten {buf : List Byte} {type : Byte} {param : DefinedParam}
    (hpack : packDefinedTypeHead buf type param =
      if buf.length < packetLenType + param.bytes.length then none
      else some (write (write buf 0 [type]) 0 param.bytes))
    (hpos : 0 < param.bytes.length) (hchar : ∀ value, param ≠ .char value) :
    HeadStarts buf type param ↔ HeadFits buf type param := by
  have hnot : ¬ ∃ value, param = .char value := fun ⟨value, h⟩ => hchar value h
  rw [HeadStarts, HeadFits, hpack, or_iff_right hnot]
  by_cases hlen : buf.length < packetLenType + param.bytes.length
  · rw [if_pos hlen]
    exact iff_of_true (fun buf' h => nomatch h) (Or.inl hlen)
  · rw [if_neg hlen, or_iff_right hlen, ← concat_eq_cons_iff, ← take_overwritten type hpos (not_lt.1 hlen)]
    exact ⟨fun h => h _ rfl, fun h buf' hbuf' => Option.some.inj hbuf' ▸ h⟩

/-- Of the user defined heads only the one of a `char` begins with its type byte; the values of the other types are
written over it. -/
theorem headStarts_iff (buf : List Byte) (type : Byte) (param : DefinedParam) :
    HeadStarts buf type param ↔ HeadFits buf type param := by
  cases param with
  | int64 value => exact headStarts_iff_of_overwritten rfl (Nat.succ_pos _) (fun _ => nofun)
  | int value => exact headStarts_iff_of_overwritten rfl (Nat.succ_pos _) (fun _ => nofun)
  | short value => exact headStarts_iff_of_overwritten rfl (Nat.succ_pos _) (fun _ => nofun)
  | char value =>
      refine iff_of_true (fun buf' hbuf' => ?_) (Or.inr (Or.inl ⟨value, rfl⟩))
      rw [packDefinedTypeHead] at hbuf'
      split_ifs at hbuf' with hlen
      rw [← Option.some.inj hbuf']
      rw [packetLenType] at hlen
      have hfirst : (write buf 0 [type]).take (0 + [type].length) = buf.take 0 ++ [type] :=
        take_write (Nat.zero_le buf.length)
      have hlength : 1 ≤ (write buf 0 [type]).length := by
        rw [write, List.take_zero, List.nil_append, List.singleton_append, List.length_cons]
        omega
      have hboth : (write (write buf 0 [type]) 1 [value]).take (1 + [value].length) =
          (write buf 0 [type]).take (0 + [type].length) ++ [value] := take_write hlength
      rw [hfirst] at hboth
      exact hboth

/-- The whole of the old protocol. -/
theorem proto_roundTrips_iff (p : WirePacket) (buf : List Byte) (type : Byte) (param : DefinedParam) :
    (p.RoundTrips ↔ p.Fits) ∧ (HeadStarts buf type param ↔ HeadFits buf type param) :=
  ⟨p.roundTrips_iff, headStarts_iff buf type param⟩

/-- The bytes of an ack are not enough for the unpacker, the message id of a user packet loses its higher bytes, and an
`int` is written over its type byte. -/
theorem proto_roundTrips_fails :
    ¬ (WirePacket.ack 1 2).RoundTrips ∧ ¬ (WirePacket.heartbeat 7).RoundTrips ∧
      ¬ (WirePacket.userData 65536 [] (by decide)).RoundTrips ∧ ¬ HeadStarts [0, 0, 0, 0, 0] 100 (.int 1) := by
  refine ⟨fun h => ?_, fun h => ?_, fun h => ?_, fun h => ?_⟩
  · exact absurd (h.consumes .init 0) (by decide)
  · exact absurd (h.consumes .init 0) (by decide)
  · have hid : (0 : BitVec 32) = 65536 := congrArg JmyMsgInfo.msgId (h.fields .init 0)
    exact absurd hid (by decide)
  · exact absurd (h _ rfl) (by decide)

end NetProto

end JmyGame
