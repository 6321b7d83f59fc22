import JmyGame.LibCArith

/-! The packet format of `jmy_net_proto2`: a packet is a two byte big endian length, a type byte and
a body; the length counts the type byte and the body. The two user packets carry a message id, the
second one a user id before it. -/

namespace JmyGame

open CArith

/-- `PACK_INT16_TO_BUFF`. The macro takes integers of any width. -/
def packInt16 {w : ℕ} (id : BitVec w) : List Byte := [byteOf 1 id, byteOf 0 id]

/-- `PACK_INT32_TO_BUFF`. -/
def packInt32 {w : ℕ} (id : BitVec w) : List Byte :=
  [byteOf 3 id, byteOf 2 id, byteOf 1 id, byteOf 0 id]

/-- `UNPACK_INT16_FROM_BUFF`. -/
def unpackInt16 (b0 b1 : Byte) : BitVec 32 :=
  ((b0.signExtend 32 <<< 8) &&& 0xff00#32) + (b1.signExtend 32 &&& 0xff#32)

/-- `UNPACK_INT32_FROM_BUFF`. -/
def unpackInt32 (b0 b1 b2 b3 : Byte) : BitVec 32 :=
  ((b0.signExtend 32 <<< 24) &&& 0xff000000#32) + ((b1.signExtend 32 <<< 16) &&& 0xff0000#32) +
    ((b2.signExtend 32 <<< 8) &&& 0xff00#32) + (b3.signExtend 32 &&& 0xff#32)

theorem unpackInt16_eq_placed (b0 b1 : Byte) : unpackInt16 b0 b1 = placed 1 b0 + placed 0 b1 := by
  simp [unpackInt16, placed]

theorem unpackInt32_eq_placed (b0 b1 b2 b3 : Byte) :
    unpackInt32 b0 b1 b2 b3 = placed 3 b0 + placed 2 b1 + placed 1 b2 + placed 0 b3 := by
  simp [unpackInt32, placed]

theorem toNat_unpackInt16 (b0 b1 : Byte) :
    (unpackInt16 b0 b1).toNat = b0.toNat * 256 + b1.toNat := by
  have h0 := b0.isLt
  have h1 := b1.isLt
  rw [unpackInt16_eq_placed, BitVec.toNat_add, toNat_placed 1 (by decide), toNat_placed 0 (by decide)]
  omega

theorem toNat_unpackInt32 (b0 b1 b2 b3 : Byte) :
    (unpackInt32 b0 b1 b2 b3).toNat =
      b0.toNat * 2 ^ 24 + b1.toNat * 2 ^ 16 + b2.toNat * 2 ^ 8 + b3.toNat := by
  have h0 := b0.isLt
  have h1 := b1.isLt
  have h2 := b2.isLt
  have h3 := b3.isLt
  rw [unpackInt32_eq_placed]
  simp only [BitVec.toNat_add, toNat_placed 3 (by decide), toNat_placed 2 (by decide),
    toNat_placed 1 (by decide), toNat_placed 0 (by decide)]
  omega

@[simp] theorem length_packInt16 {w : ℕ} (id : BitVec w) : (packInt16 id).length = 2 := rfl

@[simp] theorem length_packInt32 {w : ℕ} (id : BitVec w) : (packInt32 id).length = 4 := rfl

/-- An integer below `2 ^ 16` survives two bytes. -/
theorem unpackInt16_byteOf (id : BitVec 32) (h : id.toNat < 2 ^ 16) :
    unpackInt16 (byteOf 1 id) (byteOf 0 id) = id := by
  apply BitVec.eq_of_toNat_eq
  rw [toNat_unpackInt16, toNat_byteOf 1 id (by decide), toNat_byteOf 0 id (by decide)]
  omega

theorem packInt16_unpackInt16 (b0 b1 : Byte) : packInt16 (unpackInt16 b0 b1) = [b0, b1] := by
  have h0 := b0.isLt
  have h1 := b1.isLt
  have hb0 : byteOf 1 (unpackInt16 b0 b1) = b0 := by
    apply BitVec.eq_of_toNat_eq
    rw [toNat_byteOf 1 _ (by decide), toNat_unpackInt16]
    omega
  have hb1 : byteOf 0 (unpackInt16 b0 b1) = b1 := by
    apply BitVec.eq_of_toNat_eq
    rw [toNat_byteOf 0 _ (by decide), toNat_unpackInt16]
    omega
  rw [packInt16, hb0, hb1]

/-- A 32-bit integer, signed or not, survives four bytes. -/
theorem unpackInt32_byteOf (id : BitVec 32) :
    unpackInt32 (byteOf 3 id) (byteOf 2 id) (byteOf 1 id) (byteOf 0 id) = id := by
  have hid := id.isLt
  apply BitVec.eq_of_toNat_eq
  rw [toNat_unpackInt32, toNat_byteOf 3 id (by decide), toNat_byteOf 2 id (by decide),
    toNat_byteOf 1 id (by decide), toNat_byteOf 0 id (by decide)]
  omega

theorem packInt32_unpackInt32 (b0 b1 b2 b3 : Byte) :
    packInt32 (unpackInt32 b0 b1 b2 b3) = [b0, b1, b2, b3] := by
  have h0 := b0.isLt
  have h1 := b1.isLt
  have h2 := b2.isLt
  have h3 := b3.isLt
  have hbyte : ∀ k b, k < 4 → b.toNat = (unpackInt32 b0 b1 b2 b3).toNat / 2 ^ (8 * k) % 256 →
      byteOf k (unpackInt32 b0 b1 b2 b3) = b := by
    intro k b hk hb
    apply BitVec.eq_of_toNat_eq
    rw [toNat_byteOf k _ (by omega), hb]
  rw [toNat_unpackInt32] at hbyte
  rw [packInt32, hbyte 3 b0 (by decide) (by omega), hbyte 2 b1 (by decide) (by omega),
    hbyte 1 b2 (by decide) (by omega), hbyte 0 b3 (by decide) (by omega)]

/-- `JmyPacketType2`; a cast can produce values that the enumeration does not name. -/
inductive JmyPacketType2 where
  | none
  | userData
  | ack
  | heartbeat
  | disconnect
  | disconnectAck
  | userIdData
  | typeUser
  | typeMax
  | unnamed (code : BitVec 32)
  deriving DecidableEq, Repr

namespace JmyPacketType2

/-- The value of the enumerator. -/
def code : JmyPacketType2 → BitVec 32
  | none => 0
  | userData => 5
  | ack => 6
  | heartbeat => 7
  | disconnect => 8
  | disconnectAck => 9
  | userIdData => 10
  | typeUser => 100
  | typeMax => 255
  | unnamed code => code

/-- The cast `(JmyPacketType2)code`. -/
def ofCode (code : BitVec 32) : JmyPacketType2 :=
  if code = 0 then none
  else if code = 5 then userData
  else if code = 6 then ack
  else if code = 7 then heartbeat
  else if code = 8 then disconnect
  else if code = 9 then disconnectAck
  else if code = 10 then userIdData
  else if code = 100 then typeUser
  else if code = 255 then typeMax
  else unnamed code

/-- `(char)type`. -/
def toChar (type : JmyPacketType2) : Byte := type.code.setWidth 8

/-- `(JmyPacketType2)buf[2]`, through the promotion of a `char`. -/
def ofChar (b : Byte) : JmyPacketType2 := ofCode (b.signExtend 32)

/-- The two packet types that carry a message for a handler. -/
def IsUser (type : JmyPacketType2) : Prop := type = userData ∨ type = userIdData

instance (type : JmyPacketType2) : Decidable type.IsUser :=
  inferInstanceAs (Decidable (type = userData ∨ type = userIdData))

end JmyPacketType2

def lenHead : ℕ := 2
def lenType : ℕ := 1
def lenUserId : ℕ := 4
def lenMsgId : ℕ := 2
def lenTimestamp : ℕ := 4

def disconnectPackLen : ℕ := lenHead + lenType
def disconnectAckPackLen : ℕ := lenHead + lenType
def userDataPackLen (dataLen : ℕ) : ℕ := lenHead + lenType + lenMsgId + dataLen
def userIdDataPackLen (dataLen : ℕ) : ℕ := lenHead + lenType + lenUserId + lenMsgId + dataLen
def heartbeatPackLen : ℕ := lenHead + lenType + lenTimestamp

/-- `jmy_net_proto2_get_packet_len_type`: the type and the value of the length field. -/
def getPacketLenType (buf : List Byte) : Option (JmyPacketType2 × BitVec 32) :=
  match buf with
  | b0 :: b1 :: b2 :: _ => some (.ofChar b2, unpackInt16 b0 b1)
  | _ => none

/-! ### Packers

A packer gets the size of its buffer and, for user data, an `unsigned short` length; it answers the
bytes it writes, or nothing where it returns `-1`. -/

/-- A packet head: the length field and the type byte. -/
def packHead (len : ℕ) (type : JmyPacketType2) : List Byte :=
  packInt16 (BitVec.ofNat 32 (len - lenHead)) ++ [type.toChar]

def packDisconnect (len : ℕ) : Option (List Byte) :=
  if len < disconnectPackLen then none
  else some (packInt16 (BitVec.ofNat 32 lenType) ++ [JmyPacketType2.disconnect.toChar])

def packDisconnectAck (len : ℕ) : Option (List Byte) :=
  if len < disconnectAckPackLen then none
  else some (packInt16 (BitVec.ofNat 32 lenType) ++ [JmyPacketType2.disconnectAck.toChar])

def packUserDataHead (len : ℕ) (msgId : BitVec 32) (dataLen : ℕ) : Option (List Byte) :=
  if len < userDataPackLen dataLen - dataLen then none
  else some (packHead (userDataPackLen dataLen) .userData ++ packInt16 msgId)

def packUserIdDataHead (len : ℕ) (userId msgId : BitVec 32) (dataLen : ℕ) : Option (List Byte) :=
  if len < userIdDataPackLen dataLen - dataLen then none
  else some (packHead (userIdDataPackLen dataLen) .userIdData ++ packInt32 userId ++ packInt16 msgId)

/-- `t` is the clock, a 64-bit `time_t`, of which the low four bytes are sent. -/
def packHeartbeat (len : ℕ) (t : BitVec 64) : Option (List Byte) :=
  if len < heartbeatPackLen then none
  else some (packHead heartbeatPackLen .heartbeat ++ packInt32 t)

inductive JmyUnpackResultType2 where
  | noError
  | dataNotEnough
  | userDataNotEnough
  | msgLenInvalid
  deriving DecidableEq, Repr

/-- `JmyMsgInfo`. `data` holds the bytes of the body from the pointer on, `len` the length the code
computes for them. The `param` pointer to the connection manager is not modelled. -/
structure JmyMsgInfo where
  userId : BitVec 32
  msgId : BitVec 32
  data : List Byte
  len : ℕ
  connId : ℤ
  deriving DecidableEq, Repr

/-- `JmyPacketUnpackData2`, which a data handler keeps from one packet to the next. -/
structure JmyPacketUnpackData2 where
  type : JmyPacketType2
  param : BitVec 32
  result : JmyUnpackResultType2
  msgInfo : JmyMsgInfo
  deriving DecidableEq, Repr

def JmyPacketUnpackData2.init : JmyPacketUnpackData2 :=
  ⟨.none, 0, .noError, ⟨0, 0, [], 0, 0⟩⟩

/-- The byte a pointer into a body reads; `past` is what memory holds behind the body. -/
def readByte (past : ℕ → Byte) (buf : List Byte) (i : ℕ) : Byte := buf.getD i (past i)

/-- The user id in front of a `JMY_PACKET2_USER_ID_DATA` body and the offset behind it; nothing when
the body is too short. A plain body has no user id. -/
def unpackUserId (past : ℕ → Byte) (type : JmyPacketType2) (buf : List Byte) :
    Option (BitVec 32 × ℕ) :=
  if type = .userIdData then
    if buf.length < 4 then none
    else some (unpackInt32 (readByte past buf 0) (readByte past buf 1) (readByte past buf 2)
      (readByte past buf 3), 4)
  else some (0, 0)

/-- The user data branch of `jmy_net_proto2_unpack_data`. The message id is read without a check, and
the length behind it is computed in unsigned arithmetic. -/
def unpackUserPacket (past : ℕ → Byte) (type : JmyPacketType2) (buf : List Byte)
    (data : JmyPacketUnpackData2) (connId : ℤ) : ℤ × JmyPacketUnpackData2 :=
  match unpackUserId past type buf with
  | none => (0, { data with result := .dataNotEnough })
  | some (userId, offset) =>
    let msgId := unpackInt16 (readByte past buf offset) (readByte past buf (offset + 1))
    let len := (buf.length + 2 ^ 32 - (offset + 2)) % 2 ^ 32
    (((offset + 2 + len) % 2 ^ 32 : ℕ),
      { data with
        param := msgId
        result := .noError
        msgInfo := ⟨userId, msgId, buf.drop (offset + 2), len, connId⟩ })

/-- `jmy_net_proto2_unpack_data`: the number of handled bytes (or `-1`) and the new unpack data. -/
def unpackData (past : ℕ → Byte) (type : JmyPacketType2) (buf : List Byte)
    (data : JmyPacketUnpackData2) (connId : ℤ) : ℤ × JmyPacketUnpackData2 :=
  if buf.length = 0 then (0, data)
  else match type with
  | .userData => unpackUserPacket past .userData buf data connId
  | .userIdData => unpackUserPacket past .userIdData buf data connId
  | .heartbeat =>
    if buf.length < lenTimestamp then (0, { data with result := .dataNotEnough })
    else (lenTimestamp, { data with
      param := unpackInt32 (readByte past buf 0) (readByte past buf 1) (readByte past buf 2)
        (readByte past buf 3)
      result := .noError })
  | .disconnect => (0, { data with result := .noError })
  | .disconnectAck => (0, { data with result := .noError })
  | _ => (-1, data)

@[simp] theorem length_packHead (len : ℕ) (type : JmyPacketType2) : (packHead len type).length = 3 := rfl

theorem packUserDataHead_eq (msgId : BitVec 32) (dataLen : ℕ) :
    packUserDataHead (userDataPackLen 0) msgId dataLen =
      some (packHead (userDataPackLen dataLen) .userData ++ packInt16 msgId) := by
  rw [packUserDataHead, if_neg]
  simp only [userDataPackLen]
  omega

theorem packUserIdDataHead_eq (userId msgId : BitVec 32) (dataLen : ℕ) :
    packUserIdDataHead (userIdDataPackLen 0) userId msgId dataLen =
      some (packHead (userIdDataPackLen dataLen) .userIdData ++ packInt32 userId ++ packInt16 msgId) := by
  rw [packUserIdDataHead, if_neg]
  simp only [userIdDataPackLen]
  omega

/-- The head reader gets back the type and the length that a packer wrote, when the length fits. -/
theorem getPacketLenType_packHead (len : ℕ) (type : JmyPacketType2) (rest : List Byte)
    (hlen : len < 2 ^ 16 + 2) :
    getPacketLenType (packHead len type ++ rest) =
      some (.ofChar type.toChar, BitVec.ofNat 32 (len - lenHead)) := by
  have h : (BitVec.ofNat 32 (len - lenHead)).toNat < 2 ^ 16 := by
    rw [BitVec.toNat_ofNat, lenHead]
    omega
  simp only [packHead, packInt16, getPacketLenType, List.cons_append, List.nil_append,
    unpackInt16_byteOf _ h]

theorem ofChar_toChar_user {type : JmyPacketType2} (h : type.IsUser) :
    JmyPacketType2.ofChar type.toChar = type := by
  rcases h with rfl | rfl <;> decide

/-- The body is read as this message, whatever the handler's unpack data held before. -/
def Decodes (past : ℕ → Byte) (type : JmyPacketType2) (body : List Byte) (connId : ℤ)
    (userId msgId : BitVec 32) (payload : List Byte) : Prop :=
  ∀ data, (unpackData past type body data connId).1 = body.length ∧
    (unpackData past type body data connId).2.result = .noError ∧
    (unpackData past type body data connId).2.msgInfo =
      ⟨userId, msgId, payload, payload.length, connId⟩

/-- A plain body is its message id and its payload. -/
theorem decodes_userData (past : ℕ → Byte) (b0 b1 : Byte) (payload : List Byte) (connId : ℤ)
    (hlen : payload.length < 2 ^ 31) :
    Decodes past .userData (b0 :: b1 :: payload) connId 0 (unpackInt16 b0 b1) payload := by
  intro data
  have hl : (payload.length + 1 + 1 + 2 ^ 32 - 2) % 2 ^ 32 = payload.length := by omega
  have hr : (2 + payload.length) % 2 ^ 32 = payload.length + 1 + 1 := by omega
  simp only [unpackData, unpackUserPacket, unpackUserId, List.length_cons, Nat.add_eq_zero_iff,
    Nat.one_ne_zero, and_false, if_false, reduceCtorEq, readByte, Nat.zero_add,
    List.getD_cons_zero, List.getD_cons_succ, List.drop_succ_cons, List.drop_zero, hl, hr, and_self]

/-- A body with a user id is the user id, the message id and the payload. -/
theorem decodes_userIdData (past : ℕ → Byte) (u0 u1 u2 u3 b0 b1 : Byte) (payload : List Byte)
    (connId : ℤ) (hlen : payload.length < 2 ^ 31) :
    Decodes past .userIdData (u0 :: u1 :: u2 :: u3 :: b0 :: b1 :: payload) connId
      (unpackInt32 u0 u1 u2 u3) (unpackInt16 b0 b1) payload := by
  intro data
  have hn : ¬payload.length + 1 + 1 + 1 + 1 + 1 + 1 < 4 := by omega
  have hl : (payload.length + 1 + 1 + 1 + 1 + 1 + 1 + 2 ^ 32 - (4 + 2)) % 2 ^ 32 = payload.length := by
    omega
  have hr : (4 + 2 + payload.length) % 2 ^ 32 = payload.length + 1 + 1 + 1 + 1 + 1 + 1 := by omega
  simp only [unpackData, unpackUserPacket, unpackUserId, List.length_cons, Nat.add_eq_zero_iff,
    Nat.one_ne_zero, and_false, if_false, if_true, hn, readByte, Nat.reduceAdd,
    List.getD_cons_zero, List.getD_cons_succ, List.drop_succ_cons, List.drop_zero] at hl hr ⊢
  simp only [hl, hr, and_self]

/-- The four laws of the codec on user packets: a packed head tells its type and the number of bytes
behind the length field, the body is decoded to what was packed, and packing a decoded body gives the
body back. -/
theorem proto2_codec_bijective (past : ℕ → Byte) (connId : ℤ) :
    (∀ (msgId : BitVec 32) (payload : List Byte), msgId.toNat ≤ 65535 → payload.length ≤ 65530 →
      ∃ head, packUserDataHead (userDataPackLen 0) msgId payload.length = some head ∧
        getPacketLenType head =
          some (.userData, BitVec.ofNat 32 (head.drop lenHead ++ payload).length) ∧
        Decodes past .userData (head.drop (lenHead + lenType) ++ payload) connId 0 msgId payload) ∧
    (∀ (userId msgId : BitVec 32) (payload : List Byte),
      msgId.toNat ≤ 65535 → payload.length ≤ 65526 →
      ∃ head, packUserIdDataHead (userIdDataPackLen 0) userId msgId payload.length = some head ∧
        getPacketLenType head =
          some (.userIdData, BitVec.ofNat 32 (head.drop lenHead ++ payload).length) ∧
        Decodes past .userIdData (head.drop (lenHead + lenType) ++ payload) connId userId msgId
          payload) ∧
    (∀ body : List Byte, 2 ≤ body.length → body.length ≤ 65532 →
      ∃ msgId payload head, Decodes past .userData body connId 0 msgId payload ∧
        packUserDataHead (userDataPackLen 0) msgId payload.length = some head ∧
        head.drop (lenHead + lenType) ++ payload = body) ∧
    (∀ body : List Byte, 6 ≤ body.length → body.length ≤ 65532 →
      ∃ userId msgId payload head, Decodes past .userIdData body connId userId msgId payload ∧
        packUserIdDataHead (userIdDataPackLen 0) userId msgId payload.length = some head ∧
        head.drop (lenHead + lenType) ++ payload = body) := by
  refine ⟨?_, ?_, ?_, ?_⟩
  · intro msgId payload hmsg hpay
    refine ⟨_, packUserDataHead_eq msgId payload.length, ?_, ?_⟩
    · rw [getPacketLenType_packHead _ _ _ (by simp only [userDataPackLen, lenHead, lenType, lenMsgId]; omega),
        ofChar_toChar_user (Or.inl rfl)]
      simp only [userDataPackLen, packHead, packInt16, lenHead, lenType, lenMsgId, List.cons_append,
        List.nil_append, List.drop_succ_cons, List.drop_zero, List.length_cons]
      congr 3
      omega
    · have h := decodes_userData past (byteOf 1 msgId) (byteOf 0 msgId) payload connId (by omega)
      rwa [unpackInt16_byteOf msgId (by omega)] at h
  · intro userId msgId payload hmsg hpay
    refine ⟨_, packUserIdDataHead_eq userId msgId payload.length, ?_, ?_⟩
    · rw [List.append_assoc, getPacketLenType_packHead _ _ _
          (by simp only [userIdDataPackLen, lenHead, lenType, lenUserId, lenMsgId]; omega),
        ofChar_toChar_user (Or.inr rfl)]
      simp only [userIdDataPackLen, packHead, packInt16, packInt32, lenHead, lenType, lenUserId,
        lenMsgId, List.cons_append, List.nil_append, List.drop_succ_cons, List.drop_zero,
        List.length_cons]
      congr 3
      omega
    · have h := decodes_userIdData past (byteOf 3 userId) (byteOf 2 userId) (byteOf 1 userId)
        (byteOf 0 userId) (byteOf 1 msgId) (byteOf 0 msgId) payload connId (by omega)
      rwa [unpackInt16_byteOf msgId (by omega), unpackInt32_byteOf userId] at h
  · intro body h2 hmax
    match body, h2 with
    | b0 :: b1 :: payload, _ =>
      simp only [List.length_cons] at hmax
      refine ⟨unpackInt16 b0 b1, payload, _, decodes_userData past b0 b1 payload connId (by omega),
        packUserDataHead_eq _ _, ?_⟩
      rw [packInt16_unpackInt16]
      rfl
  · intro body h6 hmax
    match body, h6 with
    | u0 :: u1 :: u2 :: u3 :: b0 :: b1 :: payload, _ =>
      simp only [List.length_cons] at hmax
      refine ⟨unpackInt32 u0 u1 u2 u3, unpackInt16 b0 b1, payload, _,
        decodes_userIdData past u0 u1 u2 u3 b0 b1 payload connId (by omega),
        packUserIdDataHead_eq _ _ _, ?_⟩
      rw [packInt16_unpackInt16, packInt32_unpackInt32]
      rfl

end JmyGame
