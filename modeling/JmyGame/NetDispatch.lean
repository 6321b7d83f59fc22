import JmyGame.NetConnectionSteps

/-! What `processData` hands to the message handlers. A body that ends inside its message id is read past its end, and
its length wraps around. A user packet whose body is not decoded at all is still dispatched, with the message that the
unpack data holds from an earlier packet. The type field of the unpack data, by which messages are counted, is never
set. -/

namespace JmyGame

open CArith

/-- The positions of a body that `jmy_net_proto2_unpack_data` reads. -/
def unpackReads (type : JmyPacketType2) (len : ℕ) : List ℕ :=
  if len = 0 then []
  else match type with
  | .userData => [0, 1]
  | .userIdData => if len < 4 then [] else [0, 1, 2, 3, 4, 5]
  | .heartbeat => if len < lenTimestamp then [] else [0, 1, 2, 3]
  | _ => []

/-- The body ends inside the message id. -/
def CutShort (type : JmyPacketType2) (len : ℕ) : Prop :=
  (type = .userData ∧ len = 1) ∨ (type = .userIdData ∧ (len = 4 ∨ len = 5))

/-- A body is unpacked within its bounds: the bytes that are read are its own, and what is answered is an error, a
result for too few bytes, no message at all, or a message at the end of the body whose length is not wrapped. -/
structure UnpackInside (past : ℕ → Byte) (type : JmyPacketType2) (body : List Byte) (data : JmyPacketUnpackData2)
    (connId : ℤ) : Prop where
  reads : ∀ i ∈ unpackReads type body.length, i < body.length
  message : (unpackData past type body data connId).1 ≤ 0 ∨ ¬type.IsUser ∨
    ∃ k, (unpackData past type body data connId).2.msgInfo.data = body.drop k ∧
      k + (unpackData past type body data connId).2.msgInfo.len = body.length ∧
      (unpackData past type body data connId).1 = body.length

variable {past past' : ℕ → Byte} {type : JmyPacketType2} {body : List Byte}

theorem readByte_congr {i : ℕ} (h : body.length ≤ i → past i = past' i) :
    readByte past body i = readByte past' body i := by
  unfold readByte
  rw [List.getD_eq_getElem?_getD, List.getD_eq_getElem?_getD]
  by_cases hi : body.length ≤ i
  · rw [h hi]
  · rw [List.getElem?_eq_getElem (by omega)]
    rfl

/-- What memory holds behind a body matters only at the positions that are read. -/
theorem unpackData_reads (h : ∀ i ∈ unpackReads type body.length, body.length ≤ i → past i = past' i)
    (data : JmyPacketUnpackData2) (connId : ℤ) :
    unpackData past type body data connId = unpackData past' type body data connId := by
  have hread : ∀ i ∈ unpackReads type body.length, readByte past body i = readByte past' body i :=
    fun i hi => readByte_congr (h i hi)
  unfold unpackReads at hread
  unfold unpackData
  by_cases hzero : body.length = 0
  · rw [if_pos hzero, if_pos hzero]
  · rw [if_neg hzero] at hread ⊢
    rw [if_neg hzero]
    cases type with
    | userData =>
        simp only [unpackUserPacket, unpackUserId, hread 0 (by simp), hread 1 (by simp), reduceCtorEq, if_false,
          Nat.zero_add]
    | userIdData =>
        by_cases hshort : body.length < 4
        · simp only [unpackUserPacket, unpackUserId, if_true, if_pos hshort]
        · dsimp only at hread
          rw [if_neg hshort] at hread
          simp only [unpackUserPacket, unpackUserId, if_true, if_neg hshort, hread 0 (by simp), hread 1 (by simp),
            hread 2 (by simp), hread 3 (by simp), hread 4 (by simp), hread 5 (by simp)]
    | heartbeat =>
        by_cases hshort : body.length < lenTimestamp
        · dsimp only
          rw [if_pos hshort, if_pos hshort]
        · dsimp only at hread
          rw [if_neg hshort] at hread
          dsimp only
          rw [if_neg hshort, if_neg hshort, hread 0 (by simp), hread 1 (by simp), hread 2 (by simp), hread 3 (by simp)]
    | _ => rfl

/-- A user packet without its message id is read past its end. -/
theorem reads_inside_iff (type : JmyPacketType2) (len : ℕ) :
    (∀ i ∈ unpackReads type len, i < len) ↔ ¬CutShort type len := by
  unfold unpackReads CutShort
  by_cases hzero : len = 0
  · simp [hzero]
  · rw [if_neg hzero]
    cases type with
    | userData =>
        simp
        omega
    | userIdData =>
        by_cases hshort : len < 4
        · simp [hshort]
          omega
        · simp [hshort]
          omega
    | heartbeat =>
        by_cases hshort : len < lenTimestamp
        · simp [hshort]
        · simp [hshort]
          rw [lenTimestamp] at hshort
          omega
    | _ => simp

/-- A user packet with its message id is its fixed part and its payload. -/
def decodeBody : JmyPacketType2 → List Byte → Option (BitVec 32 × BitVec 32 × List Byte)
  | .userData, b0 :: b1 :: payload => some (0, unpackInt16 b0 b1, payload)
  | .userIdData, u0 :: u1 :: u2 :: u3 :: b0 :: b1 :: payload =>
    some (unpackInt32 u0 u1 u2 u3, unpackInt16 b0 b1, payload)
  | _, _ => none

/-- The fixed part of a packet type. -/
def fixedLen : JmyPacketType2 → ℕ
  | .userData => lenMsgId
  | .userIdData => lenUserId + lenMsgId
  | _ => 0

/-- A body with its fixed part is decoded. -/
theorem decodeBody_eq_some (huser : type.IsUser) (hlen : fixedLen type ≤ body.length) :
    ∃ userId msgId payload, decodeBody type body = some (userId, msgId, payload) ∧
      fixedLen type + payload.length = body.length ∧ payload = body.drop (fixedLen type) := by
  rcases huser with rfl | rfl
  · match body, hlen with
    | b0 :: b1 :: payload, _ => exact ⟨_, _, payload, rfl, Nat.add_comm _ _, rfl⟩
  · match body, hlen with
    | u0 :: u1 :: u2 :: u3 :: b0 :: b1 :: payload, _ => exact ⟨_, _, payload, rfl, Nat.add_comm _ _, rfl⟩

theorem decodeBody_eq_none (h : type.IsUser → body.length < fixedLen type) : decodeBody type body = none := by
  unfold decodeBody
  split
  · exact absurd (h (.inl rfl)) (by simp [fixedLen, lenMsgId])
  · exact absurd (h (.inr rfl)) (by simp [fixedLen, lenUserId, lenMsgId])
  · rfl

variable (past) in
/-- What is decoded is what `jmy_net_proto2_unpack_data` finds. -/
theorem decodes_of_decodeBody {userId msgId : BitVec 32} {payload : List Byte}
    (h : decodeBody type body = some (userId, msgId, payload)) (hlen : body.length < 2 ^ 16) (connId : ℤ) :
    Decodes past type body connId userId msgId payload := by
  unfold decodeBody at h
  split at h
  · cases h
    exact decodes_userData past _ _ _ connId (by simp only [List.length_cons] at hlen; omega)
  · cases h
    exact decodes_userIdData past _ _ _ _ _ _ _ connId (by simp only [List.length_cons] at hlen; omega)
  · cases h

variable (past) in
/-- A user packet without its fixed part ends inside its message id, or nothing is handled. -/
theorem unpackData_short (huser : type.IsUser) (hlen : body.length < fixedLen type) (data : JmyPacketUnpackData2)
    (connId : ℤ) : CutShort type body.length ∨ ((unpackData past type body data connId).1 = 0 ∧
      (unpackData past type body data connId).2.msgInfo = data.msgInfo) := by
  by_cases hzero : body.length = 0
  · right
    unfold unpackData
    rw [if_pos hzero]
    exact ⟨rfl, rfl⟩
  · rcases huser with rfl | rfl
    · have hone : body.length < 2 := hlen
      exact .inl (.inl ⟨rfl, by omega⟩)
    · have hsix : body.length < 6 := hlen
      by_cases hshort : body.length < 4
      · right
        simp [unpackData, hzero, unpackUserPacket, unpackUserId, hshort]
      · exact .inl (.inr ⟨rfl, by omega⟩)

/-- A body of any type is unpacked within its bounds unless it ends inside its message id. -/
theorem unpackInside_iff (hlen : body.length < 2 ^ 16) (data : JmyPacketUnpackData2) (connId : ℤ) :
    UnpackInside past type body data connId ↔ ¬CutShort type body.length := by
  refine ⟨fun h => (reads_inside_iff type body.length).1 h.reads, fun hcut => ⟨(reads_inside_iff _ _).2 hcut, ?_⟩⟩
  by_cases huser : type.IsUser
  · by_cases hfixed : fixedLen type ≤ body.length
    · obtain ⟨userId, msgId, payload, hdecode, hpayload, hdrop⟩ := decodeBody_eq_some huser hfixed
      obtain ⟨hhandled, -, hinfo⟩ := decodes_of_decodeBody past hdecode hlen connId data
      refine .inr (.inr ⟨fixedLen type, ?_, ?_, hhandled⟩)
      · rw [hinfo, hdrop]
      · rw [hinfo, hpayload]
    · obtain ⟨hzero, -⟩ := (unpackData_short past huser (not_le.1 hfixed) data connId).resolve_left hcut
      exact .inl hzero.le
  · exact .inr (.inl huser)

/-- The length that `start_recv` passes to `recv_packet` for the length field of a head. -/
def announcedLen (b0 b1 : Byte) : ℕ := (b0.toNat * 256 + b1.toNat + 65535) % 65536

/-- What `recv_packet` puts into the receive list. -/
def handedOver (type : JmyPacketType2) (body : List Byte) : List Buffer :=
  if body = [] then [] else [⟨body, body.length, 0, type.code.toNat⟩]

/-- The type that `handleOne` finds in a packet of the receive list. -/
def Buffer.packetType (b : Buffer) : JmyPacketType2 := .ofCode (BitVec.ofNat 32 b.woffset)

theorem packetType_handedOver (huser : type.IsUser) {b : Buffer} (hb : b ∈ handedOver type body) :
    b.packetType = type ∧ b.data = body := by
  unfold handedOver at hb
  split_ifs at hb
  · cases hb
  · obtain rfl := List.mem_singleton.1 hb
    have hcode : JmyPacketType2.ofCode (BitVec.ofNat 32 type.code.toNat) = type := by
      rcases huser with rfl | rfl <;> decide
    exact ⟨hcode, rfl⟩

theorem onReadHead_announced (c : JmyTcpConnection) (b0 b1 b2 : Byte) (huser : (JmyPacketType2.ofChar b2).IsUser) :
    c.onReadHead [b0, b1, b2] = c.recvPacket (.ofChar b2) (announcedLen b0 b1) := by
  have h0 := b0.isLt
  have h1 := b1.isLt
  have hlen : (unpackInt16 b0 b1 - BitVec.ofNat 32 lenType).toNat % 2 ^ 16 = announcedLen b0 b1 := by
    rw [BitVec.toNat_sub, toNat_unpackInt16, announcedLen]
    simp only [lenType, BitVec.toNat_ofNat]
    omega
  rw [onReadHead_user rfl rfl huser, hlen]

theorem recvBuffList_startRecv (c : JmyTcpConnection) : c.startRecv.buffer = c.buffer := by
  unfold JmyTcpConnection.startRecv
  dsimp only
  split_ifs <;> rfl

theorem onReadBody_handedOver (c : JmyTcpConnection) (huser : type.IsUser) (body : List Byte) :
    (c.onReadBody type body.length body).buffer.recvBuffList.usingList =
      c.buffer.recvBuffList.usingList ++ handedOver type body := by
  have hcode : type.code.toNat % 2 ^ 16 = type.code.toNat := by
    rcases huser with rfl | rfl <;> decide
  rw [JmyTcpConnection.onReadBody, if_neg (not_not.2 rfl), recvBuffList_startRecv, hcode]
  unfold JmySessionBufferList.writeParam Buffer.initData handedOver
  by_cases hnil : body = []
  · rw [if_pos (by rw [hnil]; rfl), if_pos hnil]
    exact (List.append_nil _).symm
  · rw [if_neg (mt List.length_eq_zero_iff.1 hnil), if_neg hnil, List.take_length]
    rfl

/-- A body of any type is unpacked within its bounds unless it ends inside its message id; and the bodies that a
connection hands over, for any length field, are the bytes that it has read, with their number and the type of the
head. -/
theorem unpack_within_body {body : List Byte} (hlen : body.length < 2 ^ 16) (past : ℕ → Byte) (type : JmyPacketType2)
    (data : JmyPacketUnpackData2) (connId : ℤ) :
    (UnpackInside past type body data connId ↔ ¬CutShort type body.length) ∧
    ∀ (c : JmyTcpConnection) (b0 b1 b2 : Byte), (JmyPacketType2.ofChar b2).IsUser →
      c.onReadHead [b0, b1, b2] = c.recvPacket (.ofChar b2) (announcedLen b0 b1) ∧
      (c.onReadBody (.ofChar b2) body.length body).buffer.recvBuffList.usingList =
        c.buffer.recvBuffList.usingList ++ handedOver (.ofChar b2) body ∧
      ∀ b ∈ handedOver (.ofChar b2) body, b.packetType = .ofChar b2 ∧ b.data = body :=
  ⟨unpackInside_iff hlen data connId, fun c b0 b1 b2 huser =>
    ⟨onReadHead_announced c b0 b1 b2 huser, onReadBody_handedOver c huser body,
      fun _ hb => packetType_handedOver huser hb⟩⟩

/-- A body of a message id and one byte. -/
theorem unpack_within_three : UnpackInside (fun _ => 0) .userData [0, 1, 2] .init 7 :=
  (unpack_within_body (by decide) (fun _ => 0) .userData .init 7).1.2 (by unfold CutShort; decide)

/-- A peer sends the length 2 and one byte. The second byte of the message id is read behind the body, and the message
has the length `2 ^ 32 - 1`. -/
theorem one_byte_not_inside :
    JmyPacketType2.ofChar 5 = .userData ∧ announcedLen 0 2 = 1 ∧
    1 ∈ unpackReads .userData 1 ∧
    (unpackData (fun _ => 9) .userData [0] .init 7).2.msgInfo.len = 2 ^ 32 - 1 ∧
    ¬UnpackInside (fun _ => 9) .userData [0] .init 7 := by
  refine ⟨by decide, by decide, by decide, by decide, fun h => ?_⟩
  exact absurd (h.reads 1 (by decide)) (by decide)

/-- The message in a packet, as it is to be handed to a message handler. -/
def Buffer.decoded (b : Buffer) (connId : ℤ) : Option JmyMsgInfo :=
  (decodeBody b.packetType b.data).map fun m => ⟨m.1, m.2.1, m.2.2, m.2.2.length, connId⟩

/-- The unpack data of a data handler, behind any packets of any connections. -/
inductive UnpackReached : JmyPacketUnpackData2 → Prop where
  | init : UnpackReached .init
  | unpack {data : JmyPacketUnpackData2} (past : ℕ → Byte) (type : JmyPacketType2) (body : List Byte) (connId : ℤ) :
    UnpackReached data → UnpackReached (unpackData past type body data connId).2

/-- Unpacking leaves the type field alone. -/
theorem unpackData_type (data : JmyPacketUnpackData2) (connId : ℤ) :
    (unpackData past type body data connId).2.type = data.type := by
  have hpacket : ∀ t, (unpackUserPacket past t body data connId).2.type = data.type := by
    intro t
    unfold unpackUserPacket
    cases unpackUserId past t body <;> rfl
  unfold unpackData
  split
  · rfl
  · cases type with
    | userData => exact hpacket _
    | userIdData => exact hpacket _
    | heartbeat =>
        dsimp only
        split_ifs <;> rfl
    | _ => rfl

theorem UnpackReached.type_eq {data : JmyPacketUnpackData2} (h : UnpackReached data) : data.type = .none := by
  induction h with
  | init => rfl
  | unpack past type body connId _ ih => rw [unpackData_type, ih]

/-- A user packet is never refused. -/
theorem unpackData_user_nonneg (huser : type.IsUser) (data : JmyPacketUnpackData2) (connId : ℤ) :
    0 ≤ (unpackData past type body data connId).1 := by
  have hpacket : ∀ t, 0 ≤ (unpackUserPacket past t body data connId).1 := by
    intro t
    unfold unpackUserPacket
    cases unpackUserId past t body with
    | none => exact le_refl 0
    | some p => exact Int.natCast_nonneg _
  unfold unpackData
  split
  · exact le_refl 0
  · rcases huser with rfl | rfl <;> exact hpacket _

namespace JmyDataHandler2

variable {σ : Type} (h : JmyDataHandler2 σ) (past : ℕ → Byte) (conn : Option (ConnCalls σ))

/-- The handler that `handleMsg` calls for a message id. -/
def handlerOf (msgId : BitVec 32) : Option (JmyMsgHandler σ) := (h.msgHandlerMap msgId).or h.defaultMsgHandler

/-- The message that `handleOne` hands to a message handler. -/
def handed (buff : Buffer) (data : JmyPacketUnpackData2) (connId : ℤ) : Option JmyMsgInfo :=
  let r := unpackData past buff.packetType buff.data data connId
  if 0 ≤ r.1 ∧ buff.packetType.IsUser ∧ (h.handlerOf r.2.msgInfo.msgId).isSome then some r.2.msgInfo else none

/-- While it processes a list, `processData` calls a message handler for a packet, with a message. -/
inductive Calls (connId : ℤ) : List Buffer → JmyPacketUnpackData2 → σ → Buffer → JmyMsgInfo → Prop where
  | here {buff : Buffer} {rest : List Buffer} {data : JmyPacketUnpackData2} {s : σ} {info : JmyMsgInfo}
      (hhanded : h.handed past buff data connId = some info) : Calls connId (buff :: rest) data s buff info
  | later {buff b : Buffer} {rest : List Buffer} {data : JmyPacketUnpackData2} {s : σ} {info : JmyMsgInfo}
      {res : ℤ × JmyPacketUnpackData2 × σ} (hone : h.handleOne past conn buff data connId s = some res)
      (hres : 0 ≤ res.1) (hrest : Calls connId rest res.2.1 res.2.2 b info) :
      Calls connId (buff :: rest) data s b info

variable {h}

/-- A message with a handler is handed to it. -/
theorem handleMsg_of_handler {info : JmyMsgInfo} {f : JmyMsgHandler σ} (hf : h.handlerOf info.msgId = some f) :
    ∃ g : ℤ → ℤ, (info.len < 2 ^ 31 → ∀ z, g z < 0 ↔ z < 0) ∧
      ∀ s, h.handleMsg info s = (f info s).map fun r => (g r.1, r.2) := by
  have hlen : info.len < 2 ^ 31 → 0 ≤ toInt info.len := by
    intro hlt
    rw [toInt_of_lt hlt]
    exact Int.natCast_nonneg _
  unfold handlerOf at hf
  unfold handleMsg
  cases hmap : h.msgHandlerMap info.msgId with
  | some handler =>
      rw [hmap] at hf
      obtain rfl := Option.some.inj hf
      refine ⟨fun z => if z < 0 then -1 else toInt info.len, fun hlt z => ?_, fun s => rfl⟩
      have := hlen hlt
      dsimp only
      split_ifs <;> omega
  | none =>
      rw [hmap, Option.none_or] at hf
      rw [hf]
      refine ⟨fun z => if z = 0 then 0 else if z < 0 then -1 else toInt info.len, fun hlt z => ?_, fun s => rfl⟩
      have := hlen hlt
      dsimp only
      split_ifs <;> omega

/-- A packet that is handed over goes to the handler of its message. -/
theorem handleOne_of_handed {buff : Buffer} {data : JmyPacketUnpackData2} {connId : ℤ} {info : JmyMsgInfo}
    (hhanded : h.handed past buff data connId = some info) :
    buff.packetType.IsUser ∧ info = (unpackData past buff.packetType buff.data data connId).2.msgInfo ∧
      (∃ f, h.handlerOf info.msgId = some f) ∧ ∀ s, h.handleOne past conn buff data connId s =
        (h.handleMsg info s).map fun res => (if res.1 < 0 then -1
          else (unpackData past buff.packetType buff.data data connId).1,
          (unpackData past buff.packetType buff.data data connId).2, res.2) := by
  unfold handed at hhanded
  obtain ⟨⟨hnonneg, huser, hsome⟩, heq⟩ := Option.ite_none_right_eq_some.1 hhanded
  obtain rfl := Option.some.inj heq
  refine ⟨huser, rfl, Option.isSome_iff_exists.1 hsome, fun s => ?_⟩
  unfold handleOne
  rw [Buffer.packetType] at huser hnonneg ⊢
  dsimp only
  rw [if_neg (not_lt.2 hnonneg), if_neg fun hc => hc.2 huser, if_pos huser]

/-- A message without a handler is dropped. -/
theorem handleMsg_of_no_handler {info : JmyMsgInfo} (hf : h.handlerOf info.msgId = none) (s : σ) :
    h.handleMsg info s = some (0, s) := by
  obtain ⟨hmap, hdefault⟩ := Option.or_eq_none_iff.1 hf
  unfold handleMsg
  rw [hmap, hdefault]

/-- Where nothing is handed over, the message handlers do not matter. -/
theorem handleOne_of_not_handed {buff : Buffer} {data : JmyPacketUnpackData2} {connId : ℤ}
    (hhanded : h.handed past buff data connId = none) (s : σ) :
    h.handleOne past conn buff data connId s =
      JmyDataHandler2.handleOne ⟨fun _ => none, none⟩ past conn buff data connId s := by
  by_cases huser : buff.packetType.IsUser
  · have hmsg : h.handleMsg (unpackData past buff.packetType buff.data data connId).2.msgInfo s = some (0, s) := by
      refine handleMsg_of_no_handler (Option.not_isSome_iff_eq_none.1 fun hsome => ?_) s
      unfold handed at hhanded
      rw [if_pos ⟨unpackData_user_nonneg huser data connId, huser, hsome⟩] at hhanded
      cases hhanded
    unfold handleOne
    rw [Buffer.packetType] at huser hmsg
    dsimp only
    rw [hmsg, handleMsg_of_no_handler rfl]
  · unfold handleOne
    rw [Buffer.packetType] at huser
    dsimp only
    rw [if_neg huser, if_neg huser]

/-- A packet that `jmy_net_proto2_unpack_data` does not refuse: without a body, or of a type that it knows. -/
def Accepted (b : Buffer) : Prop :=
  b.data = [] ∨ b.packetType ∈ [.userData, .userIdData, .heartbeat, .disconnect, .disconnectAck]

instance (b : Buffer) : Decidable (Accepted b) := inferInstanceAs (Decidable (_ ∨ _))

/-- A user packet has its message id. -/
def Complete (b : Buffer) : Prop := b.packetType.IsUser → fixedLen b.packetType ≤ b.data.length

theorem accepted_of_user {b : Buffer} (huser : b.packetType.IsUser) : Accepted b := by
  rcases huser with h | h <;> exact .inr (by rw [h]; decide)

theorem unpackData_of_not_accepted {b : Buffer} (hnot : ¬Accepted b) (data : JmyPacketUnpackData2) (connId : ℤ) :
    (unpackData past b.packetType b.data data connId).1 = -1 := by
  obtain ⟨hdata, htype⟩ := not_or.1 hnot
  unfold unpackData
  rw [if_neg (mt List.length_eq_zero_iff.1 hdata)]
  cases hb : b.packetType <;> rw [hb] at htype <;> first | rfl | exact absurd htype (by decide)

theorem unpackData_of_accepted {b : Buffer} (haccepted : Accepted b) (data : JmyPacketUnpackData2) (connId : ℤ) :
    0 ≤ (unpackData past b.packetType b.data data connId).1 := by
  by_cases huser : b.packetType.IsUser
  · exact unpackData_user_nonneg huser data connId
  · unfold unpackData
    split
    · exact le_refl 0
    · next hlen =>
        have htype := haccepted.resolve_left (mt List.length_eq_zero_iff.2 hlen)
        simp only [List.mem_cons, List.not_mem_nil, or_false] at htype
        rcases htype with htype | htype | htype | htype | htype
        · exact absurd (.inl htype) huser
        · exact absurd (.inr htype) huser
        · rw [htype]
          dsimp only
          split_ifs <;> simp [lenTimestamp]
        · rw [htype]
        · rw [htype]

theorem handleOne_of_not_accepted {b : Buffer} (hnot : ¬Accepted b) (data : JmyPacketUnpackData2) (connId : ℤ) (s : σ) :
    ∃ data', h.handleOne past conn b data connId s = some (-1, data', s) := by
  have hneg := unpackData_of_not_accepted past hnot data connId
  rw [Buffer.packetType] at hneg
  unfold handleOne
  dsimp only
  rw [if_pos (by rw [hneg]; decide)]
  exact ⟨_, rfl⟩

/-- A packet with its message id is decoded whatever the unpack data holds. -/
theorem handed_of_complete {b : Buffer} {data : JmyPacketUnpackData2} {connId : ℤ} {info : JmyMsgInfo}
    (hlen : b.data.length < 2 ^ 16) (hcomplete : Complete b) (hhanded : h.handed past b data connId = some info) :
    b.decoded connId = some info := by
  obtain ⟨huser, rfl, -⟩ := handleOne_of_handed past none hhanded
  obtain ⟨userId, msgId, payload, hdecode, -⟩ := decodeBody_eq_some huser (hcomplete huser)
  obtain ⟨-, -, hinfo⟩ := decodes_of_decodeBody past hdecode hlen connId data
  rw [Buffer.decoded, hdecode, hinfo]
  rfl

/-- Every call is for a packet that stands behind accepted ones. -/
theorem Calls.decoded {connId : ℤ} {buffs : List Buffer} {data : JmyPacketUnpackData2} {s : σ} {b : Buffer}
    {info : JmyMsgInfo} (hcalls : h.Calls past conn connId buffs data s b info)
    (hlen : ∀ b ∈ buffs, b.data.length < 2 ^ 16) (hcomplete : ∀ b ∈ buffs.takeWhile Accepted, Complete b) :
    b.decoded connId = some info := by
  induction hcalls with
  | @here buff rest data s info hhanded =>
      obtain ⟨huser, -⟩ := handleOne_of_handed past none hhanded
      have hmem : buff ∈ (buff :: rest).takeWhile Accepted := by
        rw [List.takeWhile_cons_of_pos (by simpa using accepted_of_user huser)]
        exact List.mem_cons_self
      exact handed_of_complete past (hlen buff List.mem_cons_self) (hcomplete buff hmem) hhanded
  | @later buff b rest data s info res hone hres _ ih =>
      have haccepted : Accepted buff := by
        by_contra hnot
        obtain ⟨data', heq⟩ := handleOne_of_not_accepted past conn hnot data connId s
        rw [heq] at hone
        obtain rfl := Option.some.inj hone
        exact absurd hres (show ¬(0 : ℤ) ≤ -1 by decide)
      refine ih (fun b hb => hlen b (List.mem_cons_of_mem buff hb)) fun b hb => hcomplete b ?_
      rw [List.takeWhile_cons_of_pos (by simpa using haccepted)]
      exact List.mem_cons_of_mem buff hb

/-- A default handler that does nothing. -/
def idle : JmyDataHandler2 Unit := ⟨fun _ => none, some fun _ s => some (0, s)⟩

/-- A connection whose calls do nothing. -/
def idleConn : ConnCalls Unit := ⟨fun s => (0, s), fun s => (0, s), fun s => (0, s)⟩

theorem idle_handleOne {b : Buffer} (haccepted : Accepted b) (data : JmyPacketUnpackData2) (connId : ℤ) :
    ∃ res, idle.handleOne past (some idleConn) b data connId () = some res ∧ 0 ≤ res.1 := by
  have hnonneg := unpackData_of_accepted past haccepted data connId
  have hmsg : ∀ info, idle.handleMsg info () = some (0, ()) := fun _ => rfl
  have hzero : b.data = [] → (unpackData past b.packetType b.data data connId).1 = 0 := by
    intro hdata
    unfold unpackData
    rw [if_pos (List.length_eq_zero_iff.2 hdata)]
  unfold Accepted at haccepted
  unfold handleOne
  rw [Buffer.packetType] at haccepted hnonneg hzero
  generalize JmyPacketType2.ofCode (BitVec.ofNat 32 b.woffset) = type at haccepted hnonneg hzero ⊢
  dsimp only
  rw [if_neg (not_lt.2 hnonneg), hmsg]
  by_cases hnone : (unpackData past type b.data data connId).1 = 0 ∧ ¬type.IsUser
  · rw [if_pos hnone]
    exact ⟨_, rfl, le_refl 0⟩
  · rw [if_neg hnone]
    by_cases huser : type.IsUser
    · rw [if_pos huser]
      exact ⟨_, rfl, hnonneg⟩
    · rw [if_neg huser]
      -- the rest is a control packet with a body, whose call does nothing
      have htype := haccepted.resolve_left fun hdata => hnone ⟨hzero hdata, huser⟩
      simp only [List.mem_cons, List.not_mem_nil, or_false] at htype
      rcases htype with rfl | rfl | rfl | rfl | rfl
      · exact absurd (.inl rfl) huser
      · exact absurd (.inr rfl) huser
      · exact ⟨_, rfl, hnonneg⟩
      · exact ⟨_, rfl, hnonneg⟩
      · exact ⟨_, rfl, hnonneg⟩

/-- An accepted user packet is handed over, decoded or not. -/
theorem idle_calls {pre : List Buffer} (hpre : ∀ b ∈ pre, Accepted b) {b : Buffer} (huser : b.packetType.IsUser)
    (post : List Buffer) (data : JmyPacketUnpackData2) (connId : ℤ) :
    ∃ info, idle.Calls past (some idleConn) connId (pre ++ b :: post) data () b info := by
  induction pre generalizing data with
  | nil => exact ⟨_, .here (if_pos ⟨unpackData_user_nonneg huser data connId, huser, rfl⟩)⟩
  | cons first pre ih =>
      obtain ⟨res, hone, hres⟩ := idle_handleOne past (hpre first List.mem_cons_self) data connId
      obtain ⟨info, hinfo⟩ := ih (fun b hb => hpre b (List.mem_cons_of_mem first hb)) res.2.1
      exact ⟨info, .later hone hres hinfo⟩

end JmyDataHandler2

open JmyDataHandler2 in
/-- Whatever was processed before and whatever the handlers are, every call of a message handler has the message of the
packet that is processed, if every user packet up to the first one that is refused has its message id; and only then. -/
theorem calls_decoded_iff {buffs : List Buffer} (hlen : ∀ b ∈ buffs, b.data.length < 2 ^ 16) :
    (∀ (σ : Type) (h : JmyDataHandler2 σ) (past : ℕ → Byte) (conn : Option (ConnCalls σ)) (connId : ℤ)
      (data : JmyPacketUnpackData2) (s : σ) (b : Buffer) (info : JmyMsgInfo), UnpackReached data →
        h.Calls past conn connId buffs data s b info → b.decoded connId = some info) ↔
      ∀ b ∈ buffs.takeWhile Accepted, Complete b := by
  refine ⟨fun hdecoded b hb huser => ?_, fun hcomplete σ h past conn connId data s b info _ hcalls =>
    hcalls.decoded past conn hlen hcomplete⟩
  by_contra hshort
  obtain ⟨pre, post, hsplit⟩ := List.mem_iff_append.1 hb
  obtain ⟨rest, hrest⟩ := List.takeWhile_prefix (l := buffs) fun b => decide (Accepted b)
  have hbuffs : pre ++ b :: (post ++ rest) = buffs := by
    rw [← hrest, hsplit, List.append_assoc, List.cons_append]
  have hpre : ∀ b ∈ pre, Accepted b := by
    intro b' hb'
    have hmem : b' ∈ buffs.takeWhile Accepted := hsplit ▸ List.mem_append_left _ hb'
    exact of_decide_eq_true (List.all_eq_true.1 List.all_takeWhile b' hmem)
  obtain ⟨info, hinfo⟩ := idle_calls (fun _ => 0) hpre huser (post ++ rest) .init 0
  rw [hbuffs] at hinfo
  have heq := hdecoded _ _ _ _ _ _ _ _ _ .init hinfo
  rw [Buffer.decoded, decodeBody_eq_none fun _ => not_le.1 hshort] at heq
  cases heq

/-- A packet with the message 1 and one byte of payload. -/
def messageOne : Buffer := ⟨[0, 1, 2], 3, 0, 5⟩

/-- A packet that ends inside its user id. -/
def halfUserId : Buffer := ⟨[0], 1, 0, 10⟩

theorem messageOne_decoded :
    JmyDataHandler2.idle.Calls (fun _ => 0) none 7 [messageOne] .init () messageOne ⟨0, 1, [2], 1, 7⟩ ∧
      messageOne.decoded 7 = some ⟨0, 1, [2], 1, 7⟩ := by
  have hcalls : JmyDataHandler2.idle.Calls (fun _ => 0) none 7 [messageOne] .init () messageOne ⟨0, 1, [2], 1, 7⟩ :=
    .here rfl
  refine ⟨hcalls, (calls_decoded_iff ?_).2 ?_ _ _ _ _ _ _ _ _ _ .init hcalls⟩
  · intro b hb
    obtain rfl := List.mem_singleton.1 hb
    decide
  · intro b hb _
    obtain rfl := List.mem_singleton.1 ((List.takeWhile_sublist _).subset hb)
    decide

/-- The packet behind it is handed over as the message 1 once more. -/
theorem halfUserId_replays :
    JmyDataHandler2.idle.Calls (fun _ => 0) none 7 [messageOne, halfUserId] .init () halfUserId ⟨0, 1, [2], 1, 7⟩ ∧
      halfUserId.decoded 7 = none :=
  ⟨.later rfl (by decide) (.here rfl), rfl⟩

namespace JmyDataHandler2

variable {σ : Type} (h : JmyDataHandler2 σ)

/-- The handlers of messages are called in order, up to the first one that fails. -/
def serve : List JmyMsgInfo → σ → Option (List (JmyMsgInfo × ℤ) × σ)
  | [], s => some ([], s)
  | info :: infos, s => (h.handlerOf info.msgId).bind fun f => (f info s).bind fun r =>
    if r.1 < 0 then some ([(info, r.1)], r.2) else (serve infos r.2).map fun t => ((info, r.1) :: t.1, t.2)

/-- What `processData` is to do with a list of packets whose handlers have been called: to answer their number and
leave the list empty, or to answer `-1` where a handler has failed. -/
structure Counts (past : ℕ → Byte) (conn : Option (ConnCalls σ)) (clear : σ → σ) (buffs : List Buffer)
    (data : JmyPacketUnpackData2) (connId : ℤ) (s : σ) (calls : List (JmyMsgInfo × ℤ)) (s' : σ) : Prop where
  all : (∀ call ∈ calls, 0 ≤ call.2) → buffs.map (Buffer.decoded · connId) = (calls.map Prod.fst).map some ∧
    (h.processData past conn clear buffs data connId s).map (fun r => (r.1, r.2.2)) =
      some ((buffs.length : ℤ), clear s')
  fails : (∃ call ∈ calls, call.2 < 0) →
    (h.processData past conn clear buffs data connId s).map (fun r => (r.1, r.2.2)) = some (-1, s')

variable {h} {past : ℕ → Byte} {conn : Option (ConnCalls σ)} {connId : ℤ}

/-- A packet with its message is handed over with it. -/
theorem handed_decoded {b : Buffer} (hlen : b.data.length < 2 ^ 16) {info : JmyMsgInfo}
    (hdecoded : b.decoded connId = some info) (hf : (h.handlerOf info.msgId).isSome) (data : JmyPacketUnpackData2) :
    h.handed past b data connId = some info ∧ info.len < 2 ^ 31 := by
  obtain ⟨⟨userId, msgId, payload⟩, hbody, rfl⟩ := Option.map_eq_some_iff.1 hdecoded
  have hfixed : b.packetType.IsUser ∧ fixedLen b.packetType ≤ b.data.length := by
    by_contra hnot
    rw [decodeBody_eq_none fun huser => not_le.1 fun h => hnot ⟨huser, h⟩] at hbody
    cases hbody
  obtain ⟨userId', msgId', payload', hbody', hpayload, -⟩ := decodeBody_eq_some hfixed.1 hfixed.2
  obtain ⟨rfl, rfl, rfl⟩ : userId' = userId ∧ msgId' = msgId ∧ payload' = payload := by
    rw [hbody] at hbody'
    cases hbody'
    exact ⟨rfl, rfl, rfl⟩
  obtain ⟨hhandled, -, hinfo⟩ := decodes_of_decodeBody past hbody hlen connId data
  constructor
  · unfold handed
    dsimp only
    rw [hhandled, hinfo, if_pos ⟨Int.natCast_nonneg _, hfixed.1, hf⟩]
  · show payload'.length < 2 ^ 31
    omega

variable (past conn) in
/-- One packet with its message goes to its handler. -/
theorem handleOne_decoded {b : Buffer} (hlen : b.data.length < 2 ^ 16) {info : JmyMsgInfo}
    (hdecoded : b.decoded connId = some info) {f : JmyMsgHandler σ} (hf : h.handlerOf info.msgId = some f)
    (data : JmyPacketUnpackData2) {s : σ} {r : ℤ × σ} (hr : f info s = some r) :
    ∃ data' res, h.handleOne past conn b data connId s = some (res, data', r.2) ∧ data'.type = data.type ∧
      (res < 0 ↔ r.1 < 0) := by
  obtain ⟨hhanded, hsmall⟩ := handed_decoded hlen hdecoded (Option.isSome_iff_exists.2 ⟨f, hf⟩) data
  obtain ⟨huser, -, -, hone⟩ := handleOne_of_handed past conn hhanded
  obtain ⟨g, hg, hmsg⟩ := handleMsg_of_handler hf
  have hnonneg : 0 ≤ (unpackData past b.packetType b.data data connId).1 := unpackData_user_nonneg huser data connId
  refine ⟨_, _, by rw [hone, hmsg, hr]; rfl, unpackData_type data connId, ?_⟩
  dsimp only
  rw [← hg hsmall r.1]
  split_ifs <;> omega

/-- The loop calls the handlers of the messages and counts nothing. -/
theorem processLoop_serve {buffs : List Buffer} (hlen : ∀ b ∈ buffs, b.data.length < 2 ^ 16)
    {infos : List JmyMsgInfo} (hdecoded : buffs.map (Buffer.decoded · connId) = infos.map some)
    {data : JmyPacketUnpackData2} (hdata : data.type = .none) {count : ℤ} {s s' : σ} {calls : List (JmyMsgInfo × ℤ)}
    (hserve : h.serve infos s = some (calls, s')) :
    ∃ data', h.processLoop past conn connId buffs data count s =
      some (if ∃ call ∈ calls, call.2 < 0 then -1 else count, data', s') := by
  induction buffs generalizing infos data s calls with
  | nil =>
      obtain rfl := List.map_eq_nil_iff.1 hdecoded.symm
      cases hserve
      exact ⟨data, by rw [if_neg (by simp)]; rfl⟩
  | cons b buffs ih =>
      obtain ⟨info, infos, rfl, hfirst, hrest⟩ := List.map_eq_cons_iff.1 hdecoded.symm
      obtain ⟨f, hf, hcall⟩ := Option.bind_eq_some_iff.1 hserve
      obtain ⟨r, hr, hnext⟩ := Option.bind_eq_some_iff.1 hcall
      obtain ⟨data', res, hone, htype, hneg⟩ :=
        handleOne_decoded past conn (hlen b List.mem_cons_self) hfirst.symm hf data hr
      rw [processLoop, hone, Option.bind_some]
      dsimp only
      by_cases hfail : r.1 < 0
      · rw [if_pos hfail] at hnext
        cases hnext
        rw [if_pos (hneg.2 hfail), if_pos ⟨_, List.mem_cons_self, hfail⟩]
        exact ⟨data', rfl⟩
      · rw [if_neg hfail] at hnext
        obtain ⟨⟨calls', t⟩, hserve', heq⟩ := Option.map_eq_some_iff.1 hnext
        cases heq
        have huser : ¬data'.type.IsUser := by
          rw [htype, hdata]
          decide
        rw [if_neg (mt hneg.1 hfail), if_neg huser]
        obtain ⟨data'', hloop⟩ := ih (fun b hb => hlen b (List.mem_cons_of_mem _ hb)) hrest.symm
          (htype.trans hdata) hserve'
        refine ⟨data'', hloop.trans ?_⟩
        simp only [List.mem_cons, exists_eq_or_imp, hfail, false_or]

/-- The calls of handlers that do not fail are one for each message. -/
theorem serve_calls {infos : List JmyMsgInfo} {s s' : σ} {calls : List (JmyMsgInfo × ℤ)}
    (hserve : h.serve infos s = some (calls, s')) (hall : ∀ call ∈ calls, 0 ≤ call.2) :
    calls.map Prod.fst = infos := by
  induction infos generalizing s calls with
  | nil =>
      cases hserve
      rfl
  | cons info infos ih =>
      obtain ⟨f, -, hcall⟩ := Option.bind_eq_some_iff.1 hserve
      obtain ⟨r, -, hnext⟩ := Option.bind_eq_some_iff.1 hcall
      by_cases hfail : r.1 < 0
      · rw [if_pos hfail] at hnext
        cases hnext
        exact absurd (hall _ List.mem_cons_self) (not_le.2 hfail)
      · rw [if_neg hfail] at hnext
        obtain ⟨⟨calls', t⟩, hserve', heq⟩ := Option.map_eq_some_iff.1 hnext
        cases heq
        exact congrArg (info :: ·) (ih hserve' fun call hcall => hall call (List.mem_cons_of_mem _ hcall))

/-- `processData` counts the messages of well formed packets if there are none, or if a handler fails; and only
then. -/
theorem counts_iff {buffs : List Buffer} (hlen : ∀ b ∈ buffs, b.data.length < 2 ^ 16)
    {infos : List JmyMsgInfo} (hdecoded : buffs.map (Buffer.decoded · connId) = infos.map some)
    {data : JmyPacketUnpackData2} (hdata : UnpackReached data) (clear : σ → σ) {s s' : σ}
    {calls : List (JmyMsgInfo × ℤ)} (hserve : h.serve infos s = some (calls, s')) :
    h.Counts past conn clear buffs data connId s calls s' ↔ buffs = [] ∨ ∃ call ∈ calls, call.2 < 0 := by
  obtain ⟨data', hloop⟩ : ∃ data', h.processLoop past conn connId buffs data 0 s = _ :=
    processLoop_serve hlen hdecoded hdata.type_eq hserve
  by_cases hfail : ∃ call ∈ calls, call.2 < 0
  · refine iff_of_true ⟨fun hall => ?_, fun _ => ?_⟩ (.inr hfail)
    · obtain ⟨call, hcall, hneg⟩ := hfail
      exact absurd (hall call hcall) (not_le.2 hneg)
    · rw [processData, hloop, if_pos hfail]
      rfl
  · have hall : ∀ call ∈ calls, 0 ≤ call.2 := fun call hcall => not_lt.1 fun hneg => hfail ⟨call, hcall, hneg⟩
    have hzero : (h.processData past conn clear buffs data connId s).map (fun r => (r.1, r.2.2)) =
        some (0, clear s') := by
      rw [processData, hloop, if_neg hfail]
      rfl
    rw [or_iff_left hfail]
    constructor
    · intro hcounts
      have hcount := (hcounts.all hall).2
      rw [hzero] at hcount
      have hlength : (0 : ℤ) = buffs.length := congrArg Prod.fst (Option.some.inj hcount)
      exact List.length_eq_zero_iff.1 (by exact_mod_cast hlength.symm)
    · rintro rfl
      refine ⟨fun _ => ⟨?_, hzero⟩, fun h => absurd h hfail⟩
      rw [serve_calls hserve hall]
      exact hdecoded

/-- A default handler that fails. -/
def refusing : JmyDataHandler2 Unit := ⟨fun _ => none, some fun _ s => some (-1, s)⟩

theorem refusing_counts :
    refusing.Counts (fun _ => 0) none id [messageOne] .init 7 () [(⟨0, 1, [2], 1, 7⟩, -1)] () := by
  have hdecoded : [messageOne].map (Buffer.decoded · 7) = [(⟨0, 1, [2], 1, 7⟩ : JmyMsgInfo)].map some := rfl
  refine (counts_iff ?_ hdecoded .init id rfl).2 (.inr ⟨_, List.mem_cons_self, by decide⟩)
  intro b hb
  obtain rfl := List.mem_singleton.1 hb
  decide

/-- One message is handled and none is counted. -/
theorem messageOne_not_counted :
    idle.serve [⟨0, 1, [2], 1, 7⟩] () = some ([(⟨0, 1, [2], 1, 7⟩, 0)], ()) ∧
    (idle.processData (fun _ => 0) none id [messageOne] .init 7 ()).map (fun r => r.1) = some 0 ∧
    ¬idle.Counts (fun _ => 0) none id [messageOne] .init 7 () [(⟨0, 1, [2], 1, 7⟩, 0)] () := by
  refine ⟨rfl, rfl, fun hcounts => ?_⟩
  obtain ⟨-, hcount⟩ := hcounts.all (by decide)
  exact absurd (congrArg (Option.map Prod.fst) hcount) (by decide)

end JmyDataHandler2

end JmyGame
