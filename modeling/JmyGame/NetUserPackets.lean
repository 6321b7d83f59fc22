import JmyGame.NetFraming
import JmyGame.NetSendSize

/-! User packets between the two ends of a connection: the bytes that a send queues, the packet in the
receive list, and the message that a handler sees. The sends and handler calls of a connection are
followed by the record `Grew` of the packets queued and the messages handled. -/

namespace JmyGame

open CArith Block JmySessionBufferList

/-- What the two `send` overloads are given. -/
inductive UserPacket where
  | data (msgId : BitVec 32) (payload : List Byte)
  | userData (userId msgId : BitVec 32) (payload : List Byte)
  deriving DecidableEq, Repr

/-- A message as a handler sees it: the user id, the message id and the payload. -/
abbrev Message := BitVec 32 × BitVec 32 × List Byte

namespace UserPacket

/-- The packet fits: two bytes for the message id, and two for the length. -/
def Ok : UserPacket → Prop
  | data msgId payload => msgId.toNat ≤ 65535 ∧ payload.length ≤ 65530
  | userData _ msgId payload => msgId.toNat ≤ 65535 ∧ payload.length ≤ 65526

def type : UserPacket → JmyPacketType2
  | data _ _ => .userData
  | userData _ _ _ => .userIdData

/-- The bytes behind the packet type. -/
def body : UserPacket → List Byte
  | data msgId payload => packInt16 msgId ++ payload
  | userData userId msgId payload => packInt32 userId ++ packInt16 msgId ++ payload

/-- The bytes that are sent. -/
def wire (p : UserPacket) : List Byte := packHead (lenHead + lenType + p.body.length) p.type ++ p.body

def message : UserPacket → Message
  | data msgId payload => (0, msgId, payload)
  | userData userId msgId payload => (userId, msgId, payload)

/-- The packet in a receive list. -/
def entry (p : UserPacket) : Buffer := ⟨p.body, p.body.length, 0, p.type.code.toNat % 2 ^ 16⟩

theorem isUser_type (p : UserPacket) : p.type.IsUser := by
  cases p with
  | data => exact Or.inl rfl
  | userData => exact Or.inr rfl

theorem Ok.length_body {p : UserPacket} (h : p.Ok) : 2 ≤ p.body.length ∧ p.body.length ≤ 65532 := by
  cases p with
  | data msgId payload =>
      have := h.2
      simp only [body, List.length_append, length_packInt16]
      omega
  | userData userId msgId payload =>
      have := h.2
      simp only [body, List.length_append, length_packInt16, length_packInt32]
      omega

theorem length_wire (p : UserPacket) : p.wire.length = 3 + p.body.length := by
  rw [wire, List.length_append, length_packHead]

theorem wire_ne_nil (p : UserPacket) : p.wire ≠ [] := List.cons_ne_nil _ _

theorem Ok.length_wire_lt {p : UserPacket} (h : p.Ok) : p.wire.length < 2 ^ 16 := by
  have := h.length_body
  rw [length_wire]
  omega

theorem Ok.queued {p : UserPacket} (h : p.Ok) : Queued (packetOf p.wire) :=
  queued_packetOf p.wire_ne_nil h.length_wire_lt

/-- The head tells the type and the length of the body. -/
theorem Ok.getPacketLenType {p : UserPacket} (h : p.Ok) (rest : List Byte) :
    getPacketLenType (packHead (lenHead + lenType + p.body.length) p.type ++ rest) =
      some (p.type, BitVec.ofNat 32 (lenType + p.body.length)) := by
  have := h.length_body
  rw [getPacketLenType_packHead _ _ _ (by simp only [lenHead, lenType]; omega),
    ofChar_toChar_user p.isUser_type, Nat.add_assoc, Nat.add_sub_cancel_left]

/-- The body is decoded to the message. -/
theorem Ok.decodes {p : UserPacket} (h : p.Ok) (past : ℕ → Byte) (connId : ℤ) :
    Decodes past p.type p.body connId p.message.1 p.message.2.1 p.message.2.2 := by
  cases p with
  | data msgId payload =>
      have hd := decodes_userData past (byteOf 1 msgId) (byteOf 0 msgId) payload connId
        (lt_of_le_of_lt h.2 (by decide))
      rwa [unpackInt16_byteOf msgId (Nat.lt_succ_of_le h.1)] at hd
  | userData userId msgId payload =>
      have hd := decodes_userIdData past (byteOf 3 userId) (byteOf 2 userId) (byteOf 1 userId)
        (byteOf 0 userId) (byteOf 1 msgId) (byteOf 0 msgId) payload connId
        (lt_of_le_of_lt h.2 (by decide))
      rwa [unpackInt16_byteOf msgId (Nat.lt_succ_of_le h.1), unpackInt32_byteOf userId] at hd

theorem ofCode_entry (p : UserPacket) :
    JmyPacketType2.ofCode (BitVec.ofNat 32 p.entry.woffset) = p.type := by
  have hcode : ∀ t : JmyPacketType2, t.IsUser →
      JmyPacketType2.ofCode (BitVec.ofNat 32 (t.code.toNat % 2 ^ 16)) = t := by
    rintro t (rfl | rfl) <;> decide
  exact hcode p.type p.isUser_type

end UserPacket

/-- The packets that the send calls in a trace were given. -/
def sentPackets (trace : List Obs) : List UserPacket :=
  trace.filterMap fun o => match o with
    | .send msgId payload => some (.data msgId payload)
    | .sendUser userId msgId payload => some (.userData userId msgId payload)
    | _ => none

/-- The messages that were handed to handlers: of the data as many bytes as the length says. -/
def handledMessages (trace : List Obs) : List Message :=
  trace.filterMap fun o => match o with
    | .message info => some (info.userId, info.msgId, info.data.take info.len)
    | _ => none

/-- The call sends a packet that fits. -/
def ConnCall.Ok : ConnCall → Prop
  | .send msgId payload => (UserPacket.data msgId payload).Ok
  | .sendUser userId msgId payload => (UserPacket.userData userId msgId payload).Ok
  | _ => False

/-- The connection accepts packets for its send list. -/
structure CanSend (c : JmyTcpConnection) : Prop where
  state : c.state = .connected
  useSendList : c.buffer.useSendList = true
  sound : c.buffer.sendBuffList.Sound

/-- All that happened to the connection is that packets were queued and messages were handled. -/
structure Grew (ps : List UserPacket) (ms : List Message) (c c' : JmyTcpConnection) : Prop where
  rest : c' = { c with
    trace := c'.trace
    buffer := { c.buffer with sendBuffList := c'.buffer.sendBuffList } }
  list : c'.buffer.sendBuffList = { c.buffer.sendBuffList with
    usingList := c.buffer.sendBuffList.usingList ++ ps.map fun p => packetOf p.wire }
  sent : sentPackets c'.trace = sentPackets c.trace ++ ps
  handled : handledMessages c'.trace = handledMessages c.trace ++ ms
  ok : ∀ p ∈ ps, p.Ok

namespace Grew

variable {c c' c'' : JmyTcpConnection} {ps ps' : List UserPacket} {ms ms' : List Message}

theorem refl (c : JmyTcpConnection) : Grew [] [] c c :=
  ⟨rfl, by simp, by simp, by simp, by simp⟩

theorem trans (h : Grew ps ms c c') (h' : Grew ps' ms' c' c'') : Grew (ps ++ ps') (ms ++ ms') c c'' := by
  refine ⟨?_, ?_, ?_, ?_, ?_⟩
  · rw [h'.rest, h.rest]
  · rw [h'.list, h.list, List.map_append, List.append_assoc]
  · rw [h'.sent, h.sent, List.append_assoc]
  · rw [h'.handled, h.handled, List.append_assoc]
  · intro p hp
    exact (List.mem_append.1 hp).elim (h.ok p) (h'.ok p)

theorem state (h : Grew ps ms c c') : c'.state = c.state := by rw [h.rest]

theorem pending (h : Grew ps ms c c') : c'.pending = c.pending := by rw [h.rest]

theorem recvBuffList (h : Grew ps ms c c') : c'.buffer.recvBuffList = c.buffer.recvBuffList := by
  rw [h.rest]

theorem canSend (h : Grew ps ms c c') (hc : CanSend c) : CanSend c' := by
  refine ⟨h.state.trans hc.state, ?_, ?_, ?_, ?_⟩
  · rw [h.rest]
    exact hc.useSendList
  · intro b hb
    rw [h.list] at hb
    rcases List.mem_append.1 hb with hb | hb
    · exact hc.sound.queued b hb
    · obtain ⟨p, hp, rfl⟩ := List.mem_map.1 hb
      exact (h.ok p hp).queued
  · rw [h.list]
    exact hc.sound.maxBytes
  · rw [h.list]
    exact hc.sound.maxCount

/-- An observation that is neither a send nor a message leaves both records alone. -/
theorem observe (c : JmyTcpConnection) {o : Obs} (hsent : sentPackets [o] = [])
    (hhandled : handledMessages [o] = ms) : Grew [] ms c (c.observe o) := by
  refine ⟨rfl, by simp [JmyTcpConnection.observe], ?_, ?_, by simp⟩
  · rw [JmyTcpConnection.observe, sentPackets, List.filterMap_append]
    exact congrArg _ hsent
  · rw [JmyTcpConnection.observe, handledMessages, List.filterMap_append]
    exact congrArg _ hhandled

end Grew

theorem pushBack_sound {l : JmySessionBufferList} (h : l.Sound) (b : Buffer) (len : ℕ) :
    l.pushBack b len = { l with usingList := l.usingList ++ [b] } := by
  simp [JmySessionBufferList.pushBack, h.maxBytes, h.maxCount]

/-- A head and a payload that fit a packet are queued together. -/
theorem writeHeadAndData_sound {l : JmySessionBufferList} (h : l.Sound) {head data : List Byte}
    (hhead : head ≠ []) (hlen : head.length + data.length < 2 ^ 16) :
    ∃ r, 0 ≤ r ∧ writeHeadAndData l head data =
      some (r, { l with usingList := l.usingList ++ [packetOf (head ++ data)] }) := by
  by_cases hnil : data.length = 0
  · have hw := l.writeData_packet hhead (by omega)
    rw [h.overLimit, if_neg Bool.false_ne_true, pushBack_sound h] at hw
    refine ⟨0, le_rfl, ?_⟩
    rw [writeHeadAndData, if_pos hnil, show SendBuffer.writeData l head = l.writeData head from rfl, hw,
      List.length_eq_zero_iff.1 hnil, List.append_nil]
    rfl
  · have hmod : data.length % 2 ^ 16 = data.length := Nat.mod_eq_of_lt (by omega)
    have hw := l.writeDatas_pair data hhead (by omega)
    rw [h.overLimit, if_neg Bool.false_ne_true, hmod, if_pos ⟨by omega, hlen⟩, pushBack_sound h,
      List.take_length] at hw
    refine ⟨toInt (head.length + data.length), ?_, ?_⟩
    · rw [toInt_of_lt (by omega)]
      omega
    · rw [writeHeadAndData, if_neg hnil, show SendBuffer.writeDatas l [head, data] =
        some (l.writeDatas [head, data]) from rfl, hw]
      rfl

/-- The head that `writeUserIdAndData` packs for a payload. -/
def userIdDataHead (userId msgId : BitVec 32) (dataLen : ℕ) : List Byte :=
  packHead (userIdDataPackLen dataLen) .userIdData ++ packInt32 userId ++ packInt16 msgId

theorem wire_data (msgId : BitVec 32) {payload : List Byte} (h : payload.length < 2 ^ 16) :
    (UserPacket.data msgId payload).wire = userDataHead msgId payload.length ++ payload := by
  have hlen : lenHead + lenType + (packInt16 msgId ++ payload).length = userDataPackLen payload.length := by
    rw [List.length_append, length_packInt16, userDataPackLen, lenMsgId]
    omega
  rw [UserPacket.wire, UserPacket.body, hlen, userDataHead, Nat.mod_eq_of_lt h, List.append_assoc]
  rfl

theorem wire_userData (userId msgId : BitVec 32) (payload : List Byte) :
    (UserPacket.userData userId msgId payload).wire =
      userIdDataHead userId msgId payload.length ++ payload := by
  have hlen : lenHead + lenType + (packInt32 userId ++ packInt16 msgId ++ payload).length =
      userIdDataPackLen payload.length := by
    rw [List.length_append, List.length_append, length_packInt16, length_packInt32, userIdDataPackLen,
      lenMsgId, lenUserId]
    omega
  rw [UserPacket.wire, UserPacket.body, hlen, userIdDataHead]
  simp only [List.append_assoc]
  rfl

theorem writeUserIdAndData_eq (l : JmySessionBufferList) (userId msgId : BitVec 32)
    {payload : List Byte} (h : payload.length < 2 ^ 16) :
    writeUserIdAndData l userId msgId payload =
      writeHeadAndData l (userIdDataHead userId msgId payload.length) payload := by
  rw [writeUserIdAndData, Nat.mod_eq_of_lt h, packUserIdDataHead_eq, List.take_length]
  rfl

theorem writeUser_grew {c : JmyTcpConnection} (hc : CanSend c) {p : UserPacket} (hp : p.Ok) {o : Obs}
    (hsent : sentPackets [o] = [p]) (hhandled : handledMessages [o] = [])
    {len : ℕ} {onList : JmySessionBufferList → Option (ℤ × JmySessionBufferList)}
    {onBuff : JmyDoubleSessionBuffer → Option (ℤ × JmyDoubleSessionBuffer)} {head data : List Byte}
    (honList : ∀ l, onList l = writeHeadAndData l head data) (hhead : head ≠ [])
    (hwire : p.wire = head ++ data) :
    ∃ c', ((c.observe o).writeUser len onList onBuff).map Prod.snd = some c' ∧ Grew [p] [] c c' := by
  have hlen := hp.length_wire_lt
  rw [hwire, List.length_append] at hlen
  obtain ⟨r, hr, hw⟩ := writeHeadAndData_sound hc.sound hhead hlen
  refine ⟨(c.observe o).setSendBuffList { c.buffer.sendBuffList with
    usingList := c.buffer.sendBuffList.usingList ++ [packetOf p.wire] }, ?_, ?_⟩
  · have hstate : (c.observe o).state = .connected := hc.state
    have huse : (c.observe o).buffer.useSendList = true := hc.useSendList
    rw [JmyTcpConnection.writeUser, if_neg (not_not.2 hstate), if_pos huse, honList,
      show (c.observe o).buffer.sendBuffList = c.buffer.sendBuffList from rfl, hw, hwire]
    rfl
  · refine ⟨rfl, by simp [JmyTcpConnection.setSendBuffList], ?_, ?_, by simpa using hp⟩
    · rw [← hsent]
      exact List.filterMap_append
    · rw [← hhandled]
      exact List.filterMap_append

/-- A send of a packet that fits is accepted, and queues its bytes. -/
theorem call_grew {c : JmyTcpConnection} (hc : CanSend c) {k : ConnCall} (hk : k.Ok) :
    ∃ c', c.call k = some c' ∧ ∃ p, Grew [p] [] c c' := by
  cases k with
  | send msgId payload =>
      have hlen : payload.length < 2 ^ 16 := lt_of_le_of_lt hk.2 (by decide)
      have hcall : ∃ c', c.call (.send msgId payload) = some c' ∧
          Grew [.data msgId payload] [] c c' :=
        writeUser_grew hc (p := .data msgId payload) hk rfl rfl (fun l => writeUserData_eq l msgId payload)
          (userDataHead_ne_nil _ _) (wire_data msgId hlen)
      obtain ⟨c', hc', hg⟩ := hcall
      exact ⟨c', hc', _, hg⟩
  | sendUser userId msgId payload =>
      have hlen : payload.length < 2 ^ 16 := lt_of_le_of_lt hk.2 (by decide)
      have hcall : ∃ c', c.call (.sendUser userId msgId payload) = some c' ∧
          Grew [.userData userId msgId payload] [] c c' :=
        writeUser_grew hc (p := .userData userId msgId payload) hk rfl rfl
          (fun l => writeUserIdAndData_eq l userId msgId hlen)
          (List.cons_ne_nil _ _) (wire_userData userId msgId payload)
      obtain ⟨c', hc', hg⟩ := hcall
      exact ⟨c', hc', _, hg⟩
  | close now => exact hk.elim
  | forceClose => exact hk.elim

theorem calls_grew {c : JmyTcpConnection} (hc : CanSend c) {ks : List ConnCall}
    (hks : ∀ k ∈ ks, k.Ok) : ∃ c', c.calls ks = some c' ∧ ∃ ps, Grew ps [] c c' := by
  induction ks generalizing c with
  | nil => exact ⟨c, rfl, [], Grew.refl c⟩
  | cons k ks ih =>
      obtain ⟨c₁, hcall, p, hg⟩ := call_grew hc (hks k List.mem_cons_self)
      obtain ⟨c₂, hcalls, ps, hg'⟩ := ih (hg.canSend hc) fun k' hk' => hks k' (List.mem_cons_of_mem k hk')
      refine ⟨c₂, ?_, p :: ps, hg.trans hg'⟩
      rw [JmyTcpConnection.calls, List.foldlM_cons, hcall]
      exact hcalls

/-- Handlers that answer no error, make only sends that fit, and leave no message without a handler. -/
structure ConnHandlers.Ok (h : ConnHandlers) : Prop where
  msg : ∀ id f, h.msgHandlerMap id = some f → ∀ info c, 0 ≤ (f info c).1 ∧ ∀ k ∈ (f info c).2, k.Ok
  default : ∀ f, h.defaultMsgHandler = some f → ∀ info c, 0 ≤ (f info c).1 ∧ ∀ k ∈ (f info c).2, k.Ok
  registered : ∀ id, h.msgHandlerMap id ≠ none ∨ h.defaultMsgHandler ≠ none
  tick : ∀ f, h.tickHandler = some f → ∀ c, ∀ k ∈ f c, k.Ok

/-- A handler under the loop of `processData` records the message and makes its sends. -/
theorem underLoop_grew {c : JmyTcpConnection} (hc : CanSend c)
    {f : JmyMsgInfo → JmyTcpConnection → ℤ × List ConnCall}
    (hf : ∀ info c, 0 ≤ (f info c).1 ∧ ∀ k ∈ (f info c).2, k.Ok) (info : JmyMsgInfo) :
    ∃ r c', underLoop (fun c => c) (fun f => f) (ConnHandlers.msgHandler f) info c = some (r, c') ∧
      0 ≤ r ∧ ∃ ps, Grew ps [(info.userId, info.msgId, info.data.take info.len)] c c' := by
  have hobs : Grew [] [(info.userId, info.msgId, info.data.take info.len)] c
      (c.observe (.message info)) := Grew.observe c rfl rfl
  obtain ⟨hr, hks⟩ := hf info (c.observe (.message info))
  obtain ⟨c', hcalls, ps, hg⟩ := calls_grew (hobs.canSend hc) hks
  have hall := hobs.trans hg
  refine ⟨_, c', ?_, hr, ps, hall⟩
  simp only [underLoop, ConnHandlers.msgHandler, hcalls, Option.map_some, Option.bind_some,
    hall.recvBuffList, if_true]

/-- The data handler that `handle_recv` works with, on one connection. -/
def ConnHandlers.loopHandler (h : ConnHandlers) : JmyDataHandler2 JmyTcpConnection :=
  ⟨fun id => (h.dataHandler.msgHandlerMap id).map (underLoop (fun c => c) fun f => f),
    h.dataHandler.defaultMsgHandler.map (underLoop (fun c => c) fun f => f)⟩

theorem toInt_nonneg {n : ℕ} (h : n < 2 ^ 31) : 0 ≤ toInt n := by
  rw [toInt_of_lt h]
  omega

/-- Every message finds a handler, which is called once. -/
theorem handleMsg_grew {c : JmyTcpConnection} (hc : CanSend c) {h : ConnHandlers} (hh : h.Ok)
    (info : JmyMsgInfo) (hlen : info.len < 2 ^ 31) :
    ∃ r c', h.loopHandler.handleMsg info c = some (r, c') ∧ 0 ≤ r ∧
      ∃ ps, Grew ps [(info.userId, info.msgId, info.data.take info.len)] c c' := by
  have hpos := toInt_nonneg hlen
  cases hmap : h.msgHandlerMap info.msgId with
  | some f =>
      obtain ⟨r, c', hrun, hr, hg⟩ := underLoop_grew hc (hh.msg _ f hmap) info
      refine ⟨toInt info.len, c', ?_, hpos, hg⟩
      simp only [JmyDataHandler2.handleMsg, ConnHandlers.loopHandler, ConnHandlers.dataHandler, hmap,
        Option.map_some, hrun, if_neg (not_lt.2 hr)]
  | none =>
      cases hdef : h.defaultMsgHandler with
      | none => exact absurd ((hh.registered info.msgId).resolve_left (not_not.2 hmap)) (not_not.2 hdef)
      | some f =>
          obtain ⟨r, c', hrun, hr, hg⟩ := underLoop_grew hc (hh.default f hdef) info
          refine ⟨if r = 0 then 0 else toInt info.len, c', ?_, ?_, hg⟩
          · simp only [JmyDataHandler2.handleMsg, ConnHandlers.loopHandler, ConnHandlers.dataHandler,
              hmap, hdef, Option.map_some, Option.map_none, hrun, if_neg (not_lt.2 hr)]
          · split_ifs
            · exact le_rfl
            · exact hpos

section loop

variable {h : ConnHandlers} (past : ℕ → Byte) (conn : Option (ConnCalls JmyTcpConnection))

/-- A packet of the receive list is handed to its handler as the message that was sent. -/
theorem handleOne_grew (hh : h.Ok) {c : JmyTcpConnection} (hc : CanSend c) {p : UserPacket}
    (hp : p.Ok) (data : JmyPacketUnpackData2) (connId : ℤ) :
    ∃ r data' c', h.loopHandler.handleOne past conn p.entry data connId c = some (r, data', c') ∧
      0 ≤ r ∧ ∃ ps, Grew ps [p.message] c c' := by
  obtain ⟨hres, -, hinfo⟩ := hp.decodes past connId data
  have hbody := hp.length_body
  have hpayload : p.message.2.2.length ≤ p.body.length := by
    cases p <;> simp only [UserPacket.message, UserPacket.body, List.length_append] <;> omega
  obtain ⟨r, c', hmsg, hr, ps, hg⟩ := handleMsg_grew hc hh
    ⟨p.message.1, p.message.2.1, p.message.2.2, p.message.2.2.length, connId⟩
    (hpayload.trans_lt (by omega))
  simp only [List.take_length] at hg
  refine ⟨p.body.length, (unpackData past p.type p.body data connId).2, c', ?_, by omega, ps, hg⟩
  simp only [JmyDataHandler2.handleOne, p.ofCode_entry]
  rw [show p.entry.data = p.body from rfl, hres, hinfo, if_neg (by omega), if_neg (by omega),
    if_pos p.isUser_type, hmsg, Option.map_some, if_neg (not_lt.2 hr)]

/-- The loop hands all packets of the receive list to their handlers, in order. -/
theorem processLoop_grew (hh : h.Ok) (connId : ℤ) {q : List UserPacket} (hq : ∀ p ∈ q, p.Ok)
    {c : JmyTcpConnection} (hc : CanSend c) (data : JmyPacketUnpackData2) {count : ℤ}
    (hcount : 0 ≤ count) :
    ∃ r data' c', h.loopHandler.processLoop past conn connId (q.map UserPacket.entry) data count c =
        some (r, data', c') ∧ 0 ≤ r ∧ ∃ ps, Grew ps (q.map UserPacket.message) c c' := by
  induction q generalizing c data count with
  | nil => exact ⟨count, data, c, rfl, hcount, [], Grew.refl c⟩
  | cons p q ih =>
      obtain ⟨r, data₁, c₁, hone, hr, ps, hg⟩ := handleOne_grew past conn hh hc
        (hq p List.mem_cons_self) data connId
      have hcount' : 0 ≤ if data₁.type.IsUser then count + 1 else count := by split_ifs <;> omega
      obtain ⟨r', data₂, c₂, hloop, hr', ps', hg'⟩ := ih
        (fun p' hp' => hq p' (List.mem_cons_of_mem p hp')) (hg.canSend hc) data₁ hcount'
      refine ⟨r', data₂, c₂, ?_, hr', ps ++ ps', hg.trans hg'⟩
      rw [List.map_cons, JmyDataHandler2.processLoop, hone, Option.bind_some, if_neg (not_lt.2 hr)]
      exact hloop

end loop

theorem tick_grew {h : ConnHandlers} (hh : h.Ok) {c : JmyTcpConnection} (hc : CanSend c) :
    ∃ c', h.tick c = some c' ∧ ∃ ps, Grew ps [] c c' := by
  cases htick : h.tickHandler with
  | none => exact ⟨c, by rw [ConnHandlers.tick, htick], [], Grew.refl c⟩
  | some f =>
      have hobs : Grew [] [] c (c.observe (.tick c.id)) := Grew.observe c rfl rfl
      obtain ⟨c', hcalls, ps, hg⟩ := calls_grew (hobs.canSend hc)
        (hh.tick f htick (c.observe (.tick c.id)))
      exact ⟨c', by rw [ConnHandlers.tick, htick]; exact hcalls, ps, hobs.trans hg⟩

/-- `run` hands the packets of the receive list to the handlers, empties the list and starts a send. -/
theorem run_grew {h : ConnHandlers} (hh : h.Ok) {c : JmyTcpConnection} (hc : CanSend c)
    {q : List UserPacket} (hq : ∀ p ∈ q, p.Ok)
    (hrecv : c.buffer.recvBuffList.usingList = q.map UserPacket.entry) (now : ℤ)
    (data : JmyPacketUnpackData2) (past : ℕ → Byte) :
    ∃ ps c₁, Grew ps (q.map UserPacket.message) c c₁ ∧ c.step (.run h now data past) =
      some (c₁.setRecvBuffList c₁.buffer.recvBuffList.clear).startSend.2 := by
  obtain ⟨c₀, htick, ps, hg⟩ := tick_grew hh hc
  have hc₀ := hg.canSend hc
  have hrecv₀ : c₀.buffer.recvBuffList.usingList = q.map UserPacket.entry := by
    rw [hg.recvBuffList, hrecv]
  obtain ⟨r, data', c₁, hloop, hr, ps', hg'⟩ := processLoop_grew past
    (some ⟨callOn (fun c => c) (fun f => f) JmyTcpConnection.handleHeartbeat,
      callOn (fun c => c) (fun f => f) JmyTcpConnection.handleDisconnect,
      callOn (fun c => c) (fun f => f) JmyTcpConnection.handleDisconnectAck⟩)
    hh c₀.id hq hc₀ data le_rfl
  rw [← hrecv₀] at hloop
  refine ⟨ps ++ ps', c₁, hg.trans hg', ?_⟩
  have hrun : handleRecv (fun c => c) (fun f => f) h.dataHandler past data c₀ =
      some (r, data', c₁.setRecvBuffList c₁.buffer.recvBuffList.clear) := by
    rw [ConnHandlers.loopHandler] at hloop
    rw [handleRecv, JmyDataHandler2.processData, hloop, Option.map_some, if_neg (not_lt.2 hr)]
  simp only [JmyTcpConnection.step, JmyTcpConnection.run, runConn, htick, Option.bind_some, hc₀.state,
    reduceCtorEq, false_and, if_false, ne_eq, not_true_eq_false, hrun, Option.map_some,
    if_neg (not_lt.2 hr), callOn]

end JmyGame
