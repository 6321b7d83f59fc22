import JmyGame.NetSessionBuffer

/-! `JmyDataHandler2`: writing packets into a send buffer, and dispatching received packets to the
registered message handlers. A message handler is code of the program above: it maps the message and
a state of type `σ` to its result and the state it leaves, and is undefined where that code is. -/

namespace JmyGame

open CArith

/-- The conversion of an `unsigned int` result to `int`. -/
def toInt (n : ℕ) : ℤ := (BitVec.ofNat 32 n).toInt

theorem toInt_of_lt {n : ℕ} (h : n < 2 ^ 31) : toInt n = n := by
  rw [toInt, BitVec.toInt_eq_toNat_of_lt, BitVec.toNat_ofNat, Nat.mod_eq_of_lt (by omega)]
  rw [BitVec.toNat_ofNat]
  omega

/-- The two `writeData` overloads that the write functions are instantiated with. -/
class SendBuffer (β : Type) where
  writeData : β → List Byte → Bool × β
  writeDatas : β → List JmyData → Option (Bool × β)

instance : SendBuffer JmySessionBufferList where
  writeData := JmySessionBufferList.writeData
  writeDatas l datas := some (l.writeDatas datas)

instance : SendBuffer JmyDoubleSessionBuffer where
  writeData := JmyDoubleSessionBuffer.writeData
  writeDatas := JmyDoubleSessionBuffer.writeDatas

section write

variable {β : Type} [SendBuffer β]

/-- The common end of `writeUserData` and `writeUserIdAndData`: the head alone when there is no
payload, else the head and the payload in one call. -/
def writeHeadAndData (buffer : β) (head data : List Byte) : Option (ℤ × β) :=
  if data.length = 0 then
    let r := SendBuffer.writeData buffer head
    some (if r.1 then (0, r.2) else (-1, r.2))
  else (SendBuffer.writeDatas buffer [head, data]).map fun r =>
    if r.1 then (toInt (head.length + data.length), r.2) else (-1, r.2)

/-- `writeUserData`. The length is an `unsigned int`; the head packer takes it as an
`unsigned short`. -/
def writeUserData (buffer : β) (msgId : BitVec 32) (data : List Byte) : Option (ℤ × β) :=
  match packUserDataHead (userDataPackLen 0) msgId (data.length % 2 ^ 16) with
  | none => some (-1, buffer)
  | some head => writeHeadAndData buffer head data

/-- `writeUserIdAndData`. The length is an `unsigned short`, so that only so many bytes are seen.
Where the packer fails the code only logs, and goes on with a head it has not written. -/
def writeUserIdAndData (buffer : β) (userId msgId : BitVec 32) (data : List Byte) : Option (ℤ × β) :=
  match packUserIdDataHead (userIdDataPackLen 0) userId msgId (data.length % 2 ^ 16) with
  | none => none
  | some head => writeHeadAndData buffer head (data.take (data.length % 2 ^ 16))

/-- The common body of the control packet writers. -/
def writePacket (buffer : β) (packet : Option (List Byte)) : ℤ × β :=
  match packet with
  | none => (-1, buffer)
  | some bytes =>
    let r := SendBuffer.writeData buffer bytes
    if r.1 then (bytes.length, r.2) else (-1, r.2)

def writeHeartbeat (buffer : β) (t : BitVec 64) : ℤ × β :=
  writePacket buffer (packHeartbeat heartbeatPackLen t)

def writeDisconnect (buffer : β) : ℤ × β := writePacket buffer (packDisconnect disconnectPackLen)

def writeDisconnectAck (buffer : β) : ℤ × β :=
  writePacket buffer (packDisconnectAck disconnectAckPackLen)

end write

/-- `jmy_msg_handler`. -/
abbrev JmyMsgHandler (σ : Type) := JmyMsgInfo → σ → Option (ℤ × σ)

structure JmyDataHandler2 (σ : Type) where
  msgHandlerMap : BitVec 32 → Option (JmyMsgHandler σ)
  defaultMsgHandler : Option (JmyMsgHandler σ)

/-- The connection methods that `handleOne` calls on the connection it finds in the manager. -/
structure ConnCalls (σ : Type) where
  handleHeartbeat : σ → ℤ × σ
  handleDisconnect : σ → ℤ × σ
  handleDisconnectAck : σ → ℤ × σ

namespace JmyDataHandler2

variable {σ : Type} (h : JmyDataHandler2 σ) (past : ℕ → Byte) (conn : Option (ConnCalls σ))

/-- `handleMsg`. The length is returned as an `int`. -/
def handleMsg (info : JmyMsgInfo) (s : σ) : Option (ℤ × σ) :=
  match h.msgHandlerMap info.msgId with
  | some handler => (handler info s).map fun r => (if r.1 < 0 then -1 else toInt info.len, r.2)
  | none =>
    match h.defaultMsgHandler with
    | some handler => (handler info s).map fun r =>
        (if r.1 = 0 then 0 else if r.1 < 0 then -1 else toInt info.len, r.2)
    | none => some (0, s)

/-- The calls on the connection, which fail when the manager does not know it. -/
def callConn (f : ConnCalls σ → σ → ℤ × σ) (s : σ) : ℤ × σ :=
  match conn with
  | none => (-1, s)
  | some c => f c s

/-- `handleOne`. The receive list keeps the packet type in place of the write offset. -/
def handleOne (buff : Buffer) (data : JmyPacketUnpackData2) (connId : ℤ) (s : σ) :
    Option (ℤ × JmyPacketUnpackData2 × σ) :=
  let type := JmyPacketType2.ofCode (BitVec.ofNat 32 buff.woffset)
  let r := unpackData past type buff.data data connId
  if r.1 < 0 then some (-1, r.2, s)
  else if r.1 = 0 ∧ ¬type.IsUser then some (0, r.2, s)
  else if type.IsUser then
    (h.handleMsg r.2.msgInfo s).map fun res => (if res.1 < 0 then -1 else r.1, r.2, res.2)
  else if type = .heartbeat then
    let res := callConn conn ConnCalls.handleHeartbeat s
    some (if res.1 < 0 then -1 else r.1, r.2, res.2)
  else if type = .disconnect then
    let res := callConn conn ConnCalls.handleDisconnect s
    some (if res.1 < 0 then -1 else r.1, r.2, res.2)
  else if type = .disconnectAck then
    let res := callConn conn ConnCalls.handleDisconnectAck s
    some (if res.1 < 0 then -1 else r.1, r.2, res.2)
  else some (-1, r.2, s)

/-- The loop of `processData`, with the messages counted so far. The count looks at the type field of
the unpack data. -/
def processLoop (connId : ℤ) : List Buffer → JmyPacketUnpackData2 → ℤ → σ →
    Option (ℤ × JmyPacketUnpackData2 × σ)
  | [], data, count, s => some (count, data, s)
  | buff :: rest, data, count, s =>
    (h.handleOne past conn buff data connId s).bind fun res =>
      if res.1 < 0 then some (-1, res.2.1, res.2.2)
      else processLoop connId rest res.2.1
        (if res.2.1.type.IsUser then count + 1 else count) res.2.2

/-- `processData`: the list is cleared behind the loop, and left alone where a packet fails. -/
def processData (clear : σ → σ) (buffs : List Buffer) (data : JmyPacketUnpackData2) (connId : ℤ)
    (s : σ) : Option (ℤ × JmyPacketUnpackData2 × σ) :=
  (h.processLoop past conn connId buffs data 0 s).map fun res =>
    if res.1 < 0 then res else (res.1, res.2.1, clear res.2.2)

section relation

variable {h past conn} {R : σ → σ → Prop}

/-- The handlers and connection calls of a data handler stay within a relation. -/
structure Within (h : JmyDataHandler2 σ) (conn : Option (ConnCalls σ)) (R : σ → σ → Prop) : Prop where
  refl : ∀ s, R s s
  trans : ∀ s t u, R s t → R t u → R s u
  msg : ∀ id f info s r, h.msgHandlerMap id = some f → f info s = some r → R s r.2
  default : ∀ f info s r, h.defaultMsgHandler = some f → f info s = some r → R s r.2
  heartbeat : ∀ c s, conn = some c → R s (c.handleHeartbeat s).2
  disconnect : ∀ c s, conn = some c → R s (c.handleDisconnect s).2
  disconnectAck : ∀ c s, conn = some c → R s (c.handleDisconnectAck s).2

theorem Within.handleMsg (w : Within h conn R) {info : JmyMsgInfo} {s : σ} {r : ℤ × σ}
    (hr : h.handleMsg info s = some r) : R s r.2 := by
  rw [JmyDataHandler2.handleMsg] at hr
  split at hr
  · rename_i f hf
    obtain ⟨r', hr', rfl⟩ := Option.map_eq_some_iff.1 hr
    exact w.msg _ f info s r' hf hr'
  · split at hr
    · rename_i f hf
      obtain ⟨r', hr', rfl⟩ := Option.map_eq_some_iff.1 hr
      exact w.default f info s r' hf hr'
    · cases hr
      exact w.refl s

theorem Within.callConn (w : Within h conn R) {f : ConnCalls σ → σ → ℤ × σ} {s : σ}
    (hf : ∀ c, conn = some c → R s (f c s).2) : R s (JmyDataHandler2.callConn conn f s).2 := by
  cases hc : conn with
  | none => exact w.refl s
  | some c => exact hf c hc

theorem Within.handleOne (w : Within h conn R) {buff : Buffer} {data : JmyPacketUnpackData2}
    {connId : ℤ} {s : σ} {r : ℤ × JmyPacketUnpackData2 × σ}
    (hr : h.handleOne past conn buff data connId s = some r) : R s r.2.2 := by
  rw [JmyDataHandler2.handleOne] at hr
  split_ifs at hr
  · cases hr
    exact w.refl s
  · cases hr
    exact w.refl s
  · obtain ⟨r', hr', rfl⟩ := Option.map_eq_some_iff.1 hr
    exact w.handleMsg hr'
  · cases hr
    exact w.callConn fun c hc => w.heartbeat c s hc
  · cases hr
    exact w.callConn fun c hc => w.disconnect c s hc
  · cases hr
    exact w.callConn fun c hc => w.disconnectAck c s hc
  · cases hr
    exact w.refl s

theorem Within.processLoop (w : Within h conn R) {connId : ℤ} {buffs : List Buffer}
    {data : JmyPacketUnpackData2} {count : ℤ} {s : σ} {r : ℤ × JmyPacketUnpackData2 × σ}
    (hr : h.processLoop past conn connId buffs data count s = some r) : R s r.2.2 := by
  induction buffs generalizing data count s with
  | nil =>
      cases hr
      exact w.refl s
  | cons buff rest ih =>
      obtain ⟨res, hone, hrest⟩ := Option.bind_eq_some_iff.1 hr
      have hfirst := w.handleOne hone
      by_cases hneg : res.1 < 0
      · rw [if_pos hneg] at hrest
        cases hrest
        exact hfirst
      · rw [if_neg hneg] at hrest
        exact w.trans _ _ _ hfirst (ih hrest)

theorem Within.processData (w : Within h conn R) {clear : σ → σ} (hclear : ∀ s, R s (clear s))
    {buffs : List Buffer} {data : JmyPacketUnpackData2} {connId : ℤ} {s : σ}
    {r : ℤ × JmyPacketUnpackData2 × σ}
    (hr : h.processData past conn clear buffs data connId s = some r) : R s r.2.2 := by
  obtain ⟨res, hloop, rfl⟩ := Option.map_eq_some_iff.1 hr
  have hrel := w.processLoop hloop
  split_ifs
  · exact hrel
  · exact w.trans _ _ _ hrel (hclear _)

end relation

end JmyDataHandler2

end JmyGame
