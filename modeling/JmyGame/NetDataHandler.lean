import JmyGame.NetProto
import JmyGame.NetSessionBuffer

/-! `JmyDataHandler`: it handles the packets of `jmy_net_proto` that are in a receive buffer, one after the other. A
packet that is not complete stays in the buffer, and a user packet may be moved to the front of it. -/

namespace JmyGame

open CArith Block NetProto

namespace JmySessionBuffer

variable (b : JmySessionBuffer)

theorem length_unread : b.unread.length = b.getReadLen := by
  rw [unread, length_window, getReadLen, Nat.min_eq_left b.write_le]

theorem length_write_unread : (write b.buff 0 b.unread).length = b.buff.length := by
  refine length_write ?_
  rw [length_unread, Nat.zero_add]
  exact (Nat.sub_le _ _).trans b.write_le

/-- `moveDataToFront`. -/
def moveDataToFront : JmySessionBuffer :=
  ⟨write b.buff 0 b.unread, b.getReadLen, 0, Nat.zero_le _,
    ((Nat.sub_le _ _).trans b.write_le).trans_eq b.length_write_unread.symm, b.length_write_unread.trans_lt b.len_lt⟩

theorem length_moveDataToFront : b.moveDataToFront.buff.length = b.buff.length := b.length_write_unread

theorem unread_moveDataToFront : b.moveDataToFront.unread = b.unread := by
  have htake : (write b.buff 0 b.unread).take (0 + b.unread.length) = b.buff.take 0 ++ b.unread :=
    take_write (Nat.zero_le _)
  rw [Nat.zero_add, List.take_zero, List.nil_append] at htake
  show window (write b.buff 0 b.unread) 0 b.getReadLen = b.unread
  rw [window, List.drop_zero, ← length_unread, htake]

/-- `readLen` of bytes that are there. -/
theorem unread_readLen {len : ℕ} (h : len ≤ b.getReadLen) :
    (b.readLen len).2.unread = b.unread.drop len ∧ (b.readLen len).2.buff = b.buff ∧
      (b.readLen len).2.writeOffset = b.writeOffset := by
  rw [readLen, dif_neg (not_lt.2 h)]
  exact ⟨window_add _ _ _ _, rfl, rfl⟩

end JmySessionBuffer

/-- A handler that was called. -/
inductive Delivery where
  | msg (info : JmyMsgInfo)
  | heartbeat
  | disconnect
  | disconnectAck
  deriving DecidableEq, Repr

/-- `JmyDataHandler`; `delivered` is a record of the handlers that were called. -/
structure JmyDataHandler where
  unpackData : JmyPacketUnpackData
  delivered : List Delivery
  deriving DecidableEq

namespace JmyDataHandler

def init : JmyDataHandler := ⟨.init, []⟩

section

-- whether a handler succeeds, by the handlers that were called before it
variable (accepts : List Delivery → Delivery → Bool) (connId : ℤ)

/-- The call of a handler; `handled` is what is returned when it succeeds. -/
def deliver (d : Delivery) (handled : ℤ) (b : JmySessionBuffer) (h : JmyDataHandler) :
    ℤ × JmySessionBuffer × JmyDataHandler :=
  (if accepts h.delivered d then handled else -1, b, { h with delivered := h.delivered ++ [d] })

/-- `handleOne`. -/
def handleOne (b : JmySessionBuffer) (offset : ℕ) (h : JmyDataHandler) : ℤ × JmySessionBuffer × JmyDataHandler :=
  let r := unpackDataHead (b.unread.drop offset) h.unpackData connId
  let data := r.2
  let h := { h with unpackData := data }
  if r.1 < 0 then (-1, b, h)
  else if r.1 = 0 ∧ data.type ≠ .userData ∧ data.type ≠ .userIdData then (0, b, h)
  else if data.type = .userData ∨ data.type = .userIdData then
    if data.result = .dataNotEnough then (0, b.moveDataToFront, h)
    else if data.result = .userDataNotEnough then
      if intOf (b.getWriteLen + b.getReadLen - offset) < data.data.toInt then (0, b.moveDataToFront, h)
      else (0, b, h)
    else deliver accepts (.msg data.msgInfo) r.1 b h
  else match data.type with
  | .heartbeat => deliver accepts .heartbeat r.1 b h
  | .disconnect => deliver accepts .disconnect r.1 b h
  | .disconnectAck => deliver accepts .disconnectAck r.1 b h
  | _ => (-1, b, h)

/-- The loop of `processData`, of which `fuel` rounds are left. -/
def processLoop (len : ℕ) : ℕ → ℕ → ℕ → JmySessionBuffer → JmyDataHandler →
    Option (ℤ × JmySessionBuffer × JmyDataHandler)
  | 0, _, _, _, _ => none
  | fuel + 1, nhandled, count, b, h =>
      let r := handleOne accepts connId b nhandled h
      let b := r.2.1
      let h := r.2.2
      if r.1 < 0 then some (-1, b, h)
      else if r.1 = 0 then some (count, (b.readLen nhandled).2, h)
      else
        let nhandled := nhandled + r.1.toNat
        let count := if h.unpackData.type = .userData ∨ h.unpackData.type = .userIdData then count + 1 else count
        if len - nhandled = 0 then some (count, (b.readLen nhandled).2, h)
        else processLoop len fuel nhandled count b h

/-- `processData`: the number of user packets, or `-1`. Each round but the last handles a byte. -/
def processData (b : JmySessionBuffer) (h : JmyDataHandler) : Option (ℤ × JmySessionBuffer × JmyDataHandler) :=
  processLoop accepts connId b.getReadLen (b.getReadLen + 1) 0 0 b h

end

end JmyDataHandler

namespace NetProto.WirePacket

/-- The handler that is called for a packet. -/
def delivery (connId : ℤ) : WirePacket → Delivery
  | heartbeat _ => .heartbeat
  | disconnect => .disconnect
  | disconnectAck => .disconnectAck
  | p => .msg (p.msgInfo connId)

theorem length_bytes_pos (p : WirePacket) : 0 < p.bytes.length := by
  cases p with
  | userData msgId payload fits => exact (length_user (Or.inl rfl)).1
  | userIdData userId msgId payload fits => exact (length_user (Or.inr rfl)).1
  | disconnect => exact Nat.succ_pos _
  | disconnectAck => exact Nat.succ_pos _
  | ack msgCount currId => exact Nat.succ_pos _
  | heartbeat t => exact Nat.succ_pos _

/-- The packets that a peer sends to a data handler. An ack is none of them. -/
def Streamed : WirePacket → Prop
  | ack _ _ => False
  | _ => True

/-- A packet of which the unpacker wants a byte more than it has. -/
def isHeartbeat : WirePacket → Bool
  | heartbeat _ => true
  | _ => false

/-- The bytes that the unpacker wants of a packet. -/
def wanted (p : WirePacket) : ℕ := if p.isHeartbeat then p.bytes.length + 1 else p.bytes.length

end NetProto.WirePacket

namespace JmyDataHandler

variable {accepts : List Delivery → Delivery → Bool} {connId : ℤ} {b : JmySessionBuffer} {h : JmyDataHandler}

/-- What `handleOne` does to a packet at the beginning of the bytes it gets. -/
structure HandlesOne (accepts : List Delivery → Delivery → Bool) (connId : ℤ) (p : WirePacket) (b : JmySessionBuffer)
    (h : JmyDataHandler) (r : ℤ × JmySessionBuffer × JmyDataHandler) : Prop where
  handled : r.1 = if accepts h.delivered (p.delivery connId) then (p.bytes.length : ℤ) else -1
  buffer : r.2.1 = b
  delivered : r.2.2.delivered = h.delivered ++ [p.delivery connId]

/-- What `handleOne` does to the beginning of a packet. A user packet is moved to the front of a full buffer. -/
structure LeavesOne (p : WirePacket) (b : JmySessionBuffer) (h : JmyDataHandler)
    (r : ℤ × JmySessionBuffer × JmyDataHandler) : Prop where
  handled : r.1 = 0
  buffer : r.2.1 = b ∨ r.2.1 = b.moveDataToFront
  moved : p.type.IsUser → b.getWriteLen = 0 → r.2.1 = b.moveDataToFront
  delivered : r.2.2.delivered = h.delivered

theorem handleOne_user {p : WirePacket} (hp : p.type.IsUser) {offset : ℕ} {more : List Byte}
    (hbuf : b.unread.drop offset <+: p.bytes ++ more) (hne : b.unread.drop offset ≠ [])
    (hlen : b.getReadLen < 2 ^ 31) (h : JmyDataHandler) :
    (p.bytes.length ≤ (b.unread.drop offset).length ∧
      HandlesOne accepts connId p b h (handleOne accepts connId b offset h)) ∨
    ((b.unread.drop offset).length < p.bytes.length ∧ LeavesOne p b h (handleOne accepts connId b offset h)) := by
  have hlength : (b.unread.drop offset).length = b.getReadLen - offset := by
    rw [List.length_drop, b.length_unread]
  obtain ⟨hpos, hsmall⟩ := WirePacket.length_user hp
  have hdelivery : p.delivery connId = .msg (p.msgInfo connId) := by
    obtain ⟨msgId, payload, fits, rfl⟩ | ⟨userId, msgId, payload, fits, rfl⟩ := WirePacket.user_cases hp
    · rfl
    · rfl
  have hnot : ∀ {data : JmyPacketUnpackData}, data.type = p.type →
      ¬ (data.type ≠ .userData ∧ data.type ≠ .userIdData) := by
    intro data htype hboth
    rw [htype] at hboth
    exact hp.elim hboth.1 hboth.2
  rcases WirePacket.unpack_user hp hbuf hne (by omega) h.unpackData connId with ⟨hle, hread⟩ | ⟨hlt, hwait⟩
  · refine Or.inl ⟨hle, ?_⟩
    have hhandled := hread.handled
    unfold handleOne
    dsimp only
    rw [if_neg (by omega), if_neg (fun hboth => hnot hread.type hboth.2), if_pos (hread.type ▸ hp), hread.result,
      if_neg (by decide), if_neg (by decide), hread.msgInfo, hhandled, ← hdelivery]
    exact ⟨rfl, rfl, rfl⟩
  · refine Or.inr ⟨hlt, ?_⟩
    have hhandled := hwait.handled
    unfold handleOne
    dsimp only
    rw [if_neg (by omega), if_neg (fun hboth => hnot hwait.type hboth.2), if_pos (hwait.type ▸ hp)]
    rcases hwait.result with hresult | ⟨hresult, hdata⟩
    · rw [if_pos hresult]
      exact ⟨rfl, Or.inr rfl, fun _ _ => rfl, rfl⟩
    · have hdataInt : (unpackDataHead (b.unread.drop offset) h.unpackData connId).2.data.toInt = p.bytes.length := by
        rw [hdata]
        exact intOf_eq (by omega)
      rw [if_neg (by rw [hresult]; decide), if_pos hresult, hdataInt]
      split_ifs with hmove
      · exact ⟨rfl, Or.inr rfl, fun _ _ => rfl, rfl⟩
      · refine ⟨rfl, Or.inl rfl, fun _ hfull => absurd ?_ hmove, rfl⟩
        -- in a full buffer there is no room for the rest of the packet
        rw [hfull, Nat.zero_add, intOf_eq (by omega)]
        omega

theorem handleOne_delivers {offset n : ℕ} {d : Delivery} (hn : 0 < n)
    (hhandled : (unpackDataHead (b.unread.drop offset) h.unpackData connId).1 = n)
    (htype : (unpackDataHead (b.unread.drop offset) h.unpackData connId).2.type = .heartbeat ∧ d = .heartbeat ∨
      (unpackDataHead (b.unread.drop offset) h.unpackData connId).2.type = .disconnect ∧ d = .disconnect ∨
      (unpackDataHead (b.unread.drop offset) h.unpackData connId).2.type = .disconnectAck ∧ d = .disconnectAck) :
    handleOne accepts connId b offset h = deliver accepts d n b
      { h with unpackData := (unpackDataHead (b.unread.drop offset) h.unpackData connId).2 } := by
  unfold handleOne
  dsimp only
  rw [hhandled, if_neg (by omega), if_neg (by omega)]
  rcases htype with ⟨htype, rfl⟩ | ⟨htype, rfl⟩ | ⟨htype, rfl⟩
  all_goals
    rw [htype, if_neg (by decide)]

theorem handlesOne_deliver {p : WirePacket} (data : JmyPacketUnpackData) : HandlesOne accepts connId p b h
    (deliver accepts (p.delivery connId) p.bytes.length b { h with unpackData := data }) :=
  ⟨rfl, rfl, rfl⟩

/-- A disconnect and its ack are their type byte. -/
theorem handleOne_oneByte {p : WirePacket} (hlength : p.bytes.length = 1) {offset : ℕ} {type : JmyPacketType}
    (hunpack : unpackDataHead (b.unread.drop offset) h.unpackData connId =
      (1, { h.unpackData with type := type, result := .noError }))
    (htype : type = .disconnect ∧ p.delivery connId = .disconnect ∨
      type = .disconnectAck ∧ p.delivery connId = .disconnectAck) :
    HandlesOne accepts connId p b h (handleOne accepts connId b offset h) := by
  have hdelivers : handleOne accepts connId b offset h =
      deliver accepts (p.delivery connId) p.bytes.length b
        { h with unpackData := (unpackDataHead (b.unread.drop offset) h.unpackData connId).2 } := by
    refine handleOne_delivers (hlength ▸ Nat.one_pos) ?_ (Or.inr ?_)
    · rw [hunpack, hlength]
      rfl
    · rw [hunpack]
      exact htype
  rw [hdelivers]
  exact handlesOne_deliver _

/-- A heartbeat waits for the byte behind it. -/
theorem handleOne_heartbeat (t : BitVec 64) {offset : ℕ} (hne : b.unread.drop offset ≠ [])
    (hfirst : JmyPacketType2.ofChar ((b.unread.drop offset).getD 0 0) = .heartbeat) (h : JmyDataHandler) :
    (6 ≤ (b.unread.drop offset).length ∧
      HandlesOne accepts connId (.heartbeat t) b h (handleOne accepts connId b offset h)) ∨
    ((b.unread.drop offset).length < 6 ∧ LeavesOne (.heartbeat t) b h (handleOne accepts connId b offset h)) := by
  have hpos := List.length_pos_iff.2 hne
  by_cases hlen : (b.unread.drop offset).length < 6
  · have hunpack : unpackDataHead (b.unread.drop offset) h.unpackData connId =
        (0, { h.unpackData with type := .heartbeat, result := .dataNotEnough }) := by
      unfold unpackDataHead
      rw [if_neg (by omega), hfirst]
      exact if_pos (by omega)
    refine Or.inr ⟨hlen, ?_⟩
    unfold handleOne
    rw [hunpack, if_neg (lt_irrefl (0 : ℤ)), if_pos ⟨rfl, nofun, nofun⟩]
    exact ⟨rfl, Or.inl rfl, fun huser => huser.elim nofun nofun, rfl⟩
  · obtain ⟨data', hunpack, htype⟩ : ∃ data', unpackDataHead (b.unread.drop offset) h.unpackData connId = (5, data') ∧
        data'.type = .heartbeat := by
      unfold unpackDataHead
      rw [if_neg (by omega), hfirst]
      exact ⟨_, if_neg (by omega), rfl⟩
    refine Or.inl ⟨not_lt.1 hlen, ?_⟩
    rw [handleOne_delivers (Nat.succ_pos 4) (by rw [hunpack]; rfl) (Or.inl ⟨by rw [hunpack]; exact htype, rfl⟩)]
    exact handlesOne_deliver _

/-- Of the other kinds the type byte decides. -/
theorem handleOne_other {p : WirePacket} (hp : p.Streamed) (huser : ¬ p.type.IsUser) {offset : ℕ} {more : List Byte}
    (hbuf : b.unread.drop offset <+: p.bytes ++ more) (hne : b.unread.drop offset ≠ []) (h : JmyDataHandler) :
    (p.wanted ≤ (b.unread.drop offset).length ∧
      HandlesOne accepts connId p b h (handleOne accepts connId b offset h)) ∨
    ((b.unread.drop offset).length < p.wanted ∧ LeavesOne p b h (handleOne accepts connId b offset h)) := by
  have hpos := List.length_pos_iff.2 hne
  have hfirst : (b.unread.drop offset).getD 0 0 = (p.bytes ++ more).getD 0 0 := WirePacket.getD_of_isPrefix hbuf hpos
  cases p with
  | userData msgId payload fits => exact absurd (Or.inl rfl) huser
  | userIdData userId msgId payload fits => exact absurd (Or.inr rfl) huser
  | ack msgCount currId => exact hp.elim
  | disconnect =>
      have hunpack : unpackDataHead (b.unread.drop offset) h.unpackData connId =
          (1, { h.unpackData with type := .disconnect, result := .noError }) := by
        unfold unpackDataHead
        rw [if_neg (by omega), hfirst]
        exact if_neg (not_lt.2 hpos)
      exact Or.inl ⟨hpos, handleOne_oneByte rfl hunpack (Or.inl ⟨rfl, rfl⟩)⟩
  | disconnectAck =>
      have hunpack : unpackDataHead (b.unread.drop offset) h.unpackData connId =
          (1, { h.unpackData with type := .disconnectAck, result := .noError }) := by
        unfold unpackDataHead
        rw [if_neg (by omega), hfirst]
        exact if_neg (not_lt.2 hpos)
      exact Or.inl ⟨hpos, handleOne_oneByte rfl hunpack (Or.inr ⟨rfl, rfl⟩)⟩
  | heartbeat t => exact handleOne_heartbeat t hne (by rw [hfirst]; rfl) h

theorem handleOne_spec (accepts : List Delivery → Delivery → Bool) (connId : ℤ) {p : WirePacket} (hp : p.Streamed)
    {offset : ℕ} {more : List Byte}
    (hbuf : b.unread.drop offset <+: p.bytes ++ more) (hne : b.unread.drop offset ≠ [])
    (hlen : b.getReadLen < 2 ^ 31) (h : JmyDataHandler) :
    (p.wanted ≤ (b.unread.drop offset).length ∧
      HandlesOne accepts connId p b h (handleOne accepts connId b offset h)) ∨
    ((b.unread.drop offset).length < p.wanted ∧ LeavesOne p b h (handleOne accepts connId b offset h)) := by
  by_cases huser : p.type.IsUser
  · have hwanted : p.wanted = p.bytes.length := by
      obtain ⟨msgId, payload, fits, rfl⟩ | ⟨userId, msgId, payload, fits, rfl⟩ := WirePacket.user_cases huser
      · rfl
      · rfl
    rw [hwanted]
    exact handleOne_user huser hbuf hne hlen h
  · exact handleOne_other hp huser hbuf hne h

end JmyDataHandler

end JmyGame
