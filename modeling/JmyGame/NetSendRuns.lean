import JmyGame.LibMachine
import JmyGame.NetSendSize

/-! The send buffers over runs of writes and completions. The fixed block takes a packet only behind its write offset,
which nothing ever moves back, so that what has been sent is lost room. The limits of the list count packets that have
left it. -/

namespace JmyGame

open CArith Block

/-- What the data handler writes to a send buffer. -/
inductive SendPacket where
  | userData (msgId : BitVec 32) (data : List Byte)
  | userIdData (userId msgId : BitVec 32) (data : List Byte)
  | heartbeat (t : BitVec 64)
  | disconnect
  | disconnectAck
  deriving DecidableEq

namespace SendPacket

/-- The writers of `JmyDataHandler2`. -/
def write (d : JmyDoubleSessionBuffer) : SendPacket → Option (ℤ × JmyDoubleSessionBuffer)
  | userData msgId data => writeUserData d msgId data
  | userIdData userId msgId data => writeUserIdAndData d userId msgId data
  | heartbeat t => some (writeHeartbeat d t)
  | disconnect => some (writeDisconnect d)
  | disconnectAck => some (writeDisconnectAck d)

/-- The head of a packet. -/
def head : SendPacket → List Byte
  | userData msgId data => userDataHead msgId data.length
  | userIdData userId msgId data =>
    packHead (userIdDataPackLen (data.length % 2 ^ 16)) .userIdData ++ packInt32 userId ++ packInt16 msgId
  | heartbeat t => packHead heartbeatPackLen .heartbeat ++ packInt32 t
  | disconnect => packInt16 (BitVec.ofNat 32 lenType) ++ [JmyPacketType2.disconnect.toChar]
  | disconnectAck => packInt16 (BitVec.ofNat 32 lenType) ++ [JmyPacketType2.disconnectAck.toChar]

/-- The payload of a packet; that of a packet with a user id has an `unsigned short` length. -/
def payload : SendPacket → List Byte
  | userData _ data => data
  | userIdData _ _ data => data.take (data.length % 2 ^ 16)
  | _ => []

def bytes (p : SendPacket) : List Byte := p.head ++ p.payload

/-- A packet has three bytes, or five and more. -/
theorem length_bytes (p : SendPacket) : p.bytes.length = 3 ∨ 5 ≤ p.bytes.length := by
  cases p with
  | userData msgId data =>
      refine .inr ?_
      rw [bytes, List.length_append, head, length_userDataHead]
      omega
  | userIdData userId msgId data =>
      have hhead : (userIdData userId msgId data).head.length = 9 := rfl
      refine .inr ?_
      rw [bytes, List.length_append, hhead]
      omega
  | heartbeat t => exact .inr (show 5 ≤ 7 by decide)
  | disconnect => exact .inl rfl
  | disconnectAck => exact .inl rfl

end SendPacket

namespace JmyDoubleSessionBuffer

/-- The size of the block in use. -/
def capacity (d : JmyDoubleSessionBuffer) : ℕ := d.getSessionBuffer.buff.length

/-- The bytes of the block in use that have been sent. -/
def consumed (d : JmyDoubleSessionBuffer) : ℕ := d.getSessionBuffer.readOffset

/-- The bytes are behind the unread ones, in the same block. -/
structure Appends (d d' : JmyDoubleSessionBuffer) (bytes : List Byte) : Prop where
  unread : d'.unread = d.unread ++ bytes
  capacity : d'.capacity = d.capacity
  consumed : d'.consumed = d.consumed

theorem setSessionBuffer_self (d : JmyDoubleSessionBuffer) : d.setSessionBuffer d.getSessionBuffer = d := by
  unfold setSessionBuffer getSessionBuffer
  split_ifs <;> rfl

/-- Unread bytes, free bytes and sent bytes are the whole block. -/
theorem capacity_eq (d : JmyDoubleSessionBuffer) : d.consumed + d.unread.length + d.getWriteLen = d.capacity := by
  have hread := d.getSessionBuffer.read_le
  have hwrite := d.getSessionBuffer.write_le
  unfold consumed unread getWriteLen capacity JmySessionBuffer.unread JmySessionBuffer.getWriteLen
  rw [length_window]
  omega

theorem appends_set {d : JmyDoubleSessionBuffer} {b : JmySessionBuffer} {bytes : List Byte}
    (hunread : b.unread = d.getSessionBuffer.unread ++ bytes)
    (hcapacity : b.buff.length = d.getSessionBuffer.buff.length)
    (hconsumed : b.readOffset = d.getSessionBuffer.readOffset) : Appends d (d.setSessionBuffer b) bytes := by
  refine ⟨?_, ?_, ?_⟩
  · rw [unread, getSessionBuffer_set, hunread, unread]
  · rw [capacity, getSessionBuffer_set, hcapacity, capacity]
  · rw [consumed, getSessionBuffer_set, hconsumed, consumed]

end JmyDoubleSessionBuffer

namespace JmySessionBuffer

theorem copyIn_keeps {b b' : JmySessionBuffer} {data : List Byte} (h : b.copyIn data = some b') :
    b'.buff.length = b.buff.length ∧ b'.readOffset = b.readOffset := by
  rw [copyIn] at h
  split at h
  · rename_i hfit
    cases h
    exact ⟨length_write hfit, rfl⟩
  · cases h

theorem foldlM_copyIn_keeps {datas : List JmyData} {b b' : JmySessionBuffer} (h : datas.foldlM copyIn b = some b') :
    b'.buff.length = b.buff.length ∧ b'.readOffset = b.readOffset := by
  induction datas generalizing b with
  | nil =>
      cases h
      exact ⟨rfl, rfl⟩
  | cons data datas ih =>
      rw [List.foldlM_cons] at h
      obtain ⟨b₁, hfirst, hrest⟩ := Option.bind_eq_some_iff.1 h
      obtain ⟨hlen, hread⟩ := copyIn_keeps hfirst
      obtain ⟨hlen', hread'⟩ := ih hrest
      exact ⟨hlen'.trans hlen, hread'.trans hread⟩

end JmySessionBuffer

namespace JmyDoubleSessionBuffer

/-- One piece is refused for want of room, or it is appended. -/
theorem writeData_cases (d : JmyDoubleSessionBuffer) (data : List Byte) :
    (d.getWriteLen < data.length ∧ d.writeData data = (false, d)) ∨
    (data.length ≤ d.getWriteLen ∧ ∃ d', d.writeData data = (true, d') ∧ Appends d d' data) := by
  unfold writeData JmySessionBuffer.writeData
  by_cases hroom : d.getSessionBuffer.getWriteLen < data.length
  · rw [if_pos hroom]
    dsimp only
    rw [setSessionBuffer_self]
    exact .inl ⟨hroom, rfl⟩
  · rw [if_neg hroom]
    obtain ⟨b, hb⟩ := Option.ne_none_iff_exists'.1 (mt JmySessionBuffer.copyIn_eq_none.1 hroom)
    obtain ⟨hcapacity, hconsumed⟩ := JmySessionBuffer.copyIn_keeps hb
    rw [hb]
    exact .inr ⟨not_lt.1 hroom, _, rfl, appends_set (JmySessionBuffer.copyIn_spec hb).1 hcapacity hconsumed⟩

/-- Two pieces are refused for want of room or appended, or the copy leaves the block because their sum has wrapped. -/
theorem writeDatas_cases (d : JmyDoubleSessionBuffer) (x y : List Byte) :
    (d.getWriteLen < (x.length + y.length) % 2 ^ 32 ∧ d.writeDatas [x, y] = some (false, d)) ∨
    (x.length + y.length ≤ d.getWriteLen ∧ ∃ d', d.writeDatas [x, y] = some (true, d') ∧ Appends d d' (x ++ y)) ∨
    (d.getWriteLen < x.length + y.length ∧ (x.length + y.length) % 2 ^ 32 ≤ d.getWriteLen ∧
      d.writeDatas [x, y] = none) := by
  have hsum : ([x, y].map List.length).sum = x.length + y.length := rfl
  unfold writeDatas JmySessionBuffer.writeDatas
  rw [if_neg (List.cons_ne_nil _ _), hsum]
  by_cases hroom : d.getSessionBuffer.getWriteLen < (x.length + y.length) % 2 ^ 32
  · rw [if_pos hroom, Option.map_some, setSessionBuffer_self]
    exact .inl ⟨hroom, rfl⟩
  · rw [if_neg hroom]
    rcases JmySessionBuffer.foldlM_copyIn_pair d.getSessionBuffer x y with ⟨hfit, b, hfold, hunread⟩ | ⟨hfit, hfold⟩
    · obtain ⟨hcapacity, hconsumed⟩ := JmySessionBuffer.foldlM_copyIn_keeps hfold
      rw [List.append_assoc] at hunread
      rw [hfold]
      exact .inr (.inl ⟨hfit, _, rfl, appends_set hunread hcapacity hconsumed⟩)
    · rw [hfold]
      exact .inr (.inr ⟨hfit, not_lt.1 hroom, rfl⟩)

end JmyDoubleSessionBuffer

namespace SendPacket

open JmyDoubleSessionBuffer

/-- A packet is refused, appended, or written out of the block. -/
def WriteCases (d : JmyDoubleSessionBuffer) (bytes : List Byte) (r : Option (ℤ × JmyDoubleSessionBuffer)) : Prop :=
  (d.getWriteLen < bytes.length % 2 ^ 32 ∧ r = some (-1, d)) ∨
  (bytes.length ≤ d.getWriteLen ∧ ∃ n d', r = some (n, d') ∧ Appends d d' bytes) ∨
  (d.getWriteLen < bytes.length ∧ bytes.length % 2 ^ 32 ≤ d.getWriteLen ∧ r = none)

theorem writePacket_cases (d : JmyDoubleSessionBuffer) {bytes : List Byte} (hlen : bytes.length < 2 ^ 32) :
    WriteCases d bytes (some (writePacket d (some bytes))) := by
  have hwrite : writePacket d (some bytes) =
      if (d.writeData bytes).1 then ((bytes.length : ℤ), (d.writeData bytes).2) else (-1, (d.writeData bytes).2) := rfl
  rw [hwrite]
  rcases writeData_cases d bytes with ⟨hroom, heq⟩ | ⟨hroom, d', heq, happends⟩
  · rw [heq]
    exact .inl ⟨by rwa [Nat.mod_eq_of_lt hlen], rfl⟩
  · rw [heq]
    exact .inr (.inl ⟨hroom, _, d', rfl, happends⟩)

theorem writeHeadAndData_cases (d : JmyDoubleSessionBuffer) {head : List Byte} (hhead : head.length < 2 ^ 32)
    (data : List Byte) : WriteCases d (head ++ data) (writeHeadAndData d head data) := by
  unfold writeHeadAndData
  by_cases hnil : data.length = 0
  · rw [if_pos hnil, List.length_eq_zero_iff.1 hnil, List.append_nil]
    have hwrite : SendBuffer.writeData d head = d.writeData head := rfl
    rw [hwrite]
    rcases writeData_cases d head with ⟨hroom, heq⟩ | ⟨hroom, d', heq, happends⟩
    · rw [heq]
      exact .inl ⟨by rwa [Nat.mod_eq_of_lt hhead], rfl⟩
    · rw [heq]
      exact .inr (.inl ⟨hroom, _, d', rfl, happends⟩)
  · rw [if_neg hnil]
    have hwrite : SendBuffer.writeDatas d [head, data] = d.writeDatas [head, data] := rfl
    rw [hwrite, WriteCases, List.length_append]
    rcases writeDatas_cases d head data with ⟨hroom, heq⟩ | ⟨hroom, d', heq, happends⟩ | ⟨hroom, hwrap, heq⟩
    · rw [heq]
      exact .inl ⟨hroom, rfl⟩
    · rw [heq]
      exact .inr (.inl ⟨hroom, _, d', rfl, happends⟩)
    · rw [heq]
      exact .inr (.inr ⟨hroom, hwrap, rfl⟩)

theorem write_cases (d : JmyDoubleSessionBuffer) (p : SendPacket) : WriteCases d p.bytes (p.write d) := by
  cases p with
  | userData msgId data =>
      have hhead : (userDataHead msgId data.length).length < 2 ^ 32 := show 5 < 2 ^ 32 by decide
      rw [write, writeUserData_eq]
      exact writeHeadAndData_cases d hhead data
  | userIdData userId msgId data =>
      have hhead : (userIdData userId msgId data).head.length < 2 ^ 32 := show 9 < 2 ^ 32 by decide
      rw [write, writeUserIdAndData, packUserIdDataHead_eq]
      exact writeHeadAndData_cases d hhead _
  | heartbeat t => exact writePacket_cases d (show 7 < 2 ^ 32 by decide)
  | disconnect => exact writePacket_cases d (show 3 < 2 ^ 32 by decide)
  | disconnectAck => exact writePacket_cases d (show 3 < 2 ^ 32 by decide)

end SendPacket

inductive BlockEvent where
  | write (packet : SendPacket)
  | sent (n : ℕ)
  deriving DecidableEq

namespace JmyDoubleSessionBuffer

/-- A write, or a completed send of some of the unread bytes. -/
def blockStep (d : JmyDoubleSessionBuffer) : BlockEvent → Option JmyDoubleSessionBuffer
  | .write packet => (packet.write d).map Prod.snd
  | .sent n => if n ≤ d.unread.length then some (d.readLen n).2 else none

/-- Every packet is taken that is no longer than the block without its unread bytes. -/
def NeverWedges (d : JmyDoubleSessionBuffer) : Prop :=
  ∀ p : SendPacket, p.bytes.length ≤ d.capacity - d.unread.length →
    ∃ n d', p.write d = some (n, d') ∧ d'.unread = d.unread ++ p.bytes

/-- A packet that is no longer than the block is taken if it fits behind the write offset. -/
theorem takes_iff {d : JmyDoubleSessionBuffer} {p : SendPacket} (hlen : p.bytes.length ≤ d.capacity) :
    (∃ n d', p.write d = some (n, d') ∧ d'.unread = d.unread ++ p.bytes) ↔ p.bytes.length ≤ d.getWriteLen := by
  have hcapacity : d.capacity < 2 ^ 32 := d.getSessionBuffer.len_lt
  have hpos := p.length_bytes
  rcases p.write_cases d with ⟨hroom, heq⟩ | ⟨hroom, n, d', heq, happends⟩ | ⟨hroom, hwrap, -⟩
  · rw [Nat.mod_eq_of_lt (by omega)] at hroom
    refine iff_of_false ?_ (not_le.2 hroom)
    rintro ⟨n, d', heq', hunread⟩
    rw [heq] at heq'
    cases heq'
    have hlength := congrArg List.length hunread
    rw [List.length_append] at hlength
    omega
  · exact iff_of_true ⟨n, d', heq, happends.unread⟩ hroom
  · rw [Nat.mod_eq_of_lt (by omega)] at hwrap
    omega

/-- A block is never wedged if nothing of it has been sent, or if less is free than a packet has; but for four bytes,
of which one has been sent, for there is no packet of four bytes. -/
theorem neverWedges_iff_consumed (d : JmyDoubleSessionBuffer) :
    d.NeverWedges ↔ d.consumed = 0 ∨ d.capacity - d.unread.length < 3 ∨
      (d.capacity - d.unread.length = 4 ∧ d.consumed = 1) := by
  have hsum := d.capacity_eq
  constructor
  · intro hnever
    by_contra hnot
    have hwedged : ∃ p : SendPacket, p.bytes.length ≤ d.capacity - d.unread.length ∧
        d.getWriteLen < p.bytes.length := by
      by_cases hsmall : d.capacity - d.unread.length < 5
      · exact ⟨.disconnect, show 3 ≤ _ by omega, show _ < 3 by omega⟩
      · refine ⟨.userData 0 (List.replicate (d.capacity - d.unread.length - 5) 0), ?_, ?_⟩
        all_goals
          rw [SendPacket.bytes, List.length_append, SendPacket.head, length_userDataHead, SendPacket.payload,
            List.length_replicate]
          omega
    obtain ⟨p, hfits, hroom⟩ := hwedged
    exact absurd ((takes_iff (hfits.trans (Nat.sub_le _ _))).1 (hnever p hfits)) (not_le.2 hroom)
  · intro hcases p hfits
    have hpos := p.length_bytes
    refine (takes_iff (hfits.trans (Nat.sub_le _ _))).2 ?_
    omega

end JmyDoubleSessionBuffer

/-- The bytes that have been sent in a run. -/
def sentBytes : List BlockEvent → ℕ
  | [] => 0
  | .write _ :: es => sentBytes es
  | .sent n :: es => n + sentBytes es

def blockMachine : Machine JmyDoubleSessionBuffer BlockEvent := ⟨JmyDoubleSessionBuffer.blockStep⟩

open JmyDoubleSessionBuffer in
/-- A step keeps the block, and only a completed send moves its read offset. -/
theorem blockStep_keeps {d d' : JmyDoubleSessionBuffer} {e : BlockEvent} (hstep : d.blockStep e = some d') :
    d'.capacity = d.capacity ∧ d'.consumed = d.consumed + sentBytes [e] := by
  cases e with
  | write p =>
      obtain ⟨⟨n, d''⟩, hwrite, rfl⟩ := Option.map_eq_some_iff.1 hstep
      rcases p.write_cases d with ⟨-, heq⟩ | ⟨-, n', d₁, heq, happends⟩ | ⟨-, -, heq⟩
      · rw [heq] at hwrite
        cases hwrite
        exact ⟨rfl, rfl⟩
      · rw [heq] at hwrite
        cases hwrite
        exact ⟨happends.capacity, happends.consumed⟩
      · rw [heq] at hwrite
        cases hwrite
  | sent n =>
      obtain ⟨hle, heq⟩ := Option.ite_none_right_eq_some.1 hstep
      obtain rfl := Option.some.inj heq
      have hread : ¬d.getSessionBuffer.getReadLen < n := by
        have hwrite := d.getSessionBuffer.write_le
        rw [JmyDoubleSessionBuffer.unread, JmySessionBuffer.unread, length_window, min_eq_left hwrite] at hle
        exact not_lt.2 hle
      unfold JmyDoubleSessionBuffer.readLen JmySessionBuffer.readLen capacity consumed
      rw [getSessionBuffer_set, dif_neg hread]
      exact ⟨rfl, rfl⟩

theorem run_keeps {d d' : JmyDoubleSessionBuffer} {es : List BlockEvent} (hrun : blockMachine.run d es = some d') :
    d'.capacity = d.capacity ∧ d'.consumed = d.consumed + sentBytes es := by
  induction es generalizing d with
  | nil =>
      cases hrun
      exact ⟨rfl, rfl⟩
  | cons e es ih =>
      obtain ⟨d₁, hstep, hrest⟩ := blockMachine.run_cons_eq_some.1 hrun
      obtain ⟨hcapacity, hconsumed⟩ := blockStep_keeps hstep
      obtain ⟨hcapacity', hconsumed'⟩ := ih hrest
      refine ⟨hcapacity'.trans hcapacity, ?_⟩
      have hsum : sentBytes (e :: es) = sentBytes [e] + sentBytes es := by
        cases e with
        | write p => exact (Nat.zero_add _).symm
        | sent n => rfl
      rw [hconsumed', hconsumed, hsum]
      omega

/-- In every state that a run from a fresh block reaches, every packet that is no longer than the free bytes is taken
exactly when nothing has been sent in the run, or when fewer bytes are free than any packet has. -/
theorem neverWedges_iff {size : ℕ} (hsize : size < 2 ^ 32) {es : List BlockEvent} {d : JmyDoubleSessionBuffer}
    (hrun : blockMachine.run (.init size hsize) es = some d) :
    d.NeverWedges ↔ sentBytes es = 0 ∨ size - d.unread.length < 3 ∨
      (size - d.unread.length = 4 ∧ sentBytes es = 1) := by
  obtain ⟨hcapacity, hconsumed⟩ := run_keeps hrun
  have hstart : (JmyDoubleSessionBuffer.init size hsize).capacity = size := List.length_replicate
  have hzero : (JmyDoubleSessionBuffer.init size hsize).consumed = 0 := rfl
  rw [hstart] at hcapacity
  rw [hzero, Nat.zero_add] at hconsumed
  rw [d.neverWedges_iff_consumed, hcapacity, hconsumed]

/-- A block of eight bytes. -/
def eightBytes : JmyDoubleSessionBuffer := .init 8 (by decide)

theorem eightBytes_written : ∃ d, blockMachine.run eightBytes [.write .disconnect] = some d ∧ d.NeverWedges := by
  obtain ⟨d, hrun⟩ : ∃ d, blockMachine.run eightBytes [.write .disconnect] = some d := ⟨_, rfl⟩
  exact ⟨d, hrun, (neverWedges_iff (by decide) hrun).2 (.inl rfl)⟩

/-- A packet of three bytes is written and sent. The block is empty, and a heartbeat of seven bytes is refused. -/
theorem eightBytes_wedged : ∃ d, blockMachine.run eightBytes [.write .disconnect, .sent 3] = some d ∧
    d.unread = [] ∧ d.capacity = 8 ∧ (SendPacket.heartbeat 0).bytes.length = 7 ∧
    ((SendPacket.heartbeat 0).write d).map Prod.fst = some (-1) ∧ ¬d.NeverWedges := by
  refine ⟨_, rfl, rfl, rfl, rfl, rfl, fun hnever => ?_⟩
  have hcases := (JmyDoubleSessionBuffer.neverWedges_iff_consumed _).1 hnever
  revert hcases
  decide

inductive ListEvent where
  | writeData (data : List Byte)
  | writeDatas (datas : List JmyData)
  | readLen (n : ℕ)
  | clear
  deriving DecidableEq

namespace JmySessionBufferList

/-- The list behind a call. -/
def after (l : JmySessionBufferList) : ListEvent → JmySessionBufferList
  | .writeData data => (l.writeData data).2
  | .writeDatas datas => (l.writeDatas datas).2
  | .readLen n => l.readLen n
  | .clear => l.clear

/-- The bytes of the queued packets. -/
def queuedBytes (l : JmySessionBufferList) : ℕ := (l.usingList.map Buffer.len).sum

/-- The counters of the limits that are set are those of the queue, and a limit refuses only what exceeds it. -/
structure Accounted (l : JmySessionBufferList) : Prop where
  count : 0 < l.maxCount → l.currCount = l.usingList.length
  bytes : 0 < l.maxBytes → l.currUsedBytes = l.queuedBytes
  limits : ∀ len, l.overLimit len = true →
    (0 < l.maxCount ∧ l.maxCount < l.usingList.length + 1) ∨ (0 < l.maxBytes ∧ l.maxBytes < l.queuedBytes + len)

/-- The length of pieces that are written in one call, an `unsigned int`. -/
def totalLen (datas : List JmyData) : ℕ := (datas.map List.length).sum % 2 ^ 32

/-- What a call adds to the counters, if it is not refused. -/
def Adds (l : JmySessionBufferList) (len : ℕ) : Prop :=
  (0 < l.maxCount → l.currCount + 1 < 2 ^ 32) ∧ (0 < l.maxBytes → len < 2 ^ 16 ∧ l.currUsedBytes + len < 2 ^ 32)

/-- The call keeps the account: the counters do not wrap, the length of a packet fits its field, and no packet is read
to its end. -/
def Keeps (l : JmySessionBufferList) : ListEvent → Prop
  | .writeData data => l.overLimit (data.length % 2 ^ 16) = false → Buffer.initData data (data.length % 2 ^ 16) ≠ none →
      l.Adds (data.length % 2 ^ 16)
  | .writeDatas datas => l.overLimit (totalLen datas) = false →
      ((Buffer.initLen (totalLen datas % 2 ^ 16)).bind fun b => fill b datas) ≠ none → datas ≠ [] →
      l.Adds (totalLen datas)
  | .readLen n => ∀ b ∈ l.usingList.head?, b.roffset + n % 2 ^ 16 ≠ b.woffset
  | .clear => True

instance (l : JmySessionBufferList) (len : ℕ) : Decidable (l.Adds len) := inferInstanceAs (Decidable (_ ∧ _))

instance : DecidableRel Keeps
  | _, .writeData _ => inferInstanceAs (Decidable (_ → _ → _))
  | _, .writeDatas _ => inferInstanceAs (Decidable (_ → _ → _ → _))
  | l, .readLen n => inferInstanceAs (Decidable (∀ b ∈ l.usingList.head?, b.roffset + n % 2 ^ 16 ≠ b.woffset))
  | _, .clear => inferInstanceAs (Decidable True)

/-- A list with a limit, whose packets are not empty and whose counters are those of the queue. -/
structure Exact (l : JmySessionBufferList) : Prop where
  limited : 0 < l.maxBytes ∨ 0 < l.maxCount
  filled : ∀ b ∈ l.usingList, 0 < b.len
  count : 0 < l.maxCount → l.currCount = l.usingList.length
  bytes : 0 < l.maxBytes → l.currUsedBytes = l.queuedBytes

theorem Exact.accounted {l : JmySessionBufferList} (h : l.Exact) : l.Accounted := by
  refine ⟨h.count, h.bytes, fun len hover => ?_⟩
  simp only [overLimit, Bool.or_eq_true, Bool.and_eq_true, decide_eq_true_eq] at hover
  rcases hover with ⟨hmax, hlt⟩ | ⟨hmax, hlt⟩
  · refine .inl ⟨hmax, hlt.trans_le ?_⟩
    rw [h.count hmax]
    exact Nat.mod_le _ _
  · refine .inr ⟨hmax, hlt.trans_le ?_⟩
    rw [h.bytes hmax]
    exact Nat.mod_le _ _

section pushBack

variable {l : JmySessionBufferList} {b : Buffer} {len : ℕ}

variable (l b len) in
theorem length_pushBack : (l.pushBack b len).usingList.length = l.usingList.length + 1 := List.length_append

variable (l b len) in
theorem queuedBytes_pushBack : (l.pushBack b len).queuedBytes = l.queuedBytes + b.len := by
  rw [queuedBytes, pushBack, List.map_append, List.sum_append]
  rfl

/-- A new packet is accounted for if the counters can hold it. -/
theorem Exact.pushBack (h : l.Exact) (hpos : 0 < b.len) (hb : b.len = len % 2 ^ 16) (hadds : l.Adds len) :
    (l.pushBack b len).Exact := by
  refine ⟨h.limited, ?_, fun hmax => ?_, fun hmax => ?_⟩
  · intro b' hb'
    rcases List.mem_append.1 hb' with hmem | hmem
    · exact h.filled b' hmem
    · obtain rfl := List.mem_singleton.1 hmem
      exact hpos
  · have hcount : (l.pushBack b len).currCount = (l.currCount + 1) % 2 ^ 32 := if_pos hmax
    rw [hcount, length_pushBack, Nat.mod_eq_of_lt (hadds.1 hmax), h.count hmax]
  · obtain ⟨hshort, hsum⟩ := hadds.2 hmax
    have hbytes : (l.pushBack b len).currUsedBytes = (l.currUsedBytes + len) % 2 ^ 32 := if_pos hmax
    rw [hbytes, queuedBytes_pushBack, Nat.mod_eq_of_lt hsum, hb, Nat.mod_eq_of_lt hshort, h.bytes hmax]

/-- A counter that wraps, or the length of a packet that does not fit its field, is not accounted for. -/
theorem Exact.adds_of_pushBack (h : l.Exact) (hb : b.len = len % 2 ^ 16) (hlen : len < 2 ^ 32)
    (hafter : (l.pushBack b len).Accounted) : l.Adds len := by
  constructor
  · intro hmax
    have hcount : (l.currCount + 1) % 2 ^ 32 = l.usingList.length + 1 := by
      rw [← length_pushBack l b len, ← hafter.count hmax]
      exact (if_pos hmax).symm
    rw [h.count hmax] at hcount ⊢
    omega
  · intro hmax
    have hbytes : (l.currUsedBytes + len) % 2 ^ 32 = l.currUsedBytes + len % 2 ^ 16 := by
      rw [h.bytes hmax, ← hb, ← queuedBytes_pushBack l b len, ← hafter.bytes hmax, ← h.bytes hmax]
      exact (if_pos hmax).symm
    omega

end pushBack

/-- A packet that is filled keeps its length. -/
theorem len_fill {datas : List JmyData} {b b' : Buffer} (h : fill b datas = some b') : b'.len = b.len := by
  unfold fill at h
  induction datas generalizing b with
  | nil =>
      cases h
      rfl
  | cons data datas ih =>
      rw [List.foldlM_cons] at h
      obtain ⟨b₁, hwrite, hrest⟩ := Option.bind_eq_some_iff.1 h
      rw [ih hrest, (Buffer.write_spec hwrite).1]

/-- One piece is refused, or it is a packet at the end of the list. -/
theorem writeData_cases (l : JmySessionBufferList) (data : List Byte) :
    (l.writeData data = (false, l) ∧
      ¬(l.overLimit (data.length % 2 ^ 16) = false ∧ Buffer.initData data (data.length % 2 ^ 16) ≠ none)) ∨
    ∃ b, l.writeData data = (true, l.pushBack b (data.length % 2 ^ 16)) ∧
      (l.overLimit (data.length % 2 ^ 16) = false ∧ Buffer.initData data (data.length % 2 ^ 16) ≠ none) ∧
      0 < b.len ∧ b.len = data.length % 2 ^ 16 % 2 ^ 16 := by
  unfold writeData
  dsimp only
  by_cases hover : l.overLimit (data.length % 2 ^ 16) = true
  · rw [if_pos hover]
    exact .inl ⟨rfl, fun h => Bool.false_ne_true (h.1.symm.trans hover)⟩
  · rw [if_neg hover]
    cases hinit : Buffer.initData data (data.length % 2 ^ 16) with
    | none => exact .inl ⟨rfl, fun h => h.2 rfl⟩
    | some b =>
        obtain ⟨hzero, heq⟩ := Option.ite_none_left_eq_some.1 hinit
        obtain rfl := Option.some.inj heq
        refine .inr ⟨_, rfl, ⟨Bool.not_eq_true _ ▸ hover, Option.some_ne_none _⟩, Nat.pos_of_ne_zero hzero, ?_⟩
        exact (Nat.mod_mod _ _).symm

/-- Pieces are refused, or they are a packet at the end of the list. -/
theorem writeDatas_cases (l : JmySessionBufferList) (datas : List JmyData) :
    (l.writeDatas datas = (false, l) ∧ ¬(l.overLimit (totalLen datas) = false ∧
      ((Buffer.initLen (totalLen datas % 2 ^ 16)).bind fun b => fill b datas) ≠ none ∧ datas ≠ [])) ∨
    ∃ b, l.writeDatas datas = (true, l.pushBack b (totalLen datas)) ∧ (l.overLimit (totalLen datas) = false ∧
      ((Buffer.initLen (totalLen datas % 2 ^ 16)).bind fun b => fill b datas) ≠ none ∧ datas ≠ []) ∧
      0 < b.len ∧ b.len = totalLen datas % 2 ^ 16 := by
  have htotal : (datas.map List.length).sum % 2 ^ 32 = totalLen datas := rfl
  unfold writeDatas
  dsimp only
  rw [htotal]
  by_cases hnil : datas = []
  · rw [if_pos hnil]
    exact .inl ⟨rfl, fun h => h.2.2 hnil⟩
  · rw [if_neg hnil]
    by_cases hover : l.overLimit (totalLen datas) = true
    · rw [if_pos hover]
      exact .inl ⟨rfl, fun h => Bool.false_ne_true (h.1.symm.trans hover)⟩
    · rw [if_neg hover]
      cases hfill : (Buffer.initLen (totalLen datas % 2 ^ 16)).bind fun b => fill b datas with
      | none => exact .inl ⟨rfl, fun h => h.2.1 rfl⟩
      | some b =>
          obtain ⟨b₀, hinit, hb⟩ := Option.bind_eq_some_iff.1 hfill
          obtain ⟨hzero, heq⟩ := Option.ite_none_left_eq_some.1 hinit
          obtain rfl := Option.some.inj heq
          have hlen : b.len = totalLen datas % 2 ^ 16 := len_fill hb
          exact .inr ⟨b, rfl, ⟨Bool.not_eq_true _ ▸ hover, Option.some_ne_none b, hnil⟩,
            hlen ▸ Nat.pos_of_ne_zero hzero, hlen⟩

/-- A read leaves the packets, reads on in the first one, or removes it. -/
theorem readLen_cases (l : JmySessionBufferList) (n : ℕ) :
    ((∀ b ∈ l.usingList.head?, b.roffset + n % 2 ^ 16 ≠ b.woffset) ∧
      ∃ bs, l.readLen n = { l with usingList := bs } ∧ bs.map Buffer.len = l.usingList.map Buffer.len) ∨
    ∃ b rest, l.usingList = b :: rest ∧ b.roffset + n % 2 ^ 16 = b.woffset ∧
      l.readLen n = { l with usingList := rest } := by
  obtain ⟨bs, maxBytes, currUsedBytes, maxCount, currCount⟩ := l
  cases bs with
  | nil => exact .inl ⟨nofun, [], rfl, rfl⟩
  | cons b rest =>
      have hhead : ∀ b' ∈ (b :: rest).head?, b' = b := fun b' hb' => (Option.mem_some_iff.1 hb').symm
      unfold readLen Buffer.read
      by_cases hmore : b.woffset < b.roffset + n % 2 ^ 16
      · refine .inl ⟨fun b' hb' => ?_, b :: rest, ?_, rfl⟩
        · rw [hhead b' hb']
          omega
        · dsimp only
          rw [if_pos hmore]
      · dsimp only
        rw [if_neg hmore]
        simp only [Buffer.isReadOut, decide_eq_true_eq]
        by_cases hout : b.roffset + n % 2 ^ 16 = b.woffset
        · rw [if_pos hout.ge]
          exact .inr ⟨b, rest, rfl, hout, rfl⟩
        · rw [if_neg (show ¬b.woffset ≤ b.roffset + n % 2 ^ 16 by omega)]
          refine .inl ⟨fun b' hb' => ?_, _, rfl, rfl⟩
          rw [hhead b' hb']
          exact hout

/-- A read that removes no packet changes nothing of the account. -/
theorem Exact.congr {l : JmySessionBufferList} (h : l.Exact) {bs : List Buffer}
    (hbs : bs.map Buffer.len = l.usingList.map Buffer.len) : Exact { l with usingList := bs } := by
  have hlength : bs.length = l.usingList.length := by
    rw [← List.length_map (f := Buffer.len), hbs, List.length_map]
  refine ⟨h.limited, fun b hb => ?_, fun hmax => ?_, fun hmax => ?_⟩
  · obtain ⟨b', hb', heq⟩ := List.mem_map.1 (hbs ▸ List.mem_map_of_mem hb)
    exact heq ▸ h.filled b' hb'
  · exact (h.count hmax).trans hlength.symm
  · exact (h.bytes hmax).trans (congrArg List.sum hbs.symm)

theorem Exact.clear {l : JmySessionBufferList} (h : l.Exact) : l.clear.Exact :=
  ⟨h.limited, nofun, fun _ => rfl, fun _ => rfl⟩

theorem Exact.after {l : JmySessionBufferList} {e : ListEvent} (h : l.Exact) (hkeeps : l.Keeps e) :
    (l.after e).Exact := by
  cases e with
  | writeData data =>
      rw [JmySessionBufferList.after]
      rcases l.writeData_cases data with ⟨heq, -⟩ | ⟨b, heq, htaken, hpos, hb⟩
      · rwa [heq]
      · rw [heq]
        exact h.pushBack hpos hb (hkeeps htaken.1 htaken.2)
  | writeDatas datas =>
      rw [JmySessionBufferList.after]
      rcases l.writeDatas_cases datas with ⟨heq, -⟩ | ⟨b, heq, htaken, hpos, hb⟩
      · rwa [heq]
      · rw [heq]
        exact h.pushBack hpos hb (hkeeps htaken.1 htaken.2.1 htaken.2.2)
  | readLen n =>
      rcases l.readLen_cases n with ⟨-, bs, heq, hbs⟩ | ⟨b, rest, hlist, hout, -⟩
      · rw [JmySessionBufferList.after, heq]
        exact h.congr hbs
      · exact absurd hout (hkeeps b (by rw [hlist]; rfl))
  | clear => exact h.clear

/-- A list without its first packet has the counters of the packet still. -/
theorem Exact.not_accounted_of_removed {l : JmySessionBufferList} (h : l.Exact) {b : Buffer} {rest : List Buffer}
    (hlist : l.usingList = b :: rest) : ¬Accounted { l with usingList := rest } := by
  intro hafter
  rcases h.limited with hmax | hmax
  · have hbytes : l.currUsedBytes = (rest.map Buffer.len).sum := hafter.bytes hmax
    have hpos := h.filled b (hlist ▸ List.mem_cons_self)
    rw [h.bytes hmax, queuedBytes, hlist, List.map_cons, List.sum_cons] at hbytes
    omega
  · have hcount : l.currCount = rest.length := hafter.count hmax
    rw [h.count hmax, hlist, List.length_cons] at hcount
    omega

theorem Exact.keeps {l : JmySessionBufferList} {e : ListEvent} (h : l.Exact) (hafter : (l.after e).Accounted) :
    l.Keeps e := by
  cases e with
  | writeData data =>
      intro hover hinit
      rcases l.writeData_cases data with ⟨-, hrefused⟩ | ⟨b, heq, -, -, hb⟩
      · exact absurd ⟨hover, hinit⟩ hrefused
      · rw [JmySessionBufferList.after, heq] at hafter
        exact h.adds_of_pushBack hb (by omega) hafter
  | writeDatas datas =>
      intro hover hfill hnil
      rcases l.writeDatas_cases datas with ⟨-, hrefused⟩ | ⟨b, heq, -, -, hb⟩
      · exact absurd ⟨hover, hfill, hnil⟩ hrefused
      · rw [JmySessionBufferList.after, heq] at hafter
        exact h.adds_of_pushBack hb (Nat.mod_lt _ (by decide)) hafter
  | readLen n =>
      rcases l.readLen_cases n with ⟨hstays, -⟩ | ⟨b, rest, hlist, -, heq⟩
      · exact hstays
      · rw [JmySessionBufferList.after, heq] at hafter
        exact absurd hafter (h.not_accounted_of_removed hlist)
  | clear => trivial

end JmySessionBufferList

def listMachine : Machine JmySessionBufferList ListEvent := ⟨fun l e => some (l.after e)⟩

open JmySessionBufferList in
/-- The counters are those of the queue in every state of a run exactly when no call of the run lets a counter wrap,
writes a packet whose length does not fit its field, or reads a packet to its end. -/
theorem accounted_iff {maxBytes maxCount : ℕ} (hlimit : 0 < maxBytes ∨ 0 < maxCount) (es : List ListEvent) :
    (∀ es₁ es₂ t, es = es₁ ++ es₂ → listMachine.run (.init maxBytes maxCount) es₁ = some t → t.Accounted) ↔
      listMachine.Along JmySessionBufferList.Keeps (.init maxBytes maxCount) es := by
  have hstart : (JmySessionBufferList.init maxBytes maxCount).Exact := ⟨hlimit, nofun, fun _ => rfl, fun _ => rfl⟩
  refine (Machine.along_iff_reached (I := Exact) (Q := Accounted) ?_ (fun _ => Exact.accounted) ?_ hstart es).symm
  · intro l e l' h hkeeps hstep
    obtain rfl := Option.some.inj hstep
    exact h.after hkeeps
  · exact fun l e h hafter => h.keeps (hafter _ rfl)

/-- A packet is written, and the list is cleared before the next one. -/
def clearedBetween : List ListEvent := [.writeData [1], .clear, .writeDatas [[2], [3]]]

theorem clearedBetween_accounted :
    ∃ t, listMachine.run (.init 10 1) clearedBetween = some t ∧ t.Accounted := by
  obtain ⟨t, hrun⟩ : ∃ t, listMachine.run (.init 10 1) clearedBetween = some t := ⟨_, rfl⟩
  have halong : listMachine.Along JmySessionBufferList.Keeps (.init 10 1) clearedBetween := by decide
  exact ⟨t, hrun, (accounted_iff (.inl (by decide)) clearedBetween).2 halong clearedBetween [] t
    (List.append_nil _).symm hrun⟩

/-- The one packet of a list for one packet is sent. The list is empty and refuses the next one. -/
theorem sent_still_counted : ∃ t, listMachine.run (.init 0 1) [.writeData [1], .readLen 1] = some t ∧
    t.usingList = [] ∧ t.currCount = 1 ∧ (t.writeData [2]).1 = false ∧ ¬t.Accounted := by
  refine ⟨_, rfl, rfl, rfl, rfl, fun h => ?_⟩
  exact absurd (h.count (by decide)) (by decide)

end JmyGame
