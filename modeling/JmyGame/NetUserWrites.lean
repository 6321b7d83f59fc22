import JmyGame.NetLargeBuffer
import JmyGame.NetProto

/-! `JmyDataHandler::writeUserData` into a `JmyDoubleSessionBuffer`. Where the packet does not fit, the unread bytes are
moved to the front, then to the large block, and back to the normal block if the packet alone would fit that. -/

namespace JmyGame

open CArith Block NetProto

namespace Sized

open Pooled (SessionBufferType JmySessionBufferPool)

namespace JmySessionBuffer

variable (b : JmySessionBuffer)

/-- `checkWriteLen`. -/
def checkWriteLen (len : ℕ) : Option (Bool × JmySessionBuffer) :=
  if b.getWriteLen < len then b.moveDataToFront.map fun b' => (decide (len ≤ b'.getWriteLen), b')
  else some (true, b)

/-- The block with the unread bytes moved to the front. -/
def front : JmySessionBuffer :=
  { b with
    buff := b.buff.map fun mem => write mem 0 b.unread
    readOffset := 0
    writeOffset := b.unread.length }

/-- The block that `checkWriteLen` leaves. -/
def settled (len : ℕ) : JmySessionBuffer := if b.getWriteLen < len then b.front else b

/-- The head of a packet and its data, which may be nothing. -/
def writePacket (head data : List Byte) : Option (Bool × JmySessionBuffer) :=
  if data.length = 0 then b.writeData head else b.writeDatas [head, data]

variable {b} {b' src : JmySessionBuffer} {size len : ℕ}

theorem Sound.moveDataToFront_eq (h : b.Sound size len) (hsize : size < 2 ^ 32) : b.moveDataToFront = some b.front := by
  have hread := h.read_le
  have hwrite := h.write_le
  have hlength := h.length_unread
  have hend : b.readOffset + b.unread.length = b.writeOffset := by omega
  unfold JmySessionBuffer.moveDataToFront
  rw [h.getReadLen_eq hsize, hend, if_pos (h.length_mem.symm ▸ hwrite), JmySessionBuffer.front, unread]
  obtain ⟨mem, hmem⟩ := Option.isSome_iff_exists.1 h.inited
  rw [JmySessionBuffer.mem, hmem]
  rfl

theorem Sound.front (h : b.Sound size len) (hsize : size < 2 ^ 32) : b.front.Sound size len :=
  h.moveDataToFront hsize (h.moveDataToFront_eq hsize)

theorem Sound.unread_front (h : b.Sound size len) : b.front.unread = b.unread := by
  have htake : (write b.mem 0 b.unread).take (0 + b.unread.length) = b.mem.take 0 ++ b.unread :=
    take_write (Nat.zero_le _)
  rw [Nat.zero_add, List.take_zero, List.nil_append] at htake
  rw [unread, JmySessionBuffer.front, mem_map h.inited]
  exact htake

theorem Sound.settled (h : b.Sound size len) (hsize : size < 2 ^ 32) (need : ℕ) :
    (b.settled need).Sound size len ∧ (b.settled need).unread = b.unread := by
  unfold JmySessionBuffer.settled
  split_ifs
  · exact ⟨h.front hsize, h.unread_front⟩
  · exact ⟨h, rfl⟩

/-- There is room exactly when the unread bytes and the new ones fit the length. -/
theorem Sound.checkWriteLen_eq (h : b.Sound size len) (hsize : size < 2 ^ 32) (hlen : len < 2 ^ 32) (need : ℕ) :
    b.checkWriteLen need = some (decide (b.unread.length + need ≤ len), b.settled need) := by
  have hlength := h.length_unread
  have hwithin := h.within
  have hroom := h.getWriteLen_eq hlen
  unfold JmySessionBuffer.checkWriteLen JmySessionBuffer.settled
  split_ifs with hlt
  · have hfront := (h.front hsize).getWriteLen_eq hlen
    have hoffset : b.front.writeOffset = b.unread.length := rfl
    rw [h.moveDataToFront_eq hsize, Option.map_some, hfront, hoffset]
    refine congrArg (fun ok => some (ok, b.front)) (decide_eq_decide.2 ?_)
    have hwithin' := (h.front hsize).within
    omega
  · rw [decide_eq_true (by omega)]

/-- Where `checkWriteLen` finds room, it is behind the write offset. -/
theorem Sound.settled_room (h : b.Sound size len) (hlen : len < 2 ^ 32) {need : ℕ}
    (hfit : b.unread.length + need ≤ len) : (b.settled need).writeOffset + need ≤ len := by
  have hroom := h.getWriteLen_eq hlen
  have hwithin := h.within
  unfold JmySessionBuffer.settled
  split_ifs with hlt
  · exact hfit
  · omega

/-- Bytes that fit the block are behind the unread ones. -/
theorem Sound.copyIn_unread (h : b.Sound size len) {data : List Byte} (hfit : b.writeOffset + data.length ≤ size) :
    ∃ b', b.copyIn data = some b' ∧ b'.unread = b.unread ++ data := by
  refine ⟨_, if_pos (h.length_mem.symm ▸ hfit), ?_⟩
  rw [unread, mem_map h.inited]
  exact window_write h.read_le (h.length_mem.symm ▸ h.write_le)

theorem copyIn_none {data : List Byte} (h : b.mem.length < b.writeOffset + data.length) : b.copyIn data = none :=
  if_neg (not_le.2 h)

/-- Two pieces that fit the block, and two that do not. -/
theorem Sound.copyIn_two (h : b.Sound size len) {x y : List Byte}
    (hroom : b.writeOffset + (x.length + y.length) ≤ len) :
    (b.writeOffset + (x.length + y.length) ≤ size ∧ ∃ b', [x, y].foldlM copyIn b = some b' ∧
        b'.unread = b.unread ++ (x ++ y)) ∨
      (size < b.writeOffset + (x.length + y.length) ∧ [x, y].foldlM copyIn b = none) := by
  by_cases hx : b.writeOffset + x.length ≤ size
  · obtain ⟨b₁, hcopy, hunread⟩ := h.copyIn_unread hx
    have hgrown := copyIn_grown h.inited hcopy
    have hsound := h.grown hgrown (by omega)
    have hoffset := hgrown.writeOffset
    by_cases hy : b₁.writeOffset + y.length ≤ size
    · obtain ⟨b₂, hcopy', hunread'⟩ := hsound.copyIn_unread hy
      refine Or.inl ⟨by omega, b₂, ?_, ?_⟩
      · simp only [List.foldlM_cons, List.foldlM_nil, hcopy, hcopy', Option.bind_eq_bind, Option.bind_some]
        rfl
      · rw [hunread', hunread, List.append_assoc]
    · refine Or.inr ⟨by omega, ?_⟩
      have hnone : b₁.copyIn y = none := copyIn_none (by rw [hsound.length_mem]; omega)
      simp only [List.foldlM_cons, hcopy, hnone, Option.bind_eq_bind, Option.bind_some, Option.bind_none]
  · refine Or.inr ⟨by omega, ?_⟩
    have hnone : b.copyIn x = none := copyIn_none (by rw [h.length_mem]; omega)
    simp only [List.foldlM_cons, hnone, Option.bind_eq_bind, Option.bind_none]

/-- A packet is refused for want of room, or it stands behind the unread bytes; what is written behind the block is not
defined. -/
theorem Sound.writePacket_cases (h : b.Sound size len) (hlen : len < 2 ^ 32) {head data : List Byte}
    (hwrap : head.length + data.length < 2 ^ 32) :
    (len < b.writeOffset + (head.length + data.length) ∧ b.writePacket head data = some (false, b)) ∨
      (b.writeOffset + (head.length + data.length) ≤ len ∧
        ((b.writeOffset + (head.length + data.length) ≤ size ∧ ∃ b', b.writePacket head data = some (true, b') ∧
          b'.unread = b.unread ++ (head ++ data)) ∨
        (size < b.writeOffset + (head.length + data.length) ∧ b.writePacket head data = none))) := by
  have hwithin := h.within
  unfold writePacket
  split_ifs with hzero
  · obtain rfl := List.eq_nil_of_length_eq_zero hzero
    rw [List.length_nil, Nat.add_zero, List.append_nil, JmySessionBuffer.writeData, h.getWriteLen_eq hlen]
    split_ifs with hroom
    · exact Or.inl ⟨by omega, rfl⟩
    · refine Or.inr ⟨by omega, ?_⟩
      by_cases hfit : b.writeOffset + head.length ≤ size
      · obtain ⟨b', hcopy, hunread⟩ := h.copyIn_unread hfit
        refine Or.inl ⟨hfit, b', ?_, hunread⟩
        rw [hcopy, Option.map_some]
      · refine Or.inr ⟨by omega, ?_⟩
        rw [copyIn_none (by rw [h.length_mem]; omega), Option.map_none]
  · have hsum : ([head, data].map List.length).sum % 2 ^ 32 = head.length + data.length := by
      rw [List.map_cons, List.map_cons, List.map_nil, List.sum_cons, List.sum_cons, List.sum_nil, Nat.add_zero,
        Nat.mod_eq_of_lt hwrap]
    rw [JmySessionBuffer.writeDatas, if_neg (List.cons_ne_nil _ _), hsum, h.getWriteLen_eq hlen]
    split_ifs with hroom
    · exact Or.inl ⟨by omega, rfl⟩
    · have hroom' : b.writeOffset + (head.length + data.length) ≤ len := by omega
      refine Or.inr ⟨hroom', ?_⟩
      obtain ⟨hfit, b', hcopy, hunread⟩ | ⟨hnot, hnone⟩ := h.copyIn_two hroom'
      · refine Or.inl ⟨hfit, b', ?_, hunread⟩
        rw [hcopy, Option.map_some]
      · refine Or.inr ⟨hnot, ?_⟩
        rw [hnone, Option.map_none]

/-- What is assigned stands at the front. -/
theorem assign_readOffset (h : b.assign src = some b') : b'.readOffset = 0 := by
  unfold assign at h
  dsimp only at h
  split_ifs at h
  · obtain rfl := Option.some.inj h
    rfl
  · obtain rfl := Option.some.inj h
    rfl

/-- Unread bytes at the front end at their length. -/
theorem Sound.writeOffset_eq (h : b.Sound size len) (hread : b.readOffset = 0) : b.writeOffset = b.unread.length := by
  have hlength := h.length_unread
  omega

theorem Sound.settled_writeOffset (h : b.Sound size len) (hread : b.readOffset = 0) (need : ℕ) :
    (b.settled need).writeOffset = b.unread.length := by
  unfold JmySessionBuffer.settled
  split_ifs
  · rfl
  · exact h.writeOffset_eq hread

end JmySessionBuffer

namespace JmyDoubleSessionBuffer

variable (pool : JmySessionBufferPool) (type : SessionBufferType) (d : JmyDoubleSessionBuffer)

/-- `checkWriteLen`. -/
def checkWriteLen (len : ℕ) : Option (Bool × JmyDoubleSessionBuffer) :=
  (d.getSessionBuffer.checkWriteLen len).map fun r => (r.1, d.setSessionBuffer r.2)

/-- The pair that `checkWriteLen` leaves. -/
def settled (len : ℕ) : JmyDoubleSessionBuffer := d.setSessionBuffer (d.getSessionBuffer.settled len)

/-- A user packet. -/
def packet (msgId : BitVec 32) (data : List Byte) : List Byte :=
  (packMsgidDatalen packetLenUserDataHead msgId (BitVec.ofNat 16 data.length)).getD [] ++ data

/-- `writeUserData<JmyDoubleSessionBuffer>`. -/
def writeUserDataBuffer (msgId : BitVec 32) (data : List Byte) : Option (ℤ × JmyDoubleSessionBuffer) :=
  match packMsgidDatalen packetLenUserDataHead msgId (BitVec.ofNat 16 data.length) with
  | none => some (-1, d)
  | some head =>
    (d.getSessionBuffer.writePacket head data).map fun r =>
      (if r.1 then intOf data.length else -1, d.setSessionBuffer r.2)

/-- The length that is checked. -/
def userDataLen (data : List Byte) : ℕ := (data.length + packetLenUserDataHead) % 2 ^ 32

/-- What follows the checks: a packet that fits the normal block is written there. -/
def writeChecked (msgId : BitVec 32) (data : List Byte) : Option (ℤ × JmyDoubleSessionBuffer) :=
  if d.useLarge && decide (userDataLen data ≤ d.buff.len) then
    d.backToNormal.bind fun r => if r.1 then r.2.writeUserDataBuffer msgId data else some (-1, r.2)
  else d.writeUserDataBuffer msgId data

/-- `JmyDataHandler::writeUserData`, with the large block that the pool has for it. There is no data behind a null
pointer. -/
def writeUserData (msgId : BitVec 32) (block : Option (List Byte)) :
    Option (List Byte) → Option (ℤ × JmyDoubleSessionBuffer)
  | none => some (0, d)
  | some data =>
    (d.checkWriteLen (userDataLen data)).bind fun r =>
      if r.1 then r.2.writeChecked msgId data
      else if r.2.useLarge then some (-1, r.2)
      else (r.2.switchToLarge (largeLen pool type) block).bind fun s =>
        if s.1 then (s.2.checkWriteLen (userDataLen data)).bind fun c =>
          if c.1 then c.2.writeChecked msgId data else some (-1, c.2)
        else some (-1, s.2)

/-- The packet is written behind the unread bytes, or nothing is. With a large block at hand, it is written whenever it
fits its length behind the unread bytes. -/
def Writes (msgId : BitVec 32) (block : Option (List Byte)) (data : List Byte) : Prop :=
  ∃ res d', d.writeUserData pool type msgId block (some data) = some (res, d') ∧
    (res = -1 → d'.unread = d.unread) ∧ (res ≠ -1 → d'.unread = d.unread ++ packet msgId data) ∧
    (d.useLarge = true ∨ block ≠ none →
      d.unread.length + (packet msgId data).length ≤ largeLen pool type → res ≠ -1)

/-- The packet fits the normal block behind the unread bytes, or there is no large block for it. What is moved from one
block to the other has to be repeated behind itself, a packet that is not written to the normal block has to be longer
than that, and what is written to the large one has to fit it. -/
def Fitting (block : Option (List Byte)) (data : List Byte) : Prop :=
  let size := data.length + packetLenUserDataHead
  if d.useLarge then
    largeLen pool type < d.unread.length + size ∨
      if d.buff.len < size then (d.largeBuff.settled size).writeOffset + size ≤ largeSize pool type
      else d.unread.length + size ≤ d.buff.len ∧ (d.largeBuff.settled size).Repeats
  else
    d.unread.length + size ≤ d.buff.len ∨ block = none ∨
      d.buff.front.Repeats ∧ (largeLen pool type < d.unread.length + size ∨
        d.buff.len < size ∧ d.unread.length + size ≤ largeSize pool type)

variable {pool type d} {d' : JmyDoubleSessionBuffer} {msgId : BitVec 32} {block : Option (List Byte)}
  {data : List Byte} {b : JmySessionBuffer} {size len : ℕ}

theorem length_packet : (packet msgId data).length = data.length + packetLenUserDataHead := by
  rw [packet, List.length_append, Nat.add_comm]
  rfl

theorem userDataLen_eq (hlt : data.length + packetLenUserDataHead < 2 ^ 32) :
    userDataLen data = data.length + packetLenUserDataHead := Nat.mod_eq_of_lt hlt

/-- The number that is returned for the data is not that of a failure. -/
theorem intOf_length_ne (hlt : data.length + packetLenUserDataHead < 2 ^ 32) : intOf data.length ≠ -1 := by
  rw [packetLenUserDataHead] at hlt
  rw [intOf, BitVec.toInt_ofNat']
  intro h
  rw [Int.bmod_def] at h
  split_ifs at h <;> omega

theorem getSessionBuffer_setSessionBuffer : (d.setSessionBuffer b).getSessionBuffer = b := by
  unfold JmyDoubleSessionBuffer.setSessionBuffer
  split_ifs with huse
  · exact if_pos huse
  · exact if_neg huse

theorem setSessionBuffer_getSessionBuffer : d.setSessionBuffer d.getSessionBuffer = d := by
  unfold JmyDoubleSessionBuffer.setSessionBuffer getSessionBuffer
  split_ifs <;> rfl

theorem unread_setSessionBuffer : (d.setSessionBuffer b).unread = b.unread :=
  congrArg JmySessionBuffer.unread getSessionBuffer_setSessionBuffer

theorem getSessionBuffer_settled (need : ℕ) : (d.settled need).getSessionBuffer = d.getSessionBuffer.settled need :=
  getSessionBuffer_setSessionBuffer

theorem settled_large (huse : d.useLarge = true) (need : ℕ) :
    d.settled need = { d with largeBuff := d.largeBuff.settled need } := by
  rw [settled, JmyDoubleSessionBuffer.setSessionBuffer, getSessionBuffer, if_pos huse, if_pos huse]

theorem settled_normal (huse : d.useLarge = false) (need : ℕ) :
    d.settled need = { d with buff := d.buff.settled need } := by
  have hnot : ¬d.useLarge = true := huse ▸ Bool.false_ne_true
  rw [settled, JmyDoubleSessionBuffer.setSessionBuffer, getSessionBuffer, if_neg hnot, if_neg hnot]

/-- What `checkWriteLen` answers for a sound block, and the pair that it leaves. -/
theorem checkWriteLen_eq (h : d.getSessionBuffer.Sound size len) (hsize : size < 2 ^ 32) (hlen : len < 2 ^ 32)
    (need : ℕ) : d.checkWriteLen need = some (decide (d.unread.length + need ≤ len), d.settled need) := by
  rw [checkWriteLen, h.checkWriteLen_eq hsize hlen, Option.map_some]
  rfl

theorem Inv.settled (h : Inv pool type d) (hbounds : Bounds pool type) (need : ℕ) :
    Inv pool type (d.settled need) ∧ (d.settled need).unread = d.unread := by
  have hnormal := hbounds.normal_le
  refine ⟨h.setSessionBuffer (fun _ _ hsize _ hb => (hb.settled hsize need).1) hbounds, ?_⟩
  rw [JmyDoubleSessionBuffer.settled, unread_setSessionBuffer, unread]
  by_cases huse : d.useLarge = true
  · have hget : d.getSessionBuffer = d.largeBuff := if_pos huse
    rw [hget]
    exact ((h.large huse).settled hbounds.large_lt need).2
  · have hget : d.getSessionBuffer = d.buff := if_neg huse
    rw [hget]
    exact (h.normal.settled (by omega) need).2

/-- The packet is refused for want of room, or it is written, or the memory behind the block is. -/
theorem writeUserDataBuffer_cases (h : d.getSessionBuffer.Sound size len) (hlen : len < 2 ^ 32) (msgId : BitVec 32)
    (hlt : data.length + packetLenUserDataHead < 2 ^ 32) :
    (len < d.getSessionBuffer.writeOffset + (data.length + packetLenUserDataHead) ∧
        d.writeUserDataBuffer msgId data = some (-1, d)) ∨
      (d.getSessionBuffer.writeOffset + (data.length + packetLenUserDataHead) ≤ len ∧
        ((d.getSessionBuffer.writeOffset + (data.length + packetLenUserDataHead) ≤ size ∧
          ∃ d', d.writeUserDataBuffer msgId data = some (intOf data.length, d') ∧
            d'.unread = d.unread ++ packet msgId data) ∨
        (size < d.getSessionBuffer.writeOffset + (data.length + packetLenUserDataHead) ∧
          d.writeUserDataBuffer msgId data = none))) := by
  obtain ⟨head, hhead, hlength⟩ : ∃ head, packMsgidDatalen packetLenUserDataHead msgId (BitVec.ofNat 16 data.length) =
      some head ∧ head.length = packetLenUserDataHead := ⟨_, rfl, rfl⟩
  have hpacket : packet msgId data = head ++ data := by rw [packet, hhead, Option.getD_some]
  have hcomm : head.length + data.length = data.length + packetLenUserDataHead := by rw [hlength, Nat.add_comm]
  have hcases := h.writePacket_cases hlen (hcomm ▸ hlt)
  unfold writeUserDataBuffer
  rw [hhead]
  dsimp only
  rw [hcomm] at hcases
  obtain ⟨hroom, heq⟩ | ⟨hroom, ⟨hfit, b', heq, hunread⟩ | ⟨hnot, heq⟩⟩ := hcases
  · refine Or.inl ⟨hroom, ?_⟩
    rw [heq, Option.map_some, if_neg Bool.false_ne_true, setSessionBuffer_getSessionBuffer]
  · refine Or.inr ⟨hroom, Or.inl ⟨hfit, d.setSessionBuffer b', ?_, ?_⟩⟩
    · rw [heq, Option.map_some, if_pos rfl]
    · rw [unread_setSessionBuffer, hunread, hpacket]
      rfl
  · refine Or.inr ⟨hroom, Or.inr ⟨hnot, ?_⟩⟩
    rw [heq, Option.map_none]

theorem not_writes_none (heq : d.writeUserData pool type msgId block (some data) = none) :
    ¬d.Writes pool type msgId block data := by
  rintro ⟨res, d', heq', -⟩
  cases heq.symm.trans heq'

theorem writes_refused (heq : d.writeUserData pool type msgId block (some data) = some (-1, d')) :
    d.Writes pool type msgId block data ↔ d'.unread = d.unread ∧
      ((d.useLarge = true ∨ block ≠ none) →
        largeLen pool type < d.unread.length + (data.length + packetLenUserDataHead)) := by
  unfold Writes
  rw [heq, length_packet]
  constructor
  · rintro ⟨res, d'', heq', hsame, -, hroom⟩
    obtain ⟨rfl, rfl⟩ := Prod.mk.inj (Option.some.inj heq')
    exact ⟨hsame rfl, fun hlarge => not_le.1 fun hle => hroom hlarge hle rfl⟩
  · rintro ⟨hsame, hroom⟩
    exact ⟨-1, d', rfl, fun _ => hsame, absurd rfl, fun hlarge hle => absurd hle (not_le.2 (hroom hlarge))⟩

theorem writes_done (hlt : data.length + packetLenUserDataHead < 2 ^ 32)
    (heq : d.writeUserData pool type msgId block (some data) = some (intOf data.length, d')) :
    d.Writes pool type msgId block data ↔ d'.unread = d.unread ++ packet msgId data := by
  have hne := intOf_length_ne hlt
  unfold Writes
  rw [heq]
  constructor
  · rintro ⟨res, d'', heq', -, hwritten, -⟩
    obtain ⟨rfl, rfl⟩ := Prod.mk.inj (Option.some.inj heq')
    exact hwritten hne
  · intro hwritten
    exact ⟨_, d', rfl, fun h => absurd h hne, fun _ => hwritten, fun _ _ => hne⟩

/-- What is left to do once there is room. -/
theorem writeUserData_of_room (h : d.getSessionBuffer.Sound size len) (hsize : size < 2 ^ 32) (hlen : len < 2 ^ 32)
    (hlt : data.length + packetLenUserDataHead < 2 ^ 32)
    (hroom : d.unread.length + (data.length + packetLenUserDataHead) ≤ len) :
    d.writeUserData pool type msgId block (some data) =
      (d.settled (data.length + packetLenUserDataHead)).writeChecked msgId data := by
  rw [writeUserData, checkWriteLen_eq h hsize hlen, userDataLen_eq hlt, decide_eq_true hroom, Option.bind_some,
    if_pos rfl]

/-- What comes from the other block stands at the front. -/
theorem backToNormal_readOffset (huse : d.useLarge = true) {ok : Bool} (hback : d.backToNormal = some (ok, d')) :
    d'.buff.readOffset = 0 := by
  rw [backToNormal, if_pos huse] at hback
  obtain ⟨b, hassign, heq⟩ := Option.map_eq_some_iff.1 hback
  obtain ⟨-, rfl⟩ := Prod.mk.inj heq
  exact JmySessionBuffer.assign_readOffset hassign

theorem switchToLarge_readOffset (huse : d.useLarge = false) {n : ℕ}
    (hswitch : d.switchToLarge n block = some (true, d')) : d'.largeBuff.readOffset = 0 := by
  rw [switchToLarge, if_neg (huse ▸ Bool.false_ne_true)] at hswitch
  split at hswitch
  · cases hswitch
  · obtain ⟨large, hassign, heq⟩ := Option.map_eq_some_iff.1 hswitch
    obtain ⟨-, rfl⟩ := Prod.mk.inj heq
    exact JmySessionBuffer.assign_readOffset hassign

/-- A packet that is longer than the normal block is written where it is. -/
theorem writeChecked_eq (hlt : data.length + packetLenUserDataHead < 2 ^ 32)
    (hnot : d.useLarge = false ∨ d.buff.len < data.length + packetLenUserDataHead) :
    d.writeChecked msgId data = d.writeUserDataBuffer msgId data := by
  unfold writeChecked
  rw [userDataLen_eq hlt]
  refine if_neg fun hback => ?_
  rw [Bool.and_eq_true, decide_eq_true_iff] at hback
  obtain huse | hlong := hnot
  · exact Bool.false_ne_true (huse.symm.trans hback.1)
  · exact absurd hback.2 (not_le.2 hlong)

/-- The packet is written to the block in use, if it does not end behind it. -/
theorem writes_iff_end_le (hlen : len < 2 ^ 32) (hlt : data.length + packetLenUserDataHead < 2 ^ 32)
    (h : d'.getSessionBuffer.Sound size len) (hunread : d'.unread = d.unread)
    (hroom : d'.getSessionBuffer.writeOffset + (data.length + packetLenUserDataHead) ≤ len)
    (heq : d.writeUserData pool type msgId block (some data) = d'.writeUserDataBuffer msgId data) :
    d.Writes pool type msgId block data ↔
      d'.getSessionBuffer.writeOffset + (data.length + packetLenUserDataHead) ≤ size := by
  obtain ⟨hnot, -⟩ | ⟨-, ⟨hfit, d'', hwrite, hbytes⟩ | ⟨hnot, hnone⟩⟩ := writeUserDataBuffer_cases h hlen msgId hlt
  · exact absurd hroom (not_le.2 hnot)
  · refine iff_of_true ((writes_done hlt (heq.trans hwrite)).2 ?_) hfit
    rw [hbytes, hunread]
  · exact iff_of_false (not_writes_none (heq.trans hnone)) (not_le.2 hnot)

/-- Back in the normal block, the packet is written there, or nowhere. -/
theorem Inv.writes_back_iff (h : Inv pool type d') (hbounds : Bounds pool type) (huse : d'.useLarge = true)
    (hlt : data.length + packetLenUserDataHead < 2 ^ 32) (havailable : d.useLarge = true ∨ block ≠ none)
    (hunread : d'.unread.length = d.unread.length)
    (hroom : d.unread.length + (data.length + packetLenUserDataHead) ≤ largeLen pool type)
    (heq : d.writeUserData pool type msgId block (some data) =
      d'.backToNormal.bind fun r => if r.1 then r.2.writeUserDataBuffer msgId data else some (-1, r.2)) :
    d.Writes pool type msgId block data ↔
      d.unread.length + (data.length + packetLenUserDataHead) ≤ normalSize pool type ∧
        d'.largeBuff.writeOffset + d.unread.length ≤ d'.largeBuff.mem.length ∧
        window d'.largeBuff.mem d'.largeBuff.writeOffset (d'.largeBuff.writeOffset + d.unread.length) = d.unread := by
  have hnormal := hbounds.normal_le
  have hbytes : d'.largeBuff.unread.length = d.unread.length := by
    rw [← hunread, unread, getSessionBuffer, if_pos huse]
  obtain ⟨hnot, -⟩ | ⟨-, ⟨⟨-, hfit⟩, b, hback, hb, hcopied⟩ | ⟨hnot, hback⟩⟩ := h.backToNormal_cases hbounds
  · exact absurd (huse.symm.trans hnot) Bool.true_eq_false.mp
  · rw [hback, Option.bind_some, if_pos rfl] at heq
    rw [hbytes] at hfit hcopied
    have hoffset := hb.writeOffset_eq (backToNormal_readOffset huse hback)
    have hlength : b.unread.length = d.unread.length := by
      rw [hcopied, length_window, min_eq_left hfit, Nat.add_sub_cancel_left]
    have hget : JmyDoubleSessionBuffer.getSessionBuffer ⟨false, b, .empty⟩ = b := rfl
    have hcases := writeUserDataBuffer_cases (hget.symm ▸ hb) (by omega) msgId hlt
    rw [hget, hoffset, hlength] at hcases
    obtain ⟨hfull, hwrite⟩ | ⟨hroom', ⟨-, d'', hwrite, hwritten⟩ | ⟨hnot, -⟩⟩ := hcases
    · rw [writes_refused (heq.trans hwrite)]
      refine iff_of_false (fun hkept => ?_) fun hboth => absurd hboth.1 (not_le.2 hfull)
      exact absurd hroom (not_le.2 (hkept.2 havailable))
    · have hfirst : JmyDoubleSessionBuffer.unread ⟨false, b, .empty⟩ = b.unread := rfl
      rw [writes_done hlt (heq.trans hwrite), hwritten, hfirst, List.append_left_inj, hcopied, and_iff_right hroom',
        and_iff_right hfit]
    · exact absurd hroom' (not_le.2 hnot)
  · rw [hback, Option.bind_none] at heq
    refine iff_of_false (not_writes_none heq) fun hboth => hnot ?_
    rw [h.normal.length_mem, hbytes]
    exact ⟨(Nat.le_add_right _ _).trans hboth.1, hboth.2.1⟩

theorem Inv.writes_large_iff (h : Inv pool type d) (hbounds : Bounds pool type) (huse : d.useLarge = true)
    (hlt : data.length + packetLenUserDataHead < 2 ^ 32) :
    d.Writes pool type msgId block data ↔ d.Fitting pool type block data := by
  have hget : d.getSessionBuffer = d.largeBuff := if_pos huse
  have hsound : d.getSessionBuffer.Sound (largeSize pool type) (largeLen pool type) := hget.symm ▸ h.large huse
  have hsettled := h.settled hbounds (data.length + packetLenUserDataHead)
  unfold Fitting
  dsimp only
  rw [if_pos huse]
  by_cases hroom : d.unread.length + (data.length + packetLenUserDataHead) ≤ largeLen pool type
  · rw [or_iff_right (not_lt.2 hroom)]
    split_ifs with hlong
    · have hlarge := settled_large huse (data.length + packetLenUserDataHead)
      have hget' : (d.settled (data.length + packetLenUserDataHead)).getSessionBuffer =
          d.largeBuff.settled (data.length + packetLenUserDataHead) := by
        rw [getSessionBuffer_settled, hget]
      have hbuff : d.largeBuff.unread = d.unread := by rw [unread, hget]
      rw [← hget']
      refine writes_iff_end_le hbounds.largeLen_lt hlt ?_ hsettled.2 ?_ ?_
      · rw [hget']
        exact ((h.large huse).settled hbounds.large_lt _).1
      · rw [hget']
        exact (h.large huse).settled_room hbounds.largeLen_lt (hbuff.symm ▸ hroom)
      · rw [writeUserData_of_room hsound hbounds.large_lt hbounds.largeLen_lt hlt hroom]
        refine writeChecked_eq hlt (Or.inr ?_)
        rw [hlarge]
        exact hlong
    · obtain ⟨hinv, hunread⟩ := hsettled
      rw [settled_large huse] at hinv hunread
      have hbuff : (d.largeBuff.settled (data.length + packetLenUserDataHead)).unread = d.unread := by
        rw [((h.large huse).settled hbounds.large_lt _).2, unread, hget]
      rw [h.normal.len_eq, JmySessionBuffer.Repeats, hbuff]
      refine hinv.writes_back_iff hbounds huse hlt (Or.inl huse) (congrArg List.length hunread) hroom ?_
      rw [writeUserData_of_room hsound hbounds.large_lt hbounds.largeLen_lt hlt hroom, settled_large huse, writeChecked,
        userDataLen_eq hlt, huse, Bool.true_and, if_pos (decide_eq_true (not_lt.1 hlong))]
  · have huse' : (d.settled (data.length + packetLenUserDataHead)).useLarge = true := by
      rw [settled_large huse]
      exact huse
    have heq : d.writeUserData pool type msgId block (some data) =
        some (-1, d.settled (data.length + packetLenUserDataHead)) := by
      rw [writeUserData, checkWriteLen_eq hsound hbounds.large_lt hbounds.largeLen_lt, userDataLen_eq hlt,
        decide_eq_false hroom, Option.bind_some, if_neg Bool.false_ne_true, if_pos huse']
    rw [writes_refused heq]
    exact iff_of_true ⟨hsettled.2, fun _ => not_le.1 hroom⟩ (Or.inl (not_le.1 hroom))

/-- What follows a switch. -/
theorem Inv.writes_switched_iff (h : Inv pool type d') (hbounds : Bounds pool type) (huse : d'.useLarge = true)
    (hread : d'.largeBuff.readOffset = 0) (hlt : data.length + packetLenUserDataHead < 2 ^ 32)
    (havailable : d.useLarge = true ∨ block ≠ none) (hunread : d'.unread.length = d.unread.length)
    (hfull : normalSize pool type < d.unread.length + (data.length + packetLenUserDataHead))
    (heq : d.writeUserData pool type msgId block (some data) =
      (d'.checkWriteLen (userDataLen data)).bind fun c =>
        if c.1 then c.2.writeChecked msgId data else some (-1, c.2)) :
    d.Writes pool type msgId block data ↔ d'.unread = d.unread ∧
      (largeLen pool type < d.unread.length + (data.length + packetLenUserDataHead) ∨
        normalSize pool type < data.length + packetLenUserDataHead ∧
          d.unread.length + (data.length + packetLenUserDataHead) ≤ largeSize pool type) := by
  have hget : d'.getSessionBuffer = d'.largeBuff := if_pos huse
  have hsound : d'.getSessionBuffer.Sound (largeSize pool type) (largeLen pool type) := hget.symm ▸ h.large huse
  obtain ⟨hinv, hsame⟩ := h.settled hbounds (data.length + packetLenUserDataHead)
  have hsettled := settled_large huse (data.length + packetLenUserDataHead)
  rw [checkWriteLen_eq hsound hbounds.large_lt hbounds.largeLen_lt, Option.bind_some, userDataLen_eq hlt,
    hunread] at heq
  by_cases hroom : d.unread.length + (data.length + packetLenUserDataHead) ≤ largeLen pool type
  · rw [decide_eq_true hroom, if_pos rfl] at heq
    rw [or_iff_right (not_lt.2 hroom)]
    have huse' : (d'.settled (data.length + packetLenUserDataHead)).useLarge = true := by
      rw [hsettled]
      exact huse
    have hbuff : (d'.settled (data.length + packetLenUserDataHead)).buff = d'.buff := by rw [hsettled]
    by_cases hlong : normalSize pool type < data.length + packetLenUserDataHead
    · have hlong' : (d'.settled (data.length + packetLenUserDataHead)).buff.len <
          data.length + packetLenUserDataHead := by
        rw [hbuff, h.normal.len_eq]
        exact hlong
      have hget' : (d'.settled (data.length + packetLenUserDataHead)).getSessionBuffer =
          d'.largeBuff.settled (data.length + packetLenUserDataHead) := by
        rw [getSessionBuffer_settled, hget]
      have hoffset : (d'.largeBuff.settled (data.length + packetLenUserDataHead)).writeOffset = d.unread.length := by
        rw [(h.large huse).settled_writeOffset hread, ← hunread, unread, hget]
      have hlarge := ((h.large huse).settled hbounds.large_lt (data.length + packetLenUserDataHead)).1
      have hcases := writeUserDataBuffer_cases (hget'.symm ▸ hlarge) hbounds.largeLen_lt msgId hlt
      rw [writeChecked_eq hlt (Or.inr hlong')] at heq
      rw [and_iff_right hlong]
      rw [hget', hoffset] at hcases
      obtain ⟨hnot, -⟩ | ⟨-, ⟨hfit, d'', hwrite, hwritten⟩ | ⟨hnot, hnone⟩⟩ := hcases
      · exact absurd hroom (not_le.2 hnot)
      · rw [writes_done hlt (heq.trans hwrite), hwritten, List.append_left_inj, hsame, and_iff_left hfit]
      · exact iff_of_false (not_writes_none (heq.trans hnone)) fun hboth => absurd hboth.2 (not_le.2 hnot)
    · have hshort : data.length + packetLenUserDataHead ≤
          (d'.settled (data.length + packetLenUserDataHead)).buff.len := by
        rw [hbuff, h.normal.len_eq]
        exact not_lt.1 hlong
      rw [writeChecked, userDataLen_eq hlt, huse', Bool.true_and, if_pos (decide_eq_true hshort)] at heq
      rw [hinv.writes_back_iff hbounds huse' hlt havailable (hsame.symm ▸ hunread) hroom heq]
      exact iff_of_false (fun hboth => absurd hboth.1 (not_le.2 hfull)) fun hboth => hlong hboth.2.1
  · rw [decide_eq_false hroom, if_neg Bool.false_ne_true] at heq
    rw [writes_refused heq, hsame]
    exact and_congr_right fun _ => iff_of_true (fun _ => not_le.1 hroom) (Or.inl (not_le.1 hroom))

theorem Inv.normal_sound (h : Inv pool type d) (huse : d.useLarge = false) :
    d.getSessionBuffer.Sound (normalSize pool type) (normalSize pool type) := by
  have hget : d.getSessionBuffer = d.buff := if_neg (huse ▸ Bool.false_ne_true)
  exact hget.symm ▸ h.normal

theorem unread_normal (huse : d.useLarge = false) : d.buff.unread = d.unread := by
  have hget : d.getSessionBuffer = d.buff := if_neg (huse ▸ Bool.false_ne_true)
  rw [unread, hget]

/-- Where the normal block has room, every packet is written. -/
theorem Inv.writes_normal_of_room (h : Inv pool type d) (hbounds : Bounds pool type) (huse : d.useLarge = false)
    (hlt : data.length + packetLenUserDataHead < 2 ^ 32)
    (hroom : d.unread.length + (data.length + packetLenUserDataHead) ≤ normalSize pool type) :
    d.Writes pool type msgId block data := by
  have hnormal := hbounds.normal_le
  have hsize : normalSize pool type < 2 ^ 32 := by omega
  have hget : d.getSessionBuffer = d.buff := if_neg (huse ▸ Bool.false_ne_true)
  have hget' : (d.settled (data.length + packetLenUserDataHead)).getSessionBuffer =
      d.buff.settled (data.length + packetLenUserDataHead) := by
    rw [getSessionBuffer_settled, hget]
  have hsettled := h.settled hbounds (data.length + packetLenUserDataHead)
  have hfit := h.normal.settled_room hsize ((unread_normal huse).symm ▸ hroom)
  refine (writes_iff_end_le hsize hlt ?_ hsettled.2 (hget'.symm ▸ hfit) ?_).2 (hget'.symm ▸ hfit)
  · rw [hget']
    exact (h.normal.settled hsize _).1
  · rw [writeUserData_of_room (h.normal_sound huse) hsize hsize hlt hroom]
    refine writeChecked_eq hlt (Or.inl ?_)
    rw [settled_normal huse]
    exact huse

/-- Where it has none, its bytes are moved to the front before the switch. -/
theorem Inv.settled_full (h : Inv pool type d) (hbounds : Bounds pool type) (huse : d.useLarge = false) {need : ℕ}
    (hroom : ¬d.unread.length + need ≤ normalSize pool type) :
    d.settled need = { d with buff := d.buff.front } := by
  have hnormal := hbounds.normal_le
  have hlength := h.normal.length_unread
  have hroomLen := h.normal.getWriteLen_eq (by omega)
  have hwithin := h.normal.within
  rw [settled_normal huse, JmySessionBuffer.settled, if_pos]
  rw [unread_normal huse] at hlength
  omega

theorem Inv.writeUserData_full (h : Inv pool type d) (hbounds : Bounds pool type) (huse : d.useLarge = false)
    (hlt : data.length + packetLenUserDataHead < 2 ^ 32)
    (hroom : ¬d.unread.length + (data.length + packetLenUserDataHead) ≤ normalSize pool type) :
    d.writeUserData pool type msgId block (some data) =
      (JmyDoubleSessionBuffer.switchToLarge { d with buff := d.buff.front } (largeLen pool type) block).bind fun s =>
        if s.1 then (s.2.checkWriteLen (userDataLen data)).bind fun c =>
          if c.1 then c.2.writeChecked msgId data else some (-1, c.2)
        else some (-1, s.2) := by
  have hnormal := hbounds.normal_le
  have hsize : normalSize pool type < 2 ^ 32 := by omega
  have huse' : ¬JmyDoubleSessionBuffer.useLarge { d with buff := d.buff.front } = true := huse ▸ Bool.false_ne_true
  rw [writeUserData, checkWriteLen_eq (h.normal_sound huse) hsize hsize, userDataLen_eq hlt, decide_eq_false hroom,
    Option.bind_some, if_neg Bool.false_ne_true, h.settled_full hbounds huse hroom, if_neg huse']

theorem Inv.writes_normal_iff (h : Inv pool type d) (hbounds : Bounds pool type) (huse : d.useLarge = false)
    (hblock : ∀ b ∈ block, b.length = largeSize pool type) (hlt : data.length + packetLenUserDataHead < 2 ^ 32) :
    d.Writes pool type msgId block data ↔ d.Fitting pool type block data := by
  have hnot : ¬d.useLarge = true := huse ▸ Bool.false_ne_true
  unfold Fitting
  dsimp only
  rw [if_neg hnot, h.normal.len_eq]
  by_cases hroom : d.unread.length + (data.length + packetLenUserDataHead) ≤ normalSize pool type
  · exact iff_of_true (h.writes_normal_of_room hbounds huse hlt hroom) (Or.inl hroom)
  · have hsettled := h.settled hbounds (data.length + packetLenUserDataHead)
    rw [h.settled_full hbounds huse hroom] at hsettled
    obtain ⟨hinv, hunread⟩ := hsettled
    have hfrontUnread := h.normal.unread_front
    have hbuff := unread_normal huse
    have heq : d.writeUserData pool type msgId block (some data) = _ := h.writeUserData_full hbounds huse hlt hroom
    rw [or_iff_right hroom, JmySessionBuffer.Repeats, hfrontUnread, hbuff]
    obtain ⟨hor, hswitch⟩ | ⟨-, hsome, ⟨hfit, large, hswitch, hlarge, hcopied⟩ | ⟨hnofit, hswitch⟩⟩ :=
      hinv.switchToLarge_cases hbounds hblock
    · have hnone : block = none := hor.resolve_left hnot
      rw [hswitch, Option.bind_some, if_neg hnot] at heq
      rw [writes_refused heq]
      refine iff_of_true ⟨hunread, fun havailable => ?_⟩ (Or.inl hnone)
      exact absurd hnone (havailable.resolve_left hnot)
    · dsimp only at hfit hcopied
      rw [hfrontUnread, hbuff] at hfit hcopied
      rw [hswitch, Option.bind_some, if_pos rfl] at heq
      have hinv' : Inv pool type ⟨true, d.buff.front, large⟩ := ⟨hinv.normal, fun _ => hlarge, nofun⟩
      have huse' : JmyDoubleSessionBuffer.useLarge { d with buff := d.buff.front } = false := huse
      have hread := switchToLarge_readOffset huse' hswitch
      have hlength' : large.unread.length = d.unread.length := by
        rw [hcopied, length_window, min_eq_left hfit, Nat.add_sub_cancel_left]
      have hget' : JmyDoubleSessionBuffer.unread ⟨true, d.buff.front, large⟩ = large.unread := rfl
      rw [or_iff_right hsome,
        hinv'.writes_switched_iff hbounds rfl hread hlt (Or.inr hsome) hlength' (not_le.1 hroom) heq, hget', hcopied,
        and_iff_right hfit]
    · dsimp only at hnofit
      rw [hfrontUnread, hbuff] at hnofit
      rw [hswitch, Option.bind_none] at heq
      rw [or_iff_right hsome]
      exact iff_of_false (not_writes_none heq) fun hboth => hnofit hboth.1.1

theorem Inv.writes_iff (h : Inv pool type d) (hbounds : Bounds pool type)
    (hblock : ∀ b ∈ block, b.length = largeSize pool type) (hlt : data.length + packetLenUserDataHead < 2 ^ 32) :
    d.Writes pool type msgId block data ↔ d.Fitting pool type block data := by
  cases huse : d.useLarge with
  | true => exact h.writes_large_iff hbounds huse hlt
  | false => exact h.writes_normal_iff hbounds huse hblock hlt

end JmyDoubleSessionBuffer

/-- In every state that a run reaches, over every pool that `init` accepts, a packet is written as a whole exactly when
it is a fitting one. -/
theorem writeUserData_writes_iff {n : ℤ} {a b c d : ℕ} {pool : JmySessionBufferPool}
    (hinit : JmySessionBufferPool.init n a b c d = some pool) {type : SessionBufferType} {block : List Byte}
    (hblock : block.length = normalSize pool type) {es : List BufferEvent} {t : JmyDoubleSessionBuffer}
    (hrun : (bufferMachine pool type).run (.init pool type block) es = some t) {msgId : BitVec 32}
    {large : Option (List Byte)} (hlarge : FromPool pool type (.switchToLarge large)) {data : List Byte}
    (hlt : data.length + packetLenUserDataHead < 2 ^ 32) :
    t.Writes pool type msgId large data ↔ t.Fitting pool type large data := by
  have hbounds := bounds_of_init hinit type
  exact ((JmyDoubleSessionBuffer.inv_init hblock).run hbounds hrun).writes_iff hbounds hlarge hlt

open Pooled.PoolRun (twoBlocks)

/-- Behind a byte, there is room for a packet of one. -/
theorem writeUserData_behind_oneByte : ∃ t,
    (bufferMachine twoBlocks .send).run (.init twoBlocks .send (List.replicate 2048 0)) [.writeData [7]] = some t ∧
      t.Writes twoBlocks .send 1 none [9] := by
  have hinit : JmySessionBufferPool.init 2 0 0 0 0 = some twoBlocks := rfl
  have hrun : (bufferMachine twoBlocks .send).run (.init twoBlocks .send (List.replicate 2048 0)) [.writeData [7]] =
      some (oneByte 0) := run_oneByte 0
  have hnone : FromPool twoBlocks .send (.switchToLarge none) := fun _ hb => absurd hb (Option.not_mem_none _)
  refine ⟨oneByte 0, hrun, (writeUserData_writes_iff hinit List.length_replicate hrun hnone (by decide)).2 ?_⟩
  refine Or.inl ?_
  change (window _ 0 1).length + 6 ≤ 2048
  rw [length_window]
  omega

/-- Behind a byte, a packet goes to the large block with another byte in front of it. -/
theorem writeUserData_loses_byte : ∃ pool, JmySessionBufferPool.init 2 0 0 0 0 = some pool ∧ ∃ t,
    (bufferMachine pool .send).run (.init pool .send (List.replicate 2048 0)) [.writeData [7]] = some t ∧
      FromPool pool .send (.switchToLarge (some (List.replicate (320 * 1024) 0))) ∧
      ¬t.Writes pool .send 1 (some (List.replicate (320 * 1024) 0)) (List.replicate 2048 9) := by
  have hbounds : Bounds twoBlocks .send := bounds_of_init (n := 2) (a := 0) (b := 0) (c := 0) (d := 0) rfl .send
  have hrun : (bufferMachine twoBlocks .send).run (.init twoBlocks .send (List.replicate 2048 0)) [.writeData [7]] =
      some (oneByte 0) := run_oneByte 0
  have hinv := (JmyDoubleSessionBuffer.inv_init List.length_replicate).run hbounds hrun
  have hlength : (List.replicate 2048 (9 : Byte)).length = 2048 := List.length_replicate
  refine ⟨twoBlocks, rfl, oneByte 0, hrun, fromPool_zeros, fun hwrites => ?_⟩
  obtain hfit | hnone | ⟨⟨-, hbytes⟩, -⟩ := (hinv.writes_iff hbounds fromPool_zeros (by rw [hlength]; decide)).1 hwrites
  · rw [hlength] at hfit
    change _ + 2053 ≤ 2048 at hfit
    omega
  · cases hnone
  · cases hbytes

end Sized

end JmyGame
