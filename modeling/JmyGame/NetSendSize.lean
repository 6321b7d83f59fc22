import JmyGame.NetDataHandler2

/-! Which lengths `writeUserData` carries safely. The length is an `unsigned int` that the head packer
and the packets of a list narrow to an `unsigned short`, and whose sum with the head wraps; the two
kinds of send buffer go wrong at different lengths. -/

namespace JmyGame

open CArith

/-- A call that keeps the promise of a send: it refuses and leaves the queued bytes alone, or it
appends the head and the whole payload, with the number of bytes behind the length field in it. -/
def SendSafe {β : Type} [SendBuffer β] (queued : β → List Byte) (buffer : β) (msgId : BitVec 32)
    (data : List Byte) : Prop :=
  ∃ r buffer', writeUserData buffer msgId data = some (r, buffer') ∧
    (r = -1 ∧ queued buffer' = queued buffer ∨
      0 ≤ r ∧ ∃ h0 h1, queued buffer' =
          queued buffer ++ ([h0, h1, JmyPacketType2.userData.toChar] ++ packInt16 msgId ++ data) ∧
        (unpackInt16 h0 h1).toNat = lenType + lenMsgId + data.length)

/-- The head that `writeUserData` packs for a payload. -/
def userDataHead (msgId : BitVec 32) (dataLen : ℕ) : List Byte :=
  packHead (userDataPackLen (dataLen % 2 ^ 16)) .userData ++ packInt16 msgId

@[simp] theorem length_userDataHead (msgId : BitVec 32) (dataLen : ℕ) :
    (userDataHead msgId dataLen).length = 5 := rfl

section

variable {β : Type} [SendBuffer β] (buffer : β) (msgId : BitVec 32) (data : List Byte)

theorem writeUserData_eq :
    writeUserData buffer msgId data =
      writeHeadAndData buffer (userDataHead msgId data.length) data := by
  rw [writeUserData, packUserDataHead_eq]
  rfl

theorem writeUserData_nil :
    writeUserData buffer msgId [] =
      some (if (SendBuffer.writeData buffer (userDataHead msgId 0)).1
        then (0, (SendBuffer.writeData buffer (userDataHead msgId 0)).2)
        else (-1, (SendBuffer.writeData buffer (userDataHead msgId 0)).2)) := by
  rw [writeUserData_eq]
  rfl

theorem writeUserData_cons (hdata : data ≠ []) :
    writeUserData buffer msgId data =
      (SendBuffer.writeDatas buffer [userDataHead msgId data.length, data]).map fun r =>
        if r.1 then (toInt (5 + data.length), r.2) else (-1, r.2) := by
  rw [writeUserData_eq, writeHeadAndData, if_neg (mt List.length_eq_zero_iff.1 hdata)]
  rfl

end

/-- The length field of the head counts the payload exactly when the count fits two bytes. -/
theorem lengthField_userDataHead (msgId : BitVec 32) (dataLen : ℕ) :
    ∃ h0 h1, userDataHead msgId dataLen =
        [h0, h1, JmyPacketType2.userData.toChar] ++ packInt16 msgId ∧
      (unpackInt16 h0 h1).toNat = (lenType + lenMsgId + dataLen) % 2 ^ 16 := by
  refine ⟨_, _, rfl, ?_⟩
  rw [toNat_unpackInt16, toNat_byteOf 1 _ (by decide), toNat_byteOf 0 _ (by decide),
    BitVec.toNat_ofNat]
  simp only [userDataPackLen, lenHead, lenType, lenMsgId]
  omega

section

variable {β : Type} [SendBuffer β] {queued : β → List Byte} {buffer buffer' : β}
  {msgId : BitVec 32} {data : List Byte} {r : ℤ}

theorem sendSafe_of_refused (h : writeUserData buffer msgId data = some (-1, buffer')) 
    (hq : queued buffer' = queued buffer) : SendSafe queued buffer msgId data :=
  ⟨-1, buffer', h, Or.inl ⟨rfl, hq⟩⟩

/-- A head and a payload that were appended are safe exactly when the whole payload was appended and
its length field holds. -/
theorem sendSafe_of_appended (h : writeUserData buffer msgId data = some (r, buffer'))
    (hr : 0 ≤ r)
    (hq : queued buffer' = queued buffer ++ (userDataHead msgId data.length ++ data))
    (hfield : lenType + lenMsgId + data.length < 2 ^ 16) : SendSafe queued buffer msgId data := by
  obtain ⟨h0, h1, hhead, hval⟩ := lengthField_userDataHead msgId data.length
  refine ⟨r, buffer', h, Or.inr ⟨hr, h0, h1, ?_, ?_⟩⟩
  · rw [hq, hhead]
  · rw [hval, Nat.mod_eq_of_lt hfield]

/-- No call is safe that appended another payload, or one whose length does not fit the field. -/
theorem not_sendSafe_of_appended {sent : List Byte}
    (h : writeUserData buffer msgId data = some (r, buffer'))
    (hq : queued buffer' = queued buffer ++ (userDataHead msgId data.length ++ sent))
    (hbad : sent.length ≠ data.length ∨ 2 ^ 16 ≤ lenType + lenMsgId + data.length) :
    ¬SendSafe queued buffer msgId data := by
  rintro ⟨r', b', hw, hsafe⟩
  rw [h, Option.some.injEq, Prod.mk.injEq] at hw
  obtain ⟨rfl, rfl⟩ := hw
  rcases hsafe with ⟨-, hsame⟩ | ⟨-, h0, h1, happ, hval⟩
  · have := congrArg List.length (hq.symm.trans hsame)
    simp only [List.length_append, length_userDataHead] at this
    omega
  · have hbytes := List.append_cancel_left (hq.symm.trans happ)
    have hlen := congrArg List.length hbytes
    have hbound := (unpackInt16 h0 h1).isLt
    rw [toNat_unpackInt16] at hval
    have hb0 := h0.isLt
    have hb1 := h1.isLt
    simp only [List.length_append, length_userDataHead, length_packInt16, List.length_cons,
      List.length_nil] at hlen
    omega

end

theorem userDataHead_ne_nil (msgId : BitVec 32) (dataLen : ℕ) : userDataHead msgId dataLen ≠ [] :=
  List.cons_ne_nil _ _

open JmySessionBufferList in
/-- One call with a payload on a list. -/
theorem writeUserData_list (l : JmySessionBufferList) (msgId : BitVec 32) {data : List Byte}
    (hdata : data ≠ []) :
    writeUserData l msgId data =
      if l.overLimit ((5 + data.length) % 2 ^ 32) then some (-1, l)
      else if 1 ≤ data.length % 2 ^ 16 ∧ data.length % 2 ^ 16 ≤ 65530 then
        some (toInt (5 + data.length),
          l.pushBack (packetOf (userDataHead msgId data.length ++
            data.take (data.length % 2 ^ 16))) ((5 + data.length) % 2 ^ 32))
      else some (-1, l) := by
  have hfit : 5 + data.length % 2 ^ 16 < 2 ^ 16 ↔ data.length % 2 ^ 16 ≤ 65530 := by omega
  rw [writeUserData_cons l msgId data hdata, show SendBuffer.writeDatas l = fun datas =>
      some (l.writeDatas datas) from rfl]
  simp only [writeDatas_pair l data (userDataHead_ne_nil msgId data.length) (by simp),
    length_userDataHead, hfit, Option.map_some]
  by_cases hover : l.overLimit ((5 + data.length) % 2 ^ 32)
  · simp only [if_pos hover, Bool.false_eq_true, if_false]
  · by_cases hlen : 1 ≤ data.length % 2 ^ 16 ∧ data.length % 2 ^ 16 ≤ 65530
    · simp only [if_neg hover, if_pos hlen, if_true]
    · simp only [if_neg hover, if_neg hlen, Bool.false_eq_true, if_false]

open JmySessionBufferList in
/-- On a list a call is unsafe exactly when the length has more than two bytes and its low two bytes
are those of a packet that the list accepts: that packet is cut short. -/
theorem sendSafe_list_iff (l : JmySessionBufferList) (msgId : BitVec 32) (data : List Byte) :
    SendSafe unread l msgId data ↔
      data.length < 2 ^ 16 ∨ ¬(1 ≤ data.length % 2 ^ 16 ∧ data.length % 2 ^ 16 ≤ 65530) ∨
        l.overLimit ((5 + data.length) % 2 ^ 32) := by
  by_cases hnil : data = []
  · subst hnil
    refine iff_of_true ?_ (Or.inl (by decide))
    have hw := writeUserData_nil l msgId
    rw [show SendBuffer.writeData l (userDataHead msgId 0) = l.writeData (userDataHead msgId 0) from rfl,
      writeData_packet l (userDataHead_ne_nil msgId 0) (by simp)] at hw
    by_cases hover : l.overLimit (userDataHead msgId 0).length
    · rw [if_pos hover] at hw
      exact sendSafe_of_refused hw rfl
    · rw [if_neg hover] at hw
      refine sendSafe_of_appended hw le_rfl ?_ (by decide)
      simp only [unread_pushBack, unread_packetOf, List.length_nil, List.append_nil]
  · have hw := writeUserData_list l msgId hnil
    split_ifs at hw with hover hfit
    · exact iff_of_true (sendSafe_of_refused hw rfl) (Or.inr (Or.inr hover))
    · have hq : (l.pushBack (packetOf (userDataHead msgId data.length ++
          data.take (data.length % 2 ^ 16))) ((5 + data.length) % 2 ^ 32)).unread =
          l.unread ++ (userDataHead msgId data.length ++ data.take (data.length % 2 ^ 16)) := by
        rw [unread_pushBack, unread_packetOf]
      by_cases hsmall : data.length < 2 ^ 16
      · refine iff_of_true ?_ (Or.inl hsmall)
        rw [Nat.mod_eq_of_lt hsmall, List.take_length] at hq
        rw [Nat.mod_eq_of_lt hsmall] at hfit
        rw [Nat.mod_eq_of_lt hsmall, List.take_length] at hw
        refine sendSafe_of_appended hw ?_ hq (by simp only [lenType, lenMsgId]; omega)
        rw [toInt_of_lt (by omega)]
        omega
      · refine iff_of_false (not_sendSafe_of_appended hw hq (Or.inl ?_)) ?_
        · rw [List.length_take]
          omega
        · rintro (h | h | h)
          · exact hsmall h
          · exact h hfit
          · exact hover h
    · exact iff_of_true (sendSafe_of_refused hw rfl) (Or.inr (Or.inl hfit))

open JmySessionBuffer in
/-- One call with a payload on the blocks: refused for want of room, both pieces copied, or a copy
that leaves the block because the sum of the lengths wrapped. -/
theorem writeUserData_double (d : JmyDoubleSessionBuffer) (msgId : BitVec 32) {data : List Byte}
    (hdata : data ≠ []) :
    (d.getWriteLen < (5 + data.length) % 2 ^ 32 ∧ ∃ d', writeUserData d msgId data = some (-1, d') ∧
      d'.unread = d.unread) ∨
    ((5 + data.length) % 2 ^ 32 ≤ d.getWriteLen ∧ 5 + data.length ≤ d.getWriteLen ∧
      ∃ d', writeUserData d msgId data = some (toInt (5 + data.length), d') ∧
        d'.unread = d.unread ++ (userDataHead msgId data.length ++ data)) ∨
    ((5 + data.length) % 2 ^ 32 ≤ d.getWriteLen ∧ d.getWriteLen < 5 + data.length ∧
      writeUserData d msgId data = none) := by
  rw [writeUserData_cons d msgId data hdata, show SendBuffer.writeDatas d = d.writeDatas from rfl]
  simp only [JmyDoubleSessionBuffer.writeDatas, JmySessionBuffer.writeDatas, reduceCtorEq, if_false,
    List.map_cons, List.map_nil, List.sum_cons, List.sum_nil, length_userDataHead, Nat.add_zero]
  rw [show d.getSessionBuffer.getWriteLen = d.getWriteLen from rfl]
  by_cases hroom : d.getWriteLen < (5 + data.length) % 2 ^ 32
  · refine Or.inl ⟨hroom, d.setSessionBuffer d.getSessionBuffer, ?_, ?_⟩
    · simp only [if_pos hroom, Option.map_some, Bool.false_eq_true, if_false]
    · rw [JmyDoubleSessionBuffer.unread, JmyDoubleSessionBuffer.getSessionBuffer_set]
      rfl
  · rw [if_neg hroom]
    refine Or.inr ?_
    rcases foldlM_copyIn_pair d.getSessionBuffer (userDataHead msgId data.length) data with
      ⟨hfit, b', hfold, hunread⟩ | ⟨hfit, hfold⟩
    · refine Or.inl ⟨not_lt.1 hroom, hfit, d.setSessionBuffer b', ?_, ?_⟩
      · simp only [hfold, Option.map_some, if_true]
      · rw [JmyDoubleSessionBuffer.unread, JmyDoubleSessionBuffer.getSessionBuffer_set, hunread, List.append_assoc]
        rfl
    · refine Or.inr ⟨not_lt.1 hroom, hfit, ?_⟩
      simp only [hfold, Option.map_none]

open JmySessionBuffer in
/-- On the blocks a call is safe exactly when the length field can hold the count or the blocks have
no room for the sum the code computes. -/
theorem sendSafe_double_iff (d : JmyDoubleSessionBuffer) (msgId : BitVec 32) (data : List Byte) :
    SendSafe JmyDoubleSessionBuffer.unread d msgId data ↔
      data.length ≤ 65532 ∨ d.getWriteLen < (5 + data.length) % 2 ^ 32 := by
  by_cases hnil : data = []
  · subst hnil
    refine iff_of_true ?_ (Or.inl (by decide))
    have hw := writeUserData_nil d msgId
    rw [show SendBuffer.writeData d (userDataHead msgId 0) =
      d.writeData (userDataHead msgId 0) from rfl] at hw
    rcases writeData_spec d.getSessionBuffer (userDataHead msgId 0) with ⟨-, hb⟩ | ⟨-, b', hb, hunread⟩
    · simp only [JmyDoubleSessionBuffer.writeData, hb, Bool.false_eq_true, if_false] at hw
      refine sendSafe_of_refused hw ?_
      rw [JmyDoubleSessionBuffer.unread, JmyDoubleSessionBuffer.getSessionBuffer_set]
      rfl
    · simp only [JmyDoubleSessionBuffer.writeData, hb, if_true] at hw
      refine sendSafe_of_appended hw le_rfl ?_ (by decide)
      rw [JmyDoubleSessionBuffer.unread, JmyDoubleSessionBuffer.getSessionBuffer_set, hunread, List.append_nil]
      rfl
  · rcases writeUserData_double d msgId hnil with
      ⟨hroom, d', hw, hq⟩ | ⟨hroom, -, d', hw, hq⟩ | ⟨hroom, hfit, hw⟩
    · exact iff_of_true (sendSafe_of_refused hw hq) (Or.inr hroom)
    · by_cases hsmall : data.length ≤ 65532
      · refine iff_of_true (sendSafe_of_appended hw ?_ hq ?_) (Or.inl hsmall)
        · rw [toInt_of_lt (by omega)]
          omega
        · simp only [lenType, lenMsgId]
          omega
      · refine iff_of_false (not_sendSafe_of_appended hw hq (Or.inr ?_)) ?_
        · simp only [lenType, lenMsgId]
          omega
        · omega
    · refine iff_of_false ?_ (by omega)
      rintro ⟨r, d', hsome, -⟩
      rw [hw] at hsome
      cases hsome

/-- Exactly which lengths are sent safely, on both kinds of send buffer. A list cuts a packet short
from `2 ^ 16` bytes on, when the low two bytes of the length look like a packet's and the limits
allow it. The blocks send a wrong length field from 65533 bytes on, or copy past their end where the
sum with the head wraps, unless there is no room. -/
theorem writeUserData_sendSafe_iff (msgId : BitVec 32) (data : List Byte) :
    (∀ l : JmySessionBufferList, SendSafe JmySessionBufferList.unread l msgId data ↔
      data.length < 2 ^ 16 ∨ ¬(1 ≤ data.length % 2 ^ 16 ∧ data.length % 2 ^ 16 ≤ 65530) ∨
        l.overLimit ((5 + data.length) % 2 ^ 32)) ∧
    (∀ d : JmyDoubleSessionBuffer, SendSafe JmyDoubleSessionBuffer.unread d msgId data ↔
      data.length ≤ 65532 ∨ d.getWriteLen < (5 + data.length) % 2 ^ 32) :=
  ⟨fun l => sendSafe_list_iff l msgId data, fun d => sendSafe_double_iff d msgId data⟩

/-- A payload of 65537 bytes is reported as sent on an empty list that holds one byte of it, and
one of 65533 bytes is sent from an empty block behind a length field of zero. -/
theorem writeUserData_truncates :
    ¬SendSafe JmySessionBufferList.unread (.init 0 0) 1 (List.replicate 65537 0) ∧
    ¬SendSafe JmyDoubleSessionBuffer.unread (.init 65538 (by decide)) 1 (List.replicate 65533 0) := by
  refine ⟨?_, ?_⟩
  · rw [sendSafe_list_iff, List.length_replicate]
    decide
  · rw [sendSafe_double_iff, List.length_replicate, JmyDoubleSessionBuffer.getWriteLen_init]
    decide

end JmyGame
