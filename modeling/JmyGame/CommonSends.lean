import JmyGame.CommonMessages
import JmyGame.NetUserPackets

/-! Which messages the servers can send to each other: a packet has a length of two bytes, and a message is sent when it
fits one with its head. -/

namespace JmyGame

open CArith JmySessionBufferList

/-- A head and a payload are written to a list without limits exactly when they fit a packet. -/
theorem writeHeadAndData_nonneg_iff {head data : List Byte} (hhead : head ≠ []) (hheadLen : head.length < 2 ^ 16)
    (hdata : data.length < 2 ^ 16) : ∃ r, writeHeadAndData (JmySessionBufferList.init 0 0) head data = some r ∧
      (0 ≤ r.1 ↔ head.length + data.length < 2 ^ 16) := by
  have hneg : ¬(0 : ℤ) ≤ -1 := by decide
  have hover := overLimit_unlimited (l := JmySessionBufferList.init 0 0) rfl rfl
  unfold writeHeadAndData
  split_ifs with hnil
  · refine ⟨_, rfl, ?_⟩
    change 0 ≤ (if (JmySessionBufferList.writeData _ head).1 then _ else _ : ℤ × JmySessionBufferList).1 ↔ _
    rw [writeData_packet _ hhead hheadLen, hover, if_neg Bool.false_ne_true, hnil]
    exact iff_of_true (le_refl 0) hheadLen
  · refine ⟨_, rfl, ?_⟩
    change 0 ≤ (if (JmySessionBufferList.writeDatas _ [head, data]).1 then _ else _ : ℤ × JmySessionBufferList).1 ↔ _
    rw [writeDatas_pair _ data hhead hheadLen, hover, if_neg Bool.false_ne_true, Nat.mod_eq_of_lt hdata]
    by_cases hfits : head.length + data.length < 2 ^ 16
    · have hroom : 1 ≤ data.length ∧ head.length + data.length < 2 ^ 16 := ⟨Nat.pos_of_ne_zero hnil, hfits⟩
      rw [if_pos hroom, if_pos rfl, toInt_of_lt (by omega)]
      exact iff_of_true (Int.natCast_nonneg _) hfits
    · have hroom : ¬(1 ≤ data.length ∧ head.length + data.length < 2 ^ 16) := fun h => hfits h.2
      rw [if_neg hroom, if_neg Bool.false_ne_true]
      exact iff_of_false hneg hfits

theorem sendTakes_iff {msgId : MsgId} {data : List Byte} (hdata : data.length < 2 ^ 16) :
    sendTakes msgId data = true ↔ data.length ≤ 65530 := by
  obtain ⟨r, hr, hnonneg⟩ := writeHeadAndData_nonneg_iff (userDataHead_ne_nil msgId data.length) (by simp) hdata
  rw [sendTakes, writeUserData_eq, hr, decide_eq_true_eq, hnonneg, length_userDataHead]
  omega

theorem sendUserTakes_iff {userId : BitVec 32} {msgId : MsgId} {data : List Byte} (hdata : data.length < 2 ^ 16) :
    sendUserTakes userId msgId data = true ↔ data.length ≤ 65526 := by
  have hlen : (userIdDataHead userId msgId data.length).length = 9 := rfl
  have hhead : userIdDataHead userId msgId data.length ≠ [] := List.cons_ne_nil _ _
  obtain ⟨r, hr, hnonneg⟩ := writeHeadAndData_nonneg_iff hhead (by rw [hlen]; decide) hdata
  rw [sendUserTakes, writeUserIdAndData_eq _ _ _ hdata, hr, decide_eq_true_eq, hnonneg, hlen]
  omega

end JmyGame
