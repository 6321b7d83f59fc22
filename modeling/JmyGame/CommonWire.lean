import JmyGame.CommonMessages

/-! Messages of the `.proto` files, as the parts that they are written as. -/

namespace JmyGame

open CArith Protobuf

namespace Wire

/-- What is written of the parts of a message is decoded to their fields. -/
theorem decode_tmp {α : Type} {c : Codec α} {m : α} {tmp : List Byte} (parts : List Part)
    (hparts : c.serialize m = parts.flatMap Part.encode) (htmp : c.serializeToArray maxMsgSize m = some tmp)
    (hnumber : ∀ p ∈ parts, 0 < p.number ∧ p.number < 2 ^ 29) (huint : ∀ n v, .uint n v ∈ parts → v < 2 ^ 64) :
    decode tmp = some (parts.flatMap Part.fields) := by
  have hsize : (parts.flatMap Part.encode).length ≤ maxMsgSize := by
    obtain ⟨hsize, -⟩ := Option.ite_none_right_eq_some.1 htmp
    rwa [hparts] at hsize
  have hlen : ∀ bs : List Byte, bs.length ≤ (parts.flatMap Part.encode).length → bs.length < 2 ^ 64 := by
    intro bs hbs
    exact lt_of_le_of_lt (hbs.trans hsize) (by decide)
  rw [Codec.eq_serialize htmp, hparts]
  refine decode_parts parts fun p hp => ?_
  cases p with
  | uint n v => exact ⟨hnumber _ hp, huint n v hp⟩
  | bytes n bs => exact ⟨hnumber _ hp, hlen bs (length_le_encode (Or.inl hp))⟩
  | message n bs => exact ⟨hnumber _ hp, hlen bs (length_le_encode (Or.inr hp))⟩

theorem string_eq_some {s t : Str} (h : string s = some t) : t = s := by
  obtain ⟨-, heq⟩ := Option.ite_none_right_eq_some.1 h
  exact (Option.some.inj heq).symm

def roleDataParts (m : MsgBaseRoleData) : List Part := [.uint 1 m.roleId.toNat, .bytes 2 m.nickName,
  .uint 3 (BitVec.ofInt 64 m.race).toNat, .uint 4 (BitVec.ofInt 64 m.sex).toNat, .uint 5 (BitVec.ofInt 64 m.hp).toNat,
  .uint 6 (BitVec.ofInt 64 m.level).toNat]

theorem roleData_serialize (m : MsgBaseRoleData) :
    roleData.serialize m = (roleDataParts m).flatMap Part.encode := by
  simp [roleData, roleDataParts, Part.encode, encodeInt32]

/-- A role id comes back with the data of its role. -/
theorem roleData_roleId {m m' : MsgBaseRoleData} (hlen : (roleData.serialize m).length < 2 ^ 64)
    (hparse : roleData.parse (roleData.serialize m) = some m') : m'.roleId = m.roleId := by
  have hnick : m.nickName.length ≤ ((roleDataParts m).flatMap Part.encode).length :=
    length_le_encode (n := 2) (Or.inl (by simp [roleDataParts]))
  rw [roleData_serialize] at hlen hparse
  have hfits : ∀ p ∈ roleDataParts m, p.Fits := by
    have hid := m.roleId.isLt
    have hint : ∀ v : ℤ, (BitVec.ofInt 64 v).toNat < 2 ^ 64 := fun v => BitVec.isLt _
    have hnick' := hnick.trans_lt hlen
    intro p hp
    simp only [roleDataParts, List.mem_cons, List.not_mem_nil, or_false] at hp
    rcases hp with rfl | rfl | rfl | rfl | rfl | rfl
    · exact ⟨by decide, hid⟩
    · exact ⟨by decide, hnick'⟩
    · exact ⟨by decide, hint _⟩
    · exact ⟨by decide, hint _⟩
    · exact ⟨by decide, hint _⟩
    · exact ⟨by decide, hint _⟩
  have hnodup : ((roleDataParts m).map Part.number).Nodup := by
    simp [roleDataParts, Part.number]
  have hvalue := uintOf_part hnodup (by simp [roleDataParts] : Part.uint 1 m.roleId.toNat ∈ roleDataParts m)
  simp only [roleData, decode_parts _ hfits, Option.map_some, hvalue, Option.some.injEq] at hparse
  rw [← hparse, BitVec.ofNat_toNat, BitVec.setWidth_eq]

/-- The first bytes of a role response are not read, or they are read without a role or as the role of its account. -/
theorem roleResponse_take {m m' : MsgRoleResponse} {k : ℕ} (hlen : (roleResponse.serialize m).length < 2 ^ 64)
    (hparse : roleResponse.parse ((roleResponse.serialize m).take k) = some m') :
    m'.roleData.roleId = 0 ∨ m'.account = m.account ∧ m'.roleData.roleId = m.roleData.roleId := by
  let parts : List Part := [.bytes 1 m.account, .message 2 (roleData.serialize m.roleData)]
  have hparts : roleResponse.serialize m = parts.flatMap Part.encode := by
    simp [roleResponse, parts, Part.encode]
  have haccount : m.account.length ≤ (parts.flatMap Part.encode).length :=
    length_le_encode (n := 1) (Or.inl (by simp [parts]))
  have hrole : (roleData.serialize m.roleData).length ≤ (parts.flatMap Part.encode).length :=
    length_le_encode (n := 2) (Or.inr (by simp [parts]))
  rw [hparts] at hlen hparse
  have hfits : ∀ p ∈ parts, p.Fits := by
    intro p hp
    simp only [parts, List.mem_cons, List.not_mem_nil, or_false] at hp
    rcases hp with rfl | rfl
    · exact ⟨by decide, haccount.trans_lt hlen⟩
    · exact ⟨by decide, hrole.trans_lt hlen⟩
  obtain ⟨fs, hdecode, hread⟩ := Option.bind_eq_some_iff.1 hparse
  obtain ⟨account, haccount', hmap⟩ := Option.bind_eq_some_iff.1 hread
  obtain ⟨data, hdata, rfl⟩ := Option.map_eq_some_iff.1 hmap
  obtain ⟨j, rfl⟩ := decode_take hfits hdecode
  rcases Nat.lt_or_ge j 2 with hj | hj
  · -- the role data are cut off
    have hnone : messageOf ((parts.take j).flatMap Part.fields) 2 = [] := by
      have hj' : j = 0 ∨ j = 1 := by omega
      rcases hj' with rfl | rfl
      · rfl
      · change messageOf (bytesField 1 m.account ++ []) 2 = []
        unfold bytesField
        split_ifs
        · rfl
        · rfl
    rw [hnone] at hdata
    obtain rfl := Option.some.inj hdata
    exact Or.inl rfl
  · rw [List.take_of_length_le (by simpa [parts] using hj)] at haccount' hdata
    have hnodup : (parts.map Part.number).Nodup := by simp [parts, Part.number]
    rw [bytesOf_part hnodup (by simp [parts] : Part.bytes 1 m.account ∈ parts)] at haccount'
    rw [messageOf_part hnodup
      (by simp [parts] : Part.message 2 (roleData.serialize m.roleData) ∈ parts)] at hdata
    exact Or.inr ⟨string_eq_some haccount', roleData_roleId (hrole.trans_lt hlen) hdata⟩

end Wire

end JmyGame
