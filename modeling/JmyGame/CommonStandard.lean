import JmyGame.CommonWire

/-! What the servers rely on in the encoding of their messages: a message is not much longer than the texts in it, what
is read is in the ranges of its fields, and a message in these ranges comes back. The protocol of the `.proto` files is
of this kind. -/

namespace JmyGame

open CArith Protobuf

/-- The values of an `int32`. -/
def IsInt32 (v : ℤ) : Prop := -2 ^ 31 ≤ v ∧ v < 2 ^ 31

/-- The values of a `string`. -/
def IsUtf8 (s : Str) : Prop := validUtf8 s.length s = true

/-- The values that the fields of a message can have, and the length of the texts in it. -/
class ProtoMessage (α : Type) where
  Valid : α → Prop
  texts : α → ℕ

namespace ProtoMessage

instance : ProtoMessage Unit := ⟨fun _ => True, fun _ => 0⟩

instance : ProtoMessage ℤ := ⟨IsInt32, fun _ => 0⟩

instance : ProtoMessage (BitVec 64) := ⟨fun _ => True, fun _ => 0⟩

/-- A message with one account. -/
instance : ProtoMessage Str := ⟨IsUtf8, List.length⟩

instance : ProtoMessage MsgConnectGateResponse := ⟨fun m => IsInt32 m.maxUserCount ∧ IsInt32 m.startUserId, fun _ => 0⟩

instance : ProtoMessage MsgBaseRoleData where
  Valid m := IsInt32 m.race ∧ IsInt32 m.sex ∧ IsInt32 m.hp ∧ IsInt32 m.level
  texts m := m.nickName.length

instance : ProtoMessage MsgCreateRoleRequest where
  Valid m := IsUtf8 m.account ∧ IsInt32 m.sex ∧ IsInt32 m.race
  texts m := m.account.length + m.nickName.length

instance : ProtoMessage MsgRoleResponse where
  Valid m := IsUtf8 m.account ∧ Valid m.roleData
  texts m := m.account.length + texts m.roleData

instance : ProtoMessage MsgRoleData := ⟨fun m => Valid m.roleData, fun m => texts m.roleData⟩

instance : ProtoMessage MsgChat := ⟨fun _ => True, fun m => m.content.length⟩

instance : ProtoMessage MsgItem := ⟨fun _ => True, fun _ => 0⟩

end ProtoMessage

open ProtoMessage

/-- The encoding of a message is one of protocol buffers. -/
structure Codec.Standard {α : Type} [ProtoMessage α] (codec : Codec α) : Prop where
  length : ∀ m, (codec.serialize m).length ≤ 256 + texts m
  valid : ∀ bs m, codec.parse bs = some m → Valid m
  roundTrip : ∀ m, Valid m → (codec.serialize m).length < 2 ^ 31 → codec.parse (codec.serialize m) = some m
  empty : ∃ m, codec.parse [] = some m ∧ texts m = 0

/-- The messages between the servers, and what the gate sends to clients. -/
structure Protocol.Standard (P : Protocol) : Prop where
  connectGateRequest : P.connectGateRequest.Standard
  connectGateResponse : P.connectGateResponse.Standard
  gt2gsGetRoleRequest : P.gt2gsGetRoleRequest.Standard
  gs2gtGetRoleResponse : P.gs2gtGetRoleResponse.Standard
  gt2gsCreateRoleRequest : P.gt2gsCreateRoleRequest.Standard
  gs2gtCreateRoleResponse : P.gs2gtCreateRoleResponse.Standard
  enterGameRequest : P.enterGameRequest.Standard
  leaveGameRequest : P.leaveGameRequest.Standard
  s2cCreateRoleResponse : P.s2cCreateRoleResponse.Standard
  s2cEnterGameResponse : P.s2cEnterGameResponse.Standard
  chatNotify : P.chatNotify.Standard
  setRoleDataRequest : P.setRoleDataRequest.Standard
  connectDBRequest : P.connectDBRequest.Standard
  connectDBResponse : P.connectDBResponse.Standard
  gs2dsGetRoleRequest : P.gs2dsGetRoleRequest.Standard
  ds2gsGetRoleResponse : P.ds2gsGetRoleResponse.Standard
  gs2dsCreateRoleRequest : P.gs2dsCreateRoleRequest.Standard
  ds2gsCreateRoleResponse : P.ds2gsCreateRoleResponse.Standard
  gs2dsSetRoleDataRequest : P.gs2dsSetRoleDataRequest.Standard
  ds2gsSetRoleDataResponse : P.ds2gsSetRoleDataResponse.Standard
  addItemRequest : P.addItemRequest.Standard
  addItemResponse : P.addItemResponse.Standard
  error : (P.error.serialize ProtoErrorType.getRoleNone.code).length ≤ 256
  /-- A created role alone is not longer than with its account. -/
  created : ∀ account d,
    (P.s2cCreateRoleResponse.serialize d).length ≤ (P.gs2gtCreateRoleResponse.serialize ⟨account, d⟩).length

theorem isInt32_int32Of (fs : List (ℕ × Field)) (n : ℕ) : IsInt32 (int32Of fs n) :=
  ⟨BitVec.le_toInt _, BitVec.toInt_lt⟩

theorem int32Of_part {parts : List Part} (hnodup : (parts.map Part.number).Nodup) {n : ℕ} {v : ℤ}
    (hp : .uint n (BitVec.ofInt 64 v).toNat ∈ parts) (h : IsInt32 v) :
    int32Of (parts.flatMap Part.fields) n = v := by
  rw [int32Of, uintOf_part hnodup hp]
  exact toInt_ofNat_ofInt h.1 h.2

/-- A codec that writes the parts of its messages, and reads their fields. -/
theorem Codec.Standard.of_parts {α : Type} [ProtoMessage α] {codec : Codec α} (parts : α → List Part)
    (read : List (ℕ × Field) → Option α) (hparse : ∀ bs, codec.parse bs = (decode bs).bind read)
    (hserialize : ∀ m, codec.serialize m = (parts m).flatMap Part.encode)
    (hnumbered : ∀ m, ∀ p ∈ parts m, p.Numbered)
    (hlength : ∀ m, 20 * (parts m).length + ((parts m).map Part.texts).sum ≤ 256 + texts m)
    (hvalid : ∀ fs m, read fs = some m → Valid m)
    (hread : ∀ m, Valid m → (codec.serialize m).length < 2 ^ 31 → read ((parts m).flatMap Part.fields) = some m)
    (hempty : ∃ m, read [] = some m ∧ texts m = 0) : codec.Standard where
  length m := by
    rw [hserialize]
    exact (length_flatMap_encode_le (parts m)).trans (hlength m)
  valid bs m h := by
    rw [hparse] at h
    obtain ⟨fs, -, hfs⟩ := Option.bind_eq_some_iff.1 h
    exact hvalid fs m hfs
  roundTrip m hm hlen := by
    have hfits : ∀ bs : List Byte, bs.length ≤ ((parts m).flatMap Part.encode).length → bs.length < 2 ^ 64 := by
      intro bs hbs
      rw [← hserialize] at hbs
      omega
    have hdecode : decode (codec.serialize m) = some ((parts m).flatMap Part.fields) := by
      rw [hserialize]
      refine decode_parts _ fun p hp => ?_
      cases p with
      | uint n v => exact hnumbered m _ hp
      | bytes n bs => exact ⟨hnumbered m _ hp, hfits bs (length_le_encode (Or.inl hp))⟩
      | message n bs => exact ⟨hnumbered m _ hp, hfits bs (length_le_encode (Or.inr hp))⟩
    rw [hparse, hdecode, Option.bind_some]
    exact hread m hm hlen
  empty := by
    obtain ⟨m, hm, htexts⟩ := hempty
    exact ⟨m, by rw [hparse]; exact hm, htexts⟩

namespace Wire

theorem isUtf8_string {s t : Str} (h : string s = some t) : IsUtf8 t := by
  obtain ⟨hvalid, heq⟩ := Option.ite_none_right_eq_some.1 h
  rwa [← Option.some.inj heq]

theorem string_of_isUtf8 {s : Str} (h : IsUtf8 s) : string s = some s := if_pos h

theorem unit_standard : unit.Standard := by
  refine .of_parts (fun _ => []) (fun _ => some ()) (fun _ => Option.map_eq_bind) (fun _ => rfl) ?_ ?_ ?_ ?_ ?_
  · exact fun _ _ hp => absurd hp List.not_mem_nil
  · exact fun _ => Nat.zero_le _
  · exact fun _ _ _ => trivial
  · exact fun _ _ _ => rfl
  · exact ⟨(), rfl, rfl⟩

theorem uint64_standard : uint64.Standard := by
  refine .of_parts (fun v => [.uint 1 v.toNat]) (fun fs => some (BitVec.ofNat 64 (uintOf fs 1)))
    (fun _ => Option.map_eq_bind) (fun v => ?_) ?_ ?_ ?_ ?_ ?_
  · simp [uint64, Part.encode]
  · simp only [List.forall_mem_singleton]
    exact fun v => ⟨by decide, v.isLt⟩
  · exact fun _ => (by decide : 20 ≤ 256)
  · exact fun _ _ _ => trivial
  · intro v _ _
    have hvalue : uintOf ([Part.uint 1 v.toNat].flatMap Part.fields) 1 = v.toNat := uintOf_part (by simp) (by simp)
    rw [hvalue, BitVec.ofNat_toNat, BitVec.setWidth_eq]
  · exact ⟨_, rfl, rfl⟩

theorem int32_standard : int32.Standard := by
  refine .of_parts (fun v => [.uint 1 (BitVec.ofInt 64 v).toNat]) (fun fs => some (int32Of fs 1))
    (fun _ => Option.map_eq_bind) (fun v => ?_) ?_ ?_ ?_ ?_ ?_
  · simp [int32, Part.encode, encodeInt32]
  · simp only [List.forall_mem_singleton]
    exact fun v => ⟨by decide, BitVec.isLt _⟩
  · exact fun _ => (by decide : 20 ≤ 256)
  · intro fs v hv
    exact Option.some.inj hv ▸ isInt32_int32Of fs 1
  · intro v hv _
    rw [int32Of_part (by simp) (by simp) hv]
  · exact ⟨_, rfl, rfl⟩

theorem account_standard : account.Standard := by
  refine .of_parts (fun s => [.bytes 1 s]) (fun fs => string (bytesOf fs 1)) (fun _ => rfl) (fun s => ?_)
    ?_ ?_ ?_ ?_ ?_
  · simp [account, Part.encode]
  · simp only [List.forall_mem_singleton]
    exact fun s => ⟨by decide, by decide⟩
  · intro s
    change 20 + (s.length + 0) ≤ 256 + s.length
    omega
  · exact fun _ _ => isUtf8_string
  · intro s hs _
    rw [bytesOf_part (by simp) (by simp : Part.bytes 1 s ∈ [Part.bytes 1 s])]
    exact string_of_isUtf8 hs
  · exact ⟨[], rfl, rfl⟩

theorem roleData_numbered (m : MsgBaseRoleData) : ∀ p ∈ roleDataParts m, p.Numbered := by
  simp only [roleDataParts, List.forall_mem_cons]
  exact ⟨⟨by decide, BitVec.isLt _⟩, ⟨by decide, by decide⟩, ⟨by decide, BitVec.isLt _⟩, ⟨by decide, BitVec.isLt _⟩,
    ⟨by decide, BitVec.isLt _⟩, ⟨by decide, BitVec.isLt _⟩, fun _ h => absurd h List.not_mem_nil⟩

theorem length_roleData_le (m : MsgBaseRoleData) : (roleData.serialize m).length ≤ 120 + texts m := by
  rw [roleData_serialize]
  have hlen := length_flatMap_encode_le (roleDataParts m)
  have htexts : ((roleDataParts m).map Part.texts).sum = texts m := by simp [roleDataParts, Part.texts, texts]
  rw [htexts] at hlen
  exact hlen

theorem roleData_standard : roleData.Standard := by
  refine .of_parts roleDataParts (fun fs => some ⟨BitVec.ofNat 64 (uintOf fs 1), bytesOf fs 2, int32Of fs 3,
    int32Of fs 4, int32Of fs 5, int32Of fs 6⟩) (fun _ => Option.map_eq_bind) roleData_serialize roleData_numbered
      ?_ ?_ ?_ ?_
  · intro m
    have htexts : ((roleDataParts m).map Part.texts).sum = texts m := by simp [roleDataParts, Part.texts, texts]
    rw [htexts]
    exact Nat.add_le_add_right (by decide : 120 ≤ 256) _
  · intro fs m hm
    rw [← Option.some.inj hm]
    exact ⟨isInt32_int32Of fs 3, isInt32_int32Of fs 4, isInt32_int32Of fs 5, isInt32_int32Of fs 6⟩
  · rintro m ⟨hrace, hsex, hhp, hlevel⟩ -
    have hnodup : ((roleDataParts m).map Part.number).Nodup := by simp [roleDataParts, Part.number]
    have hroleId : uintOf ((roleDataParts m).flatMap Part.fields) 1 = m.roleId.toNat :=
      uintOf_part hnodup (by simp [roleDataParts])
    have hnick : bytesOf ((roleDataParts m).flatMap Part.fields) 2 = m.nickName :=
      bytesOf_part hnodup (by simp [roleDataParts])
    rw [hroleId, hnick, int32Of_part hnodup (by simp [roleDataParts]) hrace,
      int32Of_part hnodup (by simp [roleDataParts]) hsex, int32Of_part hnodup (by simp [roleDataParts]) hhp,
      int32Of_part hnodup (by simp [roleDataParts]) hlevel, BitVec.ofNat_toNat, BitVec.setWidth_eq]
  · exact ⟨_, rfl, rfl⟩

/-- A role in a message comes back. -/
theorem roleData_roundTrip {d : MsgBaseRoleData} (hd : Valid d) {parts : List Part} {n : ℕ}
    (hmem : Part.message n (roleData.serialize d) ∈ parts) (hlen : (parts.flatMap Part.encode).length < 2 ^ 31) :
    roleData.parse (roleData.serialize d) = some d :=
  roleData_standard.roundTrip d hd ((length_le_encode (Or.inr hmem)).trans_lt hlen)

theorem ofRoleData_standard : (ofRoleData 1).Standard := by
  have hserialize : ∀ d : MsgBaseRoleData, (ofRoleData 1).serialize d =
      [Part.message 1 (roleData.serialize d)].flatMap Part.encode := by
    intro d
    simp [ofRoleData, Part.encode]
  refine .of_parts (fun d => [.message 1 (roleData.serialize d)]) (fun fs => roleData.parse (messageOf fs 1))
    (fun _ => rfl) hserialize ?_ ?_ ?_ ?_ ?_
  · simp only [List.forall_mem_singleton]
    exact fun d => ⟨by decide, by decide⟩
  · intro d
    have hlen := length_roleData_le d
    change 20 + ((roleData.serialize d).length + 0) ≤ 256 + texts d
    omega
  · exact fun fs d => roleData_standard.valid _ d
  · intro d hd hlen
    rw [hserialize] at hlen
    have hmem : Part.message 1 (roleData.serialize d) ∈ [Part.message 1 (roleData.serialize d)] :=
      List.mem_singleton_self _
    rw [messageOf_part (by simp) hmem]
    exact roleData_roundTrip hd hmem hlen
  · exact ⟨_, rfl, rfl⟩

theorem connectGateResponse_standard : connectGateResponse.Standard := by
  let parts (m : MsgConnectGateResponse) : List Part :=
    [.uint 1 (BitVec.ofInt 64 m.maxUserCount).toNat, .uint 2 (BitVec.ofInt 64 m.startUserId).toNat]
  refine .of_parts parts (fun fs => some ⟨int32Of fs 1, int32Of fs 2⟩) (fun _ => Option.map_eq_bind) (fun m => ?_)
    ?_ ?_ ?_ ?_ ?_
  · simp [connectGateResponse, parts, Part.encode, encodeInt32]
  · simp only [parts, List.forall_mem_cons]
    exact fun m => ⟨⟨by decide, BitVec.isLt _⟩, ⟨by decide, BitVec.isLt _⟩, fun _ h => absurd h List.not_mem_nil⟩
  · exact fun m => (by decide : 40 ≤ 256)
  · intro fs m hm
    exact Option.some.inj hm ▸ ⟨isInt32_int32Of fs 1, isInt32_int32Of fs 2⟩
  · rintro m ⟨hmax, hstart⟩ -
    have hnodup : ((parts m).map Part.number).Nodup := by simp [parts, Part.number]
    rw [int32Of_part hnodup (by simp [parts]) hmax, int32Of_part hnodup (by simp [parts]) hstart]
  · exact ⟨_, rfl, rfl⟩

theorem createRoleRequest_standard : createRoleRequest.Standard := by
  let parts (m : MsgCreateRoleRequest) : List Part := [.bytes 1 m.account, .bytes 2 m.nickName,
    .uint 3 (BitVec.ofInt 64 m.sex).toNat, .uint 4 (BitVec.ofInt 64 m.race).toNat]
  refine .of_parts parts (fun fs => (string (bytesOf fs 1)).map fun a => ⟨a, bytesOf fs 2, int32Of fs 3, int32Of fs 4⟩)
    (fun _ => rfl) (fun m => ?_) ?_ ?_ ?_ ?_ ?_
  · simp [createRoleRequest, parts, Part.encode, encodeInt32]
  · simp only [parts, List.forall_mem_cons]
    exact fun m => ⟨⟨by decide, by decide⟩, ⟨by decide, by decide⟩, ⟨by decide, BitVec.isLt _⟩,
      ⟨by decide, BitVec.isLt _⟩, fun _ h => absurd h List.not_mem_nil⟩
  · intro m
    change 80 + (m.account.length + (m.nickName.length + 0)) ≤ 256 + (m.account.length + m.nickName.length)
    omega
  · intro fs m hm
    obtain ⟨a, ha, rfl⟩ := Option.map_eq_some_iff.1 hm
    exact ⟨isUtf8_string ha, isInt32_int32Of fs 3, isInt32_int32Of fs 4⟩
  · rintro m ⟨haccount, hsex, hrace⟩ -
    have hnodup : ((parts m).map Part.number).Nodup := by simp [parts, Part.number]
    have hstring : bytesOf ((parts m).flatMap Part.fields) 1 = m.account := bytesOf_part hnodup (by simp [parts])
    have hnick : bytesOf ((parts m).flatMap Part.fields) 2 = m.nickName := bytesOf_part hnodup (by simp [parts])
    rw [hstring, hnick, string_of_isUtf8 haccount, int32Of_part hnodup (by simp [parts]) hsex,
      int32Of_part hnodup (by simp [parts]) hrace, Option.map_some]
  · exact ⟨_, rfl, rfl⟩

theorem roleResponse_standard : roleResponse.Standard := by
  let parts (m : MsgRoleResponse) : List Part := [.bytes 1 m.account, .message 2 (roleData.serialize m.roleData)]
  have hserialize : ∀ m : MsgRoleResponse, roleResponse.serialize m = (parts m).flatMap Part.encode := by
    intro m
    simp [roleResponse, parts, Part.encode]
  refine .of_parts parts (fun fs => (string (bytesOf fs 1)).bind fun a =>
    (roleData.parse (messageOf fs 2)).map fun d => ⟨a, d⟩) (fun _ => rfl) hserialize ?_ ?_ ?_ ?_ ?_
  · simp only [parts, List.forall_mem_cons]
    exact fun m => ⟨⟨by decide, by decide⟩, ⟨by decide, by decide⟩, fun _ h => absurd h List.not_mem_nil⟩
  · intro m
    have hlen := length_roleData_le m.roleData
    change 40 + (m.account.length + ((roleData.serialize m.roleData).length + 0)) ≤
      256 + (m.account.length + texts m.roleData)
    omega
  · intro fs m hm
    obtain ⟨a, ha, hdata⟩ := Option.bind_eq_some_iff.1 hm
    obtain ⟨d, hd, rfl⟩ := Option.map_eq_some_iff.1 hdata
    exact ⟨isUtf8_string ha, roleData_standard.valid _ d hd⟩
  · rintro m ⟨haccount, hdata⟩ hlen
    rw [hserialize] at hlen
    have hnodup : ((parts m).map Part.number).Nodup := by simp [parts, Part.number]
    have hstring : bytesOf ((parts m).flatMap Part.fields) 1 = m.account := bytesOf_part hnodup (by simp [parts])
    have hmem : Part.message 2 (roleData.serialize m.roleData) ∈ parts m := by simp [parts]
    rw [hstring, messageOf_part hnodup hmem, string_of_isUtf8 haccount, Option.bind_some,
      roleData_roundTrip hdata hmem hlen, Option.map_some]
  · exact ⟨_, rfl, rfl⟩

theorem setRoleData_standard : setRoleData.Standard := by
  let parts (m : MsgRoleData) : List Part := [.uint 1 m.roleId.toNat, .message 2 (roleData.serialize m.roleData)]
  have hserialize : ∀ m : MsgRoleData, setRoleData.serialize m = (parts m).flatMap Part.encode := by
    intro m
    simp [setRoleData, parts, Part.encode]
  refine .of_parts parts (fun fs => (roleData.parse (messageOf fs 2)).map fun d => ⟨BitVec.ofNat 64 (uintOf fs 1), d⟩)
    (fun _ => rfl) hserialize ?_ ?_ ?_ ?_ ?_
  · simp only [parts, List.forall_mem_cons]
    exact fun m => ⟨⟨by decide, BitVec.isLt _⟩, ⟨by decide, by decide⟩, fun _ h => absurd h List.not_mem_nil⟩
  · intro m
    have hlen := length_roleData_le m.roleData
    change 40 + (0 + ((roleData.serialize m.roleData).length + 0)) ≤ 256 + texts m.roleData
    omega
  · intro fs m hm
    obtain ⟨d, hd, rfl⟩ := Option.map_eq_some_iff.1 hm
    exact roleData_standard.valid _ d hd
  · intro m hdata hlen
    rw [hserialize] at hlen
    have hnodup : ((parts m).map Part.number).Nodup := by simp [parts, Part.number]
    have hroleId : uintOf ((parts m).flatMap Part.fields) 1 = m.roleId.toNat := uintOf_part hnodup (by simp [parts])
    have hmem : Part.message 2 (roleData.serialize m.roleData) ∈ parts m := by simp [parts]
    rw [hroleId, messageOf_part hnodup hmem, roleData_roundTrip hdata hmem hlen, Option.map_some, BitVec.ofNat_toNat,
      BitVec.setWidth_eq]
  · exact ⟨_, rfl, rfl⟩

theorem chat_standard : chat.Standard := by
  let parts (m : MsgChat) : List Part := [.bytes 1 m.content, .uint 2 m.chatType.toNat, .uint 3 m.channel.toNat,
    .uint 4 m.roleId.toNat]
  refine .of_parts parts (fun fs => some ⟨bytesOf fs 1, BitVec.ofNat 32 (uintOf fs 2), BitVec.ofNat 32 (uintOf fs 3),
    BitVec.ofNat 64 (uintOf fs 4)⟩) (fun _ => Option.map_eq_bind) (fun m => ?_) ?_ ?_ ?_ ?_ ?_
  · simp [chat, parts, Part.encode]
  · simp only [parts, List.forall_mem_cons]
    exact fun m => ⟨⟨by decide, by decide⟩, ⟨by decide, m.chatType.isLt.trans (by decide)⟩,
      ⟨by decide, m.channel.isLt.trans (by decide)⟩, ⟨by decide, m.roleId.isLt⟩, fun _ h => absurd h List.not_mem_nil⟩
  · intro m
    change 80 + (m.content.length + 0) ≤ 256 + m.content.length
    omega
  · exact fun _ _ _ => trivial
  · intro m _ _
    have hnodup : ((parts m).map Part.number).Nodup := by simp [parts, Part.number]
    have hcontent : bytesOf ((parts m).flatMap Part.fields) 1 = m.content := bytesOf_part hnodup (by simp [parts])
    have htype : uintOf ((parts m).flatMap Part.fields) 2 = m.chatType.toNat := uintOf_part hnodup (by simp [parts])
    have hchannel : uintOf ((parts m).flatMap Part.fields) 3 = m.channel.toNat := uintOf_part hnodup (by simp [parts])
    have hroleId : uintOf ((parts m).flatMap Part.fields) 4 = m.roleId.toNat := uintOf_part hnodup (by simp [parts])
    simp only [hcontent, htype, hchannel, hroleId, BitVec.ofNat_toNat, BitVec.setWidth_eq]
  · exact ⟨_, rfl, rfl⟩

theorem item_standard : item.Standard where
  length m := (length_item_le m).trans (by decide : 60 ≤ 256)
  valid _ _ _ := trivial
  roundTrip m _ _ := item_round_trip m
  empty := ⟨_, rfl, rfl⟩

end Wire

theorem wire_standard : wire.Standard where
  connectGateRequest := Wire.int32_standard
  connectGateResponse := Wire.connectGateResponse_standard
  gt2gsGetRoleRequest := Wire.account_standard
  gs2gtGetRoleResponse := Wire.roleResponse_standard
  gt2gsCreateRoleRequest := Wire.createRoleRequest_standard
  gs2gtCreateRoleResponse := Wire.roleResponse_standard
  enterGameRequest := Wire.uint64_standard
  leaveGameRequest := Wire.uint64_standard
  s2cCreateRoleResponse := Wire.ofRoleData_standard
  s2cEnterGameResponse := Wire.unit_standard
  chatNotify := Wire.chat_standard
  setRoleDataRequest := Wire.ofRoleData_standard
  connectDBRequest := Wire.int32_standard
  connectDBResponse := Wire.unit_standard
  gs2dsGetRoleRequest := Wire.account_standard
  ds2gsGetRoleResponse := Wire.roleResponse_standard
  gs2dsCreateRoleRequest := Wire.createRoleRequest_standard
  ds2gsCreateRoleResponse := Wire.roleResponse_standard
  gs2dsSetRoleDataRequest := Wire.setRoleData_standard
  ds2gsSetRoleDataResponse := Wire.setRoleData_standard
  addItemRequest := Wire.item_standard
  addItemResponse := Wire.item_standard
  error := (length_encodeUint_le 1 ProtoErrorType.getRoleNone.code).trans (by decide)
  created account d := by
    -- the numbers of the two fields are written alike
    have htag : (encodeVarint 10 (8 * 1 + 2)).length = (encodeVarint 10 (8 * 2 + 2)).length := rfl
    change (encodeMessage 1 _).length ≤ (encodeBytes 1 account ++ encodeMessage 2 _).length
    rw [List.length_append]
    simp only [encodeMessage, List.length_append, htag]
    exact Nat.le_add_left _ _

end JmyGame
