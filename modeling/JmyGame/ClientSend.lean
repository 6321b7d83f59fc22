import JmyGame.NetFlow
import JmyGame.ClientReceive

/-! The send path of the client of `network_test`: the pack functions of `net_proto` and `SendMsg`. What the
client puts on its stream are the packets of the server's own format, so that a connection of the server reads
them one after the other and unpacks the messages. -/

namespace JmyGame

open CArith Block

namespace NetProto

/-- `pack_int16_to_buff`. The value is promoted to `int` before it is shifted. -/
def packInt16ToBuff (value : BitVec 16) (byteData : List Byte) (offset : ℕ) : List Byte :=
  write byteData offset [byteOf 1 (value.signExtend 32), byteOf 0 (value.signExtend 32)]

/-- `net_proto_user_data_pack_len`, with a `ushort` for the length. -/
def userDataPackLen (dataLen : BitVec 16) : ℕ := lenHead + lenType + lenMsgId + dataLen.toNat

/-- `net_proto_pack_user_data_head`: the array behind it and the length of the head. -/
def packUserDataHead (byteData : List Byte) (msgId : BitVec 32) (dataLen : BitVec 16) : Option (List Byte × ℕ) :=
  let packLen := userDataPackLen dataLen
  if byteData.length < packLen - dataLen.toNat then none
  else
    let head := packInt16ToBuff ((BitVec.ofNat 32 (packLen - lenHead)).setWidth 16) byteData 0
    let typed := write head 2 [5]
    some (packInt16ToBuff (msgId.setWidth 16) typed 3, userDataPackLen 0)

end NetProto

open NetProto

/-- `SendMsg`: its result and the send list behind it. The offset is not used, and where the data does not fit
behind the head, `CopyTo` throws. -/
def sendMsg (sendList : List (List Byte)) (msgId : BitVec 32) (byteData : List Byte) (_offset : BitVec 32)
    (dataLen : BitVec 16) : Option (ℤ × List (List Byte)) :=
  let msg := List.replicate (NetProto.userDataPackLen dataLen) 0
  match NetProto.packUserDataHead msg msgId dataLen with
  | none => some (-1, sendList)
  | some (msg, headLen) =>
    if msg.length < headLen + byteData.length then none
    else some (1, sendList ++ [write msg headLen byteData])

/-- A message and its data, which is sent whole. -/
structure ClientMsg where
  msgId : BitVec 32
  byteData : List Byte
  deriving DecidableEq, Repr

/-- The message id and the data can be packed. -/
def ClientMsg.Ok (m : ClientMsg) : Prop := m.msgId.toNat ≤ 65535 ∧ m.byteData.length ≤ 65530

/-- The send list behind a sequence of sends that all succeed. -/
def sendMsgs : List (List Byte) → List ClientMsg → Option (List (List Byte))
  | sendList, [] => some sendList
  | sendList, m :: ms =>
    (sendMsg sendList m.msgId m.byteData 0 (BitVec.ofNat 16 m.byteData.length)).bind fun r =>
      if r.1 < 0 then none else sendMsgs r.2 ms

/-- The two low bytes of an integer do not change when it is cut to 16 bits and promoted again. -/
theorem byteOf_short {w : ℕ} (hw : 16 ≤ w) (x : BitVec w) {k : ℕ} (hk : k < 2) :
    byteOf k ((x.setWidth 16).signExtend 32) = byteOf k x := by
  rw [byteOf_eq_extract k _ (by omega), byteOf_eq_extract k _ (by omega)]
  apply BitVec.eq_of_getLsbD_eq
  intro i hi
  have h16 : 8 * k + i < 16 := by omega
  have h32 : 8 * k + i < 32 := by omega
  simp only [BitVec.getLsbD_extractLsb', hi, decide_true, Bool.true_and, BitVec.getLsbD_signExtend, h32, h16,
    if_true, BitVec.getLsbD_setWidth]

/-- The packet that a message is sent as. -/
def ClientMsg.packet (m : ClientMsg) : UserPacket := .data m.msgId m.byteData

theorem ClientMsg.Ok.packet {m : ClientMsg} (h : m.Ok) : m.packet.Ok := h

/-- The bytes of a message are those of the server's packet. -/
theorem sendMsg_eq (sendList : List (List Byte)) {m : ClientMsg} (h : m.Ok) (offset : BitVec 32) :
    sendMsg sendList m.msgId m.byteData offset (BitVec.ofNat 16 m.byteData.length) =
      some (1, sendList ++ [m.packet.wire]) := by
  obtain ⟨msgId, byteData⟩ := m
  have hlen : (BitVec.ofNat 16 byteData.length).toNat = byteData.length := by
    rw [BitVec.toNat_ofNat]
    exact Nat.mod_eq_of_lt (lt_of_le_of_lt h.2 (by decide))
  have hpackLen : NetProto.userDataPackLen (BitVec.ofNat 16 byteData.length) = byteData.length + 5 := by
    rw [NetProto.userDataPackLen, hlen, lenHead, lenType, lenMsgId]
    omega
  have hmsg : List.replicate (byteData.length + 5) (0 : Byte) = [0, 0, 0, 0, 0] ++ List.replicate byteData.length 0 :=
    rfl
  -- the head is written over the first five bytes of the new array
  have hhead : NetProto.packUserDataHead (List.replicate (byteData.length + 5) 0) msgId
      (BitVec.ofNat 16 byteData.length) =
        some (packHead (byteData.length + 5) .userData ++ packInt16 msgId ++ List.replicate byteData.length 0, 5) := by
    unfold NetProto.packUserDataHead
    rw [hpackLen, hlen, if_neg (by rw [List.length_replicate]; omega), hmsg]
    unfold NetProto.packInt16ToBuff
    rw [byteOf_short (by decide) _ (by decide), byteOf_short (by decide) _ (by decide),
      byteOf_short (by decide) _ (by decide), byteOf_short (by decide) _ (by decide)]
    rfl
  have hwire : (UserPacket.data msgId byteData).wire =
      packHead (byteData.length + 5) .userData ++ packInt16 msgId ++ byteData := by
    have hbody : (UserPacket.data msgId byteData).body = packInt16 msgId ++ byteData := rfl
    have htotal : lenHead + lenType + (packInt16 msgId ++ byteData).length = byteData.length + 5 := by
      rw [List.length_append, length_packInt16, lenHead, lenType]
      omega
    rw [UserPacket.wire, hbody, htotal, ← List.append_assoc]
    rfl
  have hfull : (packHead (byteData.length + 5) .userData ++ packInt16 msgId ++
      List.replicate byteData.length (0 : Byte)).length = 5 + byteData.length := by
    rw [List.length_append, List.length_append, length_packHead, length_packInt16, List.length_replicate]
  have hcopy : write (packHead (byteData.length + 5) .userData ++ packInt16 msgId ++
      List.replicate byteData.length 0) 5 byteData = (UserPacket.data msgId byteData).wire := by
    have hfive : (packHead (byteData.length + 5) .userData ++ packInt16 msgId).length = 5 := rfl
    rw [write, List.take_left' hfive, List.drop_eq_nil_of_le (by rw [hfull]), List.append_nil, hwire]
  unfold sendMsg
  rw [hpackLen]
  dsimp only
  rw [hhead]
  dsimp only
  rw [if_neg (by rw [hfull]; omega), hcopy]
  rfl

theorem sendMsgs_eq (sendList : List (List Byte)) {ms : List ClientMsg} (h : ∀ m ∈ ms, m.Ok) :
    sendMsgs sendList ms = some (sendList ++ ms.map fun m => m.packet.wire) := by
  induction ms generalizing sendList with
  | nil => exact congrArg some (List.append_nil sendList).symm
  | cons m ms ih =>
      rw [sendMsgs, sendMsg_eq sendList (h m List.mem_cons_self), Option.bind_some,
        if_neg (show ¬(1 : ℤ) < 0 by decide), ih _ fun m' hm' => h m' (List.mem_cons_of_mem m hm'), List.map_cons,
        List.append_assoc]
      rfl

/-- The messages that `jmy_net_proto2_unpack_data` finds in the packets of a receive list. -/
def unpackMessages (past : ℕ → Byte) (connId : ℤ) :
    JmyPacketUnpackData2 → List Buffer → Option (List (BitVec 32 × List Byte))
  | _, [] => some []
  | data, buff :: buffs =>
    let r := unpackData past (.ofCode (BitVec.ofNat 32 buff.woffset)) buff.data data connId
    if r.1 < 0 then none
    else (unpackMessages past connId r.2 buffs).map fun ms =>
      (r.2.msgInfo.msgId, r.2.msgInfo.data.take r.2.msgInfo.len) :: ms

theorem unpackMessages_entries (past : ℕ → Byte) (connId : ℤ) (data : JmyPacketUnpackData2) {ms : List ClientMsg}
    (h : ∀ m ∈ ms, m.Ok) :
    unpackMessages past connId data (ms.map fun m => m.packet.entry) =
      some (ms.map fun m => (m.msgId, m.byteData)) := by
  induction ms generalizing data with
  | nil => rfl
  | cons m ms ih =>
      obtain ⟨hhandled, -, hinfo⟩ := (h m List.mem_cons_self).packet.decodes past connId data
      rw [List.map_cons, unpackMessages, UserPacket.ofCode_entry, show m.packet.entry.data = m.packet.body from rfl,
        hhandled, if_neg (by omega), hinfo, ih _ fun m' hm' => h m' (List.mem_cons_of_mem m hm')]
      exact congrArg (fun payload => some ((m.msgId, payload) :: _)) List.take_length

/-- A connection of the server that has read some of the packets, with the bytes of the others ahead. -/
def Receiver.Holds (ps : List UserPacket) (s : Receiver) : Prop :=
  s.offset ≤ s.stream.length ∧ ∃ q rest, q ++ rest = ps ∧ Receives s.conn q rest (s.stream.drop s.offset)

variable {ps : List UserPacket} {s t : Receiver}

theorem window_eq_take (bs : List Byte) (lo n : ℕ) : window bs lo (lo + n) = (bs.drop lo).take n := by
  rw [window, List.drop_take, Nat.add_sub_cancel_left]

/-- Every read leaves the connection between two packets or inside one. -/
theorem Receiver.Holds.read (h : s.Holds ps) {i : ℕ} (hstep : s.step (.read i) = some t) : t.Holds ps := by
  obtain ⟨hle, q, rest, hps, hrecv⟩ := h
  obtain ⟨p, n, c', hp, hn, hlen, hc', rfl⟩ := Receiver.step_read hstep
  rw [window_eq_take] at hc'
  have hbytes : n ≤ (s.stream.drop s.offset).length := by
    rw [List.length_drop]
    omega
  refine ⟨hlen, ?_⟩
  rw [← List.drop_drop]
  rcases hrecv.awaits with ⟨hr, hwires⟩ | ⟨m, ms, rfl, hr, hbody⟩
  · exact ⟨q, rest, hps, (hrecv.readHead hr hwires hp hn hbytes hc').1⟩
  · refine ⟨q ++ [m], ms, ?_, (hrecv.readBody hr hbody hp hn hc').1⟩
    rw [← hps, List.append_assoc]
    rfl

/-- Behind its last byte the stream is read in full. -/
theorem Receiver.Holds.entries (h : s.Holds ps) (hend : s.offset = s.stream.length) :
    s.conn.buffer.recvBuffList.usingList = ps.map UserPacket.entry := by
  obtain ⟨-, q, rest, hps, hrecv⟩ := h
  rw [hend, List.drop_length] at hrecv
  have hrest : rest = [] := by
    rcases hrecv.awaits with ⟨-, hwires⟩ | ⟨m, ms, rfl, -, hbody⟩
    · cases rest with
      | nil => rfl
      | cons m ms => exact absurd (List.append_eq_nil_iff.1 hwires.symm).1 m.wire_ne_nil
    · have hlen := (hrecv.ok m (List.mem_append_right q List.mem_cons_self)).length_body
      rw [(List.append_eq_nil_iff.1 hbody.symm).1] at hlen
      exact absurd hlen.1 (by decide)
  rw [hrecv.recv, ← hps, hrest, List.append_nil]

/-- As long as there are bytes, a read can go on. -/
theorem Receiver.Holds.exists_read (h : s.Holds ps) (hlt : s.offset < s.stream.length) :
    ∃ i t, s.step (.read i) = some t ∧ t.stream = s.stream ∧ s.offset < t.offset := by
  obtain ⟨-, q, rest, -, hrecv⟩ := h
  have hdrop : (s.stream.drop s.offset).length = s.stream.length - s.offset := List.length_drop
  rcases hrecv.awaits with ⟨hr, hwires⟩ | ⟨m, ms, rfl, hr, hbody⟩
  · cases rest with
    | nil =>
        rw [hwires] at hdrop
        exact absurd hdrop (by simp only [wires, List.flatMap_nil, List.length_nil]; omega)
    | cons m ms =>
        have hlen : 3 ≤ (s.stream.drop s.offset).length := by
          rw [hwires, wires, List.flatMap_cons, List.length_append, UserPacket.length_wire]
          omega
        obtain ⟨i, c', hstep, -⟩ := hr.head (show s.offset + 3 ≤ s.stream.length by omega)
        exact ⟨i, _, hstep, rfl, Nat.lt_add_of_pos_right (by decide)⟩
  · have hbodyLen := (hrecv.ok m (List.mem_append_right q List.mem_cons_self)).length_body
    have hlen : m.body.length ≤ (s.stream.drop s.offset).length := by
      rw [hbody, List.length_append]
      omega
    obtain ⟨i, c', hstep, -⟩ := hr.body (show s.offset + m.body.length ≤ s.stream.length by omega)
    exact ⟨i, _, hstep, rfl, Nat.lt_add_of_pos_right (by omega)⟩

/-- Only reads happen to the connection. -/
def ReadsOnly (es : List ReceiverEvent) : Prop := ∀ e ∈ es, ∃ i, e = .read i

theorem Receiver.Holds.run (h : s.Holds ps) {es : List ReceiverEvent} (hes : ReadsOnly es)
    (hrun : receiverMachine.run s es = some t) : t.Holds ps ∧ t.stream = s.stream := by
  refine Machine.invariant_along (I := fun t => t.Holds ps ∧ t.stream = s.stream) ?_ ⟨h, rfl⟩
    (Machine.along_of_forall hes) hrun
  rintro s₁ _ s₂ ⟨hs₁, hstream⟩ ⟨i, rfl⟩ hstep
  obtain ⟨p, n, c', -, -, -, -, rfl⟩ := Receiver.step_read hstep
  exact ⟨hs₁.read hstep, hstream⟩

/-- The stream can be read to its end. -/
theorem Receiver.Holds.exists_run (h : s.Holds ps) :
    ∃ es t, ReadsOnly es ∧ receiverMachine.run s es = some t ∧ t.offset = t.stream.length ∧ t.stream = s.stream := by
  obtain ⟨n, hn⟩ : ∃ n, n = s.stream.length - s.offset := ⟨_, rfl⟩
  induction n using Nat.strong_induction_on generalizing s with
  | _ n ih =>
      rcases h.1.eq_or_lt with hend | hlt
      · exact ⟨[], s, fun e he => absurd he List.not_mem_nil, rfl, hend, rfl⟩
      · obtain ⟨i, s', hstep, hstream, hoffset⟩ := h.exists_read hlt
        obtain ⟨es, t, hes, hrun, hend, hsame⟩ := ih _ (by rw [hn, hstream]; omega) (h.read hstep) rfl
        refine ⟨.read i :: es, t, List.forall_mem_cons.2 ⟨⟨i, rfl⟩, hes⟩, ?_, hend, hsame.trans hstream⟩
        rw [Machine.run, show receiverMachine.step s (.read i) = some s' from hstep, Option.bind_some, hrun]

/-- Messages that the client sends whole, one after the other, are queued as packets whose bytes a connection of
the server can read to the end, and however it reads them, unpacking its receive list gives the messages with
their data. -/
theorem server_decodes_client {c : JmyTcpConnection} (hc : Reading .readHead c)
    (hempty : c.buffer.recvBuffList.usingList = []) {ms : List ClientMsg} (hms : ∀ m ∈ ms, m.Ok) :
    ∃ packets, sendMsgs [] ms = some packets ∧
      (∃ es t, ReadsOnly es ∧ receiverMachine.run ⟨c, packets.flatten, 0⟩ es = some t ∧
        t.offset = packets.flatten.length) ∧
      ∀ es t, ReadsOnly es → receiverMachine.run ⟨c, packets.flatten, 0⟩ es = some t →
        t.offset = packets.flatten.length → ∀ past connId data,
          unpackMessages past connId data t.conn.buffer.recvBuffList.usingList =
            some (ms.map fun m => (m.msgId, m.byteData)) := by
  have hflatten : (ms.map fun m => m.packet.wire).flatten = wires (ms.map ClientMsg.packet) := by
    rw [wires, List.flatMap_map, List.flatMap_def]
  have hstart : Receiver.Holds (ms.map ClientMsg.packet) ⟨c, (ms.map fun m => m.packet.wire).flatten, 0⟩ := by
    refine ⟨Nat.zero_le _, [], ms.map ClientMsg.packet, rfl, ?_, hempty, Or.inl ⟨hc, hflatten⟩⟩
    intro p hp
    obtain ⟨m, hm, rfl⟩ := List.mem_map.1 hp
    exact (hms m hm).packet
  refine ⟨_, sendMsgs_eq [] hms, ?_, ?_⟩
  · obtain ⟨es, t, hes, hrun, hend, hstream⟩ := hstart.exists_run
    exact ⟨es, t, hes, hrun, hend.trans (congrArg List.length hstream)⟩
  · intro es t hes hrun hend past connId data
    obtain ⟨hholds, hstream⟩ := hstart.run hes hrun
    have hentries := hholds.entries (hend.trans (congrArg List.length hstream.symm))
    rw [hentries, List.map_map]
    exact unpackMessages_entries past connId data hms

/-- A client that sends two messages, the second one with a large id and without data. -/
theorem server_decodes_two :
    ∃ packets, sendMsgs [] [⟨1, [7]⟩, ⟨65535, []⟩] = some packets ∧
      ∃ es t, ReadsOnly es ∧ receiverMachine.run ⟨accepted 1, packets.flatten, 0⟩ es = some t ∧
        unpackMessages (fun _ => 0) 1 .init t.conn.buffer.recvBuffList.usingList = some [(1, [7]), (65535, [])] := by
  have hms : ∀ m ∈ ([⟨1, [7]⟩, ⟨65535, []⟩] : List ClientMsg), m.Ok := by
    intro m hm
    rcases List.mem_pair.1 hm with rfl | rfl <;> exact ⟨by decide, by decide⟩
  obtain ⟨packets, hsend, ⟨es, t, hes, hrun, hend⟩, hall⟩ := server_decodes_client (reading_accepted 1) rfl hms
  exact ⟨packets, hsend, es, t, hes, hrun, hall es t hes hrun hend (fun _ => 0) 1 .init⟩

end JmyGame
