import JmyGame.ClientReceive

/-! What the client makes of the packets of the server. For every packet it waits for one byte more than the
packet has. The first message that it hands to a handler has a byte too many, or it is dropped; in neither case
can the bytes of the server give the messages that were sent. -/

namespace JmyGame

open CArith NetProto JmySessionBufferList

/-- Packets that the server writes one after the other with `writeUserData`. -/
def writeUserPackets : List (BitVec 32 × List Byte) → JmySessionBufferList → Option JmySessionBufferList
  | [], l => some l
  | (msgId, payload) :: packets, l =>
    (writeUserData l msgId payload).bind fun r => if r.1 < 0 then none else writeUserPackets packets r.2

/-- The bytes that the server sends for the packets. -/
def serverStream (packets : List (BitVec 32 × List Byte)) : Option (List Byte) :=
  (writeUserPackets packets (.init 0 0)).map unread

/-- The bytes of one packet. -/
def packetWire (p : BitVec 32 × List Byte) : List Byte := (UserPacket.data p.1 p.2).wire

/-- Message ids and payloads for which packets are made. -/
def PacketOk (p : BitVec 32 × List Byte) : Prop := p.1.toNat ≤ 65535 ∧ p.2.length ≤ 65530

theorem writeUserPackets_eq {packets : List (BitVec 32 × List Byte)} (hok : ∀ p ∈ packets, PacketOk p)
    {l : JmySessionBufferList} (hl : l.Sound) :
    ∃ l', writeUserPackets packets l = some l' ∧ l'.unread = l.unread ++ packets.flatMap packetWire := by
  induction packets generalizing l with
  | nil => exact ⟨l, rfl, (List.append_nil _).symm⟩
  | cons p packets ih =>
      obtain ⟨hp, hrest⟩ := List.forall_mem_cons.1 hok
      have hpacket : (UserPacket.data p.1 p.2).Ok := hp
      have hlen : p.2.length < 2 ^ 16 := lt_of_le_of_lt hp.2 (by decide)
      have hwire := wire_data p.1 hlen
      obtain ⟨r, hr, hw⟩ := writeHeadAndData_sound hl (userDataHead_ne_nil p.1 p.2.length)
        (by rw [← List.length_append, ← hwire]; exact hpacket.length_wire_lt)
      rw [← hwire] at hw
      have hsound : Sound { l with usingList := l.usingList ++ [packetOf (UserPacket.data p.1 p.2).wire] } := by
        refine ⟨fun b hb => ?_, hl.maxBytes, hl.maxCount⟩
        rcases List.mem_append.1 hb with hb | hb
        · exact hl.queued b hb
        · rw [List.mem_singleton.1 hb]
          exact hpacket.queued
      obtain ⟨l', hl', hunread⟩ := ih hrest hsound
      refine ⟨l', ?_, ?_⟩
      · rw [writeUserPackets, writeUserData_eq, hw, Option.bind_some, if_neg (not_lt.2 hr)]
        exact hl'
      · rw [hunread, unread, List.flatMap_append, List.flatMap_singleton, unread_packetOf,
          List.flatMap_cons, List.append_assoc]
        rfl

theorem serverStream_eq {packets : List (BitVec 32 × List Byte)} (hok : ∀ p ∈ packets, PacketOk p) :
    serverStream packets = some (packets.flatMap packetWire) := by
  obtain ⟨l, hl, hunread⟩ := writeUserPackets_eq hok sound_init
  rw [serverStream, hl, Option.map_some, hunread]
  rfl

theorem length_packetWire (p : BitVec 32 × List Byte) : (packetWire p).length = p.2.length + 5 := by
  rw [packetWire, UserPacket.length_wire, UserPacket.body, List.length_append, length_packInt16]
  omega

theorem toUshort_unpackInt16FromBuff (b0 b1 : Byte) :
    toUshort (unpackInt16FromBuff b0 b1) = b0.toNat * 256 + b1.toNat := by
  have h0 := b0.isLt
  have h1 := b1.isLt
  have hhigh : ((b0.setWidth 32 <<< 8) &&& 0xff00#32).toNat = b0.toNat * 256 := by
    have hmask : (0xff00#32) = 0xff#32 <<< 8 := rfl
    rw [hmask, ← BitVec.shiftLeft_and_distrib, BitVec.toNat_shiftLeft, BitVec.toNat_and,
      BitVec.toNat_setWidth, Nat.shiftLeft_eq]
    change (b0.toNat % 2 ^ 32 &&& (2 ^ 8 - 1)) * 2 ^ 8 % 2 ^ 32 = _
    rw [Nat.and_two_pow_sub_one_eq_mod]
    omega
  have hlow : (b1.setWidth 32 &&& 0xff#32).toNat = b1.toNat := by
    rw [BitVec.toNat_and, BitVec.toNat_setWidth]
    change b1.toNat % 2 ^ 32 &&& (2 ^ 8 - 1) = _
    rw [Nat.and_two_pow_sub_one_eq_mod]
    omega
  have hint : ∀ x : BitVec 16, (x.toInt % 2 ^ 16).toNat = x.toNat := by
    intro x
    have hx := x.isLt
    rw [BitVec.toInt_eq_toNat_bmod]
    change ((x.toNat : ℤ).bmod (2 ^ 16) % ((2 ^ 16 : ℕ) : ℤ)).toNat = _
    rw [Int.bmod_emod]
    omega
  unfold toUshort unpackInt16FromBuff
  rw [hint, BitVec.toNat_setWidth, BitVec.toNat_add, hhigh, hlow]
  omega

/-- The client reads from the head of a packet one byte more than there are behind it. -/
theorem receiveCallback_head (c : AsynchronousClient) {p : BitVec 32 × List Byte} (hp : PacketOk p)
    (rest : List Byte) :
    c.receiveCallback ((packetWire p ++ rest).take 3) = c.recvPacket (p.2.length + 3) := by
  have hlen := hp.2
  have hpack : ∀ n : ℕ, n < 2 ^ 16 → ∃ b0 b1 : Byte, packInt16 (BitVec.ofNat 32 n) = [b0, b1] ∧
      b0.toNat * 256 + b1.toNat = n := by
    intro n hn
    refine ⟨_, _, rfl, ?_⟩
    rw [toNat_byteOf 1 _ (by decide), toNat_byteOf 0 _ (by decide), BitVec.toNat_ofNat]
    omega
  have hbody : lenHead + lenType + (UserPacket.data p.1 p.2).body.length - lenHead = p.2.length + 3 := by
    rw [UserPacket.body, List.length_append, length_packInt16, lenHead, lenType]
    omega
  obtain ⟨b0, b1, hbytes, hvalue⟩ := hpack (p.2.length + 3) (by omega)
  have hhead : (packetWire p ++ rest).take 3 = [b0, b1, 5] := by
    rw [packetWire, UserPacket.wire, packHead, hbody, hbytes]
    rfl
  unfold AsynchronousClient.receiveCallback
  rw [hhead]
  change (if AsynchronousClient.handlePacketType .userData = 0 then c.startReceive
    else c.recvPacket (toUshort (unpackInt16FromBuff b0 b1))) = _
  rw [if_neg (by decide), toUshort_unpackInt16FromBuff, hvalue]

/-- What is handed to the handler of a packet. -/
def messageOf (data : List Byte) : MsgInfo :=
  ⟨unpackInt16FromBuff (data.getD 0 0) (data.getD 1 0), data, 2, toUshort (data.length - (2 : ℕ))⟩

theorem length_payload_messageOf (data : List Byte) :
    (messageOf data).payload.length = min (toUshort (data.length - (2 : ℕ))) (data.length - 2) := by
  rw [MsgInfo.payload, List.length_take, messageOf, List.length_drop]

/-- The bytes that a message takes from the stream, if it was received as it is. -/
def messageWeight (m : MsgInfo) : ℕ := m.payload.length + 5

/-- The bytes that a packet took from the stream. -/
def packetWeight (data : List Byte) : ℕ := data.length + 3

theorem messageWeight_le {data : List Byte} (h : 2 ≤ data.length) :
    messageWeight (messageOf data) ≤ packetWeight data := by
  unfold messageWeight packetWeight
  rw [length_payload_messageOf]
  omega

namespace AsynchronousClient

variable {c c' : AsynchronousClient} {handlers : ℤ → Option (MsgInfo → ℤ)} {data : List Byte} {r : ℤ}

/-- A packet is handed to its handler, or there is no handler. -/
theorem handleOne_cases (h : c.handleOne handlers data = some (r, c')) :
    2 ≤ data.length ∧ ∃ d news, c' = { c with d := d, handled := c.handled ++ news } ∧
      (news = [messageOf data] ∨ news = [] ∧ r = 0) := by
  obtain _ | ⟨b0, _ | ⟨b1, rest⟩⟩ := data
  · cases h
  · cases h
  · refine ⟨Nat.le_add_left 2 rest.length, ?_⟩
    have hunpack : NetProto.unpackData .userData (b0 :: b1 :: rest) 0 (b0 :: b1 :: rest).length c.d =
        some (0, ⟨(messageOf (b0 :: b1 :: rest)).msgId, messageOf (b0 :: b1 :: rest)⟩) := rfl
    rw [handleOne, hunpack] at h
    dsimp only at h
    rw [if_neg (lt_irrefl 0)] at h
    split at h
    · cases h
      exact ⟨_, [], by rw [List.append_nil], Or.inr ⟨rfl, rfl⟩⟩
    · cases h
      exact ⟨_, _, rfl, Or.inl rfl⟩

/-- The handled messages do not weigh more than the packets. -/
theorem processLoop_weight {datas : List (List Byte)} (h : processLoop handlers datas c = some (r, c')) :
    ∃ d news, c' = { c with d := d, handled := c.handled ++ news } ∧
      (news.map messageWeight).sum ≤ (datas.map packetWeight).sum := by
  induction datas generalizing c with
  | nil =>
      cases h
      exact ⟨_, [], by rw [List.append_nil], le_refl _⟩
  | cons data datas ih =>
      rw [processLoop, Option.bind_eq_some_iff] at h
      obtain ⟨⟨r₁, c₁⟩, hone, hrest⟩ := h
      obtain ⟨hlen, d, news, rfl, hnews⟩ := handleOne_cases hone
      have hweight : (news.map messageWeight).sum ≤ packetWeight data := by
        rcases hnews with rfl | ⟨rfl, -⟩
        · exact (add_zero _).le.trans (messageWeight_le hlen)
        · exact Nat.zero_le _
      rw [List.map_cons, List.sum_cons]
      split_ifs at hrest
      · cases hrest
        exact ⟨d, news, rfl, by omega⟩
      · obtain ⟨d', news', rfl, hweight'⟩ := ih hrest
        refine ⟨d', news ++ news', ?_, ?_⟩
        · dsimp only
          rw [List.append_assoc]
        · rw [List.map_append, List.sum_append]
          omega

/-- The first packet is the first message, or nothing is handled for it. -/
theorem processLoop_first {datas : List (List Byte)}
    (h : processLoop handlers (data :: datas) c = some (r, c')) :
    ∃ d news, c' = { c with d := d, handled := c.handled ++ news } ∧
      ((∃ ms, news = messageOf data :: ms) ∨
        (news.map messageWeight).sum ≤ (datas.map packetWeight).sum) := by
  rw [processLoop, Option.bind_eq_some_iff] at h
  obtain ⟨⟨r₁, c₁⟩, hone, hrest⟩ := h
  obtain ⟨-, d, news, rfl, hnews⟩ := handleOne_cases hone
  split_ifs at hrest with hneg
  · cases hrest
    rcases hnews with rfl | ⟨-, rfl⟩
    · exact ⟨d, _, rfl, Or.inl ⟨[], rfl⟩⟩
    · exact absurd hneg (lt_irrefl 0)
  · obtain ⟨d', news', rfl, hweight⟩ := processLoop_weight hrest
    refine ⟨d', news ++ news', ?_, ?_⟩
    · dsimp only
      rw [List.append_assoc]
    · rcases hnews with rfl | ⟨rfl, -⟩
      · exact Or.inl ⟨news', rfl⟩
      · exact Or.inr hweight

/-- The bytes behind a head that has been read. -/
def receivingWeight : Option Receiving → ℕ
  | some (.packet _) => 3
  | _ => 0

/-- The bytes that the messages and packets of a client account for, with those that have still to come. -/
def weight (c : AsynchronousClient) : ℕ :=
  (c.handled.map messageWeight).sum + (c.receiveList.map packetWeight).sum + receivingWeight c.receiving +
    c.stream.length

/-- A receive hands nothing to a handler, and takes what it adds from the stream. -/
theorem receive_weight (h : c.step .receive = some c') :
    c'.weight ≤ c.weight ∧ c'.handled = c.handled ∧ ∃ datas, c'.receiveList = c.receiveList ++ datas := by
  cases hreading : c.receiving with
  | none => simp [step, hreading] at h
  | some reading =>
      cases reading with
      | head =>
          simp only [step, hreading] at h
          split_ifs at h with hlen
          cases h
          unfold receiveCallback
          split
          · refine ⟨?_, rfl, [], (List.append_nil _).symm⟩
            simp only [weight, receivingWeight, hreading, List.length_drop]
            omega
          · split_ifs
            · refine ⟨?_, rfl, [], (List.append_nil _).symm⟩
              simp only [weight, receivingWeight, hreading, startReceive, List.length_drop]
              omega
            · refine ⟨?_, rfl, [], (List.append_nil _).symm⟩
              simp only [weight, receivingWeight, hreading, recvPacket, List.length_drop]
              omega
      | packet n =>
          simp only [step, hreading] at h
          split_ifs at h with hlen
          cases h
          unfold receivePacketCallback
          split_ifs
          · refine ⟨?_, rfl, _, rfl⟩
            simp only [weight, receivingWeight, hreading, startReceive, List.length_drop, List.map_append,
              List.sum_append, List.map_singleton, List.sum_singleton, packetWeight, List.length_take]
            omega
          · refine ⟨?_, rfl, [], (List.append_nil _).symm⟩
            simp only [weight, receivingWeight, hreading, List.length_drop]
            omega

/-- `Run` may start the first receive; then it handles what has been received, and drops it. -/
theorem run_cases (h : c.run handlers = some c') :
    ∃ c₁ : AsynchronousClient, (c₁ = c ∨ c.isReceiving = false ∧ c₁ = { c.startReceive with isReceiving := true }) ∧
      (c.receiveList = [] ∧ c' = c₁ ∨ c.receiveList ≠ [] ∧
        ∃ r c₂, processLoop handlers c.receiveList c₁ = some (r, c₂) ∧ c' = { c₂ with receiveList := [] }) := by
  unfold run at h
  refine ⟨if c.isReceiving then c else { c.startReceive with isReceiving := true }, ?_, ?_⟩
  · split_ifs with hreceiving
    · exact Or.inl rfl
    · exact Or.inr ⟨by simpa using hreceiving, rfl⟩
  · have hlist : (if c.isReceiving then c else { c.startReceive with isReceiving := true }).receiveList =
        c.receiveList := by split_ifs <;> rfl
    dsimp only at h
    generalize (if c.isReceiving then c else { c.startReceive with isReceiving := true }) = c₁ at h hlist ⊢
    unfold processData at h
    rw [hlist] at h
    split_ifs at h with hnil
    · cases h
      exact Or.inl ⟨List.length_eq_zero_iff.1 hnil, rfl⟩
    · rw [Option.map_map, Option.map_eq_some_iff] at h
      obtain ⟨⟨r, c₂⟩, hloop, rfl⟩ := h
      exact Or.inr ⟨fun heq => hnil (List.length_eq_zero_iff.2 heq), r, c₂, hloop, rfl⟩

theorem startReceive_weight (c : AsynchronousClient) :
    ({ c.startReceive with isReceiving := true } : AsynchronousClient).weight ≤ c.weight := by
  simp only [weight, receivingWeight, startReceive]
  omega

/-- `Run` does not add weight. -/
theorem run_weight (h : c.run handlers = some c') : c'.weight ≤ c.weight := by
  obtain ⟨c₁, hc₁, hc'⟩ := run_cases h
  have hle : c₁.weight ≤ c.weight := by
    rcases hc₁ with rfl | ⟨-, rfl⟩
    · exact le_refl _
    · exact startReceive_weight c
  have hlist : c₁.receiveList = c.receiveList := by
    rcases hc₁ with rfl | ⟨-, rfl⟩ <;> rfl
  rcases hc' with ⟨-, rfl⟩ | ⟨-, r, c₂, hloop, rfl⟩
  · exact hle
  · obtain ⟨d, news, rfl, hnews⟩ := processLoop_weight hloop
    rw [← hlist] at hnews
    refine le_trans ?_ hle
    simp only [weight, List.map_append, List.sum_append, List.map_nil, List.sum_nil]
    omega

end AsynchronousClient

/-- How far a client has come with the first packet: it has not read its head; it waits for one byte more than
the packet has; it has received the packet with that byte; it has handled it so; or it has dropped it. -/
inductive Misread (p : BitVec 32 × List Byte) (rest : List Byte) (c : AsynchronousClient) : Prop where
  | before (handled : c.handled = []) (list : c.receiveList = []) (stream : c.stream = packetWire p ++ rest)
      (receiving : c.receiving = none ∨ c.receiving = some .head ∧ c.isReceiving = true)
  | behindHead (handled : c.handled = []) (list : c.receiveList = [])
      (stream : c.stream = (packetWire p ++ rest).drop 3)
      (receiving : c.receiving = some (.packet (p.2.length + 3))) (isReceiving : c.isReceiving = true)
  | received (handled : c.handled = []) (weight : c.weight ≤ (packetWire p ++ rest).length) (data : List Byte)
      (datas : List (List Byte)) (list : c.receiveList = data :: datas) (length : data.length = p.2.length + 3)
  | handled (m : MsgInfo) (ms : List MsgInfo) (handled : c.handled = m :: ms)
      (length : m.payload.length = p.2.length + 1)
  | dropped (weight : c.weight + (p.2.length + 6) ≤ (packetWire p ++ rest).length)

namespace Misread

variable {p : BitVec 32 × List Byte} {rest : List Byte} {c c' : AsynchronousClient}

theorem start (p : BitVec 32 × List Byte) (rest : List Byte) :
    Misread p rest (.start (packetWire p ++ rest)) := .before rfl rfl rfl (Or.inl rfl)

theorem receive (hp : PacketOk p) (h : Misread p rest c) (hstep : c.step .receive = some c') :
    Misread p rest c' := by
  obtain ⟨hweight, hhandled, datas', hlist⟩ := AsynchronousClient.receive_weight hstep
  cases h with
  | before handled list stream receiving =>
      rcases receiving with hnone | ⟨hhead, htrue⟩
      · simp [AsynchronousClient.step, hnone] at hstep
      · simp only [AsynchronousClient.step, hhead] at hstep
        split_ifs at hstep
        cases hstep
        rw [stream, receiveCallback_head _ hp]
        exact .behindHead handled list rfl rfl htrue
  | behindHead handled list stream receiving isReceiving =>
      simp only [AsynchronousClient.step, receiving] at hstep
      split_ifs at hstep with hlen
      cases hstep
      have hlength : (c.stream.take (p.2.length + 3)).length = p.2.length + 3 := by
        rw [List.length_take]
        omega
      unfold AsynchronousClient.receivePacketCallback at hweight ⊢
      rw [if_pos (by omega)] at hweight ⊢
      refine .received handled (hweight.trans ?_) (c.stream.take (p.2.length + 3)) [] ?_ hlength
      · simp only [AsynchronousClient.weight, handled, list, receiving, AsynchronousClient.receivingWeight, stream,
          List.map_nil, List.sum_nil, List.length_drop, List.length_append, length_packetWire]
        omega
      · change c.receiveList ++ _ = _
        rw [list]
        rfl
  | received handled weight data datas list length =>
      exact .received (hhandled.trans handled) (hweight.trans weight) data (datas ++ datas')
        (by rw [hlist, list]; rfl) length
  | handled m ms handled length => exact .handled m ms (hhandled.trans handled) length
  | dropped weight => exact .dropped (by omega)

theorem run {handlers : ℤ → Option (MsgInfo → ℤ)} (hp : PacketOk p) (h : Misread p rest c)
    (hrun : c.run handlers = some c') : Misread p rest c' := by
  have hweight := AsynchronousClient.run_weight hrun
  obtain ⟨c₁, hc₁, hc'⟩ := AsynchronousClient.run_cases hrun
  have hhandled₁ : c₁.handled = c.handled := by
    rcases hc₁ with rfl | ⟨-, rfl⟩ <;> rfl
  cases h with
  | before handled list stream receiving =>
      rcases hc' with ⟨-, rfl⟩ | ⟨hne, -⟩
      · rcases hc₁ with rfl | ⟨-, rfl⟩
        · exact .before handled list stream receiving
        · exact .before handled list stream (Or.inr ⟨rfl, rfl⟩)
      · exact absurd list hne
  | behindHead handled list stream receiving isReceiving =>
      rcases hc' with ⟨-, rfl⟩ | ⟨hne, -⟩
      · rcases hc₁ with rfl | ⟨hfalse, -⟩
        · exact .behindHead handled list stream receiving isReceiving
        · rw [isReceiving] at hfalse
          cases hfalse
      · exact absurd list hne
  | received handled weight data datas list length =>
      rcases hc' with ⟨hnil, -⟩ | ⟨-, r, c₂, hloop, rfl⟩
      · rw [list] at hnil
        cases hnil
      · rw [list] at hloop
        obtain ⟨d, news, rfl, ⟨ms, rfl⟩ | hnews⟩ := AsynchronousClient.processLoop_first hloop
        · refine .handled (messageOf data) ms ?_ ?_
          · dsimp only
            rw [hhandled₁, handled, List.nil_append]
          · have hlen := hp.2
            rw [length_payload_messageOf, length, toUshort]
            omega
        · -- what is dropped has the weight of the first packet
          have hle : c₁.weight ≤ c.weight := by
            rcases hc₁ with rfl | ⟨-, rfl⟩
            · exact le_refl _
            · exact AsynchronousClient.startReceive_weight c
          have hlist₁ : c₁.receiveList = data :: datas := by
            rcases hc₁ with rfl | ⟨-, rfl⟩ <;> exact list
          apply Misread.dropped
          simp only [AsynchronousClient.weight, hlist₁, hhandled₁, handled, List.map_nil, List.sum_nil,
            List.map_cons, List.sum_cons, List.nil_append, packetWeight, length] at hle weight ⊢
          omega
  | handled m ms handled length =>
      rcases hc' with ⟨-, rfl⟩ | ⟨-, r, c₂, hloop, rfl⟩
      · exact .handled m ms (hhandled₁.trans handled) length
      · obtain ⟨d, news, rfl, -⟩ := AsynchronousClient.processLoop_weight hloop
        refine .handled m (ms ++ news) ?_ length
        dsimp only
        rw [hhandled₁, handled, List.cons_append]
  | dropped weight => exact .dropped (by omega)

theorem step {e : AsyncClientEvent} (hp : PacketOk p) (h : Misread p rest c) (hstep : c.step e = some c') :
    Misread p rest c' := by
  cases e with
  | receive => exact h.receive hp hstep
  | run handlers => exact h.run hp hstep

end Misread

/-- The messages that handlers got, with their ids and payloads. -/
def AsynchronousClient.delivered (c : AsynchronousClient) : List (ℤ × List Byte) :=
  c.handled.map fun m => (m.msgId, m.payload)

/-- The client, when it gets what the server writes for the packets, delivers just these packets and waits
for the next head behind them. -/
def ClientDecodes (packets : List (BitVec 32 × List Byte)) : Prop :=
  ∃ stream, serverStream packets = some stream ∧
    ∃ es c, asyncClientMachine.run (.start stream) es = some c ∧
      c.delivered = packets.map (fun p => ((p.1.toNat : ℤ), p.2)) ∧
        c.receiving = some .head ∧ c.stream = []

/-- A client that has misread the first packet has not delivered what was sent. -/
theorem Misread.delivered_ne {p : BitVec 32 × List Byte} {packets : List (BitVec 32 × List Byte)}
    {c : AsynchronousClient} (h : Misread p (packets.flatMap packetWire) c) :
    c.delivered ≠ (p :: packets).map fun p => ((p.1.toNat : ℤ), p.2) := by
  intro heq
  unfold AsynchronousClient.delivered at heq
  have hnone : c.handled ≠ [] := by
    intro hnil
    rw [hnil] at heq
    cases heq
  cases h with
  | before handled => exact hnone handled
  | behindHead handled => exact hnone handled
  | received handled => exact hnone handled
  | handled m ms handled length =>
      rw [handled, List.map_cons, List.map_cons, List.cons.injEq, Prod.mk.injEq] at heq
      rw [heq.1.2] at length
      omega
  | dropped weight =>
      -- the messages that were sent weigh as much as all bytes together
      have hsum : (c.handled.map messageWeight).sum = ((p :: packets).flatMap packetWire).length := by
        have hweights := congrArg (List.map fun m : ℤ × List Byte => m.2.length + 5) heq
        rw [List.map_map, List.map_map] at hweights
        rw [List.length_flatMap]
        refine (congrArg List.sum hweights).trans (congrArg List.sum (List.map_congr_left ?_))
        intro q _
        exact (length_packetWire q).symm
      rw [List.flatMap_cons] at hsum
      unfold AsynchronousClient.weight at weight
      omega

theorem not_clientDecodes_cons {p : BitVec 32 × List Byte} {packets : List (BitVec 32 × List Byte)}
    (hok : ∀ q ∈ p :: packets, PacketOk q) : ¬ClientDecodes (p :: packets) := by
  rintro ⟨stream, hstream, es, c, hrun, hdelivered, -⟩
  rw [serverStream_eq hok, List.flatMap_cons, Option.some.injEq] at hstream
  subst hstream
  have hmisread : Misread p (packets.flatMap packetWire) c :=
    Machine.invariant_run (m := asyncClientMachine) (fun _ _ _ h hstep => h.step (hok p List.mem_cons_self) hstep)
      (Misread.start p _) hrun
  exact hmisread.delivered_ne hdelivered

/-- The client decodes what the server encodes exactly when nothing is sent. -/
theorem clientDecodes_iff {packets : List (BitVec 32 × List Byte)} (hok : ∀ p ∈ packets, PacketOk p) :
    ClientDecodes packets ↔ packets = [] := by
  cases packets with
  | cons p packets => exact iff_of_false (not_clientDecodes_cons hok) (List.cons_ne_nil _ _)
  | nil => exact iff_of_true ⟨[], rfl, [.run fun _ => none], _, rfl, rfl, rfl, rfl⟩ rfl

theorem clientDecodes_nothing : ClientDecodes [] := (clientDecodes_iff (by simp)).2 rfl

/-- A packet with one byte is not decoded. -/
theorem one_packet_not_decoded : ¬ClientDecodes [(1, [9])] :=
  not_clientDecodes_cons (by simp [PacketOk])

end JmyGame
