import JmyGame.NetUserPackets

/-! One direction of a pair of connections: what was sent is what was handled, what lies in the receive
list, and what is still on the way in the stream, in the send list and in a read that has begun. -/

namespace JmyGame

open CArith Block JmySessionBufferList

/-- The bytes that a pending send offers to the socket. -/
def AsyncOp.offered : AsyncOp → Option (List Byte)
  | .bufferSend offered => some offered
  | .bufferListSend offered => some offered
  | _ => none

/-- The sends among the pending operations. -/
def JmyTcpConnection.sends (c : JmyTcpConnection) : List Pending :=
  c.pending.filter fun p => !p.op.isRead

/-- The sending side: one send of the first packet is pending while `sending_data_` is set, none
otherwise. -/
structure Sending (c : JmyTcpConnection) (moved : Option ℕ) : Prop where
  can : CanSend c
  idle : c.sendingData = false → c.sends = [] ∧ moved = none
  busy : c.sendingData = true → c.buffer.sendBuffList.usingList ≠ [] ∧
    ∃ owner sockOpen, c.sends = [⟨.bufferListSend c.buffer.sendBuffList.front, owner, sockOpen⟩]
  moved_le : ∀ k, moved = some k → k ≤ c.buffer.sendBuffList.front.length

/-- The queued bytes that the socket has not taken yet. -/
def unsent (c : JmyTcpConnection) (moved : Option ℕ) : List Byte :=
  c.buffer.sendBuffList.unread.drop (moved.getD 0)

/-- The bytes of packets that are sent one after the other. -/
def wires (ps : List UserPacket) : List Byte := ps.flatMap UserPacket.wire

@[simp] theorem wires_append (ps ps' : List UserPacket) : wires (ps ++ ps') = wires ps ++ wires ps' :=
  List.flatMap_append

/-- What the receiving side waits for: a head, with the packets `rest` on the way, or the body of the
first of them. -/
def Awaits (r : JmyTcpConnection) (rest : List UserPacket) (bytes : List Byte) : Prop :=
  Reading .readHead r ∧ bytes = wires rest ∨
    ∃ p ps, rest = p :: ps ∧ Reading (.readBody p.type p.body.length) r ∧ bytes = p.body ++ wires ps

/-- One direction of a link: what was sent is what was handled, what lies in the receive list and what
is on the way. -/
structure Flow (c : JmyTcpConnection) (moved : Option ℕ) (stream : List Byte) (r : JmyTcpConnection)
    (q rest : List UserPacket) : Prop where
  sending : Sending c moved
  ok : ∀ p ∈ q ++ rest, p.Ok
  messages : (sentPackets c.trace).map UserPacket.message =
    handledMessages r.trace ++ (q ++ rest).map UserPacket.message
  recv : r.buffer.recvBuffList.usingList = q.map UserPacket.entry
  awaits : Awaits r rest (stream ++ unsent c moved)

section sender

variable {c c' r : JmyTcpConnection} {moved : Option ℕ} {stream : List Byte}
  {q rest ps : List UserPacket} {ms : List Message}

theorem front_append {xs ys : List Buffer} (h : xs ≠ []) (b₁ b₂ b₃ b₄ d₁ d₂ d₃ d₄ : ℕ) :
    front ⟨xs ++ ys, b₁, b₂, b₃, b₄⟩ = front ⟨xs, d₁, d₂, d₃, d₄⟩ := by
  cases xs with
  | nil => exact absurd rfl h
  | cons b xs => rfl

theorem Grew.front (h : Grew ps ms c c') (hne : c.buffer.sendBuffList.usingList ≠ []) :
    c'.buffer.sendBuffList.front = c.buffer.sendBuffList.front := by
  rw [h.list]
  exact front_append hne _ _ _ _ _ _ _ _

theorem Grew.unread (h : Grew ps ms c c') :
    c'.buffer.sendBuffList.unread = c.buffer.sendBuffList.unread ++ wires ps := by
  rw [h.list, JmySessionBufferList.unread, List.flatMap_append, List.flatMap_map]
  simp only [unread_packetOf]
  rfl

theorem length_front_le (l : JmySessionBufferList) : l.front.length ≤ l.unread.length := by
  obtain ⟨tail, htail⟩ := l.front_unread
  rw [htail, List.length_append]
  omega

theorem Sending.moved_le_unread (h : Sending c moved) :
    moved.getD 0 ≤ c.buffer.sendBuffList.unread.length := by
  cases hm : moved with
  | none => exact Nat.zero_le _
  | some k => exact (h.moved_le k hm).trans (length_front_le _)

theorem Grew.sending (h : Grew ps ms c c') (hs : Sending c moved) : Sending c' moved := by
  have hflag : c'.sendingData = c.sendingData := by rw [h.rest]
  have hsends : c'.sends = c.sends := by rw [JmyTcpConnection.sends, JmyTcpConnection.sends, h.pending]
  refine ⟨h.canSend hs.can, fun hidle => ?_, fun hbusy => ?_, fun k hk => ?_⟩
  · rw [hsends]
    exact hs.idle (hflag ▸ hidle)
  · obtain ⟨hne, owner, sockOpen, hone⟩ := hs.busy (hflag ▸ hbusy)
    rw [hsends, h.front hne]
    refine ⟨?_, owner, sockOpen, hone⟩
    rw [h.list]
    exact List.append_ne_nil_of_left_ne_nil hne _
  · cases hlist : c.buffer.sendBuffList.usingList with
    | nil =>
        have := hs.moved_le k hk
        rw [JmySessionBufferList.front, hlist] at this
        exact this.trans (Nat.zero_le _)
    | cons b bs =>
        rw [h.front (by rw [hlist]; exact List.cons_ne_nil _ _)]
        exact hs.moved_le k hk

theorem Grew.unsent (h : Grew ps ms c c') (hs : Sending c moved) :
    unsent c' moved = unsent c moved ++ wires ps := by
  rw [JmyGame.unsent, h.unread, List.drop_append_of_le_length hs.moved_le_unread]
  rfl

/-- Packets that are queued are on the way behind all others. -/
theorem Grew.flow_sender (h : Grew ps ms c c') (hf : Flow c moved stream r q rest) :
    Flow c' moved stream r q (rest ++ ps) := by
  refine ⟨h.sending hf.sending, ?_, ?_, hf.recv, ?_⟩
  · intro p hp
    rw [← List.append_assoc] at hp
    exact (List.mem_append.1 hp).elim (hf.ok p) (h.ok p)
  · rw [h.sent, List.map_append, hf.messages]
    simp only [List.map_append, List.append_assoc]
  · rw [h.unsent hf.sending, ← List.append_assoc]
    rcases hf.awaits with ⟨hread, hbytes⟩ | ⟨p, ps', rfl, hread, hbytes⟩
    · exact Or.inl ⟨hread, by rw [hbytes, wires_append]⟩
    · exact Or.inr ⟨p, ps' ++ ps, rfl, hread, by rw [hbytes, wires_append, List.append_assoc]⟩

/-- `start_send` puts nothing on the way and takes nothing off it. -/
theorem startSend_sending (hs : Sending c moved) :
    Sending c.startSend.2 moved ∧ c.startSend.2.buffer = c.buffer ∧ c.startSend.2.trace = c.trace := by
  have hstate := hs.can.state
  rw [JmyTcpConnection.startSend, if_neg (not_not.2 hstate)]
  cases hflag : c.sendingData with
  | true => exact ⟨hs, rfl, rfl⟩
  | false =>
      rw [if_neg Bool.false_ne_true]
      by_cases hlen : c.sendReadLen = 0
      · rw [if_pos hlen]
        exact ⟨hs, rfl, rfl⟩
      · rw [if_neg hlen, if_pos hs.can.useSendList]
        obtain ⟨hsends, hmoved⟩ := hs.idle hflag
        refine ⟨⟨⟨hstate, hs.can.useSendList, hs.can.sound⟩, fun h => Bool.noConfusion h,
          fun _ => ⟨?_, c.id, c.sockOpen, ?_⟩, ?_⟩, rfl, rfl⟩
        · intro hnil
          have hnil' : c.buffer.sendBuffList.usingList = [] := hnil
          rw [JmyTcpConnection.sendReadLen, if_pos hs.can.useSendList, JmySessionBufferList.getReadLen,
            hnil'] at hlen
          exact hlen rfl
        · have happ : ({ c.bufferListSend with sendingData := true } : JmyTcpConnection).sends = c.sends ++
              [⟨.bufferListSend c.buffer.sendBuffList.front, c.id, c.sockOpen⟩] := List.filter_append _ _
          rw [happ, hsends]
          rfl
        · intro k hk
          rw [hmoved] at hk
          cases hk

/-- The pending send of a sending connection. -/
theorem Sending.op {i : ℕ} {p : Pending} (hs : Sending c moved) (hp : c.pending[i]? = some p)
    (hsend : p.op.isRead = false) :
    c.sendingData = true ∧ p.op = .bufferListSend c.buffer.sendBuffList.front := by
  have hmem : p ∈ c.sends := List.mem_filter.2 ⟨List.mem_of_getElem? hp, by simp [hsend]⟩
  cases hflag : c.sendingData with
  | false =>
      rw [(hs.idle hflag).1] at hmem
      cases hmem
  | true =>
      obtain ⟨-, owner, sockOpen, hone⟩ := hs.busy hflag
      rw [hone, List.mem_singleton] at hmem
      exact ⟨rfl, by rw [hmem]⟩

/-- The socket takes bytes of the pending send: they move from the queue to the stream. -/
theorem transfer_sending {i k : ℕ} {p : Pending} {offered : List Byte} (hs : Sending c none)
    (hp : c.pending[i]? = some p) (hoffered : p.op.offered = some offered) (hk : k ≤ offered.length) :
    Sending c (some k) ∧ offered.take k ++ unsent c (some k) = unsent c none := by
  have hsend : p.op.isRead = false := by
    cases hop : p.op <;> rw [hop] at hoffered <;> first | rfl | cases hoffered
  obtain ⟨hflag, hop⟩ := hs.op hp hsend
  rw [hop] at hoffered
  cases hoffered
  refine ⟨⟨hs.can, fun h => ?_, hs.busy, fun k' hk' => ?_⟩, ?_⟩
  · rw [hflag] at h
    cases h
  · cases hk'
    exact hk
  · obtain ⟨tail, htail⟩ := c.buffer.sendBuffList.front_unread
    simp only [unsent, Option.getD_some, Option.getD_none, List.drop_zero, htail]
    rw [List.drop_append_of_le_length hk, ← List.append_assoc, List.take_append_drop]

/-- A completed send takes the bytes off the queue that the socket has taken before. -/
theorem sendDone_sending {i k : ℕ} {p : Pending} (hs : Sending c (some k))
    (hp : c.pending[i]? = some p) (hsend : p.op.isRead = false) :
    Sending ((c.popped i).onBufferListSend k) none ∧
      unsent ((c.popped i).onBufferListSend k) none = unsent c (some k) ∧
      ((c.popped i).onBufferListSend k).trace = c.trace := by
  obtain ⟨hflag, -⟩ := hs.op hp hsend
  obtain ⟨hne, owner, sockOpen, hone⟩ := hs.busy hflag
  have hnone : (c.popped i).sends = [] :=
    filter_popped_one (by rw [show c.pending.filter _ = c.sends from rfl, hone]; exact le_rfl) hp
      (by simp [hsend])
  obtain ⟨hunread, hsound⟩ := hs.can.sound.readLen (hs.moved_le k rfl)
  have hcan : CanSend { (c.popped i).setSendBuffList (c.buffer.sendBuffList.readLen k) with
      buffSendCount := c.buffSendCount + 1 } := ⟨hs.can.state, hs.can.useSendList, hsound⟩
  have hdrop : (c.buffer.sendBuffList.readLen k).unread.drop 0 = c.buffer.sendBuffList.unread.drop k := by
    rw [List.drop_zero, hunread]
  simp only [JmyTcpConnection.onBufferListSend]
  split_ifs with hstop
  · exact ⟨⟨⟨hcan.state, hcan.useSendList, hcan.sound⟩, fun _ => ⟨hnone, rfl⟩,
      fun h => Bool.noConfusion h, fun k hk => by cases hk⟩, hdrop, rfl⟩
  · rw [not_or] at hstop
    refine ⟨⟨⟨hcan.state, hcan.useSendList, hcan.sound⟩, fun h => ?_, fun _ => ⟨?_, c.id, c.sockOpen, ?_⟩,
      fun k hk => by cases hk⟩, hdrop, rfl⟩
    · have h' : c.sendingData = false := h
      rw [hflag] at h'
      cases h'
    · exact fun hnil => hstop.2 (List.length_eq_zero_iff.2 hnil)
    · have happ : ∀ d : JmyTcpConnection, d.bufferListSend.sends = d.sends ++
          [⟨.bufferListSend d.buffer.sendBuffList.front, d.id, d.sockOpen⟩] := fun d =>
        List.filter_append _ _
      exact (happ _).trans (congrArg (· ++ [_]) hnone)

end sender

section receiver

variable {c r r' : JmyTcpConnection} {moved : Option ℕ} {stream : List Byte} {q rest : List UserPacket}

/-- Nothing changed for a connection as the receiver of its stream. -/
structure SameIn (r r' : JmyTcpConnection) : Prop where
  state : r'.state = r.state
  hasHandler : r'.hasHandler = r.hasHandler
  hasBuffer : r'.hasBuffer = r.hasBuffer
  sockOpen : r'.sockOpen = r.sockOpen
  reads : r'.reads = r.reads
  recv : r'.buffer.recvBuffList.usingList = r.buffer.recvBuffList.usingList
  handled : handledMessages r'.trace = handledMessages r.trace

theorem Reading.congr {op : AsyncOp} (h : Reading op r) (hstate : r'.state = r.state)
    (hhandler : r'.hasHandler = r.hasHandler) (hbuffer : r'.hasBuffer = r.hasBuffer)
    (hsock : r'.sockOpen = r.sockOpen) (hreads : r'.reads = r.reads) : Reading op r' := by
  refine ⟨hstate.trans h.state, hhandler.trans h.hasHandler, hbuffer.trans h.hasBuffer,
    hsock.trans h.sockOpen, ?_⟩
  rw [hreads]
  exact h.reads

theorem Minor.reading {op : AsyncOp} (hm : Minor r r') (h : Reading op r) : Reading op r' :=
  h.congr hm.state hm.hasHandler hm.hasBuffer hm.sockOpen hm.reads

theorem Awaits.imp {bytes : List Byte} (h : Awaits r rest bytes)
    (hr : ∀ op, Reading op r → Reading op r') : Awaits r' rest bytes := by
  rcases h with ⟨hread, hbytes⟩ | ⟨p, ps, hrest, hread, hbytes⟩
  · exact Or.inl ⟨hr _ hread, hbytes⟩
  · exact Or.inr ⟨p, ps, hrest, hr _ hread, hbytes⟩

theorem SameIn.flow (h : SameIn r r') (hf : Flow c moved stream r q rest) :
    Flow c moved stream r' q rest := by
  refine ⟨hf.sending, hf.ok, by rw [h.handled, hf.messages], by rw [h.recv, hf.recv], ?_⟩
  exact hf.awaits.imp fun op hop =>
    hop.congr h.state h.hasHandler h.hasBuffer h.sockOpen h.reads

/-- Nothing changed for a connection as the sender. -/
structure SameOut (c c' : JmyTcpConnection) : Prop where
  state : c'.state = c.state
  useSendList : c'.buffer.useSendList = c.buffer.useSendList
  sendBuffList : c'.buffer.sendBuffList = c.buffer.sendBuffList
  sendingData : c'.sendingData = c.sendingData
  sends : c'.sends = c.sends
  sent : sentPackets c'.trace = sentPackets c.trace

theorem SameOut.flow {c' : JmyTcpConnection} (h : SameOut c c') (hf : Flow c moved stream r q rest) :
    Flow c' moved stream r q rest := by
  have hs := hf.sending
  refine ⟨⟨⟨h.state.trans hs.can.state, h.useSendList.trans hs.can.useSendList, ?_⟩, ?_, ?_, ?_⟩, hf.ok,
    by rw [h.sent, hf.messages], hf.recv, ?_⟩
  · rw [h.sendBuffList]
    exact hs.can.sound
  · rw [h.sendingData, h.sends]
    exact hs.idle
  · rw [h.sendingData, h.sends, h.sendBuffList]
    exact hs.busy
  · rw [h.sendBuffList]
    exact hs.moved_le
  · rw [unsent, h.sendBuffList]
    exact hf.awaits

/-- The read that completes is the one the receiver waits with. -/
theorem Reading.completed {op : AsyncOp} (hr : Reading op r) {i n : ℕ} {p : Pending}
    (hp : r.pending[i]? = some p) (hn : p.op.wanted = some n) : p.op = op ∧ p.op.isRead = true := by
  have hread : p.op.isRead = true := by
    cases hop : p.op <;> rw [hop] at hn <;> first | rfl | cases hn
  obtain ⟨owner, hreads⟩ := hr.reads
  have hmem : p ∈ r.reads := List.mem_filter.2 ⟨List.mem_of_getElem? hp, hread⟩
  rw [hreads, List.mem_singleton] at hmem
  exact ⟨by rw [hmem], hread⟩

/-- A started read and a popped read leave the pending sends alone. -/
theorem sends_read {i : ℕ} {p : Pending} (hp : r.pending[i]? = some p) (hread : p.op.isRead = true)
    {op : AsyncOp} (hop : op.isRead = true) {c' : JmyTcpConnection}
    (hc' : c'.pending = (r.popped i).pending ++ [⟨op, c'.id, c'.sockOpen⟩]) : c'.sends = r.sends := by
  have hpop : (r.popped i).pending.filter (fun p => !p.op.isRead) = r.sends :=
    filter_popped_other hp (by simp [hread])
  rw [JmyTcpConnection.sends, hc', List.filter_append, hpop, List.filter_cons_of_neg (by simp [hop]),
    List.filter_nil, List.append_nil]

/-- A receiver by itself: the packets in its receive list, and those whose bytes are on the way. -/
structure Receives (r : JmyTcpConnection) (q rest : List UserPacket) (bytes : List Byte) : Prop where
  ok : ∀ p ∈ q ++ rest, p.Ok
  recv : r.buffer.recvBuffList.usingList = q.map UserPacket.entry
  awaits : Awaits r rest bytes

/-- The head of the next packet leads to its body. -/
theorem Receives.readHead {bytes : List Byte} {i n : ℕ} {p : Pending} (hf : Receives r q rest bytes)
    (hr : Reading .readHead r) (hbytes : bytes = wires rest) (hp : r.pending[i]? = some p)
    (hn : p.op.wanted = some n) (hlen : n ≤ bytes.length)
    (hstep : r.step (.complete i (.read (bytes.take n))) = some r') :
    Receives r' q rest (bytes.drop n) ∧ r'.trace = r.trace ∧ SameOut r r' := by
  obtain ⟨hop, hread⟩ := hr.completed hp hn
  rw [hop] at hn
  cases hn
  cases rest with
  | nil =>
      rw [hbytes] at hlen
      exact absurd hlen (by decide)
  | cons m ps =>
      have hm : m.Ok := hf.ok m (List.mem_append_right q List.mem_cons_self)
      have hall : bytes = packHead (lenHead + lenType + m.body.length) m.type ++ (m.body ++ wires ps) := by
        rw [hbytes, ← List.append_assoc]
        rfl
      have htake : bytes.take 3 = packHead (lenHead + lenType + m.body.length) m.type := by
        rw [hall]
        exact List.take_left' rfl
      have hdrop : bytes.drop 3 = m.body ++ wires ps := by
        rw [hall]
        exact List.drop_left' rfl
      have hget := hm.getPacketLenType []
      rw [List.append_nil] at hget
      have hpack : (BitVec.ofNat 32 (lenType + m.body.length) - BitVec.ofNat 32 lenType).toNat % 2 ^ 16 =
          m.body.length := by
        have := hm.length_body
        rw [BitVec.toNat_sub]
        simp only [BitVec.toNat_ofNat, lenType]
        omega
      obtain ⟨p', hp', -, rfl⟩ := complete_eq_some hstep
      rw [hp, Option.some.injEq] at hp'
      subst hp'
      rw [hop, show lenHead + lenType = 3 from rfl, htake, JmyTcpConnection.onComplete]
      have hnext := hr.userHead hp hread rfl hget m.isUser_type
      rw [hpack] at hnext
      have heq : (r.popped i).onReadHead (packHead (lenHead + lenType + m.body.length) m.type) =
          (r.popped i).recvPacket m.type m.body.length := by
        rw [onReadHead_user rfl hget m.isUser_type, hpack]
      refine ⟨⟨hf.ok, ?_, Or.inr ⟨m, ps, rfl, hnext, hdrop⟩⟩, ?_, ?_⟩
      · rw [heq]
        exact hf.recv
      · rw [heq]
        rfl
      · rw [heq]
        exact ⟨rfl, rfl, rfl, rfl, sends_read hp hread rfl rfl, rfl⟩

/-- The body of a packet is read into the receive list. -/
theorem Receives.readBody {bytes : List Byte} {i n : ℕ} {p : Pending} {m : UserPacket} {ps : List UserPacket}
    (hf : Receives r q (m :: ps) bytes) (hr : Reading (.readBody m.type m.body.length) r)
    (hbytes : bytes = m.body ++ wires ps) (hp : r.pending[i]? = some p) (hn : p.op.wanted = some n)
    (hstep : r.step (.complete i (.read (bytes.take n))) = some r') :
    Receives r' (q ++ [m]) ps (bytes.drop n) ∧ r'.trace = r.trace ∧ SameOut r r' := by
  obtain ⟨hop, hread⟩ := hr.completed hp hn
  rw [hop] at hn
  cases hn
  have hm : m.Ok := hf.ok m (List.mem_append_right q List.mem_cons_self)
  have htake : bytes.take m.body.length = m.body := by
    rw [hbytes]
    exact List.take_left
  have hdrop : bytes.drop m.body.length = wires ps := by
    rw [hbytes]
    exact List.drop_left
  obtain ⟨p', hp', -, rfl⟩ := complete_eq_some hstep
  rw [hp, Option.some.injEq] at hp'
  subst hp'
  rw [hop, htake, JmyTcpConnection.onComplete]
  have hnext : Reading .readHead ((r.popped i).onReadBody m.type m.body.length m.body) :=
    hr.wholeBody hp hread rfl
  have hwrite : (r.buffer.recvBuffList.writeParam (m.type.code.toNat % 2 ^ 16) m.body m.body.length).2 =
      { r.buffer.recvBuffList with usingList := r.buffer.recvBuffList.usingList ++ [m.entry] } := by
    have hpos : m.body.length ≠ 0 := by have := hm.length_body; omega
    rw [JmySessionBufferList.writeParam, Buffer.initData, if_neg hpos, List.take_length]
    rfl
  have heq : (r.popped i).onReadBody m.type m.body.length m.body =
      ((r.popped i).setRecvBuffList { r.buffer.recvBuffList with
        usingList := r.buffer.recvBuffList.usingList ++ [m.entry] }).startOp .readHead := by
    rw [JmyTcpConnection.onReadBody, if_neg (not_not.2 rfl),
      show (r.popped i).buffer.recvBuffList = r.buffer.recvBuffList from rfl, hwrite]
    exact startRecv_connected hr.state hr.hasHandler hr.hasBuffer
  refine ⟨⟨?_, ?_, Or.inl ⟨hnext, hdrop⟩⟩, ?_, ?_⟩
  · rw [List.append_assoc]
    exact hf.ok
  · rw [heq, List.map_append, ← hf.recv]
    rfl
  · rw [heq]
    rfl
  · rw [heq]
    exact ⟨rfl, rfl, rfl, rfl, sends_read hp hread rfl rfl, rfl⟩

theorem Flow.receives (hf : Flow c moved stream r q rest) : Receives r q rest (stream ++ unsent c moved) :=
  ⟨hf.ok, hf.recv, hf.awaits⟩

/-- A receiver that has got on by itself, with the sender as it was. -/
theorem Receives.flow {stream' : List Byte} {q' rest' : List UserPacket}
    (h : Receives r' q' rest' (stream' ++ unsent c moved)) (htrace : r'.trace = r.trace)
    (hpackets : q' ++ rest' = q ++ rest) (hf : Flow c moved stream r q rest) :
    Flow c moved stream' r' q' rest' :=
  ⟨hf.sending, h.ok, by rw [htrace, hpackets, hf.messages], h.recv, h.awaits⟩

/-- The head of the next packet on the way: what is read off the stream, and what it leads to. -/
theorem readHead_flow {i n : ℕ} {p : Pending} (hf : Flow c moved stream r q rest)
    (hr : Reading .readHead r) (hbytes : stream ++ unsent c moved = wires rest)
    (hp : r.pending[i]? = some p) (hn : p.op.wanted = some n) (hlen : n ≤ stream.length)
    (hstep : r.step (.complete i (.read (stream.take n))) = some r') :
    Flow c moved (stream.drop n) r' q rest ∧ SameOut r r' := by
  have hall : n ≤ (stream ++ unsent c moved).length := by
    rw [List.length_append]
    omega
  have htake : stream.take n = (stream ++ unsent c moved).take n := (List.take_append_of_le_length hlen).symm
  rw [htake] at hstep
  obtain ⟨hrecv, htrace, hout⟩ := hf.receives.readHead hr hbytes hp hn hall hstep
  rw [List.drop_append_of_le_length hlen] at hrecv
  exact ⟨hrecv.flow htrace rfl hf, hout⟩

/-- The body of the packet on the way: it is read off the stream into the receive list. -/
theorem readBody_flow {i n : ℕ} {p : Pending} {m : UserPacket} {ps : List UserPacket}
    (hf : Flow c moved stream r q (m :: ps)) (hr : Reading (.readBody m.type m.body.length) r)
    (hbytes : stream ++ unsent c moved = m.body ++ wires ps) (hp : r.pending[i]? = some p)
    (hn : p.op.wanted = some n) (hlen : n ≤ stream.length)
    (hstep : r.step (.complete i (.read (stream.take n))) = some r') :
    Flow c moved (stream.drop n) r' (q ++ [m]) ps ∧ SameOut r r' := by
  have htake : stream.take n = (stream ++ unsent c moved).take n := (List.take_append_of_le_length hlen).symm
  rw [htake] at hstep
  obtain ⟨hrecv, htrace, hout⟩ := hf.receives.readBody hr hbytes hp hn hstep
  rw [List.drop_append_of_le_length hlen] at hrecv
  exact ⟨hrecv.flow htrace (by rw [List.append_assoc]; rfl) hf, hout⟩

/-- The receive list is handed to the handlers. -/
theorem Grew.flow_receiver {ps : List UserPacket} (h : Grew ps (q.map UserPacket.message) r r')
    (hf : Flow c moved stream r q rest) :
    Flow c moved stream (r'.setRecvBuffList r'.buffer.recvBuffList.clear) [] rest := by
  refine ⟨hf.sending, fun p hp => hf.ok p (List.mem_append_right q hp), ?_, rfl, ?_⟩
  · have hhandled : handledMessages (r'.setRecvBuffList r'.buffer.recvBuffList.clear).trace =
        handledMessages r.trace ++ q.map UserPacket.message := h.handled
    rw [hhandled, hf.messages, List.nil_append, List.map_append, List.append_assoc]
  · refine hf.awaits.imp fun op hop => ?_
    have hreads : r'.reads = r.reads := by
      rw [JmyTcpConnection.reads, JmyTcpConnection.reads, h.pending]
    have hr' : Reading op r' := hop.congr (by rw [h.rest]) (by rw [h.rest]) (by rw [h.rest])
      (by rw [h.rest]) hreads
    exact (Minor.setRecvBuffList r' _).reading hr'

theorem SameIn.startSend (h : Sending r moved) : SameIn r r.startSend.2 := by
  have hm := Minor.startSend r
  obtain ⟨-, hbuffer, htrace⟩ := startSend_sending h
  exact ⟨hm.state, hm.hasHandler, hm.hasBuffer, hm.sockOpen, hm.reads, by rw [hbuffer], by rw [htrace]⟩

theorem Grew.sameIn {ps : List UserPacket} (h : Grew ps [] r r') : SameIn r r' :=
  ⟨by rw [h.rest], by rw [h.rest], by rw [h.rest], by rw [h.rest],
    by rw [JmyTcpConnection.reads, JmyTcpConnection.reads, h.pending], by rw [h.recvBuffList],
    by rw [h.handled, List.append_nil]⟩

theorem sendDone_sameIn {i k : ℕ} {p : Pending} (hp : r.pending[i]? = some p)
    (hsend : p.op.isRead = false) : SameIn r ((r.popped i).onBufferListSend k) := by
  have hm := Minor.onBufferListSend (r.popped i) k
  have hpop : (r.popped i).reads = r.reads := filter_popped_other hp hsend
  have hbuffer : ((r.popped i).onBufferListSend k).buffer.recvBuffList = r.buffer.recvBuffList ∧
      ((r.popped i).onBufferListSend k).trace = r.trace := by
    simp only [JmyTcpConnection.onBufferListSend]
    split_ifs <;> exact ⟨rfl, rfl⟩
  exact ⟨hm.state, hm.hasHandler, hm.hasBuffer, hm.sockOpen, hm.reads.trans hpop, by rw [hbuffer.1],
    by rw [hbuffer.2]⟩

end receiver

end JmyGame
