import JmyGame.NetDelivery

/-! Progress of a pair of connections. Every byte that is sent is taken by the socket of its side, read by the other
side and handed to a handler: the steps that move something are paid for by the bytes that were sent, and when no such
step is possible any more, nothing is on the way. -/

namespace JmyGame

open CArith Block JmySessionBufferList

/-- Packets are in the send list, and no send of them has begun. -/
def JmyTcpConnection.waits (c : JmyTcpConnection) : Bool :=
  !c.sendingData && !c.buffer.sendBuffList.usingList.isEmpty

namespace Link

/-- The event moves something: bytes, a send that is done, packets to their handlers, or a send that begins. -/
def moves (l : Link) : LinkEvent → Bool
  | .call _ _ => false
  | .run a _ _ _ _ => !(l.conn a).buffer.recvBuffList.usingList.isEmpty || (l.conn a).waits
  | .transfer _ _ _ => true
  | .sendDone _ _ => true
  | .readDone _ _ => true

/-- The bytes of the packets that a side has sent. -/
def sentBytes (l : Link) (a : Side) : ℕ := (wires (sentPackets (l.conn a).trace)).length

end Link

/-- The steps that a sender still has to make for what it has queued. -/
def outWork (c : JmyTcpConnection) (moved : Option ℕ) : ℕ :=
  4 * (unsent c moved).length + 2 * moved.isSome.toNat + c.waits.toNat

/-- The steps that are to be made on a link, for each side: those for what it has queued, for what it has to read, and
for what it has received. -/
def Link.work (l : Link) (a : Side) : ℕ :=
  outWork (l.conn a) (l.moved a) + (l.stream a.other).length + (l.conn a).buffer.recvBuffList.usingList.length

section sender

variable {c c' : JmyTcpConnection} {moved : Option ℕ} {ps : List UserPacket} {ms : List Message}

theorem length_wires_pos (h : ps ≠ []) : 1 ≤ (wires ps).length := by
  obtain ⟨p, ps', rfl⟩ := List.exists_cons_of_ne_nil h
  rw [wires, List.flatMap_cons, List.length_append, UserPacket.length_wire]
  omega

/-- What is queued is paid for by its bytes. -/
theorem Grew.outWork_le (h : Grew ps ms c c') (hs : Sending c moved) :
    outWork c' moved ≤ outWork c moved + 5 * (wires ps).length := by
  have hwaits : c'.waits.toNat ≤ c.waits.toNat + (wires ps).length := by
    cases ps with
    | nil =>
        have hlist : c'.buffer.sendBuffList.usingList = c.buffer.sendBuffList.usingList := by
          rw [h.list]
          exact List.append_nil _
        have hflag : c'.sendingData = c.sendingData := by rw [h.rest]
        rw [JmyTcpConnection.waits, JmyTcpConnection.waits, hlist, hflag]
        exact Nat.le_add_right _ _
    | cons p ps =>
        have hpos := length_wires_pos (List.cons_ne_nil p ps)
        have hle := Bool.toNat_le c'.waits
        omega
  rw [outWork, outWork, h.unsent hs, List.length_append]
  omega

/-- Behind `start_send` nothing waits. -/
theorem waits_startSend (hs : Sending c moved) : c.startSend.2.waits = false := by
  rw [JmyTcpConnection.startSend, if_neg (not_not.2 hs.can.state)]
  split_ifs with hbusy hlen hlist
  · rw [JmyTcpConnection.waits, hbusy]
    rfl
  · rw [JmyTcpConnection.sendReadLen, if_pos hs.can.useSendList, JmySessionBufferList.getReadLen] at hlen
    rw [JmyTcpConnection.waits]
    cases hqueue : c.buffer.sendBuffList.usingList with
    | nil => exact Bool.and_false _
    | cons b bs =>
        have hqueued := hs.can.sound.queued b (hqueue ▸ List.mem_cons_self)
        rw [hqueue] at hlen
        have hpos := hqueued.roffset
        rw [← hqueued.woffset] at hpos
        exact absurd hlen (Nat.sub_ne_zero_of_lt hpos)
  · rfl
  · exact absurd hs.can.useSendList hlist

end sender

namespace Link

/-- What is to be done on both sides. -/
def allWork (l : Link) : ℕ := l.work .left + l.work .right

/-- The bytes that both sides have sent. -/
def allBytes (l : Link) : ℕ := l.sentBytes .left + l.sentBytes .right

/-- A step that moves something, or not, is paid for. -/
def Paid (e : LinkEvent) (l l' : Link) : Prop :=
  (l.moves e).toNat + l'.allWork + 5 * l.allBytes ≤ l.allWork + 5 * l'.allBytes

variable {l l' : Link} {a : Side} {e : LinkEvent} {c : JmyTcpConnection}

/-- A step of one side, which leaves the other side and the stream to it as they were. -/
theorem paid_of (moved : Option ℕ) (stream : List Byte) (hconn : l'.conn a = c) (hmoved : l'.moved a = moved)
    (hstream : l'.stream a.other = stream) (hother : l'.conn a.other = l.conn a.other)
    (hmoved' : l'.moved a.other = l.moved a.other) (hstream' : l'.stream a = l.stream a)
    (hpay : (l.moves e).toNat + (outWork c moved + stream.length + c.buffer.recvBuffList.usingList.length) +
      5 * l.sentBytes a ≤ l.work a + 5 * (wires (sentPackets c.trace)).length) : Paid e l l' := by
  have hwork : l'.work a = outWork c moved + stream.length + c.buffer.recvBuffList.usingList.length := by
    rw [work, hconn, hmoved, hstream]
  have hwork' : l'.work a.other = l.work a.other := by
    rw [work, work, hother, hmoved', a.other_other, hstream']
  have hsent : l'.sentBytes a = (wires (sentPackets c.trace)).length := by rw [sentBytes, hconn]
  have hsent' : l'.sentBytes a.other = l.sentBytes a.other := by rw [sentBytes, sentBytes, hother]
  unfold Paid allWork allBytes
  cases a <;>
  · simp only [Side.other] at hwork' hsent'
    omega

theorem paid_setConn (hpay : (l.moves e).toNat +
    (outWork c (l.moved a) + (l.stream a.other).length + c.buffer.recvBuffList.usingList.length) +
      5 * l.sentBytes a ≤ l.work a + 5 * (wires (sentPackets c.trace)).length) : Paid e l (l.setConn a c) := by
  have hconn : (l.setConn a c).conn a = c := by rw [setConn]; exact Function.update_self a c l.conn
  have hother : (l.setConn a c).conn a.other = l.conn a.other := by
    rw [setConn]
    exact Function.update_of_ne a.other_ne c l.conn
  exact paid_of (l.moved a) (l.stream a.other) hconn rfl rfl hother rfl rfl hpay

/-- What a side sends is counted. -/
theorem sentBytes_of {ps : List UserPacket} (h : sentPackets c.trace = sentPackets (l.conn a).trace ++ ps) :
    (wires (sentPackets c.trace)).length = l.sentBytes a + (wires ps).length := by
  rw [h, wires_append, List.length_append, sentBytes]

namespace Flows

theorem of_call (hl : l.Flows) {k : ConnCall} (hk : k.Ok) (hstep : l.step (.call a k) = some l') :
    ∃ p c, Grew [p] [] (l.conn a) c ∧ l' = l.setConn a c := by
  obtain ⟨q, rest, hout⟩ := hl a
  obtain ⟨c, hc, rfl⟩ := Option.map_eq_some_iff.1 hstep
  obtain ⟨c', hcall, p, hg⟩ := call_grew hout.sending.can hk
  obtain rfl : c' = c := Option.some.inj (hcall.symm.trans hc)
  exact ⟨p, _, hg, rfl⟩

theorem of_run (hl : l.Flows) {h : ConnHandlers} (hh : h.Ok) {now : ℤ} {data : JmyPacketUnpackData2}
    {past : ℕ → Byte} (hstep : l.step (.run a h now data past) = some l') : ∃ ps ms c, Grew ps ms (l.conn a) c ∧
      l' = l.setConn a (c.setRecvBuffList c.buffer.recvBuffList.clear).startSend.2 := by
  obtain ⟨⟨q, rest, hout⟩, q', rest', hin⟩ := hl.both a
  obtain ⟨c, hc, rfl⟩ := Option.map_eq_some_iff.1 hstep
  obtain ⟨ps, c₁, hg, hrun⟩ := run_grew hh hout.sending.can
    (fun p hp => hin.ok p (List.mem_append_left rest' hp)) hin.recv now data past
  rw [hrun, Option.some.injEq] at hc
  exact ⟨ps, _, c₁, hg, by rw [hc]⟩

theorem of_sendDone (hl : l.Flows) {i : ℕ} (hstep : l.step (.sendDone a i) = some l') :
    ∃ k p, l.moved a = some k ∧ (l.conn a).pending[i]? = some p ∧ p.op.isRead = false ∧
      l' = { l.setConn a (((l.conn a).popped i).onBufferListSend k) with
        moved := Function.update l.moved a none } := by
  obtain ⟨q, rest, hout⟩ := hl a
  obtain ⟨k, hk, hstep⟩ := Option.bind_eq_some_iff.1 hstep
  obtain ⟨c, hc, rfl⟩ := Option.map_eq_some_iff.1 hstep
  obtain ⟨p, hp, hposs, rfl⟩ := complete_eq_some hc
  have hsend : p.op.isRead = false := by
    cases hop : p.op <;> simp [Completion.possible, hop] at hposs <;> rfl
  obtain ⟨-, hop⟩ := hout.sending.op hp hsend
  exact ⟨k, p, hk, hp, hsend, by rw [hop, JmyTcpConnection.onComplete]⟩

/-- A read takes more bytes off the stream than it puts packets into the receive list. -/
theorem of_readDone (hl : l.Flows) {i : ℕ} (hstep : l.step (.readDone a i) = some l') :
    ∃ n c, n ≤ (l.stream a.other).length ∧ SameOut (l.conn a) c ∧
      1 + c.buffer.recvBuffList.usingList.length ≤ (l.conn a).buffer.recvBuffList.usingList.length + n ∧
      l' = { l.setConn a c with stream := Function.update l.stream a.other ((l.stream a.other).drop n) } := by
  obtain ⟨-, q', rest', hin⟩ := hl.both a
  obtain ⟨p, hp, hstep⟩ := Option.bind_eq_some_iff.1 hstep
  obtain ⟨n, hn, hstep⟩ := Option.bind_eq_some_iff.1 hstep
  split_ifs at hstep with hlen
  obtain ⟨c, hc, rfl⟩ := Option.map_eq_some_iff.1 hstep
  rcases hin.awaits with ⟨hread, hbytes⟩ | ⟨m, ps, rfl, hread, hbytes⟩
  · obtain ⟨hflow, hsame⟩ := readHead_flow hin hread hbytes hp hn hlen hc
    obtain ⟨hop, -⟩ := hread.completed hp hn
    rw [hop] at hn
    cases hn
    refine ⟨_, c, hlen, hsame, ?_, rfl⟩
    rw [hflow.recv, hin.recv]
    have : lenHead + lenType = 3 := rfl
    omega
  · obtain ⟨hflow, hsame⟩ := readBody_flow hin hread hbytes hp hn hlen hc
    obtain ⟨hop, -⟩ := hread.completed hp hn
    rw [hop] at hn
    cases hn
    refine ⟨_, c, hlen, hsame, ?_, rfl⟩
    have hbody := (hin.ok m (List.mem_append_right q' List.mem_cons_self)).length_body
    rw [hflow.recv, hin.recv, List.map_append, List.length_append, List.length_map, List.length_map,
      List.length_singleton]
    omega

theorem call_paid (hl : l.Flows) {k : ConnCall} (hk : k.Ok) (hstep : l.step (.call a k) = some l') :
    Paid (.call a k) l l' := by
  obtain ⟨q, rest, hout⟩ := hl a
  obtain ⟨p, c, hg, rfl⟩ := hl.of_call hk hstep
  refine paid_setConn ?_
  have hle := hg.outWork_le hout.sending
  rw [sentBytes_of hg.sent, hg.recvBuffList, work, moves, Bool.toNat_false]
  omega

theorem run_paid (hl : l.Flows) {h : ConnHandlers} (hh : h.Ok) {now : ℤ} {data : JmyPacketUnpackData2}
    {past : ℕ → Byte} (hstep : l.step (.run a h now data past) = some l') : Paid (.run a h now data past) l l' := by
  obtain ⟨q, rest, hout⟩ := hl a
  obtain ⟨ps, ms, c, hg, rfl⟩ := hl.of_run hh hstep
  have hsame : SameOut c (c.setRecvBuffList c.buffer.recvBuffList.clear) := ⟨rfl, rfl, rfl, rfl, rfl, rfl⟩
  have hsending := (hsame.flow (hg.flow_sender hout)).sending
  obtain ⟨-, hbuffer, htrace⟩ := startSend_sending hsending
  have hunsent : unsent (c.setRecvBuffList c.buffer.recvBuffList.clear).startSend.2 (l.moved a) =
      unsent (l.conn a) (l.moved a) ++ wires ps := by
    rw [← hg.unsent hout.sending, unsent, hbuffer]
    rfl
  have hrecv : (c.setRecvBuffList c.buffer.recvBuffList.clear).startSend.2.buffer.recvBuffList.usingList = [] := by
    rw [hbuffer]
    rfl
  have hsent : sentPackets (c.setRecvBuffList c.buffer.recvBuffList.clear).startSend.2.trace =
      sentPackets (l.conn a).trace ++ ps := by
    rw [htrace]
    exact hg.sent
  have hmoves : (l.moves (.run a h now data past)).toNat ≤
      (l.conn a).waits.toNat + (l.conn a).buffer.recvBuffList.usingList.length := by
    rw [moves]
    cases (l.conn a).buffer.recvBuffList.usingList with
    | nil => exact le_refl _
    | cons b bs => exact (Bool.toNat_le _).trans (by rw [List.length_cons]; omega)
  refine paid_setConn ?_
  rw [sentBytes_of hsent, hrecv, outWork, waits_startSend hsending, hunsent, List.length_append, work, outWork,
    List.length_nil, Bool.toNat_false]
  omega

theorem transfer_paid (hl : l.Flows) {i k : ℕ} (hstep : l.step (.transfer a i k) = some l') :
    Paid (.transfer a i k) l l' := by
  obtain ⟨q, rest, hout⟩ := hl a
  obtain ⟨p, hp, hstep⟩ := Option.bind_eq_some_iff.1 hstep
  obtain ⟨offered, hoffered, hstep⟩ := Option.bind_eq_some_iff.1 hstep
  split_ifs at hstep with hk
  cases hstep
  obtain ⟨hmoved, hpos, hle⟩ := hk
  rw [hmoved] at hout
  obtain ⟨-, hbytes⟩ := transfer_sending hout.sending hp hoffered hle
  have hlength := congrArg List.length hbytes
  rw [List.length_append, List.length_take, Nat.min_eq_left hle] at hlength
  have hself : (Link.mk l.conn (Function.update l.moved a (some k))
      (Function.update l.stream a (l.stream a ++ offered.take k))).work a + 4 * k = l.work a + 2 := by
    simp only [work, outWork, Function.update_self, Function.update_of_ne a.other_ne, hmoved, ← hlength,
      Option.isSome_some, Option.isSome_none, Bool.toNat_true, Bool.toNat_false]
    omega
  have hother : (Link.mk l.conn (Function.update l.moved a (some k))
      (Function.update l.stream a (l.stream a ++ offered.take k))).work a.other = l.work a.other + k := by
    simp only [work, a.other_other, Function.update_self, Function.update_of_ne a.other_ne, List.length_append,
      List.length_take, Nat.min_eq_left hle]
    omega
  unfold Paid allWork
  rw [moves, Bool.toNat_true]
  change 1 + _ + 5 * l.allBytes ≤ _ + 5 * l.allBytes
  cases a <;>
  · rw [Side.other] at hother
    omega

/-- A send that is done is not to be done any more, but after many of them the next one waits for `run`. -/
theorem sendDone_paid (hl : l.Flows) {i : ℕ} (hstep : l.step (.sendDone a i) = some l') :
    Paid (.sendDone a i) l l' := by
  obtain ⟨q, rest, hout⟩ := hl a
  obtain ⟨k, p, hk, hp, hsend, rfl⟩ := hl.of_sendDone hstep
  rw [hk] at hout
  obtain ⟨hsending, hbytes, htrace⟩ := sendDone_sending hout.sending hp hsend
  have hrecv := (sendDone_sameIn hp hsend (k := k)).recv
  have hwaits : (l.conn a).waits = false := by
    rw [JmyTcpConnection.waits, (hout.sending.op hp hsend).1]
    rfl
  have hconn : Function.update l.conn a (((l.conn a).popped i).onBufferListSend k) a =
      ((l.conn a).popped i).onBufferListSend k := Function.update_self a _ l.conn
  refine paid_of none (l.stream a.other) hconn (Function.update_self a none l.moved) rfl
    (Function.update_of_ne a.other_ne _ _) (Function.update_of_ne a.other_ne _ _) rfl ?_
  have hle := Bool.toNat_le (((l.conn a).popped i).onBufferListSend k).waits
  rw [work, hk, outWork, outWork, hbytes, htrace, hrecv, hwaits, moves, sentBytes]
  simp only [Option.isSome_some, Option.isSome_none, Bool.toNat_true, Bool.toNat_false]
  omega

theorem readDone_paid (hl : l.Flows) {i : ℕ} (hstep : l.step (.readDone a i) = some l') :
    Paid (.readDone a i) l l' := by
  obtain ⟨n, c, hlen, hsame, hrecv, rfl⟩ := hl.of_readDone hstep
  have hconn : Function.update l.conn a c a = c := Function.update_self a c l.conn
  refine paid_of (l.moved a) ((l.stream a.other).drop n) hconn rfl (Function.update_self a.other _ _)
    (Function.update_of_ne a.other_ne _ _) rfl (Function.update_of_ne a.other_ne.symm _ _) ?_
  have hwork : outWork c (l.moved a) = outWork (l.conn a) (l.moved a) := by
    rw [outWork, outWork, unsent, unsent, hsame.sendBuffList, JmyTcpConnection.waits, JmyTcpConnection.waits,
      hsame.sendingData, hsame.sendBuffList]
  rw [work, hwork, hsame.sent, List.length_drop, moves, sentBytes, Bool.toNat_true]
  omega

/-- Every step is paid for. -/
theorem paid (hl : l.Flows) (he : e.Ok) (hstep : l.step e = some l') : Paid e l l' := by
  cases e with
  | call a k => exact hl.call_paid he hstep
  | run a h now data past => exact hl.run_paid he hstep
  | transfer a i k => exact hl.transfer_paid hstep
  | sendDone a i => exact hl.sendDone_paid hstep
  | readDone a i => exact hl.readDone_paid hstep

end Flows

/-- The socket of every pending send was open. -/
def Open (l : Link) : Prop := ∀ a, ∀ p ∈ (l.conn a).sends, p.sockOpen = true

end Link

section sends

variable {c : JmyTcpConnection} {p : Pending}

theorem sends_bufferListSend (hp : p ∈ c.bufferListSend.sends) : p ∈ c.sends ∨ p.sockOpen = c.sockOpen := by
  have happ : c.bufferListSend.sends = c.sends ++ [⟨.bufferListSend c.buffer.sendBuffList.front, c.id, c.sockOpen⟩] :=
    List.filter_append _ _
  rw [happ] at hp
  rcases List.mem_append.1 hp with hp | hp
  · exact Or.inl hp
  · rw [List.mem_singleton.1 hp]
    exact Or.inr rfl

theorem sends_startSend (hlist : c.buffer.useSendList = true) (hp : p ∈ c.startSend.2.sends) :
    p ∈ c.sends ∨ p.sockOpen = c.sockOpen := by
  rw [JmyTcpConnection.startSend] at hp
  split_ifs at hp
  · exact Or.inl hp
  · exact Or.inl hp
  · exact Or.inl hp
  · exact sends_bufferListSend hp

theorem sends_onBufferListSend {k : ℕ} (hp : p ∈ (c.onBufferListSend k).sends) :
    p ∈ c.sends ∨ p.sockOpen = c.sockOpen := by
  simp only [JmyTcpConnection.onBufferListSend] at hp
  split_ifs at hp
  · exact Or.inl hp
  · exact sends_bufferListSend (c := { c.setSendBuffList (c.buffer.sendBuffList.readLen k) with
      buffSendCount := c.buffSendCount + 1 }) hp

theorem Flow.sockOpen {r : JmyTcpConnection} {moved : Option ℕ} {stream : List Byte} {q rest : List UserPacket}
    (hf : Flow c moved stream r q rest) : r.sockOpen = true := by
  rcases hf.awaits with ⟨hread, -⟩ | ⟨m, ps, -, hread, -⟩
  · exact hread.sockOpen
  · exact hread.sockOpen

end sends

namespace Link

variable {l l' : Link} {a : Side} {e : LinkEvent}

theorem open_setConn {c : JmyTcpConnection} (hopen : l.Open) (hc : ∀ p ∈ c.sends, p.sockOpen = true) :
    (l.setConn a c).Open := by
  intro b
  rcases a.eq_or b with rfl | rfl
  · simp only [setConn, Function.update_self]
    exact hc
  · simp only [setConn, Function.update_of_ne a.other_ne]
    exact hopen _

theorem Open.step (hopen : l.Open) (hl : l.Flows) (he : e.Ok) (hstep : l.step e = some l') : l'.Open := by
  cases e with
  | call a k =>
      obtain ⟨p, c, hg, rfl⟩ := hl.of_call he hstep
      refine open_setConn hopen fun p hp => hopen a p ?_
      rwa [JmyTcpConnection.sends, ← hg.pending]
  | run a h now data past =>
      obtain ⟨⟨q, rest, hout⟩, q', rest', hin⟩ := hl.both a
      obtain ⟨ps, ms, c, hg, rfl⟩ := hl.of_run he hstep
      refine open_setConn hopen fun p hp => ?_
      rcases sends_startSend (c := c.setRecvBuffList c.buffer.recvBuffList.clear)
        (hg.canSend hout.sending.can).useSendList hp with hp | hp
      · refine hopen a p ?_
        rwa [JmyTcpConnection.sends, ← hg.pending]
      · rw [hp]
        change c.sockOpen = true
        rw [hg.rest]
        exact hin.sockOpen
  | transfer a i k =>
      obtain ⟨p, hp, hstep⟩ := Option.bind_eq_some_iff.1 hstep
      obtain ⟨offered, hoffered, hstep⟩ := Option.bind_eq_some_iff.1 hstep
      split_ifs at hstep with hk
      cases hstep
      exact hopen
  | sendDone a i =>
      obtain ⟨-, q', rest', hin⟩ := hl.both a
      obtain ⟨k, p, -, -, -, rfl⟩ := hl.of_sendDone hstep
      refine open_setConn hopen fun p' hp' => ?_
      rcases sends_onBufferListSend hp' with hp' | hp'
      · exact hopen a p' ((List.eraseIdx_sublist _ _).filter _ |>.subset hp')
      · rw [hp']
        exact hin.sockOpen
  | readDone a i =>
      obtain ⟨n, c, -, hsame, -, rfl⟩ := hl.of_readDone hstep
      exact open_setConn hopen fun p hp => hopen a p (hsame.sends ▸ hp)

/-- Nothing that moves is possible. -/
def AtRest (l : Link) : Prop := ∀ e, e.Ok → l.moves e = true → l.step e = none

/-- Handlers that answer nothing. -/
def quietHandlers : ConnHandlers := ⟨fun _ => none, some fun _ _ => (0, []), none⟩

theorem quietHandlers_ok : quietHandlers.Ok where
  msg := fun _ _ h => nomatch h
  default := by
    intro f hf info c
    cases hf
    exact ⟨le_refl _, fun k hk => nomatch hk⟩
  registered := fun _ => Or.inr (Option.some_ne_none _)
  tick := fun _ h => nomatch h

namespace AtRest

variable (hrest : l.AtRest) (hl : l.Flows)

include hrest hl

/-- Everything received is handled, and nothing waits to be sent. -/
theorem idle : (l.conn a).buffer.recvBuffList.usingList = [] ∧ (l.conn a).waits = false := by
  obtain ⟨⟨q, rest, hout⟩, q', rest', hin⟩ := hl.both a
  obtain ⟨ps, c₁, -, hrun⟩ := run_grew quietHandlers_ok hout.sending.can
    (fun p hp => hin.ok p (List.mem_append_left rest' hp)) hin.recv 0 .init 0
  have hstep : l.step (.run a quietHandlers 0 .init 0) ≠ none := by
    rw [step, hrun]
    exact Option.some_ne_none _
  have hmoves : l.moves (.run a quietHandlers 0 .init 0) = false :=
    Bool.eq_false_iff.2 fun hmoves => hstep (hrest _ quietHandlers_ok hmoves)
  rw [moves, Bool.or_eq_false_iff, Bool.not_eq_false', List.isEmpty_iff] at hmoves
  exact hmoves

/-- No send is pending. -/
theorem sendingData (hopen : l.Open) : (l.conn a).sendingData = false := by
  obtain ⟨q, rest, hout⟩ := hl a
  rw [Bool.eq_false_iff]
  intro hbusy
  obtain ⟨hne, owner, sockOpen, hone⟩ := hout.sending.busy hbusy
  have hmem : (⟨.bufferListSend (l.conn a).buffer.sendBuffList.front, owner, sockOpen⟩ : Pending) ∈
      (l.conn a).sends := hone ▸ List.mem_singleton_self _
  obtain rfl : sockOpen = true := hopen a _ hmem
  obtain ⟨i, hi⟩ := List.mem_iff_getElem?.1 (List.mem_of_mem_filter hmem)
  cases hmoved : l.moved a with
  | none =>
      -- The socket can take a byte of the send.
      have hpos : 1 ≤ (l.conn a).buffer.sendBuffList.front.length := by
        obtain ⟨b, bs, hlist⟩ := List.exists_cons_of_ne_nil hne
        have hqueued := hout.sending.can.sound.queued b (hlist ▸ List.mem_cons_self)
        have hlt := hqueued.roffset
        rw [JmySessionBufferList.front, hlist, hqueued.length_unread]
        omega
      have hstep := hrest (.transfer a i 1) trivial rfl
      rw [step, hi, Option.bind_some, AsyncOp.offered, Option.bind_some, if_pos ⟨hmoved, le_refl _, hpos⟩] at hstep
      exact Option.some_ne_none _ hstep
  | some k =>
      -- The send can complete with the bytes that the socket has taken.
      have hposs : (Completion.sent k).possible
          ⟨.bufferListSend (l.conn a).buffer.sendBuffList.front, owner, true⟩ = true :=
        decide_eq_true (hout.sending.moved_le k hmoved)
      have hstep := hrest (.sendDone a i) trivial rfl
      rw [step, hmoved, Option.bind_some, complete_of_possible hi hposs] at hstep
      exact Option.some_ne_none _ hstep

theorem unsent_eq_nil (hopen : l.Open) : unsent (l.conn a) (l.moved a) = [] := by
  have hwaits := (hrest.idle hl (a := a)).2
  rw [JmyTcpConnection.waits, hrest.sendingData hl hopen, Bool.not_false, Bool.true_and, Bool.not_eq_false',
    List.isEmpty_iff] at hwaits
  rw [unsent, JmySessionBufferList.unread, hwaits]
  exact List.drop_nil

/-- What was sent has been handled. -/
theorem handled (hopen : l.Open) : handledMessages (l.conn a.other).trace =
    (sentPackets (l.conn a).trace).map UserPacket.message := by
  obtain ⟨q, rest, hf⟩ := hl a
  have hq : q = [] := List.map_eq_nil_iff.1 (hf.recv.symm.trans (hrest.idle hl).1)
  have hread : ∀ op n owner, (⟨op, owner, true⟩ : Pending) ∈ (l.conn a.other).reads → op.wanted = some n →
      (l.stream a).length < n := by
    intro op n owner hmem hn
    by_contra hlen
    obtain ⟨i, hi⟩ := List.mem_iff_getElem?.1 (List.mem_of_mem_filter hmem)
    have htake : ((l.stream a).take n).length ≤ n := List.length_take_le _ _
    have hposs : (Completion.read ((l.stream a).take n)).possible ⟨op, owner, true⟩ = true := by
      cases op <;> rw [AsyncOp.wanted] at hn <;> cases hn
      · exact decide_eq_true htake
      · exact decide_eq_true htake
    have hstep := hrest (.readDone a.other i) trivial rfl
    rw [step, hi, Option.bind_some, hn, Option.bind_some, a.other_other, if_pos (not_lt.1 hlen),
      complete_of_possible hi hposs] at hstep
    exact Option.some_ne_none _ hstep
  have hrest' : rest = [] := by
    have hbytes := hf.awaits
    rw [hrest.unsent_eq_nil hl hopen, List.append_nil] at hbytes
    rcases hbytes with ⟨hreading, hbytes⟩ | ⟨m, ps, rfl, hreading, hbytes⟩
    · obtain ⟨owner, hreads⟩ := hreading.reads
      have hlt := hread .readHead 3 owner (hreads ▸ List.mem_singleton_self _) rfl
      cases rest with
      | nil => rfl
      | cons m ps =>
          rw [hbytes, wires, List.flatMap_cons, List.length_append, UserPacket.length_wire] at hlt
          omega
    · obtain ⟨owner, hreads⟩ := hreading.reads
      have hlt := hread (.readBody m.type m.body.length) m.body.length owner
        (hreads ▸ List.mem_singleton_self _) rfl
      rw [hbytes, List.length_append] at hlt
      omega
  rw [hf.messages, hq, hrest', List.append_nil, List.map_nil, List.append_nil]

end AtRest

/-- In every run of a fresh link whose program sends packets that fit and has a handler without errors for every
message, whatever the order of calls, transfers, completions and runs is, at most five steps for each byte that was
sent move anything; and when no step that moves anything is possible, each side has handed to its handlers all messages
that the other side sent. -/
theorem every_message_handled {l t : Link} {es : List LinkEvent} (hl : l.Fresh) (hes : ∀ e ∈ es, e.Ok)
    (hrun : linkMachine.run l es = some t) :
    linkMachine.count moves l es ≤ 5 * t.allBytes ∧ (t.AtRest → ∀ a,
      handledMessages (t.conn a.other).trace = (sentPackets (t.conn a).trace).map UserPacket.message) := by
  have hfresh : l.allWork = 0 := by
    have hwork : ∀ a, l.work a = 0 := by
      intro a
      have hc := hl.conn a
      rw [work, outWork, unsent, JmyTcpConnection.waits, hc.sendBuffList, hc.sendingData, hl.moved, hl.stream,
        hc.recvBuffList]
      rfl
    rw [allWork, hwork, hwork]
  have hopen : l.Open := by
    intro a p hp
    rw [(hl.conn a).sends] at hp
    cases hp
  have hpaid : ∀ s e s', LinkEvent.Ok e → Flows s → s.step e = some s' → Flows s' ∧ Paid e s s' :=
    fun s e s' he hs hstep => ⟨hs.step he hstep, hs.paid he hstep⟩
  have hcount : linkMachine.count moves l es + t.allWork + 5 * l.allBytes ≤ l.allWork + 5 * t.allBytes :=
    Machine.count_le hpaid hl.flows hes hrun
  have halong : linkMachine.Along (fun _ e => e.Ok) l es := Machine.along_of_forall hes
  obtain ⟨hflows, hopen'⟩ : t.Flows ∧ t.Open :=
    Machine.invariant_along (I := fun s => Flows s ∧ Open s)
      (fun s e s' hs he hstep => ⟨hs.1.step he hstep, hs.2.step hs.1 he hstep⟩) ⟨hl.flows, hopen⟩ halong hrun
  exact ⟨by omega, fun hrest a => hrest.handled hflows hopen'⟩

/-- Where only heads are waited for and nothing is on the way, nothing can move. -/
theorem atRest_of (hpending : ∀ a, ∀ p ∈ (l.conn a).pending, p.op = .readHead) (hmoved : ∀ a, l.moved a = none)
    (hstream : ∀ a, l.stream a = []) (hrecv : ∀ a, (l.conn a).buffer.recvBuffList.usingList = [])
    (hwaits : ∀ a, (l.conn a).waits = false) : l.AtRest := by
  intro e _ hmoves
  cases e with
  | call a k => cases hmoves
  | run a h now data past =>
      rw [moves, hrecv, hwaits] at hmoves
      cases hmoves
  | transfer a i k =>
      rw [step, Option.bind_eq_none_iff]
      intro p hp
      rw [hpending a p (List.mem_of_getElem? hp)]
      rfl
  | sendDone a i =>
      rw [step, hmoved]
      rfl
  | readDone a i =>
      rw [step, Option.bind_eq_none_iff]
      intro p hp
      rw [hpending a p (List.mem_of_getElem? hp), hstream]
      rfl

/-- The message of one byte that is sent in two transfers. -/
theorem oneMessage_handled :
    ∃ t, linkMachine.run ⟨fun _ => accepted 1, fun _ => none, fun _ => []⟩ oneMessage = some t ∧
      linkMachine.count moves ⟨fun _ => accepted 1, fun _ => none, fun _ => []⟩ oneMessage ≤ 5 * t.allBytes ∧
      handledMessages (t.conn .right).trace = (sentPackets (t.conn .left).trace).map UserPacket.message := by
  have hfresh : Link.Fresh ⟨fun _ => accepted 1, fun _ => none, fun _ => []⟩ :=
    ⟨fun _ => ⟨reading_accepted 1, rfl, rfl, rfl, rfl, rfl, rfl, rfl⟩, fun _ => rfl, fun _ => rfl⟩
  have hok : ∀ e ∈ oneMessage, e.Ok := by
    have hhandlers : ConnHandlers.Ok ⟨fun _ => none, some fun _ _ => (0, []), none⟩ := quietHandlers_ok
    simp only [oneMessage, List.forall_mem_cons, LinkEvent.Ok, hhandlers, ConnCall.Ok, UserPacket.Ok]
    simp
  obtain ⟨t, hrun, hpending, hmoved, hstream, hrecv, hwaits⟩ :
      ∃ t, linkMachine.run ⟨fun _ => accepted 1, fun _ => none, fun _ => []⟩ oneMessage = some t ∧
        (∀ a, (t.conn a).pending = [⟨.readHead, 1, true⟩]) ∧ (∀ a, t.moved a = none) ∧ (∀ a, t.stream a = []) ∧
        (∀ a, (t.conn a).buffer.recvBuffList.usingList = []) ∧ ∀ a, (t.conn a).waits = false := by
    refine ⟨_, rfl, ?_, ?_, ?_, ?_, ?_⟩ <;>
    · intro a
      cases a <;> rfl
  have hrest : t.AtRest := by
    refine atRest_of (fun a p hp => ?_) hmoved hstream hrecv hwaits
    rw [hpending a, List.mem_singleton] at hp
    rw [hp]
  obtain ⟨hcount, hhandled⟩ := every_message_handled hfresh hok hrun
  exact ⟨t, hrun, hcount, hhandled hrest .left⟩

end Link

end JmyGame
