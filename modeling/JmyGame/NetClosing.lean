import JmyGame.NetFlow

/-! The graceful close. `close` queues the disconnect packet and makes the connection DISCONNECTING, in
which `start_send` sends nothing any more: what is queued goes out only as long as the chain of
completions of `buffer_list_send` goes on, and this needs a send that is in flight when `close` is
called, and ends after 100 packets. -/

namespace JmyGame

open CArith Block JmySessionBufferList

/-- A relation between send buffers that all writes respect. -/
structure Appends {β : Type} [SendBuffer β] (E : β → β → Prop) : Prop where
  refl : ∀ b, E b b
  one : ∀ b data, E b (SendBuffer.writeData b data).2
  two : ∀ b head data r, head ≠ [] → head.length < 2 ^ 16 →
    SendBuffer.writeDatas b [head, data] = some r → E b r.2

namespace Appends

variable {β : Type} [SendBuffer β] {E : β → β → Prop} {b : β} {r : ℤ × β}

theorem writePacket (h : Appends E) (b : β) (packet : Option (List Byte)) :
    E b (writePacket b packet).2 := by
  unfold JmyGame.writePacket
  cases packet with
  | none => exact h.refl b
  | some bytes =>
      dsimp only
      split_ifs
      · exact h.one b bytes
      · exact h.one b bytes

theorem writeHeadAndData (h : Appends E) {head data : List Byte} (hhead : head ≠ [])
    (hlen : head.length < 2 ^ 16) (hr : writeHeadAndData b head data = some r) : E b r.2 := by
  unfold JmyGame.writeHeadAndData at hr
  split_ifs at hr
  · cases hr
    split_ifs
    · exact h.one b head
    · exact h.one b head
  · obtain ⟨r', hr', rfl⟩ := Option.map_eq_some_iff.1 hr
    have hboth := h.two b head data r' hhead hlen hr'
    split_ifs
    · exact hboth
    · exact hboth

theorem writeUserData (h : Appends E) {msgId : BitVec 32} {data : List Byte}
    (hr : writeUserData b msgId data = some r) : E b r.2 := by
  rw [writeUserData_eq] at hr
  refine h.writeHeadAndData (userDataHead_ne_nil msgId data.length) ?_ hr
  rw [length_userDataHead]
  decide

theorem writeUserIdAndData (h : Appends E) {userId msgId : BitVec 32} {data : List Byte}
    (hr : writeUserIdAndData b userId msgId data = some r) : E b r.2 := by
  unfold JmyGame.writeUserIdAndData at hr
  rw [packUserIdDataHead_eq] at hr
  have hlen : (userIdDataHead userId msgId (data.length % 2 ^ 16)).length < 2 ^ 16 :=
    show 9 < 2 ^ 16 by decide
  exact h.writeHeadAndData (List.cons_ne_nil _ _) hlen hr

end Appends

/-- Whole packets are added at the end of the list. -/
def JmySessionBufferList.Extends (l l' : JmySessionBufferList) : Prop :=
  ∃ new, (∀ b ∈ new, Queued b) ∧ l'.usingList = l.usingList ++ new

theorem extends_refl (l : JmySessionBufferList) : l.Extends l := ⟨[], by simp, by simp⟩

theorem extends_pushBack (l : JmySessionBufferList) {b : Buffer} (hb : Queued b) (len : ℕ) :
    l.Extends (l.pushBack b len) := ⟨[b], by simpa using hb, rfl⟩

theorem appends_extends : Appends JmySessionBufferList.Extends where
  refl := extends_refl
  one := by
    intro l data
    change l.Extends (l.writeData data).2
    unfold JmySessionBufferList.writeData Buffer.initData
    dsimp only
    split_ifs with hover hzero
    · exact extends_refl l
    · exact extends_refl l
    · have hle : data.length % 2 ^ 16 ≤ data.length := Nat.mod_le _ _
      have hlt : data.length % 2 ^ 16 < 2 ^ 16 := Nat.mod_lt _ (by decide)
      apply extends_pushBack
      refine ⟨?_, ?_, ?_⟩ <;> simp only [List.length_take] <;> omega
  two := by
    intro l head data r hhead hlen hr
    obtain rfl := Option.some.inj hr
    rw [l.writeDatas_pair data hhead hlen]
    split_ifs with hover hfit
    · exact extends_refl l
    · apply extends_pushBack
      apply queued_packetOf
      · exact List.append_ne_nil_of_left_ne_nil hhead _
      · rw [List.length_append, List.length_take]
        omega
    · exact extends_refl l

theorem appends_unread : Appends (fun d d' : JmyDoubleSessionBuffer => d.unread <+: d'.unread) where
  refl d := List.prefix_refl _
  one := by
    intro d data
    change d.unread <+: (d.setSessionBuffer (d.getSessionBuffer.writeData data).2).unread
    rw [JmyDoubleSessionBuffer.unread, JmyDoubleSessionBuffer.unread,
      JmyDoubleSessionBuffer.getSessionBuffer_set]
    rcases d.getSessionBuffer.writeData_spec data with ⟨-, hw⟩ | ⟨-, b', hw, hunread⟩
    · simp only [hw, List.prefix_refl]
    · rw [hw, hunread]
      exact List.prefix_append _ _
  two := by
    intro d head data r hhead hlen hr
    obtain ⟨r', hr', rfl⟩ := Option.map_eq_some_iff.1 hr
    rw [JmyDoubleSessionBuffer.unread, JmyDoubleSessionBuffer.unread,
      JmyDoubleSessionBuffer.getSessionBuffer_set]
    unfold JmySessionBuffer.writeDatas at hr'
    rw [if_neg (List.cons_ne_nil _ _)] at hr'
    split_ifs at hr'
    · cases hr'
      exact List.prefix_refl _
    · obtain ⟨b', hb', rfl⟩ := Option.map_eq_some_iff.1 hr'
      rcases d.getSessionBuffer.foldlM_copyIn_pair head data with ⟨-, b₁, hb₁, hunread⟩ | ⟨-, hnone⟩
      · rw [hb₁, Option.some.injEq] at hb'
        subst hb'
        rw [hunread, List.append_assoc]
        exact List.prefix_append _ _
      · rw [hnone] at hb'
        cases hb'

/-- How the sends of a connection fit its buffers: nothing is in flight unless `sending_data_` is set; on
a send list it is then the first packet, on a send buffer the bytes at its front. -/
structure SendSound (c : JmyTcpConnection) : Prop where
  alive : c.state ≠ .disconnected
  queued : ∀ b ∈ c.buffer.sendBuffList.usingList, Queued b
  count : c.buffSendCount < 100
  idle : c.sendingData = false → c.sends = []
  list : c.buffer.useSendList = true → c.sendingData = true → c.buffer.sendBuffList.usingList ≠ [] ∧
    ∃ owner, c.sends = [⟨.bufferListSend c.buffer.sendBuffList.front, owner, true⟩]
  buff : c.buffer.useSendList = false → c.sends = [] ∨ ∃ offered owner,
    c.sends = [⟨.bufferSend offered, owner, true⟩] ∧ offered <+: c.buffer.sendBuff.unread

/-- A connection whose socket was never closed has such sends. -/
def Healthy (c : JmyTcpConnection) : Prop := c.sockOpen = true → SendSound c

/-- Packets are queued in the send buffers, and nothing else happens to the sends. -/
structure Queues (c c' : JmyTcpConnection) : Prop where
  alive : c.state ≠ .disconnected → c'.state ≠ .disconnected
  sockOpen : c'.sockOpen = c.sockOpen
  useSendList : c'.buffer.useSendList = c.buffer.useSendList
  list : c.buffer.sendBuffList.Extends c'.buffer.sendBuffList
  buff : c.buffer.sendBuff.unread <+: c'.buffer.sendBuff.unread
  count : c'.buffSendCount = c.buffSendCount
  sendingData : c'.sendingData = c.sendingData
  sends : c'.sends = c.sends

namespace Queues

variable {c c' c'' : JmyTcpConnection}

theorem of_same (halive : c.state ≠ .disconnected → c'.state ≠ .disconnected)
    (hsock : c'.sockOpen = c.sockOpen)
    (huse : c'.buffer.useSendList = c.buffer.useSendList)
    (hlist : c'.buffer.sendBuffList = c.buffer.sendBuffList) (hbuff : c'.buffer.sendBuff = c.buffer.sendBuff)
    (hcount : c'.buffSendCount = c.buffSendCount) (hflag : c'.sendingData = c.sendingData)
    (hsends : c'.sends = c.sends) : Queues c c' := by
  refine ⟨halive, hsock, huse, ?_, ?_, hcount, hflag, hsends⟩
  · rw [hlist]
    exact extends_refl _
  · simp only [hbuff, List.prefix_refl]

theorem observe (c : JmyTcpConnection) (o : Obs) : Queues c (c.observe o) :=
  of_same id rfl rfl rfl rfl rfl rfl rfl

theorem setRecvBuffList (c : JmyTcpConnection) (l : JmySessionBufferList) :
    Queues c (c.setRecvBuffList l) := of_same id rfl rfl rfl rfl rfl rfl rfl

theorem setSendBuffList {l : JmySessionBufferList} (h : c.buffer.sendBuffList.Extends l) :
    Queues c (c.setSendBuffList l) := ⟨id, rfl, rfl, h, List.prefix_refl _, rfl, rfl, rfl⟩

theorem setSendBuff {b : JmyDoubleSessionBuffer} (h : c.buffer.sendBuff.unread <+: b.unread) :
    Queues c (c.setSendBuff b) := ⟨id, rfl, rfl, extends_refl _, h, rfl, rfl, rfl⟩

theorem writeControl (c : JmyTcpConnection) (packet : Option (List Byte)) :
    Queues c (c.writeControl packet).2 := by
  unfold JmyTcpConnection.writeControl
  split_ifs
  · exact setSendBuffList (appends_extends.writePacket _ packet)
  · exact setSendBuff (appends_unread.writePacket _ packet)

theorem writeUser {len : ℕ} {onList : JmySessionBufferList → Option (ℤ × JmySessionBufferList)}
    {onBuff : JmyDoubleSessionBuffer → Option (ℤ × JmyDoubleSessionBuffer)} {r : ℤ × JmyTcpConnection}
    (hlist : ∀ l r, onList l = some r → l.Extends r.2)
    (hbuff : ∀ b r, onBuff b = some r → b.unread <+: r.2.unread)
    (hr : c.writeUser len onList onBuff = some r) : Queues c r.2 := by
  unfold JmyTcpConnection.writeUser at hr
  split_ifs at hr
  · cases hr
    exact of_same id rfl rfl rfl rfl rfl rfl rfl
  · obtain ⟨l, hl, rfl⟩ := Option.map_eq_some_iff.1 hr
    exact setSendBuffList (hlist _ l hl)
  · obtain ⟨b, hb, rfl⟩ := Option.map_eq_some_iff.1 hr
    exact setSendBuff (hbuff _ b hb)

theorem startOp (c : JmyTcpConnection) {op : AsyncOp} (h : op.isRead = true) : Queues c (c.startOp op) := by
  refine of_same id rfl rfl rfl rfl rfl rfl ?_
  have happ : (c.startOp op).sends = c.sends ++ [⟨op, c.id, c.sockOpen⟩].filter fun p => !p.op.isRead :=
    List.filter_append _ _
  rw [happ]
  simp [h]

theorem trans (h : Queues c c') (h' : Queues c' c'') : Queues c c'' := by
  refine ⟨fun ha => h'.alive (h.alive ha), h'.sockOpen.trans h.sockOpen,
    h'.useSendList.trans h.useSendList, ?_, h.buff.trans h'.buff,
    h'.count.trans h.count, h'.sendingData.trans h.sendingData, h'.sends.trans h.sends⟩
  obtain ⟨new, hnew, hlist⟩ := h.list
  obtain ⟨new', hnew', hlist'⟩ := h'.list
  refine ⟨new ++ new', ?_, ?_⟩
  · intro b hb
    exact (List.mem_append.1 hb).elim (hnew b) (hnew' b)
  · rw [hlist', hlist, List.append_assoc]

theorem front (h : Queues c c') (hne : c.buffer.sendBuffList.usingList ≠ []) :
    c'.buffer.sendBuffList.front = c.buffer.sendBuffList.front := by
  obtain ⟨new, -, hlist⟩ := h.list
  rw [JmySessionBufferList.front, JmySessionBufferList.front, hlist]
  cases hold : c.buffer.sendBuffList.usingList with
  | nil => exact absurd hold hne
  | cons b bs => rfl

theorem sound (h : Queues c c') (hc : SendSound c) : SendSound c' := by
  obtain ⟨new, hnew, hlist⟩ := h.list
  refine ⟨h.alive hc.alive, ?_, h.count ▸ hc.count, ?_, ?_, ?_⟩
  · intro b hb
    rw [hlist] at hb
    exact (List.mem_append.1 hb).elim (hc.queued b) (hnew b)
  · intro hidle
    rw [h.sends]
    exact hc.idle (h.sendingData ▸ hidle)
  · intro huse hbusy
    obtain ⟨hne, owner, hone⟩ := hc.list (h.useSendList ▸ huse) (h.sendingData ▸ hbusy)
    refine ⟨?_, owner, ?_⟩
    · rw [hlist]
      exact List.append_ne_nil_of_left_ne_nil hne new
    · rw [h.sends, h.front hne, hone]
  · intro huse
    rcases hc.buff (h.useSendList ▸ huse) with hnone | ⟨offered, owner, hone, hpre⟩
    · exact Or.inl (h.sends.trans hnone)
    · exact Or.inr ⟨offered, owner, h.sends.trans hone, hpre.trans h.buff⟩

theorem healthy (h : Queues c c') (hc : Healthy c) : Healthy c' := by
  intro hopen
  exact h.sound (hc (h.sockOpen ▸ hopen))

end Queues

section steps

variable {c c' : JmyTcpConnection}

theorem Healthy.forceClose (hc : Healthy c) : Healthy c.forceClose := by
  unfold JmyTcpConnection.forceClose
  split_ifs
  · exact hc
  · intro hopen
    cases hopen

theorem Healthy.close (hc : Healthy c) (now : ℤ) : Healthy (c.close now) := by
  have hwrite : Healthy c.sendDisconnect.2 := (Queues.writeControl c _).healthy hc
  simp only [JmyTcpConnection.close]
  split_ifs
  · exact hc
  · exact hwrite
  · have hclosing : Queues c.sendDisconnect.2 (c.sendDisconnect.2.closing now) :=
      Queues.of_same (fun _ h => JmyConnState.noConfusion h) rfl rfl rfl rfl rfl rfl rfl
    exact hclosing.healthy hwrite

theorem Healthy.call {k : ConnCall} (hc : Healthy c) (h : c.call k = some c') : Healthy c' := by
  cases k with
  | send msgId data =>
      obtain ⟨r, hr, rfl⟩ := Option.map_eq_some_iff.1 h
      refine (Queues.writeUser ?_ ?_ hr).healthy ((Queues.observe c _).healthy hc)
      · exact fun _ _ => appends_extends.writeUserData
      · exact fun _ _ => appends_unread.writeUserData
  | sendUser userId msgId data =>
      obtain ⟨r, hr, rfl⟩ := Option.map_eq_some_iff.1 h
      refine (Queues.writeUser ?_ ?_ hr).healthy ((Queues.observe c _).healthy hc)
      · exact fun _ _ => appends_extends.writeUserIdAndData
      · exact fun _ _ => appends_unread.writeUserIdAndData
  | close now =>
      cases h
      exact hc.close now
  | forceClose =>
      cases h
      exact hc.forceClose

theorem Healthy.handleDisconnect (hc : Healthy c) : Healthy c.handleDisconnect.2 := by
  unfold JmyTcpConnection.handleDisconnect
  split_ifs
  · exact hc
  · exact (Queues.writeControl c _).healthy hc

theorem Healthy.handleDisconnectAck (hc : Healthy c) : Healthy c.handleDisconnectAck.2 := by
  unfold JmyTcpConnection.handleDisconnectAck
  split_ifs
  · exact hc
  · exact hc.forceClose

/-- A send that was started is behind the other operations. -/
theorem sends_startOp (c : JmyTcpConnection) {op : AsyncOp} (h : op.isRead = false) :
    (c.startOp op).sends = c.sends ++ [⟨op, c.id, c.sockOpen⟩] := by
  have happ : (c.startOp op).sends = c.sends ++ [⟨op, c.id, c.sockOpen⟩].filter fun p => !p.op.isRead :=
    List.filter_append _ _
  rw [happ]
  simp [h]

theorem Healthy.startSend (hc : Healthy c) : Healthy c.startSend.2 := by
  unfold JmyTcpConnection.startSend
  split_ifs with hstate hbusy hlen huse
  · exact hc
  · exact hc
  · exact hc
  · -- the first packet of the list is offered
    intro hopen
    have hc := hc hopen
    have hopen' : c.sockOpen = true := hopen
    have hsends : ({ c.bufferListSend with sendingData := true } : JmyTcpConnection).sends =
        [⟨.bufferListSend c.buffer.sendBuffList.front, c.id, true⟩] := by
      have h := sends_startOp c (show AsyncOp.isRead (.bufferListSend c.buffer.sendBuffList.front) = false
        from rfl)
      rw [hc.idle (Bool.not_eq_true _ ▸ hbusy), hopen'] at h
      exact h
    refine ⟨hc.alive, hc.queued, hc.count, fun h => Bool.noConfusion h, fun _ _ => ⟨?_, c.id, hsends⟩, ?_⟩
    · intro hnil
      have hnil' : c.buffer.sendBuffList.usingList = [] := hnil
      rw [JmyTcpConnection.sendReadLen, if_pos huse, JmySessionBufferList.getReadLen, hnil'] at hlen
      exact hlen rfl
    · intro huse'
      have huse'' : c.buffer.useSendList = false := huse'
      rw [huse] at huse''
      cases huse''
  · -- the bytes of the buffer are offered
    intro hopen
    have hc := hc hopen
    have hopen' : c.sockOpen = true := hopen
    have hsends : ({ c.bufferSend with sendingData := true } : JmyTcpConnection).sends =
        [⟨.bufferSend c.buffer.sendBuff.unread, c.id, true⟩] := by
      have h := sends_startOp c (show AsyncOp.isRead (.bufferSend c.buffer.sendBuff.unread) = false from rfl)
      rw [hc.idle (Bool.not_eq_true _ ▸ hbusy), hopen'] at h
      exact h
    refine ⟨hc.alive, hc.queued, hc.count, fun h => Bool.noConfusion h, fun h _ => absurd h huse, fun _ => ?_⟩
    exact Or.inr ⟨_, c.id, hsends, List.prefix_refl _⟩

/-- The send that completes is the only one. -/
theorem SendSound.sends_popped (hc : SendSound c) {i : ℕ} {p : Pending} (hp : c.pending[i]? = some p)
    (hsend : p.op.isRead = false) : (c.popped i).sends = [] ∧ c.sends = [p] := by
  have hmem : p ∈ c.sends := List.mem_filter.2 ⟨List.mem_of_getElem? hp, by simp [hsend]⟩
  have hone : ∃ q, c.sends = [q] := by
    cases hflag : c.sendingData with
    | false =>
        rw [hc.idle hflag] at hmem
        cases hmem
    | true =>
        cases huse : c.buffer.useSendList with
        | true =>
            obtain ⟨-, owner, hone⟩ := hc.list huse hflag
            exact ⟨_, hone⟩
        | false =>
            rcases hc.buff huse with hnone | ⟨offered, owner, hone, -⟩
            · rw [hnone] at hmem
              cases hmem
            · exact ⟨_, hone⟩
  obtain ⟨q, hq⟩ := hone
  rw [hq, List.mem_singleton] at hmem
  refine ⟨filter_popped_one ?_ hp (by simp [hsend]), by rw [hq, hmem]⟩
  rw [show c.pending.filter _ = c.sends from rfl, hq]
  exact le_rfl

/-- The kind of a send is that of the buffer in use. -/
theorem SendSound.op (hc : SendSound c) {p : Pending} (hone : c.sends = [p]) :
    c.sendingData = true ∧ (c.buffer.useSendList = true ∧ c.buffer.sendBuffList.usingList ≠ [] ∧
        p.op = .bufferListSend c.buffer.sendBuffList.front ∧ p.sockOpen = true ∨
      c.buffer.useSendList = false ∧ p.sockOpen = true ∧
        ∃ offered, p.op = .bufferSend offered ∧ offered <+: c.buffer.sendBuff.unread) := by
  cases hflag : c.sendingData with
  | false =>
      rw [hc.idle hflag] at hone
      cases hone
  | true =>
      refine ⟨rfl, ?_⟩
      cases huse : c.buffer.useSendList with
      | true =>
          obtain ⟨hne, owner, hone'⟩ := hc.list huse hflag
          rw [hone, List.cons.injEq] at hone'
          exact Or.inl ⟨rfl, hne, by rw [hone'.1], by rw [hone'.1]⟩
      | false =>
          rcases hc.buff huse with hnone | ⟨offered, owner, hone', hpre⟩
          · rw [hone] at hnone
            cases hnone
          · rw [hone, List.cons.injEq] at hone'
            exact Or.inr ⟨rfl, by rw [hone'.1], offered, by rw [hone'.1], hpre⟩

theorem Queues.startRecv (c : JmyTcpConnection) : Queues c c.startRecv := by
  have hread : Queues c (c.startOp .readHead) := Queues.startOp c rfl
  unfold JmyTcpConnection.startRecv
  dsimp only
  split_ifs
  · exact of_same id rfl rfl rfl rfl rfl rfl rfl
  · exact of_same id rfl rfl rfl rfl rfl rfl rfl
  · exact hread.trans (of_same (fun _ h => JmyConnState.noConfusion h) rfl rfl rfl rfl rfl rfl rfl)
  · exact hread

theorem Healthy.handlePacketType (hc : Healthy c) (type : JmyPacketType2) :
    Healthy (c.handlePacketType type).2 := by
  cases type with
  | disconnect => exact hc.handleDisconnect
  | disconnectAck => exact hc.handleDisconnectAck
  | _ => exact hc

theorem Healthy.onReadHead (hc : Healthy c) (bytes : List Byte) : Healthy (c.onReadHead bytes) := by
  unfold JmyTcpConnection.onReadHead
  split_ifs
  · exact hc.forceClose
  · split
    · exact hc.forceClose
    · have htype := hc.handlePacketType
      dsimp only
      split_ifs
      · exact (Queues.startRecv _).healthy (htype _)
      · exact (Queues.startOp _ rfl).healthy (htype _)

theorem Healthy.onReadBody (hc : Healthy c) (type : JmyPacketType2) (packLen : ℕ) (bytes : List Byte) :
    Healthy (c.onReadBody type packLen bytes) := by
  unfold JmyTcpConnection.onReadBody
  split_ifs
  · exact hc.forceClose
  · exact (Queues.startRecv _).healthy ((Queues.setRecvBuffList c _).healthy hc)

/-- A read that completes leaves the sends alone. -/
theorem Queues.popped_read {i : ℕ} {p : Pending} (hp : c.pending[i]? = some p)
    (hread : p.op.isRead = true) : Queues c (c.popped i) :=
  of_same id rfl rfl rfl rfl rfl rfl (filter_popped_other hp (by simp [hread]))

/-- The completion handler of a send on the list. -/
theorem SendSound.onBufferListSend (hc : SendSound c) (hopen : c.sockOpen = true) {i n : ℕ} {p : Pending}
    (hp : c.pending[i]? = some p) (hop : p.op = .bufferListSend c.buffer.sendBuffList.front)
    (huse : c.buffer.useSendList = true) (hn : n ≤ c.buffer.sendBuffList.front.length) :
    SendSound ((c.popped i).onBufferListSend n) := by
  have hsend : p.op.isRead = false := by rw [hop]; rfl
  obtain ⟨hnone, hone⟩ := hc.sends_popped hp hsend
  have hbusy := (hc.op hone).1
  have hqueued := readLen_queued hc.queued hn
  have hnot : ¬c.buffer.useSendList = false := by rw [huse]; decide
  have hcount := hc.count
  simp only [JmyTcpConnection.onBufferListSend]
  split_ifs with hstop
  · have hzero : 0 < 100 := by decide
    exact ⟨hc.alive, hqueued, hzero, fun _ => hnone, fun _ h => Bool.noConfusion h, fun h => absurd h hnot⟩
  · rw [not_or] at hstop
    refine ⟨hc.alive, hqueued, ?_, ?_, fun _ _ => ⟨?_, c.id, ?_⟩, fun h => absurd h hnot⟩
    · exact not_le.1 hstop.1
    · intro hidle
      have hidle' : c.sendingData = false := hidle
      rw [hbusy] at hidle'
      cases hidle'
    · intro hnil
      exact hstop.2 (List.length_eq_zero_iff.2 hnil)
    · refine (sends_startOp _ rfl).trans ?_
      simp only [JmyTcpConnection.setSendBuffList, JmyTcpConnection.popped, hopen]
      exact congrArg (· ++ [_]) hnone

/-- The completion handler of a send on the buffer. -/
theorem SendSound.onBufferSend (hc : SendSound c) {i : ℕ} {p : Pending} (hp : c.pending[i]? = some p)
    (hsend : p.op.isRead = false) (huse : c.buffer.useSendList = false) (n : ℕ) :
    SendSound ((c.popped i).onBufferSend n) := by
  obtain ⟨hnone, -⟩ := hc.sends_popped hp hsend
  have hnot : ¬c.buffer.useSendList = true := by rw [huse]; decide
  simp only [JmyTcpConnection.onBufferSend]
  split_ifs
  all_goals exact ⟨hc.alive, hc.queued, hc.count, fun _ => hnone, fun h => absurd h hnot, fun _ => Or.inl hnone⟩

theorem Healthy.complete {i : ℕ} {r : Completion} (hc : Healthy c) (h : c.complete i r = some c') :
    Healthy c' := by
  obtain ⟨p, hp, hposs, rfl⟩ := complete_eq_some h
  by_cases hread : p.op.isRead = true
  · have hpop : Healthy (c.popped i) := (Queues.popped_read hp hread).healthy hc
    unfold JmyTcpConnection.onComplete
    split
    · exact hpop.forceClose
    · exact hpop.onReadHead _
    · exact hpop.onReadBody _ _ _
    · rename_i hop
      rw [hop] at hread
      cases hread
    · rename_i hop
      rw [hop] at hread
      cases hread
    · exact hpop
  · rw [Bool.not_eq_true] at hread
    cases r with
    | failed =>
        change Healthy (c.popped i).forceClose
        unfold JmyTcpConnection.forceClose
        split_ifs with hstate
        · intro hopen
          exact absurd hstate (hc hopen).alive
        · intro hopen
          cases hopen
    | read bytes =>
        cases hop : p.op <;> simp [Completion.possible, hop] at hposs <;> simp [hop, AsyncOp.isRead] at hread
    | sent n =>
        -- the socket is open still, so that the send is the one that the flag stands for
        intro hopen
        have hopen' : c.sockOpen = true := by
          rw [← hopen]
          cases hop : p.op with
          | bufferListSend offered => exact (Minor.onBufferListSend (c.popped i) n).sockOpen.symm
          | bufferSend offered => exact (Minor.onBufferSend (c.popped i) n).sockOpen.symm
          | _ => rfl
        have hsound := hc hopen'
        obtain ⟨-, hone⟩ := hsound.sends_popped hp hread
        rcases (hsound.op hone).2 with ⟨huse, -, hop, -⟩ | ⟨huse, -, offered, hop, -⟩
        · rw [hop]
          simp only [Completion.possible, hop, Bool.and_eq_true, decide_eq_true_eq] at hposs
          exact hsound.onBufferListSend hopen' hp hop huse hposs.2
        · rw [hop]
          exact hsound.onBufferSend hp hread huse n

/-- Every step keeps the sends of a connection in order until the socket is closed. -/
theorem Healthy.step {e : ConnEvent} (hc : Healthy c) (h : c.step e = some c') : Healthy c' := by
  cases e with
  | call k => exact hc.call h
  | complete i r => exact hc.complete h
  | run handlers now data past =>
      obtain ⟨r, hr, rfl⟩ := Option.map_eq_some_iff.1 h
      have w : RunWithin (fun f => f) (fun c c' => Healthy c → Healthy c') := {
        refl := fun _ => id
        trans := fun _ _ _ h h' hs => h' (h hs)
        observe := fun _ s => (Queues.observe s _).healthy
        heartbeat := fun _ => id
        disconnect := fun _ => Healthy.handleDisconnect
        disconnectAck := fun _ => Healthy.handleDisconnectAck
        clear := fun s => (Queues.setRecvBuffList s _).healthy
        send := fun _ => Healthy.startSend
        forceClose := fun _ => Healthy.forceClose }
      exact w.run (fun s => (Queues.observe s _).healthy) (fun _ _ _ h hs => hs.call h) hr hc

end steps

/-- The bytes that wait in the send buffer in use. -/
def JmyTcpConnection.queued (c : JmyTcpConnection) : List Byte :=
  if c.buffer.useSendList then c.buffer.sendBuffList.unread else c.buffer.sendBuff.unread

/-- The bytes that sends offer to the socket. -/
def offeredBytes (ps : List Pending) : List Byte := ps.flatMap fun p => p.op.offered.getD []

/-- The operations that a step starts. -/
def startedOps (c : JmyTcpConnection) (e : ConnEvent) (c' : JmyTcpConnection) : List Pending :=
  match e with
  | .complete _ _ => c'.pending.drop (c.pending.length - 1)
  | _ => c'.pending.drop c.pending.length

/-- A connection with the bytes that were offered to its socket so far. -/
def offerMachine : Machine (JmyTcpConnection × List Byte) ConnEvent :=
  ⟨fun s e => (connMachine.step s.1 e).map fun c => (c, s.2 ++ offeredBytes (startedOps s.1 e c))⟩

/-- The steps of a connection that is closing: `run`, and a send that completes with all the bytes that it
offered. -/
def TakesAll (c : JmyTcpConnection) : ConnEvent → Prop
  | .run _ _ _ _ => True
  | .complete i (.sent n) => ∃ p offered, c.pending[i]? = some p ∧ p.op.offered = some offered ∧
      n = offered.length
  | _ => False

/-- All that is queued in a closing connection is offered to its socket: when the socket took whatever was
offered, nothing is in flight and `run` came after that, nothing is left that was not offered. -/
def Announces (c : JmyTcpConnection) : Prop :=
  ∀ es h now data past t offered,
    offerMachine.Along (fun s e => TakesAll s.1 e) (c, offeredBytes c.sends) (es ++ [.run h now data past]) →
    offerMachine.run (c, offeredBytes c.sends) (es ++ [.run h now data past]) = some (t, offered) →
    t.state = .disconnecting → t.sends = [] → offered = c.queued

/-- Nothing happened but entries in the trace, unless the connection is closed. -/
def Waits (c c' : JmyTcpConnection) : Prop :=
  c'.state = .disconnected ∨ ∃ trace, c' = { c with trace := trace }

section waits

variable {c c' c'' : JmyTcpConnection}

theorem Waits.refl (c : JmyTcpConnection) : Waits c c := Or.inr ⟨c.trace, rfl⟩

theorem Waits.trans (h : Waits c c') (h' : Waits c' c'') : Waits c c'' := by
  rcases h' with h' | ⟨trace', rfl⟩
  · exact Or.inl h'
  · rcases h with h | ⟨trace, rfl⟩
    · exact Or.inl h
    · exact Or.inr ⟨trace', rfl⟩

theorem Waits.state (h : Waits c c') (hc : c.state ≠ .connected) : c'.state ≠ .connected := by
  rcases h with h | ⟨trace, rfl⟩
  · rw [h]
    decide
  · exact hc

theorem waits_forceClose (c : JmyTcpConnection) : Waits c c.forceClose := Or.inl (forceClose_state c)

/-- A connection that is not connected refuses to send and to close. -/
theorem waits_call {k : ConnCall} (hc : c.state ≠ .connected) (h : c.call k = some c') : Waits c c' := by
  cases k with
  | send msgId data =>
      obtain ⟨r, hr, rfl⟩ := Option.map_eq_some_iff.1 h
      unfold JmyTcpConnection.send JmyTcpConnection.writeUser at hr
      rw [if_pos (show (c.observe _).state ≠ .connected from hc)] at hr
      cases hr
      exact Or.inr ⟨_, rfl⟩
  | sendUser userId msgId data =>
      obtain ⟨r, hr, rfl⟩ := Option.map_eq_some_iff.1 h
      unfold JmyTcpConnection.sendUser JmyTcpConnection.writeUser at hr
      rw [if_pos (show (c.observe _).state ≠ .connected from hc)] at hr
      cases hr
      exact Or.inr ⟨_, rfl⟩
  | close now =>
      cases h
      rw [JmyTcpConnection.close, if_pos hc]
      exact Waits.refl c
  | forceClose =>
      cases h
      exact waits_forceClose c

theorem waits_calls {ks : List ConnCall} (hc : c.state ≠ .connected) (h : c.calls ks = some c') :
    Waits c c' := by
  induction ks generalizing c with
  | nil =>
      cases h
      exact Waits.refl _
  | cons k ks ih =>
      obtain ⟨c₁, hk, hrest⟩ := Option.bind_eq_some_iff.1 h
      have hfirst := waits_call hc hk
      exact hfirst.trans (ih (hfirst.state hc) hrest)

/-- `run` of a connection that is not connected sends nothing. -/
theorem waits_run {h : ConnHandlers} {now : ℤ} {data : JmyPacketUnpackData2} {past : ℕ → Byte}
    {r : ℤ × JmyPacketUnpackData2 × JmyTcpConnection} (hc : c.state ≠ .connected)
    (hr : c.run h now data past = some r) : Waits c r.2.2 := by
  obtain ⟨c₁, htick, hrest⟩ := Option.bind_eq_some_iff.1 hr
  have hfirst : Waits c c₁ := by
    unfold ConnHandlers.tick at htick
    split at htick
    · cases htick
      exact Waits.refl c
    · exact Waits.trans (Or.inr ⟨_, rfl⟩) (waits_calls (c := c.observe _) hc htick)
  have hstate := hfirst.state hc
  split_ifs at hrest
  · cases hrest
    exact hfirst.trans (waits_forceClose c₁)
  · cases hrest
    exact hfirst

/-- A `run` of a closing connection offers nothing. -/
theorem offer_run {s s' : JmyTcpConnection × List Byte} {h : ConnHandlers} {now : ℤ}
    {data : JmyPacketUnpackData2} {past : ℕ → Byte} (hs : s.1.state ≠ .connected)
    (hstep : offerMachine.step s (.run h now data past) = some s') :
    s'.1.state = .disconnected ∨ ∃ trace, s' = ({ s.1 with trace := trace }, s.2) := by
  obtain ⟨c, hc, rfl⟩ := Option.map_eq_some_iff.1 hstep
  obtain ⟨r, hr, rfl⟩ := Option.map_eq_some_iff.1 hc
  rcases waits_run hs hr with hclosed | ⟨trace, htrace⟩
  · exact Or.inl hclosed
  · refine Or.inr ⟨trace, ?_⟩
    rw [htrace]
    simp [startedOps, offeredBytes]

end waits

/-- A connection on a send list that is closing while its first packet is in flight. -/
structure Chain (c : JmyTcpConnection) (b : Buffer) (rest : List Buffer) : Prop where
  state : c.state = .disconnecting
  sockOpen : c.sockOpen = true
  sound : SendSound c
  useSendList : c.buffer.useSendList = true
  list : c.buffer.sendBuffList.usingList = b :: rest
  sends : c.sends ≠ []

section chain

variable {c c' : JmyTcpConnection} {b : Buffer} {rest : List Buffer}

theorem Chain.front (h : Chain c b rest) : c.buffer.sendBuffList.front = b.unread := by
  rw [JmySessionBufferList.front, h.list]

/-- The send in flight is the one that completes. -/
theorem Chain.pending (h : Chain c b rest) {i : ℕ} {p : Pending} (hp : c.pending[i]? = some p)
    (hsend : p.op.isRead = false) : p.op = .bufferListSend b.unread ∧ p.sockOpen = true := by
  obtain ⟨-, hone⟩ := h.sound.sends_popped hp hsend
  rcases (h.sound.op hone).2 with ⟨-, -, hop, hopen⟩ | ⟨huse, -⟩
  · exact ⟨by rw [hop, h.front], hopen⟩
  · rw [h.useSendList] at huse
    cases huse

/-- The connection behind the completion of a whole packet. -/
theorem Chain.sent (h : Chain c b rest) (i : ℕ) :
    (c.popped i).onBufferListSend b.unread.length =
      if 100 ≤ c.buffSendCount + 1 ∨ rest = [] then
        { (c.popped i).setSendBuffList { c.buffer.sendBuffList with usingList := rest } with
          buffSendCount := 0, sendingData := false }
      else JmyTcpConnection.bufferListSend
        { (c.popped i).setSendBuffList { c.buffer.sendBuffList with usingList := rest } with
          buffSendCount := c.buffSendCount + 1 } := by
  have hb : Queued b := h.sound.queued b (by rw [h.list]; exact List.mem_cons_self)
  have hread : c.buffer.sendBuffList.readLen b.unread.length =
      { c.buffer.sendBuffList with usingList := rest } := by
    rw [readLen_cons h.list hb le_rfl, if_pos rfl]
  unfold JmyTcpConnection.onBufferListSend
  rw [show (c.popped i).buffer.sendBuffList = c.buffer.sendBuffList from rfl, hread]
  simp only [getUsingSize, JmyTcpConnection.setSendBuffList, List.length_eq_zero_iff]
  rfl

/-- The completion of the packet in flight ends the chain, or offers the next packet. -/
theorem Chain.next {offered offered' : List Byte} {i n : ℕ} (h : Chain c b rest)
    (htakes : TakesAll c (.complete i (.sent n)))
    (hstep : offerMachine.step (c, offered) (.complete i (.sent n)) = some (c', offered')) :
    c'.buffer.sendBuffList.usingList = rest ∧ c'.buffer.useSendList = true ∧ c'.state = .disconnecting ∧
      ((100 ≤ c.buffSendCount + 1 ∨ rest = []) ∧ c'.sends = [] ∧ offered' = offered ∨
        ∃ b' rest', rest = b' :: rest' ∧ c.buffSendCount + 1 < 100 ∧ Chain c' b' rest' ∧
          c'.buffSendCount = c.buffSendCount + 1 ∧ offered' = offered ++ b'.unread) := by
  obtain ⟨c₁, hc₁, heq⟩ := Option.map_eq_some_iff.1 hstep
  obtain ⟨rfl, rfl⟩ := Prod.mk.inj heq
  obtain ⟨p, hp, -, hdone⟩ := complete_eq_some hc₁
  obtain ⟨p', bytes, hp', hbytes, hn⟩ := htakes
  rw [hp, Option.some.injEq] at hp'
  subst hp'
  have hsend : p.op.isRead = false := by
    cases hop : p.op <;> rw [hop] at hbytes <;> first | rfl | cases hbytes
  obtain ⟨hop, -⟩ := h.pending hp hsend
  rw [hop] at hbytes
  cases hbytes
  have hlen : (c.popped i).pending.length = c.pending.length - 1 :=
    List.length_eraseIdx_of_lt (List.getElem?_eq_some_iff.1 hp).1
  have hnone := (h.sound.sends_popped hp hsend).1
  rw [hop, hn] at hdone
  change c₁ = (c.popped i).onBufferListSend b.unread.length at hdone
  rw [h.sent i] at hdone
  have hsound : SendSound c₁ := by
    have hhealthy : Healthy c₁ := Healthy.complete (fun _ => h.sound) hc₁
    apply hhealthy
    rw [hdone]
    split_ifs <;> exact h.sockOpen
  by_cases hstop : 100 ≤ c.buffSendCount + 1 ∨ rest = []
  · rw [if_pos hstop] at hdone
    subst hdone
    refine ⟨rfl, h.useSendList, h.state, Or.inl ⟨hstop, hnone, ?_⟩⟩
    have hdrop : (c.popped i).pending.drop (c.pending.length - 1) = [] := by rw [← hlen, List.drop_length]
    rw [startedOps]
    change offered ++ offeredBytes ((c.popped i).pending.drop (c.pending.length - 1)) = offered
    rw [hdrop]
    exact List.append_nil _
  · rw [if_neg hstop] at hdone
    rw [not_or] at hstop
    obtain ⟨b', rest', hrest⟩ := List.exists_cons_of_ne_nil hstop.2
    subst hdone
    refine ⟨rfl, h.useSendList, h.state, Or.inr ⟨b', rest', hrest, not_le.1 hstop.1, ?_, rfl, ?_⟩⟩
    · refine ⟨h.state, h.sockOpen, hsound, h.useSendList, hrest, ?_⟩
      rw [JmyTcpConnection.bufferListSend, sends_startOp _ rfl]
      exact List.append_ne_nil_of_right_ne_nil _ (List.cons_ne_nil _ _)
    · have hdrop : ∀ p, ((c.popped i).pending ++ [p]).drop (c.pending.length - 1) = [p] := by
        intro p
        rw [← hlen, List.drop_left]
      rw [startedOps]
      change offered ++ offeredBytes (((c.popped i).pending ++ [_]).drop (c.pending.length - 1)) = _
      rw [hdrop]
      simp [offeredBytes, AsyncOp.offered, JmyTcpConnection.setSendBuffList, JmySessionBufferList.front, hrest]

end chain

section announce

variable {c c' t : JmyTcpConnection}

/-- The packets of the chain are offered, and those that are left fit into it. -/
def Announcing (queued : List Byte) (s : JmyTcpConnection × List Byte) : Prop :=
  s.1.state = .disconnected ∨
  (∃ b rest, Chain s.1 b rest ∧ s.1.buffSendCount + rest.length < 100 ∧
    s.2 ++ rest.flatMap Buffer.unread = queued) ∨
  s.1.state = .disconnecting ∧ s.1.sends = [] ∧ s.2 = queued

theorem TakesAll.send {i n : ℕ} (h : TakesAll c (.complete i (.sent n))) :
    ∃ p, c.pending[i]? = some p ∧ p.op.isRead = false ∧ p ∈ c.sends := by
  obtain ⟨p, offered, hp, hoffered, -⟩ := h
  have hsend : p.op.isRead = false := by
    cases hop : p.op <;> rw [hop] at hoffered <;> first | rfl | cases hoffered
  exact ⟨p, hp, hsend, List.mem_filter.2 ⟨List.mem_of_getElem? hp, by simp [hsend]⟩⟩

/-- A send that completes leaves the state alone. -/
theorem complete_sent_state {i n : ℕ} (h : c.complete i (.sent n) = some c') : c'.state = c.state := by
  obtain ⟨p, -, -, rfl⟩ := complete_eq_some h
  cases hop : p.op with
  | bufferListSend offered => exact (Minor.onBufferListSend (c.popped i) n).state
  | bufferSend offered => exact (Minor.onBufferSend (c.popped i) n).state
  | _ => rfl

theorem Announcing.step {queued : List Byte} {s s' : JmyTcpConnection × List Byte} {e : ConnEvent}
    (hs : Announcing queued s) (htakes : TakesAll s.1 e) (hstep : offerMachine.step s e = some s') :
    Announcing queued s' := by
  obtain ⟨c, offered⟩ := s
  obtain ⟨c', offered'⟩ := s'
  cases e with
  | call k => exact htakes.elim
  | run h now data past =>
      have hnot : c.state ≠ .connected := by
        rcases hs with hs | ⟨b, rest, hs, -⟩ | ⟨hs, -⟩
        · rw [hs]
          decide
        · rw [hs.state]
          decide
        · rw [hs]
          decide
      rcases offer_run hnot hstep with hclosed | ⟨trace, heq⟩
      · exact Or.inl hclosed
      · cases heq
        rcases hs with hs | ⟨b, rest, hs, hcount, hbytes⟩ | hs
        · exact Or.inl hs
        · refine Or.inr (Or.inl ⟨b, rest, ⟨hs.state, hs.sockOpen, ?_, hs.useSendList, hs.list, hs.sends⟩,
            hcount, hbytes⟩)
          have hsound := hs.sound
          exact ⟨hsound.alive, hsound.queued, hsound.count, hsound.idle, hsound.list, hsound.buff⟩
        · exact Or.inr (Or.inr hs)
  | complete i r =>
      cases r with
      | sent n =>
          rcases hs with hs | ⟨b, rest, hs, hcount, hbytes⟩ | ⟨-, hs, -⟩
          · obtain ⟨c₁, hc₁, heq⟩ := Option.map_eq_some_iff.1 hstep
            cases heq
            exact Or.inl ((complete_sent_state hc₁).trans hs)
          · obtain ⟨-, -, hstate, hdone | ⟨b', rest', hrest, -, hchain, hcount', hoffered⟩⟩ :=
              hs.next htakes hstep
            · obtain ⟨hstop, hsends, hoffered⟩ := hdone
              have hnil : rest = [] := by
                rcases hstop with hstop | hnil
                · have hcount' : c.buffSendCount + rest.length < 100 := hcount
                  exact List.length_eq_zero_iff.1 (by omega)
                · exact hnil
              rw [hnil, List.flatMap_nil, List.append_nil] at hbytes
              exact Or.inr (Or.inr ⟨hstate, hsends, hoffered.trans hbytes⟩)
            · refine Or.inr (Or.inl ⟨b', rest', hchain, ?_, ?_⟩)
              · rw [hrest, List.length_cons] at hcount
                have hcount'' : c.buffSendCount + (rest'.length + 1) < 100 := hcount
                have hnext : c'.buffSendCount = c.buffSendCount + 1 := hcount'
                change c'.buffSendCount + rest'.length < 100
                omega
              · change offered' ++ rest'.flatMap Buffer.unread = queued
                rw [hoffered, ← hbytes, hrest, List.flatMap_cons, List.append_assoc]
          · obtain ⟨p, -, -, hmem⟩ := htakes.send
            rw [hs] at hmem
            cases hmem
      | read bytes => exact htakes.elim
      | failed => exact htakes.elim

/-- A chain that does not reach its limit offers all packets. -/
theorem Chain.announces {b : Buffer} {rest : List Buffer} (h : Chain c b rest)
    (hcount : c.buffSendCount + rest.length < 100) : Announces c := by
  intro es hs now data past t offered halong hrun hstate hidle
  have hqueued : c.queued = b.unread ++ rest.flatMap Buffer.unread := by
    rw [JmyTcpConnection.queued, if_pos h.useSendList, JmySessionBufferList.unread, h.list, List.flatMap_cons]
  have hflight : offeredBytes c.sends = b.unread := by
    obtain ⟨-, owner, hone⟩ := h.sound.list h.useSendList (by
      by_contra hflag
      exact h.sends (h.sound.idle (Bool.not_eq_true _ ▸ hflag)))
    rw [hone, h.front]
    simp [offeredBytes, AsyncOp.offered]
  have hstart : Announcing c.queued (c, offeredBytes c.sends) :=
    Or.inr (Or.inl ⟨b, rest, h, hcount, by rw [hflight, hqueued]⟩)
  rcases Machine.invariant_along (fun _ _ _ hs he hstep => Announcing.step hs he hstep) hstart halong hrun with
    hclosed | ⟨b', rest', hchain, -⟩ | ⟨-, -, hall⟩
  · rw [hstate] at hclosed
    cases hclosed
  · exact absurd hidle hchain.sends
  · exact hall

/-- A `run` without handlers, at the time of the close. -/
def idleRun (c : JmyTcpConnection) : ConnEvent :=
  .run ⟨fun _ => none, none, none⟩ c.activeCloseStart .init fun _ => 0

theorem step_idleRun (h : c.state = .disconnecting) (offered : List Byte) :
    offerMachine.step (c, offered) (idleRun c) = some (c, offered) := by
  have hrun : c.step (idleRun c) = some c := by
    have htime : ¬activeCloseConnectionTimeout ≤ (c.activeCloseStart - c.activeCloseStart).tdiv 1000000000 := by
      rw [Int.sub_self]
      decide
    simp only [idleRun, JmyTcpConnection.step, JmyTcpConnection.run, runConn, ConnHandlers.tick, Option.bind_some]
    rw [if_neg (fun hboth => htime hboth.2), if_pos (by rw [h]; decide)]
    rfl
  change (c.step (idleRun c)).map _ = _
  rw [hrun]
  simp [startedOps, idleRun, offeredBytes]

/-- A run to a state in which nothing is in flight, and something was not offered. -/
theorem not_announces {es : List ConnEvent} {offered : List Byte}
    (halong : offerMachine.Along (fun s e => TakesAll s.1 e) (c, offeredBytes c.sends) es)
    (hrun : offerMachine.run (c, offeredBytes c.sends) es = some (t, offered))
    (hstate : t.state = .disconnecting) (hidle : t.sends = []) (hleft : offered ≠ c.queued) :
    ¬Announces c := by
  intro h
  apply hleft
  refine h es ⟨fun _ => none, none, none⟩ t.activeCloseStart .init (fun _ => 0) t offered (halong.append ?_) ?_
    hstate hidle
  · intro s _
    exact ⟨trivial, fun _ _ => trivial⟩
  · rw [Machine.run_append, hrun, Option.bind_some, Machine.run_cons_eq_some]
    exact ⟨(t, offered), step_idleRun hstate offered, rfl⟩

/-- A packet in flight can complete. -/
theorem exists_send (hsends : c.sends ≠ []) :
    ∃ (i : ℕ) (p : Pending), c.pending[i]? = some p ∧ p.op.isRead = false ∧ p ∈ c.sends := by
  obtain ⟨p, hp⟩ := List.exists_mem_of_ne_nil c.sends hsends
  obtain ⟨hmem, hsend⟩ := List.mem_filter.1 hp
  obtain ⟨i, hi⟩ := List.getElem?_of_mem hmem
  exact ⟨i, p, hi, by simpa using hsend, hp⟩

/-- A send completes with all its bytes. -/
theorem complete_all {i : ℕ} {p : Pending} {bytes offered : List Byte} (hp : c.pending[i]? = some p)
    (hopen : p.sockOpen = true) (hbytes : p.op.offered = some bytes) :
    TakesAll c (.complete i (.sent bytes.length)) ∧ ∃ c' offered', offerMachine.step (c, offered)
      (.complete i (.sent bytes.length)) = some (c', offered') ∧
        c' = (c.popped i).onComplete p.op (.sent bytes.length) := by
  have hposs : (Completion.sent bytes.length).possible p = true := by
    cases hop : p.op <;> rw [hop] at hbytes <;> cases hbytes <;> simp [Completion.possible, hopen, hop]
  have hstep : c.step (.complete i (.sent bytes.length)) =
      some ((c.popped i).onComplete p.op (.sent bytes.length)) := by
    simp only [JmyTcpConnection.step, JmyTcpConnection.complete, hp, if_pos hposs]
    rfl
  have hoffer : offerMachine.step (c, offered) (.complete i (.sent bytes.length)) =
      some ((c.popped i).onComplete p.op (.sent bytes.length), offered ++ offeredBytes
        (startedOps c (.complete i (.sent bytes.length)) ((c.popped i).onComplete p.op (.sent bytes.length)))) := by
    simp only [offerMachine, connMachine, hstep, Option.map_some]
  exact ⟨⟨p, bytes, hp, hbytes, rfl⟩, _, _, hoffer, rfl⟩

/-- A chain that reaches its limit stops before the last packet. -/
theorem Chain.stops {b : Buffer} {rest : List Buffer} (h : Chain c b rest)
    (hcount : 100 ≤ c.buffSendCount + rest.length) (offered : List Byte) :
    ∃ es t offered', offerMachine.Along (fun s e => TakesAll s.1 e) (c, offered) es ∧
      offerMachine.run (c, offered) es = some (t, offered') ∧ t.state = .disconnecting ∧ t.sends = [] ∧
        offered'.length < offered.length + (rest.flatMap Buffer.unread).length := by
  induction rest generalizing c b offered with
  | nil =>
      have hlt := h.sound.count
      rw [List.length_nil] at hcount
      omega
  | cons b' rest ih =>
      obtain ⟨i, p, hp, hsend, -⟩ := exists_send h.sends
      obtain ⟨hop, hopen⟩ := h.pending hp hsend
      obtain ⟨htakes, c', offered', hstep, -⟩ :=
        @complete_all c i p b.unread offered hp hopen (by rw [hop]; rfl)
      have hb' : Queued b' := h.sound.queued b' (by
        rw [h.list]
        exact List.mem_cons_of_mem b List.mem_cons_self)
      have hpos : 0 < b'.unread.length := by
        have := hb'.roffset
        rw [hb'.length_unread]
        omega
      obtain ⟨-, -, hstate, ⟨-, hsends, hoffered⟩ | ⟨b'', rest', hrest, -, hchain, hcount', hoffered⟩⟩ :=
        h.next htakes hstep
      · refine ⟨[_], c', offered', ⟨htakes, fun _ _ => trivial⟩, ?_, hstate, hsends, ?_⟩
        · rw [Machine.run_cons_eq_some]
          exact ⟨_, hstep, rfl⟩
        · rw [hoffered, List.flatMap_cons, List.length_append]
          omega
      · cases hrest
        have hnext : 100 ≤ c'.buffSendCount + rest.length := by
          rw [List.length_cons] at hcount
          omega
        obtain ⟨es, t, offered'', halong, hrun, htstate, htsends, hless⟩ := ih hchain hnext offered'
        refine ⟨_ :: es, t, offered'', ⟨htakes, fun s' hs' => ?_⟩, ?_, htstate, htsends, ?_⟩
        · obtain rfl := Option.some.inj (hstep.symm.trans hs')
          exact halong
        · rw [Machine.run_cons_eq_some]
          exact ⟨_, hstep, hrun⟩
        · rw [hoffered, List.length_append] at hless
          rw [List.flatMap_cons, List.length_append]
          omega

/-- A `close` that makes the connection DISCONNECTING has written the disconnect packet. -/
theorem close_eq {now : ℤ} (hconn : c.state = .connected) (hclose : (c.close now).state = .disconnecting) :
    c.close now = c.sendDisconnect.2.closing now ∧ 0 ≤ c.sendDisconnect.1 := by
  have hstate : c.sendDisconnect.2.state = c.state := (Minor.writeControl c _).state
  unfold JmyTcpConnection.close at hclose ⊢
  rw [if_neg (not_not.2 hconn)] at hclose ⊢
  by_cases hfail : c.sendDisconnect.1 < 0
  · rw [if_pos hfail, hstate, hconn] at hclose
    cases hclose
  · exact ⟨if_neg hfail, not_lt.1 hfail⟩

theorem Queues.close {now : ℤ} (hconn : c.state = .connected)
    (hclose : (c.close now).state = .disconnecting) : Queues c (c.close now) := by
  have hwrite : Queues c c.sendDisconnect.2 := writeControl c _
  have hclosing : Queues c.sendDisconnect.2 (c.sendDisconnect.2.closing now) :=
    of_same (fun _ h => JmyConnState.noConfusion h) rfl rfl rfl rfl rfl rfl rfl
  rw [(close_eq hconn hclose).1]
  exact hwrite.trans hclosing

theorem control_nonneg {a : ℤ} (h : (0 : ℤ) ≤ if a < 0 then -1 else 0) : 0 ≤ a := by
  by_contra hneg
  rw [if_pos (not_le.1 hneg)] at h
  exact absurd h (by decide)

/-- A control packet that is not refused is the last one of the list. -/
theorem writePacket_list {l : JmySessionBufferList} {packet : Option (List Byte)}
    (h : 0 ≤ (writePacket l packet).1) :
    ∃ b, Queued b ∧ (writePacket l packet).2.usingList = l.usingList ++ [b] := by
  have hneg : ¬(0 : ℤ) ≤ -1 := by decide
  unfold writePacket at h ⊢
  cases packet with
  | none => exact absurd h hneg
  | some bytes =>
      obtain ⟨new, hnew, hlist⟩ := appends_extends.one l bytes
      by_cases hdone : (SendBuffer.writeData l bytes).1 = true
      · simp only [hdone, if_true]
        change (l.writeData bytes).1 = true at hdone
        change ∃ b, Queued b ∧ (l.writeData bytes).2.usingList = _
        change (l.writeData bytes).2.usingList = _ at hlist
        unfold JmySessionBufferList.writeData at hdone hlist ⊢
        dsimp only at hdone hlist ⊢
        split_ifs at hdone hlist ⊢
        split at hdone
        · cases hdone
        · rename_i b hb
          rw [hb] at hlist
          have hone : l.usingList ++ [b] = l.usingList ++ new := hlist
          have hb' : [b] = new := List.append_cancel_left hone
          exact ⟨b, hnew b (by rw [← hb']; exact List.mem_singleton_self b), rfl⟩
      · simp only [hdone] at h
        exact absurd h hneg

/-- A control packet that is not refused is at the end of the buffer. -/
theorem writePacket_buff {d : JmyDoubleSessionBuffer} {packet : Option (List Byte)}
    (h : 0 ≤ (writePacket d packet).1) :
    ∃ bytes, packet = some bytes ∧ (writePacket d packet).2.unread = d.unread ++ bytes := by
  have hneg : ¬(0 : ℤ) ≤ -1 := by decide
  unfold writePacket at h ⊢
  cases packet with
  | none => exact absurd h hneg
  | some bytes =>
      refine ⟨bytes, rfl, ?_⟩
      have hset : (SendBuffer.writeData d bytes).2.unread =
          (d.getSessionBuffer.writeData bytes).2.unread := by
        change (d.setSessionBuffer (d.getSessionBuffer.writeData bytes).2).unread = _
        rw [JmyDoubleSessionBuffer.unread, JmyDoubleSessionBuffer.getSessionBuffer_set]
      rcases d.getSessionBuffer.writeData_spec bytes with ⟨-, hw⟩ | ⟨-, b', hw, hunread⟩
      · have hfail : (SendBuffer.writeData d bytes).1 = false := by
          change (d.getSessionBuffer.writeData bytes).1 = false
          rw [hw]
        simp only [hfail] at h
        exact absurd h hneg
      · have hdone : (SendBuffer.writeData d bytes).1 = true := by
          change (d.getSessionBuffer.writeData bytes).1 = true
          rw [hw]
        simp only [hdone, if_true]
        rw [hset, hw]
        exact hunread

/-- A connection that is new: nothing is queued and nothing is sent. -/
structure Opened (c : JmyTcpConnection) : Prop where
  alive : c.state ≠ .disconnected
  list : c.buffer.sendBuffList.usingList = []
  count : c.buffSendCount < 100
  sendingData : c.sendingData = false
  sends : c.sends = []

theorem Opened.healthy (h : Opened c) : Healthy c := by
  intro _
  refine ⟨h.alive, ?_, h.count, fun _ => h.sends, ?_, fun _ => Or.inl h.sends⟩
  · rw [h.list]
    exact fun _ hb => absurd hb List.not_mem_nil
  · intro _ hbusy
    rw [h.sendingData] at hbusy
    cases hbusy

/-- On a send list the disconnect packet is offered when a packet is in flight, and the chain has room for
all packets. -/
theorem announces_list {now : ℤ} (hsound : SendSound c) (hopen : c.sockOpen = true)
    (hconn : c.state = .connected) (hclose : (c.close now).state = .disconnecting)
    (huse : c.buffer.useSendList = true) :
    Announces (c.close now) ↔
      c.sendingData = true ∧ c.buffSendCount + c.buffer.sendBuffList.usingList.length < 100 := by
  obtain ⟨heq, hdone⟩ := close_eq hconn hclose
  have hboth := Queues.close hconn hclose
  have hsound' := hboth.sound hsound
  obtain ⟨b, hb, hlist⟩ : ∃ b, Queued b ∧ (c.close now).buffer.sendBuffList.usingList =
      c.buffer.sendBuffList.usingList ++ [b] := by
    rw [heq]
    unfold JmyTcpConnection.sendDisconnect JmyTcpConnection.writeControl at hdone ⊢
    rw [if_pos huse] at hdone ⊢
    exact writePacket_list (control_nonneg hdone)
  have huse' : (c.close now).buffer.useSendList = true := hboth.useSendList.trans huse
  cases hflag : c.sendingData with
  | false =>
      refine iff_of_false ?_ (fun h => Bool.noConfusion h.1)
      have hidle : (c.close now).sends = [] := hboth.sends.trans (hsound.idle hflag)
      refine @not_announces _ _ [] _ trivial rfl hclose hidle ?_
      have hpos : 0 < b.unread.length := by
        have := hb.roffset
        rw [hb.length_unread]
        omega
      rw [hidle, JmyTcpConnection.queued, if_pos huse', JmySessionBufferList.unread, hlist, List.flatMap_append]
      intro hnil
      have := congrArg List.length hnil
      simp [offeredBytes] at this
      omega
  | true =>
      obtain ⟨hne, owner, hone⟩ := hsound.list huse hflag
      obtain ⟨b₀, rest, hold⟩ := List.exists_cons_of_ne_nil hne
      have hchain : Chain (c.close now) b₀ (rest ++ [b]) := by
        refine ⟨hclose, hboth.sockOpen.trans hopen, hsound', huse', ?_, ?_⟩
        · rw [hlist, hold]
          rfl
        · rw [hboth.sends, hone]
          exact List.cons_ne_nil _ _
      have hlen : (rest ++ [b]).length = c.buffer.sendBuffList.usingList.length := by
        rw [hold, List.length_append]
        rfl
      constructor
      · intro hannounces
        refine ⟨rfl, ?_⟩
        by_contra hlimit
        obtain ⟨es, t, offered, halong, hrun, hstate, hidle, hless⟩ := hchain.stops
          (by rw [hboth.count, hlen]; exact not_lt.1 hlimit) (offeredBytes (c.close now).sends)
        refine not_announces halong hrun hstate hidle ?_ hannounces
        have hflight : offeredBytes (c.close now).sends = b₀.unread := by
          rw [hboth.sends, hone, JmySessionBufferList.front, hold]
          simp [offeredBytes, AsyncOp.offered]
        rw [JmyTcpConnection.queued, if_pos huse', JmySessionBufferList.unread, hchain.list, List.flatMap_cons]
        intro hall
        rw [hall, hflight, List.length_append] at hless
        omega
      · rintro ⟨-, hroom⟩
        exact hchain.announces (by rw [hboth.count, hlen]; exact hroom)

/-- On a send buffer the disconnect packet is never offered. -/
theorem not_announces_buff {now : ℤ} (hsound : SendSound c) (hconn : c.state = .connected)
    (hclose : (c.close now).state = .disconnecting) (huse : c.buffer.useSendList = false) :
    ¬Announces (c.close now) := by
  obtain ⟨heq, hdone⟩ := close_eq hconn hclose
  have hboth := Queues.close hconn hclose
  have huse' : (c.close now).buffer.useSendList = false := hboth.useSendList.trans huse
  have hnot : ¬c.buffer.useSendList = true := by rw [huse]; decide
  have hlonger : c.buffer.sendBuff.unread.length < (c.close now).queued.length := by
    rw [JmyTcpConnection.queued, if_neg (by rw [huse']; decide), heq]
    unfold JmyTcpConnection.sendDisconnect JmyTcpConnection.writeControl at hdone ⊢
    rw [if_neg hnot] at hdone ⊢
    obtain ⟨bytes, hbytes, hunread⟩ := writePacket_buff (control_nonneg hdone)
    have hlen : bytes.length = 3 := by
      have hpack : (packDisconnect disconnectPackLen).map List.length = some 3 := by decide
      rw [hbytes, Option.map_some, Option.some.injEq] at hpack
      exact hpack
    change _ < (writePacket c.buffer.sendBuff (packDisconnect disconnectPackLen)).2.unread.length
    rw [hunread, List.length_append, hlen]
    omega
  rcases hsound.buff huse with hnone | ⟨offered, owner, hone, hpre⟩
  · have hidle : (c.close now).sends = [] := hboth.sends.trans hnone
    refine @not_announces _ _ [] _ trivial rfl hclose hidle ?_
    intro hall
    rw [← hall, hidle] at hlonger
    exact absurd hlonger (Nat.not_lt_zero _)
  · have hsends : (c.close now).sends ≠ [] := by
      rw [hboth.sends, hone]
      exact List.cons_ne_nil _ _
    obtain ⟨i, p, hp, hsend, hmem⟩ := exists_send hsends
    rw [hboth.sends, hone, List.mem_singleton] at hmem
    obtain ⟨htakes, c', offered', hstep, hc'⟩ :=
      @complete_all (c.close now) i p offered (offeredBytes (c.close now).sends) hp (by rw [hmem])
        (by rw [hmem]; rfl)
    rw [hmem] at hc'
    change c' = ((c.close now).popped i).onBufferSend offered.length at hc'
    have hpending : c'.pending = ((c.close now).popped i).pending := by
      rw [hc', JmyTcpConnection.onBufferSend]
      split_ifs <;> rfl
    have hnone : c'.sends = [] := by
      rw [JmyTcpConnection.sends, hpending]
      exact ((hboth.sound hsound).sends_popped hp hsend).1
    have hoffered : offered' = offered := by
      obtain ⟨c₁, -, hpair⟩ := Option.map_eq_some_iff.1 hstep
      obtain ⟨rfl, rfl⟩ := Prod.mk.inj hpair
      have hlen : ((c.close now).popped i).pending.length = (c.close now).pending.length - 1 :=
        List.length_eraseIdx_of_lt (List.getElem?_eq_some_iff.1 hp).1
      simp only [startedOps]
      rw [hpending, ← hlen, List.drop_length, hboth.sends, hone]
      simp [offeredBytes, AsyncOp.offered]
    refine @not_announces _ c' [.complete i (.sent offered.length)] offered' ⟨htakes, fun _ _ => trivial⟩
      ((Machine.run_cons_eq_some _).2 ⟨_, hstep, rfl⟩) ?_ hnone ?_
    · rw [hc', (Minor.onBufferSend _ _).state]
      exact hclose
    · intro hall
      rw [← hall, hoffered] at hlonger
      exact absurd hpre.length_le (not_le.2 hlonger)

end announce

/-- A connection that is CONNECTED on an open socket and is closed offers what is queued, and the
disconnect packet behind it, exactly when it has a send list, a send is in flight, and the chain of
completions reaches the end of the list before its 100th packet. -/
theorem close_announced_iff {c₀ c : JmyTcpConnection} {es : List ConnEvent} {now : ℤ} (h₀ : Opened c₀)
    (hrun : connMachine.run c₀ es = some c) (hconn : c.state = .connected) (hopen : c.sockOpen = true)
    (hclose : (c.close now).state = .disconnecting) :
    Announces (c.close now) ↔ c.buffer.useSendList = true ∧ c.sendingData = true ∧
      c.buffSendCount + c.buffer.sendBuffList.usingList.length < 100 := by
  have hhealthy : Healthy c :=
    Machine.invariant_run (I := Healthy) (fun _ _ _ hc hstep => hc.step hstep) h₀.healthy hrun
  have hsound : SendSound c := hhealthy hopen
  cases huse : c.buffer.useSendList with
  | true =>
      rw [announces_list hsound hopen hconn hclose huse]
      exact (and_iff_right rfl).symm
  | false =>
      exact iff_of_false (not_announces_buff hsound hconn hclose huse) fun h => Bool.noConfusion h.1

theorem opened_accepted (id : ℤ) : Opened (accepted id) :=
  ⟨JmyConnState.noConfusion, rfl, Nat.succ_pos 99, rfl, rfl⟩

/-- A message is in flight when its connection is closed. -/
theorem close_announced_send : ∃ c, connMachine.run (accepted 1) [.call (.send 1 [9]),
    .run ⟨fun _ => none, none, none⟩ 0 .init fun _ => 0] = some c ∧ Announces (c.close 0) := by
  obtain ⟨c, hrun, hconn, hopen, hclose, huse, hflag, hcount⟩ : ∃ c, connMachine.run (accepted 1)
      [.call (.send 1 [9]), .run ⟨fun _ => none, none, none⟩ 0 .init fun _ => 0] = some c ∧
        c.state = .connected ∧ c.sockOpen = true ∧ (c.close 0).state = .disconnecting ∧
          c.buffer.useSendList = true ∧ c.sendingData = true ∧
            c.buffSendCount + c.buffer.sendBuffList.usingList.length < 100 :=
    ⟨_, rfl, rfl, rfl, rfl, rfl, rfl, by decide⟩
  exact ⟨c, hrun, (close_announced_iff (opened_accepted 1) hrun hconn hopen hclose).2 ⟨huse, hflag, hcount⟩⟩

/-- A connection that has nothing in flight never sends its disconnect packet. -/
theorem idle_close_not_announced : (accepted 1).state = .connected ∧
    ((accepted 1).close 0).state = .disconnecting ∧ ¬Announces ((accepted 1).close 0) := by
  refine ⟨rfl, rfl, @not_announces ((accepted 1).close 0) _ [] _ trivial rfl rfl rfl ?_⟩
  decide

end JmyGame
