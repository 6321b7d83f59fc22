import JmyGame.NetReconnect
import JmyGame.NetDispatch
import JmyGame.NetUserPackets
import JmyGame.NetClosing
import JmyGame.NetDelivery

/-! The sessions of a client of a `JmyTcpClientSet`. The connection object, its buffers and its socket are the same in
all of them, and `reset` clears nothing: what keeps the sessions apart is that `force_close` empties the buffers and
that nothing is written behind it. A read that completed before the close, and whose handler runs behind it, breaks
this. -/

namespace JmyGame

open CArith

/-- A list without limits accounts for nothing. -/
def JmySessionBufferList.Unlimited (l : JmySessionBufferList) : Prop :=
  l.maxBytes = 0 ∧ l.currUsedBytes = 0 ∧ l.maxCount = 0 ∧ l.currCount = 0

theorem unlimited_pushBack {l : JmySessionBufferList} (h : l.Unlimited) (b : Buffer) (len : ℕ) :
    (l.pushBack b len).Unlimited := by
  obtain ⟨hbytes, hused, hcount, hcurr⟩ := h
  simp [JmySessionBufferList.Unlimited, JmySessionBufferList.pushBack, hbytes, hused, hcount, hcurr]

theorem appends_unlimited : Appends fun l l' : JmySessionBufferList => l.Unlimited → l'.Unlimited where
  refl _ := id
  one := by
    intro l data hl
    change (l.writeData data).2.Unlimited
    unfold JmySessionBufferList.writeData
    dsimp only
    split_ifs
    · exact hl
    · split
      · exact hl
      · exact unlimited_pushBack hl _ _
  two := by
    intro l head data r hhead hlen hr hl
    obtain rfl := Option.some.inj hr
    rw [l.writeDatas_pair data hhead hlen]
    split_ifs
    · exact hl
    · exact unlimited_pushBack hl _ _
    · exact hl

theorem unlimited_readLen {l : JmySessionBufferList} (h : l.Unlimited) (n : ℕ) : (l.readLen n).Unlimited := by
  unfold JmySessionBufferList.readLen
  split
  · exact h
  · split
    · exact h
    · split_ifs
      · exact h
      · exact h

/-- A connection whose buffers hold something only while a session goes on. Only user packets are received into the
receive list. -/
structure LeftEmpty (c : JmyTcpConnection) : Prop where
  hasHandler : c.hasHandler = true
  hasBuffer : c.hasBuffer = true
  useSendList : c.buffer.useSendList = true
  unlimited : c.buffer.sendBuffList.Unlimited
  emptied : ¬c.IsOpen → c.sendingData = false ∧ c.buffer.sendBuffList.usingList = [] ∧
    c.buffer.recvBuffList.usingList = []
  user : ∀ b ∈ c.buffer.recvBuffList.usingList, b.packetType.IsUser
  bodies : ∀ p ∈ c.pending, ∀ type packLen, p.op = .readBody type packLen → type.IsUser

namespace LeftEmpty

variable {c c' : JmyTcpConnection}

theorem observe (h : LeftEmpty c) (o : Obs) : LeftEmpty (c.observe o) :=
  ⟨h.hasHandler, h.hasBuffer, h.useSendList, h.unlimited, h.emptied, h.user, h.bodies⟩

theorem forceClose (h : LeftEmpty c) : LeftEmpty c.forceClose := by
  unfold JmyTcpConnection.forceClose
  split_ifs
  · exact h
  · have hclear : c.closed.buffer = c.buffer.clear := if_pos h.hasBuffer
    refine ⟨h.hasHandler, h.hasBuffer, ?_, ?_, fun _ => ⟨rfl, ?_, ?_⟩, ?_, h.bodies⟩
    · rw [hclear]
      exact h.useSendList
    · rw [hclear]
      exact ⟨h.unlimited.1, rfl, h.unlimited.2.2.1, rfl⟩
    · rw [hclear]
      rfl
    · rw [hclear]
      rfl
    · intro b hb
      rw [hclear] at hb
      cases hb

/-- While a session goes on, the send list and the send flag may change. -/
theorem sends (h : LeftEmpty c) (hopen : c'.IsOpen) (hhandler : c'.hasHandler = c.hasHandler)
    (hbuffer : c'.hasBuffer = c.hasBuffer) (huse : c'.buffer.useSendList = c.buffer.useSendList)
    (hunlimited : c'.buffer.sendBuffList.Unlimited)
    (hrecv : c'.buffer.recvBuffList = c.buffer.recvBuffList)
    (hpending : ∀ p ∈ c'.pending, p ∈ c.pending ∨ p.op.isRead = false) : LeftEmpty c' := by
  refine ⟨hhandler.trans h.hasHandler, hbuffer.trans h.hasBuffer, huse.trans h.useSendList, hunlimited,
    fun hclosed => absurd hopen hclosed, ?_, fun p hp type packLen hop => ?_⟩
  · rw [hrecv]
    exact h.user
  · rcases hpending p hp with hmem | hsend
    · exact h.bodies p hmem type packLen hop
    · rw [hop] at hsend
      cases hsend

theorem writeControl (h : LeftEmpty c) (hopen : c.IsOpen) (packet : Option (List Byte)) :
    LeftEmpty (c.writeControl packet).2 := by
  unfold JmyTcpConnection.writeControl
  rw [if_pos h.useSendList]
  exact sends h hopen rfl rfl rfl (appends_unlimited.writePacket _ packet h.unlimited) rfl fun p hp => Or.inl hp

theorem writeUser (h : LeftEmpty c) {len : ℕ} {onList : JmySessionBufferList → Option (ℤ × JmySessionBufferList)}
    {onBuff : JmyDoubleSessionBuffer → Option (ℤ × JmyDoubleSessionBuffer)} {r : ℤ × JmyTcpConnection}
    (hlist : ∀ l r, onList l = some r → l.Unlimited → r.2.Unlimited) (hr : c.writeUser len onList onBuff = some r) :
    LeftEmpty r.2 := by
  unfold JmyTcpConnection.writeUser at hr
  rw [if_pos h.useSendList] at hr
  split_ifs at hr with hstate
  · cases hr
    exact h
  · obtain ⟨l, hl, rfl⟩ := Option.map_eq_some_iff.1 hr
    have hopen : (c.setSendBuffList l.2).IsOpen := Or.inl (not_not.1 hstate)
    exact h.sends hopen rfl rfl rfl (hlist _ l hl h.unlimited) rfl fun p hp => Or.inl hp

theorem close (h : LeftEmpty c) (now : ℤ) : LeftEmpty (c.close now) := by
  simp only [JmyTcpConnection.close]
  split_ifs with hstate hfail
  · exact h
  · exact h.writeControl (Or.inl (not_not.1 hstate)) _
  · have hwrite : LeftEmpty c.sendDisconnect.2 := h.writeControl (Or.inl (not_not.1 hstate)) _
    exact hwrite.sends (Or.inr rfl) rfl rfl rfl hwrite.unlimited rfl fun p hp => Or.inl hp

theorem call (h : LeftEmpty c) {k : ConnCall} (hcall : c.call k = some c') : LeftEmpty c' := by
  cases k with
  | send msgId data =>
      obtain ⟨r, hr, rfl⟩ := Option.map_eq_some_iff.1 hcall
      exact (h.observe _).writeUser (fun _ _ hl => appends_unlimited.writeUserData hl) hr
  | sendUser userId msgId data =>
      obtain ⟨r, hr, rfl⟩ := Option.map_eq_some_iff.1 hcall
      exact (h.observe _).writeUser (fun _ _ hl => appends_unlimited.writeUserIdAndData hl) hr
  | close now =>
      cases hcall
      exact h.close now
  | forceClose =>
      cases hcall
      exact h.forceClose

theorem calls (h : LeftEmpty c) {ks : List ConnCall} (hcalls : c.calls ks = some c') : LeftEmpty c' := by
  induction ks generalizing c with
  | nil =>
      cases hcalls
      exact h
  | cons k ks ih =>
      obtain ⟨c₁, hk, hrest⟩ := Option.bind_eq_some_iff.1 hcalls
      exact ih (h.call hk) hrest

theorem startSend (h : LeftEmpty c) : LeftEmpty c.startSend.2 := by
  unfold JmyTcpConnection.startSend
  rw [if_pos h.useSendList]
  split_ifs with hstate
  · exact h
  · exact h
  · exact h
  · refine h.sends (Or.inl (not_not.1 hstate)) rfl rfl rfl h.unlimited rfl fun p hp => ?_
    rcases List.mem_append.1 hp with hp | hp
    · exact Or.inl hp
    · rw [List.mem_singleton.1 hp]
      exact Or.inr rfl

section loop

variable {σ : Type} {h : JmyDataHandler2 σ} {past : ℕ → Byte} {conn : Option (ConnCalls σ)}

/-- The loop over user packets makes no call on the connection. -/
theorem processLoop_user {connId : ℤ} {buffs : List Buffer} (hbuffs : ∀ b ∈ buffs, b.packetType.IsUser)
    (data : JmyPacketUnpackData2) (count : ℤ) (s : σ) :
    h.processLoop past conn connId buffs data count s = h.processLoop past none connId buffs data count s := by
  induction buffs generalizing data count s with
  | nil => rfl
  | cons b rest ih =>
      have huser : (JmyPacketType2.ofCode (BitVec.ofNat 32 b.woffset)).IsUser := hbuffs b List.mem_cons_self
      have hone : h.handleOne past conn b data connId s = h.handleOne past none b data connId s := by
        simp only [JmyDataHandler2.handleOne, huser, not_true_eq_false, and_false, if_true]
      rw [JmyDataHandler2.processLoop, JmyDataHandler2.processLoop, hone]
      refine congrArg _ (funext fun res => ?_)
      rw [ih fun b' hb' => hbuffs b' (List.mem_cons_of_mem b hb')]

end loop

theorem underLoop (f : JmyMsgInfo → JmyTcpConnection → ℤ × List ConnCall) (info : JmyMsgInfo)
    {r : ℤ × JmyTcpConnection} (h : LeftEmpty c)
    (hr : JmyGame.underLoop (fun c => c) (fun f => f) (ConnHandlers.msgHandler f) info c = some r) : LeftEmpty r.2 := by
  obtain ⟨r', hr', hsame⟩ := Option.bind_eq_some_iff.1 hr
  split_ifs at hsame
  cases hsame
  obtain ⟨conn, hcalls, rfl⟩ := Option.map_eq_some_iff.1 hr'
  exact (h.observe _).calls hcalls

theorem handleRecv (h : LeftEmpty c) {handlers : ConnHandlers} {past : ℕ → Byte} {data : JmyPacketUnpackData2}
    {r : ℤ × JmyPacketUnpackData2 × JmyTcpConnection}
    (hr : JmyGame.handleRecv (fun c => c) (fun f => f) handlers.dataHandler past data c = some r) :
    LeftEmpty r.2.2 := by
  unfold JmyGame.handleRecv JmyDataHandler2.processData at hr
  rw [processLoop_user h.user] at hr
  have hwithin : JmyDataHandler2.Within handlers.loopHandler none fun c c' => LeftEmpty c → LeftEmpty c' := by
    refine ⟨fun _ => id, fun _ _ _ h h' => h' ∘ h, fun id f info s r hf hr => ?_, fun f info s r hf hr => ?_,
      fun _ _ hnone => (nomatch hnone), fun _ _ hnone => (nomatch hnone), fun _ _ hnone => (nomatch hnone)⟩
    · obtain ⟨g, hg, rfl⟩ := Option.map_eq_some_iff.1 hf
      obtain ⟨g', -, rfl⟩ := Option.map_eq_some_iff.1 hg
      exact fun hs => hs.underLoop g' info hr
    · obtain ⟨g, hg, rfl⟩ := Option.map_eq_some_iff.1 hf
      obtain ⟨g', -, rfl⟩ := Option.map_eq_some_iff.1 hg
      exact fun hs => hs.underLoop g' info hr
  have hclear : ∀ s, LeftEmpty s → LeftEmpty (s.setRecvBuffList s.buffer.recvBuffList.clear) := by
    refine fun s hs => ⟨hs.hasHandler, hs.hasBuffer, hs.useSendList, hs.unlimited, fun hclosed => ?_,
      fun b hb => (nomatch hb), hs.bodies⟩
    obtain ⟨hsending, hsent, -⟩ := hs.emptied hclosed
    exact ⟨hsending, hsent, rfl⟩
  exact hwithin.processData hclear hr h

theorem run (h : LeftEmpty c) {handlers : ConnHandlers} {now : ℤ} {data : JmyPacketUnpackData2} {past : ℕ → Byte}
    {r : ℤ × JmyPacketUnpackData2 × JmyTcpConnection} (hr : c.run handlers now data past = some r) :
    LeftEmpty r.2.2 := by
  obtain ⟨c₁, hticked, hrest⟩ := Option.bind_eq_some_iff.1 hr
  have h₁ : LeftEmpty c₁ := by
    unfold ConnHandlers.tick at hticked
    split at hticked
    · cases hticked
      exact h
    · exact (h.observe _).calls hticked
  split_ifs at hrest
  · cases hrest
    exact h₁.forceClose
  · cases hrest
    exact h₁
  · obtain ⟨res, hres, rfl⟩ := Option.map_eq_some_iff.1 hrest
    have hrecv : LeftEmpty res.2.2 := h₁.handleRecv hres
    split_ifs
    · exact hrecv.forceClose
    · exact hrecv.startSend

theorem popped (h : LeftEmpty c) (i : ℕ) : LeftEmpty (c.popped i) :=
  ⟨h.hasHandler, h.hasBuffer, h.useSendList, h.unlimited, h.emptied, h.user,
    fun p hp => h.bodies p (List.mem_of_mem_eraseIdx hp)⟩

theorem startRecv (h : LeftEmpty c) : LeftEmpty c.startRecv := by
  have hread : ∀ p ∈ c.pending ++ [⟨.readHead, c.id, c.sockOpen⟩], ∀ type packLen,
      p.op = AsyncOp.readBody type packLen → type.IsUser := by
    intro p hp type packLen hop
    rcases List.mem_append.1 hp with hp | hp
    · exact h.bodies p hp type packLen hop
    · rw [List.mem_singleton.1 hp] at hop
      cases hop
  unfold JmyTcpConnection.startRecv
  split_ifs with hactive hset
  · exact h
  · exact h
  · dsimp only
    split_ifs
    · exact ⟨h.hasHandler, h.hasBuffer, h.useSendList, h.unlimited, fun hclosed => absurd (Or.inl rfl) hclosed, h.user,
        hread⟩
    · exact ⟨h.hasHandler, h.hasBuffer, h.useSendList, h.unlimited, h.emptied, h.user, hread⟩

theorem handlePacketType (h : LeftEmpty c) (hopen : c.IsOpen) (type : JmyPacketType2) :
    LeftEmpty (c.handlePacketType type).2 := by
  cases type with
  | disconnect =>
      rw [JmyTcpConnection.handlePacketType, JmyTcpConnection.handleDisconnect]
      split_ifs
      · exact h
      · exact h.writeControl hopen _
  | disconnectAck =>
      rw [JmyTcpConnection.handlePacketType, JmyTcpConnection.handleDisconnectAck]
      split_ifs
      · exact h
      · exact h.forceClose
  | _ => exact h

theorem onReadHead (h : LeftEmpty c) (hopen : c.IsOpen) (bytes : List Byte) : LeftEmpty (c.onReadHead bytes) := by
  by_cases hlen : bytes.length = lenHead + lenType
  · cases hget : getPacketLenType bytes with
    | none =>
        rw [JmyTcpConnection.onReadHead, if_neg (not_not.2 hlen), hget]
        exact h.forceClose
    | some tl =>
        obtain ⟨type, len⟩ := tl
        by_cases huser : type.IsUser
        · rw [onReadHead_user hlen hget huser]
          refine ⟨h.hasHandler, h.hasBuffer, h.useSendList, h.unlimited, h.emptied, h.user,
            fun p hp type' packLen hop => ?_⟩
          rcases List.mem_append.1 hp with hp | hp
          · exact h.bodies p hp type' packLen hop
          · rw [List.mem_singleton.1 hp] at hop
            cases hop
            exact huser
        · rw [onReadHead_control hlen hget huser]
          exact (h.handlePacketType hopen type).startRecv
  · rw [JmyTcpConnection.onReadHead, if_pos hlen]
    exact h.forceClose

theorem onReadBody (h : LeftEmpty c) (hopen : c.IsOpen) {type : JmyPacketType2} (huser : type.IsUser) (packLen : ℕ)
    (bytes : List Byte) : LeftEmpty (c.onReadBody type packLen bytes) := by
  unfold JmyTcpConnection.onReadBody
  split_ifs with hlen
  · exact h.forceClose
  · refine startRecv ⟨h.hasHandler, h.hasBuffer, h.useSendList, h.unlimited, fun hclosed => absurd hopen hclosed,
      fun b hb => ?_, h.bodies⟩
    obtain rfl := not_not.1 hlen
    have hcode : type.code.toNat % 2 ^ 16 = type.code.toNat := by
      rcases huser with rfl | rfl <;> decide
    have hlist := onReadBody_handedOver c huser bytes
    rw [JmyTcpConnection.onReadBody, if_neg (not_not.2 rfl), recvBuffList_startRecv] at hlist
    rw [show (c.setRecvBuffList _).buffer.recvBuffList.usingList = _ from hlist] at hb
    rcases List.mem_append.1 hb with hb | hb
    · exact h.user b hb
    · rw [(packetType_handedOver huser hb).1]
      exact huser

theorem onBufferListSend (h : LeftEmpty c) (hopen : c.IsOpen) (n : ℕ) : LeftEmpty (c.onBufferListSend n) := by
  have hunlimited := unlimited_readLen h.unlimited n
  unfold JmyTcpConnection.onBufferListSend
  dsimp only
  split_ifs
  · exact h.sends hopen rfl rfl rfl hunlimited rfl fun p hp => Or.inl hp
  · refine h.sends hopen rfl rfl rfl hunlimited rfl fun p hp => ?_
    rcases List.mem_append.1 hp with hp | hp
    · exact Or.inl hp
    · rw [List.mem_singleton.1 hp]
      exact Or.inr rfl

theorem onBufferSend (h : LeftEmpty c) (hopen : c.IsOpen) (n : ℕ) : LeftEmpty (c.onBufferSend n) := by
  unfold JmyTcpConnection.onBufferSend
  dsimp only
  split_ifs <;> exact h.sends hopen rfl rfl rfl h.unlimited rfl fun p hp => Or.inl hp

/-- An operation completes while a session goes on, or fails. -/
theorem complete (h : LeftEmpty c) {i : ℕ} {r : Completion} (hopen : c.IsOpen ∨ r = .failed)
    (hcomplete : c.complete i r = some c') : LeftEmpty c' := by
  obtain ⟨p, hp, -, rfl⟩ := complete_eq_some hcomplete
  have hpopped := h.popped i
  cases r with
  | failed =>
      cases hop : p.op <;> exact hpopped.forceClose
  | sent n =>
      have hopen : (c.popped i).IsOpen := hopen.resolve_right (by simp)
      cases hop : p.op with
      | bufferSend offered => exact hpopped.onBufferSend hopen n
      | bufferListSend offered => exact hpopped.onBufferListSend hopen n
      | _ => exact hpopped
  | read bytes =>
      have hopen : (c.popped i).IsOpen := hopen.resolve_right (by simp)
      cases hop : p.op with
      | readHead => exact hpopped.onReadHead hopen bytes
      | readBody type packLen =>
          exact hpopped.onReadBody hopen (h.bodies p (List.mem_of_getElem? hp) type packLen hop) packLen bytes
      | _ => exact hpopped

end LeftEmpty

/-- The operations of a closed socket are told that they failed: none had completed before the close. -/
def Cancelled (c : JmyTcpClient) : ClientSetEvent → Prop
  | .complete _ r => c.conn.state = .disconnected → r = .failed
  | _ => True

instance (c : JmyTcpClient) : ∀ e, Decidable (Cancelled c e)
  | .complete _ r => inferInstanceAs (Decidable (c.conn.state = .disconnected → r = .failed))
  | .connected _ _ => isTrue trivial
  | .call _ => isTrue trivial
  | .run _ _ _ _ _ => isTrue trivial

/-- A client between two steps, with a socket that is open for a connect. -/
structure Apart (c : JmyTcpClient) : Prop where
  leftEmpty : LeftEmpty c.conn
  sock : c.conn.state = .connecting → c.conn.sockOpen = true

namespace Apart

variable {conf : JmyClientConfig} {c c' : JmyTcpClient}

theorem start (id : ℤ) : Apart (.start id) :=
  ⟨⟨rfl, rfl, rfl, ⟨rfl, rfl, rfl, rfl⟩, fun _ => ⟨rfl, rfl, rfl⟩, fun _ hb => (nomatch hb),
    fun _ hp => (nomatch hp)⟩, fun _ => rfl⟩

/-- Within a session nothing is connecting. -/
theorem of_begun {conn : JmyTcpConnection} (hempty : LeftEmpty conn) (hbegun : conn.Begun) :
    Apart (c.setConn conn) :=
  ⟨hempty, fun hstate => absurd hbegun (not_begun_of_state (Or.inr hstate))⟩

/-- The state of a connection without a session changes. -/
theorem leftEmpty_state (h : Apart c) (hclosed : ¬c.conn.IsOpen) (state : JmyConnState) (sockOpen : Bool) :
    LeftEmpty { c.conn with state := state, sockOpen := sockOpen } :=
  ⟨h.leftEmpty.hasHandler, h.leftEmpty.hasBuffer, h.leftEmpty.useSendList, h.leftEmpty.unlimited,
    fun _ => h.leftEmpty.emptied hclosed, h.leftEmpty.user, h.leftEmpty.bodies⟩

theorem connected (h : Apart c) (ht : InTurn conf c) {result : ConnectResult} {calls : List ConnCall}
    (hstep : c.step conf (.connected result calls) = some c') : Apart c' := by
  unfold JmyTcpClient.step at hstep
  split_ifs at hstep with hne
  have hclosed : ¬c.conn.IsOpen := fun hopen => ht.not_begun hne (Or.inl hopen)
  cases result with
  | connected =>
      obtain ⟨conn, hcalls, rfl⟩ := Option.map_eq_some_iff.1 hstep
      have hempty : LeftEmpty c.established := (h.leftEmpty_state hclosed .connected c.conn.sockOpen).startRecv
      have happ : Apart (c.setConn conn) :=
        of_begun (hempty.calls hcalls) ((Quiet.calls hcalls).sessions (ht.established hne).1).1
      exact ⟨happ.leftEmpty, happ.sock⟩
  | inProgress =>
      cases hstep
      exact ⟨h.leftEmpty, h.sock⟩
  | failed =>
      cases hstep
      exact ⟨h.leftEmpty_state hclosed .notConnect c.conn.sockOpen, fun hstate => (by cases hstate)⟩

theorem call (h : Apart c) {k : ConnCall} (hk : k = .forceClose → c.conn.Begun)
    (hstep : c.step conf (.call k) = some c') : Apart c' := by
  obtain ⟨conn, hcall, rfl⟩ := Option.map_eq_some_iff.1 hstep
  by_cases hc : c.conn.Begun
  · exact of_begun (h.leftEmpty.call hcall) ((Quiet.call hcall).sessions hc).1
  · have hstate : c.conn.state ≠ .connected := fun hopen => hc (Or.inl (Or.inl hopen))
    have hempty := h.leftEmpty.call hcall
    obtain ⟨trace, rfl, -⟩ := refused_call hstate (mt hk hc) hcall
    exact ⟨hempty, h.sock⟩

theorem complete (h : Apart c) (ht : InTurn conf c) {i : ℕ} {r : Completion} (hr : Cancelled c (.complete i r))
    (hstep : c.step conf (.complete i r) = some c') : Apart c' := by
  obtain ⟨conn, hcomplete, rfl⟩ := Option.map_eq_some_iff.1 hstep
  obtain ⟨p, hp, -, rfl⟩ := complete_eq_some hcomplete
  have hc : c.conn.Begun := by
    by_contra hnot
    rw [ht.idle hnot] at hp
    cases hp
  exact of_begun (h.leftEmpty.complete (hc.imp_right hr) hcomplete)
    (sessions_onComplete (c := c.conn.popped i) ht.active hc p.op r).1

theorem check (h : Apart c) (ht : InTurn conf c) (now : ℤ) : Apart (c.check conf now) := by
  unfold JmyTcpClient.check
  split_ifs with hset hstate hattempt
  · exact h
  · have hclosed : ¬c.conn.IsOpen := not_isOpen_of_state (Or.inr (Or.inr hstate))
    exact ⟨h.leftEmpty_state hclosed .notConnect c.conn.sockOpen, fun hstate => (by cases hstate)⟩
  · have hclosed : ¬c.conn.IsOpen := not_isOpen_of_state (Or.inl hattempt.1)
    rw [JmyTcpClient.reconnect, if_neg (not_not.2 hattempt.1), JmyTcpClient.asynConnect, if_neg (not_not.2 ht.active),
      if_neg (by rw [hattempt.1]; decide)]
    exact ⟨h.leftEmpty_state hclosed .connecting true, fun _ => rfl⟩
  · exact h

theorem run (h : Apart c) (ht : InTurn conf c) {now connNow : ℤ} {handlers : ConnHandlers}
    {data : JmyPacketUnpackData2} {past : ℕ → Byte} (htick : handlers.TickKeeps)
    (hstep : c.step conf (.run now handlers connNow data past) = some c') : Apart c' := by
  have hchecked := h.check ht now
  unfold JmyTcpClient.step JmyTcpClient.run at hstep
  dsimp only at hstep
  split_ifs at hstep with hconnecting hclosed
  · cases hstep
    exact hchecked
  · cases hstep
    exact hchecked
  · obtain ⟨r, hr, rfl⟩ := Option.map_eq_some_iff.1 hstep
    have hempty := hchecked.leftEmpty.run hr
    by_cases hopen : (c.check conf now).conn.IsOpen
    · exact of_begun hempty ((Quiet.run hr).sessions (Or.inl hopen)).1
    · obtain ⟨trace, hconn, -⟩ := run_between hopen htick hr
      refine ⟨hempty, fun hstate => ?_⟩
      rw [hconn] at hstate
      exact absurd hstate hconnecting

theorem step (h : Apart c) (ht : InTurn conf c) {e : ClientSetEvent} (he : Orderly c e ∧ Cancelled c e)
    (htick : e.TickKeeps) (hstep : c.step conf e = some c') : Apart c' := by
  cases e with
  | connected result calls => exact h.connected ht hstep
  | call k => exact h.call he.1 hstep
  | complete i r => exact h.complete ht he.2 hstep
  | run now handlers connNow data past => exact h.run ht htick hstep

/-- A connect that is under way begins with nothing of an earlier session. -/
theorem fresh (h : Apart c) (ht : InTurn conf c) (hne : c.underWay ≠ 0) :
    Fresh { c.established with trace := [] } := by
  have hnot := ht.not_begun hne
  have hsock := h.sock (ht.underWay hne).2
  obtain ⟨hsending, hsent, hrecv⟩ := h.leftEmpty.emptied fun hopen => hnot (Or.inl hopen)
  have heq : c.established = ({ c.conn with state := .connected } : JmyTcpConnection).startOp .readHead :=
    startRecv_connected rfl h.leftEmpty.hasHandler h.leftEmpty.hasBuffer
  have hpending : c.established.pending = [⟨.readHead, c.conn.id, true⟩] := by
    rw [heq]
    simp only [JmyTcpConnection.startOp, ht.idle hnot, hsock, List.nil_append]
  have hlist : c.conn.buffer.sendBuffList = .init 0 0 := by
    obtain ⟨hbytes, hused, hcount, hcurr⟩ := h.leftEmpty.unlimited
    revert hbytes hused hcount hcurr hsent
    cases c.conn.buffer.sendBuffList
    rintro rfl rfl rfl rfl rfl
    rfl
  have hreads : ∃ owner, ({ c.established with trace := [] } : JmyTcpConnection).reads = [⟨.readHead, owner, true⟩] :=
    ⟨c.conn.id, by rw [JmyTcpConnection.reads, hpending]; rfl⟩
  have hsends : ({ c.established with trace := [] } : JmyTcpConnection).sends = [] := by
    rw [JmyTcpConnection.sends, hpending]
    rfl
  refine ⟨⟨?_, ?_, ?_, ?_, hreads⟩, ?_, ?_, ?_, ?_, hsends, rfl, rfl⟩ <;> rw [heq]
  · rfl
  · exact h.leftEmpty.hasHandler
  · exact h.leftEmpty.hasBuffer
  · exact hsock
  · exact h.leftEmpty.useSendList
  · exact hlist
  · exact hrecv
  · exact hsending

end Apart

/-- A body that was read before the close, and whose handler runs behind it, is left for the next session. -/
def staleBody : List ClientSetEvent := [
  .connected .connected [], .complete 0 (.read [0, 4, 5]), .call .forceClose, .complete 0 (.read [0, 1, 9]),
  .run 0 noHandlers 0 .init 0, .run 3000000000 noHandlers 0 .init 0]

theorem staleBody_kept : (clientSetMachine everyThreeSecs).Along Orderly (.start 1) staleBody ∧
    ∃ c, (clientSetMachine everyThreeSecs).run (.start 1) staleBody = some c ∧ c.underWay = 1 ∧
      ¬Fresh { c.established with trace := [] } := by
  refine ⟨by decide, _, rfl, rfl, fun h => ?_⟩
  exact absurd h.recvBuffList (by decide)

end JmyGame
