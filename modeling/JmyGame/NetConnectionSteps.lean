import JmyGame.NetConnection

/-! What one step of a connection can do. Every method changes a connection only by `Minor` updates,
by `force_close` and by the move of `close` to DISCONNECTING; only the completion handlers of reads go
on to `start_recv` or `recv_packet`. The properties of whole runs follow from this list. -/

namespace JmyGame

open CArith

/-- The events of disconnection in a trace. -/
def disconnects (trace : List Obs) : List ℤ :=
  trace.filterMap fun o => match o with
    | .disconnect connId => some connId
    | _ => none

@[simp] theorem disconnects_append (xs ys : List Obs) :
    disconnects (xs ++ ys) = disconnects xs ++ disconnects ys := List.filterMap_append

/-- The operation reads data. -/
def AsyncOp.isRead : AsyncOp → Bool
  | .readHead => true
  | .readBody _ _ => true
  | _ => false

/-- An update that leaves the life of the connection alone: buffers, send flags and the trace may
change, and sends may be started. -/
structure Minor (c c' : JmyTcpConnection) : Prop where
  id : c'.id = c.id
  connType : c'.connType = c.connType
  state : c'.state = c.state
  hasHandler : c'.hasHandler = c.hasHandler
  hasBuffer : c'.hasBuffer = c.hasBuffer
  sockOpen : c'.sockOpen = c.sockOpen
  disconnects : disconnects c'.trace = disconnects c.trace
  pending : ∃ new, c'.pending = c.pending ++ new ∧
    ∀ p ∈ new, p.owner = c.id ∧ p.sockOpen = c.sockOpen ∧ p.op.isRead = false

/-- The state change of `close`. -/
def JmyTcpConnection.closing (c : JmyTcpConnection) (now : ℤ) : JmyTcpConnection :=
  { c with activeCloseStart := now, state := .disconnecting }

/-- What the methods can do, apart from starting reads. -/
inductive Quiet : JmyTcpConnection → JmyTcpConnection → Prop
  | minor {c c' : JmyTcpConnection} : Minor c c' → Quiet c c'
  | forceClose (c : JmyTcpConnection) : Quiet c c.forceClose
  | closing {c : JmyTcpConnection} (now : ℤ) : c.state = .connected → Quiet c (c.closing now)
  | trans {c c' c'' : JmyTcpConnection} : Quiet c c' → Quiet c' c'' → Quiet c c''

namespace Minor

variable {c c' c'' : JmyTcpConnection}

theorem of_fields (hid : c'.id = c.id) (htype : c'.connType = c.connType) (hstate : c'.state = c.state)
    (hhandler : c'.hasHandler = c.hasHandler) (hbuffer : c'.hasBuffer = c.hasBuffer)
    (hsock : c'.sockOpen = c.sockOpen) (htrace : JmyGame.disconnects c'.trace = JmyGame.disconnects c.trace)
    (hpending : c'.pending = c.pending) : Minor c c' :=
  ⟨hid, htype, hstate, hhandler, hbuffer, hsock, htrace, [], by rw [hpending, List.append_nil], by simp⟩

theorem refl (c : JmyTcpConnection) : Minor c c := of_fields rfl rfl rfl rfl rfl rfl rfl rfl

theorem trans (h : Minor c c') (h' : Minor c' c'') : Minor c c'' := by
  obtain ⟨new, hnew, hall⟩ := h.pending
  obtain ⟨new', hnew', hall'⟩ := h'.pending
  refine ⟨h'.id.trans h.id, h'.connType.trans h.connType, h'.state.trans h.state,
    h'.hasHandler.trans h.hasHandler, h'.hasBuffer.trans h.hasBuffer, h'.sockOpen.trans h.sockOpen,
    h'.disconnects.trans h.disconnects, new ++ new', ?_, ?_⟩
  · rw [hnew', hnew, List.append_assoc]
  · intro p hp
    rcases List.mem_append.1 hp with hp | hp
    · exact hall p hp
    · obtain ⟨howner, hsock, hsend⟩ := hall' p hp
      exact ⟨howner.trans h.id, hsock.trans h.sockOpen, hsend⟩

theorem observe (c : JmyTcpConnection) (o : Obs) (h : JmyGame.disconnects [o] = []) :
    Minor c (c.observe o) := by
  refine of_fields rfl rfl rfl rfl rfl rfl ?_ rfl
  rw [JmyTcpConnection.observe, disconnects_append, h, List.append_nil]

theorem setSendBuff (c : JmyTcpConnection) (b : JmyDoubleSessionBuffer) : Minor c (c.setSendBuff b) :=
  of_fields rfl rfl rfl rfl rfl rfl rfl rfl

theorem setSendBuffList (c : JmyTcpConnection) (l : JmySessionBufferList) :
    Minor c (c.setSendBuffList l) := of_fields rfl rfl rfl rfl rfl rfl rfl rfl

theorem setRecvBuffList (c : JmyTcpConnection) (l : JmySessionBufferList) :
    Minor c (c.setRecvBuffList l) := of_fields rfl rfl rfl rfl rfl rfl rfl rfl

theorem setCount (c : JmyTcpConnection) (n : ℕ) : Minor c { c with buffSendCount := n } :=
  of_fields rfl rfl rfl rfl rfl rfl rfl rfl

theorem setSending (c : JmyTcpConnection) (b : Bool) : Minor c { c with sendingData := b } :=
  of_fields rfl rfl rfl rfl rfl rfl rfl rfl

theorem startSendOp (c : JmyTcpConnection) {op : AsyncOp} (h : op.isRead = false) : Minor c (c.startOp op) :=
  ⟨rfl, rfl, rfl, rfl, rfl, rfl, rfl, [⟨op, c.id, c.sockOpen⟩], rfl, by simp [h]⟩

theorem bufferSend (c : JmyTcpConnection) : Minor c c.bufferSend := startSendOp c rfl

theorem bufferListSend (c : JmyTcpConnection) : Minor c c.bufferListSend := startSendOp c rfl

theorem writeControl (c : JmyTcpConnection) (packet : Option (List Byte)) :
    Minor c (c.writeControl packet).2 := by
  rw [JmyTcpConnection.writeControl]
  split
  · exact setSendBuffList c _
  · exact setSendBuff c _

theorem writeUser {len : ℕ} {onList : JmySessionBufferList → Option (ℤ × JmySessionBufferList)}
    {onBuff : JmyDoubleSessionBuffer → Option (ℤ × JmyDoubleSessionBuffer)}
    {r : ℤ × JmyTcpConnection} (h : c.writeUser len onList onBuff = some r) : Minor c r.2 := by
  rw [JmyTcpConnection.writeUser] at h
  split_ifs at h
  · cases h
    exact refl c
  · obtain ⟨b, -, rfl⟩ := Option.map_eq_some_iff.1 h
    exact setSendBuffList c _
  · obtain ⟨b, -, rfl⟩ := Option.map_eq_some_iff.1 h
    exact setSendBuff c _

theorem startSend (c : JmyTcpConnection) : Minor c c.startSend.2 := by
  rw [JmyTcpConnection.startSend]
  split_ifs
  · exact refl c
  · exact refl c
  · exact refl c
  · exact (bufferListSend c).trans (setSending _ true)
  · exact (bufferSend c).trans (setSending _ true)

theorem onBufferSend (c : JmyTcpConnection) (n : ℕ) : Minor c (c.onBufferSend n) := by
  rw [JmyTcpConnection.onBufferSend]
  split_ifs
  · exact setSendBuff c _
  · exact (setSendBuff c _).trans (setSending _ false)
  · exact setSending c false

theorem onBufferListSend (c : JmyTcpConnection) (n : ℕ) : Minor c (c.onBufferListSend n) := by
  have hread := (setSendBuffList c (c.buffer.sendBuffList.readLen n)).trans
    (setCount _ (c.buffSendCount + 1))
  rw [JmyTcpConnection.onBufferListSend]
  split_ifs
  · exact (hread.trans (setCount _ 0)).trans (setSending _ false)
  · exact hread.trans (bufferListSend _)

theorem handleDisconnect (c : JmyTcpConnection) : Minor c c.handleDisconnect.2 := by
  rw [JmyTcpConnection.handleDisconnect]
  split_ifs
  · exact refl c
  · exact writeControl c _

end Minor

namespace Quiet

variable {c c' c'' : JmyTcpConnection}

theorem refl (c : JmyTcpConnection) : Quiet c c := .minor (Minor.refl c)

theorem handleDisconnectAck (c : JmyTcpConnection) : Quiet c c.handleDisconnectAck.2 := by
  rw [JmyTcpConnection.handleDisconnectAck]
  split_ifs
  · exact refl c
  · exact forceClose c

theorem close (c : JmyTcpConnection) (now : ℤ) : Quiet c (c.close now) := by
  have hwrite : Minor c c.sendDisconnect.2 := Minor.writeControl c _
  simp only [JmyTcpConnection.close]
  split_ifs with hstate hfail
  · exact refl c
  · exact .minor hwrite
  · exact (Quiet.minor hwrite).trans (.closing now (hwrite.state.trans (not_not.1 hstate)))

theorem call {k : ConnCall} (h : c.call k = some c') : Quiet c c' := by
  cases k with
  | send msgId data =>
      obtain ⟨r, hr, rfl⟩ := Option.map_eq_some_iff.1 h
      exact .minor ((Minor.observe c _ rfl).trans (Minor.writeUser hr))
  | sendUser userId msgId data =>
      obtain ⟨r, hr, rfl⟩ := Option.map_eq_some_iff.1 h
      exact .minor ((Minor.observe c _ rfl).trans (Minor.writeUser hr))
  | close now =>
      cases h
      exact close c now
  | forceClose =>
      cases h
      exact forceClose c

end Quiet

section run

variable {σ : Type} {view : σ → JmyTcpConnection}
  {modify : (JmyTcpConnection → JmyTcpConnection) → σ → σ} {R : σ → σ → Prop}

/-- The changes that `run` itself makes to a connection stay within a relation. -/
structure RunWithin (modify : (JmyTcpConnection → JmyTcpConnection) → σ → σ) (R : σ → σ → Prop) : Prop where
  refl : ∀ s, R s s
  trans : ∀ s t u, R s t → R t u → R s u
  observe : ∀ info s, R s (modify (JmyTcpConnection.observe · (.message info)) s)
  heartbeat : ∀ s, R s (modify (fun c => c.handleHeartbeat.2) s)
  disconnect : ∀ s, R s (modify (fun c => c.handleDisconnect.2) s)
  disconnectAck : ∀ s, R s (modify (fun c => c.handleDisconnectAck.2) s)
  clear : ∀ s, R s (modify (fun c => c.setRecvBuffList c.buffer.recvBuffList.clear) s)
  send : ∀ s, R s (modify (fun c => c.startSend.2) s)
  forceClose : ∀ s, R s (modify JmyTcpConnection.forceClose s)

/-- `run` of a connection stays within a relation when the handlers of the program do. -/
theorem RunWithin.runConn {h : JmyDataHandler2 σ} {past : ℕ → Byte} {now : ℤ} {tick : σ → Option σ}
    {data : JmyPacketUnpackData2} {s : σ} {r : ℤ × JmyPacketUnpackData2 × σ} (w : RunWithin modify R)
    (htick : ∀ s s', tick s = some s' → R s s')
    (hmsg : ∀ id f info s r, h.msgHandlerMap id = some f → f info s = some r → R s r.2)
    (hdefault : ∀ f info s r, h.defaultMsgHandler = some f → f info s = some r → R s r.2)
    (hr : runConn view modify h past now tick data s = some r) : R s r.2.2 := by
  have hunder : ∀ (f : JmyMsgHandler σ), (∀ info s r, f info s = some r → R s r.2) →
      ∀ info s r, underLoop view modify f info s = some r → R s r.2 := by
    intro f hf info s r hr
    obtain ⟨r', hr', hsame⟩ := Option.bind_eq_some_iff.1 hr
    split_ifs at hsame
    cases hsame
    exact w.trans _ _ _ (w.observe info s) (hf _ _ _ hr')
  obtain ⟨s₁, hs₁, hrest⟩ := Option.bind_eq_some_iff.1 hr
  refine w.trans _ _ _ (htick s s₁ hs₁) ?_
  split_ifs at hrest
  · cases hrest
    exact w.forceClose s₁
  · cases hrest
    exact w.refl s₁
  · obtain ⟨res, hres, rfl⟩ := Option.map_eq_some_iff.1 hrest
    have hrecv : R s₁ res.2.2 := by
      refine JmyDataHandler2.Within.processData ⟨w.refl, w.trans, ?_, ?_, ?_, ?_, ?_⟩ w.clear hres
      · intro id f info s r hf
        obtain ⟨g, hg, rfl⟩ := Option.map_eq_some_iff.1 hf
        exact hunder g (fun info s r => hmsg id g info s r hg) info s r
      · intro f info s r hf
        obtain ⟨g, hg, rfl⟩ := Option.map_eq_some_iff.1 hf
        exact hunder g (fun info s r => hdefault g info s r hg) info s r
      · rintro - s ⟨⟩
        exact w.heartbeat s
      · rintro - s ⟨⟩
        exact w.disconnect s
      · rintro - s ⟨⟩
        exact w.disconnectAck s
    split_ifs
    · exact w.trans _ _ _ hrecv (w.forceClose _)
    · exact w.trans _ _ _ hrecv (w.send _)

/-- A relation that all quiet changes of the connection respect. -/
theorem RunWithin.of_quiet (hrefl : ∀ s, R s s) (htrans : ∀ s t u, R s t → R t u → R s u)
    (hmodify : ∀ f s, (∀ c, Quiet c (f c)) → R s (modify f s)) : RunWithin modify R where
  refl := hrefl
  trans := htrans
  observe _ s := hmodify _ s fun c => .minor (Minor.observe c _ rfl)
  heartbeat s := hmodify _ s Quiet.refl
  disconnect s := hmodify _ s fun c => .minor (Minor.handleDisconnect c)
  disconnectAck s := hmodify _ s Quiet.handleDisconnectAck
  clear s := hmodify _ s fun c => .minor (Minor.setRecvBuffList c _)
  send s := hmodify _ s fun c => .minor (Minor.startSend c)
  forceClose s := hmodify _ s Quiet.forceClose

/-- `run` of a connection stays within a relation when the handlers of the program and all quiet
changes of the connection do. -/
theorem runConn_within {h : JmyDataHandler2 σ} {past : ℕ → Byte} {now : ℤ} {tick : σ → Option σ}
    {data : JmyPacketUnpackData2} {s : σ} {r : ℤ × JmyPacketUnpackData2 × σ}
    (hrefl : ∀ s, R s s) (htrans : ∀ s t u, R s t → R t u → R s u)
    (hmodify : ∀ f s, (∀ c, Quiet c (f c)) → R s (modify f s))
    (htick : ∀ s s', tick s = some s' → R s s')
    (hmsg : ∀ id f info s r, h.msgHandlerMap id = some f → f info s = some r → R s r.2)
    (hdefault : ∀ f info s r, h.defaultMsgHandler = some f → f info s = some r → R s r.2)
    (hr : runConn view modify h past now tick data s = some r) : R s r.2.2 :=
  (RunWithin.of_quiet hrefl htrans hmodify).runConn htick hmsg hdefault hr

end run

/-- `run` of a connection on its own stays within a relation that its calls respect. -/
theorem RunWithin.run {R : JmyTcpConnection → JmyTcpConnection → Prop} (w : RunWithin (fun f => f) R)
    (htick : ∀ c, R c (c.observe (.tick c.id)))
    (hcall : ∀ (c : JmyTcpConnection) k c', c.call k = some c' → R c c') {c : JmyTcpConnection}
    {h : ConnHandlers} {now : ℤ} {data : JmyPacketUnpackData2} {past : ℕ → Byte}
    {r : ℤ × JmyPacketUnpackData2 × JmyTcpConnection} (hr : c.run h now data past = some r) :
    R c r.2.2 := by
  have hcalls : ∀ cs (c c' : JmyTcpConnection), c.calls cs = some c' → R c c' := by
    intro cs
    induction cs with
    | nil =>
        intro c c' h
        cases h
        exact w.refl _
    | cons k cs ih =>
        intro c c' h
        obtain ⟨c₁, hk, hrest⟩ := Option.bind_eq_some_iff.1 h
        exact w.trans _ _ _ (hcall c k c₁ hk) (ih c₁ c' hrest)
  have hmsg : ∀ (f : JmyMsgInfo → JmyTcpConnection → ℤ × List ConnCall) info c r,
      ConnHandlers.msgHandler f info c = some r → R c r.2 := by
    intro f info c r h
    obtain ⟨c', hc', rfl⟩ := Option.map_eq_some_iff.1 h
    exact hcalls _ c c' hc'
  refine w.runConn ?_ ?_ ?_ hr
  · intro s s' hs
    rw [ConnHandlers.tick] at hs
    split at hs
    · cases hs
      exact w.refl s
    · exact w.trans _ _ _ (htick s) (hcalls _ _ _ hs)
  · intro id f info s r hf
    obtain ⟨g, -, rfl⟩ := Option.map_eq_some_iff.1 hf
    exact hmsg g info s r
  · intro f info s r hf
    obtain ⟨g, -, rfl⟩ := Option.map_eq_some_iff.1 hf
    exact hmsg g info s r

theorem Quiet.run {c : JmyTcpConnection} {h : ConnHandlers} {now : ℤ} {data : JmyPacketUnpackData2}
    {past : ℕ → Byte} {r : ℤ × JmyPacketUnpackData2 × JmyTcpConnection}
    (hr : c.run h now data past = some r) : Quiet c r.2.2 :=
  (RunWithin.of_quiet Quiet.refl (fun _ _ _ => Quiet.trans) fun _ s hf => hf s).run
    (fun c => .minor (Minor.observe c _ rfl)) (fun _ _ _ => Quiet.call) hr

/-- The connection without the operation that completes. -/
def JmyTcpConnection.popped (c : JmyTcpConnection) (i : ℕ) : JmyTcpConnection :=
  { c with pending := c.pending.eraseIdx i }

/-- A completion that leads back into `start_recv`: a head that announces no body, or a whole body. -/
def AsyncOp.Reenters : AsyncOp → Completion → Prop
  | .readHead, .read bytes => ∃ type len, bytes.length = lenHead + lenType ∧
      getPacketLenType bytes = some (type, len) ∧ ¬type.IsUser
  | .readBody _ packLen, .read bytes => bytes.length = packLen
  | _, _ => False

/-- The state in which a completion handler calls `start_recv`. -/
def JmyTcpConnection.beforeRecv (c : JmyTcpConnection) (op : AsyncOp) (r : Completion) :
    JmyTcpConnection :=
  match op, r with
  | .readHead, .read bytes =>
    match getPacketLenType bytes with
    | some (type, _) => (c.handlePacketType type).2
    | none => c
  | .readBody type packLen, .read bytes =>
    c.setRecvBuffList (c.buffer.recvBuffList.writeParam (type.code.toNat % 2 ^ 16) bytes packLen).2
  | _, _ => c

theorem handlePacketType_user (c : JmyTcpConnection) {type : JmyPacketType2} (h : type.IsUser) :
    c.handlePacketType type = (1, c) := by
  rcases h with rfl | rfl <;> rfl

theorem handlePacketType_control (c : JmyTcpConnection) {type : JmyPacketType2} (h : ¬type.IsUser) :
    (c.handlePacketType type).1 = 0 := by
  cases type <;> first | rfl | exact absurd (by simp [JmyPacketType2.IsUser]) h

theorem Quiet.handlePacketType (c : JmyTcpConnection) (type : JmyPacketType2) :
    Quiet c (c.handlePacketType type).2 := by
  cases type with
  | disconnect => exact .minor (Minor.handleDisconnect c)
  | disconnectAck => exact handleDisconnectAck c
  | _ => exact refl c

theorem Quiet.beforeRecv (c : JmyTcpConnection) (op : AsyncOp) (r : Completion) :
    Quiet c (c.beforeRecv op r) := by
  unfold JmyTcpConnection.beforeRecv
  split
  · split
    · exact handlePacketType c _
    · exact refl c
  · exact .minor (Minor.setRecvBuffList c _)
  · exact refl c

section head

variable {c : JmyTcpConnection} {bytes : List Byte} {type : JmyPacketType2} {len : BitVec 32}

theorem onReadHead_user (hlen : bytes.length = lenHead + lenType)
    (hget : getPacketLenType bytes = some (type, len)) (huser : type.IsUser) :
    c.onReadHead bytes = c.recvPacket type ((len - BitVec.ofNat 32 lenType).toNat % 2 ^ 16) := by
  simp only [JmyTcpConnection.onReadHead, hlen, ne_eq, not_true_eq_false, if_false, hget,
    handlePacketType_user c huser, one_ne_zero]

theorem onReadHead_control (hlen : bytes.length = lenHead + lenType)
    (hget : getPacketLenType bytes = some (type, len)) (hctl : ¬type.IsUser) :
    c.onReadHead bytes = (c.handlePacketType type).2.startRecv := by
  simp only [JmyTcpConnection.onReadHead, hlen, ne_eq, not_true_eq_false, if_false, hget,
    handlePacketType_control c hctl, if_true]

end head

/-- A completion handler does a quiet change, goes on to read the announced body, or reads the next
head. -/
theorem onComplete_cases (c : JmyTcpConnection) (op : AsyncOp) (r : Completion) :
    (¬op.Reenters r ∧ Quiet c (c.onComplete op r)) ∨
    (∃ bytes type len, op = .readHead ∧ r = .read bytes ∧ bytes.length = lenHead + lenType ∧
      getPacketLenType bytes = some (type, len) ∧ type.IsUser ∧
      c.onComplete op r =
        c.recvPacket type ((len - BitVec.ofNat 32 lenType).toNat % 2 ^ 16)) ∨
    (op.Reenters r ∧ c.onComplete op r = (c.beforeRecv op r).startRecv) := by
  cases r with
  | failed =>
      refine Or.inl ⟨by cases op <;> simp [AsyncOp.Reenters], ?_⟩
      cases op <;> exact .forceClose c
  | sent n =>
      refine Or.inl ⟨by cases op <;> simp [AsyncOp.Reenters], ?_⟩
      cases op with
      | readHead => exact .refl c
      | readBody type packLen => exact .refl c
      | bufferSend offered => exact .minor (Minor.onBufferSend c n)
      | bufferListSend offered => exact .minor (Minor.onBufferListSend c n)
  | read bytes =>
      cases op with
      | bufferSend offered => exact Or.inl ⟨id, .refl c⟩
      | bufferListSend offered => exact Or.inl ⟨id, .refl c⟩
      | readBody type packLen =>
          by_cases hlen : bytes.length = packLen
          · refine Or.inr (Or.inr ⟨hlen, ?_⟩)
            simp only [JmyTcpConnection.onComplete, JmyTcpConnection.onReadBody, hlen, ne_eq,
              not_true_eq_false, if_false, JmyTcpConnection.beforeRecv]
          · refine Or.inl ⟨hlen, ?_⟩
            rw [JmyTcpConnection.onComplete, JmyTcpConnection.onReadBody, if_pos hlen]
            exact .forceClose c
      | readHead =>
          by_cases hlen : bytes.length = lenHead + lenType
          · cases hget : getPacketLenType bytes with
            | none =>
                refine Or.inl ⟨?_, ?_⟩
                · rintro ⟨type, len, -, hsome, -⟩
                  rw [hget] at hsome
                  cases hsome
                · simp only [JmyTcpConnection.onComplete, JmyTcpConnection.onReadHead, hlen, ne_eq,
                    not_true_eq_false, if_false, hget]
                  exact .forceClose c
            | some tl =>
                obtain ⟨type, len⟩ := tl
                by_cases huser : type.IsUser
                · exact Or.inr (Or.inl ⟨bytes, type, len, rfl, rfl, hlen, hget, huser,
                    onReadHead_user hlen hget huser⟩)
                · refine Or.inr (Or.inr ⟨⟨type, len, hlen, hget, huser⟩, ?_⟩)
                  simp only [JmyTcpConnection.onComplete, onReadHead_control hlen hget huser,
                    JmyTcpConnection.beforeRecv, hget]
          · refine Or.inl ⟨fun ⟨_, _, h, _⟩ => hlen h, ?_⟩
            rw [JmyTcpConnection.onComplete, JmyTcpConnection.onReadHead, if_pos hlen]
            exact .forceClose c

/-- The reads among the pending operations. -/
def JmyTcpConnection.reads (c : JmyTcpConnection) : List Pending := c.pending.filter (·.op.isRead)

theorem Minor.reads {c c' : JmyTcpConnection} (h : Minor c c') : c'.reads = c.reads := by
  obtain ⟨new, hnew, hall⟩ := h.pending
  have hnone : new.filter (·.op.isRead) = [] :=
    List.filter_eq_nil_iff.2 fun p hp => by simp [(hall p hp).2.2]
  rw [JmyTcpConnection.reads, JmyTcpConnection.reads, hnew, List.filter_append, hnone, List.append_nil]

/-- Quiet changes start no read, and never open the socket. -/
theorem Quiet.reads {c c' : JmyTcpConnection} (h : Quiet c c') :
    c'.reads = c.reads ∧ (c'.sockOpen = c.sockOpen ∨ c'.sockOpen = false) := by
  induction h with
  | minor hm => exact ⟨hm.reads, Or.inl hm.sockOpen⟩
  | forceClose c =>
      rw [JmyTcpConnection.forceClose]
      split_ifs
      · exact ⟨rfl, Or.inl rfl⟩
      · exact ⟨rfl, Or.inr rfl⟩
  | closing => exact ⟨rfl, Or.inl rfl⟩
  | trans _ _ ih ih' =>
      refine ⟨ih'.1.trans ih.1, ?_⟩
      rcases ih'.2 with h | h
      · rw [h]
        exact ih.2
      · exact Or.inr h

theorem startRecv_reads (c : JmyTcpConnection) :
    (c.startRecv.reads = c.reads ∨ c.startRecv.reads = c.reads ++ [⟨.readHead, c.id, c.sockOpen⟩]) ∧
      c.startRecv.sockOpen = c.sockOpen := by
  have hstart : ∀ s, ({ c.startOp .readHead with state := s } : JmyTcpConnection).reads =
      c.reads ++ [⟨.readHead, c.id, c.sockOpen⟩] := fun s => List.filter_append _ _
  rw [JmyTcpConnection.startRecv]
  split_ifs
  · exact ⟨Or.inl rfl, rfl⟩
  · exact ⟨Or.inl rfl, rfl⟩
  · dsimp only
    split_ifs
    · exact ⟨Or.inr (hstart _), rfl⟩
    · exact ⟨Or.inr (hstart _), rfl⟩

theorem recvPacket_reads (c : JmyTcpConnection) (type : JmyPacketType2) (packLen : ℕ) :
    (c.recvPacket type packLen).reads = c.reads ++ [⟨.readBody type packLen, c.id, c.sockOpen⟩] :=
  List.filter_append _ _

theorem complete_eq_some {c c' : JmyTcpConnection} {i : ℕ} {r : Completion}
    (h : c.complete i r = some c') :
    ∃ p, c.pending[i]? = some p ∧ r.possible p = true ∧ c' = (c.popped i).onComplete p.op r := by
  rw [JmyTcpConnection.complete] at h
  split at h
  · cases h
  · rename_i p hp
    split_ifs at h with hposs
    cases h
    exact ⟨p, hp, hposs, rfl⟩

theorem complete_of_possible {c : JmyTcpConnection} {i : ℕ} {r : Completion} {p : Pending}
    (hp : c.pending[i]? = some p) (hposs : r.possible p = true) :
    c.step (.complete i r) = some ((c.popped i).onComplete p.op r) := by
  simp only [JmyTcpConnection.step, JmyTcpConnection.complete, hp, hposs, if_true,
    JmyTcpConnection.popped]

theorem onComplete_reenters {c : JmyTcpConnection} {op : AsyncOp} {r : Completion}
    (h : op.Reenters r) : c.onComplete op r = (c.beforeRecv op r).startRecv := by
  rcases onComplete_cases c op r with ⟨hnot, -⟩ | ⟨bytes, type, len, rfl, rfl, -, hget, huser, -⟩ | ⟨-, h'⟩
  · exact absurd h hnot
  · obtain ⟨type', len', -, hget', huser'⟩ := h
    rw [hget, Option.some.injEq, Prod.mk.injEq] at hget'
    exact absurd (hget'.1 ▸ huser) huser'
  · exact h'

/-- One step is a quiet change or a completion. -/
theorem step_cases {c c' : JmyTcpConnection} {e : ConnEvent} (h : c.step e = some c') :
    ((∀ i r, e ≠ .complete i r) ∧ Quiet c c') ∨
    (∃ i r p, e = .complete i r ∧ c.pending[i]? = some p ∧ r.possible p = true ∧
      c' = (c.popped i).onComplete p.op r) := by
  cases e with
  | call k => exact Or.inl ⟨fun _ _ => ConnEvent.noConfusion, Quiet.call h⟩
  | complete i r =>
      obtain ⟨p, hp, hposs, rfl⟩ := complete_eq_some h
      exact Or.inr ⟨i, r, p, rfl, hp, hposs, rfl⟩
  | run handlers now data past =>
      obtain ⟨r, hr, rfl⟩ := Option.map_eq_some_iff.1 h
      exact Or.inl ⟨fun _ _ => ConnEvent.noConfusion, Quiet.run hr⟩

end JmyGame
