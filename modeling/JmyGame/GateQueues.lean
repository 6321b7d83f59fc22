import JmyGame.GateKicks

/-! The receive list of a client connection under the message handlers of the gate. `processData` walks
over the list while the handlers run, and `force_close` of the connection clears it. This says which
packets make a handler close the connection that they came on. -/

namespace JmyGame

open CArith

section closed

variable {g : Gate} {connId : ℤ}

theorem connClose_closed_iff (g : Gate) (c connId : ℤ) :
    (g.connClose c).connState connId = some .disconnected ↔ g.connState connId = some .disconnected := by
  unfold Gate.connClose
  split_ifs with hopen
  · by_cases hc : connId = c
    · subst hc
      rw [hopen, show (g.setConn connId (some .disconnecting)).connState connId = some .disconnecting from
        Function.update_self _ _ _]
      exact iff_of_false (by decide) (by decide)
    · rw [show (g.setConn c (some .disconnecting)).connState connId = g.connState connId from
        Function.update_of_ne hc _ _]
  · exact Iff.rfl

theorem clientClose_closed_iff (g : Gate) (p connId : ℤ) :
    (g.clientClose p).connState connId = some .disconnected ↔ g.connState connId = some .disconnected := by
  unfold Gate.clientClose
  split_ifs
  · exact Iff.rfl
  · split
    · exact Iff.rfl
    · exact connClose_closed_iff g _ connId

/-- What a kick closes. -/
theorem clientForceClose_closed_iff (g : Gate) (p connId : ℤ) :
    (g.clientForceClose p).connState connId = some .disconnected ↔
      g.connState connId = some .disconnected ∨ g.Kicks p ∧ (g.mgr.info p).connId = connId := by
  by_cases hkicks : g.Kicks p
  · rw [Gate.clientForceClose_of_kicks hkicks]
    by_cases hc : (g.mgr.info p).connId = connId
    · refine iff_of_true ?_ (Or.inr ⟨hkicks, hc⟩)
      rw [← hc]
      exact Function.update_self _ _ _
    · dsimp only
      rw [Function.update_of_ne (Ne.symm hc)]
      exact ⟨Or.inl, fun h => h.resolve_right fun h' => hc h'.2⟩
  · rw [Gate.clientForceClose_of_not_kicks hkicks]
    exact ⟨Or.inl, fun h => h.resolve_right fun h' => hkicks h'.1⟩

/-- The connection is that of the client of the account, which is there to be kicked. -/
def HoldsClient (g : Gate) (account : Str) (connId : ℤ) : Prop :=
  ∃ p, g.mgr.getClientInfoByAccount account = some p ∧ g.Kicks p ∧ (g.mgr.info p).connId = connId

theorem kicked_closed_iff (g : Gate) (account : Str) (connId : ℤ) :
    (g.kicked account).connState connId = some .disconnected ↔
      g.connState connId = some .disconnected ∨ HoldsClient g account connId := by
  unfold Gate.kicked HoldsClient
  cases hp : g.mgr.getClientInfoByAccount account with
  | none =>
      refine ⟨Or.inl, ?_⟩
      rintro (h | ⟨p, hnone, -⟩)
      · exact h
      · cases hnone
  | some p =>
      refine (clientForceClose_closed_iff g p connId).trans (or_congr_right ?_)
      constructor
      · intro h
        exact ⟨p, rfl, h⟩
      · rintro ⟨p', heq, h⟩
        cases heq
        exact h

/-- After its client was kicked, an account has no client that is left to kick. -/
theorem not_kicks_kicked {account : Str} {p : ℤ}
    (h : (g.kicked account).mgr.accountIdBimap.find1 account = some p)
    (hget : (g.kicked account).mgr.clientArray.get p = some p) : ¬(g.kicked account).Kicks p := by
  rcases kicked_cases g account with ⟨q, hq, hkicks⟩ | heq
  · have hkicked : g.kicked account = g.clientForceClose q := by
      unfold Gate.kicked
      rw [hq]
      rfl
    have hpq : p = q := by
      rw [kicked_of_kicks hq hkicks] at h
      have hfound := removeByConnId_find1 h
      rw [getClientInfoByAccount_eq_some hq, Option.some.injEq] at hfound
      exact hfound.symm
    rw [hkicked, hpq]
    exact not_kicks_clientForceClose g q
  · intro hkicks
    rw [heq] at h hget hkicks
    have hp : g.mgr.getClientInfoByAccount account = some p := by
      unfold ClientManager.getClientInfoByAccount
      rw [h]
      exact hget
    have hkicked : g.kicked account = g.clientForceClose p := by
      unfold Gate.kicked
      rw [hp]
      rfl
    apply not_kicks_clientForceClose g p
    rw [← hkicked, heq]
    exact hkicks

end closed

section handlers

variable {P : Protocol} {time : ℤ} {session : Str} {g : Gate} {info : JmyMsgInfo} {connId : ℤ}

theorem newClient_connState_kicked (g : Gate) (time : ℤ) (account session : Str) :
    ((g.checked time account session).newClient account).2.connState = (g.kicked account).connState := by
  obtain ⟨harray, hbimap, -, -⟩ := Shrinks.checkSession_fields (g.kicked account).mgr time account session
  unfold Gate.newClient
  split
  · rename_i id hfind
    split
    · rfl
    · rename_i p hget
      have hnot : ¬(g.checked time account session).Kicks p := by
        obtain ⟨rfl, -⟩ := ClientArray.get_eq_some hget
        have hkicked := not_kicks_kicked (hbimap ▸ hfind) (harray ▸ hget)
        intro hkicks
        apply hkicked
        unfold Gate.Kicks ClientManager.info at hkicks ⊢
        rw [← harray]
        exact hkicks
      dsimp only
      rw [Gate.clientForceClose_of_not_kicks hnot]
      rfl
  · split
    · rfl
    · rfl

theorem enrol_closed_iff (P : Protocol) (info : JmyMsgInfo) (r : Option ℤ × Gate) (connId : ℤ) :
    (Gate.enrol P info r).2.connState connId = some .disconnected ↔
      r.2.connState connId = some .disconnected := by
  obtain ⟨slot, g⟩ := r
  cases slot with
  | none =>
      unfold Gate.enrol
      rw [Gate.sendError_connState]
  | some p =>
      unfold Gate.enrol
      dsimp only
      by_cases hfull : g.maxConn ≤ g.mgr.clientArray.getUsedSize
      · rw [if_pos hfull, clientClose_closed_iff, Gate.sendError_connState]
      · rw [if_neg hfull]
        split
        · rfl
        · rw [apply_ite Prod.snd, ite_self, Gate.sendGameMsg_connState]
          rfl

/-- `processGetRoleRequest` closes the connection of the client that it kicks. -/
theorem getRole_closed_iff (hconn : g.connState info.connId ≠ none) {request : MsgGetRoleRequest}
    (hparse : P.c2sGetRoleRequest.parse info.data = some request) :
    (ClientHandler.processGetRoleRequest P time g info).2.connState connId = some .disconnected ↔
      g.connState connId = some .disconnected ∨ HoldsClient g request.account connId := by
  rw [← kicked_closed_iff]
  by_cases hcheck : (g.mgr.checkSessionByAccount time request.account request.enterSession).1 = false
  · rw [processGetRoleRequest_rejected hconn hparse hcheck, Gate.sendError_connState]
    rfl
  · rw [processGetRoleRequest_accepted hconn hparse hcheck, enrol_closed_iff, newClient_connState_kicked]

/-- `processReconnectRequest` closes the connection of the client of the account, if it is another one
than that of the request. -/
theorem reconnect_closed_iff (hconn : g.connState info.connId ≠ none) {request : MsgReconnectRequest}
    (hparse : P.c2sReconnectRequest.parse info.data = some request) :
    (ClientHandler.processReconnectRequest P session g info).2.connState connId = some .disconnected ↔
      g.connState connId = some .disconnected ∨
        info.connId ≠ connId ∧ HoldsClient g request.account connId := by
  obtain ⟨state, hstate⟩ := Option.ne_none_iff_exists'.1 hconn
  unfold ClientHandler.processReconnectRequest
  rw [hparse, hstate]
  dsimp only
  cases hp : g.mgr.getClientInfoByAccount request.account with
  | none =>
      dsimp only
      rw [Gate.sendError_connState]
      refine ⟨Or.inl, fun h => h.resolve_right ?_⟩
      rintro ⟨-, p, hsome, -⟩
      rw [hp] at hsome
      cases hsome
  | some p =>
      have hholds : HoldsClient g request.account connId ↔ g.Kicks p ∧ (g.mgr.info p).connId = connId := by
        constructor
        · rintro ⟨p', hp', h⟩
          rw [hp, Option.some.injEq] at hp'
          exact hp' ▸ h
        · intro h
          exact ⟨p, hp, h⟩
      have hkick : (if g.clientConn p = some info.connId then g else g.clientForceClose p).connState connId =
          some .disconnected ↔ g.connState connId = some .disconnected ∨
            info.connId ≠ connId ∧ HoldsClient g request.account connId := by
        rw [hholds]
        split_ifs with hown
        · -- the client is on the connection of the request, and is left alone
          have hsame : (g.mgr.info p).connId = info.connId := by
            unfold Gate.clientConn at hown
            split_ifs at hown
            exact Option.some.inj hown
          refine ⟨Or.inl, fun h => h.resolve_right ?_⟩
          rintro ⟨hne, -, hconnId⟩
          exact hne (hsame.symm.trans hconnId)
        · rw [clientForceClose_closed_iff]
          refine or_congr_right ⟨fun h => ⟨?_, h⟩, fun h => h.2⟩
          rintro rfl
          apply hown
          obtain ⟨⟨hused, hmgr, hsome, hopen⟩, hsame⟩ := h
          unfold Gate.clientConn
          rw [if_pos ⟨hmgr, Option.isSome_iff_ne_none.2 hsome⟩, hsame]
      rw [← hkick]
      dsimp only
      split
      · rw [Gate.sendError_connState]
      · rw [apply_ite Prod.snd, ite_self, Gate.connSend_connState]

theorem createRole_connState (P : Protocol) (g : Gate) (info : JmyMsgInfo) :
    (ClientHandler.processCreateRoleRequest P g info).2.connState = g.connState := by
  unfold ClientHandler.processCreateRoleRequest
  repeat' split
  all_goals simp

theorem enterGame_connState (P : Protocol) (g : Gate) (info : JmyMsgInfo) :
    (ClientHandler.processEnterGameRequest P g info).2.connState = g.connState := by
  unfold ClientHandler.processEnterGameRequest
  repeat' split
  all_goals simp

theorem default_connState (P : Protocol) (g : Gate) (info : JmyMsgInfo) :
    (ClientHandler.processDefault P g info).2.connState = g.connState := by
  unfold ClientHandler.processDefault
  split
  · rfl
  · dsimp only
    split_ifs
    · exact Gate.sendError_connState _ _ _ _
    · rw [Gate.sendError_connState, Gate.sendGameUserMsg_connState]
    · exact Gate.sendGameUserMsg_connState _ _ _ _

theorem leaveGame_closed_iff (P : Protocol) (g : Gate) (info : JmyMsgInfo) (connId : ℤ) :
    (ClientHandler.processLeaveGameRequest P g info).2.connState connId = some .disconnected ↔
      g.connState connId = some .disconnected := by
  unfold ClientHandler.processLeaveGameRequest
  split
  · exact Iff.rfl
  rename_i p _
  rw [← clientClose_closed_iff g p connId]
  dsimp only
  split
  · exact Iff.rfl
  · rw [apply_ite Prod.snd, ite_self, Gate.sendGameUserMsg_connState]

/-- The account whose client the handler of a message kicks, when `connId` is the connection of the
client. -/
def kickTarget (P : Protocol) (connId : ℤ) (info : JmyMsgInfo) : Option Str :=
  if info.msgId = MsgId.c2sGetRoleRequest then
    (P.c2sGetRoleRequest.parse info.data).map MsgGetRoleRequest.account
  else if info.msgId = MsgId.c2sReconnectRequest ∧ info.connId ≠ connId then
    (P.c2sReconnectRequest.parse info.data).map MsgReconnectRequest.account
  else none

theorem kickTarget_of_ne (hgetRole : info.msgId ≠ MsgId.c2sGetRoleRequest)
    (hreconnect : info.msgId ≠ MsgId.c2sReconnectRequest) : kickTarget P connId info = none := by
  unfold kickTarget
  rw [if_neg hgetRole, if_neg fun h => hreconnect h.1]

/-- The message is of a known connection, and its handler kicks the client on `connId`. -/
def ClosesOwn (P : Protocol) (g : Gate) (connId : ℤ) (info : JmyMsgInfo) : Prop :=
  g.connState info.connId ≠ none ∧
    ∃ account, kickTarget P connId info = some account ∧ HoldsClient g account connId

theorem HoldsClient.not_closed {account : Str} (h : HoldsClient g account connId) :
    g.connState connId ≠ some .disconnected := by
  obtain ⟨p, -, ⟨-, -, -, hopen⟩, rfl⟩ := h
  exact hopen

/-- A handler that kicks nobody. -/
theorem closed_iff_of_quiet (hnone : kickTarget P connId info = none) :
    g.connState connId = some .disconnected ↔ g.connState connId = some .disconnected ∨ ClosesOwn P g connId info := by
  refine ⟨Or.inl, fun h => h.resolve_right ?_⟩
  rintro ⟨-, account, hsome, -⟩
  rw [hnone] at hsome
  cases hsome

/-- A handler that kicks the client of an account. -/
theorem closesOwn_iff {account : Str} (hconn : g.connState info.connId ≠ none)
    (htarget : kickTarget P connId info = some account) : ClosesOwn P g connId info ↔ HoldsClient g account connId := by
  constructor
  · rintro ⟨-, account', hsome, h⟩
    rw [htarget] at hsome
    cases hsome
    exact h
  · intro h
    exact ⟨hconn, account, htarget, h⟩

theorem getRole_closesOwn_iff (hgetRole : info.msgId = MsgId.c2sGetRoleRequest) :
    (ClientHandler.processGetRoleRequest P time g info).2.connState connId = some .disconnected ↔
      g.connState connId = some .disconnected ∨ ClosesOwn P g connId info := by
  have htarget : kickTarget P connId info =
      (P.c2sGetRoleRequest.parse info.data).map MsgGetRoleRequest.account := if_pos hgetRole
  by_cases hconn : g.connState info.connId = none
  · unfold ClientHandler.processGetRoleRequest
    rw [hconn]
    exact ⟨Or.inl, fun h => h.resolve_right fun h' => h'.1 hconn⟩
  · cases hparse : P.c2sGetRoleRequest.parse info.data with
    | none =>
        rw [hparse] at htarget
        obtain ⟨state, hstate⟩ := Option.ne_none_iff_exists'.1 hconn
        unfold ClientHandler.processGetRoleRequest
        rw [hstate, hparse]
        exact closed_iff_of_quiet htarget
    | some request =>
        rw [hparse] at htarget
        rw [getRole_closed_iff hconn hparse, closesOwn_iff hconn htarget]

theorem reconnect_closesOwn_iff (hreconnect : info.msgId = MsgId.c2sReconnectRequest) :
    (ClientHandler.processReconnectRequest P session g info).2.connState connId = some .disconnected ↔
      g.connState connId = some .disconnected ∨ ClosesOwn P g connId info := by
  have hgetRole : info.msgId ≠ MsgId.c2sGetRoleRequest := hreconnect ▸ by decide
  have htarget : kickTarget P connId info = if info.connId ≠ connId then
      (P.c2sReconnectRequest.parse info.data).map MsgReconnectRequest.account else none := by
    unfold kickTarget
    rw [if_neg hgetRole]
    simp only [hreconnect, true_and]
  cases hparse : P.c2sReconnectRequest.parse info.data with
  | none =>
      rw [hparse, Option.map_none, ite_self] at htarget
      unfold ClientHandler.processReconnectRequest
      rw [hparse]
      exact closed_iff_of_quiet htarget
  | some request =>
      rw [hparse, Option.map_some] at htarget
      by_cases hconn : g.connState info.connId = none
      · unfold ClientHandler.processReconnectRequest
        rw [hparse, hconn]
        exact ⟨Or.inl, fun h => h.resolve_right fun h' => h'.1 hconn⟩
      · rw [reconnect_closed_iff hconn hparse]
        -- a client on the connection of the request is left alone
        by_cases hne : info.connId ≠ connId
        · rw [if_pos hne] at htarget
          rw [closesOwn_iff hconn htarget, and_iff_right hne]
        · rw [if_neg hne] at htarget
          rw [← closed_iff_of_quiet htarget]
          exact ⟨fun h => h.resolve_right fun h' => hne h'.1, Or.inl⟩

/-- The handlers close a connection only by a kick of the client on it. -/
theorem handle_closed_iff (P : Protocol) (time : ℤ) (session : Str) (g : Gate) (info : JmyMsgInfo)
    (connId : ℤ) : (ClientHandler.handle P time session g info).2.connState connId = some .disconnected ↔
      g.connState connId = some .disconnected ∨ ClosesOwn P g connId info := by
  unfold ClientHandler.handle
  split_ifs with hgetRole hcreateRole henterGame hleaveGame hreconnect
  · exact getRole_closesOwn_iff hgetRole
  · rw [createRole_connState]
    exact closed_iff_of_quiet (kickTarget_of_ne hgetRole (hcreateRole ▸ by decide))
  · rw [enterGame_connState]
    exact closed_iff_of_quiet (kickTarget_of_ne hgetRole (henterGame ▸ by decide))
  · rw [leaveGame_closed_iff]
    exact closed_iff_of_quiet (kickTarget_of_ne hgetRole (hleaveGame ▸ by decide))
  · exact reconnect_closesOwn_iff hreconnect
  · rw [default_connState]
    exact closed_iff_of_quiet (kickTarget_of_ne hgetRole hreconnect)

end handlers

/-- The gate while the packets of a connection are processed, with the receive list of the connection
and the messages that were dispatched. -/
structure ClientLoop where
  gate : Gate
  recvList : List Buffer
  dispatched : List JmyMsgInfo

namespace ClientLoop

variable (P : Protocol) (clock : ℕ → ℤ × Str) (past : ℕ → Byte) (connId : ℤ)

/-- The handlers of `s_client_handlers` under the loop; `clock` gives the time and the new session code
to each dispatched message. A handler that closes the connection clears the receive list: the loop ends
when the result is negative, and goes on with a dangling iterator when it is not. -/
def msgHandler : JmyMsgHandler ClientLoop := fun info s =>
  let now := clock s.dispatched.length
  let r := ClientHandler.handle P now.1 now.2 s.gate info
  if s.gate.connState connId ≠ some .disconnected ∧ r.2.connState connId = some .disconnected then
    if r.1 < 0 then some (r.1, ⟨r.2, [], s.dispatched ++ [info]⟩) else none
  else some (r.1, ⟨r.2, s.recvList, s.dispatched ++ [info]⟩)

/-- The messages that `s_client_handlers` names; all others go to the default handler. -/
def msgIds : List MsgId := [MsgId.c2sGetRoleRequest, MsgId.c2sCreateRoleRequest,
  MsgId.c2sEnterGameRequest, MsgId.c2sLeaveGameRequest, MsgId.c2sReconnectRequest]

def dataHandler : JmyDataHandler2 ClientLoop where
  msgHandlerMap id := if id ∈ msgIds then some (msgHandler P clock connId) else none
  defaultMsgHandler := some (msgHandler P clock connId)

/-- The calls on the connection itself, which fail when the manager does not know it. -/
def connCalls : ConnCalls ClientLoop where
  handleHeartbeat s := if s.gate.connState connId = none then (-1, s) else (0, s)
  handleDisconnect s := if s.gate.connState connId = none then (-1, s) else (0, s)
  handleDisconnectAck s :=
    if s.gate.connState connId = none then (-1, s)
    else if s.gate.connState connId ≠ some .disconnecting then (0, s)
    else (1, ⟨s.gate.connForceClose connId, [], s.dispatched⟩)

/-- `processData` on the receive list of the connection. -/
def processData (data : JmyPacketUnpackData2) (s : ClientLoop) :
    Option (ℤ × JmyPacketUnpackData2 × ClientLoop) :=
  (dataHandler P clock connId).processData past (some (connCalls connId))
    (fun s => { s with recvList := [] }) s.recvList data connId s

/-- The type of a packet in a receive list. -/
def typeOf (buff : Buffer) : JmyPacketType2 := .ofCode (BitVec.ofNat 32 buff.woffset)

/-- The unpack data behind a packet. -/
def unpacked (data : JmyPacketUnpackData2) (buff : Buffer) : JmyPacketUnpackData2 :=
  (unpackData past (typeOf buff) buff.data data connId).2

/-- The messages of a list of packets, unpacked one after the other. -/
def messages : JmyPacketUnpackData2 → List Buffer → List JmyMsgInfo
  | _, [] => []
  | data, buff :: rest =>
    (if (typeOf buff).IsUser then [(unpacked past connId data buff).msgInfo] else []) ++
      messages (unpacked past connId data buff) rest

/-- The loop ends without its list being cleared, and every packet was dispatched, or is still queued
when the result is negative. -/
def ListKept (data : JmyPacketUnpackData2) (s : ClientLoop) : Prop :=
  ∃ res data' s', processData P clock past connId data s = some (res, data', s') ∧
    (res < 0 → s'.recvList = s.recvList) ∧
    (0 ≤ res → s'.dispatched = s.dispatched ++ messages past connId data s.recvList)

/-- One packet after the other, as long as the result is not negative. -/
def machine : Machine (JmyPacketUnpackData2 × ClientLoop) Buffer where
  step s buff := ((dataHandler P clock connId).handleOne past (some (connCalls connId)) buff s.1
    connId s.2).bind fun res => if res.1 < 0 then none else some res.2

/-- The packet is a message that makes its handler close the connection. -/
def Clears (s : JmyPacketUnpackData2 × ClientLoop) (buff : Buffer) : Prop :=
  (typeOf buff).IsUser ∧ ClosesOwn P s.2.gate connId (unpacked past connId s.1 buff).msgInfo

/-- The list is cleared: the loop has a dangling iterator, or ends with an empty list. -/
def Cleared {α : Type} (list : α → List Buffer) (o : Option (ℤ × α)) : Prop :=
  ∀ r, o = some r → r.1 < 0 ∧ list r.2 = []

/-- A handler under the loop: it clears the list, or the message was dispatched. -/
theorem msgHandler_cases (info : JmyMsgInfo) (s : ClientLoop) :
    ClosesOwn P s.gate connId info ∧ Cleared recvList (msgHandler P clock connId info s) ∨
      ¬ClosesOwn P s.gate connId info ∧ ∃ res g, msgHandler P clock connId info s =
        some (res, ⟨g, s.recvList, s.dispatched ++ [info]⟩) := by
  have hclosed := handle_closed_iff P (clock s.dispatched.length).1 (clock s.dispatched.length).2 s.gate
    info connId
  unfold msgHandler
  dsimp only
  by_cases hown : ClosesOwn P s.gate connId info
  · have hopen : s.gate.connState connId ≠ some .disconnected := by
      obtain ⟨-, account, -, hholds⟩ := hown
      exact hholds.not_closed
    rw [if_pos ⟨hopen, hclosed.2 (Or.inr hown)⟩]
    refine Or.inl ⟨hown, fun r hr => ?_⟩
    obtain ⟨hneg, heq⟩ := Option.ite_none_right_eq_some.1 hr
    obtain rfl := Option.some.inj heq
    exact ⟨hneg, rfl⟩
  · refine Or.inr ⟨hown, _, _, if_neg ?_⟩
    rintro ⟨hopen, hafter⟩
    rcases hclosed.1 hafter with h | h
    · exact hopen h
    · exact hown h

theorem handleMsg_cases (info : JmyMsgInfo) (s : ClientLoop) :
    ClosesOwn P s.gate connId info ∧ Cleared recvList ((dataHandler P clock connId).handleMsg info s) ∨
      ¬ClosesOwn P s.gate connId info ∧ ∃ res g, (dataHandler P clock connId).handleMsg info s =
        some (res, ⟨g, s.recvList, s.dispatched ++ [info]⟩) := by
  -- a negative result stays one
  have hmap : ∀ f : ℤ × ClientLoop → ℤ, (∀ r, r.1 < 0 → f r < 0) →
      ClosesOwn P s.gate connId info ∧
          Cleared recvList ((msgHandler P clock connId info s).map fun r => (f r, r.2)) ∨
        ¬ClosesOwn P s.gate connId info ∧ ∃ res g,
          (msgHandler P clock connId info s).map (fun r => (f r, r.2)) =
            some (res, ⟨g, s.recvList, s.dispatched ++ [info]⟩) := by
    intro f hf
    rcases msgHandler_cases P clock connId info s with
      ⟨hown, hcleared⟩ | ⟨hown, res, g, hsome⟩
    · refine Or.inl ⟨hown, fun r hr => ?_⟩
      obtain ⟨r', hr', rfl⟩ := Option.map_eq_some_iff.1 hr
      obtain ⟨hneg, hempty⟩ := hcleared r' hr'
      exact ⟨hf r' hneg, hempty⟩
    · rw [hsome]
      exact Or.inr ⟨hown, _, _, rfl⟩
  have hneg : (-1 : ℤ) < 0 := by decide
  unfold JmyDataHandler2.handleMsg dataHandler
  by_cases hid : info.msgId ∈ msgIds
  · simp only [if_pos hid]
    exact hmap _ fun r hr => by rwa [if_pos hr]
  · simp only [if_neg hid]
    exact hmap _ fun r hr => by rwa [if_neg hr.ne, if_pos hr]

theorem unpackData_user_nonneg {type : JmyPacketType2} (huser : type.IsUser) (buf : List Byte)
    (data : JmyPacketUnpackData2) : 0 ≤ (unpackData past type buf data connId).1 := by
  have hpacket : ∀ t, 0 ≤ (unpackUserPacket past t buf data connId).1 := by
    intro t
    unfold unpackUserPacket
    split
    · exact le_refl _
    · exact Int.natCast_nonneg _
  unfold unpackData
  by_cases hempty : buf.length = 0
  · rw [if_pos hempty]
  · rw [if_neg hempty]
    rcases huser with rfl | rfl
    · exact hpacket _
    · exact hpacket _

/-- One packet: its message clears the list under the loop, or the list is left alone and the message
was dispatched, if the packet holds one. -/
theorem handleOne_cases (buff : Buffer) (data : JmyPacketUnpackData2) (s : ClientLoop) :
    Clears P past connId (data, s) buff ∧ Cleared (·.2.recvList) ((dataHandler P clock connId).handleOne past
        (some (connCalls connId)) buff data connId s) ∨
      ¬Clears P past connId (data, s) buff ∧ ∃ res s', (dataHandler P clock connId).handleOne past
          (some (connCalls connId)) buff data connId s = some (res, unpacked past connId data buff, s') ∧
        s'.recvList = s.recvList ∧ (0 ≤ res → s'.dispatched = s.dispatched ++
          if (typeOf buff).IsUser then [(unpacked past connId data buff).msgInfo] else []) := by
  have hneg : ¬(0 : ℤ) ≤ -1 := by decide
  unfold Clears JmyDataHandler2.handleOne unpacked
  dsimp only
  rw [show JmyPacketType2.ofCode (BitVec.ofNat 32 buff.woffset) = typeOf buff from rfl]
  generalize typeOf buff = type
  by_cases huser : type.IsUser
  · have hnonneg : ¬(unpackData past type buff.data data connId).1 < 0 :=
      not_lt.2 (unpackData_user_nonneg past connId huser buff.data data)
    rw [if_neg hnonneg, if_neg fun h => h.2 huser, if_pos huser, if_pos huser]
    rcases handleMsg_cases P clock connId (unpackData past type buff.data data connId).2.msgInfo s with
      ⟨hown, hcleared⟩ | ⟨hown, res, g, hsome⟩
    · refine Or.inl ⟨⟨huser, hown⟩, fun r hr => ?_⟩
      obtain ⟨r', hr', rfl⟩ := Option.map_eq_some_iff.1 hr
      obtain ⟨hres, hempty⟩ := hcleared r' hr'
      dsimp only
      rw [if_pos hres]
      exact ⟨by decide, hempty⟩
    · rw [hsome]
      exact Or.inr ⟨fun h => hown h.2, _, _, rfl, rfl, fun _ => rfl⟩
  · refine Or.inr ⟨fun h => huser h.1, ?_⟩
    rw [if_neg huser, if_neg huser, List.append_nil]
    by_cases hfail : (unpackData past type buff.data data connId).1 < 0
    · rw [if_pos hfail]
      exact ⟨_, _, rfl, rfl, fun h => absurd h hneg⟩
    rw [if_neg hfail]
    by_cases hnone : (unpackData past type buff.data data connId).1 = 0
    · rw [if_pos ⟨hnone, huser⟩]
      exact ⟨_, _, rfl, rfl, fun _ => rfl⟩
    rw [if_neg fun h => hnone h.1]
    -- the packets of `close` have no body to unpack, so that only a heartbeat comes here
    have hdisconnect : type ≠ .disconnect := by
      rintro rfl
      apply hnone
      unfold unpackData
      split_ifs <;> rfl
    have hdisconnectAck : type ≠ .disconnectAck := by
      rintro rfl
      apply hnone
      unfold unpackData
      split_ifs <;> rfl
    rw [if_neg hdisconnect, if_neg hdisconnectAck]
    by_cases hheartbeat : type = .heartbeat
    · have hcall : (JmyDataHandler2.callConn (some (connCalls connId)) ConnCalls.handleHeartbeat s).2 = s := by
        unfold JmyDataHandler2.callConn connCalls
        dsimp only
        split_ifs <;> rfl
      rw [if_pos hheartbeat, hcall]
      exact ⟨_, _, rfl, rfl, fun _ => rfl⟩
    · rw [if_neg hheartbeat]
      exact ⟨_, _, rfl, rfl, fun h => absurd h hneg⟩

/-- When no packet clears the list, the loop ends with the list as it was. -/
theorem processLoop_of_along {buffs : List Buffer} {data : JmyPacketUnpackData2} {count : ℤ} {s : ClientLoop}
    (h : (machine P clock past connId).Along (fun s buff => ¬Clears P past connId s buff) (data, s) buffs) :
    ∃ res data' s', (dataHandler P clock connId).processLoop past (some (connCalls connId)) connId buffs
        data count s = some (res, data', s') ∧ s'.recvList = s.recvList ∧
      (0 ≤ res → s'.dispatched = s.dispatched ++ messages past connId data buffs) := by
  induction buffs generalizing data count s with
  | nil => exact ⟨count, data, s, rfl, rfl, fun _ => (List.append_nil _).symm⟩
  | cons buff rest ih =>
      obtain ⟨hnot, halong⟩ := h
      rcases handleOne_cases P clock past connId buff data s with ⟨hclears, -⟩ | ⟨-, res, s', hone, hlist, hsent⟩
      · exact absurd hclears hnot
      · unfold JmyDataHandler2.processLoop
        rw [hone, Option.bind_some]
        dsimp only
        by_cases hres : res < 0
        · rw [if_pos hres]
          exact ⟨-1, _, s', rfl, hlist, fun h => absurd h (by decide)⟩
        · rw [if_neg hres]
          have hstep : (machine P clock past connId).step (data, s) buff =
              some (unpacked past connId data buff, s') := by
            unfold machine
            dsimp only
            rw [hone]
            exact if_neg hres
          obtain ⟨res', data', t, hrest, hlist', hsent'⟩ := ih (halong _ hstep)
          refine ⟨res', data', t, hrest, hlist'.trans hlist, ?_⟩
          intro hnonneg
          rw [hsent' hnonneg, hsent (not_lt.1 hres), messages, List.append_assoc]

/-- A packet that clears the list leaves the loop with a dangling iterator, or ends it with an empty list. -/
theorem along_of_processLoop {buffs : List Buffer} {data : JmyPacketUnpackData2} {count : ℤ} {s : ClientLoop}
    (h : ¬Cleared (·.2.recvList) ((dataHandler P clock connId).processLoop past (some (connCalls connId)) connId
      buffs data count s)) :
    (machine P clock past connId).Along (fun s buff => ¬Clears P past connId s buff) (data, s) buffs := by
  induction buffs generalizing data count s with
  | nil => trivial
  | cons buff rest ih =>
      unfold JmyDataHandler2.processLoop at h
      rcases handleOne_cases P clock past connId buff data s with ⟨-, hcleared⟩ | ⟨hnot, res, s', hone, -⟩
      · -- the loop ends behind the packet
        refine absurd (fun r hr => ?_) h
        obtain ⟨res, hres, hrest⟩ := Option.bind_eq_some_iff.1 hr
        obtain ⟨hneg, hempty⟩ := hcleared res hres
        rw [if_pos hneg] at hrest
        obtain rfl := Option.some.inj hrest
        exact ⟨Int.negSucc_lt_zero 0, hempty⟩
      · refine ⟨hnot, ?_⟩
        intro t ht
        unfold machine at ht
        dsimp only at ht
        rw [hone] at ht h
        rw [Option.bind_some] at ht h
        dsimp only at ht h
        by_cases hres : res < 0
        · rw [if_pos hres] at ht
          cases ht
        · rw [if_neg hres] at ht h
          cases ht
          exact ih h

/-- The receive list stays under the loop exactly when no packet that the loop comes to makes its handler
kick the client on the connection itself. -/
theorem client_list_kept_iff (P : Protocol) (clock : ℕ → ℤ × Str) (past : ℕ → Byte) (connId : ℤ)
    (data : JmyPacketUnpackData2) (s : ClientLoop) : ListKept P clock past connId data s ↔
      (machine P clock past connId).Along (fun s buff => ¬Clears P past connId s buff) (data, s)
        s.recvList := by
  constructor
  · rintro ⟨res, data', s', hdata, hkept, -⟩
    cases hlist : s.recvList with
    | nil => trivial
    | cons buff rest =>
        apply along_of_processLoop
        intro hcleared
        unfold processData JmyDataHandler2.processData at hdata
        rw [hlist] at hdata hkept
        obtain ⟨r, hr, heq⟩ := Option.map_eq_some_iff.1 hdata
        obtain ⟨hneg, hempty⟩ := hcleared r hr
        rw [if_pos hneg] at heq
        subst heq
        cases hempty.symm.trans (hkept hneg)
  · intro h
    obtain ⟨res, data', s', hloop, hlist, hsent⟩ := processLoop_of_along P clock past connId h
    unfold ListKept processData JmyDataHandler2.processData
    rw [hloop, Option.map_some]
    by_cases hres : res < 0
    · exact ⟨res, data', s', congrArg some (if_pos hres), fun _ => hlist, hsent⟩
    · exact ⟨res, data', _, congrArg some (if_neg hres), fun h => absurd h hres, hsent⟩

/-- The packet of a message of a client. -/
def packetOf (msgId : MsgId) (payload : List Byte) : Buffer :=
  ⟨packInt16 msgId ++ payload, 2 + payload.length, 0, JmyPacketType2.userData.code.toNat⟩

/-- A second GetRole request of a client closes its connection: the result is negative, and the list with the request
and what is behind it is empty. -/
theorem getRole_clears_list : ∃ g, (gateMachine wire).run (.start 3) loginRun = some g ∧
    ¬ListKept wire (fun _ => (0, [])) (fun _ => 0) 1 .init
      ⟨g, [packetOf MsgId.c2sGetRoleRequest (getRoleData [1]), packetOf MsgId.c2sChatRequest []], []⟩ := by
  have hsees : ((gateMachine wire).run (.start 3) loginRun).map (fun g =>
      (processData wire (fun _ => (0, [])) (fun _ => 0) 1 .init
        ⟨g, [packetOf MsgId.c2sGetRoleRequest (getRoleData [1]), packetOf MsgId.c2sChatRequest []], []⟩).map
          fun r => (r.1, r.2.2.recvList)) = some (some (-1, [])) := by
    decide +kernel
  obtain ⟨g, hg, hdata⟩ := Option.map_eq_some_iff.1 hsees
  obtain ⟨r, hr, hsees⟩ := Option.map_eq_some_iff.1 hdata
  obtain ⟨hneg, hempty⟩ := Prod.mk.inj hsees
  refine ⟨g, hg, ?_⟩
  rintro ⟨res, data', s', hloop, hkept, -⟩
  rw [hloop] at hr
  obtain rfl := Option.some.inj hr
  dsimp only at hneg hempty
  have hlist := hkept (by omega)
  rw [hempty] at hlist
  cases hlist

end ClientLoop

end JmyGame
