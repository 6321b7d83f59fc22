import JmyGame.ClusterPlayers

/-! The links that all players share. A negative result of a handler closes the link on which its message
came. For every handler of the three links this says which messages it takes in which states. -/

namespace JmyGame

open CArith

/-- The message fits the buffer that it is serialized to. -/
def Codec.Fits {α : Type} (codec : Codec α) (size : ℕ) (m : α) : Prop := (codec.serialize m).length ≤ size

theorem Codec.serializeToArray_of_fits {α : Type} {codec : Codec α} {size : ℕ} {m : α}
    (h : codec.Fits size m) : codec.serializeToArray size m = some (codec.serialize m) := if_pos h

theorem Codec.serializeToArray_of_not_fits {α : Type} {codec : Codec α} {size : ℕ} {m : α}
    (h : ¬codec.Fits size m) : codec.serializeToArray size m = none := if_neg h

/-- A handler that ends with a send takes its message when the send does. -/
theorem answer_nonneg {σ : Type} {a : ℤ} {n : ℕ} {s s' : σ} :
    0 ≤ (if a < 0 then (-1, s) else ((n : ℤ), s')).1 ↔ 0 ≤ a := by
  have hneg : ¬(0 : ℤ) ≤ -1 := by decide
  split_ifs with h
  · exact ⟨fun h' => absurd h' hneg, fun h' => absurd h (not_lt.2 h')⟩
  · exact ⟨fun _ => not_lt.1 h, fun _ => Int.natCast_nonneg n⟩

/-- A send is refused with -1. -/
theorem send_nonneg {σ : Type} {c : Prop} [Decidable c] {n : ℕ} {s s' : σ} :
    0 ≤ (if c then ((n : ℤ), s) else (-1, s')).1 ↔ c := by
  have hneg : ¬(0 : ℤ) ≤ -1 := by decide
  split_ifs with h
  · exact ⟨fun _ => h, fun _ => Int.natCast_nonneg n⟩
  · exact ⟨fun h' => absurd h' hneg, fun h' => absurd h' h⟩

/-- A message that cannot be read, or a name that is not found, is refused. -/
theorem found_nonneg {α : Type} {o : Option α} {r : ℤ} {Q : α → Prop} (hnone : o = none → r = -1)
    (hsome : ∀ a, o = some a → (0 ≤ r ↔ Q a)) : 0 ≤ r ↔ ∃ a, o = some a ∧ Q a := by
  cases o with
  | none =>
      have hneg : ¬(0 : ℤ) ≤ -1 := by decide
      rw [hnone rfl]
      exact ⟨fun h => absurd h hneg, fun ⟨_, h, _⟩ => nomatch h⟩
  | some a =>
      rw [hsome a rfl]
      exact ⟨fun h => ⟨a, rfl, h⟩, fun ⟨_, h, h'⟩ => Option.some.inj h ▸ h'⟩

/-- An answer that does not fit is refused. -/
theorem fits_nonneg {α : Type} {codec : Codec α} {size : ℕ} {m : α} {r : ℤ} {Q : Prop}
    (hnone : codec.serializeToArray size m = none → r = -1)
    (hsome : codec.serializeToArray size m = some (codec.serialize m) → (0 ≤ r ↔ Q)) :
    0 ≤ r ↔ codec.Fits size m ∧ Q := by
  by_cases hfits : codec.Fits size m
  · rw [hsome (Codec.serializeToArray_of_fits hfits)]
    exact (and_iff_right hfits).symm
  · have hneg : ¬(0 : ℤ) ≤ -1 := by decide
    rw [hnone (Codec.serializeToArray_of_not_fits hfits)]
    exact ⟨fun h => absurd h hneg, fun h => absurd h.1 hfits⟩

/-- A state in which the handler does not work is refused. -/
theorem guard_nonneg {σ : Type} {c : Prop} [Decidable c] {s : σ} {r : ℤ × σ} :
    0 ≤ (if c then (-1, s) else r).1 ↔ ¬c ∧ 0 ≤ r.1 := by
  have hneg : ¬(0 : ℤ) ≤ -1 := by decide
  split_ifs with h
  · exact ⟨fun h' => absurd h' hneg, fun h' => absurd h h'.1⟩
  · exact (and_iff_right h).symm

/-- A client that the gate can send a message to: its slot is in use, and its connection connected. -/
def Gate.Reaches (g : Gate) (p : ℤ) (msgId : MsgId) (data : List Byte) : Prop :=
  (g.mgr.info p).used = true ∧ (g.mgr.info p).hasMgr = true ∧
    g.connState (g.mgr.info p).connId = some .connected ∧ sendTakes msgId (short data) = true

theorem clientSend_nonneg (g : Gate) (p : ℤ) (msgId : MsgId) (data : List Byte) :
    0 ≤ (g.clientSend p msgId data).1 ↔ g.Reaches p msgId data := by
  unfold Gate.clientSend Gate.clientConn Gate.connSend Gate.Reaches
  by_cases hused : (g.mgr.info p).used = true
  · by_cases hmgr : (g.mgr.info p).hasMgr = true
    · by_cases hconn : (g.connState (g.mgr.info p).connId).isSome = true
      · simp only [hused, hmgr, hconn, Bool.true_eq_false, if_false, true_and, and_self, if_true]
        exact send_nonneg
      · have hnone : g.connState (g.mgr.info p).connId = none := by simpa using hconn
        simp [hused, hmgr, hnone]
    · simp [hused, hmgr]
  · simp [hused]

namespace Game

/-- The game server can send a message to the db server. -/
def ReachesDB (s : Game) (msgId : MsgId) (data : List Byte) : Prop :=
  s.dbConn = true ∧ s.dbUp = true ∧ sendTakes msgId (short data) = true

/-- The game server can send a message for a user to the gate. -/
def ReachesUser (s : Game) (userId : BitVec 32) (msgId : MsgId) (data : List Byte) : Prop :=
  s.gateConn = true ∧ s.gateUp = true ∧ sendUserTakes userId msgId (short data) = true

theorem sendDB_nonneg (s : Game) (msgId : MsgId) (data : List Byte) :
    0 ≤ (s.sendDB msgId data).1 ↔ s.ReachesDB msgId data := by
  unfold sendDB dbConnSend ReachesDB
  by_cases hconn : s.dbConn = true
  · simp only [hconn, if_true, true_and]
    exact send_nonneg
  · simp [hconn]

theorem sendGateUser_nonneg (s : Game) (userId : BitVec 32) (msgId : MsgId) (data : List Byte) :
    0 ≤ (s.sendGateUser userId msgId data).1 ↔ s.ReachesUser userId msgId data := by
  unfold sendGateUser gateConnSendUser ReachesUser
  by_cases hconn : s.gateConn = true
  · simp only [hconn, if_true, true_and]
    exact send_nonneg
  · simp [hconn]

/-- The result of `send_gate` of a player is never negative. -/
theorem sendGatePlayer_nonneg (s : Game) (obj : ℕ) (msgId : MsgId) (data : List Byte) :
    0 ≤ (s.sendGatePlayer obj msgId data).1 := by
  unfold sendGatePlayer
  dsimp only
  split
  · exact le_refl 0
  · dsimp only
    split
    · exact Int.one_nonneg
    · exact le_refl 0

end Game

namespace GateGameHandler

variable (P : Protocol) (g : Gate)

/-- The game server is a new one, with an id of its range, and can be answered. -/
def TakesConnectGateRequest (data : List Byte) : Prop :=
  ∃ gameId, P.connectGateRequest.parse data = some gameId ∧ g.gameAgent = none ∧
    gameServerMinId ≤ gameId ∧ gameId ≤ gameServerMaxId ∧
      P.connectGateResponse.Fits maxMsgSize ⟨g.maxConn, g.mgr.clientArray.startId⟩ ∧ g.gameUp = true ∧
        sendTakes MsgId.gt2gsConnectGateResponse
          (short (P.connectGateResponse.serialize ⟨g.maxConn, g.mgr.clientArray.startId⟩)) = true

/-- The client of the account is still there, and can be sent the answer. -/
def TakesGetRoleResponse (data : List Byte) : Prop :=
  ∃ response, P.gs2gtGetRoleResponse.parse data = some response ∧
    ∃ p, g.mgr.getClientInfoByAccount response.account = some p ∧
      if response.roleData.roleId = 0 then
        P.error.Fits maxMsgSize ProtoErrorType.getRoleNone.code ∧
          g.Reaches p MsgId.error (P.error.serialize ProtoErrorType.getRoleNone.code)
      else P.gs2gtGetRoleResponse.Fits maxMsgSize response ∧
        g.Reaches p MsgId.s2cGetRoleResponse (P.gs2gtGetRoleResponse.serialize response)

/-- The role of a create role response, as the client gets it. -/
def createdRole (response : MsgRoleResponse) : MsgBaseRoleData :=
  ⟨response.roleData.roleId, response.roleData.nickName, response.roleData.race, response.roleData.sex, 0, 0⟩

/-- The client of the account is still there, and can be sent the role. -/
def TakesCreateRoleResponse (data : List Byte) : Prop :=
  ∃ response, P.gs2gtCreateRoleResponse.parse data = some response ∧
    ∃ p, g.mgr.getClientInfoByAccount response.account = some p ∧
      P.s2cCreateRoleResponse.Fits maxMsgSize (createdRole response) ∧
        g.Reaches p MsgId.s2cCreateRoleResponse (P.s2cCreateRoleResponse.serialize (createdRole response))

/-- The client of the user id is still there, and can be sent the message. -/
def TakesDefault (info : JmyMsgInfo) : Prop :=
  g.gameUp = true ∧ info.userId ≠ 0 ∧
    ∃ p, g.mgr.getClientInfo info.userId.toInt = some p ∧ g.Reaches p info.msgId info.data

/-- The messages of the game server that the gate takes. -/
def Takes (info : JmyMsgInfo) : Prop :=
  if info.msgId = MsgId.gs2gtConnectGateRequest then TakesConnectGateRequest P g info.data
  else if info.msgId = MsgId.gs2gtGetRoleResponse then TakesGetRoleResponse P g info.data
  else if info.msgId = MsgId.gs2gtCreateRoleResponse then TakesCreateRoleResponse P g info.data
  else TakesDefault g info

variable {P g} {info : JmyMsgInfo}

/-- Only the first game server on the link is enrolled, and only with an id of the range. -/
theorem newGameAgent_eq (gameId : ℤ) : g.newGameAgent gameId =
    if g.gameAgent = none ∧ gameServerMinId ≤ gameId ∧ gameId ≤ gameServerMaxId then
      (true, { g with gameAgent := some gameId })
    else (false, g) := by
  unfold Gate.newGameAgent
  by_cases hagent : g.gameAgent = none
  · rw [if_neg (by rw [hagent]; decide)]
    by_cases hrange : gameId < gameServerMinId ∨ gameServerMaxId < gameId
    · rw [if_pos hrange, if_neg (by omega)]
    · rw [if_neg hrange, if_pos ⟨hagent, by omega, by omega⟩]
  · rw [if_pos (Option.isSome_iff_ne_none.2 hagent), if_neg fun h => hagent h.1]

theorem processConnectGateRequest_nonneg :
    0 ≤ (processConnectGateRequest P g info).1 ↔ TakesConnectGateRequest P g info.data := by
  unfold processConnectGateRequest TakesConnectGateRequest
  apply found_nonneg <;> [intro hparse; intro gameId hparse]
  · simp only [hparse]
  simp only [hparse, newGameAgent_eq]
  by_cases henrol : g.gameAgent = none ∧ gameServerMinId ≤ gameId ∧ gameId ≤ gameServerMaxId
  · simp only [if_pos henrol, Bool.true_eq_false, if_false]
    simp only [henrol.1, henrol.2.1, henrol.2.2, true_and]
    apply fits_nonneg <;> intro hfits
    · simp only [hfits]
    simp only [hfits]
    rw [answer_nonneg, Gate.sendGameMsg, send_nonneg]
    -- the agent that was made is the one the answer goes through
    exact and_iff_right rfl
  · have hneg : ¬(0 : ℤ) ≤ -1 := by decide
    simp only [if_neg henrol, if_true]
    exact ⟨fun h => absurd h hneg, fun h => absurd ⟨h.1, h.2.1, h.2.2.1⟩ henrol⟩

/-- Neither the trace nor a field that `send` does not read matters to whom the gate reaches. -/
theorem reaches_congr {g g' : Gate} {p : ℤ} {msgId : MsgId} {data : List Byte}
    (hconn : g'.connState = g.connState) (hused : (g'.mgr.info p).used = (g.mgr.info p).used)
    (hmgr : (g'.mgr.info p).hasMgr = (g.mgr.info p).hasMgr)
    (hid : (g'.mgr.info p).connId = (g.mgr.info p).connId) :
    g'.Reaches p msgId data ↔ g.Reaches p msgId data := by
  unfold Gate.Reaches
  rw [hconn, hused, hmgr, hid]

theorem processGetRoleResponse_nonneg {session : Str} :
    0 ≤ (processGetRoleResponse P session g info).1 ↔ TakesGetRoleResponse P g info.data := by
  unfold processGetRoleResponse TakesGetRoleResponse
  apply found_nonneg <;> [intro hparse; intro response hparse]
  · simp only [hparse]
  simp only [hparse]
  apply found_nonneg <;> [intro hclient; intro p hclient]
  · simp only [Gate.observe, hclient]
  simp only [Gate.observe, hclient]
  by_cases hzero : response.roleData.roleId = 0
  · simp only [if_pos hzero]
    apply fits_nonneg <;> intro hfits
    · simp only [hfits]
    simp only [hfits]
    exact answer_nonneg.trans (clientSend_nonneg _ p _ _)
  · simp only [if_neg hzero]
    apply fits_nonneg <;> intro hfits
    · simp only [hfits]
    simp only [hfits]
    apply answer_nonneg.trans
    apply (clientSend_nonneg _ p _ _).trans
    -- the new session code does not matter to the send
    apply reaches_congr
    · rfl
    all_goals simp [ClientManager.info, ClientManager.modifyInfo, ClientArray.modifyInfo]

theorem processCreateRoleResponse_nonneg :
    0 ≤ (processCreateRoleResponse P g info).1 ↔ TakesCreateRoleResponse P g info.data := by
  unfold processCreateRoleResponse TakesCreateRoleResponse createdRole
  apply found_nonneg <;> [intro hparse; intro response hparse]
  · simp only [hparse]
  simp only [hparse]
  apply found_nonneg <;> [intro hclient; intro p hclient]
  · simp only [Gate.observe, hclient]
  simp only [Gate.observe, hclient]
  apply fits_nonneg <;> intro hfits
  · simp only [hfits]
  simp only [hfits]
  apply answer_nonneg.trans
  apply (clientSend_nonneg _ p _ _).trans
  -- the role that the client gets does not matter to the send
  apply reaches_congr
  · rfl
  all_goals simp [ClientManager.info, ClientManager.modifyInfo, ClientArray.modifyInfo]

theorem processDefault_nonneg : 0 ≤ (processDefault g info).1 ↔ TakesDefault g info := by
  unfold processDefault TakesDefault
  apply guard_nonneg.trans
  apply and_congr (by simp)
  apply guard_nonneg.trans
  apply and_congr_right
  intro _
  apply found_nonneg <;> [intro hclient; intro p hclient]
  · simp only [hclient]
  simp only [hclient]
  exact answer_nonneg.trans (clientSend_nonneg g p _ _)

theorem handle_nonneg {session : Str} : 0 ≤ (handle P session g info).1 ↔ Takes P g info := by
  unfold handle Takes
  split_ifs
  · exact processConnectGateRequest_nonneg
  · exact processGetRoleResponse_nonneg
  · exact processCreateRoleResponse_nonneg
  · exact processDefault_nonneg

end GateGameHandler

namespace ConnGateHandler

variable (P : Protocol) (s : Game)

/-- The range of user ids that the gate gives is not empty. -/
def TakesConnectGateResponse (data : List Byte) : Prop :=
  s.gateUp = true ∧ ∃ response, P.connectGateResponse.parse data = some response ∧
    0 < response.startUserId ∧ 0 < response.maxUserCount

/-- The request can go on to the db server. -/
def TakesGetRole (data : List Byte) : Prop :=
  ∃ account, P.gt2gsGetRoleRequest.parse data = some account ∧
    P.gs2dsGetRoleRequest.Fits maxMsgSize account ∧
      s.ReachesDB MsgId.gs2dsGetRoleRequest (P.gs2dsGetRoleRequest.serialize account)

/-- The request can go on to the db server. -/
def TakesCreateRole (data : List Byte) : Prop :=
  ∃ request, P.gt2gsCreateRoleRequest.parse data = some request ∧
    P.gs2dsCreateRoleRequest.Fits maxMsgSize request ∧
      s.ReachesDB MsgId.gs2dsCreateRoleRequest (P.gs2dsCreateRoleRequest.serialize request)

/-- The user can be answered twice. -/
def TakesEnterGame (info : JmyMsgInfo) : Prop :=
  ∃ roleId, P.enterGameRequest.parse info.data = some roleId ∧ 0 < info.userId.toInt ∧
    P.s2cEnterGameResponse.Fits maxMsgSize () ∧
      s.ReachesUser info.userId MsgId.s2cEnterGameResponse (P.s2cEnterGameResponse.serialize ()) ∧
        s.ReachesUser info.userId MsgId.s2cEnterGameCompleteNotify (P.s2cEnterGameResponse.serialize ())

/-- The user that leaves has a player. -/
def TakesLeaveGame (info : JmyMsgInfo) : Prop :=
  ∃ roleId, P.leaveGameRequest.parse info.data = some roleId ∧ ∃ obj, s.mgr.get info.userId.toInt = some obj

/-- The text is a command, or it can be sent back, and on to the role that it is for. -/
def TakesChat (info : JmyMsgInfo) : Prop :=
  s.gateUp = true ∧ ∃ request, P.chatRequest.parse info.data = some request ∧
    ((GmManager.parseCommand request.content).isSome = true ∨
      P.chatResponse.Fits maxMsgSize request ∧
        sendUserTakes info.userId MsgId.s2cChatResponse (short (P.chatResponse.serialize request)) = true ∧
          ∀ obj, s.mgr.getByRoleId request.roleId = some obj →
            P.chatNotify.Fits maxMsgSize ⟨[], request.chatType, request.channel, 0⟩)

/-- The role data that goes to the db server. -/
def setRole (info : JmyMsgInfo) (d : MsgBaseRoleData) : MsgRoleData :=
  ⟨s.mgr.getRoleIdByUserId info.userId.toInt, ⟨0, [], d.race, d.sex, d.hp, d.level⟩⟩

/-- The role data can go on to the db server. -/
def TakesSetRoleData (info : JmyMsgInfo) : Prop :=
  ∃ d, P.setRoleDataRequest.parse info.data = some d ∧
    P.gs2dsSetRoleDataRequest.Fits maxMsgSize (setRole s info d) ∧
      s.ReachesDB MsgId.gs2dsSetRoleDataRequest (P.gs2dsSetRoleDataRequest.serialize (setRole s info d))

/-- The messages of the gate that the game server takes. One that it does not know is no error. -/
def Takes (info : JmyMsgInfo) : Prop :=
  if info.msgId = MsgId.gt2gsConnectGateResponse then TakesConnectGateResponse P s info.data
  else if info.msgId = MsgId.gt2gsGetRoleRequest then TakesGetRole P s info.data
  else if info.msgId = MsgId.gt2gsCreateRoleRequest then TakesCreateRole P s info.data
  else if info.msgId = MsgId.gt2gsEnterGameRequest then TakesEnterGame P s info
  else if info.msgId = MsgId.gt2gsLeaveGameRequest then TakesLeaveGame P s info
  else if info.msgId = MsgId.c2sChatRequest then TakesChat P s info
  else if info.msgId = MsgId.c2sSetRoleDataRequest then TakesSetRoleData P s info
  else True

variable {P s} {info : JmyMsgInfo}

theorem processConnectGateResponse_nonneg :
    0 ≤ (processConnectGateResponse P s info).1 ↔ TakesConnectGateResponse P s info.data := by
  unfold processConnectGateResponse TakesConnectGateResponse
  apply guard_nonneg.trans
  apply and_congr (by simp)
  apply found_nonneg <;> [intro hparse; intro response hparse]
  · simp only [hparse]
  simp only [hparse]
  apply guard_nonneg.trans
  unfold PlayerManager.init
  split_ifs with hempty <;> simp <;> omega

theorem processGetRole_nonneg : 0 ≤ (processGetRole P s info).1 ↔ TakesGetRole P s info.data := by
  unfold processGetRole TakesGetRole
  apply found_nonneg <;> [intro hparse; intro account hparse]
  · simp only [hparse]
  simp only [hparse]
  apply fits_nonneg <;> intro hfits
  · simp only [hfits]
  simp only [hfits]
  exact answer_nonneg.trans (s.sendDB_nonneg _ _)

theorem processCreateRole_nonneg :
    0 ≤ (processCreateRole P s info).1 ↔ TakesCreateRole P s info.data := by
  unfold processCreateRole TakesCreateRole
  apply found_nonneg <;> [intro hparse; intro request hparse]
  · simp only [hparse]
  simp only [hparse]
  apply fits_nonneg <;> intro hfits
  · simp only [hfits]
  simp only [hfits]
  exact answer_nonneg.trans (s.sendDB_nonneg _ _)

theorem enterPlayer_links (s : Game) (userId : ℤ) (roleId : BitVec 64) :
    (enterPlayer s userId roleId).gateConn = s.gateConn ∧ (enterPlayer s userId roleId).gateUp = s.gateUp := by
  unfold enterPlayer
  split
  · exact ⟨rfl, rfl⟩
  · exact ⟨rfl, rfl⟩

theorem sendGateUser_links (s : Game) (userId : BitVec 32) (msgId : MsgId) (data : List Byte) :
    (s.sendGateUser userId msgId data).2.gateConn = s.gateConn ∧
      (s.sendGateUser userId msgId data).2.gateUp = s.gateUp := by
  unfold Game.sendGateUser Game.gateConnSendUser
  split_ifs <;> exact ⟨rfl, rfl⟩

theorem processEnterGame_nonneg : 0 ≤ (processEnterGame P s info).1 ↔ TakesEnterGame P s info := by
  unfold processEnterGame TakesEnterGame
  apply found_nonneg <;> [intro hparse; intro roleId hparse]
  · simp only [hparse]
  simp only [hparse]
  apply guard_nonneg.trans
  apply and_congr not_le
  apply fits_nonneg <;> intro hfits
  · simp only [hfits]
  simp only [hfits]
  apply guard_nonneg.trans
  apply and_congr
  · rw [not_lt, Game.sendGateUser_nonneg, Game.ReachesUser, (enterPlayer_links s _ _).1,
      (enterPlayer_links s _ _).2, Game.ReachesUser]
  · rw [answer_nonneg, Game.sendGateUser_nonneg, Game.ReachesUser, (sendGateUser_links _ _ _ _).1,
      (sendGateUser_links _ _ _ _).2, (enterPlayer_links s _ _).1, (enterPlayer_links s _ _).2,
      Game.ReachesUser]

theorem processLeaveGame_nonneg : 0 ≤ (processLeaveGame P s info).1 ↔ TakesLeaveGame P s info := by
  unfold processLeaveGame TakesLeaveGame
  apply found_nonneg <;> [intro hparse; intro roleId hparse]
  · simp only [hparse]
  simp only [hparse]
  cases hplayer : s.mgr.get info.userId.toInt with
  | none => simp
  | some obj => simp

theorem processSetRoleData_nonneg :
    0 ≤ (processSetRoleData P s info).1 ↔ TakesSetRoleData P s info := by
  unfold processSetRoleData TakesSetRoleData setRole
  apply found_nonneg <;> [intro hparse; intro d hparse]
  · simp only [hparse]
  simp only [hparse]
  apply fits_nonneg <;> intro hfits
  · simp only [hfits]
  simp only [hfits]
  exact answer_nonneg.trans (s.sendDB_nonneg _ _)

/-- A command is never refused, and neither is a text for a role that is not there. -/
theorem processChat_nonneg {config : GameConfig} {r : ℤ × Game} (h : processChat P config s info = some r) :
    0 ≤ r.1 ↔ TakesChat P s info := by
  have hneg : ¬(0 : ℤ) ≤ -1 := by decide
  unfold processChat at h
  unfold TakesChat
  by_cases hup : s.gateUp = false
  · rw [if_pos hup, Option.some.injEq] at h
    rw [← h, hup]
    exact ⟨fun h' => absurd h' hneg, fun h' => Bool.noConfusion h'.1⟩
  rw [if_neg hup] at h
  rw [Bool.not_eq_false] at hup
  apply Iff.trans _ (and_iff_right hup).symm
  apply found_nonneg <;> [intro hparse; intro request hparse]
  · simp only [hparse, Option.some.injEq] at h
    rw [← h]
  simp only [hparse] at h
  cases hcmd : GmManager.parseCommand request.content with
  | some results =>
      simp only [hcmd] at h
      apply iff_of_true _ (Or.inl rfl)
      cases hplayer : s.mgr.get info.userId.toInt with
      | none =>
          simp only [hplayer, Option.some.injEq] at h
          rw [← h]
      | some obj =>
          simp only [hplayer] at h
          obtain ⟨done, -, rfl⟩ := Option.map_eq_some_iff.1 h
          dsimp only
          split_ifs
          · exact Int.natCast_nonneg _
          · exact le_refl 0
  | none =>
      simp only [hcmd, Option.some.injEq] at h
      rw [← h, Option.isSome_none, Bool.false_eq_true, false_or]
      apply fits_nonneg <;> intro hfits
      · simp only [hfits]
      simp only [hfits]
      apply guard_nonneg.trans
      apply and_congr
      · rw [not_lt, Game.gateConnSendUser, send_nonneg]
        exact and_iff_right hup
      · have hmgr : (s.gateConnSendUser info.userId MsgId.s2cChatResponse
            (P.chatResponse.serialize request)).2.mgr = s.mgr := by
          unfold Game.gateConnSendUser
          split_ifs <;> rfl
        rw [hmgr]
        cases hrole : s.mgr.getByRoleId request.roleId with
        | none => simp
        | some obj =>
            simp only [Option.some.injEq, forall_eq']
            rw [← and_true (Codec.Fits _ _ _)]
            apply fits_nonneg <;> intro hnotify
            · simp only [hnotify]
            simp only [hnotify, iff_true]
            exact answer_nonneg.2 (Game.sendGatePlayer_nonneg _ obj _ _)

theorem handle_nonneg {config : GameConfig} {r : ℤ × Game} (h : handle P config s info = some r) :
    0 ≤ r.1 ↔ Takes P s info := by
  unfold handle processDefault at h
  unfold Takes
  split_ifs at h ⊢
  · rw [← Option.some.inj h]
    exact processConnectGateResponse_nonneg
  · rw [← Option.some.inj h]
    exact processGetRole_nonneg
  · rw [← Option.some.inj h]
    exact processCreateRole_nonneg
  · rw [← Option.some.inj h]
    exact processEnterGame_nonneg
  · rw [← Option.some.inj h]
    exact processLeaveGame_nonneg
  · exact processChat_nonneg h
  · rw [← Option.some.inj h]
    exact processSetRoleData_nonneg
  · rw [← Option.some.inj h]
    exact iff_of_true (Int.natCast_nonneg _) trivial

end ConnGateHandler

namespace DbGameHandler

open DBResCBFuncs

/-- The connection can send a message to the game server. -/
def Reaches (d : DB) (msgId : MsgId) (data : List Byte) : Prop :=
  d.gameUp = true ∧ sendTakes msgId data = true

theorem gameConnSend_nonneg (d : DB) (msgId : MsgId) (data : List Byte) :
    0 ≤ (d.gameConnSend msgId data).1 ↔ Reaches d msgId data := send_nonneg

theorem agentSend_nonneg (d : DB) (msgId : MsgId) (data : List Byte) :
    0 ≤ (d.agentSend msgId data).1 ↔ Reaches d msgId data := by
  have hneg : ¬(0 : ℤ) ≤ -1 := by decide
  rw [← gameConnSend_nonneg]
  unfold DB.agentSend
  dsimp only
  split_ifs with h
  · exact ⟨fun h' => absurd h' hneg, fun h' => absurd h (not_lt.2 h')⟩
  · exact ⟨fun _ => not_lt.1 h, fun _ => le_refl 0⟩

variable (P : Protocol) (d : DB)

/-- A connection without an agent, a game server with an id of its range that can be answered. -/
def TakesConnectDBRequest (info : JmyMsgInfo) : Prop :=
  d.hasAgent info.connId = false ∧ ∃ gameId, P.connectDBRequest.parse info.data = some gameId ∧
    (gameServerMinId ≤ gameId ∧ gameId ≤ gameServerMaxId) ∧
      P.connectDBResponse.Fits maxMsgSize () ∧
        Reaches d MsgId.ds2gsConnectDBResponse (P.connectDBResponse.serialize ())

/-- A role can be sent to the game server of the connection. -/
def SendsRole (response : MsgRoleResponse) (connId : ℤ) : Prop :=
  d.hasAgent connId = true ∧ P.ds2gsGetRoleResponse.Fits tmpSize response ∧
    Reaches d MsgId.ds2gsGetRoleResponse (P.ds2gsGetRoleResponse.serialize response)

/-- The account has a record that can be sent, or the database can be asked for it. -/
def TakesGetRole (selected : Bool) (info : JmyMsgInfo) : Prop :=
  ∃ account, P.gs2dsGetRoleRequest.parse info.data = some account ∧
    match d.table.getByKey2 account with
    | none => selected = true
    | some user => SendsRole P d ⟨(d.table.recs user).account, ⟨(d.table.recs user).roleId,
        (d.table.recs user).nickName, 0, (d.table.recs user).sex, 0, (d.table.recs user).level⟩⟩ info.connId

/-- The id of the next role. -/
def nextRoleId (time : ℕ) : BitVec 64 := (d.genUniqueRoleId (d.agent.getD 0) time).1

/-- The role that is made. -/
def newRole (time : ℕ) (request : MsgCreateRoleRequest) : MsgRoleResponse :=
  ⟨request.account, ⟨nextRoleId d time, request.nickName, request.race, request.sex, 0, 0⟩⟩

/-- The account has a record, or a new one can be made and sent. -/
def TakesCreateRole (time : ℕ) (info : JmyMsgInfo) : Prop :=
  d.gameUp = true ∧ ∃ request, P.gs2dsCreateRoleRequest.parse info.data = some request ∧
    ((d.table.getByKey2 request.account).isSome = true ∨
      ((d.table.getByKey (nextRoleId d time)).isSome = true ∨ d.table.keyRecordMap.find2 d.table.next = none) ∧
        P.ds2gsCreateRoleResponse.Fits maxMsgSize (newRole d time request) ∧
          sendTakes MsgId.ds2gsCreateRoleResponse
            (P.ds2gsCreateRoleResponse.serialize (newRole d time request)) = true)

/-- The answer to a change of role data. -/
def changedRole (request : MsgRoleData) : MsgRoleData :=
  ⟨0, ⟨0, [], 0, request.roleData.sex, 0, request.roleData.level⟩⟩

/-- The role has a record, and the answer can be sent. -/
def TakesSetRoleData (info : JmyMsgInfo) : Prop :=
  d.gameUp = true ∧ ∃ request, P.gs2dsSetRoleDataRequest.parse info.data = some request ∧
    ∃ p, d.table.getByKey request.roleId = some p ∧
      P.ds2gsSetRoleDataResponse.Fits maxMsgSize (changedRole request) ∧
        Reaches d MsgId.ds2gsSetRoleDataResponse (P.ds2gsSetRoleDataResponse.serialize (changedRole request))

/-- The role has a record, and the answer can be sent. -/
def TakesAddItem (info : JmyMsgInfo) : Prop :=
  d.gameUp = true ∧ ∃ request, P.addItemRequest.parse info.data = some request ∧
    ∃ p, d.table.getByKey request.roleId = some p ∧ P.addItemResponse.Fits maxMsgSize request ∧
      Reaches d MsgId.ds2gsAddItemResponse (P.addItemResponse.serialize request)

/-- The messages of the game server that the db server takes. One that it does not know is no error. -/
def Takes (selected : Bool) (time : ℕ) (info : JmyMsgInfo) : Prop :=
  if info.msgId = MsgId.gs2dsConnectDBRequest then TakesConnectDBRequest P d info
  else if info.msgId = MsgId.gs2dsGetRoleRequest then TakesGetRole P d selected info
  else if info.msgId = MsgId.gs2dsCreateRoleRequest then TakesCreateRole P d time info
  else if info.msgId = MsgId.gs2dsSetRoleDataRequest then TakesSetRoleData P d info
  else if info.msgId = MsgId.gs2dsAddItemRequest then TakesAddItem P d info
  else True

variable {P d} {info : JmyMsgInfo}

theorem processConnectDBRequest_nonneg :
    0 ≤ (processConnectDBRequest P d info).1 ↔ TakesConnectDBRequest P d info := by
  unfold processConnectDBRequest TakesConnectDBRequest
  apply guard_nonneg.trans
  apply and_congr (by simp)
  apply found_nonneg <;> [intro hparse; intro gameId hparse]
  · simp only [hparse]
  simp only [hparse]
  apply guard_nonneg.trans
  unfold DB.newAgent
  by_cases hrange : gameId < gameServerMinId ∨ gameServerMaxId < gameId
  · have hout : ¬(gameServerMinId ≤ gameId ∧ gameId ≤ gameServerMaxId) := by omega
    simp only [if_pos hrange]
    exact ⟨fun h => absurd trivial h.1, fun h => absurd h.1 hout⟩
  · have hin : gameServerMinId ≤ gameId ∧ gameId ≤ gameServerMaxId := by omega
    simp only [if_neg hrange]
    apply and_congr (by simp [hin])
    apply fits_nonneg <;> intro hfits
    · simp only [hfits]
    simp only [hfits]
    exact answer_nonneg.trans (agentSend_nonneg _ _ _)

theorem sendGetRoleResponse_nonneg (d : DB) (user : TPlayer) (connId : ℤ) :
    0 ≤ (sendGetRoleResponse P d user connId).1 ↔
      SendsRole P d ⟨user.account, ⟨user.roleId, user.nickName, 0, user.sex, 0, user.level⟩⟩ connId := by
  unfold sendGetRoleResponse sendRole SendsRole
  apply guard_nonneg.trans
  apply and_congr (by simp)
  apply fits_nonneg <;> intro hfits
  · simp only [hfits]
  simp only [hfits]
  exact (answer_nonneg (n := 0)).trans (agentSend_nonneg _ _ _)

theorem processGetRole_nonneg {selected : Bool} :
    0 ≤ (processGetRole P selected d info).1 ↔ TakesGetRole P d selected info := by
  unfold processGetRole TakesGetRole
  apply found_nonneg <;> [intro hparse; intro account hparse]
  · simp only [hparse]
  simp only [hparse]
  cases hrec : d.table.getByKey2 account with
  | none => cases selected <;> simp
  | some user => exact answer_nonneg.trans (sendGetRoleResponse_nonneg d _ _)

/-- The record of a new role is found unless its object is there under another role id. -/
theorem getNewByKeyAndKey2_found (t : PlayerTable) (roleId : BitVec 64) (account : Str) :
    ((t.getNewByKeyAndKey2 roleId account).2.getByKey roleId).isSome = true ↔
      (t.getByKey roleId).isSome = true ∨ t.keyRecordMap.find2 t.next = none := by
  unfold PlayerTable.getNewByKeyAndKey2 PlayerTable.getByKey
  dsimp only
  by_cases hkey : t.keyRecordMap.find1 roleId = none
  · by_cases hobj : t.keyRecordMap.find2 t.next = none
    · rw [(BiMap.insert_of_absent hkey hobj).2, if_pos rfl]
      simp [hobj]
    · rw [BiMap.insert_of_present (Or.inr hobj)]
      simp [hobj]
  · rw [BiMap.insert_of_present (Or.inl hkey)]
    simp [Option.isSome_iff_ne_none, hkey]

theorem processCreateRole_nonneg {time : ℕ} :
    0 ≤ (processCreateRole P time d info).1 ↔ TakesCreateRole P d time info := by
  unfold processCreateRole TakesCreateRole
  apply guard_nonneg.trans
  rw [Bool.not_eq_false]
  apply and_congr_right
  intro hup
  apply found_nonneg <;> [intro hparse; intro request hparse]
  · simp only [hparse]
  simp only [hparse]
  cases hrec : d.table.getByKey2 request.account with
  | some r => simp
  | none =>
      have htable : (d.genUniqueRoleId (d.agent.getD 0) time).2.table = d.table := rfl
      have hcommit : ∀ (t : PlayerTable) (r : ℕ), (t.commitInsertRequest r).1 = true := by
        intro t r
        unfold PlayerTable.commitInsertRequest
        split <;> rfl
      rw [Option.isSome_none, or_iff_right Bool.false_ne_true, ← getNewByKeyAndKey2_found _ _ request.account,
        Option.isSome_iff_exists, ← exists_and_right]
      unfold newRole nextRoleId
      simp only [htable, hcommit, Bool.true_eq_false, if_false]
      apply found_nonneg <;> [intro hnew; intro r hnew]
      · simp only [hnew]
      simp only [hnew]
      apply fits_nonneg <;> intro hfits
      · simp only [hfits]
      simp only [hfits]
      apply answer_nonneg.trans
      apply (gameConnSend_nonneg _ _ _).trans
      exact and_iff_right hup

theorem processSetRoleData_nonneg :
    0 ≤ (processSetRoleData P d info).1 ↔ TakesSetRoleData P d info := by
  unfold processSetRoleData TakesSetRoleData changedRole
  apply guard_nonneg.trans
  apply and_congr (by simp)
  apply found_nonneg <;> [intro hparse; intro request hparse]
  · simp only [hparse]
  simp only [hparse]
  apply found_nonneg <;> [intro hrec; intro p hrec]
  · simp only [hrec]
  simp only [hrec]
  apply fits_nonneg <;> intro hfits
  · simp only [hfits]
  simp only [hfits]
  exact answer_nonneg.trans (gameConnSend_nonneg _ _ _)

theorem processAddItem_nonneg : 0 ≤ (processAddItem P d info).1 ↔ TakesAddItem P d info := by
  unfold processAddItem TakesAddItem
  apply guard_nonneg.trans
  apply and_congr (by simp)
  apply found_nonneg <;> [intro hparse; intro request hparse]
  · simp only [hparse]
  simp only [hparse]
  apply found_nonneg <;> [intro hrec; intro p hrec]
  · simp only [hrec]
  simp only [hrec]
  apply fits_nonneg <;> intro hfits
  · simp only [hfits]
  simp only [hfits]
  exact answer_nonneg.trans (gameConnSend_nonneg _ _ _)

theorem handle_nonneg {selected : Bool} {time : ℕ} :
    0 ≤ (handle P selected time d info).1 ↔ Takes P d selected time info := by
  unfold handle processDefault Takes
  split_ifs
  · exact processConnectDBRequest_nonneg
  · exact processGetRole_nonneg
  · exact processCreateRole_nonneg
  · exact processSetRoleData_nonneg
  · exact processAddItem_nonneg
  · exact iff_of_true (Int.natCast_nonneg _) trivial

end DbGameHandler

end JmyGame
