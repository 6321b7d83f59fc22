import JmyGame.GameHandlers

/-! What the handlers of the game server put on its links: messages for users and role responses for the gate, and
requests for the db server. -/

namespace JmyGame

open CArith

/-- The packets of a queue that are behind those of another one meet a condition. -/
def Grows (F : Packet → Prop) (queue queue' : List Packet) : Prop :=
  ∃ new, queue' = queue ++ new ∧ ∀ packet ∈ new, F packet

section queues

variable {F : Packet → Prop} {queue queue' queue'' : List Packet}

theorem Grows.of_eq (h : queue' = queue) : Grows F queue queue' :=
  ⟨[], by rw [h, List.append_nil], fun _ hmem => absurd hmem List.not_mem_nil⟩

theorem Grows.trans (h : Grows F queue queue') (h' : Grows F queue' queue'') : Grows F queue queue'' := by
  obtain ⟨new, rfl, hF⟩ := h
  obtain ⟨new', rfl, hF'⟩ := h'
  refine ⟨new ++ new', List.append_assoc _ _ _, fun packet hmem => ?_⟩
  exact (List.mem_append.1 hmem).elim (hF packet) (hF' packet)

theorem Grows.one {packet : Packet} (h : F packet) : Grows F queue (queue ++ [packet]) :=
  ⟨[packet], rfl, fun _ hmem => List.mem_singleton.1 hmem ▸ h⟩

theorem Grows.forall {G : Packet → Prop} (h : Grows F queue queue') (hFG : ∀ packet, F packet → G packet)
    (hqueue : ∀ packet ∈ queue, G packet) : ∀ packet ∈ queue', G packet := by
  obtain ⟨new, rfl, hF⟩ := h
  intro packet hmem
  exact (List.mem_append.1 hmem).elim (hqueue packet) fun hnew => hFG packet (hF packet hnew)

end queues

/-- The messages of the game server to users. -/
def userMsgIds : List MsgId :=
  [MsgId.s2cEnterGameResponse, MsgId.s2cEnterGameCompleteNotify, MsgId.s2cChatResponse, MsgId.s2cChatNotify]

/-- What the game server sends for messages of the gate meets the predicates: `F` on the link to the gate, and `G` on
the link to the db server. -/
structure Says (P : Protocol) (F G : Packet → Prop) : Prop where
  user : ∀ msgId ∈ userMsgIds, ∀ userId data, sendUserTakes userId msgId (short data) = true →
    F ⟨some userId, msgId, short data⟩
  getRole : ∀ bs account tmp, P.gt2gsGetRoleRequest.parse bs = some account →
    P.gs2dsGetRoleRequest.serializeToArray maxMsgSize account = some tmp →
      G ⟨none, MsgId.gs2dsGetRoleRequest, short tmp⟩
  createRole : ∀ bs request tmp, P.gt2gsCreateRoleRequest.parse bs = some request →
    P.gs2dsCreateRoleRequest.serializeToArray maxMsgSize request = some tmp →
      G ⟨none, MsgId.gs2dsCreateRoleRequest, short tmp⟩
  setRoleData : ∀ bs d roleId tmp, P.setRoleDataRequest.parse bs = some d →
    P.gs2dsSetRoleDataRequest.serializeToArray maxMsgSize ⟨roleId, ⟨0, [], d.race, d.sex, d.hp, d.level⟩⟩ = some tmp →
      G ⟨none, MsgId.gs2dsSetRoleDataRequest, short tmp⟩
  addItem : ∀ item tmp, P.addItemRequest.serializeToArray 128 item = some tmp →
    G ⟨none, MsgId.gs2dsAddItemRequest, short tmp⟩
  rmItem : ∀ data, G ⟨none, MsgId.gs2dsRmItemRequest, data⟩

namespace Game

variable {P : Protocol} {F G : Packet → Prop} {s s' s'' : Game}

/-- The links are up or not as before, the gate stays known, and the db server becomes known only while its link
is up. -/
structure StaysLinked (s s' : Game) : Prop where
  gateUp : s'.gateUp = s.gateUp
  gateConn : s.gateConn = true → s'.gateConn = true
  dbUp : s'.dbUp = s.dbUp
  dbConn : s'.dbConn = true → s.dbConn = true ∨ s'.dbUp = true

/-- What goes to the gate and to the db server meets the predicates. -/
structure Speaks (F G : Packet → Prop) (s s' : Game) : Prop where
  sent : Grows F s.toGate s'.toGate
  asked : Grows G s.toDB s'.toDB
  link : s.StaysLinked s'

theorem Speaks.of_eq (hsent : s'.toGate = s.toGate) (hasked : s'.toDB = s.toDB) (hlink : s.StaysLinked s') :
    s.Speaks F G s' := ⟨.of_eq hsent, .of_eq hasked, hlink⟩

theorem Speaks.refl : s.Speaks F G s := .of_eq rfl rfl ⟨rfl, id, rfl, Or.inl⟩

theorem Speaks.setMgr (mgr : PlayerManager) : s.Speaks F G (s.setMgr mgr) := .of_eq rfl rfl ⟨rfl, id, rfl, Or.inl⟩

theorem Speaks.trans (h : s.Speaks F G s') (h' : s'.Speaks F G s'') : s.Speaks F G s'' where
  sent := h.sent.trans h'.sent
  asked := h.asked.trans h'.asked
  link := ⟨h'.link.gateUp.trans h.link.gateUp, fun hconn => h'.link.gateConn (h.link.gateConn hconn),
    h'.link.dbUp.trans h.link.dbUp, fun hconn => (h'.link.dbConn hconn).elim
      (fun hconn' => (h.link.dbConn hconn').imp id h'.link.dbUp.trans) Or.inr⟩

theorem Speaks.connSend {msgId : MsgId} {data : List Byte}
    (hF : sendTakes msgId data = true → F ⟨none, msgId, short data⟩) : s.Speaks F G (s.gateConnSend msgId data).2 := by
  unfold gateConnSend
  split_ifs with hsend
  · exact ⟨.one (hF hsend.2), .of_eq rfl, rfl, id, rfl, Or.inl⟩
  · exact .refl

theorem Speaks.send {msgId : MsgId} {data : List Byte}
    (hF : sendTakes msgId (short data) = true → F ⟨none, msgId, short data⟩) :
    s.Speaks F G (s.sendGate msgId data).2 := by
  unfold sendGate
  split_ifs
  · refine connSend fun htakes => ?_
    rw [short_short]
    exact hF htakes
  · exact .refl

theorem Speaks.connSendUser {userId : BitVec 32} {msgId : MsgId} {data : List Byte}
    (hF : sendUserTakes userId msgId (short data) = true → F ⟨some userId, msgId, short data⟩) :
    s.Speaks F G (s.gateConnSendUser userId msgId data).2 := by
  unfold gateConnSendUser
  split_ifs with hsend
  · exact ⟨.one (hF hsend.2), .of_eq rfl, rfl, id, rfl, Or.inl⟩
  · exact .refl

theorem Speaks.sendUser {userId : BitVec 32} {msgId : MsgId} {data : List Byte}
    (hF : sendUserTakes userId msgId (short data) = true → F ⟨some userId, msgId, short data⟩) :
    s.Speaks F G (s.sendGateUser userId msgId data).2 := by
  unfold sendGateUser
  split_ifs
  · exact connSendUser hF
  · exact .refl

theorem Speaks.sendPlayer {msgId : MsgId} {data : List Byte}
    (hF : ∀ userId, sendUserTakes userId msgId (short data) = true → F ⟨some userId, msgId, short data⟩) (obj : ℕ) :
    s.Speaks F G (s.sendGatePlayer obj msgId data).2 := by
  unfold sendGatePlayer
  dsimp only
  split
  · exact .refl
  · exact .sendUser (hF _)

theorem Speaks.sendDB {msgId : MsgId} {data : List Byte} (hG : G ⟨none, msgId, short data⟩) :
    s.Speaks F G (s.sendDB msgId data).2 := by
  unfold Game.sendDB dbConnSend
  split_ifs
  · refine ⟨.of_eq rfl, .one ?_, rfl, id, rfl, Or.inl⟩
    rw [short_short]
    exact hG
  · exact .refl
  · exact .refl

/-- A handler whose last step is a send answers with the server behind the send in any case. -/
theorem Speaks.answer {c : Prop} [Decidable c] {a b : ℤ} (h : s.Speaks F G s') :
    s.Speaks F G (if c then (a, s') else (b, s')).2 := by
  split_ifs
  · exact h
  · exact h

end Game

namespace GmManager

variable {P : Protocol} {config : GameConfig} {F G : Packet → Prop} {s : Game} {roleId : BitVec 64}

theorem sendItem_speaks {obj : ℕ} {msgId : MsgId} {codec : Codec MsgItem} {item : MsgItem} {items : Option ItemMgr}
    (hG : ∀ tmp, codec.serializeToArray 128 item = some tmp → G ⟨none, msgId, short tmp⟩) :
    s.Speaks F G (sendItem s obj msgId codec item items).2 := by
  unfold sendItem
  split
  · exact .refl
  dsimp only
  split
  · exact .setMgr _
  · rename_i tmp htmp
    exact .answer ((Game.Speaks.setMgr _).trans (.sendDB (hG tmp htmp)))

/-- A command says nothing to the gate but what it says to the db server. -/
theorem executeCommand_speaks (hsaid : Says P F G) {results : List Str} {r : Bool × Game}
    (h : executeCommand P config s roleId results = some r) : s.Speaks F G r.2 := by
  unfold executeCommand at h
  split at h
  · obtain rfl := Option.some.inj h
    exact .refl
  · obtain ⟨r', hr', rfl⟩ := Option.map_eq_some_iff.1 h
    unfold gmAddItem at hr'
    split at hr'
    · obtain rfl := Option.some.inj hr'
      dsimp only
      split
      · exact .refl
      · exact sendItem_speaks fun tmp => hsaid.addItem _ tmp
    · cases hr'
  · obtain ⟨r', hr', rfl⟩ := Option.map_eq_some_iff.1 h
    unfold gmRmItem at hr'
    split at hr'
    · obtain rfl := Option.some.inj hr'
      dsimp only
      split
      · exact .refl
      · exact sendItem_speaks fun _ _ => hsaid.rmItem _
    · cases hr'
  · obtain ⟨r', hr', rfl⟩ := Option.map_eq_some_iff.1 h
    unfold gmLevelup at hr'
    split at hr'
    · cases hr'
    · obtain rfl := Option.some.inj hr'
      dsimp only
      split
      · exact .refl
      · exact .setMgr _
  · obtain rfl := Option.some.inj h
    exact .refl

end GmManager

namespace ConnGateHandler

variable {P : Protocol} {config : GameConfig} {F G : Packet → Prop} {s : Game} {info : JmyMsgInfo}

theorem processChat_speaks (hsaid : Says P F G) {r : ℤ × Game} (h : processChat P config s info = some r) :
    s.Speaks F G r.2 := by
  unfold processChat at h
  split_ifs at h
  · obtain rfl := Option.some.inj h
    exact .refl
  split at h
  · obtain rfl := Option.some.inj h
    exact .refl
  rename_i request _
  split at h
  · split at h
    · obtain rfl := Option.some.inj h
      exact .refl
    · obtain ⟨r', hr', rfl⟩ := Option.map_eq_some_iff.1 h
      exact GmManager.executeCommand_speaks hsaid hr'
  · obtain rfl := Option.some.inj h
    split
    · exact .refl
    rename_i tmp _
    have hsent : s.Speaks F G (s.gateConnSendUser info.userId MsgId.s2cChatResponse tmp).2 :=
      .connSendUser (hsaid.user _ (by decide) _ _)
    dsimp only
    split_ifs
    · exact hsent
    split
    · exact hsent
    split
    · exact hsent
    · exact .answer (hsent.trans (.sendPlayer (fun _ => hsaid.user _ (by decide) _ _) _))

/-- The messages of the gate. -/
theorem handle_speaks (hsaid : Says P F G) {r : ℤ × Game} (h : handle P config s info = some r) :
    s.Speaks F G r.2 := by
  unfold handle at h
  split_ifs at h
  · obtain rfl := Option.some.inj h
    unfold processConnectGateResponse
    split_ifs
    · exact .refl
    split
    · exact .refl
    dsimp only
    split_ifs
    · exact .setMgr _
    · exact .of_eq rfl rfl ⟨rfl, fun _ => rfl, rfl, Or.inl⟩
  · obtain rfl := Option.some.inj h
    unfold processGetRole
    split
    · exact .refl
    rename_i account hparse
    split
    · exact .refl
    · rename_i tmp htmp
      exact .answer (.sendDB (hsaid.getRole _ account tmp hparse htmp))
  · obtain rfl := Option.some.inj h
    unfold processCreateRole
    split
    · exact .refl
    rename_i request hparse
    split
    · exact .refl
    · rename_i tmp htmp
      exact .answer (.sendDB (hsaid.createRole _ request tmp hparse htmp))
  · obtain rfl := Option.some.inj h
    unfold processEnterGame
    split
    · exact .refl
    split_ifs
    · exact .refl
    rename_i roleId _ _
    have henter : s.Speaks F G (enterPlayer s info.userId.toInt roleId) := by
      unfold enterPlayer
      split
      · exact .setMgr _
      · exact .refl
    dsimp only
    split
    · exact henter
    rename_i tmp _
    have hsent : s.Speaks F G ((enterPlayer s info.userId.toInt roleId).sendGateUser info.userId
        MsgId.s2cEnterGameResponse tmp).2 := henter.trans (.sendUser (hsaid.user _ (by decide) _ _))
    have hcomplete : s.Speaks F G (((enterPlayer s info.userId.toInt roleId).sendGateUser info.userId
        MsgId.s2cEnterGameResponse tmp).2.sendGateUser info.userId MsgId.s2cEnterGameCompleteNotify tmp).2 :=
      hsent.trans (.sendUser (hsaid.user _ (by decide) _ _))
    split_ifs
    · exact hsent
    · exact hcomplete
    · exact hcomplete
  · obtain rfl := Option.some.inj h
    unfold processLeaveGame
    split
    · exact .refl
    split
    · exact .refl
    · exact .setMgr _
  · unfold processDefault at h
    split_ifs at h
    · exact processChat_speaks hsaid h
    · obtain rfl := Option.some.inj h
      unfold processSetRoleData
      split
      · exact .refl
      rename_i d hparse
      split
      · exact .refl
      · rename_i tmp htmp
        exact .answer (.sendDB (hsaid.setRoleData _ d _ tmp hparse htmp))
    · obtain rfl := Option.some.inj h
      exact .refl

/-- The game server introduces itself. -/
theorem onConnect_speaks (hF : ∀ tmp, P.connectGateRequest.serializeToArray maxMsgSize config.id = some tmp →
    F ⟨none, MsgId.gs2gtConnectGateRequest, short tmp⟩) : s.Speaks F G (onConnect P config s).2 := by
  unfold onConnect
  split
  · exact .refl
  · rename_i tmp htmp
    exact .answer (.connSend fun _ => hF tmp htmp)

theorem closeGateOnError_queues (r : ℤ × Game) :
    (Game.closeGateOnError r).toGate = r.2.toGate ∧ (Game.closeGateOnError r).toDB = r.2.toDB := by
  unfold Game.closeGateOnError
  split_ifs <;> exact ⟨rfl, rfl⟩

end ConnGateHandler

namespace ConnDBHandler

variable {P : Protocol} {config : GameConfig} {F G : Packet → Prop} {s : Game} {info : JmyMsgInfo}

/-- The response that goes on to the gate. -/
def passed (response : MsgRoleResponse) : MsgRoleResponse :=
  ⟨response.account, ⟨response.roleData.roleId, response.roleData.nickName, response.roleData.race,
    response.roleData.sex, 0, 0⟩⟩

theorem passRole_speaks {parser codec : Codec MsgRoleResponse} {msgId : MsgId}
    (hF : ∀ response tmp, parser.parse info.data = some response →
      codec.serializeToArray maxMsgSize (passed response) = some tmp → sendTakes msgId (short tmp) = true →
        F ⟨none, msgId, short tmp⟩) : s.Speaks F G (passRole parser codec msgId s info).2 := by
  unfold passRole
  split
  · exact .refl
  rename_i response hparse
  dsimp only
  split
  · exact .refl
  · rename_i tmp htmp
    exact .answer (.send (hF response tmp hparse htmp))

/-- The messages of the db server. -/
theorem handle_speaks
    (hF : ∀ parser codec msgId, info.msgId = MsgId.ds2gsGetRoleResponse ∧ parser = P.ds2gsGetRoleResponse ∧
        msgId = MsgId.gs2gtGetRoleResponse ∧ codec = P.gs2gtGetRoleResponse ∨
      info.msgId = MsgId.ds2gsCreateRoleResponse ∧ parser = P.ds2gsCreateRoleResponse ∧
        msgId = MsgId.gs2gtCreateRoleResponse ∧ codec = P.gs2gtCreateRoleResponse →
      ∀ response tmp, parser.parse info.data = some response →
        codec.serializeToArray maxMsgSize (passed response) = some tmp → sendTakes msgId (short tmp) = true →
          F ⟨none, msgId, short tmp⟩) : s.Speaks F G (handle P s info).2 := by
  unfold handle
  split_ifs with _ hget hcreate
  · unfold processConnectDBResponse
    split
    · exact .refl
    · split_ifs with hup
      · exact .refl
      · exact .of_eq rfl rfl ⟨rfl, id, rfl, fun _ => Or.inr (Bool.eq_true_of_not_eq_false hup)⟩
  · exact passRole_speaks (hF _ _ _ (Or.inl ⟨hget, rfl, rfl, rfl⟩))
  · exact passRole_speaks (hF _ _ _ (Or.inr ⟨hcreate, rfl, rfl, rfl⟩))
  · exact .refl

theorem closeDBOnError_queues (r : ℤ × Game) :
    (Game.closeDBOnError r).toGate = r.2.toGate ∧ (Game.closeDBOnError r).toDB = r.2.toDB := by
  unfold Game.closeDBOnError
  split_ifs <;> exact ⟨rfl, rfl⟩

end ConnDBHandler

end JmyGame
