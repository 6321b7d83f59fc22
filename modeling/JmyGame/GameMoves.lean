import JmyGame.GameHandlers

/-! What the handlers of the game server can do to its players: the messages of the gate that introduce
it, enter the game and leave it change them, and no other message does. -/

namespace JmyGame

open CArith

section sends

variable (s : Game) (msgId : MsgId) (data : List Byte)

@[simp] theorem gateConnSend_mgr : (s.gateConnSend msgId data).2.mgr = s.mgr := by
  unfold Game.gateConnSend
  split_ifs <;> rfl

@[simp] theorem gateConnSend_gateUp : (s.gateConnSend msgId data).2.gateUp = s.gateUp := by
  unfold Game.gateConnSend
  split_ifs <;> rfl

@[simp] theorem sendGate_gateUp : (s.sendGate msgId data).2.gateUp = s.gateUp := by
  unfold Game.sendGate
  split_ifs
  · exact gateConnSend_gateUp s msgId _
  · rfl

@[simp] theorem dbConnSend_gateUp : (s.dbConnSend msgId data).2.gateUp = s.gateUp := by
  unfold Game.dbConnSend
  split_ifs <;> rfl

@[simp] theorem gateConnSendUser_mgr (userId : BitVec 32) :
    (s.gateConnSendUser userId msgId data).2.mgr = s.mgr := by
  unfold Game.gateConnSendUser
  split_ifs <;> rfl

@[simp] theorem sendGate_mgr : (s.sendGate msgId data).2.mgr = s.mgr := by
  unfold Game.sendGate
  split_ifs
  · exact gateConnSend_mgr s msgId _
  · rfl

@[simp] theorem sendGateUser_mgr (userId : BitVec 32) : (s.sendGateUser userId msgId data).2.mgr = s.mgr := by
  unfold Game.sendGateUser
  split_ifs
  · exact gateConnSendUser_mgr s msgId data userId
  · rfl

@[simp] theorem dbConnSend_mgr : (s.dbConnSend msgId data).2.mgr = s.mgr := by
  unfold Game.dbConnSend
  split_ifs <;> rfl

@[simp] theorem sendDB_mgr : (s.sendDB msgId data).2.mgr = s.mgr := by
  unfold Game.sendDB
  split_ifs
  · exact dbConnSend_mgr s msgId _
  · rfl

@[simp] theorem sendGatePlayer_mgr (obj : ℕ) : (s.sendGatePlayer obj msgId data).2.mgr = s.mgr := by
  unfold Game.sendGatePlayer
  dsimp only
  split
  · rfl
  · exact sendGateUser_mgr s msgId data _

end sends

section handlers

variable {P : Protocol} {config : GameConfig} {s : Game} {info : JmyMsgInfo}

theorem sendItem_samePlayers {obj : ℕ} {msgId : MsgId} {codec : Codec MsgItem} {item : MsgItem}
    {items : Option ItemMgr} :
    SamePlayers s.mgr (GmManager.sendItem s obj msgId codec item items).2.mgr := by
  unfold GmManager.sendItem
  split
  · exact SamePlayers.refl _
  rename_i items
  have hset := SamePlayers.modify s.mgr obj (f := fun p => { p with items := items }) rfl
  dsimp only
  split
  · exact hset
  split
  · rw [sendDB_mgr]
    exact hset
  · rw [sendDB_mgr]
    exact hset

theorem executeCommand_samePlayers {roleId : BitVec 64} {results : List Str} {r : Bool × Game}
    (h : GmManager.executeCommand P config s roleId results = some r) : SamePlayers s.mgr r.2.mgr := by
  unfold GmManager.executeCommand at h
  split at h
  · cases h
    exact SamePlayers.refl _
  · obtain ⟨r', hr', rfl⟩ := Option.map_eq_some_iff.1 h
    unfold GmManager.gmAddItem at hr'
    split at hr'
    · cases hr'
      split
      · exact SamePlayers.refl _
      · exact sendItem_samePlayers
    · cases hr'
  · obtain ⟨r', hr', rfl⟩ := Option.map_eq_some_iff.1 h
    unfold GmManager.gmRmItem at hr'
    split at hr'
    · cases hr'
      split
      · exact SamePlayers.refl _
      · exact sendItem_samePlayers
    · cases hr'
  · obtain ⟨r', hr', rfl⟩ := Option.map_eq_some_iff.1 h
    unfold GmManager.gmLevelup at hr'
    split at hr'
    · cases hr'
    · cases hr'
      split
      · exact SamePlayers.refl _
      · rename_i obj _
        exact SamePlayers.modify s.mgr obj (f := fun p => { p with level := _ }) rfl
  · cases h
    exact SamePlayers.refl _

theorem processChat_samePlayers {r : ℤ × Game} (h : ConnGateHandler.processChat P config s info = some r) :
    SamePlayers s.mgr r.2.mgr := by
  unfold ConnGateHandler.processChat at h
  split at h
  · cases h
    exact SamePlayers.refl _
  split at h
  · cases h
    exact SamePlayers.refl _
  split at h
  · split at h
    · cases h
      exact SamePlayers.refl _
    · obtain ⟨r', hr', rfl⟩ := Option.map_eq_some_iff.1 h
      exact executeCommand_samePlayers hr'
  · cases h
    split
    · exact SamePlayers.refl _
    dsimp only
    split
    · rw [gateConnSendUser_mgr]
      exact SamePlayers.refl _
    split
    · rw [gateConnSendUser_mgr]
      exact SamePlayers.refl _
    split
    · rw [gateConnSendUser_mgr]
      exact SamePlayers.refl _
    split
    · rw [sendGatePlayer_mgr, gateConnSendUser_mgr]
      exact SamePlayers.refl _
    · rw [sendGatePlayer_mgr, gateConnSendUser_mgr]
      exact SamePlayers.refl _

/-- `processConnectGateResponse` initialises the players with the response, or it fails. -/
theorem processConnectGateResponse_mgr (P : Protocol) (s : Game) (info : JmyMsgInfo) :
    (ConnGateHandler.processConnectGateResponse P s info).2.mgr = s.mgr ∧
        (ConnGateHandler.processConnectGateResponse P s info).1 < 0 ∨
      ∃ response, P.connectGateResponse.parse info.data = some response ∧
        (s.mgr.init response.startUserId response.maxUserCount).1 = true ∧
        (ConnGateHandler.processConnectGateResponse P s info).2.mgr =
          (s.mgr.init response.startUserId response.maxUserCount).2 := by
  unfold ConnGateHandler.processConnectGateResponse
  split
  · exact Or.inl ⟨rfl, Int.negSucc_lt_zero 0⟩
  split
  · exact Or.inl ⟨rfl, Int.negSucc_lt_zero 0⟩
  rename_i response hparse
  dsimp only
  split
  · rename_i hfail
    refine Or.inl ⟨?_, Int.negSucc_lt_zero 0⟩
    unfold PlayerManager.init at hfail ⊢
    split_ifs at hfail ⊢
    rfl
  · rename_i hmade
    exact Or.inr ⟨response, hparse, by simpa using hmade, rfl⟩

/-- `processEnterGame` gives the user a player when the request is well formed. -/
theorem processEnterGame_mgr {roleId : BitVec 64} (hparse : P.enterGameRequest.parse info.data = some roleId)
    (huser : 0 < info.userId.toInt) :
    (ConnGateHandler.processEnterGame P s info).2.mgr =
      (ConnGateHandler.enterPlayer s info.userId.toInt roleId).mgr := by
  unfold ConnGateHandler.processEnterGame
  rw [hparse]
  dsimp only
  rw [if_neg (not_le.2 huser)]
  split
  · rfl
  split
  · exact sendGateUser_mgr _ _ _ _
  split
  · rw [sendGateUser_mgr, sendGateUser_mgr]
  · rw [sendGateUser_mgr, sendGateUser_mgr]

/-- `processEnterGame` adds a player for its user, or leaves the players alone. -/
theorem processEnterGame_cases (P : Protocol) (s : Game) (info : JmyMsgInfo) :
    (ConnGateHandler.processEnterGame P s info).2.mgr = s.mgr ∨
      ∃ roleId, P.enterGameRequest.parse info.data = some roleId ∧
        (ConnGateHandler.processEnterGame P s info).2.mgr = s.mgr.malloc info.userId.toInt roleId := by
  cases hparse : P.enterGameRequest.parse info.data with
  | none =>
      left
      rw [ConnGateHandler.processEnterGame, hparse]
  | some roleId =>
      by_cases huser : 0 < info.userId.toInt
      · rw [processEnterGame_mgr hparse huser, ConnGateHandler.enterPlayer]
        split
        · exact Or.inr ⟨roleId, rfl, rfl⟩
        · exact Or.inl rfl
      · left
        rw [ConnGateHandler.processEnterGame, hparse]
        dsimp only
        rw [if_pos (not_lt.1 huser)]

/-- `processLeaveGame` frees by the role id of the request, or nothing. -/
theorem processLeaveGame_mgr (P : Protocol) (s : Game) (info : JmyMsgInfo) :
    (ConnGateHandler.processLeaveGame P s info).2.mgr = s.mgr ∨
      ∃ roleId, P.leaveGameRequest.parse info.data = some roleId ∧
        (ConnGateHandler.processLeaveGame P s info).2.mgr =
          (s.mgr.free (roleId.truncate 32 : BitVec 32).toInt).2 := by
  unfold ConnGateHandler.processLeaveGame
  split
  · exact Or.inl rfl
  rename_i roleId hparse
  split
  · exact Or.inl rfl
  · exact Or.inr ⟨roleId, hparse, rfl⟩

theorem handle_connectGateResponse (h : info.msgId = MsgId.gt2gsConnectGateResponse) :
    ConnGateHandler.handle P config s info = some (ConnGateHandler.processConnectGateResponse P s info) := by
  rw [ConnGateHandler.handle, if_pos h]

theorem handle_enterGame (h : info.msgId = MsgId.gt2gsEnterGameRequest) :
    ConnGateHandler.handle P config s info = some (ConnGateHandler.processEnterGame P s info) := by
  rw [ConnGateHandler.handle, h, if_neg (by decide), if_neg (by decide), if_neg (by decide), if_pos rfl]

theorem handle_leaveGame (h : info.msgId = MsgId.gt2gsLeaveGameRequest) :
    ConnGateHandler.handle P config s info = some (ConnGateHandler.processLeaveGame P s info) := by
  rw [ConnGateHandler.handle, h, if_neg (by decide), if_neg (by decide), if_neg (by decide),
    if_neg (by decide), if_pos rfl]

/-- The other messages of the gate leave the players alone. -/
theorem handle_samePlayers {r : ℤ × Game} (hconnect : info.msgId ≠ MsgId.gt2gsConnectGateResponse)
    (henter : info.msgId ≠ MsgId.gt2gsEnterGameRequest) (hleave : info.msgId ≠ MsgId.gt2gsLeaveGameRequest)
    (h : ConnGateHandler.handle P config s info = some r) : SamePlayers s.mgr r.2.mgr := by
  have hsame : ∀ {m : PlayerManager}, m = s.mgr → SamePlayers s.mgr m := fun h => h ▸ SamePlayers.refl _
  unfold ConnGateHandler.handle at h
  rw [if_neg hconnect, if_neg henter, if_neg hleave] at h
  split_ifs at h
  · cases h
    apply hsame
    unfold ConnGateHandler.processGetRole
    split
    · rfl
    split
    · rfl
    dsimp only
    split
    · exact sendDB_mgr _ _ _
    · exact sendDB_mgr _ _ _
  · cases h
    apply hsame
    unfold ConnGateHandler.processCreateRole
    split
    · rfl
    split
    · rfl
    dsimp only
    split
    · exact sendDB_mgr _ _ _
    · exact sendDB_mgr _ _ _
  · unfold ConnGateHandler.processDefault at h
    split_ifs at h
    · exact processChat_samePlayers h
    · cases h
      apply hsame
      unfold ConnGateHandler.processSetRoleData
      split
      · rfl
      split
      · rfl
      dsimp only
      split
      · exact sendDB_mgr _ _ _
      · exact sendDB_mgr _ _ _
    · cases h
      exact SamePlayers.refl _

/-- The messages of the db server leave the players and the link to the gate alone. -/
theorem handleDB_mgr (P : Protocol) (s : Game) (info : JmyMsgInfo) :
    (ConnDBHandler.handle P s info).2.mgr = s.mgr ∧ (ConnDBHandler.handle P s info).2.gateUp = s.gateUp := by
  have hpass : ∀ parser codec msgId, (ConnDBHandler.passRole parser codec msgId s info).2.mgr = s.mgr ∧
      (ConnDBHandler.passRole parser codec msgId s info).2.gateUp = s.gateUp := by
    intro parser codec msgId
    unfold ConnDBHandler.passRole
    split
    · exact ⟨rfl, rfl⟩
    dsimp only
    split
    · exact ⟨rfl, rfl⟩
    split
    · exact ⟨sendGate_mgr _ _ _, sendGate_gateUp _ _ _⟩
    · exact ⟨sendGate_mgr _ _ _, sendGate_gateUp _ _ _⟩
  unfold ConnDBHandler.handle
  split_ifs
  · unfold ConnDBHandler.processConnectDBResponse
    split
    · exact ⟨rfl, rfl⟩
    split
    · exact ⟨rfl, rfl⟩
    · exact ⟨rfl, rfl⟩
  · exact hpass _ _ _
  · exact hpass _ _ _
  · exact ⟨rfl, rfl⟩

theorem onConnectGate_mgr (P : Protocol) (config : GameConfig) (s : Game) :
    (ConnGateHandler.onConnect P config s).2.mgr = s.mgr := by
  unfold ConnGateHandler.onConnect
  split
  · rfl
  dsimp only
  split
  · exact gateConnSend_mgr _ _ _
  · exact gateConnSend_mgr _ _ _

theorem onConnectDB_mgr (P : Protocol) (config : GameConfig) (s : Game) :
    (ConnDBHandler.onConnect P config s).2.mgr = s.mgr ∧
      (ConnDBHandler.onConnect P config s).2.gateUp = s.gateUp := by
  unfold ConnDBHandler.onConnect
  split
  · exact ⟨rfl, rfl⟩
  dsimp only
  split
  · exact ⟨dbConnSend_mgr _ _ _, dbConnSend_gateUp _ _ _⟩
  · exact ⟨dbConnSend_mgr _ _ _, dbConnSend_gateUp _ _ _⟩

end handlers

end JmyGame
