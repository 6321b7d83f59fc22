import JmyGame.GateMoves
import JmyGame.GameMoves
import JmyGame.ClusterRun

/-! The gate and the game server on who a user id is. The gate gives the id of a client that is gone to
the next client and does not tell the game server; the game server keeps the player that a user id has.
A user id plays the role of its last request to enter the game in every run in which no such request
finds the player of another role. -/

namespace JmyGame

open CArith

/-- What the gate puts on its link: requests to enter the game carry the id of a slot and a role, requests to leave
it carry no role, and the response to the game server gives the range of the ids. -/
structure FromGate (P : Protocol) (n : ℕ) (packet : Packet) : Prop where
  enter : packet.msgId = MsgId.gt2gsEnterGameRequest →
    ∃ p roleId, defaultClientStartId ≤ p ∧ p < defaultClientStartId + n ∧ packet.userId = some (BitVec.ofInt 32 p) ∧
      packet.data = short (P.enterGameRequest.serialize roleId)
  leave : packet.msgId = MsgId.gt2gsLeaveGameRequest →
    packet.data = short (P.leaveGameRequest.serialize 0)
  connect : packet.msgId = MsgId.gt2gsConnectGateResponse →
    packet.data = short (P.connectGateResponse.serialize ⟨n, defaultClientStartId⟩)

/-- The tables of the gate are in order, its slots have the ids from the start on, and so do the packets
on its link. -/
structure GateFits (P : Protocol) (n : ℕ) (g : Gate) : Prop where
  tables : ClientTables g.mgr
  startId : g.mgr.clientArray.startId = defaultClientStartId
  size : g.mgr.clientArray.infoSize = n
  maxConn : g.maxConn = n
  queue : ∀ packet ∈ g.toGame, FromGate P n packet

/-- Nothing is on the link before the response to the game server. -/
def Opens (g : Gate) : Prop :=
  g.gameAgent = none ∧ g.toGame = [] ∨
    ∃ packet rest, g.toGame = packet :: rest ∧ packet.msgId = MsgId.gt2gsConnectGateResponse

/-- The ids of the messages of the gate that change the players of the game server. -/
def linkMsgIds : List MsgId :=
  [MsgId.gt2gsEnterGameRequest, MsgId.gt2gsLeaveGameRequest, MsgId.gt2gsConnectGateResponse]

theorem linkMsgIds_nodup : MsgId.gt2gsEnterGameRequest ≠ MsgId.gt2gsLeaveGameRequest ∧
    MsgId.gt2gsEnterGameRequest ≠ MsgId.gt2gsConnectGateResponse ∧
    MsgId.gt2gsLeaveGameRequest ≠ MsgId.gt2gsConnectGateResponse := by decide

theorem FromGate.other {P : Protocol} {n : ℕ} (userId : Option (BitVec 32)) {msgId : MsgId} (data : List Byte)
    (hmsg : msgId ∉ linkMsgIds) : FromGate P n ⟨userId, msgId, data⟩ := by
  simp only [linkMsgIds, List.mem_cons, List.not_mem_nil, or_false, not_or] at hmsg
  exact ⟨fun h => absurd h hmsg.1, fun h => absurd h hmsg.2.1, fun h => absurd h hmsg.2.2⟩

namespace GateFits

variable {P : Protocol} {n : ℕ} {T : ClientManager → ℤ → Prop} {g g' : Gate}

theorem start (P : Protocol) (n : ℕ) (reads : ℕ → FreedReads) :
    GateFits P n (Gate.reading { Gate.start n with gameUp := false } reads) :=
  ⟨ClientTables.init n defaultClientStartId reads, rfl, rfl, rfl, fun _ h => absurd h List.not_mem_nil⟩

/-- The messages of a client that are not those of the link lead to packets of the gate. -/
theorem carries (h : GateFits P n g) {msgId : MsgId} (hmsg : msgId ∉ linkMsgIds) :
    Carries P (FromGate P n) g msgId := by
  obtain ⟨hel, hec, hlc⟩ := linkMsgIds_nodup
  refine ⟨fun data => FromGate.other none data (by decide), fun data => FromGate.other none data (by decide),
    fun p hp roleId => ?_, fun userId => ?_, fun userId data => FromGate.other _ data hmsg⟩
  · have hrange := h.tables.range p (Or.inr hp)
    rw [h.startId, h.size] at hrange
    refine ⟨fun _ => ⟨p, roleId, hrange.1, hrange.2, ?_, rfl⟩, fun h => absurd h hel, fun h => absurd h hec⟩
    rw [h.tables.ids p]
  · exact ⟨fun h => absurd h.symm hel, fun _ => rfl, fun h => absurd h hlc⟩

theorem moves (h : GateFits P n g) (hm : Moves (FromGate P n) T g g') :
    GateFits P n g' ∧ (Opens g → Opens g') := by
  obtain ⟨htables, hstart, hsize⟩ := hm.tables h.tables
  obtain ⟨hagent, hmax, new, hnew, hF, hnone⟩ := hm.link
  refine ⟨⟨htables, hstart.trans h.startId, hsize.trans h.size, hmax.trans h.maxConn, ?_⟩, ?_⟩
  · intro packet hpacket
    rw [hnew] at hpacket
    rcases List.mem_append.1 hpacket with hpacket | hpacket
    · exact h.queue packet hpacket
    · exact hF packet hpacket
  · intro hopens
    rcases hopens with ⟨hno, hempty⟩ | ⟨packet, rest, hqueue, hmsg⟩
    · exact Or.inl ⟨hagent.trans hno, by rw [hnew, hempty, hnone hno, List.append_nil]⟩
    · exact Or.inr ⟨packet, rest ++ new, by rw [hnew, hqueue, List.cons_append], hmsg⟩

/-- A change that leaves the tables alone and takes packets from the link. -/
theorem congr (h : GateFits P n g) (hmgr : g'.mgr = g.mgr) (hmax : g'.maxConn = g.maxConn)
    (hqueue : ∀ packet ∈ g'.toGame, packet ∈ g.toGame) : GateFits P n g' :=
  ⟨hmgr ▸ h.tables, hmgr ▸ h.startId, hmgr ▸ h.size, hmax.trans h.maxConn,
    fun packet hpacket => h.queue packet (hqueue packet hpacket)⟩

/-- What happens at the gate, apart from its link. -/
theorem event (h : GateFits P n g) {e : GateEvent} (hgame : ∀ session userId msgId data,
      e ≠ .game session userId msgId data)
    (hmsg : ∀ time session connId msgId data, e = .client time session connId msgId data →
      msgId ∉ linkMsgIds)
    (hstep : g.step P e = some g') : GateFits P n g' ∧ (Opens g → Opens g') := by
  have hcalm : ∀ {g'}, Calm (FromGate P n) g g' → GateFits P n g' ∧ (Opens g → Opens g') :=
    fun hc => h.moves (T := fun _ _ => True) (.calm hc)
  cases e with
  | connect =>
      cases hstep
      exact ⟨h.congr rfl rfl fun _ => id, id⟩
  | drop connId =>
      cases hstep
      exact hcalm (Calm.connForceClose g connId)
  | revive connId =>
      simp only [Gate.step, Option.ite_none_right_eq_some, Option.some.injEq] at hstep
      obtain ⟨-, rfl⟩ := hstep
      exact ⟨h.congr rfl rfl fun _ => id, id⟩
  | release connId =>
      simp only [Gate.step, Option.ite_none_right_eq_some, Option.some.injEq] at hstep
      obtain ⟨-, rfl⟩ := hstep
      exact ⟨h.congr rfl rfl fun _ => id, id⟩
  | session time account session =>
      cases hstep
      exact hcalm (Calm.newAccountSession g time account session)
  | client time session connId msgId data =>
      simp only [Gate.step, Option.ite_none_right_eq_some, Option.some.injEq] at hstep
      obtain ⟨-, rfl⟩ := hstep
      have hcarries := h.carries (hmsg time session connId msgId data rfl)
      have hmoves : Moves (FromGate P n) (fun _ _ => True) g (g.onClient P time session connId msgId data).2 :=
        .handleClient h.tables hcarries (fun _ _ _ _ _ _ _ _ => trivial)
      exact h.moves (hmoves.trans (.calm (Calm.closeOnError (Calm.refl _))))
  | game session userId msgId data => exact absurd rfl (hgame session userId msgId data)

theorem opens_closeGame (h : Opens g) : Opens g.closeGame := by
  rcases h with ⟨-, hempty⟩ | hfirst
  · exact Or.inl ⟨rfl, hempty⟩
  · exact Or.inr hfirst

theorem closeGameOnError {r : ℤ × Gate} (h : GateFits P n r.2 ∧ (Opens g → Opens r.2)) :
    GateFits P n (Gate.closeGameOnError r) ∧ (Opens g → Opens (Gate.closeGameOnError r)) := by
  unfold Gate.closeGameOnError
  split_ifs
  · exact ⟨h.1.congr rfl rfl (fun _ h => h), fun ho => opens_closeGame (h.2 ho)⟩
  · exact h

theorem connectRequest (h : GateFits P n g) (info : JmyMsgInfo) :
    GateFits P n (Gate.closeGameOnError (GateGameHandler.processConnectGateRequest P g info)) ∧
      (Opens g → Opens (Gate.closeGameOnError (GateGameHandler.processConnectGateRequest P g info))) := by
  rcases processConnectGateRequest_cases P g info with heq | ⟨hagent, gameId, heq | ⟨data, hdata, heq⟩⟩
  · apply closeGameOnError
    rw [heq]
    exact ⟨h, id⟩
  · -- the agent is made, but the link is closed again
    have hneg : (-1 : ℤ) < 0 := by decide
    rw [heq, Gate.closeGameOnError, if_pos hneg]
    refine ⟨h.congr rfl rfl (fun _ h => h), fun ho => ?_⟩
    rcases ho with ⟨-, hempty⟩ | hfirst
    · exact Or.inl ⟨rfl, hempty⟩
    · exact Or.inr hfirst
  · apply closeGameOnError
    rw [heq]
    rw [h.maxConn, h.startId] at hdata
    have hresponse : FromGate P n ⟨none, MsgId.gt2gsConnectGateResponse, short data⟩ := by
      obtain ⟨-, hec, hlc⟩ := linkMsgIds_nodup
      refine ⟨fun h => absurd h.symm hec, fun h => absurd h.symm hlc, fun _ => ?_⟩
      rw [Codec.eq_serialize hdata]
    refine ⟨⟨h.tables, h.startId, h.size, h.maxConn, fun packet hpacket => ?_⟩, fun ho => Or.inr ?_⟩
    · rcases List.mem_append.1 hpacket with hpacket | hpacket
      · exact h.queue packet hpacket
      · exact List.mem_singleton.1 hpacket ▸ hresponse
    · rcases ho with ⟨-, hempty⟩ | ⟨packet, rest, hqueue, hmsg⟩
      · exact ⟨_, [], by rw [hempty, List.nil_append], rfl⟩
      · exact ⟨packet, _, by rw [hqueue, List.cons_append], hmsg⟩

/-- A packet of the game server at the gate. -/
theorem handleGame (h : GateFits P n g) (session : Str) (info : JmyMsgInfo) :
    GateFits P n (Gate.closeGameOnError (GateGameHandler.handle P session g info)) ∧
      (Opens g → Opens (Gate.closeGameOnError (GateGameHandler.handle P session g info))) := by
  have hmoves : ∀ {r : ℤ × Gate}, Moves (FromGate P n) (fun _ _ => True) g r.2 →
      GateFits P n (Gate.closeGameOnError r) ∧ (Opens g → Opens (Gate.closeGameOnError r)) :=
    fun hm => closeGameOnError (h.moves hm)
  unfold GateGameHandler.handle
  split
  · exact h.connectRequest info
  split
  · exact hmoves (.processGetRoleResponse h.tables)
  split
  · exact hmoves (.processCreateRoleResponse h.tables)
  · exact hmoves (.calm Calm.processDefaultGame)

end GateFits

/-- A message that is serialized is small, and comes back. -/
structure Codec.Faithful {α : Type} (codec : Codec α) (m : α) : Prop where
  size : (codec.serialize m).length < 2 ^ 16
  parse : codec.parse (codec.serialize m) = some m

theorem Codec.Faithful.short {α : Type} {codec : Codec α} {m : α} (h : codec.Faithful m) :
    codec.parse (JmyGame.short (codec.serialize m)) = some m := by
  rw [short_of_lt h.size]
  exact h.parse

/-- The gate and the game server fit together: the table of the game server is that of the ids of the
gate, and it is made before any user enters the game. -/
structure Agreement (P : Protocol) (n : ℕ) (c : Cluster) : Prop where
  gate : GateFits P n c.gate
  players : PlayersFit c.game.mgr
  range : c.game.mgr.onlineRoleIds = none ∨
    c.game.mgr.startPlayerId = defaultClientStartId ∧ c.game.mgr.maxPlayerSize = n
  opens : c.game.gateUp = true → c.game.mgr.onlineRoleIds = none → Opens c.gate

/-- Clients send no messages of the link between the servers. -/
def ClientSpeaks : ClusterEvent → Prop
  | .gate (.client _ _ _ msgId _) => msgId ∉ linkMsgIds
  | _ => True

/-- The step is the request of the user to enter the game with the role, at the game server. -/
def Enters (P : Protocol) (c : Cluster) (e : ClusterEvent) (userId : ℤ) (roleId : BitVec 64) : Prop :=
  ∃ stale packet rest, e = .gateToGame stale ∧ c.gate.toGame = packet :: rest ∧
    packet.msgId = MsgId.gt2gsEnterGameRequest ∧ (packet.info stale 0).userId.toInt = userId ∧
      P.enterGameRequest.parse packet.data = some roleId

/-- A request to enter the game finds no player of its user, or one with the role that it asks for. -/
def EntersAlone (P : Protocol) (c : Cluster) (e : ClusterEvent) : Prop :=
  ∀ userId roleId, Enters P c e userId roleId → (c.game.mgr.get userId).isSome = true →
    c.game.mgr.getRoleIdByUserId userId = roleId

namespace Agreement

variable {P : Protocol} {config : GameConfig} {n : ℕ} {c c' : Cluster}

theorem start (P : Protocol) (n : ℕ) (reads : ℕ → FreedReads) : Agreement P n ((Cluster.start n).reading reads) :=
  ⟨GateFits.start P n reads, PlayersFit.empty, Or.inl rfl, fun _ _ => Or.inl ⟨rfl, rfl⟩⟩

theorem congrGame (h : Agreement P n c) (hgate : c'.gate = c.gate) (hmgr : c'.game.mgr = c.game.mgr)
    (hup : c'.game.gateUp = true → c.game.gateUp = true) : Agreement P n c' := by
  refine ⟨hgate ▸ h.gate, hmgr ▸ h.players, ?_, ?_⟩
  · rw [hmgr]
    exact h.range
  · rw [hmgr, hgate]
    exact fun hu => h.opens (hup hu)

/-- A request to leave the game carries no role, so that it frees nothing. -/
theorem free_zero {m : PlayerManager} (h : m.onlineRoleIds = none ∨
      m.startPlayerId = defaultClientStartId ∧ m.maxPlayerSize = n) : m.free 0 = (false, m) := by
  rcases h with hnone | ⟨hstart, -⟩
  · rw [PlayerManager.free, hnone]
    split
    · rename_i heq
      cases heq
    · rfl
  · apply free_of_index
    rw [PlayerManager.index, hstart, if_pos (Or.inl (by decide))]

/-- The players that a message of the gate leaves. -/
theorem atGame_mgr {s : Game} {stale : BitVec 32} {packet : Packet} {r : ℤ × Game}
    (hrange : s.mgr.onlineRoleIds = none ∨
      s.mgr.startPlayerId = defaultClientStartId ∧ s.mgr.maxPlayerSize = n)
    (hconnect : P.connectGateResponse.Faithful ⟨n, defaultClientStartId⟩)
    (hleave : P.leaveGameRequest.Faithful 0) (hpacket : FromGate P n packet)
    (hr : ConnGateHandler.handle P config s (packet.info stale 0) = some r) :
    packet.msgId = MsgId.gt2gsConnectGateResponse ∧
        (r.2.mgr = s.mgr ∧ r.1 < 0 ∨ (s.mgr.init defaultClientStartId n).1 = true ∧
          r.2.mgr = (s.mgr.init defaultClientStartId n).2) ∨
      packet.msgId = MsgId.gt2gsEnterGameRequest ∧ r = ConnGateHandler.processEnterGame P s (packet.info stale 0) ∨
      packet.msgId ≠ MsgId.gt2gsConnectGateResponse ∧ packet.msgId ≠ MsgId.gt2gsEnterGameRequest ∧
        SamePlayers s.mgr r.2.mgr := by
  by_cases hmsg : packet.msgId = MsgId.gt2gsConnectGateResponse
  · refine Or.inl ⟨hmsg, ?_⟩
    rw [@handle_connectGateResponse P config s (packet.info stale 0) hmsg] at hr
    cases hr
    rcases processConnectGateResponse_mgr P s (packet.info stale 0) with hfail | ⟨response, hparse, hmade⟩
    · exact Or.inl hfail
    · rw [show (packet.info stale 0).data = _ from hpacket.connect hmsg, hconnect.short] at hparse
      cases hparse
      exact Or.inr hmade
  by_cases hmsg' : packet.msgId = MsgId.gt2gsEnterGameRequest
  · rw [@handle_enterGame P config s (packet.info stale 0) hmsg'] at hr
    exact Or.inr (Or.inl ⟨hmsg', (Option.some.inj hr).symm⟩)
  refine Or.inr (Or.inr ⟨hmsg, hmsg', ?_⟩)
  by_cases hmsg'' : packet.msgId = MsgId.gt2gsLeaveGameRequest
  · rw [@handle_leaveGame P config s (packet.info stale 0) hmsg''] at hr
    cases hr
    rcases processLeaveGame_mgr P s (packet.info stale 0) with hsame | ⟨roleId, hparse, hfree⟩
    · exact hsame ▸ SamePlayers.refl _
    · rw [show (packet.info stale 0).data = _ from hpacket.leave hmsg'', hleave.short] at hparse
      cases hparse
      have hzero : s.mgr.free ((0 : BitVec 64).truncate 32 : BitVec 32).toInt = (false, s.mgr) := free_zero hrange
      rw [hzero] at hfree
      exact hfree ▸ SamePlayers.refl _
  · exact @handle_samePlayers P config s (packet.info stale 0) r hmsg hmsg' hmsg'' hr

theorem closeGateOnError_mgr (r : ℤ × Game) : (Game.closeGateOnError r).mgr = r.2.mgr := by
  unfold Game.closeGateOnError
  split_ifs <;> rfl

/-- The user of a request to enter the game has a place in the table of the game server. -/
theorem enterGame_index (h : Agreement P n c) (hn : defaultClientStartId + n ≤ 2 ^ 31) {packet : Packet}
    {rest : List Packet} (stale : BitVec 32) (hup : c.game.gateUp = true)
    (hqueue : c.gate.toGame = packet :: rest) (hmsg : packet.msgId = MsgId.gt2gsEnterGameRequest) :
    0 < (packet.info stale 0).userId.toInt ∧ ∃ ids i, c.game.mgr.onlineRoleIds = some ids ∧
      c.game.mgr.index (packet.info stale 0).userId.toInt = some i := by
  obtain ⟨p, -, hlow, hhigh, huser, -⟩ := (h.gate.queue packet (hqueue ▸ List.mem_cons_self)).enter hmsg
  have hstartId : defaultClientStartId = 100000 := rfl
  have hid : (packet.info stale 0).userId.toInt = p := by
    rw [Packet.info, huser, Option.getD_some, BitVec.toInt_ofInt]
    apply Int.bmod_eq_of_le <;> omega
  rw [hid]
  refine ⟨by omega, ?_⟩
  cases hids : c.game.mgr.onlineRoleIds with
  | none =>
      -- nothing but the response is first on the link before the table is made
      rcases h.opens hup hids with ⟨-, hempty⟩ | ⟨packet', rest', hqueue', hmsg'⟩
      · rw [hempty] at hqueue
        cases hqueue
      · rw [hqueue] at hqueue'
        cases hqueue'
        exact absurd (hmsg.symm.trans hmsg') linkMsgIds_nodup.2.1
  | some ids =>
      obtain ⟨hstart, hsize⟩ := h.range.resolve_left (by rw [hids]; exact Option.some_ne_none ids)
      refine ⟨ids, p - defaultClientStartId, rfl, ?_⟩
      rw [PlayerManager.index, hstart, hsize, if_neg]
      omega

/-- A packet of the gate at the game server. -/
theorem gateToGame (h : Agreement P n c) (hconnect : P.connectGateResponse.Faithful ⟨n, defaultClientStartId⟩)
    (hleave : P.leaveGameRequest.Faithful 0) (hn : defaultClientStartId + n ≤ 2 ^ 31) {packet : Packet}
    {rest : List Packet} {stale : BitVec 32} {r : ℤ × Game} (hup : c.game.gateUp = true)
    (hqueue : c.gate.toGame = packet :: rest) (hr : c.atGame P config stale packet = some r) :
    Agreement P n { c with gate := { c.gate with toGame := rest }, game := Game.closeGateOnError r } := by
  have hpacket := h.gate.queue packet (hqueue ▸ List.mem_cons_self)
  have hgate : GateFits P n { c.gate with toGame := rest } :=
    h.gate.congr rfl rfl (fun p hp => hqueue ▸ List.mem_cons_of_mem packet hp)
  have hmgr := closeGateOnError_mgr r
  rcases atGame_mgr h.range hconnect hleave hpacket hr with
    ⟨-, ⟨hsame, hneg⟩ | ⟨hmade, hinit⟩⟩ | ⟨hmsg, hr'⟩ | ⟨hmsg, -, hsame⟩
  · refine ⟨hgate, ?_, ?_, ?_⟩
    · rw [hmgr, hsame]
      exact h.players
    · rw [hmgr, hsame]
      exact h.range
    · rw [Game.closeGateOnError, if_pos hneg]
      exact fun hup' => by cases hup'
  · obtain ⟨hnone, htable⟩ := init_table hmade
    refine ⟨hgate, ?_, ?_, ?_⟩
    · rw [hmgr, hinit]
      exact h.players.init _ _
    · rw [hmgr, hinit]
      rcases htable with ⟨-, hstart, hsize⟩ | ⟨hsome, hkeep⟩
      · exact Or.inr ⟨hstart, hsize⟩
      · rw [hkeep]
        exact h.range
    · rw [hmgr, hinit]
      exact fun _ h => absurd h hnone
  · obtain ⟨-, ids, i, hids, -⟩ := h.enterGame_index hn stale hup hqueue hmsg
    have hsome : c.game.mgr.onlineRoleIds ≠ none := by
      rw [hids]
      exact Option.some_ne_none ids
    rw [hr'] at hmgr
    rw [hr']
    rcases processEnterGame_cases P c.game (packet.info stale 0) with hsame | ⟨roleId, -, hmalloc⟩
    · rw [hsame] at hmgr
      refine ⟨hgate, ?_, ?_, ?_⟩
      · rw [hmgr]
        exact h.players
      · rw [hmgr]
        exact h.range
      · rw [hmgr]
        exact fun _ hnone => absurd hnone hsome
    · rw [hmalloc] at hmgr
      obtain ⟨hstart, hsize, honline⟩ := malloc_table c.game.mgr (packet.info stale 0).userId.toInt roleId
      refine ⟨hgate, ?_, ?_, ?_⟩
      · rw [hmgr]
        exact h.players.malloc _ roleId
      · rw [hmgr, hstart, hsize]
        exact Or.inr (h.range.resolve_left hsome)
      · rw [hmgr]
        exact fun _ hnone => absurd (honline hnone) hsome
  · refine ⟨hgate, ?_, ?_, ?_⟩
    · rw [hmgr]
      exact hsame.fits h.players
    · rw [hmgr, hsame.online, hsame.start, hsame.size]
      exact h.range
    · rw [hmgr, hsame.online]
      intro _ hnone
      rcases h.opens hup hnone with ⟨-, hempty⟩ | ⟨packet', rest', hqueue', hmsg'⟩
      · rw [hempty] at hqueue
        cases hqueue
      · rw [hqueue] at hqueue'
        cases hqueue'
        exact absurd hmsg' hmsg

theorem step_gate {e : GateEvent} (hstep : c.step P config (.gate e) = some c') :
    (∀ session userId msgId data, e ≠ .game session userId msgId data) ∧
      ∃ g, c.gate.step P e = some g ∧ c' = { c with gate := g } := by
  have hgame : ∀ session userId msgId data, e ≠ .game session userId msgId data := by
    rintro session userId msgId data rfl
    cases hstep
  have hmap : (c.gate.step P e).map (fun g => { c with gate := g }) = some c' := by
    cases e with
    | game session userId msgId data => exact absurd rfl (hgame session userId msgId data)
    | _ => exact hstep
  obtain ⟨g, hg, rfl⟩ := Option.map_eq_some_iff.1 hmap
  exact ⟨hgame, g, hg, rfl⟩

theorem step_gateToGame {stale : BitVec 32} (hstep : c.step P config (.gateToGame stale) = some c') :
    ∃ packet rest r, c.gate.toGame = packet :: rest ∧ c.game.gateUp = true ∧
      c.atGame P config stale packet = some r ∧
        c' = { c with gate := { c.gate with toGame := rest }, game := Game.closeGateOnError r } := by
  simp only [Cluster.step] at hstep
  split at hstep
  · cases hstep
  rename_i packet rest hqueue
  split_ifs at hstep with hup
  obtain ⟨r, hr, rfl⟩ := Option.map_eq_some_iff.1 hstep
  exact ⟨packet, rest, r, hqueue, by simpa using hup, hr, rfl⟩

theorem step (h : Agreement P n c) (hconnect : P.connectGateResponse.Faithful ⟨n, defaultClientStartId⟩)
    (hleave : P.leaveGameRequest.Faithful 0) (hn : defaultClientStartId + n ≤ 2 ^ 31) {e : ClusterEvent}
    (hclient : ClientSpeaks e) (hstep : c.step P config e = some c') : Agreement P n c' := by
  cases e with
  | gate e =>
      obtain ⟨hgame, g, hg, rfl⟩ := step_gate hstep
      have hmsg : ∀ time session connId msgId data, e = .client time session connId msgId data →
          msgId ∉ linkMsgIds := by
        rintro time session connId msgId data rfl
        exact hclient
      obtain ⟨hfits, hopens⟩ := h.gate.event hgame hmsg hg
      exact ⟨hfits, h.players, h.range, fun hup hnone => hopens (h.opens hup hnone)⟩
  | linkGate =>
      simp only [Cluster.step, Option.ite_none_right_eq_some, Option.some.injEq] at hstep
      obtain ⟨-, rfl⟩ := hstep
      have hmgr : (c.linkGate P config).game.mgr = c.game.mgr := onConnectGate_mgr _ _ _
      refine ⟨h.gate.congr rfl rfl (fun _ hp => absurd hp List.not_mem_nil), ?_, ?_, ?_⟩
      · rw [hmgr]
        exact h.players
      · rw [hmgr]
        exact h.range
      · exact fun _ _ => Or.inl ⟨rfl, rfl⟩
  | loseGate =>
      cases hstep
      exact h.congrGame rfl rfl (fun hup => by cases hup)
  | loseGame =>
      cases hstep
      exact ⟨h.gate.congr rfl rfl (fun _ hp => hp), h.players, h.range,
        fun hup hnone => GateFits.opens_closeGame (h.opens hup hnone)⟩
  | linkDB =>
      simp only [Cluster.step, Option.ite_none_right_eq_some, Option.some.injEq] at hstep
      obtain ⟨-, rfl⟩ := hstep
      obtain ⟨hmgr, hup⟩ := onConnectDB_mgr P config { c.game with dbUp := true, toDB := [] }
      exact h.congrGame rfl hmgr (fun hup' => hup.symm.trans hup')
  | loseDB =>
      cases hstep
      exact h.congrGame rfl rfl id
  | loseDBGame =>
      cases hstep
      exact h.congrGame rfl rfl id
  | gateToGame stale =>
      obtain ⟨packet, rest, r, hqueue, hup, hr, rfl⟩ := step_gateToGame hstep
      exact h.gateToGame hconnect hleave hn hup hqueue hr
  | gameToGate session stale =>
      simp only [Cluster.step] at hstep
      split at hstep
      · cases hstep
      rename_i packet rest hqueue
      split_ifs at hstep with hup
      cases hstep
      obtain ⟨hfits, hopens⟩ := h.gate.handleGame session (packet.info stale 0)
      exact ⟨hfits, h.players, h.range, fun hup hnone => hopens (h.opens hup hnone)⟩
  | gameToDB selected time stale =>
      simp only [Cluster.step] at hstep
      split at hstep
      · cases hstep
      split_ifs at hstep
      cases hstep
      exact h.congrGame rfl rfl id
  | dbToGame stale =>
      simp only [Cluster.step] at hstep
      split at hstep
      · cases hstep
      rename_i packet rest hqueue
      split_ifs at hstep
      cases hstep
      obtain ⟨hmgr, hup⟩ := handleDB_mgr P c.game (packet.info stale 0)
      unfold Game.closeDBOnError
      split_ifs
      · exact h.congrGame rfl hmgr (fun hup' => hup.symm.trans hup')
      · exact h.congrGame rfl hmgr (fun hup' => hup.symm.trans hup')
  | select i result =>
      simp only [Cluster.step] at hstep
      split at hstep
      · cases hstep
      cases hstep
      exact h.congrGame rfl rfl id
  | update =>
      cases hstep
      exact h.congrGame rfl rfl id

end Agreement

/-- What does not come from the gate leaves the players alone. -/
theorem step_mgr {P : Protocol} {config : GameConfig} {c c' : Cluster} {e : ClusterEvent}
    (he : ∀ stale, e ≠ .gateToGame stale) (hstep : c.step P config e = some c') :
    c'.game.mgr = c.game.mgr := by
  cases e with
  | gate e =>
      obtain ⟨-, g, -, rfl⟩ := Agreement.step_gate hstep
      rfl
  | linkGate =>
      simp only [Cluster.step, Option.ite_none_right_eq_some, Option.some.injEq] at hstep
      exact hstep.2 ▸ onConnectGate_mgr _ _ _
  | linkDB =>
      simp only [Cluster.step, Option.ite_none_right_eq_some, Option.some.injEq] at hstep
      exact hstep.2 ▸ (onConnectDB_mgr P config { c.game with dbUp := true, toDB := [] }).1
  | loseGate | loseGame | loseDB | loseDBGame | update =>
      cases hstep
      rfl
  | gateToGame stale => exact absurd rfl (he stale)
  | gameToGate session stale | gameToDB selected time stale =>
      simp only [Cluster.step] at hstep
      split at hstep
      · cases hstep
      split_ifs at hstep
      cases hstep
      rfl
  | dbToGame stale =>
      simp only [Cluster.step] at hstep
      split at hstep
      · cases hstep
      split_ifs at hstep
      cases hstep
      have hmgr : ∀ r : ℤ × Game, (Game.closeDBOnError r).mgr = r.2.mgr := by
        intro r
        unfold Game.closeDBOnError
        split_ifs <;> rfl
      exact (hmgr _).trans (handleDB_mgr P c.game _).1
  | select i result =>
      simp only [Cluster.step] at hstep
      split at hstep
      · cases hstep
      cases hstep
      rfl

/-- A user id with a player plays the role that the table has for it. -/
theorem plays_iff {m : PlayerManager} (h : PlayersFit m) {userId : ℤ} (roleId : BitVec 64)
    (hget : (m.get userId).isSome = true) : Plays m userId roleId ↔ m.getRoleIdByUserId userId = roleId := by
  refine ⟨And.right, fun hrole => ⟨?_, hrole⟩⟩
  obtain ⟨obj, hobj⟩ := Option.isSome_iff_exists.1 hget
  refine ⟨obj, hobj, ?_⟩
  rw [PlayerManager.getRoleIdByUserId] at hrole
  rw [PlayerManager.get] at hobj
  split at hobj
  · rename_i i ids hi hids
    rw [hi, hids] at hrole
    exact (h.role _ obj hobj).1.trans hrole
  · cases hobj

section

variable {P : Protocol} {config : GameConfig} {n : ℕ} {c c' : Cluster} {e : ClusterEvent} {userId : ℤ}
  {roleId : BitVec 64}

/-- After its request to enter the game a user plays the role of the request exactly when it had no
player, or one with this role. -/
theorem plays_enter_iff (h : Agreement P n c) (hn : defaultClientStartId + n ≤ 2 ^ 31)
    (henter : Enters P c e userId roleId) (hstep : c.step P config e = some c') :
    Plays c'.game.mgr userId roleId ↔
      ((c.game.mgr.get userId).isSome = true → c.game.mgr.getRoleIdByUserId userId = roleId) := by
  obtain ⟨stale, packet, rest, rfl, hqueue, hmsg, huser, hparse⟩ := henter
  obtain ⟨packet', rest', r, hqueue', hup, hr, rfl⟩ := Agreement.step_gateToGame hstep
  rw [hqueue] at hqueue'
  cases hqueue'
  obtain ⟨hpos, ids, i, hids, hi⟩ := h.enterGame_index hn stale hup hqueue hmsg
  rw [Cluster.atGame, @handle_enterGame P config c.game (packet.info stale 0) hmsg] at hr
  cases hr
  rw [Agreement.closeGateOnError_mgr, processEnterGame_mgr hparse hpos, ConnGateHandler.enterPlayer, huser]
  rw [huser] at hi
  cases hget : c.game.mgr.get userId with
  | none =>
      dsimp only
      simp only [Option.isSome_none, Bool.false_eq_true, false_implies, iff_true]
      exact plays_malloc h.players hids hi
  | some obj =>
      dsimp only
      rw [plays_iff h.players roleId (by rw [hget]; rfl)]
      simp

/-- A user keeps its role until its next request to enter the game. -/
theorem plays_step (h : Agreement P n c) (hconnect : P.connectGateResponse.Faithful ⟨n, defaultClientStartId⟩)
    (hleave : P.leaveGameRequest.Faithful 0) (hplays : Plays c.game.mgr userId roleId)
    (hno : ∀ roleId', ¬Enters P c e userId roleId') (hstep : c.step P config e = some c') :
    Plays c'.game.mgr userId roleId := by
  by_cases he : ∃ stale, e = .gateToGame stale
  · obtain ⟨stale, rfl⟩ := he
    obtain ⟨packet, rest, r, hqueue, hup, hr, rfl⟩ := Agreement.step_gateToGame hstep
    have hpacket := h.gate.queue packet (hqueue ▸ List.mem_cons_self)
    rw [Agreement.closeGateOnError_mgr]
    rcases Agreement.atGame_mgr h.range hconnect hleave hpacket hr with
      ⟨-, ⟨hsame, -⟩ | ⟨hmade, hinit⟩⟩ | ⟨hmsg, rfl⟩ | ⟨-, -, hsame⟩
    · rw [hsame]
      exact hplays
    · -- there is a player, so that the table is made
      rcases (init_table hmade).2 with ⟨hnone, -⟩ | ⟨-, hkeep⟩
      · obtain ⟨⟨obj, hget, -⟩, -⟩ := hplays
        rw [PlayerManager.get, hnone] at hget
        split at hget
        · rename_i hcontra
          cases hcontra
        · cases hget
      · rw [hinit, hkeep]
        exact hplays
    · rcases processEnterGame_cases P c.game (packet.info stale 0) with hsame | ⟨roleId', hparse, hmalloc⟩
      · rw [hsame]
        exact hplays
      · rw [hmalloc]
        refine plays_malloc_of_ne h.players (fun heq => ?_) hplays
        exact hno roleId' ⟨stale, packet, rest, rfl, hqueue, hmsg, heq.symm, hparse⟩
    · exact (hsame.plays userId roleId).2 hplays
  · rw [step_mgr (fun stale heq => he ⟨stale, heq⟩) hstep]
    exact hplays

end

/-- In every run in which the requests to enter the game find no player of another role, the user of such
a request plays its role until its next request, whatever the removals of the gate read of erased nodes. -/
theorem enterGame_plays {P : Protocol} {config : GameConfig} {n : ℕ} {reads : ℕ → FreedReads}
    (hconnect : P.connectGateResponse.Faithful ⟨n, defaultClientStartId⟩)
    (hleave : P.leaveGameRequest.Faithful 0) (hn : defaultClientStartId + n ≤ 2 ^ 31)
    {es fs : List ClusterEvent} {e : ClusterEvent} {c c' t : Cluster} {userId : ℤ} {roleId : BitVec 64}
    (halone : (clusterMachine P config).Along (fun c e => ClientSpeaks e ∧ EntersAlone P c e)
      ((Cluster.start n).reading reads) (es ++ e :: fs))
    (hc : (clusterMachine P config).run ((Cluster.start n).reading reads) es = some c)
    (henter : Enters P c e userId roleId) (hstep : (clusterMachine P config).step c e = some c')
    (hno : (clusterMachine P config).Along (fun c e => ∀ roleId', ¬Enters P c e userId roleId') c' fs)
    (hrun : (clusterMachine P config).run c' fs = some t) : Plays t.game.mgr userId roleId := by
  have hagree : Agreement P n c := Machine.invariant_along
    (fun s e s' hs he hstep => hs.step hconnect hleave hn he.1 hstep) (Agreement.start P n reads) halone.first hc
  obtain ⟨⟨hclient, halone'⟩, hrest⟩ := halone.rest hc
  have hafter : Agreement P n c' ∧ Plays c'.game.mgr userId roleId :=
    ⟨hagree.step hconnect hleave hn hclient hstep,
      (plays_enter_iff hagree hn henter hstep).2 (halone' userId roleId henter)⟩
  -- both are kept by the rest of the run
  have hboth := Machine.Along.and (hrest c' hstep) hno
  exact (Machine.invariant_along (I := fun c => Agreement P n c ∧ Plays c.game.mgr userId roleId)
    (fun s e s' hs he hstep => ⟨hs.1.step hconnect hleave hn he.1.1 hstep,
      plays_step hs.1 hconnect hleave hs.2 he.2 hstep⟩) hafter hboth hrun).2

/-- The packet that the step delivers to the game server, with the user id that its handler reads. -/
def delivered (c : Cluster) : ClusterEvent → Option (Packet × ℤ)
  | .gateToGame stale => c.gate.toGame.head?.map fun packet => (packet, (packet.info stale 0).userId.toInt)
  | _ => none

theorem entersAlone_iff {P : Protocol} {c : Cluster} {e : ClusterEvent} :
    EntersAlone P c e ↔ ∀ d ∈ delivered c e, d.1.msgId = MsgId.gt2gsEnterGameRequest →
      (c.game.mgr.get d.2).isSome = true → ∀ roleId ∈ P.enterGameRequest.parse d.1.data,
        c.game.mgr.getRoleIdByUserId d.2 = roleId := by
  constructor
  · intro h d hd hmsg hget roleId hparse
    cases e with
    | gateToGame stale =>
        obtain ⟨packet, hhead, rfl⟩ := Option.map_eq_some_iff.1 hd
        obtain ⟨rest, hqueue⟩ := List.head?_eq_some_iff.1 hhead
        exact h _ roleId ⟨stale, packet, rest, rfl, hqueue, hmsg, rfl, hparse⟩ hget
    | _ => cases hd
  · rintro h userId roleId ⟨stale, packet, rest, rfl, hqueue, hmsg, rfl, hparse⟩ hget
    exact h (packet, _) (by rw [delivered, hqueue]; rfl) hmsg hget roleId hparse

instance (P : Protocol) (c : Cluster) (e : ClusterEvent) : Decidable (EntersAlone P c e) :=
  decidable_of_iff _ entersAlone_iff.symm

instance : ∀ e, Decidable (ClientSpeaks e)
  | .gate (.client _ _ _ msgId _) => inferInstanceAs (Decidable (msgId ∉ linkMsgIds))
  | .gate .connect | .gate (.drop _) | .gate (.revive _) | .gate (.release _) | .gate (.session _ _ _)
  | .gate (.game _ _ _ _) | .linkGate | .loseGate | .loseGame | .linkDB | .loseDB | .loseDBGame
  | .gateToGame _ | .gameToGate _ _ | .gameToDB _ _ _ | .dbToGame _ | .select _ _ | .update =>
    inferInstanceAs (Decidable True)

/-- A game server without items. -/
def gameConfig : GameConfig := ⟨40001, fun _ => none⟩

/-- The game server connects to the db server and to the gate. -/
def linkRun : List ClusterEvent :=
  [.linkDB, .gameToDB true 0 0, .dbToGame 0, .linkGate, .gameToGate [] 0, .gateToGame 0]

/-- A client logs in on a connection, gets its role from the database and asks to enter the game. -/
def enterRun (connId : ℤ) (account : Str) (roleId : BitVec 64) : List ClusterEvent := [
  .gate .connect,
  .gate (.session 0 account [1]),
  .gate (.client 0 [] connId MsgId.c2sGetRoleRequest (wire.c2sGetRoleRequest.serialize ⟨account, [1]⟩)),
  .gateToGame 0,
  .gameToDB true 0 0,
  .select 0 (.row ⟨account, roleId, [], 0, 0, fun _ => none⟩),
  .dbToGame 0,
  .gameToGate [2] 0,
  .gate (.client 0 [] connId MsgId.c2sEnterGameRequest [])]

/-- A client that enters the game plays its role, also when it is gone. -/
theorem enterGame_plays_run : ∃ t, (clusterMachine wire gameConfig).run ((Cluster.start 2).reading lostIds)
    (linkRun ++ enterRun 1 [97] 7 ++ [.gateToGame 0, .gate (.drop 1)]) = some t ∧
      Plays t.game.mgr 100000 7 := by
  have hsees : ((clusterMachine wire gameConfig).run ((Cluster.start 2).reading lostIds)
      (linkRun ++ enterRun 1 [97] 7)).map (fun c => (c.gate.toGame, ((clusterMachine wire gameConfig).run c
        [.gateToGame 0, .gate (.drop 1)]).isSome)) = some ([⟨some 100000, MsgId.gt2gsEnterGameRequest,
          wire.enterGameRequest.serialize 7⟩], true) := by decide +kernel
  obtain ⟨c, hc, hsees⟩ := Option.map_eq_some_iff.1 hsees
  obtain ⟨hqueue, hdefined⟩ := Prod.mk.inj hsees
  obtain ⟨t, ht⟩ := Option.isSome_iff_exists.1 hdefined
  obtain ⟨c', hstep, hrest⟩ := (Machine.run_cons_eq_some _).1 ht
  have henter : Enters wire c (.gateToGame 0) 100000 7 :=
    ⟨0, _, [], rfl, hqueue, rfl, by decide, Wire.uint64_round_trip 7⟩
  have hno : (clusterMachine wire gameConfig).Along (fun c e => ∀ roleId', ¬Enters wire c e 100000 roleId') c'
      [.gate (.drop 1)] := by
    refine ⟨?_, fun _ _ => trivial⟩
    rintro roleId' ⟨stale, packet, rest, heq, -⟩
    cases heq
  have halone : (clusterMachine wire gameConfig).Along (fun c e => ClientSpeaks e ∧ EntersAlone wire c e)
      ((Cluster.start 2).reading lostIds) (linkRun ++ enterRun 1 [97] 7 ++ [.gateToGame 0, .gate (.drop 1)]) := by
    decide +kernel
  refine ⟨t, ?_, @enterGame_plays wire gameConfig 2 lostIds ⟨by decide, by decide⟩ ⟨by decide, by decide⟩
    (by norm_num [defaultClientStartId])
    (linkRun ++ enterRun 1 [97] 7) [.gate (.drop 1)] (.gateToGame 0) c c' t 100000 7 halone hc
    henter hstep hno hrest⟩
  rw [Machine.run_append, hc]
  exact ht

/-- The client of account `b` gets the user id of the client of account `a` that is gone, and enters the
game with its own role 9: the game server still has the role 7 of account `a` for the user id. The removals of the gate
read what jemalloc leaves in the erased nodes. -/
theorem recycled_user_plays_old_role : ∃ c c',
    (clusterMachine wire gameConfig).run ((Cluster.start 2).reading fun _ => .intact)
      (linkRun ++ enterRun 1 [97] 7 ++ [.gateToGame 0, .gameToGate [] 0, .gameToGate [] 0, .gate (.drop 1)] ++
        enterRun 2 [98] 9) = some c ∧
      Enters wire c (.gateToGame 0) 100000 9 ∧
      (clusterMachine wire gameConfig).step c (.gateToGame 0) = some c' ∧
      c'.game.mgr.getRoleIdByUserId 100000 = 7 ∧ ¬Plays c'.game.mgr 100000 9 := by
  have hsees : ((clusterMachine wire gameConfig).run ((Cluster.start 2).reading fun _ => .intact)
      (linkRun ++ enterRun 1 [97] 7 ++ [.gateToGame 0, .gameToGate [] 0, .gameToGate [] 0, .gate (.drop 1)] ++
      enterRun 2 [98] 9)).map
      (fun c => (c.gate.toGame, ((clusterMachine wire gameConfig).step c (.gateToGame 0)).map fun c' =>
        c'.game.mgr.getRoleIdByUserId 100000)) = some ([⟨some 100000, MsgId.gt2gsEnterGameRequest,
          wire.enterGameRequest.serialize 9⟩], some 7) := by decide +kernel
  obtain ⟨c, hc, hsees⟩ := Option.map_eq_some_iff.1 hsees
  obtain ⟨hqueue, hafter⟩ := Prod.mk.inj hsees
  obtain ⟨c', hstep, hrole⟩ := Option.map_eq_some_iff.1 hafter
  refine ⟨c, c', hc, ⟨0, _, [], rfl, hqueue, rfl, by decide, Wire.uint64_round_trip 9⟩, hstep, hrole, ?_⟩
  intro hplays
  have hnine := hplays.2
  rw [hrole] at hnine
  exact absurd hnine (by decide)

end JmyGame
