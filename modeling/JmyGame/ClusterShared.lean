import JmyGame.ClusterLinkQueues
import JmyGame.GameCommands

/-! Which runs keep the links that all players share. What the servers send to each other on their own is always taken
at the other end: it is read there, it fits a packet, and it comes when the end is ready for it. So a link can only be
lost through what clients send, and through what is gone when a message arrives. -/

namespace JmyGame

open CArith ProtoMessage

/-- The client of the slot is still there: the slot is in use, and its connection is connected. -/
def Gate.Ready (g : Gate) (p : ℤ) : Prop :=
  (g.mgr.info p).used = true ∧ (g.mgr.info p).hasMgr = true ∧ g.connState (g.mgr.info p).connId = some .connected

instance (g : Gate) (p : ℤ) : Decidable (g.Ready p) := inferInstanceAs (Decidable (_ ∧ _ ∧ _))

/-- The client that a message of the game server is for is still there: the one of the account of a role response,
else the one of the user id. -/
def Gate.Expects (P : Protocol) (g : Gate) (info : JmyMsgInfo) : Prop :=
  if info.msgId = MsgId.gs2gtConnectGateRequest then True
  else if info.msgId = MsgId.gs2gtGetRoleResponse then
    ∀ response ∈ P.gs2gtGetRoleResponse.parse info.data,
      ∃ p ∈ g.mgr.getClientInfoByAccount response.account, g.Ready p
  else if info.msgId = MsgId.gs2gtCreateRoleResponse then
    ∀ response ∈ P.gs2gtCreateRoleResponse.parse info.data,
      ∃ p ∈ g.mgr.getClientInfoByAccount response.account, g.Ready p
  else ∃ p ∈ g.mgr.getClientInfo info.userId.toInt, g.Ready p

/-- A text of a user: a command of a player has its parameters, and another text can be sent back. -/
def Game.ExpectsChat (P : Protocol) (s : Game) (userId : BitVec 32) (request : MsgChat) : Prop :=
  if GmManager.gm ++ [32] <+: request.content then
    (s.mgr.get userId.toInt).isSome = true → GmManager.Given (request.content.drop 4)
  else P.chatResponse.Fits maxUserData request

/-- What a user asks for can be read and fits a packet, the db server is there for a request that goes on to it, and
a user that leaves has a player. -/
def Game.Expects (P : Protocol) (s : Game) (info : JmyMsgInfo) : Prop :=
  if info.msgId = MsgId.gt2gsGetRoleRequest then
    s.dbConn = true ∧ ∃ account ∈ P.gt2gsGetRoleRequest.parse info.data, P.gs2dsGetRoleRequest.Fits maxData account
  else if info.msgId = MsgId.gt2gsCreateRoleRequest then
    s.dbConn = true ∧ ∃ request ∈ P.gt2gsCreateRoleRequest.parse info.data,
      P.gs2dsCreateRoleRequest.Fits maxData request
  else if info.msgId = MsgId.gt2gsLeaveGameRequest then (s.mgr.get info.userId.toInt).isSome = true
  else if info.msgId = MsgId.c2sChatRequest then
    ∃ request ∈ P.chatRequest.parse info.data, s.ExpectsChat P info.userId request
  else if info.msgId = MsgId.c2sSetRoleDataRequest then
    s.dbConn = true ∧ (P.setRoleDataRequest.parse info.data).isSome = true
  else True

/-- The database can be asked for an account without a record, an answer fits a packet, and a role that is changed has
a record. -/
def DB.Expects (P : Protocol) (d : DB) (selected : Bool) (time : ℕ) (info : JmyMsgInfo) : Prop :=
  if info.msgId = MsgId.gs2dsGetRoleRequest then ∀ account ∈ P.gs2dsGetRoleRequest.parse info.data,
    (d.table.getByKey2 account = none → selected = true) ∧
      ∀ r ∈ d.table.getByKey2 account, P.ds2gsGetRoleResponse.Fits maxData (d.table.recs r).role
  else if info.msgId = MsgId.gs2dsCreateRoleRequest then ∀ request ∈ P.gs2dsCreateRoleRequest.parse info.data,
    d.table.getByKey2 request.account = none →
      P.ds2gsCreateRoleResponse.Fits maxData (DbGameHandler.newRole d time request)
  else if info.msgId = MsgId.gs2dsSetRoleDataRequest then ∀ request ∈ P.gs2dsSetRoleDataRequest.parse info.data,
    (d.table.getByKey request.roleId).isSome = true
  else if info.msgId = MsgId.gs2dsAddItemRequest then ∀ request ∈ P.addItemRequest.parse info.data,
    (d.table.getByKey request.roleId).isSome = true
  else True

namespace Cluster

variable (P : Protocol) (config : GameConfig)

/-- Clients send no messages of the link between the gate and the game server, and what is delivered on a link that all
players share meets what it is for. -/
def Regular (c : Cluster) : ClusterEvent → Prop
  | .gateToGame stale => c.game.gateUp = true → ∀ packet ∈ c.gate.toGame.head?, c.game.Expects P (packet.info stale 0)
  | .gameToGate _ stale => c.gate.gameUp = true → ∀ packet ∈ c.game.toGate.head?, c.gate.Expects P (packet.info stale 0)
  | .gameToDB selected time stale => c.db.gameUp = true → ∀ packet ∈ c.game.toDB.head?,
      c.db.Expects P selected time (packet.info stale c.db.connId)
  | e => ClientSpeaks e

/-- The handler that the step runs on a link that all players share, with its result. A handler that reads what is not
there has none. -/
def linkResult (c : Cluster) : ClusterEvent → Option (Option ℤ)
  | .gateToGame stale =>
    match c.gate.toGame with
    | [] => none
    | packet :: _ => if c.game.gateUp = false then none else some ((c.atGame P config stale packet).map (·.1))
  | .gameToGate session stale =>
    match c.game.toGate with
    | [] => none
    | packet :: _ => if c.gate.gameUp = false then none else some (some (c.atGate P session stale packet).1)
  | .gameToDB selected time stale =>
    match c.game.toDB with
    | [] => none
    | packet :: _ => if c.db.gameUp = false then none else some (some (c.atDB P selected time stale packet).1)
  | _ => none

/-- The handler of the step comes to its end, and closes no link for all players. -/
def KeepsLinks (c : Cluster) (e : ClusterEvent) : Prop :=
  ∀ result ∈ c.linkResult P config e, ∃ r ∈ result, (0 : ℤ) ≤ r

end Cluster

/-- The id of the game server is one of its range. -/
def GameConfig.InRange (config : GameConfig) : Prop := gameServerMinId ≤ config.id ∧ config.id ≤ gameServerMaxId

theorem GameConfig.InRange.isInt32 {config : GameConfig} (h : config.InRange) : IsInt32 config.id := by
  have hmin : gameServerMinId = 40001 := rfl
  have hmax : gameServerMaxId = 40100 := rfl
  obtain ⟨hlow, hhigh⟩ := h
  exact ⟨by omega, by omega⟩

/-- The servers and their links fit together. -/
structure LinksFit (P : Protocol) (config : GameConfig) (n : ℕ) (c : Cluster) : Prop where
  agreement : Agreement P n c
  gateLink : GateLinkFits P config c
  dbLink : DbLinkFits P config c

theorem Cluster.Regular.clientSpeaks {P : Protocol} {c : Cluster} {e : ClusterEvent} (h : c.Regular P e) :
    ClientSpeaks e := by
  cases e with
  | gateToGame | gameToGate | gameToDB => exact trivial
  | gate | linkGate | loseGate | loseGame | linkDB | loseDB | loseDBGame | dbToGame | select | update => exact h

/-- A message without texts can be sent to a client. -/
theorem Codec.Standard.takes {α : Type} [ProtoMessage α] {codec : Codec α} (h : codec.Standard) {m : α}
    (htexts : texts m = 0) (msgId : MsgId) : sendTakes msgId (short (codec.serialize m)) = true :=
  have hfits : codec.Fits maxData m := h.fits htexts (by decide)
  hfits.takes msgId

theorem Gate.Ready.reaches {g : Gate} {p : ℤ} (h : g.Ready p) {msgId : MsgId} {data : List Byte}
    (htakes : sendTakes msgId (short data) = true) : g.Reaches p msgId data := ⟨h.1, h.2.1, h.2.2, htakes⟩

namespace LinksFit

variable {P : Protocol} {config : GameConfig} {n : ℕ} {c c' : Cluster}

theorem start (P : Protocol) (config : GameConfig) (n : ℕ) (reads : ℕ → FreedReads) :
    LinksFit P config n ((Cluster.start n).reading reads) :=
  ⟨Agreement.start P n reads, GateLinkFits.start P config n reads, DbLinkFits.start P config n reads⟩

/-- The answer of the gate comes back. -/
theorem connect_faithful (hP : P.Standard) (hn : defaultClientStartId + n ≤ 2 ^ 31) :
    P.connectGateResponse.Faithful ⟨n, defaultClientStartId⟩ := by
  have hstart : defaultClientStartId = 100000 := rfl
  refine hP.connectGateResponse.faithful (m := ⟨n, defaultClientStartId⟩) ⟨⟨?_, ?_⟩, ?_, ?_⟩ rfl
  · change (-2 ^ 31 : ℤ) ≤ n
    omega
  · change (n : ℤ) < 2 ^ 31
    omega
  · change (-2 ^ 31 : ℤ) ≤ defaultClientStartId
    omega
  · change defaultClientStartId < 2 ^ 31
    omega

theorem leave_faithful (hP : P.Standard) : P.leaveGameRequest.Faithful 0 := hP.leaveGameRequest.faithful trivial rfl

theorem step (hP : P.Standard) (hn : defaultClientStartId + n ≤ 2 ^ 31) (h : LinksFit P config n c) {e : ClusterEvent}
    (hregular : c.Regular P e) (hstep : c.step P config e = some c') : LinksFit P config n c' where
  agreement := h.agreement.step (connect_faithful hP hn) (leave_faithful hP) hn hregular.clientSpeaks hstep
  gateLink := h.gateLink.step hP h.agreement hregular.clientSpeaks hstep
  dbLink := h.dbLink.step hP hstep

/-- The gate takes what the game server sends, if the client that it is for is there. -/
theorem gate_takes (hP : P.Standard) (hid : config.InRange) (h : LinksFit P config n c) {packet : Packet}
    {rest : List Packet} (hup : c.gate.gameUp = true) (hqueue : c.game.toGate = packet :: rest) (stale : BitVec 32)
    (hexpects : c.gate.Expects P (packet.info stale 0)) : GateGameHandler.Takes P c.gate (packet.info stale 0) := by
  rcases h.gateLink.queue with hall | ⟨hagent, rest', hfirst, -⟩
  · obtain ⟨hsize, hreads⟩ := hall packet (hqueue ▸ List.mem_cons_self)
    unfold Gate.Expects at hexpects
    unfold GateGameHandler.Takes
    change if packet.msgId = _ then _ else if packet.msgId = _ then _ else if packet.msgId = _ then _ else _
    change if packet.msgId = _ then _ else if packet.msgId = _ then _ else if packet.msgId = _ then _ else _ at hexpects
    split_ifs at hexpects hreads ⊢
    · obtain ⟨response, hparse, hfits⟩ := hreads
      obtain ⟨p, hp, hready⟩ := hexpects response hparse
      refine ⟨response, hparse, p, hp, ?_⟩
      split_ifs
      · have herror : P.error.Fits maxData ProtoErrorType.getRoleNone.code := hP.error.trans (by decide)
        exact ⟨herror.mono (by decide), hready.reaches (herror.takes _)⟩
      · exact ⟨hfits.mono (by decide), hready.reaches (hfits.takes _)⟩
    · obtain ⟨response, hparse, hfits⟩ := hreads
      obtain ⟨p, hp, hready⟩ := hexpects response hparse
      exact ⟨response, hparse, p, hp, hfits.mono (by decide), hready.reaches (hfits.takes _)⟩
    · obtain ⟨p, hp, hready⟩ := hexpects
      refine ⟨hup, fun hzero => ?_, p, hp, hready.reaches ?_⟩
      · -- the ids of the slots are not 0
        obtain ⟨hsame, hused⟩ := ClientArray.get_eq_some hp
        have hrange := (h.agreement.gate.tables.range p (Or.inr hused)).1
        rw [h.agreement.gate.startId, ← hsame, hzero] at hrange
        exact absurd hrange (by decide)
      · have hmax : maxData = 65530 := rfl
        have hdata : (packet.info stale 0).data = packet.data := rfl
        rw [hdata, short_of_lt (by omega), sendTakes_iff (by omega)]
        omega
  · rw [hqueue] at hfirst
    cases hfirst
    have htexts : texts (⟨c.gate.maxConn, c.gate.mgr.clientArray.startId⟩ : MsgConnectGateResponse) = 0 := rfl
    exact ⟨config.id, (hP.connectGateRequest.faithful hid.isInt32 rfl).parse, hagent, hid.1, hid.2,
      hP.connectGateResponse.fits htexts (by decide), hup, hP.connectGateResponse.takes htexts _⟩

/-- The game server knows the gate when it gets a message that is not the answer of the gate. -/
theorem gateConn (h : LinksFit P config n c) (hup : c.game.gateUp = true) {packet : Packet} {rest : List Packet}
    (hqueue : c.gate.toGame = packet :: rest) (hmsg : packet.msgId ≠ MsgId.gt2gsConnectGateResponse) :
    c.game.gateConn = true := by
  by_contra hconn
  rcases h.gateLink.ready hup (Bool.eq_false_iff.2 hconn) with ⟨-, hempty⟩ | ⟨first, rest', hqueue', hmsg'⟩
  · rw [hempty] at hqueue
    cases hqueue
  · rw [hqueue] at hqueue'
    cases hqueue'
    exact hmsg hmsg'

/-- A message that fits a packet goes on to the db server, if the db server is there. -/
theorem reachesDB (h : LinksFit P config n c) (hconn : c.game.dbConn = true) {msgId : MsgId} {data : List Byte}
    (htakes : sendTakes msgId (short data) = true) : c.game.ReachesDB msgId data :=
  ⟨hconn, h.dbLink.known hconn, htakes⟩

theorem takes_enterGame (hP : P.Standard) (hn : defaultClientStartId + n ≤ 2 ^ 31) (h : LinksFit P config n c)
    {packet : Packet} {rest : List Packet} (hup : c.game.gateUp = true) (hqueue : c.gate.toGame = packet :: rest)
    (stale : BitVec 32) (hmsg : packet.msgId = MsgId.gt2gsEnterGameRequest) :
    ConnGateHandler.TakesEnterGame P c.game (packet.info stale 0) := by
  obtain ⟨-, roleId, -, -, -, hdata⟩ := (h.agreement.gate.queue packet (hqueue ▸ List.mem_cons_self)).enter hmsg
  obtain ⟨hpos, -⟩ := h.agreement.enterGame_index hn stale hup hqueue hmsg
  have hconn := h.gateConn hup hqueue (by rw [hmsg]; decide)
  have htexts : texts () = 0 := rfl
  have hfits : P.s2cEnterGameResponse.Fits maxUserData () := hP.s2cEnterGameResponse.fits htexts (by decide)
  have hread : P.enterGameRequest.parse packet.data = some roleId := by
    rw [hdata]
    exact (hP.enterGameRequest.faithful trivial rfl).short
  exact ⟨roleId, hread, hpos, hfits.mono (by decide), ⟨hconn, hup, hfits.userTakes _ _⟩,
    ⟨hconn, hup, hfits.userTakes _ _⟩⟩

theorem takes_chat (hP : P.Standard) {s : Game} (hup : s.gateUp = true) {info : JmyMsgInfo}
    (h : ∃ request ∈ P.chatRequest.parse info.data, s.ExpectsChat P info.userId request) :
    ConnGateHandler.TakesChat P s info := by
  obtain ⟨request, hparse, hchat⟩ := h
  refine ⟨hup, request, hparse, ?_⟩
  unfold Game.ExpectsChat at hchat
  split_ifs at hchat with hcommand
  · obtain ⟨rest, hrest⟩ := hcommand
    have hparsed : GmManager.parseCommand request.content = some (GmManager.gm :: List.splitOn 32 rest) :=
      GmManager.parseCommand_eq_some_iff.2 ⟨rest, by rw [← hrest, List.append_assoc]; rfl, rfl⟩
    exact Or.inl (by rw [hparsed]; rfl)
  · have htexts : texts (⟨[], request.chatType, request.channel, 0⟩ : MsgChat) = 0 := rfl
    exact Or.inr ⟨hchat.mono (by decide), hchat.userTakes _ _, fun _ _ => hP.chatNotify.fits htexts (by decide)⟩

/-- The game server takes what the gate sends, if what the user asks for can be done. -/
theorem game_takes (hP : P.Standard) (hn : defaultClientStartId + n ≤ 2 ^ 31) (hpos : 0 < n)
    (h : LinksFit P config n c) {packet : Packet} {rest : List Packet} (hup : c.game.gateUp = true)
    (hqueue : c.gate.toGame = packet :: rest) (stale : BitVec 32)
    (hexpects : c.game.Expects P (packet.info stale 0)) : ConnGateHandler.Takes P c.game (packet.info stale 0) := by
  have hpacket := h.agreement.gate.queue packet (hqueue ▸ List.mem_cons_self)
  unfold ConnGateHandler.Takes
  split_ifs with hconnect hget hcreate henter hleave hchat hset
  · refine ⟨hup, ⟨n, defaultClientStartId⟩, ?_, Int.natCast_pos.2 (by decide : 0 < 100000), ?_⟩
    · rw [show (packet.info stale 0).data = _ from hpacket.connect hconnect]
      exact (connect_faithful hP hn).short
    · exact Int.natCast_pos.2 hpos
  all_goals unfold Game.Expects at hexpects
  · rw [if_pos hget] at hexpects
    obtain ⟨hconn, account, hparse, hfits⟩ := hexpects
    exact ⟨account, hparse, hfits.mono (by decide), h.reachesDB hconn (hfits.takes _)⟩
  · rw [if_neg hget, if_pos hcreate] at hexpects
    obtain ⟨hconn, request, hparse, hfits⟩ := hexpects
    exact ⟨request, hparse, hfits.mono (by decide), h.reachesDB hconn (hfits.takes _)⟩
  · exact takes_enterGame hP hn h hup hqueue stale henter
  · rw [if_neg hget, if_neg hcreate, if_pos hleave] at hexpects
    refine ⟨0, ?_, Option.isSome_iff_exists.1 hexpects⟩
    rw [show (packet.info stale 0).data = _ from hpacket.leave hleave]
    exact (leave_faithful hP).short
  · rw [if_neg hget, if_neg hcreate, if_neg hleave, if_pos hchat] at hexpects
    exact takes_chat hP hup hexpects
  · rw [if_neg hget, if_neg hcreate, if_neg hleave, if_neg hchat, if_pos hset] at hexpects
    obtain ⟨hconn, hparse⟩ := hexpects
    obtain ⟨d, hd⟩ := Option.isSome_iff_exists.1 hparse
    have htexts : texts (ConnGateHandler.setRole c.game (packet.info stale 0) d) = 0 := rfl
    exact ⟨d, hd, hP.gs2dsSetRoleDataRequest.fits htexts (by decide),
      h.reachesDB hconn (hP.gs2dsSetRoleDataRequest.takes htexts _)⟩

/-- The parameters of a command are there. -/
theorem chat_defined {s : Game} (hup : s.gateUp = true) {info : JmyMsgInfo}
    (h : ∃ request ∈ P.chatRequest.parse info.data, s.ExpectsChat P info.userId request) :
    ∃ r, ConnGateHandler.processChat P config s info = some r := by
  obtain ⟨request, hparse, hchat⟩ := h
  unfold ConnGateHandler.processChat
  rw [if_neg (by rw [hup]; decide), hparse]
  dsimp only
  split
  · rename_i results hresults
    obtain ⟨rest, hrest, rfl⟩ := GmManager.parseCommand_eq_some_iff.1 hresults
    split
    · exact ⟨_, rfl⟩
    · rename_i obj hobj
      unfold Game.ExpectsChat at hchat
      rw [if_pos ⟨rest, by rw [hrest, List.append_assoc]; rfl⟩, hobj, hrest] at hchat
      have hdone := (GmManager.executeCommand_ne_none_iff P config s (s.mgr.objs obj).roleId rest).2 (hchat rfl)
      obtain ⟨done, hdone⟩ := Option.ne_none_iff_exists'.1 hdone
      rw [hdone]
      exact ⟨_, rfl⟩
  · exact ⟨_, rfl⟩

/-- The handler comes to its end. -/
theorem game_defined {s : Game} (hup : s.gateUp = true) {info : JmyMsgInfo} (hexpects : s.Expects P info) :
    ∃ r, ConnGateHandler.handle P config s info = some r := by
  unfold ConnGateHandler.handle ConnGateHandler.processDefault
  split_ifs with _ hget hcreate _ hleave hchat _
  · exact ⟨_, rfl⟩
  · exact ⟨_, rfl⟩
  · exact ⟨_, rfl⟩
  · exact ⟨_, rfl⟩
  · exact ⟨_, rfl⟩
  · unfold Game.Expects at hexpects
    rw [if_neg hget, if_neg hcreate, if_neg hleave, if_pos hchat] at hexpects
    exact chat_defined hup hexpects
  · exact ⟨_, rfl⟩
  · exact ⟨_, rfl⟩

/-- The db server takes what the game server sends, if the record and the database that it needs are there. -/
theorem db_takes (hP : P.Standard) (hid : config.InRange) (h : LinksFit P config n c) {packet : Packet}
    {rest : List Packet} (hup : c.db.gameUp = true) (hqueue : c.game.toDB = packet :: rest) {selected : Bool}
    {time : ℕ} (stale : BitVec 32) (hexpects : c.db.Expects P selected time (packet.info stale c.db.connId)) :
    DbGameHandler.Takes P c.db selected time (packet.info stale c.db.connId) := by
  have hreaches : ∀ {α : Type} {codec : Codec α} {m : α}, codec.Fits maxData m → ∀ msgId,
      DbGameHandler.Reaches c.db msgId (codec.serialize m) := by
    intro α codec m hfits msgId
    have htakes := hfits.takes msgId
    have hlen : (codec.serialize m).length ≤ maxData := hfits
    rw [short_of_lt (hlen.trans_lt (by decide))] at htakes
    exact ⟨hup, htakes⟩
  rcases h.dbLink.queue hup with ⟨hagent, hall⟩ | ⟨hagent, rest', hfirst, -⟩
  · have hreads := hall packet (hqueue ▸ List.mem_cons_self)
    have hhas : c.db.hasAgent c.db.connId = true := by simp [DB.hasAgent, hagent]
    unfold DbReads at hreads
    unfold DB.Expects at hexpects
    unfold DbGameHandler.Takes
    change if packet.msgId = _ then _ else if packet.msgId = _ then _ else if packet.msgId = _ then _ else
      if packet.msgId = _ then _ else if packet.msgId = _ then _ else _
    change if packet.msgId = _ then _ else if packet.msgId = _ then _ else if packet.msgId = _ then _ else
      if packet.msgId = _ then _ else _ at hexpects
    split_ifs at hreads hexpects ⊢
    · obtain ⟨account, hparse⟩ := Option.isSome_iff_exists.1 hreads
      obtain ⟨hselected, hfits⟩ := hexpects account hparse
      refine ⟨account, hparse, ?_⟩
      cases hrec : c.db.table.getByKey2 account with
      | none => exact hselected hrec
      | some r =>
          have hrole := hfits r hrec
          exact ⟨hhas, hrole.mono (by decide), hreaches hrole _⟩
    · obtain ⟨request, hparse⟩ := Option.isSome_iff_exists.1 hreads
      refine ⟨hup, request, hparse, ?_⟩
      cases hrec : c.db.table.getByKey2 request.account with
      | some r => exact Or.inl rfl
      | none =>
          have hfits := hexpects request hparse hrec
          exact Or.inr ⟨Or.inr h.dbLink.bounded.fresh.1, hfits.mono (by decide), (hreaches hfits _).2⟩
    · obtain ⟨request, hparse⟩ := Option.isSome_iff_exists.1 hreads
      obtain ⟨r, hr⟩ := Option.isSome_iff_exists.1 (hexpects request hparse)
      have htexts : texts (DbGameHandler.changedRole request) = 0 := rfl
      exact ⟨hup, request, hparse, r, hr, hP.ds2gsSetRoleDataResponse.fits htexts (by decide),
        hreaches (hP.ds2gsSetRoleDataResponse.fits htexts (by decide)) _⟩
    · obtain ⟨request, hparse⟩ := Option.isSome_iff_exists.1 hreads
      obtain ⟨r, hr⟩ := Option.isSome_iff_exists.1 (hexpects request hparse)
      have htexts : texts request = 0 := rfl
      exact ⟨hup, request, hparse, r, hr, hP.addItemResponse.fits htexts (by decide),
        hreaches (hP.addItemResponse.fits htexts (by decide)) _⟩
  · rw [hqueue] at hfirst
    cases hfirst
    have htexts : texts () = 0 := rfl
    have hhas : c.db.hasAgent c.db.connId = false := by simp [DB.hasAgent, hagent]
    exact ⟨hhas, config.id, (hP.connectDBRequest.faithful hid.isInt32 rfl).parse, hid,
      hP.connectDBResponse.fits htexts (by decide), hreaches (hP.connectDBResponse.fits htexts (by decide)) _⟩

/-- A regular step keeps the links. -/
theorem keeps (hP : P.Standard) (hid : config.InRange) (hpos : 0 < n) (hn : defaultClientStartId + n ≤ 2 ^ 31)
    (h : LinksFit P config n c) {e : ClusterEvent} (hregular : c.Regular P e) : c.KeepsLinks P config e := by
  intro result hresult
  unfold Cluster.linkResult at hresult
  cases e with
  | gateToGame stale =>
      dsimp only at hresult
      split at hresult
      · cases hresult
      rename_i packet rest hqueue
      split_ifs at hresult with hdown
      · cases hresult
      obtain rfl := Option.some.inj hresult
      have hup := Bool.eq_true_of_not_eq_false hdown
      have hexpects := hregular hup packet (by rw [hqueue]; rfl)
      have hdefined : ∃ r, ConnGateHandler.handle P config c.game (packet.info stale 0) = some r :=
        game_defined hup hexpects
      obtain ⟨r, hr⟩ := hdefined
      have htakes := h.game_takes hP hn hpos hup hqueue stale hexpects
      exact ⟨r.1, by rw [Cluster.atGame, hr]; rfl, (ConnGateHandler.handle_nonneg hr).2 htakes⟩
  | gameToGate session stale =>
      dsimp only at hresult
      split at hresult
      · cases hresult
      rename_i packet rest hqueue
      split_ifs at hresult with hdown
      · cases hresult
      obtain rfl := Option.some.inj hresult
      have hup := Bool.eq_true_of_not_eq_false hdown
      have hexpects := hregular hup packet (by rw [hqueue]; rfl)
      exact ⟨_, rfl, GateGameHandler.handle_nonneg.2 (h.gate_takes hP hid hup hqueue stale hexpects)⟩
  | gameToDB selected time stale =>
      dsimp only at hresult
      split at hresult
      · cases hresult
      rename_i packet rest hqueue
      split_ifs at hresult with hdown
      · cases hresult
      obtain rfl := Option.some.inj hresult
      have hup := Bool.eq_true_of_not_eq_false hdown
      have hexpects := hregular hup packet (by rw [hqueue]; rfl)
      exact ⟨_, rfl, DbGameHandler.handle_nonneg.2 (h.db_takes hP hid hup hqueue stale hexpects)⟩
  | gate | linkGate | loseGate | loseGame | linkDB | loseDB | loseDBGame | dbToGame | select | update => cases hresult

end LinksFit

section decidable

variable (P : Protocol)

instance {α : Type} (codec : Codec α) (size : ℕ) : DecidablePred (codec.Fits size) :=
  fun _ => inferInstanceAs (Decidable (_ ≤ _))

instance : DecidablePred GmManager.Given := fun rest =>
  match h : GmManager.find (rest.takeWhile (· ≠ 32)) with
  | some .addItem | some .rmItem => decidable_of_iff (2 ≤ rest.count 32) (by rw [GmManager.Given, h])
  | some .levelUp => decidable_of_iff (1 ≤ rest.count 32) (by rw [GmManager.Given, h])
  | some .other | none => decidable_of_iff True (by rw [GmManager.Given, h])

instance (g : Gate) (info : JmyMsgInfo) : Decidable (g.Expects P info) :=
  inferInstanceAs (Decidable (ite _ _ _))

instance (s : Game) (userId : BitVec 32) (request : MsgChat) : Decidable (s.ExpectsChat P userId request) :=
  inferInstanceAs (Decidable (ite _ _ _))

instance (s : Game) (info : JmyMsgInfo) : Decidable (s.Expects P info) :=
  inferInstanceAs (Decidable (ite _ _ _))

instance (d : DB) (selected : Bool) (time : ℕ) (info : JmyMsgInfo) : Decidable (d.Expects P selected time info) :=
  inferInstanceAs (Decidable (ite _ _ _))

instance (c : Cluster) : ∀ e, Decidable (c.Regular P e)
  | .gateToGame _ | .gameToGate _ _ | .gameToDB _ _ _ => inferInstanceAs (Decidable (_ → ∀ packet ∈ _, _))
  | .gate e => inferInstanceAs (Decidable (ClientSpeaks (.gate e)))
  | .linkGate | .loseGate | .loseGame | .linkDB | .loseDB | .loseDBGame | .dbToGame _ | .select _ _ | .update =>
    inferInstanceAs (Decidable True)

end decidable

/-- A run whose steps are all regular keeps the links that all players share. -/
theorem shared_links_kept {P : Protocol} {config : GameConfig} {n : ℕ} {reads : ℕ → FreedReads} (hP : P.Standard)
    (hid : config.InRange) (hpos : 0 < n) (hn : defaultClientStartId + n ≤ 2 ^ 31) {es : List ClusterEvent}
    (hregular : (clusterMachine P config).Along (Cluster.Regular P) ((Cluster.start n).reading reads) es) :
    (clusterMachine P config).Along (Cluster.KeepsLinks P config) ((Cluster.start n).reading reads) es :=
  Machine.Along.of_invariant (I := LinksFit P config n) (fun _ _ _ h hregular hstep => h.step hP hn hregular hstep)
    (fun _ _ h hregular => h.keeps hP hid hpos hn hregular) (LinksFit.start P config n reads) hregular

/-- A client enters the game, says a word, gives a command and leaves. -/
def playRun : List ClusterEvent := linkRun ++ enterRun 1 [97] 7 ++ [
  .gateToGame 0, .gameToGate [] 0, .gameToGate [] 0,
  .gate (.client 0 [] 1 MsgId.c2sChatRequest (wire.chatRequest.serialize ⟨[104, 105], 0, 0, 0⟩)),
  .gateToGame 0, .gameToGate [] 0,
  .gate (.client 0 [] 1 MsgId.c2sChatRequest
    (wire.chatRequest.serialize ⟨GmManager.gm ++ [32, 108, 101, 118, 101, 108, 117, 112, 32, 49], 0, 0, 0⟩)),
  .gateToGame 0,
  .gate (.client 0 [] 1 MsgId.c2sLeaveGameRequest []), .gateToGame 0]

/-- The links are kept while the client plays, whatever the removals of the gate read. -/
theorem playRun_keeps_links :
    ((clusterMachine wire gameConfig).run ((Cluster.start 2).reading lostIds) playRun).isSome = true ∧
      (clusterMachine wire gameConfig).Along (Cluster.KeepsLinks wire gameConfig)
        ((Cluster.start 2).reading lostIds) playRun :=
  ⟨by decide +kernel,
    shared_links_kept wire_standard ⟨by decide, by decide⟩ (by decide) (by decide) (by decide +kernel)⟩

/-- A client gets its role, and leaves the game without having entered it. -/
def leaveRun : List ClusterEvent :=
  linkRun ++ (enterRun 1 [97] 7).dropLast ++ [.gate (.client 0 [] 1 MsgId.c2sLeaveGameRequest [])]

/-- The game server has no player for the user, and closes its connection to the gate. -/
theorem leaveGame_closes_link :
    (∃ c, (clusterMachine wire gameConfig).run ((Cluster.start 2).reading fun _ => .intact) leaveRun = some c ∧
      c.linkResult wire gameConfig (.gateToGame 0) = some (some (-1))) ∧
    ¬(clusterMachine wire gameConfig).Along (Cluster.KeepsLinks wire gameConfig)
      ((Cluster.start 2).reading fun _ => .intact) (leaveRun ++ [.gateToGame 0]) := by
  have hsees : ((clusterMachine wire gameConfig).run ((Cluster.start 2).reading fun _ => .intact) leaveRun).map
      (fun c => c.linkResult wire gameConfig (.gateToGame 0)) = some (some (some (-1))) := by decide +kernel
  obtain ⟨c, hc, hresult⟩ := Option.map_eq_some_iff.1 hsees
  refine ⟨⟨c, hc, hresult⟩, ?_⟩
  intro hkept
  obtain ⟨r, hr, hnonneg⟩ := (hkept.rest hc).1 (some (-1)) hresult
  cases hr
  exact absurd hnonneg (by decide)

end JmyGame
