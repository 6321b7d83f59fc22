import JmyGame.ClusterLinks
import JmyGame.ClusterRoles
import JmyGame.CommonSends
import JmyGame.CommonStandard

/-! What is on the links between the servers: a message that one server sends on its own is read at the other end, and
the messages with which two servers make each other known come before the others. -/

namespace JmyGame

open CArith ProtoMessage

/-- The longest message that a packet takes, without and with a user id. -/
def maxData : ℕ := 65530

def maxUserData : ℕ := 65526

/-- A length of `JMY_MAX_MSG_SIZE` is 0 as an `unsigned short`. -/
theorem short_cases {data : List Byte} (h : data.length ≤ maxMsgSize) :
    short data = data ∧ data.length < 2 ^ 16 ∨ short data = [] := by
  have hmax : maxMsgSize = 2 ^ 16 := rfl
  rcases Nat.lt_or_ge data.length (2 ^ 16) with hlt | hge
  · exact Or.inl ⟨short_of_lt hlt, hlt⟩
  · refine Or.inr ?_
    have heq : data.length = 2 ^ 16 := by omega
    rw [short, heq, Nat.mod_self, List.take_zero]

section sizes

variable {α : Type} {codec : Codec α} {m : α}

theorem Codec.Fits.mono {size size' : ℕ} (h : codec.Fits size m) (hsize : size ≤ size') : codec.Fits size' m :=
  Nat.le_trans h hsize

theorem Codec.Fits.takes (h : codec.Fits maxData m) (msgId : MsgId) :
    sendTakes msgId (short (codec.serialize m)) = true := by
  have hmax : maxData = 65530 := rfl
  have hlen : (codec.serialize m).length ≤ maxData := h
  rw [short_of_lt (by omega), sendTakes_iff (by omega)]
  omega

theorem Codec.Fits.userTakes (h : codec.Fits maxUserData m) (userId : BitVec 32) (msgId : MsgId) :
    sendUserTakes userId msgId (short (codec.serialize m)) = true := by
  have hmax : maxUserData = 65526 := rfl
  have hlen : (codec.serialize m).length ≤ maxUserData := h
  rw [short_of_lt (by omega), sendUserTakes_iff (by omega)]
  omega

variable [ProtoMessage α]

/-- A message without texts is small. -/
theorem Codec.Standard.fits (h : codec.Standard) (htexts : texts m = 0) {size : ℕ} (hsize : 256 ≤ size) :
    codec.Fits size m := by
  have hlen := h.length m
  rw [htexts, Nat.add_zero] at hlen
  exact hlen.trans hsize

/-- A message that is cut short is read as the message, or as one without texts. -/
theorem Codec.Standard.parse_short (h : codec.Standard) (hm : Valid m) {size : ℕ} (hsize : size ≤ maxMsgSize)
    {tmp : List Byte} (htmp : codec.serializeToArray size m = some tmp) :
    codec.parse (short tmp) = some m ∧ short tmp = codec.serialize m ∨
      ∃ m', codec.parse (short tmp) = some m' ∧ texts m' = 0 := by
  obtain ⟨hlen, heq⟩ := Option.ite_none_right_eq_some.1 htmp
  rw [← Option.some.inj heq]
  rcases short_cases (hlen.trans hsize) with ⟨hshort, hlt⟩ | hnil
  · rw [hshort]
    exact Or.inl ⟨h.roundTrip m hm (hlt.trans (by decide)), rfl⟩
  · rw [hnil]
    exact Or.inr h.empty

theorem Codec.Standard.parse_short_isSome (h : codec.Standard) (hm : Valid m) {size : ℕ} (hsize : size ≤ maxMsgSize)
    {tmp : List Byte} (htmp : codec.serializeToArray size m = some tmp) : (codec.parse (short tmp)).isSome = true := by
  rcases h.parse_short hm hsize htmp with ⟨hparse, -⟩ | ⟨m', hparse, -⟩
  · rw [hparse]
    rfl
  · rw [hparse]
    rfl

/-- A message in the ranges of its fields that is small comes back. -/
theorem Codec.Standard.faithful (h : codec.Standard) (hm : Valid m) (htexts : texts m = 0) : codec.Faithful m := by
  have hlen : (codec.serialize m).length ≤ 256 := h.fits htexts (le_refl 256)
  exact ⟨by omega, h.roundTrip m hm (by omega)⟩

end sizes

/-- The gate can read the packet of the game server, and what it tells a client for it fits a packet. -/
def GateReads (P : Protocol) (packet : Packet) : Prop :=
  packet.data.length ≤ maxData ∧
    if packet.msgId = MsgId.gs2gtConnectGateRequest then False
    else if packet.msgId = MsgId.gs2gtGetRoleResponse then ∃ response,
      P.gs2gtGetRoleResponse.parse packet.data = some response ∧ P.gs2gtGetRoleResponse.Fits maxData response
    else if packet.msgId = MsgId.gs2gtCreateRoleResponse then ∃ response,
      P.gs2gtCreateRoleResponse.parse packet.data = some response ∧
        P.s2cCreateRoleResponse.Fits maxData (GateGameHandler.createdRole response)
    else True

/-- The db server can read the packet of the game server. -/
def DbReads (P : Protocol) (packet : Packet) : Prop :=
  if packet.msgId = MsgId.gs2dsConnectDBRequest then False
  else if packet.msgId = MsgId.gs2dsGetRoleRequest then (P.gs2dsGetRoleRequest.parse packet.data).isSome = true
  else if packet.msgId = MsgId.gs2dsCreateRoleRequest then (P.gs2dsCreateRoleRequest.parse packet.data).isSome = true
  else if packet.msgId = MsgId.gs2dsSetRoleDataRequest then (P.gs2dsSetRoleDataRequest.parse packet.data).isSome = true
  else if packet.msgId = MsgId.gs2dsAddItemRequest then (P.addItemRequest.parse packet.data).isSome = true
  else True

section

variable {P : Protocol} (hP : P.Standard)

include hP

/-- What the game server sends for messages of the gate can be read. -/
theorem says_reads : Says P (GateReads P) (DbReads P) where
  user msgId hmsg userId data htakes := by
    have hsize := (sendUserTakes_iff (length_short_lt data)).1 htakes
    refine ⟨hsize.trans (by decide), ?_⟩
    simp only [userMsgIds, List.mem_cons, List.not_mem_nil, or_false] at hmsg
    rcases hmsg with rfl | rfl | rfl | rfl <;> trivial
  getRole bs account _ hparse htmp :=
    hP.gs2dsGetRoleRequest.parse_short_isSome (hP.gt2gsGetRoleRequest.valid bs account hparse) le_rfl htmp
  createRole bs request _ hparse htmp :=
    hP.gs2dsCreateRoleRequest.parse_short_isSome (hP.gt2gsCreateRoleRequest.valid bs request hparse) le_rfl htmp
  setRoleData bs d _ _ hparse htmp :=
    hP.gs2dsSetRoleDataRequest.parse_short_isSome (hP.setRoleDataRequest.valid bs d hparse) le_rfl htmp
  addItem _ _ htmp := hP.addItemRequest.parse_short_isSome trivial (by decide) htmp
  rmItem _ := trivial

omit hP in
/-- The role that goes on to the gate is in the ranges of its fields. -/
theorem valid_passed {response : MsgRoleResponse} (h : Valid response) : Valid (ConnDBHandler.passed response) := by
  obtain ⟨haccount, hrace, hsex, -, -⟩ := h
  have hzero : IsInt32 0 := ⟨by decide, by decide⟩
  exact ⟨haccount, hrace, hsex, hzero, hzero⟩

/-- What the game server passes on from the db server can be read. -/
theorem handleDB_reads {G : Packet → Prop} (s : Game) (info : JmyMsgInfo) :
    s.Speaks (GateReads P) G (ConnDBHandler.handle P s info).2 := by
  apply ConnDBHandler.handle_speaks
  intro parser codec msgId hcodecs response tmp hparse htmp htakes
  have hsize := (sendTakes_iff (length_short_lt tmp)).1 htakes
  refine ⟨hsize, ?_⟩
  rcases hcodecs with ⟨-, rfl, rfl, rfl⟩ | ⟨-, rfl, rfl, rfl⟩
  · have hvalid := valid_passed (hP.ds2gsGetRoleResponse.valid _ _ hparse)
    rcases hP.gs2gtGetRoleResponse.parse_short hvalid le_rfl htmp with ⟨hread, hwhole⟩ | ⟨m, hread, htexts⟩
    · rw [hwhole] at hsize
      exact ⟨_, hread, hsize⟩
    · exact ⟨m, hread, hP.gs2gtGetRoleResponse.fits htexts (by decide)⟩
  · have hvalid := valid_passed (hP.ds2gsCreateRoleResponse.valid _ _ hparse)
    rcases hP.gs2gtCreateRoleResponse.parse_short hvalid le_rfl htmp with ⟨hread, hwhole⟩ | ⟨m, hread, htexts⟩
    · rw [hwhole] at hsize
      exact ⟨_, hread, (hP.created _ _).trans hsize⟩
    · have htexts' : texts (GateGameHandler.createdRole m) = 0 := Nat.eq_zero_of_add_eq_zero_left htexts
      exact ⟨m, hread, hP.s2cCreateRoleResponse.fits htexts' (by decide)⟩

end

/-- The messages with which the game server introduces itself. -/
def connectGatePacket (P : Protocol) (config : GameConfig) : Packet :=
  ⟨none, MsgId.gs2gtConnectGateRequest, P.connectGateRequest.serialize config.id⟩

def connectDBPacket (P : Protocol) (config : GameConfig) : Packet :=
  ⟨none, MsgId.gs2dsConnectDBRequest, P.connectDBRequest.serialize config.id⟩

/-- The game server introduces itself to a server, and after that its packets meet the predicate. -/
def Introduced (first : Packet) (F : Packet → Prop) (queue : List Packet) : Prop :=
  ∃ rest, queue = first :: rest ∧ ∀ packet ∈ rest, F packet

theorem Introduced.grows {first : Packet} {F : Packet → Prop} {queue queue' : List Packet}
    (h : Introduced first F queue) (hgrows : Grows F queue queue') : Introduced first F queue' := by
  obtain ⟨rest, rfl, hrest⟩ := h
  obtain ⟨new, rfl, hnew⟩ := hgrows
  exact ⟨rest ++ new, rfl, fun packet hmem => (List.mem_append.1 hmem).elim (hrest packet) (hnew packet)⟩

/-- What is sent to a new connection of a message without texts. -/
theorem Codec.Standard.sends {α : Type} [ProtoMessage α] {codec : Codec α} (h : codec.Standard) {m : α}
    (htexts : texts m = 0) (msgId : MsgId) : codec.serializeToArray maxMsgSize m = some (codec.serialize m) ∧
      sendTakes msgId (codec.serialize m) = true ∧ short (codec.serialize m) = codec.serialize m := by
  have hlen : (codec.serialize m).length ≤ 256 := h.fits htexts (le_refl 256)
  refine ⟨if_pos (hlen.trans (by decide)), ?_, short_of_lt (by omega)⟩
  rw [sendTakes_iff (by omega)]
  omega

section introduce

variable {P : Protocol} {config : GameConfig} {s : Game}

theorem ConnGateHandler.onConnect_eq (hP : P.Standard) (hup : s.gateUp = true) :
    (ConnGateHandler.onConnect P config s).2 = { s with toGate := s.toGate ++ [connectGatePacket P config] } := by
  have htexts : texts config.id = 0 := rfl
  obtain ⟨hfits, htakes, hshort⟩ := hP.connectGateRequest.sends htexts MsgId.gs2gtConnectGateRequest
  unfold ConnGateHandler.onConnect Game.gateConnSend
  simp only [hfits, hup, htakes, hshort, true_and, if_true]
  rw [if_neg (not_lt.2 (Int.natCast_nonneg _))]
  rfl

theorem ConnDBHandler.onConnect_eq (hP : P.Standard) (hup : s.dbUp = true) :
    (ConnDBHandler.onConnect P config s).2 = { s with toDB := s.toDB ++ [connectDBPacket P config] } := by
  have htexts : texts config.id = 0 := rfl
  obtain ⟨hfits, htakes, hshort⟩ := hP.connectDBRequest.sends htexts MsgId.gs2dsConnectDBRequest
  unfold ConnDBHandler.onConnect Game.dbConnSend
  simp only [hfits, hup, htakes, hshort, true_and, if_true]
  rw [if_neg (not_lt.2 (Int.natCast_nonneg _))]
  rfl

theorem Cluster.linkGate_game {c : Cluster} (hP : P.Standard) : (c.linkGate P config).game =
    { c.game with
      gateUp := true
      toGate := [connectGatePacket P config] } :=
  ConnGateHandler.onConnect_eq hP rfl

theorem Cluster.linkDB_game {c : Cluster} (hP : P.Standard) : (c.linkDB P config).game =
    { c.game with
      dbUp := true
      toDB := [connectDBPacket P config] } :=
  ConnDBHandler.onConnect_eq hP rfl

end introduce

/-- What happens at the gate leaves the agent of the game server alone. -/
theorem Gate.step_agent {P : Protocol} {g g' : Gate} {e : GateEvent} (h : ClientTables g.mgr)
    (hgame : ∀ session userId msgId data, e ≠ .game session userId msgId data) (hstep : g.step P e = some g') :
    g'.gameAgent = g.gameAgent := by
  cases e with
  | connect | session time account session =>
      cases hstep
      rfl
  | drop connId =>
      cases hstep
      exact (Calm.connForceClose (F := fun _ => True) g connId).agent
  | revive connId | release connId =>
      simp only [Gate.step, Option.ite_none_right_eq_some, Option.some.injEq] at hstep
      exact hstep.2 ▸ rfl
  | client time session connId msgId data =>
      simp only [Gate.step, Option.ite_none_right_eq_some, Option.some.injEq] at hstep
      obtain ⟨-, rfl⟩ := hstep
      have hmoves : Moves (fun _ => True) (fun _ _ => True) g (g.onClient P time session connId msgId data).2 :=
        .handleClient h (Carries.always P g msgId) fun _ _ _ _ _ _ _ _ => trivial
      exact (hmoves.trans (.calm (Calm.closeOnError (Calm.refl _)))).link.1
  | game session userId msgId data => exact absurd rfl (hgame session userId msgId data)

/-- The link between the gate and the game server. Until the gate knows the game server, the game server has introduced
itself and nothing else; until the game server knows the gate, nothing comes before the answer. -/
structure GateLinkFits (P : Protocol) (config : GameConfig) (c : Cluster) : Prop where
  ready : c.game.gateUp = true → c.game.gateConn = false → Opens c.gate
  queue : (∀ packet ∈ c.game.toGate, GateReads P packet) ∨
    c.gate.gameAgent = none ∧ Introduced (connectGatePacket P config) (GateReads P) c.game.toGate

namespace GateLinkFits

variable {P : Protocol} {config : GameConfig} {n : ℕ} {c c' : Cluster}

theorem start (P : Protocol) (config : GameConfig) (n : ℕ) (reads : ℕ → FreedReads) :
    GateLinkFits P config ((Cluster.start n).reading reads) :=
  ⟨fun h => Bool.noConfusion h, Or.inl fun _ h => absurd h List.not_mem_nil⟩

/-- A change that does not concern the link. -/
theorem congr (h : GateLinkFits P config c) (hgate : c'.gate = c.gate)
    (hup : c'.game.gateUp = true → c.game.gateUp = true)
    (hconn : c.game.gateConn = true → c'.game.gateConn = true ∨ c'.game.gateUp = false)
    (hsent : Grows (GateReads P) c.game.toGate c'.game.toGate) : GateLinkFits P config c' where
  ready hup' hconn' := by
    rw [hgate]
    refine h.ready (hup hup') (Bool.eq_false_iff.2 fun hknown => ?_)
    rcases hconn hknown with hstill | hdown
    · rw [hstill] at hconn'
      cases hconn'
    · rw [hdown] at hup'
      cases hup'
  queue := by
    rw [hgate]
    exact h.queue.imp (hsent.forall fun _ => id) (And.imp_right fun hfirst => hfirst.grows hsent)

/-- A step of the game server that keeps the link. -/
theorem speak (h : GateLinkFits P config c) {G : Packet → Prop} {s : Game} {d : DB}
    (hspeaks : c.game.Speaks (GateReads P) G s) : GateLinkFits P config { c with game := s, db := d } :=
  h.congr rfl (fun hup => hspeaks.link.gateUp.symm.trans hup) (fun hconn => Or.inl (hspeaks.link.gateConn hconn))
    hspeaks.sent

theorem processConnectGateResponse_conn {s : Game} {info : JmyMsgInfo}
    (h : 0 ≤ (ConnGateHandler.processConnectGateResponse P s info).1) :
    (ConnGateHandler.processConnectGateResponse P s info).2.gateConn = true := by
  have hneg : ¬(0 : ℤ) ≤ -1 := by decide
  unfold ConnGateHandler.processConnectGateResponse at h ⊢
  split_ifs at h ⊢
  · exact absurd h hneg
  split at h
  · exact absurd h hneg
  dsimp only at h ⊢
  split_ifs at h ⊢
  · exact absurd h hneg
  · rfl

/-- A packet of the gate at the game server. -/
theorem gateToGame (hP : P.Standard) (h : GateLinkFits P config c) {packet : Packet} {rest : List Packet}
    {stale : BitVec 32} {r : ℤ × Game} (hup : c.game.gateUp = true) (hqueue : c.gate.toGame = packet :: rest)
    (hr : c.atGame P config stale packet = some r) :
    GateLinkFits P config { c with gate := { c.gate with toGame := rest }, game := Game.closeGateOnError r } := by
  have hspeaks : c.game.Speaks (GateReads P) (DbReads P) r.2 := ConnGateHandler.handle_speaks (says_reads hP) hr
  refine ⟨fun hup' hconn' => ?_, ?_⟩
  · have hkept : 0 ≤ r.1 := by
      by_contra hneg
      rw [Game.closeGateOnError, if_pos (not_le.1 hneg)] at hup'
      cases hup'
    rw [Game.closeGateOnError, if_neg (not_lt.2 hkept)] at hconn'
    have hbefore : c.game.gateConn = false := by
      rw [Bool.eq_false_iff]
      intro hconn
      rw [hspeaks.link.gateConn hconn] at hconn'
      cases hconn'
    -- what comes first is the answer, which makes the gate known
    rcases h.ready hup hbefore with ⟨-, hempty⟩ | ⟨first, rest', hqueue', hmsg⟩
    · rw [hempty] at hqueue
      cases hqueue
    · rw [hqueue] at hqueue'
      cases hqueue'
      rw [Cluster.atGame, @handle_connectGateResponse P config c.game (packet.info stale 0) hmsg] at hr
      obtain rfl := Option.some.inj hr
      rw [processConnectGateResponse_conn hkept] at hconn'
      cases hconn'
  · have hsent := hspeaks.sent
    rw [← (ConnGateHandler.closeGateOnError_queues r).1] at hsent
    exact h.queue.imp (hsent.forall fun _ => id) (And.imp_right fun hfirst => hfirst.grows hsent)

theorem step (hP : P.Standard) (h : GateLinkFits P config c) (hagree : Agreement P n c) {e : ClusterEvent}
    (hclient : ClientSpeaks e) (hstep : c.step P config e = some c') : GateLinkFits P config c' := by
  cases e with
  | gate e =>
      obtain ⟨hgame, g, hg, rfl⟩ := Agreement.step_gate hstep
      have hmsg : ∀ time session connId msgId data, e = .client time session connId msgId data →
          msgId ∉ linkMsgIds := by
        rintro time session connId msgId data rfl
        exact hclient
      have hopens := (hagree.gate.event hgame hmsg hg).2
      have hagent := Gate.step_agent hagree.gate.tables hgame hg
      exact ⟨fun hup hconn => hopens (h.ready hup hconn), h.queue.imp_right (And.imp_left hagent.trans)⟩
  | linkGate =>
      simp only [Cluster.step, Option.ite_none_right_eq_some, Option.some.injEq] at hstep
      obtain ⟨-, rfl⟩ := hstep
      refine ⟨fun _ _ => Or.inl ⟨rfl, rfl⟩, Or.inr ⟨rfl, [], ?_, fun _ hmem => absurd hmem List.not_mem_nil⟩⟩
      rw [Cluster.linkGate_game hP]
  | loseGate =>
      cases hstep
      exact h.congr rfl (fun hup => Bool.noConfusion hup) (fun _ => Or.inr rfl) (.of_eq rfl)
  | loseGame =>
      cases hstep
      exact ⟨fun hup hconn => GateFits.opens_closeGame (h.ready hup hconn),
        h.queue.imp_right (And.imp_left fun _ => rfl)⟩
  | linkDB =>
      simp only [Cluster.step, Option.ite_none_right_eq_some, Option.some.injEq] at hstep
      obtain ⟨-, rfl⟩ := hstep
      refine h.congr rfl ?_ ?_ ?_
      · rw [Cluster.linkDB_game hP]
        exact id
      · rw [Cluster.linkDB_game hP]
        exact Or.inl
      · rw [Cluster.linkDB_game hP]
        exact .of_eq rfl
  | loseDB | loseDBGame | update =>
      cases hstep
      exact h.congr rfl id Or.inl (.of_eq rfl)
  | gateToGame stale =>
      obtain ⟨packet, rest, r, hqueue, hup, hr, rfl⟩ := Agreement.step_gateToGame hstep
      exact h.gateToGame hP hup hqueue hr
  | gameToGate session stale =>
      simp only [Cluster.step] at hstep
      split at hstep
      · cases hstep
      rename_i packet rest hqueue
      split_ifs at hstep
      obtain rfl := Option.some.inj hstep
      have hopens := (hagree.gate.handleGame session (packet.info stale 0)).2
      refine ⟨fun hup hconn => hopens (h.ready hup hconn), Or.inl ?_⟩
      rcases h.queue with hall | ⟨-, rest', hfirst, hall⟩
      · exact fun packet' hmem => hall packet' (hqueue ▸ List.mem_cons_of_mem _ hmem)
      · rw [hqueue] at hfirst
        cases hfirst
        exact hall
  | gameToDB selected time stale =>
      simp only [Cluster.step] at hstep
      split at hstep
      · cases hstep
      split_ifs at hstep
      obtain rfl := Option.some.inj hstep
      exact h.congr rfl id Or.inl (.of_eq rfl)
  | dbToGame stale =>
      simp only [Cluster.step] at hstep
      split at hstep
      · cases hstep
      rename_i packet rest hqueue
      split_ifs at hstep
      obtain rfl := Option.some.inj hstep
      have hspeaks : c.game.Speaks (GateReads P) (fun _ => True) _ := handleDB_reads hP c.game (packet.info stale 0)
      unfold Game.closeDBOnError
      split_ifs
      · exact (h.speak (d := { c.db with toGame := rest }) hspeaks).congr rfl id Or.inl (.of_eq rfl)
      · exact h.speak hspeaks
  | select i result =>
      simp only [Cluster.step] at hstep
      split at hstep
      · cases hstep
      obtain rfl := Option.some.inj hstep
      exact h.congr rfl id Or.inl (.of_eq rfl)

end GateLinkFits

/-- The link between the game server and the db server. While it is up, the db server has an agent of the game server,
or the game server has introduced itself. -/
structure DbLinkFits (P : Protocol) (config : GameConfig) (c : Cluster) : Prop where
  bounded : c.db.table.Bounded
  known : c.game.dbConn = true → c.game.dbUp = true
  queue : c.db.gameUp = true → c.db.agent.isSome = true ∧ (∀ packet ∈ c.game.toDB, DbReads P packet) ∨
    c.db.agent = none ∧ Introduced (connectDBPacket P config) (DbReads P) c.game.toDB

namespace DbLinkFits

variable {P : Protocol} {config : GameConfig} {c c' : Cluster}

theorem start (P : Protocol) (config : GameConfig) (n : ℕ) (reads : ℕ → FreedReads) :
    DbLinkFits P config ((Cluster.start n).reading reads) :=
  ⟨PlayerTable.bounded_empty, fun h => Bool.noConfusion h, fun h => Bool.noConfusion h⟩

/-- A change that does not concern the db server. -/
theorem congr (h : DbLinkFits P config c) (hdb : c'.db = c.db) (hknown : c'.game.dbConn = true → c'.game.dbUp = true)
    (hasked : Grows (DbReads P) c.game.toDB c'.game.toDB) : DbLinkFits P config c' where
  bounded := hdb ▸ h.bounded
  known := hknown
  queue := by
    rw [hdb]
    exact fun hup => (h.queue hup).imp (And.imp_right (hasked.forall fun _ => id))
      (And.imp_right fun hfirst => hfirst.grows hasked)

/-- A step of the game server. -/
theorem speak (h : DbLinkFits P config c) {F : Packet → Prop} {s : Game} {g : Gate}
    (hspeaks : c.game.Speaks F (DbReads P) s) : DbLinkFits P config { c with game := s, gate := g } := by
  refine h.congr rfl (fun hconn => ?_) hspeaks.asked
  exact (hspeaks.link.dbConn hconn).elim (fun hconn' => hspeaks.link.dbUp.trans (h.known hconn')) id

/-- A step of the db server that does not concern the link. -/
theorem serve (h : DbLinkFits P config c) {d : DB} (hbounded : d.table.Bounded) (hup : d.gameUp = c.db.gameUp)
    (hagent : d.agent = c.db.agent) : DbLinkFits P config { c with db := d } where
  bounded := hbounded
  known := h.known
  queue := by
    rw [hup, hagent]
    exact h.queue

theorem processConnectDBRequest_agent {d : DB} {info : JmyMsgInfo}
    (h : 0 ≤ (DbGameHandler.processConnectDBRequest P d info).1) :
    (DbGameHandler.processConnectDBRequest P d info).2.agent.isSome = true := by
  have hneg : ¬(0 : ℤ) ≤ -1 := by decide
  have hsend : ∀ (d : DB) msgId data, (d.agentSend msgId data).2.agent = d.agent := by
    intro d msgId data
    unfold DB.agentSend DB.gameConnSend
    split_ifs <;> rfl
  unfold DbGameHandler.processConnectDBRequest at h ⊢
  split_ifs at h ⊢
  · exact absurd h hneg
  cases hparse : P.connectDBRequest.parse info.data with
  | none =>
      rw [hparse] at h
      exact absurd h hneg
  | some gameId =>
      rw [hparse] at h
      dsimp only at h ⊢
      by_cases hrange : gameId < gameServerMinId ∨ gameServerMaxId < gameId
      · rw [DB.newAgent, if_pos hrange, if_pos rfl] at h
        exact absurd h hneg
      · rw [DB.newAgent, if_neg hrange] at h ⊢
        simp only [Bool.true_eq_false, if_false] at h ⊢
        cases hfits : P.connectDBResponse.serializeToArray maxMsgSize () with
        | none =>
            rw [hfits] at h
            exact absurd h hneg
        | some tmp =>
            dsimp only
            split_ifs
            · exact congrArg Option.isSome (hsend _ _ _)
            · exact congrArg Option.isSome (hsend _ _ _)

/-- A packet of the game server at the db server. -/
theorem gameToDB (h : DbLinkFits P config c) {packet : Packet} {rest : List Packet} {selected : Bool} {time : ℕ}
    {stale : BitVec 32} (hup : c.db.gameUp = true) (hqueue : c.game.toDB = packet :: rest) :
    DbLinkFits P config { c with
      game := { c.game with toDB := rest }
      db := DB.closeGameOnError (c.atDB P selected time stale packet) } := by
  have hkept : (c.atDB P selected time stale packet).2.table.Bounded ∧
      c.db.StaysLinked (c.atDB P selected time stale packet).2 := DbGameHandler.handle_kept h.bounded
  obtain ⟨hbounded, hlink⟩ := hkept
  by_cases hneg : (c.atDB P selected time stale packet).1 < 0
  · rw [DB.closeGameOnError, if_pos hneg]
    exact ⟨hbounded, h.known, fun hup' => Bool.noConfusion hup'⟩
  rw [DB.closeGameOnError, if_neg hneg]
  refine ⟨hbounded, h.known, fun _ => Or.inl ?_⟩
  rcases h.queue hup with ⟨hagent, hall⟩ | ⟨-, rest', hfirst, hall⟩
  · exact ⟨hlink.agent hagent, fun packet' hmem => hall packet' (hqueue ▸ List.mem_cons_of_mem _ hmem)⟩
  · rw [hqueue] at hfirst
    cases hfirst
    exact ⟨processConnectDBRequest_agent (not_lt.1 hneg), hall⟩

theorem step (hP : P.Standard) (h : DbLinkFits P config c) {e : ClusterEvent} (hstep : c.step P config e = some c') :
    DbLinkFits P config c' := by
  cases e with
  | gate e =>
      obtain ⟨-, g, -, rfl⟩ := Agreement.step_gate hstep
      exact h.congr rfl h.known (.of_eq rfl)
  | linkGate =>
      simp only [Cluster.step, Option.ite_none_right_eq_some, Option.some.injEq] at hstep
      obtain ⟨-, rfl⟩ := hstep
      refine h.congr rfl ?_ ?_
      · rw [Cluster.linkGate_game hP]
        exact h.known
      · rw [Cluster.linkGate_game hP]
        exact .of_eq rfl
  | loseGate | loseGame =>
      cases hstep
      exact h.congr rfl h.known (.of_eq rfl)
  | linkDB =>
      simp only [Cluster.step, Option.ite_none_right_eq_some, Option.some.injEq] at hstep
      obtain ⟨-, rfl⟩ := hstep
      refine ⟨h.bounded, fun _ => ?_, fun _ => Or.inr ⟨rfl, [], ?_, fun _ hmem => absurd hmem List.not_mem_nil⟩⟩
      · rw [Cluster.linkDB_game hP]
      · rw [Cluster.linkDB_game hP]
  | loseDB =>
      cases hstep
      exact h.congr rfl (fun hconn => Bool.noConfusion hconn) (.of_eq rfl)
  | loseDBGame =>
      cases hstep
      exact ⟨h.bounded, h.known, fun hup => Bool.noConfusion hup⟩
  | gateToGame stale =>
      obtain ⟨packet, rest, r, -, -, hr, rfl⟩ := Agreement.step_gateToGame hstep
      have hspeaks : c.game.Speaks (GateReads P) (DbReads P) r.2 := ConnGateHandler.handle_speaks (says_reads hP) hr
      have hfits := h.speak (g := { c.gate with toGame := rest }) hspeaks
      unfold Game.closeGateOnError
      split_ifs
      · exact hfits.congr rfl hfits.known (.of_eq rfl)
      · exact hfits
  | gameToGate session stale =>
      simp only [Cluster.step] at hstep
      split at hstep
      · cases hstep
      split_ifs at hstep
      obtain rfl := Option.some.inj hstep
      exact h.congr rfl h.known (.of_eq rfl)
  | gameToDB selected time stale =>
      simp only [Cluster.step] at hstep
      split at hstep
      · cases hstep
      rename_i packet rest hqueue
      split_ifs at hstep with hup
      obtain rfl := Option.some.inj hstep
      exact h.gameToDB (Bool.eq_true_of_not_eq_false hup) hqueue
  | dbToGame stale =>
      simp only [Cluster.step] at hstep
      split at hstep
      · cases hstep
      rename_i packet rest hqueue
      split_ifs at hstep
      obtain rfl := Option.some.inj hstep
      have hspeaks : c.game.Speaks (fun _ => True) (DbReads P)
          (ConnDBHandler.handle P c.game (packet.info stale 0)).2 :=
        ConnDBHandler.handle_speaks fun _ _ _ _ _ _ _ _ _ => trivial
      have hfits := h.speak (g := c.gate) hspeaks
      unfold Game.closeDBOnError
      split_ifs
      · exact ⟨hfits.bounded, fun hconn => Bool.noConfusion hconn, hfits.queue⟩
      · exact ⟨hfits.bounded, hfits.known, hfits.queue⟩
  | select i result =>
      simp only [Cluster.step] at hstep
      split at hstep
      · cases hstep
      rename_i account connId _
      obtain rfl := Option.some.inj hstep
      let d := { c.db with selecting := c.db.selecting.eraseIdx i }
      have hbounded : d.table.Bounded := h.bounded
      obtain ⟨hup, hagent⟩ := DbGameHandler.onSelect_link (P := P) hbounded account connId result
      exact h.serve (DbGameHandler.onSelect_bounded hbounded account connId result) hup hagent
  | update =>
      cases hstep
      exact ⟨⟨h.bounded.key, h.bounded.key2, fun _ hne => absurd rfl hne⟩, h.known, h.queue⟩

end DbLinkFits

end JmyGame
