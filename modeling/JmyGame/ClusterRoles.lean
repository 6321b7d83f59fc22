import JmyGame.ClusterPlayers
import JmyGame.DbServer
import JmyGame.GateLogins
import JmyGame.GateRoles
import JmyGame.GameQueues
import JmyGame.CommonWire

/-! The role of an account, from the records of the db server through the game server to the gate. A role that the gate
gets for an account is one that a record has with this account, on every way and however the messages are cut, and a
client enters the game with a role that a record has with the account of the client. -/

namespace JmyGame

open CArith

namespace PlayerTable

/-- A record that was made or read has the account and the role. -/
def HasRole (t : PlayerTable) (account : Str) (roleId : BitVec 64) : Prop :=
  ∃ r < t.next, (t.recs r).account = account ∧ (t.recs r).roleId = roleId

/-- A response without a role, or with the role of a record of its account. -/
def Owned (t : PlayerTable) (m : MsgRoleResponse) : Prop :=
  m.roleData.roleId = 0 ∨ t.HasRole m.account m.roleData.roleId

/-- The roles of the one table are in the other one. -/
def Includes (t' t : PlayerTable) : Prop := ∀ account roleId, t.HasRole account roleId → t'.HasRole account roleId

variable {t t' t'' : PlayerTable} {isFor : Str → Prop} {account : Str} {row : TPlayer}

theorem Includes.refl (t : PlayerTable) : t.Includes t := fun _ _ => id

theorem Includes.trans (h : t'.Includes t) (h' : t''.Includes t') : t''.Includes t :=
  fun account roleId hrole => h' account roleId (h account roleId hrole)

theorem Owned.mono {m : MsgRoleResponse} (h : t.Owned m) (hincludes : t'.Includes t) : t'.Owned m :=
  h.imp id (hincludes _ _)

/-- A table with a new record. -/
theorem includes_update (hrecs : t'.recs = Function.update t.recs t.next row) (hnext : t'.next = t.next + 1) :
    t'.Includes t ∧ t'.HasRole row.account row.roleId := by
  constructor
  · rintro account roleId ⟨r, hr, hkeys⟩
    refine ⟨r, by omega, ?_⟩
    rw [hrecs, Function.update_of_ne hr.ne]
    exact hkeys
  · refine ⟨t.next, by omega, ?_⟩
    rw [hrecs, Function.update_self]
    exact ⟨rfl, rfl⟩

theorem Move.includes (hmove : t.Move isFor t') (h : t.Bounded) : t'.Includes t := by
  cases hmove with
  | same => exact Includes.refl t
  | created roleId account f hfor hnone hf =>
      obtain ⟨-, -, hrecs, -, hnext⟩ := created_kept h roleId account f
      exact (includes_update hrecs hnext).1
  | changed s f hs hf =>
      obtain ⟨-, -, hrecs, hnext⟩ := changed_kept t s f
      rintro account roleId ⟨r, hr, rfl, rfl⟩
      refine ⟨r, by omega, ?_⟩
      rw [hrecs]
      by_cases hrs : r = s
      · rw [hrs, Function.update_self]
        exact hf _
      · rw [Function.update_of_ne hrs]
        exact ⟨rfl, rfl⟩

end PlayerTable

/-- The codec of a message that carries a role between the servers. -/
def Protocol.roleResponse (P : Protocol) (msgId : MsgId) : Option (Codec MsgRoleResponse) :=
  if msgId = MsgId.ds2gsGetRoleResponse then some P.ds2gsGetRoleResponse
  else if msgId = MsgId.ds2gsCreateRoleResponse then some P.ds2gsCreateRoleResponse
  else if msgId = MsgId.gs2gtGetRoleResponse then some P.gs2gtGetRoleResponse
  else if msgId = MsgId.gs2gtCreateRoleResponse then some P.gs2gtCreateRoleResponse
  else none

/-- The first bytes of a response are not read, or they are read without a role or as the role of its account. -/
structure Protocol.CarriesRoles (P : Protocol) : Prop where
  take : ∀ msgId codec, P.roleResponse msgId = some codec → ∀ (m m' : MsgRoleResponse) (k : ℕ),
    (codec.serialize m).length ≤ DBResCBFuncs.tmpSize → codec.parse ((codec.serialize m).take k) = some m' →
      m'.roleData.roleId = 0 ∨ m'.account = m.account ∧ m'.roleData.roleId = m.roleData.roleId

theorem wire_carriesRoles : wire.CarriesRoles := by
  constructor
  intro msgId codec hcodec m m' k hlen hparse
  have hwire : codec = Wire.roleResponse := by
    unfold Protocol.roleResponse at hcodec
    split_ifs at hcodec
    · exact (Option.some.inj hcodec).symm
    · exact (Option.some.inj hcodec).symm
    · exact (Option.some.inj hcodec).symm
    · exact (Option.some.inj hcodec).symm
  rw [hwire] at hlen hparse
  exact Wire.roleResponse_take (hlen.trans_lt (by decide)) hparse

/-- What is read of the packet has no role, or the role of a record. -/
def Packet.Tells (P : Protocol) (t : PlayerTable) (packet : Packet) : Prop :=
  ∀ codec, P.roleResponse packet.msgId = some codec → ∀ m, codec.parse packet.data = some m → t.Owned m

section queues

variable {P : Protocol} {t t' : PlayerTable}

theorem Packet.Tells.mono {packet : Packet} (h : packet.Tells P t) (hincludes : t'.Includes t) : packet.Tells P t' :=
  fun codec hcodec m hparse => (h codec hcodec m hparse).mono hincludes

/-- A packet without a role. -/
theorem Packet.Tells.of_none {packet : Packet} (h : P.roleResponse packet.msgId = none) : packet.Tells P t := by
  intro codec hcodec
  rw [h] at hcodec
  cases hcodec

/-- A packet with a role of a record. -/
theorem Packet.Tells.serialize (hP : P.CarriesRoles) {msgId : MsgId} {codec : Codec MsgRoleResponse} {size : ℕ}
    {m : MsgRoleResponse} {tmp data : List Byte} (hcodec : P.roleResponse msgId = some codec)
    (hsize : size ≤ DBResCBFuncs.tmpSize) (hm : t.Owned m) (htmp : codec.serializeToArray size m = some tmp) {k : ℕ}
    (hdata : data = tmp.take k) : Packet.Tells P t ⟨none, msgId, data⟩ := by
  intro codec' hcodec' m' hparse
  obtain rfl := Option.some.inj (hcodec.symm.trans hcodec')
  obtain ⟨hlen, heq⟩ := Option.ite_none_right_eq_some.1 htmp
  rw [hdata, ← Option.some.inj heq] at hparse
  rcases hP.take _ _ hcodec m m' k (hlen.trans hsize) hparse with hzero | ⟨haccount, hrole⟩
  · exact Or.inl hzero
  · unfold PlayerTable.Owned
    rw [haccount, hrole]
    exact hm

end queues

/-- What a handler of the db server does: the roles stay, and what is sent tells of records. -/
structure DB.Serves (P : Protocol) (d d' : DB) : Prop where
  bounded : d'.table.Bounded
  includes : d'.table.Includes d.table
  sent : Grows (Packet.Tells P d'.table) d.toGame d'.toGame

namespace DB.Serves

variable {P : Protocol} {d d' d'' : DB} {isFor : Str → Prop}

theorem refl (h : d.table.Bounded) : d.Serves P d := ⟨h, .refl _, .of_eq rfl⟩

theorem trans (h : d.Serves P d') (h' : d'.Serves P d'') : d.Serves P d'' where
  bounded := h'.bounded
  includes := h.includes.trans h'.includes
  sent := by
    obtain ⟨new, hnew, htells⟩ := h.sent
    exact Grows.trans ⟨new, hnew, fun packet hmem => (htells packet hmem).mono h'.includes⟩ h'.sent

/-- The records change, and nothing is sent. -/
theorem move (h : d.table.Bounded) (hmove : d.table.Move isFor d'.table) (hqueue : d'.toGame = d.toGame) :
    d.Serves P d' := ⟨h.move hmove, hmove.includes h, .of_eq hqueue⟩

/-- A record changes and keeps its keys. -/
theorem changed (h : d.table.Bounded) {r : ℕ} {f : TPlayer → TPlayer} (hr : r < d.table.next)
    (hf : ∀ user, (f user).account = user.account ∧ (f user).roleId = user.roleId) :
    d.Serves P (d.setTable (d.table.changed r f)) :=
  have hmove : d.table.Move (fun _ => True) (d.table.changed r f) := .changed r f hr hf
  move h hmove rfl

theorem connSend (h : d.table.Bounded) {msgId : MsgId} {data : List Byte}
    (htells : Packet.Tells P d.table ⟨none, msgId, short data⟩) : d.Serves P (d.gameConnSend msgId data).2 := by
  unfold DB.gameConnSend
  split_ifs
  · exact ⟨h, .refl _, .one htells⟩
  · exact refl h

/-- A handler whose last step is a send answers with the server behind the send in any case. -/
theorem answer {c : Prop} [Decidable c] {a b : ℤ} (h : d.Serves P d') :
    d.Serves P (if c then (a, d') else (b, d')).2 := by
  split_ifs
  · exact h
  · exact h

/-- A role of a record is sent. -/
theorem sendRole (hP : P.CarriesRoles) (h : d.table.Bounded) {response : MsgRoleResponse}
    (howned : d.table.Owned response) (connId : ℤ) : d.Serves P (DBResCBFuncs.sendRole P d response connId).2 := by
  unfold DBResCBFuncs.sendRole
  split_ifs
  · exact refl h
  split
  · exact refl h
  · rename_i tmp htmp
    exact answer (connSend h (.serialize hP rfl le_rfl howned htmp rfl))

/-- The answer of the database. -/
theorem onSelect (hP : P.CarriesRoles) (h : d.table.Bounded) (account : Str) (connId : ℤ) (result : SelectResult) :
    d.Serves P (DBResCBFuncs.onSelect P d account connId result).2 := by
  have hread : ∀ row, d.Serves P (d.setTable (d.table.loaded account row)) := by
    intro row
    obtain ⟨-, hrecs, -, hnext⟩ := PlayerTable.loaded_kept d.table account row
    exact ⟨h.loaded account row, (PlayerTable.includes_update hrecs hnext).1, .of_eq rfl⟩
  cases result with
  | empty =>
      rw [DbGameHandler.onSelect_empty]
      exact sendRole hP h (Or.inl rfl) connId
  | broken row =>
      have hbounded := DbGameHandler.onSelect_bounded (P := P) h account connId (.broken row)
      rw [DbGameHandler.onSelect_broken h] at hbounded ⊢
      exact ⟨hbounded, (PlayerTable.includes_update (Function.update_idem _ _ _) rfl).1, .of_eq rfl⟩
  | row row =>
      rw [DbGameHandler.onSelect_row]
      split_ifs
      · exact hread row
      · obtain ⟨-, hrecs, -, hnext⟩ := PlayerTable.loaded_kept d.table account row
        have howned : (d.table.loaded account row).Owned row.role :=
          Or.inr (PlayerTable.includes_update hrecs hnext).2
        exact (hread row).trans (sendRole hP (hread row).bounded howned connId)

variable {info : JmyMsgInfo} {selected : Bool} {time : ℕ}

/-- A message without a role is sent. -/
theorem other (h : d.table.Bounded) {msgId : MsgId} (hmsg : P.roleResponse msgId = none) (data : List Byte) :
    d.Serves P (d.gameConnSend msgId data).2 := connSend h (.of_none hmsg)

theorem connectDB (h : d.table.Bounded) : d.Serves P (DbGameHandler.processConnectDBRequest P d info).2 := by
  unfold DbGameHandler.processConnectDBRequest
  split_ifs
  · exact refl h
  split
  · exact refl h
  rename_i gameId _
  dsimp only
  have hmade : d.Serves P (d.newAgent gameId).2 := by
    unfold DB.newAgent
    split_ifs
    · exact refl h
    · exact ⟨h, .refl _, .of_eq rfl⟩
  split_ifs
  · exact hmade
  split
  · exact hmade
  · exact answer (hmade.trans (other hmade.bounded rfl _))

theorem getRole (hP : P.CarriesRoles) (h : d.table.Bounded) :
    d.Serves P (DbGameHandler.processGetRole P selected d info).2 := by
  have hasked : DbGameHandler.Asked P selected d info (DbGameHandler.processGetRole P selected d info).2 :=
    DbGameHandler.processGetRole_asked
  generalize (DbGameHandler.processGetRole P selected d info).2 = d' at hasked
  cases hasked with
  | unread => exact refl h
  | refused => exact refl h
  | selecting => exact ⟨h, .refl _, .of_eq rfl⟩
  | found account r hparse hsome => exact sendRole hP h (Or.inr ⟨r, h.key2 _ _ hsome, rfl, rfl⟩) _

theorem createRole (hP : P.CarriesRoles) (h : d.table.Bounded)
    (hmsg : info.msgId = MsgId.gs2dsCreateRoleRequest) :
    d.Serves P (DbGameHandler.processCreateRole P time d info).2 := by
  unfold DbGameHandler.processCreateRole
  split_ifs
  · exact refl h
  split
  · exact refl h
  rename_i request hparse
  dsimp only
  split
  · exact refl h
  rename_i hnone
  have hfound := (DbGameHandler.getNewByKeyAndKey2_found d.table (DbGameHandler.nextRoleId d time)
    request.account).2 (Or.inr h.fresh.1)
  split
  · rename_i hnotfound
    rw [← Option.not_isSome_iff_eq_none] at hnotfound
    exact absurd hfound hnotfound
  let f : TPlayer → TPlayer := fun user => { user with
    roleId := DbGameHandler.nextRoleId d time
    account := request.account
    sex := request.sex
    nickName := request.nickName }
  have hmove : d.table.Move (Creates P info) (d.table.created (DbGameHandler.nextRoleId d time) request.account f) :=
    .created _ _ _ ⟨hmsg, request, hparse, rfl⟩ hnone fun _ => ⟨rfl, rfl⟩
  have hmade : d.Serves P { (d.genUniqueRoleId (d.agent.getD 0) time).2 with
      table := d.table.created (DbGameHandler.nextRoleId d time) request.account f } := move h hmove rfl
  obtain ⟨-, -, hrecs, -, hnext⟩ := PlayerTable.created_kept h (DbGameHandler.nextRoleId d time) request.account f
  have howned : (d.table.created (DbGameHandler.nextRoleId d time) request.account f).Owned
      ⟨request.account, ⟨DbGameHandler.nextRoleId d time, request.nickName, request.race, request.sex, 0, 0⟩⟩ :=
    Or.inr (PlayerTable.includes_update hrecs hnext).2
  split_ifs
  · exact hmade
  split
  · exact hmade
  · rename_i tmp htmp
    exact answer (hmade.trans (connSend hmade.bounded (.serialize hP rfl (by decide) howned htmp rfl)))

theorem setRoleData (h : d.table.Bounded) : d.Serves P (DbGameHandler.processSetRoleData P d info).2 := by
  unfold DbGameHandler.processSetRoleData
  split_ifs
  · exact refl h
  split
  · exact refl h
  rename_i request _
  split
  · exact refl h
  rename_i p hp
  have hcommit : ∀ f, (d.table.modify p f).commitUpdateRequestByKey request.roleId =
      (d.table.modify p f).commitUpdateRequest p := by
    intro f
    have hkey : (d.table.modify p f).getByKey request.roleId = some p := hp
    rw [PlayerTable.commitUpdateRequestByKey, hkey]
  dsimp only
  rw [hcommit]
  have hmade : d.Serves P (d.setTable (d.table.changed p fun user =>
      { user with sex := request.roleData.sex, level := request.roleData.level })) :=
    changed h (h.key _ _ hp) fun _ => ⟨rfl, rfl⟩
  split
  · exact hmade
  · exact answer (hmade.trans (other hmade.bounded rfl _))

theorem addItem (h : d.table.Bounded) : d.Serves P (DbGameHandler.processAddItem P d info).2 := by
  unfold DbGameHandler.processAddItem
  split_ifs
  · exact refl h
  split
  · exact refl h
  rename_i request _
  split
  · exact refl h
  rename_i p hp
  dsimp only
  have hmade : d.Serves P (d.setTable (d.table.changed p fun user => { user with
      items := Function.update user.items request.typeId
        (some ((user.items request.typeId).getD 0 + request.itemNum)) })) :=
    changed h (h.key _ _ hp) fun _ => ⟨rfl, rfl⟩
  split
  · exact hmade
  · exact answer (hmade.trans (other hmade.bounded rfl _))

theorem handle (hP : P.CarriesRoles) (h : d.table.Bounded) :
    d.Serves P (DB.closeGameOnError (DbGameHandler.handle P selected time d info)) := by
  have hhandle : d.Serves P (DbGameHandler.handle P selected time d info).2 := by
    unfold DbGameHandler.handle DbGameHandler.processDefault
    split_ifs with _ _ hcreate
    · exact connectDB h
    · exact getRole hP h
    · exact createRole hP h hcreate
    · exact setRoleData h
    · exact addItem h
    · exact refl h
  unfold DB.closeGameOnError
  split_ifs
  · exact ⟨hhandle.bounded, hhandle.includes, hhandle.sent⟩
  · exact hhandle

end DB.Serves

namespace ConnDBHandler

variable {P : Protocol} {config : GameConfig} {t : PlayerTable} {s : Game}

theorem onConnect_toGate : (onConnect P config s).2.toGate = s.toGate := by
  unfold onConnect Game.dbConnSend
  split
  · rfl
  · split_ifs <;> rfl

/-- A response of the db server goes on to the gate with its account and its role. -/
theorem handle_tells (hP : P.CarriesRoles) {packet : Packet} (h : packet.Tells P t) (stale : BitVec 32) (connId : ℤ) :
    s.Speaks (Packet.Tells P t) (fun _ => True) (handle P s (packet.info stale connId)).2 := by
  apply handle_speaks
  intro parser codec msgId hcodecs response tmp hparse htmp _
  have hread : P.roleResponse packet.msgId = some parser ∧ P.roleResponse msgId = some codec := by
    rcases hcodecs with ⟨hmsg, rfl, rfl, rfl⟩ | ⟨hmsg, rfl, rfl, rfl⟩
    · exact ⟨by rw [show packet.msgId = _ from hmsg]; rfl, rfl⟩
    · exact ⟨by rw [show packet.msgId = _ from hmsg]; rfl, rfl⟩
  have howned : t.Owned (passed response) := h parser hread.1 response hparse
  exact .serialize hP hread.2 (by decide) howned htmp rfl

end ConnDBHandler

/-- No message for a user carries a role. -/
theorem says_noRole (P : Protocol) : Says P (fun packet => P.roleResponse packet.msgId = none) fun _ => True where
  user msgId hmsg _ _ _ := by
    simp only [userMsgIds, List.mem_cons, List.not_mem_nil, or_false] at hmsg
    rcases hmsg with rfl | rfl | rfl | rfl <;> rfl
  getRole _ _ _ _ _ := trivial
  createRole _ _ _ _ _ := trivial
  setRoleData _ _ _ _ _ _ := trivial
  addItem _ _ _ := trivial
  rmItem _ := trivial

/-- The role responses that are on their way, and those that the gate has had, are of records. -/
structure RolesOwned (P : Protocol) (c : Cluster) : Prop where
  bounded : c.db.table.Bounded
  atDB : ∀ packet ∈ c.db.toGame, packet.Tells P c.db.table
  atGame : ∀ packet ∈ c.game.toGate, packet.Tells P c.db.table
  heard : ∀ account roleId, .role account roleId ∈ c.gate.trace → roleId = 0 ∨ c.db.table.HasRole account roleId

namespace RolesOwned

variable {P : Protocol} {config : GameConfig} {c c' : Cluster}

theorem start (P : Protocol) (maxConn : ℕ) : RolesOwned P (.start maxConn) :=
  ⟨PlayerTable.bounded_empty, fun _ h => absurd h List.not_mem_nil, fun _ h => absurd h List.not_mem_nil,
    fun _ _ h => absurd h List.not_mem_nil⟩

/-- The db server makes a step. -/
theorem serve (h : RolesOwned P c) {d : DB} (hserve : c.db.Serves P d) : RolesOwned P { c with db := d } where
  bounded := hserve.bounded
  atDB := hserve.sent.forall (fun _ => id) fun packet hmem => (h.atDB packet hmem).mono hserve.includes
  atGame packet hmem := (h.atGame packet hmem).mono hserve.includes
  heard account roleId hrole := (h.heard account roleId hrole).imp id (hserve.includes account roleId)

/-- The game server makes a step. -/
theorem play (h : RolesOwned P c) {s : Game} (hsent : Grows (Packet.Tells P c.db.table) c.game.toGate s.toGate) :
    RolesOwned P { c with game := s } :=
  ⟨h.bounded, h.atDB, hsent.forall (fun _ => id) h.atGame, h.heard⟩

theorem speak (h : RolesOwned P c) {s : Game}
    (hsent : Grows (fun packet => P.roleResponse packet.msgId = none) c.game.toGate s.toGate) :
    RolesOwned P { c with game := s } :=
  ⟨h.bounded, h.atDB, hsent.forall (fun _ => .of_none) h.atGame, h.heard⟩

/-- The gate makes a step. -/
theorem hear (h : RolesOwned P c) {g : Gate} (hheard : ∀ account roleId, .role account roleId ∈ g.trace →
    .role account roleId ∈ c.gate.trace ∨ roleId = 0 ∨ c.db.table.HasRole account roleId) :
    RolesOwned P { c with gate := g } :=
  ⟨h.bounded, h.atDB, h.atGame, fun account roleId hrole =>
    (hheard account roleId hrole).elim (h.heard account roleId) id⟩

theorem step (hP : P.CarriesRoles) (h : RolesOwned P c) {e : ClusterEvent} (hstep : c.step P config e = some c') :
    RolesOwned P c' := by
  cases e with
  | gate e =>
      obtain ⟨hgame, g, hg, rfl⟩ := Agreement.step_gate hstep
      refine h.hear fun account roleId hrole => ?_
      by_cases hgrant : e.IsGrant
      · cases e with
        | session _ _ _ =>
            cases hg
            exact Or.inl hrole
        | _ => exact hgrant.elim
      · rcases (Grantless.step hgrant hg).roles account roleId hrole with hold | ⟨session, userId, msgId, data, rfl, -⟩
        · exact Or.inl hold
        · exact absurd rfl (hgame session userId msgId data)
  | linkGate =>
      simp only [Cluster.step, Option.ite_none_right_eq_some, Option.some.injEq] at hstep
      obtain ⟨-, rfl⟩ := hstep
      have hnew : RolesOwned P { c with game := { c.game with gateUp := true, toGate := [] } } :=
        ⟨h.bounded, h.atDB, fun _ hmem => absurd hmem List.not_mem_nil, h.heard⟩
      exact (hnew.speak (ConnGateHandler.onConnect_speaks (G := fun _ => True) fun _ _ => rfl).sent).hear
        fun _ _ => Or.inl
  | loseGate =>
      cases hstep
      exact h.play (.of_eq rfl)
  | loseGame =>
      cases hstep
      exact h.hear fun _ _ => Or.inl
  | linkDB =>
      simp only [Cluster.step, Option.ite_none_right_eq_some, Option.some.injEq] at hstep
      obtain ⟨-, rfl⟩ := hstep
      have hqueue := @ConnDBHandler.onConnect_toGate P config { c.game with dbUp := true, toDB := [] }
      have hplay := h.play (.of_eq hqueue)
      exact ⟨hplay.bounded, fun _ hmem => absurd hmem List.not_mem_nil, hplay.atGame, hplay.heard⟩
  | loseDB =>
      cases hstep
      exact h.play (.of_eq rfl)
  | loseDBGame =>
      cases hstep
      exact ⟨h.bounded, h.atDB, h.atGame, h.heard⟩
  | gateToGame stale =>
      obtain ⟨packet, rest, r, -, -, hr, rfl⟩ := Agreement.step_gateToGame hstep
      have hsent := (ConnGateHandler.handle_speaks (says_noRole P) hr).sent
      rw [← (ConnGateHandler.closeGateOnError_queues r).1] at hsent
      exact (h.speak hsent).hear fun _ _ => Or.inl
  | gameToGate session stale =>
      simp only [Cluster.step] at hstep
      split at hstep
      · cases hstep
      rename_i packet rest hqueue
      split_ifs at hstep
      obtain rfl := Option.some.inj hstep
      have hpacket := h.atGame packet (hqueue ▸ List.mem_cons_self)
      have hless : Grantless (fun _ => True) (GateGameHandler.Hears P (packet.info stale 0)) c.gate
          (c.atGate P session stale packet).2 := Grantless.handleGame (fun _ _ => trivial) fun _ _ => id
      have hheard : RolesOwned P { c with gate := Gate.closeGameOnError (c.atGate P session stale packet) } := by
        refine h.hear fun account roleId hrole => ?_
        have htrace : (Gate.closeGameOnError (c.atGate P session stale packet)).trace =
            (c.atGate P session stale packet).2.trace := by
          unfold Gate.closeGameOnError
          split_ifs <;> rfl
        rw [htrace] at hrole
        rcases hless.roles account roleId hrole with hold | ⟨response, hread, rfl, rfl⟩
        · exact Or.inl hold
        · rcases hread with ⟨hmsg, hparse⟩ | ⟨hmsg, hparse⟩
          · exact Or.inr (hpacket _ (by rw [show packet.msgId = _ from hmsg]; rfl) response hparse)
          · exact Or.inr (hpacket _ (by rw [show packet.msgId = _ from hmsg]; rfl) response hparse)
      exact ⟨hheard.bounded, hheard.atDB, fun packet' hmem => h.atGame packet' (hqueue ▸ List.mem_cons_of_mem _ hmem),
        hheard.heard⟩
  | gameToDB selected time stale =>
      simp only [Cluster.step] at hstep
      split at hstep
      · cases hstep
      split_ifs at hstep
      obtain rfl := Option.some.inj hstep
      exact (h.serve (DB.Serves.handle hP h.bounded)).play (.of_eq rfl)
  | dbToGame stale =>
      simp only [Cluster.step] at hstep
      split at hstep
      · cases hstep
      rename_i packet rest hqueue
      split_ifs at hstep
      obtain rfl := Option.some.inj hstep
      have hpacket := h.atDB packet (hqueue ▸ List.mem_cons_self)
      have hsent := (ConnDBHandler.handle_tells (s := c.game) hP hpacket stale 0).sent
      rw [← (ConnDBHandler.closeDBOnError_queues _).1] at hsent
      have hplay := h.play hsent
      exact ⟨hplay.bounded, fun packet' hmem => h.atDB packet' (hqueue ▸ List.mem_cons_of_mem _ hmem), hplay.atGame,
        hplay.heard⟩
  | select i result =>
      simp only [Cluster.step] at hstep
      split at hstep
      · cases hstep
      rename_i account connId _
      obtain rfl := Option.some.inj hstep
      have hserve := DB.Serves.onSelect (d := { c.db with selecting := c.db.selecting.eraseIdx i }) hP h.bounded account
        connId result
      exact h.serve ⟨hserve.bounded, hserve.includes, hserve.sent⟩
  | update =>
      cases hstep
      exact ⟨⟨h.bounded.key, h.bounded.key2, fun _ hne => absurd rfl hne⟩, h.atDB, h.atGame, h.heard⟩

end RolesOwned

/-- The step is a request at the gate that gets a slot with the role of an earlier client. -/
def Cluster.Recycles (P : Protocol) (c : Cluster) : ClusterEvent → Prop
  | .gate e => JmyGame.Recycles P c.gate e
  | _ => False

instance (P : Protocol) (c : Cluster) : ∀ e, Decidable (c.Recycles P e)
  | .gate e => inferInstanceAs (Decidable (JmyGame.Recycles P c.gate e))
  | .linkGate | .loseGate | .loseGame | .linkDB | .loseDB | .loseDBGame | .gateToGame _ | .gameToGate _ _
  | .gameToDB _ _ _ | .dbToGame _ | .select _ _ | .update => inferInstanceAs (Decidable False)

/-- What is between the servers, and what they do to each other, leaves the roles in the slots as they are. -/
theorem RolesFit.clusterStep {P : Protocol} {config : GameConfig} {c c' : Cluster} {e : ClusterEvent}
    (h : RolesFit c.gate) (hnot : ¬c.Recycles P e) (hstep : c.step P config e = some c') : RolesFit c'.gate := by
  cases e with
  | gate e =>
      obtain ⟨-, g, hg, rfl⟩ := Agreement.step_gate hstep
      exact h.step hnot hg
  | linkGate =>
      simp only [Cluster.step, Option.ite_none_right_eq_some, Option.some.injEq] at hstep
      obtain ⟨-, rfl⟩ := hstep
      exact h.congr rfl rfl
  | linkDB =>
      simp only [Cluster.step, Option.ite_none_right_eq_some, Option.some.injEq] at hstep
      obtain ⟨-, rfl⟩ := hstep
      exact h
  | loseGame =>
      cases hstep
      exact h.congr rfl rfl
  | loseGate | loseDB | loseDBGame | update =>
      cases hstep
      exact h
  | gateToGame stale =>
      obtain ⟨packet, rest, r, -, -, -, rfl⟩ := Agreement.step_gateToGame hstep
      exact h.congr rfl rfl
  | gameToGate session stale =>
      simp only [Cluster.step] at hstep
      split at hstep
      · cases hstep
      rename_i packet _ _
      split_ifs at hstep
      obtain rfl := Option.some.inj hstep
      have hhandle : RolesFit (c.atGate P session stale packet).2 := h.handleGame
      change RolesFit (Gate.closeGameOnError (c.atGate P session stale packet))
      unfold Gate.closeGameOnError
      split_ifs
      · exact hhandle.congr rfl rfl
      · exact hhandle
  | gameToDB selected time stale | dbToGame stale =>
      simp only [Cluster.step] at hstep
      split at hstep
      · cases hstep
      split_ifs at hstep
      obtain rfl := Option.some.inj hstep
      exact h
  | select i result =>
      simp only [Cluster.step] at hstep
      split at hstep
      · cases hstep
      obtain rfl := Option.some.inj hstep
      exact h

theorem sinceAlloc_mem {p : ℤ} {trace since : List GateObs} {account : Str} {o : GateObs}
    (h : sinceAlloc p trace = some (account, since)) (ho : o ∈ since) : o ∈ trace := by
  induction trace using List.reverseRecOn generalizing since account with
  | nil => cases h
  | append_singleton trace o' ih =>
      have hstep : o' = .alloc p account ∧ since = [] ∨
          ∃ since', sinceAlloc p trace = some (account, since') ∧ since = since' ++ [o'] := by
        by_cases halloc : ∃ a, o' = .alloc p a
        · obtain ⟨a, rfl⟩ := halloc
          rw [sinceAlloc_append_alloc] at h
          cases h
          exact Or.inl ⟨rfl, rfl⟩
        · rw [sinceAlloc_append (by simpa [eq_comm] using halloc)] at h
          obtain ⟨⟨a, since'⟩, hold, heq⟩ := Option.map_eq_some_iff.1 h
          cases heq
          exact Or.inr ⟨since', hold, rfl⟩
      rcases hstep with ⟨-, rfl⟩ | ⟨since', hold, rfl⟩
      · cases ho
      · exact List.mem_append.2 ((List.mem_append.1 ho).imp (ih hold) id)

/-- In every run in which no slot with a role is given out again and the removals read the values of the entries that
they erase, the role in the slot of a client is one that a record of the db server has with the account of the
client. -/
theorem client_role_of_record {P : Protocol} {config : GameConfig} {maxConn : ℕ} {reads : ℕ → FreedReads}
    (hP : P.CarriesRoles) (hreads : ∀ k, reads k = .intact) {es : List ClusterEvent} {c : Cluster}
    (hfresh : (clusterMachine P config).Along (fun c e => ¬c.Recycles P e) ((Cluster.start maxConn).reading reads) es)
    (hrun : (clusterMachine P config).run ((Cluster.start maxConn).reading reads) es = some c) {p : ℤ}
    (hp : p ∈ c.gate.mgr.clientArray.usedIds) (hrole : (c.gate.mgr.info p).currRoleId ≠ 0) :
    c.db.table.HasRole (c.gate.mgr.info p).account (c.gate.mgr.info p).currRoleId := by
  obtain rfl : reads = fun _ => .intact := funext hreads
  have howned : RolesOwned P c := Machine.invariant_run (m := clusterMachine P config) (I := RolesOwned P)
    (fun s e s' hs hstep => hs.step hP hstep) (RolesOwned.start P maxConn) hrun
  have hfit : RolesFit c.gate := Machine.invariant_along (m := clusterMachine P config)
    (I := fun c => RolesFit c.gate) (fun s e s' hs hnot hstep => hs.clusterStep hnot hstep)
    ((RolesFit.start maxConn).congr rfl rfl) hfresh hrun
  obtain ⟨since, hsince, hheard⟩ := hfit.since p hp
  have hmem := sinceAlloc_mem hsince (hheard hrole)
  exact (howned.heard _ _ hmem).resolve_left hrole

/-- The client of account `a` has the role 7 that the database has for it. -/
theorem enterRun_role : ∃ c, (clusterMachine wire gameConfig).run ((Cluster.start 2).reading fun _ => .intact)
      (linkRun ++ enterRun 1 [97] 7) = some c ∧
    (c.gate.mgr.info 100000).account = [97] ∧ (c.gate.mgr.info 100000).currRoleId = 7 ∧
      c.db.table.HasRole (c.gate.mgr.info 100000).account (c.gate.mgr.info 100000).currRoleId := by
  have hsees : ((clusterMachine wire gameConfig).run ((Cluster.start 2).reading fun _ => .intact)
      (linkRun ++ enterRun 1 [97] 7)).map (fun c =>
        ((c.gate.mgr.info 100000).account, (c.gate.mgr.info 100000).currRoleId,
          decide (100000 ∈ c.gate.mgr.clientArray.usedIds))) = some ([97], 7, true) := by decide +kernel
  obtain ⟨c, hc, hsees⟩ := Option.map_eq_some_iff.1 hsees
  simp only [Prod.mk.injEq, decide_eq_true_eq] at hsees
  obtain ⟨haccount, hrole, hused⟩ := hsees
  have hne : (c.gate.mgr.info 100000).currRoleId ≠ 0 := by
    rw [hrole]
    decide
  exact ⟨c, hc, haccount, hrole, @client_role_of_record wire gameConfig 2 _ wire_carriesRoles (fun _ => rfl) _ c
    (by decide +kernel) hc 100000 hused hne⟩

end JmyGame
