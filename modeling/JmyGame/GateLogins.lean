import JmyGame.GateSessions
import JmyGame.GateHandlers
import JmyGame.LoginHandlers

/-! The gate and its login servers: what `GlobalData` has of them, and the handlers of `ConnLoginHandler`. A login
server notifies the gate of an account, and the gate grants the account a session and tells the login server of the
session code. What the other handlers do to the sessions and to the packets for the game server follows. -/

namespace JmyGame

open CArith

/-- `LOGIN_SERVER_MIN_ID` and `LOGIN_SERVER_MAX_ID`. -/
def loginServerMinId : ℤ := 10001

def loginServerMaxId : ℤ := 10100

/-- `get_server_type`. -/
def getServerType (serverId : ℤ) : ℤ := serverId.tdiv 10000

def serverTypeLogin : ℤ := 1

structure LoginAgentData where
  deriving DecidableEq, Repr, Inhabited

/-- What `GlobalData` of the gate has of the login servers. A `JmyTcpClient` is named by a number, and
`clientSet` has those that the gate runs. -/
structure GlobalLogins where
  loginClients : UnorderedMap ℤ ℕ
  loginMgr : AgentManagerPerf LoginAgentData
  clientSet : Finset ℕ

namespace GlobalLogins

def start : GlobalLogins := ⟨∅, .init loginServerMinId loginServerMaxId, ∅⟩

variable (s : GlobalLogins)

def addLoginClient (loginId : ℤ) (client : ℕ) : Bool × GlobalLogins :=
  match s.loginClients.find loginId with
  | some _ => (false, s)
  | none => (true, { s with loginClients := s.loginClients.emplace loginId client })

/-- `removeLoginClient`. The result of `GateServer::removeLoginClient` is not looked at. -/
def removeLoginClient (loginId : ℤ) : Bool × GlobalLogins :=
  match s.loginClients.find loginId with
  | none => (false, s)
  | some client => (true, { s with
      loginClients := s.loginClients.remove loginId
      clientSet := s.clientSet.erase client })

def newLoginAgent (loginId connId : ℤ) : Option GlobalLogins :=
  (s.loginMgr.newAgent loginId connId).map fun loginMgr => { s with loginMgr := loginMgr }

/-- `getLoginIdByConnId`, with 0 for no id. -/
def getLoginIdByConnId (connId : ℤ) : ℤ := (s.loginMgr.getIdByConnId connId).getD 0

def removeLoginAgentAndClientByConnId (connId : ℤ) : Bool × GlobalLogins :=
  let deleted := s.loginMgr.deleteAgent (s.getLoginIdByConnId connId)
  if deleted.1 = false then (false, { s with loginMgr := deleted.2 })
  else { s with loginMgr := deleted.2 }.removeLoginClient (s.getLoginIdByConnId connId)

end GlobalLogins

/-- A gate with its id and its address in `CONFIG_FILE`. -/
structure GateProcess where
  config : MsgConnectLoginRequest
  gate : Gate
  logins : GlobalLogins

def GateProcess.start (config : MsgConnectLoginRequest) (maxConn : ℕ) : GateProcess :=
  ⟨config, .start maxConn, .start⟩

namespace ConnLoginHandler

variable (P : LoginProtocol)

/-- What `conn->send` puts on a connection that is connected or not. -/
def connSend (up : Bool) (msgId : MsgId) (data : List Byte) : Option Packet :=
  if up = true ∧ sendTakes msgId data then some ⟨none, msgId, data⟩ else none

/-- `onConnect`: what goes to the login server. -/
def onConnect (g : GateProcess) : Option Packet :=
  (P.connectLoginRequest.serializeToArray maxMsgSize g.config).bind (connSend true MsgId.gt2lsConnectLoginRequest)

/-- `onDisconnect`. -/
def onDisconnect (g : GateProcess) (connId : ℤ) : GateProcess :=
  match g.logins.loginMgr.getAgentByConnId connId with
  | none => g
  | some _ => { g with logins := (g.logins.removeLoginAgentAndClientByConnId connId).2 }

/-- The result of a handler, the gate that it leaves and what it sends to the login server. -/
abbrev Result := ℤ × GateProcess × Option Packet

def processConnectLoginResponse (g : GateProcess) (info : JmyMsgInfo) : Result :=
  match P.connectLoginResponse.parse info.data with
  | none => (-1, g, none)
  | some loginId =>
    if getServerType loginId ≠ serverTypeLogin then (-1, g, none)
    else match g.logins.loginMgr.getAgent loginId with
    | some _ => (-1, g, none)
    | none =>
      match g.logins.newLoginAgent loginId info.connId with
      | none => (-1, g, none)
      | some logins => (0, { g with logins := logins }, none)

/-- `processSelectedServerNotify`; `session` is the new session code. -/
def processSelectedServerNotify (time : ℤ) (session : Str) (up : Bool) (g : GateProcess) (info : JmyMsgInfo) :
    Result :=
  match P.selectedServerNotify.parse info.data with
  | none => (-1, g, none)
  | some account =>
    let g₁ := { g with gate := { g.gate with mgr := g.gate.mgr.newAccountSession time account session } }
    match P.selectedServerResponse.serializeToArray maxMsgSize ⟨account, session⟩ with
    | none => (-1, g₁, none)
    | some tmp =>
      match connSend up MsgId.gt2lsSelectedServerResponse tmp with
      | none => (-1, g₁, none)
      | some packet => (0, g₁, some packet)

/-- The handlers of `s_login_handlers`. -/
def handle (time : ℤ) (session : Str) (up : Bool) (g : GateProcess) (info : JmyMsgInfo) : Result :=
  if info.msgId = MsgId.ls2gtConnectLoginResponse then processConnectLoginResponse P g info
  else if info.msgId = MsgId.ls2gtSelectedServerNotify then
    processSelectedServerNotify P time session up g info
  else (0, g, none)

/-- What a message of the login server does: the sessions and what is sent stay as they are, or the account of a
notify gets a session, which is the one that the login server is told of. -/
theorem handle_cases (time : ℤ) (session : Str) (up : Bool) (g : GateProcess) (info : JmyMsgInfo) :
    (handle P time session up g info).2.1.config = g.config ∧
    (((handle P time session up g info).2.1.gate = g.gate ∧ (handle P time session up g info).2.2 = none) ∨
      ∃ account, info.msgId = MsgId.ls2gtSelectedServerNotify ∧
        P.selectedServerNotify.parse info.data = some account ∧
        (handle P time session up g info).2.1.gate =
          { g.gate with mgr := g.gate.mgr.newAccountSession time account session } ∧
        ∀ packet, (handle P time session up g info).2.2 = some packet →
          ∃ tmp, P.selectedServerResponse.serializeToArray maxMsgSize ⟨account, session⟩ = some tmp ∧
            packet = ⟨none, MsgId.gt2lsSelectedServerResponse, tmp⟩) := by
  unfold handle
  split_ifs with hresponse hnotify
  · unfold processConnectLoginResponse
    split
    · exact ⟨rfl, Or.inl ⟨rfl, rfl⟩⟩
    · split_ifs
      · exact ⟨rfl, Or.inl ⟨rfl, rfl⟩⟩
      · split
        · exact ⟨rfl, Or.inl ⟨rfl, rfl⟩⟩
        · split
          · exact ⟨rfl, Or.inl ⟨rfl, rfl⟩⟩
          · exact ⟨rfl, Or.inl ⟨rfl, rfl⟩⟩
  · unfold processSelectedServerNotify
    cases hparse : P.selectedServerNotify.parse info.data with
    | none => exact ⟨rfl, Or.inl ⟨rfl, rfl⟩⟩
    | some account =>
        dsimp only
        cases htmp : P.selectedServerResponse.serializeToArray maxMsgSize ⟨account, session⟩ with
        | none =>
            refine ⟨rfl, Or.inr ⟨account, hnotify, rfl, rfl, ?_⟩⟩
            rintro packet ⟨⟩
        | some tmp =>
            dsimp only
            unfold connSend
            split_ifs
            · refine ⟨rfl, Or.inr ⟨account, hnotify, rfl, rfl, ?_⟩⟩
              rintro packet ⟨⟩
              exact ⟨tmp, htmp, rfl⟩
            · refine ⟨rfl, Or.inr ⟨account, hnotify, rfl, rfl, ?_⟩⟩
              rintro packet ⟨⟩
  · exact ⟨rfl, Or.inl ⟨rfl, rfl⟩⟩

theorem onDisconnect_frame (g : GateProcess) (connId : ℤ) :
    (onDisconnect g connId).config = g.config ∧ (onDisconnect g connId).gate = g.gate := by
  unfold onDisconnect
  split
  · exact ⟨rfl, rfl⟩
  · exact ⟨rfl, rfl⟩

end ConnLoginHandler

/-- A session is there before a grant, or is the one that is granted. -/
theorem session_of_grant {m : ClientManager} {time : ℤ} {account account' session : Str} {si : SessionInfo}
    (h : (m.newAccountSession time account session).accountSessionMap account' = some si) :
    m.accountSessionMap account' = some si ∨ account' = account ∧ si = ⟨session, time⟩ := by
  change Function.update m.accountSessionMap account (some ⟨session, time⟩) account' = some si at h
  by_cases haccount : account' = account
  · rw [haccount, Function.update_self] at h
    exact Or.inr ⟨haccount, (Option.some.inj h).symm⟩
  · rw [Function.update_of_ne haccount] at h
    exact Or.inl h

/-- The message is a response that gives the role to the account. -/
def GateGameHandler.Hears (P : Protocol) (info : JmyMsgInfo) (account : Str) (roleId : BitVec 64) : Prop :=
  ∃ response, (info.msgId = MsgId.gs2gtGetRoleResponse ∧ P.gs2gtGetRoleResponse.parse info.data = some response ∨
      info.msgId = MsgId.gs2gtCreateRoleResponse ∧ P.gs2gtCreateRoleResponse.parse info.data = some response) ∧
    response.account = account ∧ response.roleData.roleId = roleId

/-- No session is granted, the packets that go to the game server meet the first predicate, and the roles that the
gate gets for accounts the second one. -/
structure Grantless (F : Packet → Prop) (R : Str → BitVec 64 → Prop) (g g' : Gate) : Prop where
  sessions : ∀ account si, g'.mgr.accountSessionMap account = some si → g.mgr.accountSessionMap account = some si
  queue : ∃ new, g'.toGame = g.toGame ++ new ∧ ∀ packet ∈ new, F packet
  roles : ∀ account roleId, .role account roleId ∈ g'.trace → .role account roleId ∈ g.trace ∨ R account roleId

namespace Grantless

variable {F : Packet → Prop} {R : Str → BitVec 64 → Prop} {g g' g'' : Gate}

theorem of_eq (hsessions : g'.mgr.accountSessionMap = g.mgr.accountSessionMap) (hqueue : g'.toGame = g.toGame)
    (htrace : g'.trace = g.trace) : Grantless F R g g' where
  sessions _ _ := by rw [hsessions]; exact id
  queue := ⟨[], by rw [hqueue, List.append_nil], fun _ hmem => absurd hmem List.not_mem_nil⟩
  roles _ _ := by rw [htrace]; exact Or.inl

theorem refl (g : Gate) : Grantless F R g g := of_eq rfl rfl rfl

theorem trans (h : Grantless F R g g') (h' : Grantless F R g' g'') : Grantless F R g g'' where
  sessions account si hsi := h.sessions account si (h'.sessions account si hsi)
  queue := by
    obtain ⟨new, hnew, hF⟩ := h.queue
    obtain ⟨new', hnew', hF'⟩ := h'.queue
    refine ⟨new ++ new', by rw [hnew', hnew, List.append_assoc], fun packet hmem => ?_⟩
    exact (List.mem_append.1 hmem).elim (hF packet) (hF' packet)
  roles account roleId hrole := (h'.roles account roleId hrole).elim (h.roles account roleId) Or.inr

/-- Something is observed; a role meets the predicate. -/
theorem observe {o : GateObs} (ho : ∀ account roleId, o = .role account roleId → R account roleId) :
    Grantless F R g (g.observe o) where
  sessions _ _ := id
  queue := ⟨[], (List.append_nil _).symm, fun _ hmem => absurd hmem List.not_mem_nil⟩
  roles account roleId hrole := by
    rcases List.mem_append.1 hrole with hrole | hrole
    · exact Or.inl hrole
    · exact Or.inr (ho account roleId (List.mem_singleton.1 hrole).symm)

theorem connSend (connId : ℤ) (msgId : MsgId) (data : List Byte) :
    Grantless F R g (g.connSend connId msgId data).2 := by
  unfold Gate.connSend
  split_ifs
  · exact observe fun _ _ h => by cases h
  · exact refl g

theorem removeByConnId_sessions (m : ClientManager) (connId : ℤ) :
    (m.removeByConnId connId).2.accountSessionMap = m.accountSessionMap := by
  unfold ClientManager.removeByConnId
  split
  · rfl
  · dsimp only
    split_ifs
    · rfl
    · rfl
    · rfl

theorem connForceClose (connId : ℤ) : Grantless F R g (g.connForceClose connId) := by
  unfold Gate.connForceClose
  split
  · exact refl g
  · exact refl g
  · unfold Gate.onDisconnect
    split
    · exact of_eq rfl rfl rfl
    · exact of_eq (removeByConnId_sessions _ _) rfl rfl

theorem clientSend (p : ℤ) (msgId : MsgId) (data : List Byte) : Grantless F R g (g.clientSend p msgId data).2 := by
  unfold Gate.clientSend
  split_ifs
  · exact refl g
  · split
    · exact refl g
    · exact connSend _ _ _

theorem clientClose (p : ℤ) : Grantless F R g (g.clientClose p) := by
  unfold Gate.clientClose
  split_ifs
  · exact refl g
  · split
    · exact refl g
    · unfold Gate.connClose
      split_ifs
      · exact of_eq rfl rfl rfl
      · exact of_eq rfl rfl rfl

theorem clientForceClose (p : ℤ) : Grantless F R g (g.clientForceClose p) := by
  unfold Gate.clientForceClose
  split_ifs
  · exact refl g
  · split
    · exact refl g
    · exact connForceClose _

theorem newClient (account : Str) : Grantless F R g (g.newClient account).2 := by
  unfold Gate.newClient
  split
  · split
    · exact refl g
    · rename_i p _
      refine (clientForceClose p).trans ?_
      exact of_eq rfl rfl rfl
  · split
    · exact refl g
    · rename_i p m htake
      obtain ⟨free, -, heq⟩ := Option.map_eq_some_iff.1 htake
      cases heq
      have halloc : ∀ q, Grantless F R g (g.observe (.alloc q account)) := fun q => observe fun _ _ h => by cases h
      exact (halloc _).trans (of_eq rfl rfl rfl)

theorem sendGameMsg (msgId : MsgId) (data : List Byte) (hF : F ⟨none, msgId, short data⟩) :
    Grantless F R g (g.sendGameMsg msgId data).2 := by
  unfold Gate.sendGameMsg
  split_ifs
  · refine ⟨fun _ _ => id, ⟨_, rfl, fun packet hmem => List.mem_singleton.1 hmem ▸ hF⟩, ?_⟩
    exact (observe (F := F) (g := g) fun _ _ h => by cases h).roles
  · exact refl g

theorem sendGameUserMsg (userId : ℤ) (msgId : MsgId) (data : List Byte)
    (hF : F ⟨some (BitVec.ofInt 32 userId), msgId, short data⟩) :
    Grantless F R g (g.sendGameUserMsg userId msgId data).2 := by
  unfold Gate.sendGameUserMsg
  split_ifs
  · refine ⟨fun _ _ => id, ⟨_, rfl, fun packet hmem => List.mem_singleton.1 hmem ▸ hF⟩, ?_⟩
    exact (observe (F := F) (g := g) fun _ _ h => by cases h).roles
  · exact refl g

theorem checkSession (time : ℤ) (account session : Str) :
    Grantless F R g { g with mgr := (g.mgr.checkSessionByAccount time account session).2 } where
  sessions account' si hsi := by
    by_cases h : g.mgr.accountSessionMap account' = some si
    · exact h
    · unfold ClientManager.checkSessionByAccount at hsi
      split at hsi
      · exact hsi
      · split_ifs at hsi
        · exact hsi
        · dsimp only at hsi
          by_cases haccount : account' = account
          · rw [haccount, Function.update_self] at hsi
            cases hsi
          · rw [Function.update_of_ne haccount] at hsi
            exact hsi
  queue := ⟨[], by rw [List.append_nil], fun _ hmem => absurd hmem List.not_mem_nil⟩
  roles _ _ := Or.inl

/-- A handler whose last step is a send answers with the gate behind the send in any case. -/
theorem answer {c : Prop} [Decidable c] {a b : ℤ} (h : Grantless F R g g') :
    Grantless F R g (if c then (a, g') else (b, g')).2 := by
  split_ifs
  · exact h
  · exact h

section handlers

variable {P : Protocol} {info : JmyMsgInfo}
  (hF : ∀ packet : Packet, (packet.userId = none → packet.msgId ≠ MsgId.gt2gsGetRoleRequest) → F packet)

theorem kick (p : Option ℤ) : Grantless F R g (ClientHandler.kick g p) := by
  cases p with
  | none => exact refl g
  | some p => exact clientForceClose p

/-- A `GetRole` request goes to the game server only with a session that the gate has. -/
theorem processGetRoleRequest {time : ℤ} (hgetRole : ∀ request granted,
      P.c2sGetRoleRequest.parse info.data = some request →
      g.mgr.accountSessionMap request.account = some ⟨request.enterSession, granted⟩ → time - granted ≤ 100 →
      F ⟨none, MsgId.gt2gsGetRoleRequest, short info.data⟩) :
    Grantless F R g (ClientHandler.processGetRoleRequest P time g info).2 := by
  unfold ClientHandler.processGetRoleRequest
  split
  · exact refl g
  cases hparse : P.c2sGetRoleRequest.parse info.data with
  | none => exact refl g
  | some request =>
      dsimp only
      have hkick : Grantless F R g (ClientHandler.kick g (g.mgr.getClientInfoByAccount request.account)) := kick _
      generalize ClientHandler.kick g (g.mgr.getClientInfoByAccount request.account) = g₁ at hkick ⊢
      have hcheck := hkick.trans (checkSession time request.account request.enterSession)
      split_ifs with hsession
      · exact hcheck.trans (connSend _ _ _)
      · rw [Bool.not_eq_false, check_eq_true] at hsession
        obtain ⟨granted, hgranted, hage⟩ := hsession
        have hsend := hgetRole request granted hparse (hkick.sessions _ _ hgranted) hage
        have hnew := hcheck.trans (newClient request.account)
        split
        · rename_i g₃ hg₃
          rw [hg₃] at hnew
          exact hnew.trans (connSend _ _ _)
        · rename_i p g₃ hg₃
          rw [hg₃] at hnew
          dsimp only at hnew ⊢
          split
          · exact hnew.trans ((connSend _ _ _).trans (clientClose p))
          · have hbind : Grantless F R g₃ (ClientHandler.bindConn g₃ info.connId p) := of_eq rfl rfl rfl
            split
            · exact hnew.trans hbind
            · exact hnew.trans (hbind.trans (answer (sendGameMsg _ _ hsend)))

include hF

theorem processCreateRoleRequest : Grantless F R g (ClientHandler.processCreateRoleRequest P g info).2 := by
  unfold ClientHandler.processCreateRoleRequest
  split
  · exact refl g
  split
  · exact refl g
  split
  · exact refl g
  split
  · exact refl g
  · refine sendGameMsg _ _ (hF _ fun _ => ?_)
    exact (by decide : MsgId.gt2gsCreateRoleRequest ≠ MsgId.gt2gsGetRoleRequest)

theorem sendUser (userId : ℤ) (msgId : MsgId) (data : List Byte) :
    Grantless F R g (g.sendGameUserMsg userId msgId data).2 := by
  refine sendGameUserMsg userId msgId data (hF _ ?_)
  rintro ⟨⟩

theorem processEnterGameRequest : Grantless F R g (ClientHandler.processEnterGameRequest P g info).2 := by
  unfold ClientHandler.processEnterGameRequest
  split
  · exact refl g
  split
  · exact refl g
  split_ifs
  · exact connSend _ _ _
  split
  · exact refl g
  · exact sendUser hF _ _ _

theorem processLeaveGameRequest : Grantless F R g (ClientHandler.processLeaveGameRequest P g info).2 := by
  unfold ClientHandler.processLeaveGameRequest
  split
  · exact refl g
  dsimp only
  split
  · exact clientClose _
  · exact (clientClose _).trans (answer (sendUser hF _ _ _))

omit hF in
theorem processReconnectRequest {session : Str} :
    Grantless F R g (ClientHandler.processReconnectRequest P session g info).2 := by
  unfold ClientHandler.processReconnectRequest
  split
  · exact refl g
  split
  · exact refl g
  split
  · exact connSend _ _ _
  rename_i p _
  have hclose : Grantless F R g (if g.clientConn p = some info.connId then g else g.clientForceClose p) := by
    split_ifs
    · exact refl g
    · exact clientForceClose p
  dsimp only
  generalize (if g.clientConn p = some info.connId then g else g.clientForceClose p) = g₁ at hclose ⊢
  have hset : Grantless F R g { g₁ with
      mgr := g₁.mgr.modifyInfo p fun ci => { ci with reconnSession := session } } :=
    hclose.trans (of_eq rfl rfl rfl)
  split
  · exact hset.trans (connSend _ _ _)
  · exact hset.trans (answer (connSend _ _ _))

theorem processDefault : Grantless F R g (ClientHandler.processDefault P g info).2 := by
  unfold ClientHandler.processDefault
  split
  · exact refl g
  dsimp only
  split_ifs
  · exact connSend _ _ _
  · exact (sendUser hF _ _ _).trans (connSend _ _ _)
  · exact sendUser hF _ _ _

/-- The messages of the game server. -/
theorem handleGame {session : Str}
    (hR : ∀ account roleId, GateGameHandler.Hears P info account roleId → R account roleId) :
    Grantless F R g (GateGameHandler.handle P session g info).2 := by
  unfold GateGameHandler.handle
  split_ifs with _ hget hcreate
  · unfold GateGameHandler.processConnectGateRequest
    split
    · exact refl g
    · rename_i gameId _
      have hagent : Grantless F R g (g.newGameAgent gameId).2 := by
        unfold Gate.newGameAgent
        split_ifs
        · exact refl g
        · exact refl g
        · exact of_eq rfl rfl rfl
      dsimp only
      split_ifs
      · exact hagent
      · split
        · exact hagent
        · refine hagent.trans (answer (sendGameMsg _ _ (hF _ fun _ => ?_)))
          exact (by decide : MsgId.gt2gsConnectGateResponse ≠ MsgId.gt2gsGetRoleRequest)
  · unfold GateGameHandler.processGetRoleResponse
    split
    · exact refl g
    · rename_i response hparse
      have hrole : Grantless F R g (g.observe (.role response.account response.roleData.roleId)) := by
        refine observe fun account roleId h => ?_
        cases h
        exact hR _ _ ⟨response, Or.inl ⟨hget, hparse⟩, rfl, rfl⟩
      dsimp only
      split
      · exact hrole
      · split_ifs
        · split
          · exact hrole
          · exact answer (hrole.trans (clientSend _ _ _))
        · split
          · exact hrole.trans (of_eq rfl rfl rfl)
          · split_ifs
            · refine trans ?_ (clientSend _ _ _)
              exact hrole.trans (of_eq rfl rfl rfl)
            · refine trans (trans ?_ (clientSend _ _ _)) (of_eq rfl rfl rfl)
              exact hrole.trans (of_eq rfl rfl rfl)
  · unfold GateGameHandler.processCreateRoleResponse
    split
    · exact refl g
    · rename_i response hparse
      have hrole : Grantless F R g (g.observe (.role response.account response.roleData.roleId)) := by
        refine observe fun account roleId h => ?_
        cases h
        exact hR _ _ ⟨response, Or.inr ⟨hcreate, hparse⟩, rfl, rfl⟩
      dsimp only
      split
      · exact hrole
      · split
        · exact hrole.trans (of_eq rfl rfl rfl)
        · refine answer (trans ?_ (clientSend _ _ _))
          exact hrole.trans (of_eq rfl rfl rfl)
  · unfold GateGameHandler.processDefault
    split_ifs
    · exact refl g
    · exact refl g
    · split
      · exact refl g
      · exact answer (clientSend _ _ _)

end handlers

end Grantless

/-- The packet is no plain `GetRole` request, or the event is the request of a client with a session that the gate
has. -/
def Gate.Admits (P : Protocol) (g : Gate) (e : GateEvent) (packet : Packet) : Prop :=
  packet.userId = none → packet.msgId = MsgId.gt2gsGetRoleRequest →
    ∃ time code connId data request granted, e = .client time code connId MsgId.c2sGetRoleRequest data ∧
      packet.data = short data ∧ P.c2sGetRoleRequest.parse data = some request ∧
      g.mgr.accountSessionMap request.account = some ⟨request.enterSession, granted⟩ ∧ time - granted ≤ 100

/-- An event other than a grant. -/
def GateEvent.IsGrant : GateEvent → Prop
  | .session _ _ _ => True
  | _ => False

/-- The event is a response of the game server that gives the role to the account. -/
def GateEvent.Hears (P : Protocol) (e : GateEvent) (account : Str) (roleId : BitVec 64) : Prop :=
  ∃ session userId msgId data, e = .game session userId msgId data ∧
    GateGameHandler.Hears P ⟨userId, msgId, data, data.length, 0⟩ account roleId

/-- An event of the gate that grants no session. -/
theorem Grantless.step {P : Protocol} {g g' : Gate} {e : GateEvent} (hnot : ¬e.IsGrant) (h : g.step P e = some g') :
    Grantless (g.Admits P e) (e.Hears P) g g' := by
  have hF : ∀ packet : Packet, (packet.userId = none → packet.msgId ≠ MsgId.gt2gsGetRoleRequest) →
      g.Admits P e packet := fun packet hne hnone hmsg => absurd hmsg (hne hnone)
  cases e with
  | connect =>
      cases h
      exact of_eq rfl rfl rfl
  | drop connId =>
      cases h
      exact connForceClose connId
  | revive connId =>
      simp only [Gate.step, Option.ite_none_right_eq_some, Option.some.injEq] at h
      exact h.2 ▸ of_eq rfl rfl rfl
  | release connId =>
      simp only [Gate.step, Option.ite_none_right_eq_some, Option.some.injEq] at h
      exact h.2 ▸ of_eq rfl rfl rfl
  | session time account session => exact absurd trivial hnot
  | client time code connId msgId data =>
      simp only [Gate.step, Option.ite_none_right_eq_some, Option.some.injEq] at h
      obtain ⟨-, rfl⟩ := h
      have hhandle : Grantless (g.Admits P (.client time code connId msgId data))
          (GateEvent.Hears P (.client time code connId msgId data)) g
          (g.onClient P time code connId msgId data).2 := by
        unfold Gate.onClient ClientHandler.handle
        dsimp only
        split_ifs with hgetRole
        · subst hgetRole
          refine processGetRoleRequest fun request granted hparse hsession hage _ _ => ?_
          exact ⟨time, code, connId, data, request, granted, rfl, rfl, hparse, hsession, hage⟩
        · exact processCreateRoleRequest hF
        · exact processEnterGameRequest hF
        · exact processLeaveGameRequest hF
        · exact processReconnectRequest
        · exact processDefault hF
      unfold Gate.closeOnError
      split_ifs
      · exact hhandle.trans (connForceClose connId)
      · exact hhandle
  | game session userId msgId data =>
      simp only [Gate.step, Option.ite_none_right_eq_some, Option.some.injEq] at h
      obtain ⟨-, rfl⟩ := h
      have hhandle : Grantless (g.Admits P (.game session userId msgId data))
          (GateEvent.Hears P (.game session userId msgId data)) g
          (GateGameHandler.handle P session g ⟨userId, msgId, data, data.length, 0⟩).2 :=
        handleGame hF fun _ _ h => ⟨session, userId, msgId, data, rfl, h⟩
      unfold Gate.closeGameOnError
      split_ifs
      · exact hhandle.trans (of_eq rfl rfl rfl)
      · exact hhandle

end JmyGame
