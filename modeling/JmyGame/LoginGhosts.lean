import JmyGame.LoginHandlers

/-! Logins and the connections they are on. A login that comes on a connection without an account, whose
disconnect event has not happened, leaves the agents of the login server true to what happened: no agent
is on a connection that is gone. A second login on a connection leaves an agent behind that no disconnect
event removes. -/

namespace JmyGame

open CArith

/-- The account that an observation logs in on a connection. -/
def loginOn (connId : ℤ) : LoginObs → Option Str
  | .login c account => if c = connId then some account else none
  | _ => none

/-- The account of the last login on a connection. -/
def lastLogin (trace : List LoginObs) (connId : ℤ) : Option Str :=
  (trace.filterMap (loginOn connId)).getLast?

theorem lastLogin_append_of_none {trace : List LoginObs} {connId : ℤ} {o : LoginObs}
    (h : loginOn connId o = none) : lastLogin (trace ++ [o]) connId = lastLogin trace connId := by
  simp only [lastLogin, List.filterMap_append, List.filterMap_cons, h, List.filterMap_nil,
    List.append_nil]

theorem lastLogin_append_of_some {trace : List LoginObs} {connId : ℤ} {o : LoginObs} {account : Str}
    (h : loginOn connId o = some account) : lastLogin (trace ++ [o]) connId = some account := by
  simp only [lastLogin, List.filterMap_append, List.filterMap_cons, h, List.filterMap_nil,
    List.getLast?_append, List.getLast?_singleton, Option.some_or]

theorem lastLogin_observe_login {s : LoginServer} {connId : ℤ} {account : Str} :
    lastLogin (s.observe (.login connId account)).trace connId = some account :=
  lastLogin_append_of_some (if_pos rfl)

/-- An observation that is no disconnect event leaves the connections that are gone. -/
theorem gone_observe {s : LoginServer} {connId : ℤ} {o : LoginObs} (h : o ≠ .disconnect connId) :
    .disconnect connId ∈ (s.observe o).trace ↔ .disconnect connId ∈ s.trace := by
  change _ ∈ s.trace ++ [o] ↔ _
  rw [List.mem_append, List.mem_singleton]
  exact or_iff_left h.symm

/-- No ghosts: no agent is on a connection whose disconnect event has happened, and the account of a
connection is that of the last login on it. -/
structure NoGhosts (s : LoginServer) : Prop where
  agents : ∀ connId, .disconnect connId ∈ s.trace →
    ∀ account agent, s.clients.getAgent account = some agent → agent.connId ≠ connId
  account : ∀ connId, s.clients.getKeyByConnId connId =
    if .disconnect connId ∈ s.trace then none else lastLogin s.trace connId

/-- The response to a login goes out on a connection that is connected. -/
def LoginServer.responds (P : LoginProtocol) (s : LoginServer) : Bool :=
  (P.loginResponse.serializeToArray maxMsgSize (s.gateConfList.map LoginClientHandler.serverInfo)).any
    (sendTakes MsgId.s2cLoginResponse)

/-- A login that is handled comes on a connection that has no account, and it comes before the disconnect
event of the connection, unless it is refused for its response anyway. -/
def LoginSafe (P : LoginProtocol) (s : LoginServer) : LoginEvent → Prop
  | .client connId msgId data =>
    s.conns.state connId = some .connected → msgId = MsgId.c2sLoginRequest →
      (P.loginRequest.parse data).isSome → s.clients.getKeyByConnId connId = none ∧
        (.disconnect connId ∈ s.trace → s.responds P = false)
  | _ => True

/-- The maps of the agents agree, agents are on live connections, and, unless its login is under way, the
disconnect event of the connection of an agent has not happened and a connection has the account of its last
login. -/
structure Kept (busy : ℤ → Prop) (s : LoginServer) : Prop where
  consistent : s.clients.Consistent
  live : ∀ account agent, s.clients.getAgent account = some agent →
    s.conns.Live agent.connId ∧ (.disconnect agent.connId ∈ s.trace → busy agent.connId)
  account : ∀ connId, ¬busy connId → s.clients.getKeyByConnId connId =
    if .disconnect connId ∈ s.trace then none else lastLogin s.trace connId

/-- No login is under way. -/
abbrev Settled : LoginServer → Prop := Kept fun _ => False

theorem Settled.noGhosts {s : LoginServer} (h : Settled s) : NoGhosts s where
  agents _ hgone account agent hagent heq := (h.live account agent hagent).2 (heq ▸ hgone)
  account connId := h.account connId id

theorem settled_start (serverId maxConn : ℤ) : Settled (.start serverId maxConn) where
  consistent := AgentManager.consistent_empty
  live account agent hagent := by
    have hnone : (LoginServer.start serverId maxConn).clients.getAgent account = none :=
      UnorderedMap.find_empty
    rw [hnone] at hagent
    cases hagent
  account connId _ := UnorderedMap.find_empty

/-- The step keeps the keys, the connections of the agents and what happened to connections. -/
structure Unseen (s s' : LoginServer) : Prop where
  consistent : s.clients.Consistent → s'.clients.Consistent
  agents : ∀ account, (s'.clients.getAgent account).map Agent.connId =
    (s.clients.getAgent account).map Agent.connId
  keys : ∀ connId, s'.clients.getKeyByConnId connId = s.clients.getKeyByConnId connId
  conns : s'.conns = s.conns
  gone : ∀ connId, .disconnect connId ∈ s'.trace ↔ .disconnect connId ∈ s.trace
  logins : ∀ connId, lastLogin s'.trace connId = lastLogin s.trace connId

namespace Unseen

variable {s s' s'' : LoginServer}

theorem of_eq (hclients : s'.clients = s.clients) (hconns : s'.conns = s.conns)
    (htrace : s'.trace = s.trace) : Unseen s s' where
  consistent := by rw [hclients]; exact id
  agents _ := by rw [hclients]
  keys _ := by rw [hclients]
  conns := hconns
  gone _ := by rw [htrace]
  logins _ := by rw [htrace]

theorem refl (s : LoginServer) : Unseen s s := of_eq rfl rfl rfl

theorem trans (h : Unseen s s') (h' : Unseen s' s'') : Unseen s s'' where
  consistent hs := h'.consistent (h.consistent hs)
  agents account := (h'.agents account).trans (h.agents account)
  keys connId := (h'.keys connId).trans (h.keys connId)
  conns := h'.conns.trans h.conns
  gone connId := (h'.gone connId).trans (h.gone connId)
  logins connId := (h'.logins connId).trans (h.logins connId)

/-- An observation that is not about connections and logins is not seen. -/
theorem observe {o : LoginObs} (hgone : ∀ connId, o ≠ .disconnect connId)
    (hlogin : ∀ connId, loginOn connId o = none) : Unseen s (s.observe o) where
  consistent := id
  agents _ := rfl
  keys _ := rfl
  conns := rfl
  gone connId := gone_observe (hgone connId)
  logins connId := lastLogin_append_of_none (hlogin connId)

/-- An agent gets new data. -/
theorem modifyAgent (account : Str) (f : Agent ClientData → Agent ClientData)
    (hf : ∀ agent, (f agent).connId = agent.connId) :
    Unseen s { s with clients := s.clients.modifyAgent account f } where
  consistent hs := hs.modifyAgent hf
  agents _ := AgentManager.modifyAgent_connId hf
  keys _ := rfl
  conns := rfl
  gone _ := Iff.rfl
  logins _ := rfl

theorem setState (account : Str) (state : AgentStateType) :
    Unseen s { s with clients := s.clients.modifyAgent account fun agent => { agent with state := state } } :=
  modifyAgent account _ fun _ => rfl

/-- What the step does not see is kept. -/
theorem kept (h : Unseen s s') {busy : ℤ → Prop} (hs : Kept busy s) : Kept busy s' where
  consistent := h.consistent hs.consistent
  live account agent' hagent' := by
    have hmap : (s.clients.getAgent account).map Agent.connId = some agent'.connId := by
      rw [← h.agents, hagent', Option.map_some]
    obtain ⟨agent, hagent, hconn⟩ := Option.map_eq_some_iff.1 hmap
    rw [h.conns, h.gone, ← hconn]
    exact hs.live account agent hagent
  account connId hbusy := by
    rw [h.keys, h.logins, hs.account connId hbusy]
    simp only [h.gone]

variable {connId : ℤ} {msgId : MsgId} {data : List Byte} {account : Str} {P : LoginProtocol}

theorem connSend : Unseen s (s.connSend connId msgId data).2 := by
  unfold LoginServer.connSend
  split_ifs
  · exact observe nofun fun _ => rfl
  · exact refl s

theorem clientSend : Unseen s (s.clientSend account msgId data).2 := by
  unfold LoginServer.clientSend
  split
  · exact refl s
  · split_ifs
    · exact refl s
    · exact connSend

theorem gateSend {gateId : ℤ} : Unseen s (s.gateSend gateId msgId data).2 := by
  unfold LoginServer.gateSend
  split
  · exact refl s
  · split_ifs
    · exact refl s
    · unfold LoginServer.gateConnSend
      split_ifs
      · exact observe nofun fun _ => rfl
      · exact refl s

theorem sendError {error : LoginError} : Unseen s (s.sendError P connId error) := connSend

theorem writeTmp {bytes : List Byte} : Unseen s (s.writeTmp bytes) := of_eq rfl rfl rfl

variable {info : JmyMsgInfo}

theorem processSelectServer : Unseen s (LoginClientHandler.processSelectServer P s info).2 := by
  unfold LoginClientHandler.processSelectServer
  split
  · exact sendError
  · split
    · exact sendError
    · split
      · exact sendError
      · split
        · exact refl s
        · dsimp only
          split_ifs
          · exact writeTmp.trans gateSend
          · exact (writeTmp.trans gateSend).trans (modifyAgent _ _ fun _ => rfl)

theorem processEcho : Unseen s (LoginClientHandler.processEcho P s info).2 := by
  unfold LoginClientHandler.processEcho
  split
  · exact refl s
  · split
    · exact refl s
    · split
      · exact refl s
      · exact writeTmp

theorem processConnectLogin : Unseen s (LoginGateHandler.processConnectLogin P s info).2 := by
  unfold LoginGateHandler.processConnectLogin
  split
  · exact refl s
  · split
    · exact refl s
    · split
      · exact refl s
      · dsimp only
        split
        · exact of_eq rfl rfl rfl
        · split_ifs
          · refine trans ?_ gateSend
            exact of_eq rfl rfl rfl
          · refine trans ?_ gateSend
            exact of_eq rfl rfl rfl

theorem processSelectedServerResponse :
    Unseen s (LoginGateHandler.processSelectedServerResponse P s info).2 := by
  unfold LoginGateHandler.processSelectedServerResponse
  split
  · exact refl s
  · split
    · exact refl s
    · split
      · exact refl s
      · split
        · exact refl s
        · split
          · exact refl s
          · dsimp only
            split_ifs
            · exact clientSend
            · exact clientSend

theorem gateForceClose : Unseen s (s.gateForceClose connId) := by
  unfold LoginServer.gateForceClose
  split_ifs
  · exact of_eq rfl rfl rfl
  · exact refl s

/-- The messages of gates leave the connections of clients and their accounts alone. -/
theorem gateHandle : Unseen s (LoginGateHandler.handle P s info).2 := by
  unfold LoginGateHandler.handle
  split_ifs
  · exact processConnectLogin
  · exact processSelectedServerResponse
  · exact refl s

theorem closeGateOnError {r : ℤ × LoginServer} (h : Unseen s r.2) :
    Unseen s (LoginServer.closeGateOnError connId r) := by
  unfold LoginServer.closeGateOnError
  split_ifs
  · exact h.trans gateForceClose
  · exact h

end Unseen

section close

variable {s : LoginServer} {connId : ℤ}

/-- With maps that agree the disconnect event deletes the agent on the connection. -/
theorem onDisconnect_eq (h : s.clients.Consistent) :
    s.onDisconnect connId =
      { s.observe (.disconnect connId) with clients := (s.clients.deleteAgentByConnId connId).2 } := by
  unfold LoginServer.onDisconnect
  have hclients : (s.observe (.disconnect connId)).clients = s.clients := rfl
  dsimp only
  rw [hclients]
  cases hagent : s.clients.getAgentByConnId connId with
  | some agent => rfl
  | none =>
      have hkey : s.clients.getKeyByConnId connId = none := by
        by_contra hne
        obtain ⟨account, haccount⟩ := Option.ne_none_iff_exists'.1 hne
        obtain ⟨agent, hfound, -⟩ := (h.keys connId account).1 haccount
        rw [AgentManager.getAgentByConnId, haccount, Option.bind_some, hfound] at hagent
        cases hagent
      unfold AgentManager.deleteAgentByConnId
      rw [hkey]
      rfl

/-- What `force_close` does to a live connection. -/
theorem connForceClose_of_live (h : s.clients.Consistent) (hlive : s.conns.Live connId) :
    s.connForceClose connId = { s.observe (.disconnect connId) with
      conns := s.conns.set connId (some .disconnected)
      clients := (s.clients.deleteAgentByConnId connId).2 } := by
  unfold LoginServer.connForceClose
  rw [if_pos hlive, onDisconnect_eq]
  · rfl
  · exact h

/-- A live connection that closes takes its agent with it, and what its login had not done yet. -/
theorem Kept.close {busy : ℤ → Prop} (h : Kept busy s) (hbusy : ∀ c, busy c → c = connId)
    (hlive : s.conns.Live connId) : Settled (s.connForceClose connId) := by
  rw [connForceClose_of_live h.consistent hlive]
  have hgone : ∀ c, .disconnect c ∈ s.trace ++ [LoginObs.disconnect connId] ↔
      .disconnect c ∈ s.trace ∨ c = connId := by
    intro c
    rw [List.mem_append, List.mem_singleton, LoginObs.disconnect.injEq]
  constructor
  · exact h.consistent.deleteAgentByConnId
  · intro account agent hagent
    obtain ⟨hagent, hne⟩ := h.consistent.deleteAgentByConnId_getAgent.1 hagent
    obtain ⟨hlive', hgone'⟩ := h.live account agent hagent
    refine ⟨?_, ?_⟩
    · unfold Conns.Live Conns.set
      dsimp only
      rw [Function.update_of_ne hne]
      exact hlive'
    · exact fun hmem => hne (((hgone agent.connId).1 hmem).elim (hbusy _ ∘ hgone') id)
  · intro c _
    change (s.clients.deleteAgentByConnId connId).2.getKeyByConnId c =
      if .disconnect c ∈ s.trace ++ [LoginObs.disconnect connId] then none
      else lastLogin (s.trace ++ [LoginObs.disconnect connId]) c
    rw [h.consistent.deleteAgentByConnId_getKeyByConnId, lastLogin_append_of_none rfl]
    simp only [hgone]
    by_cases hc : c = connId
    · rw [if_pos hc, if_pos (Or.inr hc)]
    · rw [if_neg hc, h.account c fun hb => hc (hbusy c hb)]
      simp only [hc, or_false]

/-- A connection that closes leaves no ghost. -/
theorem Settled.connForceClose (h : Settled s) : Settled (s.connForceClose connId) := by
  by_cases hlive : s.conns.Live connId
  · exact Kept.close h (fun _ => False.elim) hlive
  · unfold LoginServer.connForceClose
    rw [if_neg hlive]
    exact h

theorem Settled.closeOnError {r : ℤ × LoginServer} (h : Settled r.2) :
    Settled (LoginServer.closeOnError connId r) := by
  unfold LoginServer.closeOnError
  split_ifs
  · exact h.connForceClose
  · exact h

end close

section login

variable {s : LoginServer} {connId : ℤ} {account : Str}

/-- The kick of an account leaves no agent with it. -/
theorem kick_getAgent (h : Settled s) :
    (LoginClientHandler.kick s account).clients.getAgent account = none := by
  unfold LoginClientHandler.kick
  cases hagent : s.clients.getAgent account with
  | none => exact hagent
  | some agent =>
      have hclosed : Settled (s.connForceClose agent.connId) := h.connForceClose
      change ((s.connForceClose agent.connId).clients.deleteAgent account).2.getAgent account = none
      rw [hclosed.consistent.deleteAgent_getAgent, if_pos rfl]

/-- The kick of an account is the close of the connection it is on. -/
theorem kick_eq (h : Settled s) {agent : Agent ClientData} (hagent : s.clients.getAgent account = some agent) :
    LoginClientHandler.kick s account = s.connForceClose agent.connId := by
  have hlive := (h.live account agent hagent).1
  have hnone : (s.connForceClose agent.connId).clients.getAgent account = none := by
    rw [connForceClose_of_live h.consistent hlive]
    change (s.clients.deleteAgentByConnId agent.connId).2.getAgent account = none
    rw [Option.eq_none_iff_forall_ne_some]
    intro agent' hagent'
    obtain ⟨hagent', hne⟩ := h.consistent.deleteAgentByConnId_getAgent.1 hagent'
    obtain rfl := Option.some.inj (hagent.symm.trans hagent')
    exact hne rfl
  unfold LoginClientHandler.kick
  rw [hagent]
  dsimp only
  rw [AgentManager.deleteAgent_of_none hnone]

theorem Settled.kick (h : Settled s) : Settled (LoginClientHandler.kick s account) := by
  cases hagent : s.clients.getAgent account with
  | none =>
      unfold LoginClientHandler.kick
      rw [hagent]
      exact h
  | some agent =>
      rw [kick_eq h hagent]
      exact h.connForceClose

/-- A connection that does not have the account is not the one that the kick closes. -/
theorem kick_frame (h : Settled s) (hkey : s.clients.getKeyByConnId connId ≠ some account) :
    (LoginClientHandler.kick s account).clients.getKeyByConnId connId = s.clients.getKeyByConnId connId ∧
    (LoginClientHandler.kick s account).conns.state connId = s.conns.state connId ∧
    (.disconnect connId ∈ (LoginClientHandler.kick s account).trace ↔ .disconnect connId ∈ s.trace) := by
  cases hagent : s.clients.getAgent account with
  | none =>
      unfold LoginClientHandler.kick
      rw [hagent]
      exact ⟨rfl, rfl, Iff.rfl⟩
  | some agent =>
      have hne : connId ≠ agent.connId := by
        intro heq
        exact hkey ((h.consistent.keys connId account).2 ⟨agent, hagent, heq.symm⟩)
      rw [kick_eq h hagent, connForceClose_of_live h.consistent (h.live account agent hagent).1]
      refine ⟨?_, ?_, ?_⟩
      · change (s.clients.deleteAgentByConnId agent.connId).2.getKeyByConnId connId = _
        rw [h.consistent.deleteAgentByConnId_getKeyByConnId, if_neg hne]
      · exact Function.update_of_ne hne _ _
      · change _ ∈ s.trace ++ [LoginObs.disconnect agent.connId] ↔ _
        rw [List.mem_append, List.mem_singleton, LoginObs.disconnect.injEq]
        exact or_iff_left hne

/-- What a login does once the account is free: a new agent for the account on the connection, and nothing
else that the invariant sees. -/
def Enrols (s : LoginServer) (account : Str) (connId : ℤ) (s' : LoginServer) : Prop :=
  ∃ clients, s.clients.newAgent account connId = some clients ∧ Unseen { s with clients := clients } s'

variable {s' : LoginServer}

namespace Enrols

theorem conns (h : Enrols s account connId s') : s'.conns = s.conns := by
  obtain ⟨clients, -, hunseen⟩ := h
  exact hunseen.conns

theorem gone (h : Enrols s account connId s') (c : ℤ) :
    .disconnect c ∈ s'.trace ↔ .disconnect c ∈ s.trace := by
  obtain ⟨clients, -, hunseen⟩ := h
  exact hunseen.gone c

theorem agent (h : Enrols s account connId s') :
    (s'.clients.getAgent account).map Agent.connId = some connId := by
  obtain ⟨clients, hnew, hunseen⟩ := h
  rw [hunseen.agents]
  change (clients.getAgent account).map Agent.connId = some connId
  rw [AgentManager.newAgent_getAgent hnew, if_pos rfl]
  rfl

/-- A new agent on a live connection without an account is a login under way. -/
theorem kept (h : Enrols s account connId s') (hs : Settled s)
    (hfree : s.clients.getKeyByConnId connId = none) (hlive : s.conns.Live connId) :
    Kept (· = connId) s' := by
  obtain ⟨clients, hnew, hunseen⟩ := h
  apply hunseen.kept
  constructor
  · exact hs.consistent.newAgent hnew hfree
  · intro account' agent hagent
    change clients.getAgent account' = some agent at hagent
    rw [AgentManager.newAgent_getAgent hnew] at hagent
    split_ifs at hagent
    · obtain rfl := Option.some.inj hagent
      exact ⟨hlive, fun _ => rfl⟩
    · obtain ⟨hlive', hgone⟩ := hs.live account' agent hagent
      exact ⟨hlive', fun hmem => (hgone hmem).elim⟩
  · intro c hc
    change clients.getKeyByConnId c = _
    rw [AgentManager.newAgent_getKeyByConnId hnew hfree, if_neg hc]
    exact hs.account c id

theorem key (h : Enrols s account connId s') (hfree : s.clients.getKeyByConnId connId = none) :
    s'.clients.getKeyByConnId connId = some account := by
  obtain ⟨clients, hnew, hunseen⟩ := h
  rw [hunseen.keys]
  exact (AgentManager.newAgent_getKeyByConnId hnew hfree).trans (if_pos rfl)

/-- A connection that has an account keeps it. -/
theorem key_of_some (h : Enrols s account connId s') {account' : Str}
    (hkey : s.clients.getKeyByConnId connId = some account') :
    s'.clients.getKeyByConnId connId = some account' := by
  obtain ⟨clients, hnew, hunseen⟩ := h
  rw [hunseen.keys]
  exact AgentManager.newAgent_getKeyByConnId_of_some hnew hkey

end Enrols

/-- A login is done when it is recorded. -/
theorem Kept.login (h : Kept (· = connId) s) (hkey : s.clients.getKeyByConnId connId = some account)
    (hgone : .disconnect connId ∉ s.trace) : Settled (s.observe (.login connId account)) := by
  have hmem : ∀ c, .disconnect c ∈ (s.observe (.login connId account)).trace ↔ .disconnect c ∈ s.trace :=
    fun _ => gone_observe nofun
  constructor
  · exact h.consistent
  · intro account' agent hagent
    obtain ⟨hlive, hbusy⟩ := h.live account' agent hagent
    rw [hmem]
    exact ⟨hlive, fun hmem' => hgone (hbusy hmem' ▸ hmem')⟩
  · intro c _
    simp only [hmem]
    by_cases hc : c = connId
    · rw [hc, if_neg hgone, lastLogin_observe_login]
      exact hkey
    · have hlast : lastLogin (s.observe (.login connId account)).trace c = lastLogin s.trace c :=
        lastLogin_append_of_none (if_neg (Ne.symm hc))
      rw [hlast]
      exact h.account c hc

variable {P : LoginProtocol} {info : JmyMsgInfo} {request : MsgLoginRequest}

theorem clientSend_fst {msgId : MsgId} {data : List Byte} {agent : Agent ClientData}
    (hagent : s.clients.getAgent account = some agent) (hverified : agent.state = .verified) :
    (s.clientSend account msgId data).1 < 0 ↔
      ¬(s.conns.state agent.connId = some .connected ∧ sendTakes msgId data = true) := by
  unfold LoginServer.clientSend LoginServer.connSend
  simp only [hagent, hverified, ne_eq, not_true_eq_false, if_false]
  split_ifs with hsend hneg
  · exact absurd hneg (by omega)
  · simp [hsend]
  · simp [hsend]
  · omega

theorem kick_gateConfList (h : Settled s) :
    (LoginClientHandler.kick s account).gateConfList = s.gateConfList := by
  cases hagent : s.clients.getAgent account with
  | none =>
      unfold LoginClientHandler.kick
      rw [hagent]
  | some agent =>
      rw [kick_eq h hagent, connForceClose_of_live h.consistent (h.live account agent hagent).1]
      rfl

/-- The response to a login either goes out, and the login is recorded, or the connection closes. -/
theorem closeOnError_respondLogin (P : LoginProtocol) (s : LoginServer) (info : JmyMsgInfo)
    {agent : Agent ClientData} (hagent : s.clients.getAgent account = some agent)
    (hverified : agent.state = .verified) (hconn : agent.connId = info.connId)
    {s₀ : LoginServer} (hlist : s.gateConfList = s₀.gateConfList) :
    ∃ s', Unseen s s' ∧
      LoginServer.closeOnError info.connId (LoginClientHandler.respondLogin P s info account) =
        if s'.conns.state info.connId = some .connected ∧ s₀.responds P = true then
          s'.observe (.login info.connId account)
        else s'.connForceClose info.connId := by
  have hclose : ∀ s', LoginServer.closeOnError info.connId (-1, s') = s'.connForceClose info.connId :=
    fun _ => if_pos (by decide : (-1 : ℤ) < 0)
  have hkeep : ∀ s', LoginServer.closeOnError info.connId ((info.len : ℤ), s') = s' :=
    fun _ => if_neg (not_lt.2 (Int.natCast_nonneg info.len))
  unfold LoginClientHandler.respondLogin LoginServer.responds
  rw [← hlist]
  cases P.loginResponse.serializeToArray maxMsgSize (s.gateConfList.map LoginClientHandler.serverInfo) with
  | none =>
      refine ⟨s, Unseen.refl s, ?_⟩
      dsimp only
      rw [hclose, if_neg]
      exact fun hresponds => Bool.false_ne_true hresponds.2
  | some tmp =>
      have hunseen : Unseen s ((s.writeTmp tmp).clientSend account MsgId.s2cLoginResponse tmp).2 :=
        Unseen.writeTmp.trans Unseen.clientSend
      have hsent : ((s.writeTmp tmp).clientSend account MsgId.s2cLoginResponse tmp).1 < 0 ↔
          ¬(s.conns.state info.connId = some .connected ∧ sendTakes MsgId.s2cLoginResponse tmp = true) := by
        rw [← hconn]
        exact clientSend_fst hagent hverified
      refine ⟨_, hunseen, ?_⟩
      dsimp only
      rw [hunseen.conns, Option.any_some]
      by_cases hneg : ((s.writeTmp tmp).clientSend account MsgId.s2cLoginResponse tmp).1 < 0
      · rw [if_pos hneg, hclose, if_neg (hsent.1 hneg)]
      · rw [if_neg hneg, hkeep, if_pos (not_not.1 (hsent.not.1 hneg))]

/-- What a login that parses does: it kicks the account, enrols it on its connection and either records the
login or closes the connection. -/
theorem closeOnError_processLogin (h : Settled s) (hparse : P.loginRequest.parse info.data = some request) :
    ∃ s', Enrols (LoginClientHandler.kick s request.account) request.account info.connId s' ∧
      LoginServer.closeOnError info.connId (LoginClientHandler.processLogin P s info) =
        if s'.conns.state info.connId = some .connected ∧ s.responds P = true then
          s'.observe (.login info.connId request.account)
        else s'.connForceClose info.connId := by
  obtain ⟨clients, hnew⟩ := AgentManager.newAgent_of_none (kick_getAgent h) info.connId
  have hagent : (clients.modifyAgent request.account fun agent => { agent with state := .verified }).getAgent
      request.account = some (.make info.connId) := by
    rw [AgentManager.modifyAgent_getAgent, if_pos rfl, AgentManager.newAgent_getAgent hnew, if_pos rfl]
    rfl
  unfold LoginClientHandler.processLogin
  rw [hparse]
  dsimp only
  rw [hnew]
  dsimp only
  obtain ⟨s', hunseen, hclose⟩ := closeOnError_respondLogin P { LoginClientHandler.kick s request.account with
    clients := clients.modifyAgent request.account fun agent => { agent with state := .verified } } info
      hagent rfl rfl (kick_gateConfList h)
  exact ⟨s', ⟨clients, hnew, (Unseen.setState request.account .verified).trans hunseen⟩, hclose⟩

/-- A safe login is done or closes its connection. -/
theorem Settled.processLogin (h : Settled s) (hconn : s.conns.state info.connId = some .connected)
    (hparse : P.loginRequest.parse info.data = some request)
    (hfree : s.clients.getKeyByConnId info.connId = none)
    (hgone : .disconnect info.connId ∈ s.trace → s.responds P = false) :
    Settled (LoginServer.closeOnError info.connId (LoginClientHandler.processLogin P s info)) := by
  obtain ⟨s', henrols, hclose⟩ := closeOnError_processLogin h hparse
  obtain ⟨hfree₁, hconn₁, hgone₁⟩ := kick_frame h (hfree.trans_ne (Option.some_ne_none request.account).symm)
  rw [hfree] at hfree₁
  have hlive₁ : (LoginClientHandler.kick s request.account).conns.Live info.connId := by
    unfold Conns.Live
    rw [hconn₁, hconn]
    decide
  have hkept := henrols.kept h.kick hfree₁ hlive₁
  rw [hclose]
  split_ifs with hresponds
  · refine hkept.login (henrols.key hfree₁) ?_
    rw [henrols.gone, hgone₁]
    intro hmem
    rw [hgone hmem] at hresponds
    exact Bool.false_ne_true hresponds.2
  · refine hkept.close (fun _ => id) ?_
    rw [henrols.conns]
    exact hlive₁

/-- An agent on a connection whose disconnect event has happened is a ghost. -/
theorem not_noGhosts_of_agent (hagent : (s.clients.getAgent account).map Agent.connId = some connId)
    (hgone : .disconnect connId ∈ s.trace) : ¬NoGhosts s := by
  intro h
  obtain ⟨agent, hfound, hconn⟩ := Option.map_eq_some_iff.1 hagent
  exact h.agents connId hgone account agent hfound hconn

/-- A login with an account that is on the connection already kicks its own connection and leaves a ghost. -/
theorem ghost_of_same (h : Settled s) (hkey : s.clients.getKeyByConnId info.connId = some request.account)
    (hparse : P.loginRequest.parse info.data = some request) :
    ¬NoGhosts (LoginServer.closeOnError info.connId (LoginClientHandler.processLogin P s info)) := by
  obtain ⟨agent, hagent, hconn⟩ := (h.consistent.keys _ _).1 hkey
  obtain ⟨s', henrols, hclose⟩ := closeOnError_processLogin h hparse
  have hkick : LoginClientHandler.kick s request.account = { s.observe (.disconnect info.connId) with
      conns := s.conns.set info.connId (some .disconnected)
      clients := (s.clients.deleteAgentByConnId info.connId).2 } := by
    have hlive := (h.live _ agent hagent).1
    rw [hconn] at hlive
    rw [kick_eq h hagent, hconn, connForceClose_of_live h.consistent hlive]
  have hstate : s'.conns.state info.connId = some .disconnected := by
    rw [henrols.conns, hkick]
    exact Function.update_self _ _ _
  have hgone : .disconnect info.connId ∈ s'.trace := by
    rw [henrols.gone, hkick]
    exact List.mem_append_right _ List.mem_cons_self
  rw [hclose, if_neg (fun hresponds => by rw [hstate] at hresponds; cases hresponds.1)]
  unfold LoginServer.connForceClose
  rw [if_neg (fun hlive => hlive.2 hstate)]
  exact not_noGhosts_of_agent henrols.agent hgone

/-- A live connection that closes does not take an agent with it whose account it does not have. -/
theorem connForceClose_leaves (hlive : s.conns.Live connId)
    (hkey : s.clients.getKeyByConnId connId ≠ some account) :
    (s.connForceClose connId).clients.getAgent account = s.clients.getAgent account ∧
    .disconnect connId ∈ (s.connForceClose connId).trace := by
  have hmem : LoginObs.disconnect connId ∈ s.trace ++ [.disconnect connId] :=
    List.mem_append_right _ List.mem_cons_self
  unfold LoginServer.connForceClose LoginServer.onDisconnect
  rw [if_pos hlive]
  dsimp only
  split
  · exact ⟨rfl, hmem⟩
  · refine ⟨?_, hmem⟩
    change (s.clients.deleteAgentByConnId connId).2.getAgent account = _
    unfold AgentManager.deleteAgentByConnId
    cases hfound : s.clients.getKeyByConnId connId with
    | none => rfl
    | some account' =>
        rw [hfound] at hkey
        exact AgentManager.deleteAgent_getAgent_of_ne fun heq => hkey (congrArg some heq.symm)

/-- A login on a connection that has another account leaves that account on the connection, or a ghost. -/
theorem ghost_of_other (h : Settled s) (hconn : s.conns.state info.connId = some .connected)
    {account' : Str} (hkey : s.clients.getKeyByConnId info.connId = some account')
    (hne : account' ≠ request.account) (hparse : P.loginRequest.parse info.data = some request) :
    ¬NoGhosts (LoginServer.closeOnError info.connId (LoginClientHandler.processLogin P s info)) := by
  have hkey₀ : s.clients.getKeyByConnId info.connId ≠ some request.account := by
    rw [hkey]
    exact fun heq => hne (Option.some.inj heq)
  obtain ⟨hkey₁, hconn₁, hgone₁⟩ := kick_frame h hkey₀
  obtain ⟨s', henrols, hclose⟩ := closeOnError_processLogin h hparse
  have hkey' : s'.clients.getKeyByConnId info.connId = some account' := henrols.key_of_some (hkey₁.trans hkey)
  rw [hclose]
  split_ifs with hresponds
  · intro hghosts
    have hlast := hghosts.account info.connId
    have hgone : .disconnect info.connId ∉ s.trace := by
      intro hmem
      have hnone := h.account info.connId id
      rw [if_pos hmem, hkey] at hnone
      cases hnone
    rw [if_neg, lastLogin_observe_login] at hlast
    · exact hne (Option.some.inj (hkey'.symm.trans hlast))
    · have hlogin : LoginObs.login info.connId request.account ≠ .disconnect info.connId := nofun
      rw [gone_observe hlogin, henrols.gone, hgone₁]
      exact hgone
  · have hlive : s'.conns.Live info.connId := by
      unfold Conns.Live
      rw [henrols.conns, hconn₁, hconn]
      decide
    have hkey₂ : s'.clients.getKeyByConnId info.connId ≠ some request.account := by
      rw [hkey', ← hkey]
      exact hkey₀
    obtain ⟨hagent, hmem⟩ := connForceClose_leaves hlive hkey₂
    exact not_noGhosts_of_agent (hagent ▸ henrols.agent) hmem

/-- A login on a connection whose disconnect event has happened is a ghost once its response goes out. -/
theorem ghost_of_gone (h : Settled s) (hconn : s.conns.state info.connId = some .connected)
    (hfree : s.clients.getKeyByConnId info.connId = none) (hgone : .disconnect info.connId ∈ s.trace)
    (hresponds : s.responds P = true) (hparse : P.loginRequest.parse info.data = some request) :
    ¬NoGhosts (LoginServer.closeOnError info.connId (LoginClientHandler.processLogin P s info)) := by
  obtain ⟨-, hconn₁, hgone₁⟩ := kick_frame h (hfree.trans_ne (Option.some_ne_none request.account).symm)
  obtain ⟨s', henrols, hclose⟩ := closeOnError_processLogin h hparse
  rw [hclose, if_pos ⟨by rw [henrols.conns, hconn₁, hconn], hresponds⟩]
  refine not_noGhosts_of_agent henrols.agent (List.mem_append_left _ ?_)
  rw [henrols.gone, hgone₁]
  exact hgone

end login

section runs

variable {P : LoginProtocol} {s s' : LoginServer}

/-- Connections that are not disconnected stay live when another one is freed. -/
theorem Conns.Live.release {conns conns' : Conns} {connId c : ℤ} (h : conns.Live c)
    (hrelease : conns.release connId = some conns') : conns'.Live c := by
  obtain ⟨hstate, heq⟩ := Option.ite_none_right_eq_some.1 hrelease
  obtain rfl := Option.some.inj heq
  have hne : c ≠ connId := fun heq => h.2 (heq ▸ hstate)
  unfold Conns.Live Conns.set
  dsimp only
  rw [Function.update_of_ne hne]
  exact h

theorem Conns.Live.set_connected {conns : Conns} {connId c : ℤ} (h : conns.Live c) :
    (conns.set connId (some .connected)).Live c := by
  unfold Conns.Live Conns.set
  dsimp only
  by_cases hc : c = connId
  · rw [hc, Function.update_self]
    decide
  · rw [Function.update_of_ne hc]
    exact h

theorem Settled.of_eq (h : Settled s) (hclients : s'.clients = s.clients) (hconns : s'.conns = s.conns)
    (htrace : s'.trace = s.trace) : Settled s' := (Unseen.of_eq hclients hconns htrace).kept h

/-- The invariant does not see more live connections. -/
theorem Settled.setConns (h : Settled s) {conns : Conns} (hlive : ∀ c, s.conns.Live c → conns.Live c) :
    Settled { s with conns := conns } where
  consistent := h.consistent
  live account agent hagent := ⟨hlive _ (h.live account agent hagent).1, (h.live account agent hagent).2⟩
  account := h.account

theorem Settled.accept (h : Settled s) : Settled s.accept := by
  have hset : Settled { s with conns :=
      { s.conns.set (s.conns.last + 1) (some .connected) with last := s.conns.last + 1 } } :=
    h.setConns fun _ hlive => hlive.set_connected
  unfold LoginServer.accept
  dsimp only
  split_ifs
  · exact hset.connForceClose
  · exact hset

/-- Every step that is safe keeps the invariant. -/
theorem Settled.step (h : Settled s) {e : LoginEvent} (hsafe : LoginSafe P s e)
    (hstep : LoginServer.step P s e = some s') : Settled s' := by
  cases e with
  | connect =>
      obtain rfl := Option.some.inj hstep
      exact h.accept
  | drop connId =>
      obtain rfl := Option.some.inj hstep
      exact h.connForceClose
  | revive connId =>
      obtain ⟨conns, hconns, rfl⟩ := Option.map_eq_some_iff.1 hstep
      obtain ⟨-, heq⟩ := Option.ite_none_right_eq_some.1 hconns
      obtain rfl := Option.some.inj heq
      exact h.setConns fun _ hlive => hlive.set_connected
  | release connId =>
      obtain ⟨conns, hconns, rfl⟩ := Option.map_eq_some_iff.1 hstep
      exact h.setConns fun _ hlive => hlive.release hconns
  | client connId msgId data =>
      obtain ⟨hconn, hs'⟩ := Option.ite_none_right_eq_some.1 hstep
      obtain rfl := Option.some.inj hs'
      unfold LoginClientHandler.handle
      split_ifs with hlogin
      · cases hparse : P.loginRequest.parse data with
        | none =>
            unfold LoginClientHandler.processLogin
            dsimp only
            rw [hparse]
            exact Settled.closeOnError (Unseen.sendError.kept h)
        | some request =>
            obtain ⟨hfree, hgone⟩ := hsafe hconn hlogin (hparse ▸ rfl)
            exact h.processLogin hconn hparse hfree hgone
      · exact Settled.closeOnError (Unseen.processSelectServer.kept h)
      · exact Settled.closeOnError (Unseen.processEcho.kept h)
      · exact Settled.closeOnError h
  | gateConnect =>
      obtain rfl := Option.some.inj hstep
      exact h.of_eq rfl rfl rfl
  | gateDrop connId =>
      obtain rfl := Option.some.inj hstep
      exact Unseen.gateForceClose.kept h
  | gateRevive connId =>
      obtain ⟨conns, -, rfl⟩ := Option.map_eq_some_iff.1 hstep
      exact h.of_eq rfl rfl rfl
  | gateRelease connId =>
      obtain ⟨conns, -, rfl⟩ := Option.map_eq_some_iff.1 hstep
      exact h.of_eq rfl rfl rfl
  | gate connId msgId data =>
      obtain ⟨-, hs'⟩ := Option.ite_none_right_eq_some.1 hstep
      obtain rfl := Option.some.inj hs'
      exact (Unseen.closeGateOnError Unseen.gateHandle).kept h
  | config data =>
      obtain rfl := Option.some.inj hstep
      unfold processConnectConfigResponse
      split
      · exact h
      · exact h.of_eq rfl rfl rfl

/-- A login that is not safe leaves a ghost or a wrong account. -/
theorem loginSafe_of_noGhosts (h : Settled s) {e : LoginEvent}
    (hghosts : ∀ s', LoginServer.step P s e = some s' → NoGhosts s') : LoginSafe P s e := by
  cases e with
  | client connId msgId data =>
      intro hconn hlogin hparse
      obtain ⟨request, hparse⟩ := Option.isSome_iff_exists.1 hparse
      have hstep : LoginServer.step P s (.client connId msgId data) =
          some (LoginServer.closeOnError connId
            (LoginClientHandler.processLogin P s ⟨0, msgId, data, data.length, connId⟩)) := by
        unfold LoginServer.step LoginClientHandler.handle
        dsimp only
        rw [if_pos hconn, if_pos hlogin]
      have hno := hghosts _ hstep
      have hfree : s.clients.getKeyByConnId connId = none := by
        by_contra hne
        obtain ⟨account, hkey⟩ := Option.ne_none_iff_exists'.1 hne
        by_cases hsame : account = request.account
        · subst hsame
          exact ghost_of_same h hkey hparse hno
        · exact ghost_of_other h hconn hkey hsame hparse hno
      refine ⟨hfree, fun hgone => ?_⟩
      by_contra hresponds
      exact ghost_of_gone h hconn hfree hgone (Bool.eq_true_of_not_eq_false hresponds) hparse hno
  | _ => trivial

/-- There are no ghosts in any state that a run reaches if and only if every login of the run that is handled
comes on a connection that has no account, and before the disconnect event of the connection unless its
response is refused. -/
theorem no_ghosts_iff (P : LoginProtocol) (serverId maxConn : ℤ) (es : List LoginEvent) :
    (∀ es₁ es₂ s, es = es₁ ++ es₂ → (loginMachine P).run (.start serverId maxConn) es₁ = some s → NoGhosts s) ↔
      (loginMachine P).Along (LoginSafe P) (.start serverId maxConn) es := by
  have hstep : ∀ s e s', Settled s → LoginSafe P s e → (loginMachine P).step s e = some s' → Settled s' :=
    fun _ _ _ hs hsafe hs' => Settled.step hs hsafe hs'
  have hback : ∀ s e, Settled s → (∀ s', (loginMachine P).step s e = some s' → NoGhosts s') →
      LoginSafe P s e := fun _ _ hs hghosts => loginSafe_of_noGhosts hs hghosts
  rw [Machine.along_iff_reached hstep (fun _ hs => Settled.noGhosts hs) hback (settled_start serverId maxConn)]

/-- Two accounts log in on connection 1, and it closes. -/
def twoLogins : List LoginEvent :=
  [.connect, .client 1 MsgId.c2sLoginRequest (loginWire.loginRequest.serialize ⟨[97], []⟩),
    .client 1 MsgId.c2sLoginRequest (loginWire.loginRequest.serialize ⟨[98], []⟩), .drop 1]

/-- The second account stays when the connection is gone. -/
theorem second_login_leaves_ghost :
    ¬∀ s, (loginMachine loginWire).run (.start 30001 1024) twoLogins = some s → NoGhosts s := by
  have hrun : ((loginMachine loginWire).run (.start 30001 1024) twoLogins).map (fun s =>
      ((s.clients.getAgent [98]).map Agent.connId, decide (.disconnect 1 ∈ s.trace))) =
        some (some 1, true) := by
    decide +kernel
  obtain ⟨s, hs, heq⟩ := Option.map_eq_some_iff.1 hrun
  obtain ⟨hagent, hgone⟩ := Prod.mk.inj heq
  exact fun h => not_noGhosts_of_agent hagent (of_decide_eq_true hgone) (h s hs)

end runs

end JmyGame
