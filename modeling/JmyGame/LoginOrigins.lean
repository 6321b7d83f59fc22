import JmyGame.LoginHandlers

/-! Where the agents, the keys and the messages of the login server come from. An agent of an account and the key of
a connection come from a login request on the connection, the agent of a gate from the connect request of the gate, a
notify to a gate from a select request and a session code for a client from the response of a gate. -/

namespace JmyGame

open CArith

namespace AgentManager

variable {κ δ : Type} [DecidableEq κ] {m m' : AgentManager κ δ} {key key' : κ} {id id' : ℤ}

/-- The connection of the agent with the key. -/
def connOf (m : AgentManager κ δ) (key : κ) : Option ℤ := (m.getAgent key).map Agent.connId

theorem connOf_newAgent [Inhabited δ] (h : m.newAgent key id = some m') (hconn : m'.connOf key' = some id') :
    m.connOf key' = some id' ∨ id' = id ∧ key' = key := by
  unfold connOf at hconn ⊢
  rw [newAgent_getAgent h] at hconn
  split_ifs at hconn with hkey
  · exact Or.inr ⟨(Option.some.inj hconn).symm, hkey⟩
  · exact Or.inl hconn

/-- A connection gets the key of a new agent, or keeps the key that it has. -/
theorem getKeyByConnId_newAgent [Inhabited δ] (h : m.newAgent key id = some m')
    (hkey : m'.getKeyByConnId id' = some key') : m.getKeyByConnId id' = some key' ∨ id' = id ∧ key' = key := by
  cases hold : m.getKeyByConnId id with
  | none =>
      rw [newAgent_getKeyByConnId h hold] at hkey
      split_ifs at hkey with hid
      · exact Or.inr ⟨hid, (Option.some.inj hkey).symm⟩
      · exact Or.inl hkey
  | some old =>
      by_cases hid : id' = id
      · subst hid
        rw [newAgent_getKeyByConnId_of_some h hold] at hkey
        exact Or.inl (hold.trans hkey)
      · obtain ⟨-, rfl⟩ := of_newAgent h
        exact Or.inl ((UnorderedMap.find_emplace_of_ne hid).symm.trans hkey)

theorem find_of_remove {α β : Type} [DecidableEq α] {t : UnorderedMap α β} {a b : α} {v : β}
    (h : (t.remove a).find b = some v) : t.find b = some v := by
  rw [UnorderedMap.find_remove] at h
  exact (Option.ite_none_left_eq_some.1 h).2

theorem connOf_deleteAgent (hconn : (m.deleteAgent key).2.connOf key' = some id') : m.connOf key' = some id' := by
  by_cases hkey : key' = key
  · obtain ⟨agent, hagent, hid⟩ := Option.map_eq_some_iff.1 hconn
    suffices m.getAgent key' = some agent by rw [connOf, this, Option.map_some, hid]
    unfold deleteAgent at hagent
    split at hagent
    · exact hagent
    · split at hagent
      · exact find_of_remove hagent
      · exact find_of_remove hagent
  · unfold connOf at hconn
    rw [deleteAgent_getAgent_of_ne hkey] at hconn
    exact hconn

theorem getKeyByConnId_deleteAgent (hkey : (m.deleteAgent key).2.getKeyByConnId id' = some key') :
    m.getKeyByConnId id' = some key' := by
  unfold deleteAgent at hkey
  split at hkey
  · exact hkey
  · split at hkey
    · exact hkey
    · exact find_of_remove hkey

end AgentManager

namespace AgentManagerPerf

variable {δ : Type} {m m' : AgentManagerPerf δ} {id id' connId connId' : ℤ}

def connOf (m : AgentManagerPerf δ) (id : ℤ) : Option ℤ := (m.getAgent id).map Agent.connId

theorem connOf_newAgent [Inhabited δ] (h : m.newAgent id connId = some m') (hconn : m'.connOf id' = some connId') :
    m.connOf id' = some connId' ∨ connId' = connId ∧ id' = id := by
  unfold newAgent at h
  split_ifs at h with hrange
  cases hagent : m.agents id with
  | some agent =>
      rw [hagent] at h
      cases h
  | none =>
      rw [hagent, Option.some.injEq] at h
      subst h
      unfold connOf getAgent at hconn ⊢
      dsimp only at hconn
      split_ifs at hconn with hrange'
      · cases hconn
      · rw [if_neg hrange']
        by_cases hid : id' = id
        · rw [hid, Function.update_self] at hconn
          exact Or.inr ⟨(Option.some.inj hconn).symm, hid⟩
        · rw [Function.update_of_ne hid] at hconn
          exact Or.inl hconn

theorem connOf_deleteAgent (hconn : (m.deleteAgent id).2.connOf id' = some connId') : m.connOf id' = some connId' := by
  have hupdate : ∀ agents : ℤ → Option (Agent δ), ∀ agent,
      Function.update agents id none id' = some agent → agents id' = some agent := by
    intro agents agent h
    by_cases hid : id' = id
    · rw [hid, Function.update_self] at h
      cases h
    · rw [Function.update_of_ne hid] at h
      exact h
  obtain ⟨agent, hagent, hid⟩ := Option.map_eq_some_iff.1 hconn
  suffices m.getAgent id' = some agent by rw [connOf, this, Option.map_some, hid]
  unfold deleteAgent at hagent
  split at hagent
  · exact hagent
  · split_ifs at hagent
    · exact hagent
    · unfold getAgent at hagent ⊢
      split at hagent
      · dsimp only at hagent
        split_ifs at hagent ⊢
        exact hupdate _ _ hagent
      · dsimp only at hagent
        split_ifs at hagent ⊢
        exact hupdate _ _ hagent

theorem connOf_deleteAgentByConnId (hconn : (m.deleteAgentByConnId connId).2.connOf id' = some connId') :
    m.connOf id' = some connId' := by
  unfold deleteAgentByConnId at hconn
  split at hconn
  · exact hconn
  · exact connOf_deleteAgent hconn

theorem connOf_modifyAgent {f : Agent δ → Agent δ} (hf : ∀ agent, (f agent).connId = agent.connId) :
    (m.modifyAgent id f).connOf id' = m.connOf id' := by
  unfold connOf getAgent modifyAgent
  dsimp only
  split_ifs
  · rfl
  · by_cases hid : id' = id
    · rw [hid, Function.update_self, Option.map_map]
      exact congrArg (fun g => (m.agents id).map g) (funext hf)
    · rw [Function.update_of_ne hid]

end AgentManagerPerf

/-- What a step adds to the agents and the keys of clients, to the agents of gates and to the messages meets the
predicates. -/
structure LoginGains (login : ℤ → Str → Prop) (gate : ℤ → ℤ → Prop) (sends : LoginObs → Prop)
    (s s' : LoginServer) : Prop where
  agents : ∀ account connId, s'.clients.connOf account = some connId →
    s.clients.connOf account = some connId ∨ login connId account
  keys : ∀ connId account, s'.clients.getKeyByConnId connId = some account →
    s.clients.getKeyByConnId connId = some account ∨ login connId account
  gates : ∀ gateId connId, s'.gates.connOf gateId = some connId →
    s.gates.connOf gateId = some connId ∨ gate connId gateId
  trace : ∃ new, s'.trace = s.trace ++ new ∧ ∀ o ∈ new, sends o
  lastGate : s.gateConns.last ≤ s'.gateConns.last

/-- A message that is neither a notify to a gate nor a session code for a client. -/
def Unsecret (o : LoginObs) : Prop :=
  (∀ connId data, o ≠ .toGate connId MsgId.ls2gtSelectedServerNotify data) ∧
    ∀ connId data, o ≠ .toClient connId MsgId.s2cSelectServerResponse data

namespace LoginGains

variable {login : ℤ → Str → Prop} {gate : ℤ → ℤ → Prop} {sends : LoginObs → Prop} {s s' s'' : LoginServer}

theorem refl (s : LoginServer) : LoginGains login gate sends s s where
  agents _ _ := Or.inl
  keys _ _ := Or.inl
  gates _ _ := Or.inl
  trace := ⟨[], (List.append_nil _).symm, fun _ ho => absurd ho List.not_mem_nil⟩
  lastGate := le_refl _

theorem trans (h : LoginGains login gate sends s s') (h' : LoginGains login gate sends s' s'') :
    LoginGains login gate sends s s'' where
  agents account connId hconn := (h'.agents account connId hconn).elim (h.agents account connId) Or.inr
  keys connId account hkey := (h'.keys connId account hkey).elim (h.keys connId account) Or.inr
  gates gateId connId hconn := (h'.gates gateId connId hconn).elim (h.gates gateId connId) Or.inr
  trace := by
    obtain ⟨new, hnew, hall⟩ := h.trace
    obtain ⟨new', hnew', hall'⟩ := h'.trace
    refine ⟨new ++ new', by rw [hnew', hnew, List.append_assoc], fun o ho => ?_⟩
    exact (List.mem_append.1 ho).elim (hall o) (hall' o)
  lastGate := h.lastGate.trans h'.lastGate

/-- The step is about nothing that counts here. -/
theorem of_eq (hclients : s'.clients = s.clients) (hgates : s'.gates = s.gates) (htrace : s'.trace = s.trace)
    (hlast : s'.gateConns.last = s.gateConns.last) : LoginGains login gate sends s s' where
  agents _ _ := by rw [hclients]; exact Or.inl
  keys _ _ := by rw [hclients]; exact Or.inl
  gates _ _ := by rw [hgates]; exact Or.inl
  trace := ⟨[], by rw [htrace, List.append_nil], fun _ ho => absurd ho List.not_mem_nil⟩
  lastGate := hlast.ge

theorem observe {o : LoginObs} (ho : sends o) : LoginGains login gate sends s (s.observe o) where
  agents _ _ := Or.inl
  keys _ _ := Or.inl
  gates _ _ := Or.inl
  trace := ⟨[o], rfl, fun _ ho' => List.mem_singleton.1 ho' ▸ ho⟩
  lastGate := le_refl _

/-- Agents of clients are changed or deleted. -/
theorem of_clients {clients : AgentManager Str ClientData}
    (hagents : ∀ account connId, clients.connOf account = some connId → s.clients.connOf account = some connId)
    (hkeys : ∀ connId account, clients.getKeyByConnId connId = some account →
      s.clients.getKeyByConnId connId = some account) :
    LoginGains login gate sends s { s with clients := clients } where
  agents account connId hconn := Or.inl (hagents account connId hconn)
  keys connId account hkey := Or.inl (hkeys connId account hkey)
  gates _ _ := Or.inl
  trace := ⟨[], (List.append_nil _).symm, fun _ ho => absurd ho List.not_mem_nil⟩
  lastGate := le_refl _

theorem modifyClient (account : Str) {f : Agent ClientData → Agent ClientData}
    (hf : ∀ agent, (f agent).connId = agent.connId) :
    LoginGains login gate sends s { s with clients := s.clients.modifyAgent account f } := by
  refine of_clients (fun account' connId hconn => ?_) fun _ _ => id
  unfold AgentManager.connOf at hconn
  rw [AgentManager.modifyAgent_connId hf] at hconn
  exact hconn

theorem deleteClient (account : Str) :
    LoginGains login gate sends s { s with clients := (s.clients.deleteAgent account).2 } :=
  of_clients (fun _ _ => AgentManager.connOf_deleteAgent) fun _ _ => AgentManager.getKeyByConnId_deleteAgent

/-- A new agent of a client, with a key for its connection. -/
theorem newClient {clients : AgentManager Str ClientData} {account : Str} {connId : ℤ}
    (hnew : s.clients.newAgent account connId = some clients) (hlogin : login connId account) :
    LoginGains login gate sends s { s with clients := clients } where
  agents account' connId' hconn := by
    refine (AgentManager.connOf_newAgent hnew hconn).imp id ?_
    rintro ⟨rfl, rfl⟩
    exact hlogin
  keys connId' account' hkey := by
    refine (AgentManager.getKeyByConnId_newAgent hnew hkey).imp id ?_
    rintro ⟨rfl, rfl⟩
    exact hlogin
  gates _ _ := Or.inl
  trace := ⟨[], (List.append_nil _).symm, fun _ ho => absurd ho List.not_mem_nil⟩
  lastGate := le_refl _

/-- A new agent of a gate. -/
theorem newGate {gates : AgentManagerPerf GateData} {gateId connId : ℤ} {f : Agent GateData → Agent GateData}
    (hnew : s.gates.newAgent gateId connId = some gates) (hf : ∀ agent, (f agent).connId = agent.connId)
    (hgate : gate connId gateId) :
    LoginGains login gate sends s { s with gates := gates.modifyAgent gateId f } where
  agents _ _ := Or.inl
  keys _ _ := Or.inl
  gates gateId' connId' hconn := by
    rw [AgentManagerPerf.connOf_modifyAgent hf] at hconn
    refine (AgentManagerPerf.connOf_newAgent hnew hconn).imp id ?_
    rintro ⟨rfl, rfl⟩
    exact hgate
  trace := ⟨[], (List.append_nil _).symm, fun _ ho => absurd ho List.not_mem_nil⟩
  lastGate := le_refl _

/-- A handler whose last step is a send answers with the server behind the send in any case. -/
theorem answer {c : Prop} [Decidable c] {a b : ℤ} (h : LoginGains login gate sends s s') :
    LoginGains login gate sends s (if c then (a, s') else (b, s')).2 := by
  split_ifs
  · exact h
  · exact h

variable {connId : ℤ} {msgId : MsgId} {data : List Byte} {account : Str} {P : LoginProtocol} {info : JmyMsgInfo}

theorem connSend (ho : sends (.toClient connId msgId data)) :
    LoginGains login gate sends s (s.connSend connId msgId data).2 := by
  unfold LoginServer.connSend
  split_ifs
  · exact observe ho
  · exact refl s

theorem clientSend (ho : ∀ connId, s.clients.connOf account = some connId → sends (.toClient connId msgId data)) :
    LoginGains login gate sends s (s.clientSend account msgId data).2 := by
  unfold LoginServer.clientSend
  cases hagent : s.clients.getAgent account with
  | none => exact refl s
  | some agent =>
      dsimp only
      split_ifs
      · exact refl s
      all_goals
        refine connSend (ho agent.connId ?_)
        rw [AgentManager.connOf, hagent, Option.map_some]

theorem gateConnSend (ho : sends (.toGate connId msgId data)) :
    LoginGains login gate sends s (s.gateConnSend connId msgId data).2 := by
  unfold LoginServer.gateConnSend
  split_ifs
  · exact observe ho
  · exact refl s

theorem gateSend {gateId : ℤ}
    (ho : ∀ connId, s.gates.connOf gateId = some connId → sends (.toGate connId msgId data)) :
    LoginGains login gate sends s (s.gateSend gateId msgId data).2 := by
  unfold LoginServer.gateSend
  cases hagent : s.gates.getAgent gateId with
  | none => exact refl s
  | some agent =>
      dsimp only
      split_ifs
      · exact refl s
      all_goals
        refine gateConnSend (ho agent.connId ?_)
        rw [AgentManagerPerf.connOf, hagent, Option.map_some]

theorem writeTmp (bytes : List Byte) : LoginGains login gate sends s (s.writeTmp bytes) := of_eq rfl rfl rfl rfl

theorem onDisconnect (ho : sends (.disconnect connId)) :
    LoginGains login gate sends s (s.onDisconnect connId) := by
  unfold LoginServer.onDisconnect
  have hobserve : LoginGains login gate sends s (s.observe (.disconnect connId)) := observe ho
  dsimp only
  split
  · exact hobserve
  · refine hobserve.trans ?_
    unfold AgentManager.deleteAgentByConnId
    split
    · exact of_eq rfl rfl rfl rfl
    · exact deleteClient _

theorem connForceClose (ho : sends (.disconnect connId)) :
    LoginGains login gate sends s (s.connForceClose connId) := by
  unfold LoginServer.connForceClose
  split_ifs
  · refine trans ?_ (onDisconnect ho)
    exact of_eq rfl rfl rfl rfl
  · exact refl s

theorem gateForceClose : LoginGains login gate sends s (s.gateForceClose connId) := by
  unfold LoginServer.gateForceClose
  split_ifs
  · unfold LoginServer.onGateDisconnect
    exact
      { agents := fun _ _ => Or.inl
        keys := fun _ _ => Or.inl
        gates := fun _ _ hconn => Or.inl (AgentManagerPerf.connOf_deleteAgentByConnId hconn)
        trace := ⟨[], (List.append_nil _).symm, fun _ ho => absurd ho List.not_mem_nil⟩
        lastGate := le_refl _ }
  · exact refl s

end LoginGains

section events

variable (P : LoginProtocol)

/-- A login request for the account on the connection. -/
def LoginEvent.LogsIn (e : LoginEvent) (connId : ℤ) (account : Str) : Prop :=
  ∃ data request, e = .client connId MsgId.c2sLoginRequest data ∧ P.loginRequest.parse data = some request ∧
    request.account = account

/-- The connect request of the gate on the connection. -/
def LoginEvent.Registers (e : LoginEvent) (connId gateId : ℤ) : Prop :=
  ∃ data request, e = .gate connId MsgId.gt2lsConnectLoginRequest data ∧
    P.connectLoginRequest.parse data = some request ∧ request.gateServerId = gateId

/-- A select request of a client with the account for the gate on the connection, which is told of the account by
`data`. -/
def LoginServer.Notifies (s : LoginServer) (e : LoginEvent) (connId : ℤ) (data : List Byte) : Prop :=
  ∃ client request gateId account, e = .client client MsgId.c2sSelectServerRequest request ∧
    P.selectServerRequest.parse request = some gateId ∧ s.clients.getKeyByConnId client = some account ∧
    s.gates.connOf gateId = some connId ∧
    P.selectedServerNotify.serializeToArray maxMsgSize account = some data

/-- The response of a gate with a session code for the account that is on the connection, which is told of the code
by `data`. -/
def LoginServer.Hands (s : LoginServer) (e : LoginEvent) (connId : ℤ) (data : List Byte) : Prop :=
  ∃ gate response res ip port, e = .gate gate MsgId.gt2lsSelectedServerResponse response ∧
    P.selectedServerResponse.parse response = some res ∧ s.clients.connOf res.account = some connId ∧
    P.selectServerResponse.serializeToArray maxMsgSize ⟨res.sessionCode, ip, port⟩ = some data

/-- What is sent at an event. -/
def LoginServer.Sends (s : LoginServer) (e : LoginEvent) (o : LoginObs) : Prop :=
  Unsecret o ∨
    (∃ connId data, o = .toGate connId MsgId.ls2gtSelectedServerNotify data ∧ s.Notifies P e connId data) ∨
    ∃ connId data, o = .toClient connId MsgId.s2cSelectServerResponse data ∧ s.Hands P e connId data

end events

theorem unsecret_disconnect (connId : ℤ) : Unsecret (.disconnect connId) := by
  constructor <;> rintro _ _ ⟨⟩

theorem unsecret_login (connId : ℤ) (account : Str) : Unsecret (.login connId account) := by
  constructor <;> rintro _ _ ⟨⟩

theorem unsecret_loginResponse (connId : ℤ) (data : List Byte) :
    Unsecret (.toClient connId MsgId.s2cLoginResponse data) := by
  constructor <;> rintro _ _ ⟨⟩

theorem unsecret_connectResponse (connId : ℤ) (data : List Byte) :
    Unsecret (.toGate connId MsgId.ls2gtConnectLoginResponse data) := by
  constructor <;> rintro _ _ ⟨⟩

namespace LoginGains

variable {P : LoginProtocol} {login : ℤ → Str → Prop} {gate : ℤ → ℤ → Prop} {sends : LoginObs → Prop}
  {s s' : LoginServer} {info : JmyMsgInfo}

section clients

variable (hsends : ∀ o, Unsecret o → sends o)

include hsends

theorem sendError (connId : ℤ) (error : LoginError) :
    LoginGains login gate sends s (s.sendError P connId error) :=
  connSend (hsends _ (unsecret_loginResponse _ _))

theorem kick (account : Str) : LoginGains login gate sends s (LoginClientHandler.kick s account) := by
  unfold LoginClientHandler.kick
  split
  · exact refl s
  · exact (connForceClose (hsends _ (unsecret_disconnect _))).trans (deleteClient account)

theorem respondLogin (account : Str) :
    LoginGains login gate sends s (LoginClientHandler.respondLogin P s info account).2 := by
  unfold LoginClientHandler.respondLogin
  split
  · exact refl s
  · rename_i tmp _
    have hsend : LoginGains login gate sends s
        ((s.writeTmp tmp).clientSend account MsgId.s2cLoginResponse tmp).2 := by
      refine (writeTmp tmp).trans (clientSend fun connId _ => ?_)
      exact hsends _ (unsecret_loginResponse connId tmp)
    dsimp only
    split_ifs
    · exact hsend
    · exact hsend.trans (observe (hsends _ (unsecret_login info.connId account)))

/-- A login request gives its account to its connection. -/
theorem processLogin (hlogin : ∀ request, P.loginRequest.parse info.data = some request →
      login info.connId request.account) :
    LoginGains login gate sends s (LoginClientHandler.processLogin P s info).2 := by
  unfold LoginClientHandler.processLogin
  cases hparse : P.loginRequest.parse info.data with
  | none => exact sendError hsends _ _
  | some request =>
      dsimp only
      have hkick : LoginGains login gate sends s (LoginClientHandler.kick s request.account) :=
        kick hsends request.account
      generalize LoginClientHandler.kick s request.account = s₁ at hkick ⊢
      cases hnew : s₁.clients.newAgent request.account info.connId with
      | none => exact hkick.trans (sendError hsends _ _)
      | some clients =>
          have hadd : LoginGains login gate sends s₁ { s₁ with clients := clients } :=
            newClient hnew (hlogin request hparse)
          have hset := hadd.trans (modifyClient request.account (f := fun agent => { agent with state := .verified })
            fun _ => rfl)
          exact (hkick.trans hset).trans (respondLogin hsends request.account)

/-- A select request tells the gate of the account of its connection. -/
theorem processSelectServer (hnotify : ∀ gateId account connId data,
      P.selectServerRequest.parse info.data = some gateId → s.clients.getKeyByConnId info.connId = some account →
      s.gates.connOf gateId = some connId → P.selectedServerNotify.serializeToArray maxMsgSize account = some data →
      sends (.toGate connId MsgId.ls2gtSelectedServerNotify data)) :
    LoginGains login gate sends s (LoginClientHandler.processSelectServer P s info).2 := by
  unfold LoginClientHandler.processSelectServer
  cases hparse : P.selectServerRequest.parse info.data with
  | none => exact sendError hsends _ _
  | some gateId =>
      dsimp only
      cases s.gates.getAgent gateId with
      | none => exact sendError hsends _ _
      | some agent =>
          dsimp only
          cases hkey : s.clients.getKeyByConnId info.connId with
          | none => exact sendError hsends _ _
          | some account =>
              dsimp only
              cases htmp : P.selectedServerNotify.serializeToArray maxMsgSize account with
              | none => exact refl s
              | some tmp =>
                  have hsend : LoginGains login gate sends s
                      ((s.writeTmp tmp).gateSend gateId MsgId.ls2gtSelectedServerNotify tmp).2 := by
                    refine (writeTmp tmp).trans (gateSend fun connId hconn => ?_)
                    exact hnotify gateId account connId tmp hparse hkey hconn htmp
                  dsimp only
                  split_ifs
                  · exact hsend
                  · exact hsend.trans (modifyClient account fun _ => rfl)

end clients

theorem processEcho : LoginGains login gate sends s (LoginClientHandler.processEcho P s info).2 := by
  unfold LoginClientHandler.processEcho
  split
  · exact refl s
  · split
    · exact refl s
    · split
      · exact refl s
      · exact writeTmp _

/-- The connect request of a gate gives its id to its connection. -/
theorem processConnectLogin (hsends : ∀ o, Unsecret o → sends o)
    (hgate : ∀ request, P.connectLoginRequest.parse info.data = some request →
      gate info.connId request.gateServerId) :
    LoginGains login gate sends s (LoginGateHandler.processConnectLogin P s info).2 := by
  unfold LoginGateHandler.processConnectLogin
  cases hparse : P.connectLoginRequest.parse info.data with
  | none => exact refl s
  | some request =>
      dsimp only
      cases s.gates.getAgent request.gateServerId with
      | some agent => exact refl s
      | none =>
          dsimp only
          cases hnew : s.gates.newAgent request.gateServerId info.connId with
          | none => exact refl s
          | some gates =>
              have hadd : LoginGains login gate sends s { s with
                  gates := gates.modifyAgent request.gateServerId fun agent => { agent with
                    data := ⟨request.gateServerId, request.gateServerIp, BitVec.ofInt 16 request.gateServerPort⟩ } } :=
                newGate hnew (fun _ => rfl) (hgate request hparse)
              dsimp only
              split
              · exact hadd
              · refine hadd.trans (answer (gateSend fun connId _ => ?_))
                exact hsends _ (unsecret_connectResponse connId _)

/-- The response of a gate goes to the connection of the account that it is for. -/
theorem processSelectedServerResponse (hhand : ∀ res connId ip port data,
      P.selectedServerResponse.parse info.data = some res → s.clients.connOf res.account = some connId →
      P.selectServerResponse.serializeToArray maxMsgSize ⟨res.sessionCode, ip, port⟩ = some data →
      sends (.toClient connId MsgId.s2cSelectServerResponse data)) :
    LoginGains login gate sends s (LoginGateHandler.processSelectedServerResponse P s info).2 := by
  unfold LoginGateHandler.processSelectedServerResponse
  cases hparse : P.selectedServerResponse.parse info.data with
  | none => exact refl s
  | some res =>
      dsimp only
      split
      · exact refl s
      · split
        · exact refl s
        · split
          · exact refl s
          · rename_i d _
            cases htmp : P.selectServerResponse.serializeToArray maxMsgSize ⟨res.sessionCode, d.ip, d.port⟩ with
            | none => exact refl s
            | some tmp =>
                refine answer (clientSend fun connId hconn => ?_)
                exact hhand res connId d.ip d.port tmp hparse hconn htmp

theorem closeOnError {connId : ℤ} {r : ℤ × LoginServer} (hsends : ∀ o, Unsecret o → sends o)
    (h : LoginGains login gate sends s r.2) : LoginGains login gate sends s (LoginServer.closeOnError connId r) := by
  unfold LoginServer.closeOnError
  split_ifs
  · exact h.trans (connForceClose (hsends _ (unsecret_disconnect connId)))
  · exact h

theorem closeGateOnError {connId : ℤ} {r : ℤ × LoginServer} (h : LoginGains login gate sends s r.2) :
    LoginGains login gate sends s (LoginServer.closeGateOnError connId r) := by
  unfold LoginServer.closeGateOnError
  split_ifs
  · exact h.trans gateForceClose
  · exact h

/-- What an event adds to the login server. -/
theorem step {e : LoginEvent} (h : s.step P e = some s') :
    LoginGains (e.LogsIn P) (e.Registers P) (s.Sends P e) s s' := by
  have hsends : ∀ o, Unsecret o → s.Sends P e o := fun o => Or.inl
  cases e with
  | connect =>
      cases h
      unfold LoginServer.accept
      dsimp only
      split_ifs
      · refine trans ?_ (connForceClose (hsends _ (unsecret_disconnect _)))
        exact of_eq rfl rfl rfl rfl
      · exact of_eq rfl rfl rfl rfl
  | drop connId =>
      cases h
      exact connForceClose (hsends _ (unsecret_disconnect connId))
  | revive connId =>
      obtain ⟨conns, -, rfl⟩ := Option.map_eq_some_iff.1 h
      exact of_eq rfl rfl rfl rfl
  | release connId =>
      obtain ⟨conns, -, rfl⟩ := Option.map_eq_some_iff.1 h
      exact of_eq rfl rfl rfl rfl
  | client connId msgId data =>
      simp only [LoginServer.step, Option.ite_none_right_eq_some, Option.some.injEq] at h
      obtain ⟨-, rfl⟩ := h
      refine closeOnError hsends ?_
      unfold LoginClientHandler.handle
      dsimp only
      split_ifs with hlogin hselect hecho
      · subst hlogin
        exact processLogin hsends fun request hparse => ⟨data, request, rfl, hparse, rfl⟩
      · subst hselect
        refine processSelectServer hsends fun gateId account c tmp hparse hkey hconn htmp => ?_
        exact Or.inr (Or.inl ⟨c, tmp, rfl, connId, data, gateId, account, rfl, hparse, hkey, hconn, htmp⟩)
      · exact processEcho
      · exact refl s
  | gateConnect =>
      cases h
      exact
        { agents := fun _ _ => Or.inl
          keys := fun _ _ => Or.inl
          gates := fun _ _ => Or.inl
          trace := ⟨[], (List.append_nil _).symm, fun _ ho => absurd ho List.not_mem_nil⟩
          lastGate := (lt_add_one _).le }
  | gateDrop connId =>
      cases h
      exact gateForceClose
  | gateRevive connId =>
      obtain ⟨conns, hconns, rfl⟩ := Option.map_eq_some_iff.1 h
      unfold Conns.revive at hconns
      split_ifs at hconns
      cases hconns
      exact of_eq rfl rfl rfl rfl
  | gateRelease connId =>
      obtain ⟨conns, hconns, rfl⟩ := Option.map_eq_some_iff.1 h
      unfold Conns.release at hconns
      split_ifs at hconns
      cases hconns
      exact of_eq rfl rfl rfl rfl
  | gate connId msgId data =>
      simp only [LoginServer.step, Option.ite_none_right_eq_some, Option.some.injEq] at h
      obtain ⟨-, rfl⟩ := h
      refine closeGateOnError ?_
      unfold LoginGateHandler.handle
      dsimp only
      split_ifs with hconnect hresponse
      · subst hconnect
        exact processConnectLogin hsends fun request hparse => ⟨data, request, rfl, hparse, rfl⟩
      · subst hresponse
        refine processSelectedServerResponse fun res c ip port tmp hparse hconn htmp => ?_
        exact Or.inr (Or.inr ⟨c, tmp, rfl, connId, data, res, ip, port, rfl, hparse, hconn, htmp⟩)
      · exact refl s
  | config data =>
      cases h
      unfold processConnectConfigResponse
      split
      · exact refl s
      · exact of_eq rfl rfl rfl rfl

end LoginGains

end JmyGame
