import Mathlib.Data.Finset.Sort
import JmyGame.CommonAgents
import JmyGame.LoginHandlers

/-! `config_server`: login servers and gate servers register on their connections. A registered server has an agent,
the id of the agent is in the map of the connections, and the connection is in the set of its kind of servers. -/

namespace JmyGame

/-- `LoginAgentData` and `GateAgentData`. -/
structure ConfigAgentData where
  id : ℤ
  ip : Str
  port : ℤ
  deriving DecidableEq, Repr, Inhabited

/-- An `int` that is stored in a `short`. -/
def toShort (n : ℤ) : ℤ := Int.bmod n (2 ^ 16)

structure MsgLoginInfoData where
  loginIp : Str
  loginPort : ℤ
  loginId : ℤ
  deriving DecidableEq, Repr

/-- `MsgLS2CS_ConnectConfigRequest`. -/
structure MsgConnectConfigRequest where
  loginId : ℤ
  loginIp : Str
  loginPort : ℤ
  deriving DecidableEq, Repr

/-- What the config server sends. -/
inductive ConfigMsg where
  | gateResponse (loginList : List MsgLoginInfoData)
  | loginResponse (gateList : List MsgGateConfData)
  | newLogin (loginData : MsgLoginInfoData)
  deriving DecidableEq, Repr

/-- `CONF_GATE_LIST`. The map by ids keeps what earlier loads put in it. -/
structure ConfGateList where
  gates : List MsgGateConfData
  byId : ℤ → Option MsgGateConfData

/-- Which messages can be serialized to `tmp_`, and which connections are there and take a message. -/
structure Outlet where
  fits : ConfigMsg → Bool
  send : ℤ → Bool

/-- A manager of agents and the set of their connections: `login_mgr_` with `login_conn_id_set_`, and `gate_mgr_`
with `gate_conn_id_set_`. -/
structure AgentTable where
  mgr : AgentManager ℤ ConfigAgentData
  connIds : Finset ℤ

structure ConfigServer where
  conn2agent : UnorderedMap ℤ ℤ
  logins : AgentTable
  gates : AgentTable

namespace ConfigServer

def start : ConfigServer := ⟨∅, ⟨.empty, ∅⟩, ⟨.empty, ∅⟩⟩

variable (s : ConfigServer)

/-- `onConnect`. -/
def onConnect (connId : ℤ) : Bool × ConfigServer :=
  match s.conn2agent.find connId with
  | some _ => (false, s)
  | none => (true, { s with conn2agent := s.conn2agent.emplace connId 0 })

/-- `check_conn`. -/
def checkConn (connId : ℤ) : Bool := s.conn2agent.find connId = some 0

/-- `update_conn`. -/
def updateConn (connId agentId : ℤ) : ConfigServer :=
  { s with conn2agent := s.conn2agent.modify connId fun _ => agentId }

/-- `onDisconnect`. The id of the agent is read through an iterator whose element has been erased; `stale` is what
is found there. -/
def onDisconnect (connId stale : ℤ) : Bool × ConfigServer :=
  match s.conn2agent.find connId with
  | none => (false, s)
  | some _ =>
    let s₁ := { s with conn2agent := s.conn2agent.remove connId }
    if connId ∈ s.logins.connIds then
      match s.logins.mgr.getAgent stale with
      | none => (false, s₁)
      | some _ => (true, { s₁ with
          logins := ⟨(s.logins.mgr.deleteAgent stale).2, s.logins.connIds.erase connId⟩ })
    else if connId ∈ s.gates.connIds then
      match s.gates.mgr.getAgent stale with
      | none => (false, s₁)
      | some _ => (true, { s₁ with
          gates := ⟨(s.gates.mgr.deleteAgent stale).2, s.gates.connIds.erase connId⟩ })
    else (true, s₁)

/-- The loop of `broadcast_msg_to_gate`: whether it gets to its end, and the messages that were sent. -/
def broadcastLoop (outlet : Outlet) (msg : ConfigMsg) : List ℤ → Bool × List (ℤ × ConfigMsg)
  | [] => (true, [])
  | connId :: connIds =>
    match s.conn2agent.find connId with
    | none => broadcastLoop outlet msg connIds
    | some gateId =>
      match s.gates.mgr.getAgent gateId with
      | none => (false, [])
      | some agent =>
        let r := agent.sendMsg outlet.send
        if r.1 then
          let rest := broadcastLoop outlet msg connIds
          (rest.1, (r.2.map fun c => (c, msg)).toList ++ rest.2)
        else (false, [])

/-- `broadcast_new_login_to_gate`. -/
def broadcastNewLoginToGate (outlet : Outlet) (loginData : MsgLoginInfoData) : Bool × List (ℤ × ConfigMsg) :=
  if outlet.fits (.newLogin loginData) then
    s.broadcastLoop outlet (.newLogin loginData) (s.gates.connIds.sort (· ≤ ·))
  else (false, [])

/-- The logins that are told to a gate. -/
def loginList : List MsgLoginInfoData :=
  (s.logins.connIds.sort (· ≤ ·)).filterMap fun connId =>
    (s.logins.mgr.getAgentByConnId connId).map fun agent => ⟨agent.data.ip, agent.data.port, agent.data.id⟩

/-- A response that is sent by an agent: whether it succeeds, and what was sent. -/
def respond (outlet : Outlet) (agent : Agent ConfigAgentData) (msg : ConfigMsg) : Bool × List (ℤ × ConfigMsg) :=
  if outlet.fits msg then
    ((agent.sendMsg outlet.send).1, ((agent.sendMsg outlet.send).2.map fun c => (c, msg)).toList)
  else (false, [])

/-- `processGateConnect`: its result, the server behind it and what was sent. A request that cannot be parsed is
not noticed. -/
def processGateConnect (connId gateId : ℤ) (conf : ConfGateList) (outlet : Outlet) :
    Bool × ConfigServer × List (ℤ × ConfigMsg) :=
  if s.checkConn connId = false then (false, s, [])
  else match s.gates.mgr.getAgent gateId with
  | some _ => (false, s, [])
  | none =>
    match s.gates.mgr.newAgent gateId connId with
    | none => (false, s, [])
    | some mgr =>
      match conf.byId gateId with
      | none => (false, { s with gates := { s.gates with mgr := mgr } }, [])
      | some d =>
        let mgr' := mgr.modifyAgent gateId fun agent => { agent with data := ⟨gateId, d.ip, toShort d.port⟩ }
        let s₁ := { s with gates := { s.gates with mgr := mgr' } }.updateConn connId gateId
        let s₂ := { s₁ with gates := { s₁.gates with connIds := insert connId s₁.gates.connIds } }
        match mgr'.getAgent gateId with
        | none => (false, s₂, [])
        | some agent =>
          let r := respond outlet agent (.gateResponse s₂.loginList)
          (r.1, s₂, r.2)

/-- `processLoginConnect`. The request is `none` where it cannot be parsed. -/
def processLoginConnect (connId : ℤ) (request : Option MsgConnectConfigRequest) (conf : ConfGateList)
    (outlet : Outlet) : Bool × ConfigServer × List (ℤ × ConfigMsg) :=
  if s.checkConn connId = false then (false, s, [])
  else match request with
  | none => (false, s, [])
  | some request =>
    match s.logins.mgr.getAgent request.loginId with
    | some _ => (false, s, [])
    | none =>
      match s.logins.mgr.newAgent request.loginId connId with
      | none => (false, s, [])
      | some mgr =>
        let data : ConfigAgentData := ⟨request.loginId, request.loginIp, toShort request.loginPort⟩
        let mgr' := mgr.modifyAgent request.loginId fun agent => { agent with data := data }
        let s₁ := { s with logins := { s.logins with mgr := mgr' } }.updateConn connId request.loginId
        let s₂ := { s₁ with logins := { s₁.logins with connIds := insert connId s₁.logins.connIds } }
        match mgr'.getAgent request.loginId with
        | none => (false, s₂, [])
        | some agent =>
          let r := respond outlet agent (.loginResponse conf.gates)
          if r.1 then
            let notified := s₂.broadcastNewLoginToGate outlet ⟨data.ip, data.port % 2 ^ 16, data.id⟩
            (notified.1, s₂, r.2 ++ notified.2)
          else (false, s₂, r.2)

end ConfigServer

namespace AgentTable

variable {t : AgentTable} {conns conns' : UnorderedMap ℤ ℤ} {id connId : ℤ}

/-- A connection has an agent exactly when it is in the set, and then the map has the id of the agent. -/
structure Agrees (t : AgentTable) (conns : UnorderedMap ℤ ℤ) : Prop where
  consistent : t.mgr.Consistent
  keys : ∀ connId id, t.mgr.getKeyByConnId connId = some id ↔ conns.find connId = some id ∧ connId ∈ t.connIds
  known : ∀ connId ∈ t.connIds, conns.find connId ≠ none

theorem Agrees.getAgent (h : t.Agrees conns) :
    (∃ agent, t.mgr.getAgent id = some agent ∧ agent.connId = connId) ↔
      conns.find connId = some id ∧ connId ∈ t.connIds := by
  rw [← h.keys, h.consistent.keys]

theorem Agrees.not_mem (h : t.Agrees conns) (hnone : conns.find connId = none) : connId ∉ t.connIds :=
  fun hmem => h.known connId hmem hnone

theorem agrees_empty : Agrees ⟨.empty, ∅⟩ ∅ where
  consistent := AgentManager.consistent_empty
  keys connId id := by
    refine iff_of_false ?_ fun h => Finset.notMem_empty connId h.2
    rw [AgentManager.getKeyByConnId, AgentManager.empty, UnorderedMap.find_empty]
    exact (Option.some_ne_none id).symm
  known connId hmem := absurd hmem (Finset.notMem_empty connId)

/-- A table looks only at its own connections. -/
theorem Agrees.congr (h : t.Agrees conns) (hconns : ∀ c ∈ t.connIds, conns'.find c = conns.find c) :
    t.Agrees conns' where
  consistent := h.consistent
  keys c id := by
    rw [h.keys]
    constructor
    · rintro ⟨hfind, hmem⟩
      exact ⟨(hconns c hmem).trans hfind, hmem⟩
    · rintro ⟨hfind, hmem⟩
      exact ⟨(hconns c hmem).symm.trans hfind, hmem⟩
  known c hmem := by
    rw [hconns c hmem]
    exact h.known c hmem

/-- A connection that is not in the set gets an agent. -/
theorem Agrees.add (h : t.Agrees conns) (hnot : connId ∉ t.connIds) (hfind : conns.find connId ≠ none)
    {mgr : AgentManager ℤ ConfigAgentData} (hnew : t.mgr.newAgent id connId = some mgr)
    {f : Agent ConfigAgentData → Agent ConfigAgentData} (hf : ∀ agent, (f agent).connId = agent.connId) :
    Agrees ⟨mgr.modifyAgent id f, insert connId t.connIds⟩ (conns.modify connId fun _ => id) := by
  have hfree : t.mgr.getKeyByConnId connId = none := by
    refine Option.eq_none_iff_forall_ne_some.2 fun id' hkey => ?_
    exact hnot ((h.keys connId id').1 hkey).2
  obtain ⟨old, hold⟩ := Option.ne_none_iff_exists'.1 hfind
  refine ⟨(h.consistent.newAgent hnew hfree).modifyAgent hf, fun c id' => ?_, fun c hmem => ?_⟩
  · change mgr.getKeyByConnId c = some id' ↔ _
    rw [AgentManager.newAgent_getKeyByConnId hnew hfree, UnorderedMap.find_modify, Finset.mem_insert]
    by_cases hc : c = connId
    · rw [if_pos hc, if_pos hc, hold, Option.map_some]
      exact ⟨fun heq => ⟨heq, Or.inl hc⟩, And.left⟩
    · rw [if_neg hc, if_neg hc, h.keys]
      exact and_congr_right fun _ => ⟨Or.inr, fun hmem => hmem.resolve_left hc⟩
  · rw [UnorderedMap.find_modify]
    split_ifs with hc
    · rw [hold]
      exact Option.some_ne_none id
    · exact h.known c ((Finset.mem_insert.1 hmem).resolve_left hc)

/-- A connection of the set loses its agent. -/
theorem Agrees.remove (h : t.Agrees conns) (hmem : connId ∈ t.connIds) (hid : conns.find connId = some id) :
    Agrees ⟨(t.mgr.deleteAgent id).2, t.connIds.erase connId⟩ (conns.remove connId) := by
  obtain ⟨agent, hagent, hconn⟩ := h.getAgent.2 ⟨hid, hmem⟩
  refine ⟨h.consistent.deleteAgent, fun c id' => ?_, fun c hc => ?_⟩
  · rw [h.consistent.deleteAgent_getKeyByConnId hagent, hconn, UnorderedMap.find_remove, Finset.mem_erase]
    by_cases hc : c = connId
    · rw [if_pos hc, if_pos hc]
      exact iff_of_false nofun fun h => h.2.1 hc
    · rw [if_neg hc, if_neg hc, h.keys]
      exact and_congr_right fun _ => ⟨fun hc' => ⟨hc, hc'⟩, And.right⟩
  · obtain ⟨hne, hc⟩ := Finset.mem_erase.1 hc
    rw [UnorderedMap.find_remove_of_ne hne]
    exact h.known c hc

end AgentTable

/-- The server and the connections that are open. -/
structure ConfigRun where
  server : ConfigServer
  opened : Finset ℤ

inductive ConfigEvent where
  | connect (connId : ℤ)
  | gateConnect (connId gateId : ℤ) (conf : ConfGateList) (outlet : Outlet)
  | loginConnect (connId : ℤ) (request : Option MsgConnectConfigRequest) (conf : ConfGateList) (outlet : Outlet)
  | disconnect (connId stale : ℤ)

namespace ConfigRun

def start : ConfigRun := ⟨.start, ∅⟩

def step (s : ConfigRun) : ConfigEvent → Option ConfigRun
  | .connect connId => some ⟨(s.server.onConnect connId).2, insert connId s.opened⟩
  | .gateConnect connId gateId conf outlet =>
    some { s with server := (s.server.processGateConnect connId gateId conf outlet).2.1 }
  | .loginConnect connId request conf outlet =>
    some { s with server := (s.server.processLoginConnect connId request conf outlet).2.1 }
  | .disconnect connId stale => some ⟨(s.server.onDisconnect connId stale).2, s.opened.erase connId⟩

/-- An agent with a positive id is on a connection exactly when the map has its id for the connection and the
connection is in the set; nothing refers to a connection that is not open; and an id that is registered on no open
connection has no agent, so that it can be registered. -/
structure Registered (s : ConfigRun) : Prop where
  login : ∀ id connId, 0 < id →
    ((∃ agent, s.server.logins.mgr.getAgent id = some agent ∧ agent.connId = connId) ↔
      s.server.conn2agent.find connId = some id ∧ connId ∈ s.server.logins.connIds)
  gate : ∀ id connId, 0 < id →
    ((∃ agent, s.server.gates.mgr.getAgent id = some agent ∧ agent.connId = connId) ↔
      s.server.conn2agent.find connId = some id ∧ connId ∈ s.server.gates.connIds)
  gone : ∀ connId, connId ∉ s.opened →
    (∀ id agent, s.server.logins.mgr.getAgent id = some agent → agent.connId ≠ connId) ∧
      (∀ id agent, s.server.gates.mgr.getAgent id = some agent → agent.connId ≠ connId) ∧
      s.server.conn2agent.find connId = none ∧
      connId ∉ s.server.logins.connIds ∧ connId ∉ s.server.gates.connIds
  freeLogin : ∀ id, (∀ connId ∈ s.opened,
      ¬(s.server.conn2agent.find connId = some id ∧ connId ∈ s.server.logins.connIds)) →
    s.server.logins.mgr.getAgent id = none
  freeGate : ∀ id, (∀ connId ∈ s.opened,
      ¬(s.server.conn2agent.find connId = some id ∧ connId ∈ s.server.gates.connIds)) →
    s.server.gates.mgr.getAgent id = none

/-- The connection is in none of the sets. -/
def Unregistered (s : ConfigRun) (connId : ℤ) : Prop :=
  connId ∉ s.server.logins.connIds ∧ connId ∉ s.server.gates.connIds

/-- A request that makes an agent comes on a connection that is not registered, a gate is known, and the element of
the map that is erased still has its value when it is read. -/
def Clean (s : ConfigRun) : ConfigEvent → Prop
  | .connect _ => True
  | .gateConnect connId gateId conf _ => s.server.checkConn connId = true →
      s.server.gates.mgr.getAgent gateId = none → s.Unregistered connId ∧ conf.byId gateId ≠ none
  | .loginConnect _ none _ _ => True
  | .loginConnect connId (some request) _ _ => s.server.checkConn connId = true →
      s.server.logins.mgr.getAgent request.loginId = none → s.Unregistered connId
  | .disconnect connId stale => ¬s.Unregistered connId → s.server.conn2agent.find connId = some stale

instance : DecidableRel Clean
  | _, .connect _ => inferInstanceAs (Decidable True)
  | _, .gateConnect _ _ _ _ => inferInstanceAs (Decidable (_ → _ → (_ ∧ _) ∧ _))
  | _, .loginConnect _ none _ _ => inferInstanceAs (Decidable True)
  | _, .loginConnect _ (some _) _ _ => inferInstanceAs (Decidable (_ → _ → _ ∧ _))
  | _, .disconnect _ _ => inferInstanceAs (Decidable (¬(_ ∧ _) → _))

end ConfigRun

def configMachine : Machine ConfigRun ConfigEvent := ⟨ConfigRun.step⟩

namespace ConfigServer

variable {s : ConfigServer} {connId : ℤ} {conf : ConfGateList} {outlet : Outlet}

/-- What a gate request does to the server: nothing, or a new agent, which is registered if the gate is known. -/
theorem processGateConnect_cases (s : ConfigServer) (connId gateId : ℤ) (conf : ConfGateList) (outlet : Outlet) :
    (s.processGateConnect connId gateId conf outlet).2.1 = s ∨
      s.checkConn connId = true ∧ s.gates.mgr.getAgent gateId = none ∧
        (conf.byId gateId ≠ none → ∃ mgr f, s.gates.mgr.newAgent gateId connId = some mgr ∧
          (∀ agent, (f agent).connId = agent.connId) ∧
          (s.processGateConnect connId gateId conf outlet).2.1 =
            ⟨s.conn2agent.modify connId fun _ => gateId, s.logins,
              ⟨mgr.modifyAgent gateId f, insert connId s.gates.connIds⟩⟩) := by
  unfold processGateConnect
  split_ifs with hcheck
  · exact Or.inl rfl
  · cases hagent : s.gates.mgr.getAgent gateId with
    | some agent => exact Or.inl rfl
    | none =>
        obtain ⟨mgr, hnew⟩ := AgentManager.newAgent_of_none hagent connId
        rw [hnew]
        refine Or.inr ⟨Bool.not_eq_false _ ▸ hcheck, rfl, fun hconf => ?_⟩
        obtain ⟨d, hd⟩ := Option.ne_none_iff_exists'.1 hconf
        rw [hd]
        refine ⟨mgr, fun agent => { agent with data := ⟨gateId, d.ip, toShort d.port⟩ },
          rfl, fun agent => rfl, ?_⟩
        dsimp only
        split
        · rfl
        · rfl

/-- What a login request does to the server: nothing, or a new agent that is registered. -/
theorem processLoginConnect_cases (s : ConfigServer) (connId : ℤ) (request : Option MsgConnectConfigRequest)
    (conf : ConfGateList) (outlet : Outlet) :
    (s.processLoginConnect connId request conf outlet).2.1 = s ∨
      ∃ r mgr f, request = some r ∧ s.checkConn connId = true ∧ s.logins.mgr.getAgent r.loginId = none ∧
        s.logins.mgr.newAgent r.loginId connId = some mgr ∧ (∀ agent, (f agent).connId = agent.connId) ∧
        (s.processLoginConnect connId request conf outlet).2.1 =
          ⟨s.conn2agent.modify connId fun _ => r.loginId,
            ⟨mgr.modifyAgent r.loginId f, insert connId s.logins.connIds⟩, s.gates⟩ := by
  unfold processLoginConnect
  split_ifs with hcheck
  · exact Or.inl rfl
  · cases request with
    | none => exact Or.inl rfl
    | some r =>
        dsimp only
        cases hagent : s.logins.mgr.getAgent r.loginId with
        | some agent => exact Or.inl rfl
        | none =>
            obtain ⟨mgr, hnew⟩ := AgentManager.newAgent_of_none hagent connId
            rw [hnew]
            refine Or.inr ⟨r, mgr, fun agent => { agent with data := ⟨r.loginId, r.loginIp, toShort r.loginPort⟩ },
              rfl, Bool.not_eq_false _ ▸ hcheck, hagent, hnew, fun agent => rfl, ?_⟩
            dsimp only
            split
            · rfl
            · split_ifs
              · rfl
              · rfl

end ConfigServer

namespace ConfigRun

variable {s : ConfigRun} {connId : ℤ}

/-- Both tables agree with the map, have no connection in common, and the map has the open connections. -/
structure Inv (s : ConfigRun) : Prop where
  logins : s.server.logins.Agrees s.server.conn2agent
  gates : s.server.gates.Agrees s.server.conn2agent
  disjoint : ∀ connId ∈ s.server.logins.connIds, connId ∉ s.server.gates.connIds
  opened : ∀ connId, s.server.conn2agent.find connId ≠ none ↔ connId ∈ s.opened

theorem inv_start : Inv start where
  logins := AgentTable.agrees_empty
  gates := AgentTable.agrees_empty
  disjoint connId hmem := absurd hmem (Finset.notMem_empty connId)
  opened connId := by
    refine iff_of_false (fun h => h ?_) (Finset.notMem_empty connId)
    exact UnorderedMap.find_empty

/-- An id without an open connection has no agent. -/
theorem Inv.free (h : s.Inv) {t : AgentTable} (ht : t.Agrees s.server.conn2agent) {id : ℤ}
    (hnone : ∀ connId ∈ s.opened, ¬(s.server.conn2agent.find connId = some id ∧ connId ∈ t.connIds)) :
    t.mgr.getAgent id = none := by
  refine Option.eq_none_iff_forall_ne_some.2 fun agent hagent => ?_
  obtain ⟨hfind, hmem⟩ := ht.getAgent.1 ⟨agent, hagent, rfl⟩
  refine hnone agent.connId ((h.opened _).1 ?_) ⟨hfind, hmem⟩
  rw [hfind]
  exact Option.some_ne_none id

theorem Inv.registered (h : s.Inv) : s.Registered where
  login id connId _ := h.logins.getAgent
  gate id connId _ := h.gates.getAgent
  gone connId hclosed := by
    have hnone : s.server.conn2agent.find connId = none := not_not.1 (mt (h.opened connId).1 hclosed)
    have hagents : ∀ {t : AgentTable}, t.Agrees s.server.conn2agent → ∀ id agent,
        t.mgr.getAgent id = some agent → agent.connId ≠ connId := by
      intro t ht id agent hagent hconn
      exact ht.not_mem hnone (ht.getAgent.1 ⟨agent, hagent, hconn⟩).2
    exact ⟨hagents h.logins, hagents h.gates, hnone, h.logins.not_mem hnone, h.gates.not_mem hnone⟩
  freeLogin id := h.free h.logins
  freeGate id := h.free h.gates

theorem Inv.connect (h : s.Inv) (connId : ℤ) :
    Inv ⟨(s.server.onConnect connId).2, insert connId s.opened⟩ := by
  unfold ConfigServer.onConnect
  cases hfind : s.server.conn2agent.find connId with
  | some id =>
      refine ⟨h.logins, h.gates, h.disjoint, fun c => ?_⟩
      have hmem : connId ∈ s.opened := (h.opened connId).1 (by rw [hfind]; exact Option.some_ne_none id)
      rw [Finset.insert_eq_of_mem hmem]
      exact h.opened c
  | none =>
      have hother : ∀ {t : AgentTable}, t.Agrees s.server.conn2agent →
          t.Agrees (s.server.conn2agent.emplace connId 0) := by
        intro t ht
        refine ht.congr fun c hc => UnorderedMap.find_emplace_of_ne ?_
        rintro rfl
        exact ht.not_mem hfind hc
      refine ⟨hother h.logins, hother h.gates, h.disjoint, fun c => ?_⟩
      change (s.server.conn2agent.emplace connId 0).find c ≠ none ↔ _
      rw [UnorderedMap.find_emplace hfind, Finset.mem_insert]
      split_ifs with hc
      · exact iff_of_true (Option.some_ne_none 0) (Or.inl hc)
      · rw [h.opened c]
        exact ⟨Or.inr, fun hmem => hmem.resolve_left hc⟩

/-- The map has the same connections when one of them gets an agent. -/
theorem Inv.opened_modify (h : s.Inv) (id : ℤ) (c : ℤ) :
    (s.server.conn2agent.modify connId fun _ => id).find c ≠ none ↔ c ∈ s.opened := by
  rw [← h.opened c, UnorderedMap.find_modify]
  split_ifs with hc
  · rw [hc, Ne, Ne, Option.map_eq_none_iff]
  · rfl

/-- A table that does not have the connection does not see that it gets an agent. -/
theorem agrees_modify_of_not_mem {t : AgentTable} {conns : UnorderedMap ℤ ℤ} (ht : t.Agrees conns)
    (hnot : connId ∉ t.connIds) (id : ℤ) : t.Agrees (conns.modify connId fun _ => id) := by
  refine ht.congr fun c hc => ?_
  rw [UnorderedMap.find_modify, if_neg]
  rintro rfl
  exact hnot hc

theorem agrees_remove_of_not_mem {t : AgentTable} {conns : UnorderedMap ℤ ℤ} (ht : t.Agrees conns)
    (hnot : connId ∉ t.connIds) : t.Agrees (conns.remove connId) := by
  refine ht.congr fun c hc => UnorderedMap.find_remove_of_ne ?_
  rintro rfl
  exact hnot hc

theorem find_ne_none_of_checkConn {s : ConfigServer} (h : s.checkConn connId = true) :
    s.conn2agent.find connId ≠ none := by
  rw [of_decide_eq_true h]
  exact Option.some_ne_none 0

theorem Inv.gateConnect (h : s.Inv) (gateId : ℤ) (conf : ConfGateList) (outlet : Outlet)
    (hclean : s.Clean (.gateConnect connId gateId conf outlet)) :
    Inv { s with server := (s.server.processGateConnect connId gateId conf outlet).2.1 } := by
  obtain hsame | ⟨hcheck, hagent, hknown⟩ := s.server.processGateConnect_cases connId gateId conf outlet
  · rw [hsame]
    exact h
  · obtain ⟨⟨hlogin, hgate⟩, hconf⟩ := hclean hcheck hagent
    obtain ⟨mgr, f, hnew, hf, hserver⟩ := hknown hconf
    rw [hserver]
    refine ⟨agrees_modify_of_not_mem h.logins hlogin gateId,
      h.gates.add hgate (find_ne_none_of_checkConn hcheck) hnew hf, fun c hc hmem => ?_, h.opened_modify gateId⟩
    obtain rfl | hmem := Finset.mem_insert.1 hmem
    · exact hlogin hc
    · exact h.disjoint c hc hmem

theorem Inv.loginConnect (h : s.Inv) (request : Option MsgConnectConfigRequest) (conf : ConfGateList)
    (outlet : Outlet) (hclean : s.Clean (.loginConnect connId request conf outlet)) :
    Inv { s with server := (s.server.processLoginConnect connId request conf outlet).2.1 } := by
  obtain hsame | ⟨r, mgr, f, rfl, hcheck, hagent, hnew, hf, hserver⟩ :=
    s.server.processLoginConnect_cases connId request conf outlet
  · rw [hsame]
    exact h
  · obtain ⟨hlogin, hgate⟩ := hclean hcheck hagent
    rw [hserver]
    refine ⟨h.logins.add hlogin (find_ne_none_of_checkConn hcheck) hnew hf,
      agrees_modify_of_not_mem h.gates hgate r.loginId, fun c hc hmem => ?_, h.opened_modify r.loginId⟩
    obtain rfl | hc := Finset.mem_insert.1 hc
    · exact hgate hmem
    · exact h.disjoint c hc hmem

/-- The map has one connection less behind a disconnect. -/
theorem Inv.opened_remove (h : s.Inv) (connId c : ℤ) :
    (s.server.conn2agent.remove connId).find c ≠ none ↔ c ∈ s.opened.erase connId := by
  rw [Finset.mem_erase, ← h.opened c, UnorderedMap.find_remove]
  split_ifs with hc
  · exact iff_of_false (fun hne => hne rfl) fun hne => hne.1 hc
  · exact (and_iff_right hc).symm

theorem Inv.disconnect (h : s.Inv) (connId stale : ℤ) (hclean : s.Clean (.disconnect connId stale)) :
    Inv ⟨(s.server.onDisconnect connId stale).2, s.opened.erase connId⟩ := by
  unfold ConfigServer.onDisconnect
  cases hfind : s.server.conn2agent.find connId with
  | none =>
      have hclosed : connId ∉ s.opened := fun hopen => (h.opened connId).2 hopen hfind
      rw [Finset.erase_eq_of_notMem hclosed]
      exact h
  | some id =>
      -- a registered connection is read with its own id, so the agent that goes is the one of the connection
      have hid : ¬s.Unregistered connId → id = stale := by
        intro hreg
        rw [← Option.some.injEq, ← hfind]
        exact hclean hreg
      dsimp only
      split_ifs with hlogin hgate
      · obtain rfl := hid fun hun => hun.1 hlogin
        obtain ⟨agent, hagent, -⟩ := h.logins.getAgent.2 ⟨hfind, hlogin⟩
        rw [hagent]
        refine ⟨h.logins.remove hlogin hfind, agrees_remove_of_not_mem h.gates (h.disjoint connId hlogin),
          fun c hc => h.disjoint c (Finset.mem_of_mem_erase hc), h.opened_remove connId⟩
      · obtain rfl := hid fun hun => hun.2 hgate
        obtain ⟨agent, hagent, -⟩ := h.gates.getAgent.2 ⟨hfind, hgate⟩
        rw [hagent]
        refine ⟨agrees_remove_of_not_mem h.logins hlogin, h.gates.remove hgate hfind,
          fun c hc hmem => h.disjoint c hc (Finset.mem_of_mem_erase hmem), h.opened_remove connId⟩
      · exact ⟨agrees_remove_of_not_mem h.logins hlogin, agrees_remove_of_not_mem h.gates hgate, h.disjoint,
          h.opened_remove connId⟩

theorem Inv.step {s' : ConfigRun} (h : s.Inv) {e : ConfigEvent} (hclean : s.Clean e)
    (hstep : configMachine.step s e = some s') : s'.Inv := by
  cases e with
  | connect connId =>
      obtain rfl := Option.some.inj hstep
      exact h.connect connId
  | gateConnect connId gateId conf outlet =>
      obtain rfl := Option.some.inj hstep
      exact h.gateConnect gateId conf outlet hclean
  | loginConnect connId request conf outlet =>
      obtain rfl := Option.some.inj hstep
      exact h.loginConnect request conf outlet hclean
  | disconnect connId stale =>
      obtain rfl := Option.some.inj hstep
      exact h.disconnect connId stale hclean

/-- In every run of clean steps the tables stay consistent. -/
theorem registered_of_clean {es : List ConfigEvent} {t : ConfigRun} (hclean : configMachine.Along Clean start es)
    (hrun : configMachine.run start es = some t) : t.Registered := by
  have hinv : t.Inv := Machine.invariant_along (fun _ _ _ h => h.step) inv_start hclean hrun
  exact hinv.registered

/-- The gates 1 and 2 are configured, and every message is sent. -/
def twoGates : ConfGateList where
  gates := []
  byId id := if id = 1 ∨ id = 2 then some ⟨[], id, [], 9000, [], [], false, false⟩ else none

def allSent : Outlet := ⟨fun _ => true, fun _ => true⟩

/-- A login server and a gate server register, a second server with the id of the gate is refused, and they all
leave. -/
def registerAndLeave : List ConfigEvent :=
  [.connect 10, .loginConnect 10 (some ⟨1, [], 8000⟩) twoGates allSent, .connect 11, .gateConnect 11 2 twoGates allSent,
    .connect 12, .gateConnect 12 2 twoGates allSent, .disconnect 12 0, .disconnect 10 1, .disconnect 11 2]

theorem registerAndLeave_registered : ∃ t, configMachine.run start registerAndLeave = some t ∧ t.Registered := by
  have hclean : configMachine.Along Clean start registerAndLeave := by decide
  obtain ⟨t, ht⟩ : ∃ t, configMachine.run start registerAndLeave = some t := ⟨_, rfl⟩
  exact ⟨t, ht, registered_of_clean hclean ht⟩

/-- A gate server that is not configured is refused and leaves. -/
def unknownGate : List ConfigEvent := [.connect 10, .gateConnect 10 9 twoGates allSent, .disconnect 10 0]

/-- Its agent stays, on a connection that is no more. -/
theorem unknownGate_not_registered : ∃ t, configMachine.run start unknownGate = some t ∧ ¬t.Registered := by
  refine ⟨_, rfl, fun h => ?_⟩
  exact (h.gone 10 (by decide)).2.1 9 (.make 10) (by decide) rfl

end ConfigRun

end JmyGame
