import JmyGame.CommonAgentCalls

/-! The game servers that `db_server` knows: `GAME_MGR` and the two handlers that change it. A game server that
connects again before its old connection is gone is answered on the old connection. -/

namespace JmyGame

structure GameAgentData where
  gameId : ℤ
  deriving DecidableEq, Repr, Inhabited

/-- `GameServerManager`. -/
abbrev GameServerManager := AgentManagerPerf GameAgentData

namespace GameServerManager

/-- `GAME_MGR` when the server starts. -/
def init : GameServerManager := AgentManagerPerf.init gameServerMinId gameServerMaxId

variable (mgr : GameServerManager)

/-- `getIdByConnId`, which is 0 for an unknown connection. -/
def getIdByConnId (connId : ℤ) : ℤ := (AgentManagerPerf.getIdByConnId mgr connId).getD 0

/-- `GameHandler::onDisconnect`. -/
def onDisconnect (connId : ℤ) : GameServerManager :=
  if (mgr.getAgentByConnId connId).isSome then (mgr.deleteAgentByConnId connId).2 else mgr

/-- The end of `processConnectDBRequest`: the response is sent by the agent. -/
def respond (gameId : ℤ) (send : ℤ → Bool) (agent : Agent GameAgentData) : Option (ℤ × Option ℤ) :=
  if (agent.sendMsg send).1 then some (gameId, (agent.sendMsg send).2) else none

/-- `GameHandler::processConnectDBRequest`: for a success the game id and the connection that the response was sent
on. The request is `none` where it cannot be parsed. -/
def processConnectDBRequest (connId : ℤ) (request : Option ℤ) (send : ℤ → Bool) :
    Option (ℤ × Option ℤ) × GameServerManager :=
  if (mgr.getAgentByConnId connId).isSome then (none, mgr)
  else match request with
  | none => (none, mgr)
  | some gameId =>
    match mgr.getAgent gameId with
    | some agent => (respond gameId send agent, mgr)
    | none =>
      match mgr.newAgent gameId connId with
      | none => (none, mgr)
      | some mgr' => ((mgr'.getAgent gameId).bind (respond gameId send), mgr')

end GameServerManager

/-- `GAME_MGR`, the game id of the last request that succeeded on a connection since it was opened, and of every
success its connection and the connection that the response was sent on. -/
structure DbGames where
  mgr : GameServerManager
  bound : ℤ → Option ℤ
  responses : List (ℤ × Option ℤ)

inductive DbGamesEvent where
  | connect (connId : ℤ)
  | connectDB (connId : ℤ) (request : Option ℤ) (send : ℤ → Bool)
  | disconnect (connId : ℤ)

namespace DbGames

def init : DbGames := ⟨.init, fun _ => none, []⟩

def step (s : DbGames) : DbGamesEvent → Option DbGames
  | .connect _ => some s
  | .connectDB connId request send =>
    let r := s.mgr.processConnectDBRequest connId request send
    some (match r.1 with
      | none => { s with mgr := r.2 }
      | some (gameId, sent) =>
        { mgr := r.2
          bound := Function.update s.bound connId (some gameId)
          responses := s.responses ++ [(connId, sent)] })
  | .disconnect connId =>
    some { s with mgr := s.mgr.onDisconnect connId, bound := Function.update s.bound connId none }

/-- A game server whose request succeeded on a connection has that connection, and the connection has it, until
the connection is gone; and every response was sent on the connection of its request. -/
structure BoundToConnection (s : DbGames) : Prop where
  bound : ∀ connId gameId, s.bound connId = some gameId →
    (s.mgr.getAgent gameId).map Agent.connId = some connId ∧ s.mgr.getIdByConnId connId = gameId
  responses : ∀ r ∈ s.responses, r.2 = some r.1

/-- A request does not find an agent of its game server that it can answer. -/
def NoAgentReused (s : DbGames) : DbGamesEvent → Prop
  | .connectDB connId (some gameId) send => s.mgr.getAgentByConnId connId = none →
      ∀ agent, s.mgr.getAgent gameId = some agent → (agent.sendMsg send).1 = false
  | _ => True

end DbGames

def dbGamesMachine : Machine DbGames DbGamesEvent := ⟨DbGames.step⟩

namespace GameServerManager

variable {mgr mgr' : GameServerManager} {connId gameId : ℤ} {send : ℤ → Bool}

/-- What a request for a game server that is known does. -/
theorem processConnectDBRequest_known (hconn : mgr.getAgentByConnId connId = none) {agent : Agent GameAgentData}
    (hagent : mgr.getAgent gameId = some agent) :
    mgr.processConnectDBRequest connId (some gameId) send = (respond gameId send agent, mgr) := by
  simp only [processConnectDBRequest, hconn, hagent, Option.isSome_none, Bool.false_eq_true, if_false]

/-- What a request does that makes an agent. -/
theorem processConnectDBRequest_new (hconn : mgr.getAgentByConnId connId = none)
    (hnone : mgr.getAgent gameId = none) (hnew : mgr.newAgent gameId connId = some mgr')
    (hagent : mgr'.getAgent gameId = some (.make connId)) :
    mgr.processConnectDBRequest connId (some gameId) send =
      (if send connId then some (gameId, some connId) else none, mgr') := by
  have hsend : respond gameId send (.make connId) = if send connId then some (gameId, some connId) else none := by
    have hmade : (Agent.make connId : Agent GameAgentData).sendMsg send =
        if send connId then (true, some connId) else (false, none) := if_neg (not_not.2 rfl)
    unfold respond
    rw [hmade]
    cases send connId <;> rfl
  simp only [processConnectDBRequest, hconn, hnone, hnew, hagent, Option.isSome_none, Bool.false_eq_true, if_false,
    Option.bind_some, hsend]

/-- The ways a request can end: it is refused, it finds an agent of its game server, or it makes one. -/
theorem processConnectDBRequest_cases (mgr : GameServerManager) (connId : ℤ) (request : Option ℤ)
    (send : ℤ → Bool) :
    mgr.processConnectDBRequest connId request send = (none, mgr) ∨
      ∃ gameId, request = some gameId ∧ mgr.getAgentByConnId connId = none ∧
        ((∃ agent, mgr.getAgent gameId = some agent) ∨
          mgr.getAgent gameId = none ∧ ∃ mgr', mgr.newAgent gameId connId = some mgr') := by
  cases hconn : mgr.getAgentByConnId connId with
  | some agent =>
      refine Or.inl ?_
      simp only [processConnectDBRequest, hconn, Option.isSome_some, if_true]
  | none =>
      cases request with
      | none =>
          refine Or.inl ?_
          simp only [processConnectDBRequest, ite_self]
      | some gameId =>
          cases hagent : mgr.getAgent gameId with
          | some agent => exact Or.inr ⟨gameId, rfl, rfl, Or.inl ⟨agent, hagent⟩⟩
          | none =>
              cases hnew : mgr.newAgent gameId connId with
              | some mgr' => exact Or.inr ⟨gameId, rfl, rfl, Or.inr ⟨hagent, mgr', hnew⟩⟩
              | none =>
                  refine Or.inl ?_
                  simp only [processConnectDBRequest, hconn, hagent, hnew, Option.isSome_none, Bool.false_eq_true,
                    if_false]

end GameServerManager

namespace DbGames

/-- The invariant of a run, with the hash map that `GAME_MGR` stands for. -/
structure Inv (s : DbGames) (m : AgentManager ℤ GameAgentData) : Prop where
  refines : AgentManagerPerf.Refines gameServerMinId gameServerMaxId s.mgr m
  consistent : m.Consistent
  bound : ∀ connId gameId, s.bound connId = some gameId → m.getKeyByConnId connId = some gameId
  responses : ∀ r ∈ s.responses, r.2 = some r.1

variable {s : DbGames} {m : AgentManager ℤ GameAgentData} {connId gameId : ℤ} {send : ℤ → Bool}

theorem inv_init : Inv init .empty where
  refines := AgentManagerPerf.refines_init
  consistent := AgentManager.consistent_empty
  bound := nofun
  responses := nofun

theorem Inv.boundToConnection (h : Inv s m) : s.BoundToConnection where
  bound connId gameId hbound := by
    have hkey := h.bound connId gameId hbound
    obtain ⟨agent, hagent, hconn⟩ := (h.consistent.keys connId gameId).1 hkey
    refine ⟨?_, ?_⟩
    · rw [h.refines.agents, hagent, Option.map_some, hconn]
    · rw [GameServerManager.getIdByConnId, h.refines.getIdByConnId, hkey]
      rfl
  responses := h.responses

/-- A request that makes an agent for its connection. -/
theorem Inv.newAgent (h : Inv s m) (hconn : s.mgr.getAgentByConnId connId = none) {mgr' : GameServerManager}
    (hnew : s.mgr.newAgent gameId connId = some mgr') :
    ∃ m', Inv { s with mgr := mgr' } m' ∧ m'.getKeyByConnId connId = some gameId ∧
      mgr'.getAgent gameId = some (.make connId) := by
  have hrange := AgentManagerPerf.inRange_of_newAgent hnew
  rw [h.refines.minId, h.refines.maxId] at hrange
  obtain ⟨hrefused, -⟩ | ⟨p', m', hp, hm, hrefines⟩ := h.refines.newAgent hrange connId
  · cases hrefused.symm.trans hnew
  · obtain rfl := Option.some.inj (hnew.symm.trans hp)
    have hfree : m.getKeyByConnId connId = none := by
      rw [h.refines.getAgentByConnId] at hconn
      exact h.consistent.getAgentByConnId_eq_none.1 hconn
    refine ⟨m', ⟨hrefines, h.consistent.newAgent hm hfree, fun connId' gameId' hbound => ?_, h.responses⟩, ?_, ?_⟩
    · have hkey := h.bound connId' gameId' hbound
      rw [AgentManager.newAgent_getKeyByConnId hm hfree, if_neg, hkey]
      rintro rfl
      cases hfree.symm.trans hkey
    · rw [AgentManager.newAgent_getKeyByConnId hm hfree, if_pos rfl]
    · rw [hrefines.agents, AgentManager.newAgent_getAgent hm, if_pos rfl]

theorem Inv.disconnect (h : Inv s m) (connId : ℤ) :
    ∃ m', Inv { s with mgr := s.mgr.onDisconnect connId, bound := Function.update s.bound connId none } m' := by
  refine ⟨(m.deleteAgentByConnId connId).2, ?_, h.consistent.deleteAgentByConnId, ?_, h.responses⟩
  · change AgentManagerPerf.Refines _ _ (s.mgr.onDisconnect connId) _
    unfold GameServerManager.onDisconnect
    rw [h.refines.getAgentByConnId]
    split_ifs with hagent
    · exact h.refines.deleteAgentByConnId.2
    · -- a connection without an agent has no key
      rw [Bool.not_eq_true, Option.isSome_eq_false_iff, Option.isNone_iff_eq_none,
        h.consistent.getAgentByConnId_eq_none] at hagent
      have hsame : m.deleteAgentByConnId connId = (false, m) := by
        unfold AgentManager.deleteAgentByConnId
        rw [hagent]
      rw [hsame]
      exact h.refines
  · intro connId' gameId' hbound
    change Function.update s.bound connId none connId' = _ at hbound
    rw [Function.update_apply] at hbound
    obtain ⟨hne, hbound⟩ := Option.ite_none_left_eq_some.1 hbound
    rw [h.consistent.deleteAgentByConnId_getKeyByConnId, if_neg hne]
    exact h.bound connId' gameId' hbound

/-- A success on a connection that the manager has for the game server. -/
theorem Inv.succeed (h : Inv s m) (hkey : m.getKeyByConnId connId = some gameId) :
    Inv { s with bound := Function.update s.bound connId (some gameId)
                 responses := s.responses ++ [(connId, some connId)] } m where
  refines := h.refines
  consistent := h.consistent
  bound connId' gameId' hbound := by
    change Function.update s.bound connId (some gameId) connId' = _ at hbound
    rw [Function.update_apply] at hbound
    split_ifs at hbound with heq
    · rw [heq, hkey, hbound]
    · exact h.bound connId' gameId' hbound
  responses r hr := by
    rcases List.mem_append.1 hr with hr | hr
    · exact h.responses r hr
    · rw [List.mem_singleton.1 hr]

/-- A request that finds no agent that it can answer keeps the invariant. -/
theorem Inv.connectDB (h : Inv s m) {request : Option ℤ}
    (hfresh : s.NoAgentReused (.connectDB connId request send)) {s' : DbGames}
    (hstep : s.step (.connectDB connId request send) = some s') : ∃ m', Inv s' m' := by
  obtain rfl := Option.some.inj hstep
  obtain hrefused | ⟨gameId, rfl, hconn, ⟨agent, hagent⟩ | ⟨hnone, mgr', hnew⟩⟩ :=
    s.mgr.processConnectDBRequest_cases connId request send
  · rw [hrefused]
    exact ⟨m, h⟩
  · have hsend : (agent.sendMsg send).1 = false := hfresh hconn agent hagent
    rw [GameServerManager.processConnectDBRequest_known hconn hagent]
    unfold GameServerManager.respond
    rw [hsend]
    exact ⟨m, h⟩
  · obtain ⟨m', hinv, hkey, hmade⟩ := h.newAgent hconn hnew
    rw [GameServerManager.processConnectDBRequest_new hconn hnone hnew hmade]
    cases send connId with
    | false => exact ⟨m', hinv⟩
    | true => exact ⟨m', hinv.succeed hkey⟩

/-- A request that is answered by an agent that was there is answered on another connection. -/
theorem Inv.noAgentReused (h : Inv s m) {e : DbGamesEvent}
    (hbound : ∀ s', s.step e = some s' → s'.BoundToConnection) : s.NoAgentReused e := by
  cases e with
  | connect connId => trivial
  | disconnect connId => trivial
  | connectDB connId request send =>
      cases request with
      | none => trivial
      | some gameId =>
          intro hconn agent hagent
          by_contra hsend
          rw [Bool.not_eq_false] at hsend
          have hafter := hbound _ rfl
          rw [GameServerManager.processConnectDBRequest_known hconn hagent] at hafter
          unfold GameServerManager.respond at hafter
          rw [hsend] at hafter
          have hnew := (hafter.bound connId gameId (Function.update_self _ _ _)).1
          change (s.mgr.getAgent gameId).map Agent.connId = some connId at hnew
          -- the agent is on the connection, on which there is none
          rw [hagent, Option.map_some, Option.some.injEq] at hnew
          rw [h.refines.agents] at hagent
          rw [h.refines.getAgentByConnId, h.consistent.getAgentByConnId_eq_none] at hconn
          cases hconn.symm.trans ((h.consistent.keys connId gameId).2 ⟨agent, hagent, hnew⟩)

end DbGames

/-- A game server has the connection on which its last request succeeded, and was answered on it, in every state
that a run reaches exactly when no request is answered by an agent that was there before. -/
theorem boundToConnection_iff (es : List DbGamesEvent) :
    dbGamesMachine.Along DbGames.NoAgentReused .init es ↔
      ∀ es₁ es₂ s, es = es₁ ++ es₂ → dbGamesMachine.run .init es₁ = some s → s.BoundToConnection := by
  refine Machine.along_iff_reached (I := fun s => ∃ m, DbGames.Inv s m) ?_ ?_ ?_ ⟨_, DbGames.inv_init⟩ es
  · rintro s e s' ⟨m, h⟩ he hstep
    cases e with
    | connect connId =>
        obtain rfl := Option.some.inj hstep
        exact ⟨m, h⟩
    | connectDB connId request send => exact h.connectDB he hstep
    | disconnect connId =>
        obtain rfl := Option.some.inj hstep
        exact h.disconnect connId
  · rintro s ⟨m, h⟩
    exact h.boundToConnection
  · rintro s e ⟨m, h⟩ hreach
    exact h.noAgentReused hreach

/-- A game server connects again while its first connection is still known. -/
def reconnectEarly : List DbGamesEvent :=
  [.connect 1, .connectDB 1 (some 40001) fun _ => true, .connect 2, .connectDB 2 (some 40001) fun _ => true,
    .disconnect 1]

/-- It is answered on the first connection, and not known any more when that one is gone. -/
theorem reconnectEarly_lost :
    ∃ s, dbGamesMachine.run .init reconnectEarly = some s ∧ s.responses = [(1, some 1), (2, some 1)] ∧
      s.bound 2 = some 40001 ∧ s.mgr.getAgent 40001 = none ∧ ¬s.BoundToConnection := by
  have hrun : (dbGamesMachine.run .init reconnectEarly).map
      (fun s => (s.responses, s.bound 2, s.mgr.getAgent 40001)) =
        some ([(1, some 1), (2, some 1)], some 40001, none) := by decide
  obtain ⟨s, hs, heq⟩ := Option.map_eq_some_iff.1 hrun
  obtain ⟨hresponses, heq⟩ := Prod.mk.inj heq
  obtain ⟨hbound, hagent⟩ := Prod.mk.inj heq
  refine ⟨s, hs, hresponses, hbound, hagent, fun h => ?_⟩
  have hlost := (h.bound 2 40001 hbound).1
  rw [hagent] at hlost
  cases hlost

end JmyGame
