import JmyGame.CommonAgents
import JmyGame.GateHandlers
import JmyGame.LibMachine

/-! The agent of the game server in `GlobalData` of the gate. `the_game_id_`, the slot of the agent, the counter and the
two maps of connections stay in step: a gate has no agent, or one that is everywhere. The gate of the message handlers
has the same agent. -/

namespace JmyGame

structure GameData where
  deriving DecidableEq, Repr, Inhabited

/-- What `GlobalData` of the gate has of the game server. -/
structure GlobalData where
  gameMgr : AgentManagerPerf GameData
  theGameId : ℤ

namespace GlobalData

def start : GlobalData := ⟨.init gameServerMinId gameServerMaxId, 0⟩

variable (s : GlobalData)

/-- `newGameAgent`: whether there is a new agent. -/
def newGameAgent (gameId connId : ℤ) : Bool × GlobalData :=
  match s.gameMgr.getAgentByConnId connId with
  | some _ => (false, s)
  | none =>
    if 0 < s.theGameId then (false, s)
    else match s.gameMgr.newAgent gameId connId with
    | none => (false, s)
    | some gameMgr => (true, ⟨gameMgr, gameId⟩)

def removeGameAgentByConnId (connId : ℤ) : Bool × GlobalData :=
  match s.gameMgr.getAgentByConnId connId with
  | none => (false, s)
  | some _ =>
    if s.gameMgr.getIdByConnId connId = some s.theGameId then
      (true, ⟨(s.gameMgr.deleteAgent s.theGameId).2, 0⟩)
    else (false, s)

end GlobalData

inductive GameAgentCall where
  | new (gameId connId : ℤ)
  | remove (connId : ℤ)
  deriving DecidableEq

def gameAgentMachine : Machine GlobalData GameAgentCall where
  step s
    | .new gameId connId => some (s.newGameAgent gameId connId).2
    | .remove connId => some (s.removeGameAgentByConnId connId).2

/-- There is at most one agent; `the_game_id_` is positive when there is one, which is then in its slot, and is found
by its connection. -/
structure OneGame (s : GlobalData) : Prop where
  atMostOne : ∀ id id', s.gameMgr.getAgent id ≠ none → s.gameMgr.getAgent id' ≠ none → id = id'
  size : s.gameMgr.getAgentSize ≤ 1
  positive : 0 < s.theGameId ↔ ∃ id, s.gameMgr.getAgent id ≠ none
  stored : 0 < s.theGameId → ∃ agent, s.gameMgr.getAgent s.theGameId = some agent ∧
    s.gameMgr.getIdByConnId agent.connId = some s.theGameId ∧ s.gameMgr.getAgentByConnId agent.connId = some agent

namespace GlobalData

/-- The game server is there with its id, on its connection. -/
def linked (gameId connId : ℤ) : GlobalData where
  gameMgr := {
    minId := gameServerMinId
    maxId := gameServerMaxId
    agents := Function.update (fun _ => none) gameId (some (.make connId))
    agentCount := 1
    conn2agentIds := (∅ : UnorderedMap ℤ ℤ).emplace connId gameId
    agent2connIds := (∅ : UnorderedMap ℤ ℤ).emplace gameId connId }
  theGameId := gameId

/-- The ids of the slots of the array. -/
def IsGameId (gameId : ℤ) : Prop := gameServerMinId ≤ gameId ∧ gameId ≤ gameServerMaxId

variable {gameId gameId' connId connId' : ℤ}

theorem IsGameId.pos (h : IsGameId gameId) : 0 < gameId :=
  lt_of_lt_of_le (by decide) h.1

theorem not_isGameId : ¬IsGameId gameId ↔
    gameId < gameServerMinId ∨ gameServerMaxId - gameServerMinId < gameId - gameServerMinId := by
  unfold IsGameId
  omega

theorem start_getAgent : start.gameMgr.getAgent gameId = none := by
  unfold AgentManagerPerf.getAgent
  split_ifs <;> rfl

theorem start_getAgentByConnId : start.gameMgr.getAgentByConnId connId = none := by
  have hid : start.gameMgr.getIdByConnId connId = none := UnorderedMap.find_empty
  rw [AgentManagerPerf.getAgentByConnId, hid, Option.bind_none]

theorem linked_getAgent (h : IsGameId gameId) :
    (linked gameId connId).gameMgr.getAgent gameId' = if gameId' = gameId then some (.make connId) else none := by
  unfold AgentManagerPerf.getAgent linked
  dsimp only
  rw [Function.update_apply]
  split_ifs with hout heq heq
  · exact absurd (heq ▸ h) (not_isGameId.2 hout)
  · rfl
  · rfl
  · rfl

theorem linked_getIdByConnId :
    (linked gameId connId).gameMgr.getIdByConnId connId' = if connId' = connId then some gameId else none := by
  unfold AgentManagerPerf.getIdByConnId linked
  dsimp only
  rw [UnorderedMap.find_emplace UnorderedMap.find_empty, UnorderedMap.find_empty]

theorem linked_getAgentByConnId (h : IsGameId gameId) : (linked gameId connId).gameMgr.getAgentByConnId connId' =
    if connId' = connId then some (.make connId) else none := by
  rw [AgentManagerPerf.getAgentByConnId, linked_getIdByConnId]
  split_ifs
  · rw [Option.bind_some, linked_getAgent h, if_pos rfl]
  · rfl

/-- The first game server comes with an id that has a slot. -/
theorem start_new (gameId connId : ℤ) :
    IsGameId gameId ∧ start.newGameAgent gameId connId = (true, linked gameId connId) ∨
      ¬IsGameId gameId ∧ start.newGameAgent gameId connId = (false, start) := by
  have hzero : ¬(0 : ℤ) < start.theGameId := lt_irrefl 0
  unfold newGameAgent
  rw [start_getAgentByConnId]
  dsimp only
  rw [if_neg hzero, AgentManagerPerf.newAgent]
  by_cases h : IsGameId gameId
  · have hin : ¬(gameId < start.gameMgr.minId ∨ start.gameMgr.maxId - start.gameMgr.minId <
        gameId - start.gameMgr.minId) := fun hout => not_isGameId.2 hout h
    rw [if_neg hin]
    exact Or.inl ⟨h, rfl⟩
  · have hout : gameId < start.gameMgr.minId ∨ start.gameMgr.maxId - start.gameMgr.minId <
        gameId - start.gameMgr.minId := not_isGameId.1 h
    rw [if_pos hout]
    exact Or.inr ⟨h, rfl⟩

theorem start_remove (connId : ℤ) : start.removeGameAgentByConnId connId = (false, start) := by
  unfold removeGameAgentByConnId
  rw [start_getAgentByConnId]

/-- A second game server is refused, whatever its id and its connection. -/
theorem linked_new (h : IsGameId gameId) (gameId' connId' : ℤ) :
    (linked gameId connId).newGameAgent gameId' connId' = (false, linked gameId connId) := by
  unfold newGameAgent
  rw [linked_getAgentByConnId h]
  have hpos : 0 < (linked gameId connId).theGameId := h.pos
  by_cases hconn : connId' = connId
  · rw [if_pos hconn]
  · rw [if_neg hconn]
    dsimp only
    rw [if_pos hpos]

theorem linked_delete (h : IsGameId gameId) :
    (linked gameId connId).gameMgr.deleteAgent gameId = (true, start.gameMgr) := by
  have hcount : ¬(linked gameId connId).gameMgr.agentCount = 0 := Nat.one_ne_zero
  have hfound : (linked gameId connId).gameMgr.agent2connIds.find gameId = some connId :=
    UnorderedMap.find_emplace_self UnorderedMap.find_empty
  unfold AgentManagerPerf.deleteAgent
  rw [linked_getAgent h, if_pos rfl]
  dsimp only
  rw [if_neg hcount, hfound]
  simp only [linked, UnorderedMap.remove_emplace UnorderedMap.find_empty, Function.update_idem,
    Function.update_eq_self_iff.2]
  rfl

/-- The end of another connection changes nothing, and that of the game server leaves nothing behind. -/
theorem linked_remove (h : IsGameId gameId) (connId' : ℤ) : (linked gameId connId).removeGameAgentByConnId connId' =
    if connId' = connId then (true, start) else (false, linked gameId connId) := by
  unfold removeGameAgentByConnId
  rw [linked_getAgentByConnId h]
  by_cases hconn : connId' = connId
  · have hid : (linked gameId connId).gameMgr.getIdByConnId connId' = some (linked gameId connId).theGameId := by
      rw [linked_getIdByConnId, if_pos hconn]
      rfl
    rw [if_pos hconn, if_pos hconn]
    dsimp only
    rw [if_pos hid]
    exact congrArg (fun r : Bool × AgentManagerPerf GameData => (true, GlobalData.mk r.2 0)) (linked_delete h)
  · rw [if_neg hconn, if_neg hconn]

/-- The gate has no game server, or one whose id has a slot. -/
def Linked (s : GlobalData) : Prop := s = start ∨ ∃ gameId connId, IsGameId gameId ∧ s = linked gameId connId

theorem Linked.step {s s' : GlobalData} (h : Linked s) {e : GameAgentCall}
    (hstep : gameAgentMachine.step s e = some s') : Linked s' := by
  cases e with
  | new gameId connId =>
      cases hstep
      rcases h with rfl | ⟨gameId', connId', h, rfl⟩
      · rcases start_new gameId connId with ⟨h, hnew⟩ | ⟨h, hnew⟩
        · exact Or.inr ⟨gameId, connId, h, congrArg Prod.snd hnew⟩
        · exact Or.inl (congrArg Prod.snd hnew)
      · exact Or.inr ⟨gameId', connId', h, congrArg Prod.snd (linked_new h gameId connId)⟩
  | remove connId =>
      cases hstep
      rcases h with rfl | ⟨gameId', connId', h, rfl⟩
      · exact Or.inl (congrArg Prod.snd (start_remove connId))
      · have hremove := congrArg Prod.snd (@linked_remove gameId' connId' h connId)
        split_ifs at hremove
        · exact Or.inl hremove
        · exact Or.inr ⟨gameId', connId', h, hremove⟩

theorem Linked.run {s : GlobalData} {es : List GameAgentCall} (hrun : gameAgentMachine.run .start es = some s) :
    Linked s :=
  Machine.invariant_run (fun _ _ _ h hstep => h.step hstep) (Or.inl rfl) hrun

theorem start_oneGame : OneGame start where
  atMostOne _ _ h := absurd start_getAgent h
  size := Nat.zero_le 1
  positive := iff_of_false (lt_irrefl 0) fun ⟨_, h⟩ => h start_getAgent
  stored h := absurd h (lt_irrefl 0)

theorem linked_oneGame (h : IsGameId gameId) : OneGame (linked gameId connId) where
  atMostOne id id' hid hid' := by
    rw [linked_getAgent h, ite_ne_right_iff] at hid hid'
    exact hid.1.trans hid'.1.symm
  size := le_refl 1
  positive := by
    refine iff_of_true h.pos ⟨gameId, ?_⟩
    rw [linked_getAgent h, if_pos rfl]
    exact Option.some_ne_none _
  stored _ := by
    refine ⟨.make connId, ?_, ?_, ?_⟩
    · exact (linked_getAgent h).trans (if_pos rfl)
    · exact linked_getIdByConnId.trans (if_pos rfl)
    · exact (linked_getAgentByConnId h).trans (if_pos rfl)

/-- A new agent that is refused changes nothing. -/
theorem Linked.refused {s : GlobalData} (h : Linked s) {gameId connId : ℤ}
    (hrefused : (s.newGameAgent gameId connId).1 = false) : (s.newGameAgent gameId connId).2 = s := by
  rcases h with rfl | ⟨gameId', connId', h, rfl⟩
  · rcases start_new gameId connId with ⟨-, hnew⟩ | ⟨-, hnew⟩
    · rw [hnew] at hrefused
      cases hrefused
    · rw [hnew]
  · rw [linked_new h]

/-- The gate has at most one game server after every sequence of calls, and refuses a second one without a trace. -/
theorem oneGame_run {s : GlobalData} {es : List GameAgentCall} (hrun : gameAgentMachine.run .start es = some s) :
    OneGame s ∧ ∀ gameId connId, (s.newGameAgent gameId connId).1 = false → (s.newGameAgent gameId connId).2 = s := by
  have h := Linked.run hrun
  refine ⟨?_, fun gameId connId => h.refused⟩
  rcases h with rfl | ⟨gameId, connId, h, rfl⟩
  · exact start_oneGame
  · exact linked_oneGame h

/-- A game server with an id without a slot, one that stays, a second one, and the end of another connection. -/
theorem secondGame_refused : ∃ s, gameAgentMachine.run .start
    [.new 7 1, .new 40001 1, .new 40002 2, .remove 2] = some s ∧ OneGame s := by
  obtain ⟨s, hs⟩ : ∃ s, gameAgentMachine.run .start [.new 7 1, .new 40001 1, .new 40002 2, .remove 2] = some s :=
    ⟨_, rfl⟩
  exact ⟨s, hs, (oneGame_run hs).1⟩

/-- The agent that the handlers see. -/
def agent (s : GlobalData) : Option ℤ := if 0 < s.theGameId then some s.theGameId else none

theorem agent_linked (h : IsGameId gameId) : (linked gameId connId).agent = some gameId := if_pos h.pos

/-- A new agent of the handlers is one of `GlobalData`, on any connection. -/
theorem Linked.newGameAgent {s : GlobalData} (h : Linked s) {g : Gate} (hagent : g.gameAgent = s.agent)
    (gameId connId : ℤ) : (g.newGameAgent gameId).1 = (s.newGameAgent gameId connId).1 ∧
      (g.newGameAgent gameId).2.gameAgent = (s.newGameAgent gameId connId).2.agent := by
  rcases h with rfl | ⟨gameId', connId', h, rfl⟩
  · have hnone : g.gameAgent = none := hagent
    unfold Gate.newGameAgent
    rw [hnone, if_neg (by decide)]
    rcases start_new gameId connId with ⟨hid, hnew⟩ | ⟨hid, hnew⟩
    · have hin : ¬(gameId < gameServerMinId ∨ gameServerMaxId < gameId) := by
        unfold IsGameId at hid
        omega
      rw [if_neg hin, hnew, agent_linked hid]
      exact ⟨rfl, rfl⟩
    · have hout : gameId < gameServerMinId ∨ gameServerMaxId < gameId := by
        unfold IsGameId at hid
        omega
      rw [if_pos hout, hnew]
      exact ⟨rfl, hagent⟩
  · have hsome : g.gameAgent = some gameId' := hagent.trans (agent_linked h)
    unfold Gate.newGameAgent
    rw [hsome, if_pos Option.isSome_some, linked_new h]
    exact ⟨rfl, hagent⟩

/-- The end of the connection of the agent is the end of the link of the handlers. -/
theorem Linked.closeGame {s : GlobalData} (h : Linked s) (g : Gate) {connId : ℤ}
    (hremoved : (s.removeGameAgentByConnId connId).1 = true) :
    g.closeGame.gameAgent = (s.removeGameAgentByConnId connId).2.agent := by
  rcases h with rfl | ⟨gameId, connId', h, rfl⟩
  · rw [start_remove] at hremoved
    cases hremoved
  · rw [linked_remove h] at hremoved ⊢
    split_ifs at hremoved ⊢
    rfl

end GlobalData

end JmyGame
