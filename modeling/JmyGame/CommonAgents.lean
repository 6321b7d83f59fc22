import JmyGame.LibUnorderedMap
import JmyGame.CommonMessages

/-! The agents that a server keeps for the connections of its peers: `AgentManager` finds them by a key and
by the id of their connection, `AgentManagerPerf` keeps them in an array. An agent is in the model with its
key, and a pointer to an agent is its key. -/

namespace JmyGame

inductive AgentStateType where
  | none
  | connected
  | verified
  | disconnect
  deriving DecidableEq, Repr

/-- An agent with its data and the id of its connection. -/
structure Agent (δ : Type) where
  data : δ
  connId : ℤ
  state : AgentStateType
  deriving DecidableEq, Repr

/-- A fresh agent behind `init` and `setState`. -/
def Agent.make {δ : Type} [Inhabited δ] (connId : ℤ) : Agent δ := ⟨default, connId, .verified⟩

/-- `Agent::sendMsg`: whether it succeeds, and the connection it was sent on. `send` says which connections are
there and take the message. -/
def Agent.sendMsg {δ : Type} (agent : Agent δ) (send : ℤ → Bool) : Bool × Option ℤ :=
  if agent.state ≠ .verified then (true, none)
  else if send agent.connId then (true, some agent.connId) else (false, none)

/-- The agents by their keys, the keys by the connections and the connections by the keys. -/
structure AgentManager (κ δ : Type) where
  key2agents : UnorderedMap κ (Agent δ)
  id2keys : UnorderedMap ℤ κ
  key2ids : UnorderedMap κ ℤ

namespace AgentManager

variable {κ δ : Type} [DecidableEq κ]

def empty : AgentManager κ δ := ⟨∅, ∅, ∅⟩

variable (m : AgentManager κ δ)

def getAgentSize : ℕ := m.key2agents.size

/-- `clear` frees the agents and forgets two of the three maps. -/
def clear : AgentManager κ δ := { m with key2agents := ∅, id2keys := ∅ }

def getAgent (key : κ) : Option (Agent δ) := m.key2agents.find key

/-- `newAgent`. A connection that has a key already keeps it. -/
def newAgent [Inhabited δ] (key : κ) (id : ℤ) : Option (AgentManager κ δ) :=
  match m.getAgent key with
  | some _ => none
  | none => some
      { key2agents := m.key2agents.emplace key (.make id)
        id2keys := m.id2keys.emplace id key
        key2ids := m.key2ids.emplace key id }

def getKeyByConnId (id : ℤ) : Option κ := m.id2keys.find id

def getAgentByConnId (id : ℤ) : Option (Agent δ) := (m.getKeyByConnId id).bind m.getAgent

/-- `deleteAgent`. The connection that loses its key is the one that `key2ids` has. -/
def deleteAgent (key : κ) : Bool × AgentManager κ δ :=
  match m.getAgent key with
  | none => (false, m)
  | some _ => match m.key2ids.find key with
    | none => (true, { m with key2agents := m.key2agents.remove key })
    | some id => (true,
        { key2agents := m.key2agents.remove key
          id2keys := m.id2keys.remove id
          key2ids := m.key2ids.remove key })

def deleteAgentByConnId (id : ℤ) : Bool × AgentManager κ δ :=
  match m.getKeyByConnId id with
  | none => (false, m)
  | some key => m.deleteAgent key

/-- An agent is changed through a pointer to it. -/
def modifyAgent (key : κ) (f : Agent δ → Agent δ) : AgentManager κ δ :=
  { m with key2agents := m.key2agents.modify key f }

/-- The three maps agree: a key has the connection of its agent, and a connection has the key of the agent
that is on it, so that no two agents are on one connection. -/
structure Consistent : Prop where
  ids : ∀ key, m.key2ids.find key = (m.getAgent key).map Agent.connId
  keys : ∀ id key, m.getKeyByConnId id = some key ↔ ∃ agent, m.getAgent key = some agent ∧ agent.connId = id

variable {m} {key key' : κ} {id id' : ℤ}

theorem consistent_empty : (empty : AgentManager κ δ).Consistent where
  ids _ := by
    simp only [empty, getAgent, UnorderedMap.find_empty, Option.map_none]
  keys _ _ := by
    simp only [empty, getAgent, getKeyByConnId, UnorderedMap.find_empty, reduceCtorEq, false_and,
      exists_false]

/-- There is an agent on every connection that has a key. -/
theorem Consistent.getAgentByConnId_eq_none (hm : m.Consistent) :
    m.getAgentByConnId id = none ↔ m.getKeyByConnId id = none := by
  unfold getAgentByConnId
  cases hkey : m.getKeyByConnId id with
  | none => exact iff_of_true rfl rfl
  | some key =>
      obtain ⟨agent, hagent, -⟩ := (hm.keys id key).1 hkey
      rw [Option.bind_some, hagent]
      exact iff_of_false nofun nofun

section newAgent

variable [Inhabited δ] {m' : AgentManager κ δ}

theorem newAgent_of_none (h : m.getAgent key = none) (id : ℤ) : ∃ m', m.newAgent key id = some m' := by
  unfold newAgent
  rw [h]
  exact ⟨_, rfl⟩

/-- What `newAgent` does to the three maps. -/
theorem of_newAgent (h : m.newAgent key id = some m') : m.getAgent key = none ∧
    m' = ⟨m.key2agents.emplace key (.make id), m.id2keys.emplace id key, m.key2ids.emplace key id⟩ := by
  unfold newAgent at h
  cases hagent : m.getAgent key with
  | some agent =>
      rw [hagent] at h
      exact absurd h (by simp)
  | none =>
      rw [hagent, Option.some.injEq] at h
      exact ⟨rfl, h.symm⟩

theorem newAgent_getAgent (h : m.newAgent key id = some m') :
    m'.getAgent key' = if key' = key then some (.make id) else m.getAgent key' := by
  obtain ⟨hnone, rfl⟩ := of_newAgent h
  exact UnorderedMap.find_emplace hnone

/-- A connection without a key gets the key of the new agent. -/
theorem newAgent_getKeyByConnId (h : m.newAgent key id = some m') (hfree : m.getKeyByConnId id = none) :
    m'.getKeyByConnId id' = if id' = id then some key else m.getKeyByConnId id' := by
  obtain ⟨-, rfl⟩ := of_newAgent h
  exact UnorderedMap.find_emplace hfree

/-- A connection with a key keeps it. -/
theorem newAgent_getKeyByConnId_of_some (h : m.newAgent key id = some m')
    (hkey : m.getKeyByConnId id = some key') : m'.getKeyByConnId id = some key' := by
  obtain ⟨-, rfl⟩ := of_newAgent h
  unfold getKeyByConnId at hkey ⊢
  rw [UnorderedMap.emplace_of_some hkey, hkey]

/-- A new agent on a connection without a key keeps the maps in agreement. -/
theorem Consistent.newAgent (hm : m.Consistent) (h : m.newAgent key id = some m')
    (hfree : m.getKeyByConnId id = none) : m'.Consistent where
  ids key' := by
    obtain ⟨hnone, hm'⟩ := of_newAgent h
    have hids : m.key2ids.find key = none := by rw [hm.ids, hnone, Option.map_none]
    rw [newAgent_getAgent h, hm', UnorderedMap.find_emplace hids]
    split_ifs
    · rfl
    · exact hm.ids key'
  keys id' key' := by
    have hnone := (of_newAgent h).1
    rw [newAgent_getKeyByConnId h hfree, newAgent_getAgent h]
    by_cases hid : id' = id
    · rw [if_pos hid, hid]
      by_cases hkey : key' = key
      · rw [if_pos hkey, hkey]
        exact iff_of_true rfl ⟨_, rfl, rfl⟩
      · rw [if_neg hkey, ← hm.keys, hfree]
        exact iff_of_false (fun heq => hkey (Option.some.inj heq).symm) (Option.some_ne_none _).symm
    · rw [if_neg hid]
      by_cases hkey : key' = key
      · rw [if_pos hkey, hkey, hm.keys, hnone]
        refine iff_of_false ?_ ?_
        · rintro ⟨agent, hagent, -⟩
          cases hagent
        · rintro ⟨agent, hagent, hconn⟩
          obtain rfl := Option.some.inj hagent
          exact hid hconn.symm
      · rw [if_neg hkey]
        exact hm.keys id' key'

end newAgent

section deleteAgent

theorem deleteAgent_of_none (h : m.getAgent key = none) : m.deleteAgent key = (false, m) := by
  unfold deleteAgent
  rw [h]

/-- The other agents stay. -/
theorem deleteAgent_getAgent_of_ne (h : key' ≠ key) : (m.deleteAgent key).2.getAgent key' = m.getAgent key' := by
  unfold deleteAgent
  split
  · rfl
  · split
    · exact UnorderedMap.find_remove_of_ne h
    · exact UnorderedMap.find_remove_of_ne h

/-- An agent is deleted with its entries in the two maps between keys and connections. -/
theorem Consistent.deleteAgent_of_some (hm : m.Consistent) {agent : Agent δ} (h : m.getAgent key = some agent) :
    m.deleteAgent key = (true,
      ⟨m.key2agents.remove key, m.id2keys.remove agent.connId, m.key2ids.remove key⟩) := by
  have hids : m.key2ids.find key = some agent.connId := by rw [hm.ids, h, Option.map_some]
  unfold deleteAgent
  rw [h, hids]

theorem Consistent.deleteAgent_getAgent (hm : m.Consistent) :
    (m.deleteAgent key).2.getAgent key' = if key' = key then none else m.getAgent key' := by
  cases hagent : m.getAgent key with
  | none =>
      rw [deleteAgent_of_none hagent]
      split_ifs with heq
      · rw [heq, hagent]
      · rfl
  | some agent =>
      rw [hm.deleteAgent_of_some hagent]
      exact UnorderedMap.find_remove

/-- The connection of a deleted agent has no key any more. -/
theorem Consistent.deleteAgent_getKeyByConnId (hm : m.Consistent) {agent : Agent δ}
    (h : m.getAgent key = some agent) :
    (m.deleteAgent key).2.getKeyByConnId id = if id = agent.connId then none else m.getKeyByConnId id := by
  rw [hm.deleteAgent_of_some h]
  exact UnorderedMap.find_remove

theorem Consistent.deleteAgent (hm : m.Consistent) : (m.deleteAgent key).2.Consistent := by
  cases hagent : m.getAgent key with
  | none =>
      rw [deleteAgent_of_none hagent]
      exact hm
  | some agent =>
      constructor
      · intro key'
        rw [hm.deleteAgent_getAgent, hm.deleteAgent_of_some hagent, UnorderedMap.find_remove]
        split_ifs
        · rfl
        · exact hm.ids key'
      · intro id key'
        rw [hm.deleteAgent_getKeyByConnId hagent, hm.deleteAgent_getAgent]
        by_cases hid : id = agent.connId
        · rw [if_pos hid]
          refine iff_of_false (Option.some_ne_none _).symm ?_
          rintro ⟨agent', hagent', hconn⟩
          obtain ⟨hne, hagent'⟩ := Option.ite_none_left_eq_some.1 hagent'
          -- two agents on one connection have one key
          have hkey' := (hm.keys id key').2 ⟨agent', hagent', hconn⟩
          have hkey := (hm.keys id key).2 ⟨agent, hagent, hid.symm⟩
          exact hne (Option.some.inj (hkey'.symm.trans hkey))
        · rw [if_neg hid, hm.keys]
          split_ifs with heq
          · rw [heq, hagent]
            refine iff_of_false ?_ ?_
            · rintro ⟨agent', hagent', hconn⟩
              obtain rfl := Option.some.inj hagent'
              exact hid hconn.symm
            · rintro ⟨agent', hagent', -⟩
              cases hagent'
          · rfl

/-- To delete by a connection is to delete the agent on it. -/
theorem Consistent.deleteAgentByConnId (hm : m.Consistent) : (m.deleteAgentByConnId id).2.Consistent := by
  unfold AgentManager.deleteAgentByConnId
  cases m.getKeyByConnId id with
  | none => exact hm
  | some key => exact hm.deleteAgent

theorem Consistent.deleteAgentByConnId_getKeyByConnId (hm : m.Consistent) :
    (m.deleteAgentByConnId id).2.getKeyByConnId id' = if id' = id then none else m.getKeyByConnId id' := by
  unfold AgentManager.deleteAgentByConnId
  cases hkey : m.getKeyByConnId id with
  | none =>
      split_ifs with heq
      · rw [heq, hkey]
      · rfl
  | some key =>
      obtain ⟨agent, hagent, hconn⟩ := (hm.keys id key).1 hkey
      change (m.deleteAgent key).2.getKeyByConnId id' = _
      rw [hm.deleteAgent_getKeyByConnId hagent, hconn]

/-- The agents that are left are those on other connections. -/
theorem Consistent.deleteAgentByConnId_getAgent (hm : m.Consistent) {agent : Agent δ} :
    (m.deleteAgentByConnId id).2.getAgent key = some agent ↔
      m.getAgent key = some agent ∧ agent.connId ≠ id := by
  have hkeys : ∀ key, m.getKeyByConnId id = some key ↔ _ := hm.keys id
  unfold AgentManager.deleteAgentByConnId
  cases hkey : m.getKeyByConnId id with
  | none =>
      refine ⟨fun h => ⟨h, fun hconn => ?_⟩, And.left⟩
      cases hkey.symm.trans ((hkeys key).2 ⟨agent, h, hconn⟩)
  | some key₀ =>
      change (m.deleteAgent key₀).2.getAgent key = _ ↔ _
      rw [hm.deleteAgent_getAgent, Option.ite_none_left_eq_some]
      obtain ⟨agent₀, hagent₀, hconn₀⟩ := (hkeys key₀).1 hkey
      constructor
      · rintro ⟨hne, h⟩
        refine ⟨h, fun hconn => hne ?_⟩
        exact Option.some.inj (((hkeys key).2 ⟨agent, h, hconn⟩).symm.trans hkey)
      · rintro ⟨h, hconn⟩
        refine ⟨fun heq => hconn ?_, h⟩
        rw [heq, hagent₀, Option.some.injEq] at h
        rw [← h, hconn₀]

end deleteAgent

section modifyAgent

variable {f : Agent δ → Agent δ}

theorem modifyAgent_getAgent :
    (m.modifyAgent key f).getAgent key' = if key' = key then (m.getAgent key).map f else m.getAgent key' :=
  UnorderedMap.find_modify

/-- A change that keeps the connection of an agent is not seen by the other maps. -/
theorem modifyAgent_connId (hf : ∀ agent, (f agent).connId = agent.connId) :
    ((m.modifyAgent key f).getAgent key').map Agent.connId = (m.getAgent key').map Agent.connId := by
  rw [modifyAgent_getAgent]
  split_ifs with heq
  · rw [heq, Option.map_map]
    exact congrArg (fun g => (m.getAgent key).map g) (funext hf)
  · rfl

theorem Consistent.modifyAgent (hm : m.Consistent) (hf : ∀ agent, (f agent).connId = agent.connId) :
    (m.modifyAgent key f).Consistent where
  ids key' := by
    rw [modifyAgent_connId hf]
    exact hm.ids key'
  keys id' key' := by
    have hmap := Option.map_eq_some_iff (f := Agent.connId) (b := id') (x := m.getAgent key')
    have hmap' := Option.map_eq_some_iff (f := Agent.connId) (b := id')
      (x := (m.modifyAgent key f).getAgent key')
    rw [modifyAgent_connId hf] at hmap'
    exact (hm.keys id' key').trans (hmap.symm.trans hmap')

end modifyAgent

end AgentManager

/-- The agents by ids from `minId` to `maxId`. -/
structure AgentManagerPerf (δ : Type) where
  minId : ℤ
  maxId : ℤ
  agents : ℤ → Option (Agent δ)
  agentCount : ℕ
  conn2agentIds : UnorderedMap ℤ ℤ
  agent2connIds : UnorderedMap ℤ ℤ

namespace AgentManagerPerf

variable {δ : Type}

def init (minId maxId : ℤ) : AgentManagerPerf δ := ⟨minId, maxId, fun _ => none, 0, ∅, ∅⟩

variable (m : AgentManagerPerf δ)

def getAgentSize : ℕ := m.agentCount

/-- `clear` frees the agents and forgets the two maps. The counter stays. -/
def clear : AgentManagerPerf δ :=
  { m with agents := fun _ => none, conn2agentIds := ∅, agent2connIds := ∅ }

def getAgent (id : ℤ) : Option (Agent δ) :=
  if id < m.minId ∨ m.maxId - m.minId < id - m.minId then none else m.agents id

def newAgent [Inhabited δ] (id connId : ℤ) : Option (AgentManagerPerf δ) :=
  if id < m.minId ∨ m.maxId - m.minId < id - m.minId then none
  else match m.agents id with
  | some _ => none
  | none => some { m with
      agents := Function.update m.agents id (some (.make connId))
      agentCount := m.agentCount + 1
      conn2agentIds := m.conn2agentIds.emplace connId id
      agent2connIds := m.agent2connIds.emplace id connId }

def getIdByConnId (connId : ℤ) : Option ℤ := m.conn2agentIds.find connId

def getAgentByConnId (connId : ℤ) : Option (Agent δ) := (m.getIdByConnId connId).bind m.getAgent

def deleteAgent (id : ℤ) : Bool × AgentManagerPerf δ :=
  match m.getAgent id with
  | none => (false, m)
  | some _ =>
    if m.agentCount = 0 then (false, m)
    else
      let m₁ := { m with
        agents := Function.update m.agents id none
        agentCount := m.agentCount - 1 }
      match m.agent2connIds.find id with
      | none => (true, m₁)
      | some connId => (true, { m₁ with
          conn2agentIds := m.conn2agentIds.remove connId
          agent2connIds := m.agent2connIds.remove id })

def deleteAgentByConnId (connId : ℤ) : Bool × AgentManagerPerf δ :=
  match m.conn2agentIds.find connId with
  | none => (false, m)
  | some id => m.deleteAgent id

/-- An agent is changed through a pointer to it. -/
def modifyAgent (id : ℤ) (f : Agent δ → Agent δ) : AgentManagerPerf δ :=
  { m with agents := Function.update m.agents id ((m.agents id).map f) }

end AgentManagerPerf

end JmyGame
