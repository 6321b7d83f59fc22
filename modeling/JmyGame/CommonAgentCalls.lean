import Mathlib.Data.Finset.Image
import JmyGame.LibResponder
import JmyGame.CommonAgents

/-! Sequences of calls on the two managers of agents. An agent carries as its data the number of the agents
that were created before it, so that two managers can be asked for the same agent. The manager with the array
gives the results of the manager with the hash map, the three maps of the latter agree as long as no second
key is put on a connection, and `clear` gives a fresh manager only where what it leaves was empty. -/

namespace JmyGame

/-- The calls on a manager of agents with keys in `κ`. -/
inductive AgentCall (κ : Type) where
  | newAgent (key : κ) (connId : ℤ)
  | getAgent (key : κ)
  | getAgentByConnId (connId : ℤ)
  | getKeyByConnId (connId : ℤ)
  | deleteAgent (key : κ)
  | deleteAgentByConnId (connId : ℤ)
  | getAgentSize
  | clear
  deriving DecidableEq, Repr

/-- What a call gives back. -/
inductive AgentResult (κ : Type) where
  | agent (agent : Option (Agent ℕ))
  | key (key : Option κ)
  | done (ok : Bool)
  | size (n : ℕ)
  | cleared
  deriving DecidableEq, Repr

/-- The keys of a call are ids from `minId` to `maxId`. -/
def AgentCall.InRange (minId maxId : ℤ) : AgentCall ℤ → Prop
  | .newAgent id _ | .getAgent id | .deleteAgent id => minId ≤ id ∧ id ≤ maxId
  | _ => True

instance (minId maxId : ℤ) : (c : AgentCall ℤ) → Decidable (c.InRange minId maxId)
  | .newAgent id _ | .getAgent id | .deleteAgent id => inferInstanceAs (Decidable (minId ≤ id ∧ id ≤ maxId))
  | .getAgentByConnId _ | .getKeyByConnId _ | .deleteAgentByConnId _ | .getAgentSize | .clear =>
    inferInstanceAs (Decidable True)

/-- The operations of a manager of agents. -/
structure AgentOps (μ κ : Type) where
  newAgent : μ → κ → ℤ → Option μ
  modifyAgent : μ → κ → (Agent ℕ → Agent ℕ) → μ
  getAgent : μ → κ → Option (Agent ℕ)
  getAgentByConnId : μ → ℤ → Option (Agent ℕ)
  getKeyByConnId : μ → ℤ → Option κ
  deleteAgent : μ → κ → Bool × μ
  deleteAgentByConnId : μ → ℤ → Bool × μ
  getAgentSize : μ → ℕ
  clear : μ → μ

/-- A manager and the number of the agents that were created. -/
structure Numbered (μ : Type) where
  mgr : μ
  created : ℕ

/-- A manager whose next agent has the number 0. -/
def Numbered.start {μ : Type} (mgr : μ) : Numbered μ := ⟨mgr, 0⟩

namespace AgentOps

variable {μ κ : Type} (ops : AgentOps μ κ)

/-- One call. A new agent gets its number as its data. -/
def call (s : Numbered μ) : AgentCall κ → AgentResult κ × Numbered μ
  | .newAgent key connId => match ops.newAgent s.mgr key connId with
    | none => (.agent none, s)
    | some mgr =>
      let mgr' := ops.modifyAgent mgr key fun agent => { agent with data := s.created }
      (.agent (ops.getAgent mgr' key), ⟨mgr', s.created + 1⟩)
  | .getAgent key => (.agent (ops.getAgent s.mgr key), s)
  | .getAgentByConnId connId => (.agent (ops.getAgentByConnId s.mgr connId), s)
  | .getKeyByConnId connId => (.key (ops.getKeyByConnId s.mgr connId), s)
  | .deleteAgent key => (.done (ops.deleteAgent s.mgr key).1, { s with mgr := (ops.deleteAgent s.mgr key).2 })
  | .deleteAgentByConnId connId => (.done (ops.deleteAgentByConnId s.mgr connId).1,
      { s with mgr := (ops.deleteAgentByConnId s.mgr connId).2 })
  | .getAgentSize => (.size (ops.getAgentSize s.mgr), s)
  | .clear => (.cleared, { s with mgr := ops.clear s.mgr })

def responder : Responder (Numbered μ) (AgentCall κ) (AgentResult κ) := ⟨ops.call⟩

end AgentOps

/-- The calls on the manager with the hash map. -/
def AgentManager.calls (κ : Type) [DecidableEq κ] :
    Responder (Numbered (AgentManager κ ℕ)) (AgentCall κ) (AgentResult κ) :=
  AgentOps.responder
    { newAgent := fun m key connId => m.newAgent key connId
      modifyAgent := AgentManager.modifyAgent
      getAgent := AgentManager.getAgent
      getAgentByConnId := AgentManager.getAgentByConnId
      getKeyByConnId := AgentManager.getKeyByConnId
      deleteAgent := AgentManager.deleteAgent
      deleteAgentByConnId := AgentManager.deleteAgentByConnId
      getAgentSize := AgentManager.getAgentSize
      clear := AgentManager.clear }

/-- The calls on the manager with the array. -/
def AgentManagerPerf.calls :
    Responder (Numbered (AgentManagerPerf ℕ)) (AgentCall ℤ) (AgentResult ℤ) :=
  AgentOps.responder
    { newAgent := fun m id connId => m.newAgent id connId
      modifyAgent := AgentManagerPerf.modifyAgent
      getAgent := AgentManagerPerf.getAgent
      getAgentByConnId := AgentManagerPerf.getAgentByConnId
      getKeyByConnId := AgentManagerPerf.getIdByConnId
      deleteAgent := AgentManagerPerf.deleteAgent
      deleteAgentByConnId := AgentManagerPerf.deleteAgentByConnId
      getAgentSize := AgentManagerPerf.getAgentSize
      clear := AgentManagerPerf.clear }

namespace AgentManagerPerf

variable {δ : Type} {p p' : AgentManagerPerf δ} {m m' : AgentManager ℤ δ} {minId maxId id id' connId : ℤ}

/-- The manager with the array finds the agents of the manager with the hash map, by their ids and by their
connections, and counts them. -/
structure Refines (minId maxId : ℤ) (p : AgentManagerPerf δ) (m : AgentManager ℤ δ) : Prop where
  minId : p.minId = minId
  maxId : p.maxId = maxId
  agents : ∀ id, p.getAgent id = m.getAgent id
  keys : p.conn2agentIds = m.id2keys
  ids : p.agent2connIds = m.key2ids
  count : p.agentCount = m.getAgentSize

theorem getAgent_of_inRange (h : p.minId ≤ id ∧ id ≤ p.maxId) : p.getAgent id = p.agents id := by
  unfold getAgent
  exact if_neg (by omega)

theorem inRange_of_getAgent {agent : Agent δ} (h : p.getAgent id = some agent) :
    p.minId ≤ id ∧ id ≤ p.maxId := by
  unfold getAgent at h
  split_ifs at h
  omega

theorem inRange_of_newAgent [Inhabited δ] (h : p.newAgent id connId = some p') :
    p.minId ≤ id ∧ id ≤ p.maxId := by
  unfold newAgent at h
  split_ifs at h
  omega

/-- A write to a slot of the array. -/
theorem getAgent_update {slot : Option (Agent δ)} {count : ℕ} {keys ids : UnorderedMap ℤ ℤ}
    (hid : p.minId ≤ id ∧ id ≤ p.maxId) :
    getAgent ⟨p.minId, p.maxId, Function.update p.agents id slot, count, keys, ids⟩ id' =
      if id' = id then slot else p.getAgent id' := by
  unfold getAgent
  dsimp only
  rw [Function.update_apply]
  split_ifs with hout heq
  · omega
  · rfl
  · rfl
  · rfl

theorem refines_init : Refines minId maxId (init minId maxId) (AgentManager.empty : AgentManager ℤ δ) where
  minId := rfl
  maxId := rfl
  agents id := by
    unfold getAgent
    exact ite_self none
  keys := rfl
  ids := rfl
  count := rfl

/-- A new agent is refused by both or made by both. -/
theorem Refines.newAgent [Inhabited δ] (h : Refines minId maxId p m) (hid : minId ≤ id ∧ id ≤ maxId) (connId : ℤ) :
    (p.newAgent id connId = none ∧ m.newAgent id connId = none) ∨
      ∃ p' m', p.newAgent id connId = some p' ∧ m.newAgent id connId = some m' ∧ Refines minId maxId p' m' := by
  rw [← h.minId, ← h.maxId] at hid
  have hslot : p.agents id = m.getAgent id := by rw [← getAgent_of_inRange hid, h.agents]
  have hin : ¬(id < p.minId ∨ p.maxId - p.minId < id - p.minId) := by omega
  unfold AgentManagerPerf.newAgent AgentManager.newAgent
  rw [if_neg hin, hslot]
  cases hagent : m.getAgent id with
  | some agent => exact Or.inl ⟨rfl, rfl⟩
  | none =>
      refine Or.inr ⟨_, _, rfl, rfl, h.minId, h.maxId, fun id' => ?_, ?_, ?_, ?_⟩
      · refine (getAgent_update hid).trans ?_
        rw [h.agents]
        exact (UnorderedMap.find_emplace hagent).symm
      · rw [h.keys]
      · rw [h.ids]
      · rw [h.count]
        exact (UnorderedMap.size_emplace hagent).symm

/-- An agent that is there is counted. -/
theorem Refines.agentCount_ne_zero (h : Refines minId maxId p m) {agent : Agent δ}
    (hagent : p.getAgent id = some agent) : p.agentCount ≠ 0 := by
  rw [h.agents] at hagent
  have hsize := UnorderedMap.size_remove hagent
  rw [h.count]
  unfold AgentManager.getAgentSize
  omega

theorem Refines.deleteAgent (h : Refines minId maxId p m) :
    (p.deleteAgent id).1 = (m.deleteAgent id).1 ∧
      Refines minId maxId (p.deleteAgent id).2 (m.deleteAgent id).2 := by
  cases hagent : m.getAgent id with
  | none =>
      have hnone : p.deleteAgent id = (false, p) := by
        unfold AgentManagerPerf.deleteAgent
        rw [h.agents, hagent]
      rw [AgentManager.deleteAgent_of_none hagent, hnone]
      exact ⟨rfl, h⟩
  | some agent =>
      have hp : p.getAgent id = some agent := (h.agents id).trans hagent
      have hsize : (m.key2agents.remove id).size + 1 = m.key2agents.size := UnorderedMap.size_remove hagent
      have hcount : p.agentCount - 1 = (m.key2agents.remove id).size := by
        rw [h.count]
        unfold AgentManager.getAgentSize
        omega
      have hagents : ∀ id', (if id' = id then none else p.getAgent id') = (m.key2agents.remove id).find id' := by
        intro id'
        rw [UnorderedMap.find_remove, h.agents]
        rfl
      have hid := inRange_of_getAgent hp
      unfold AgentManagerPerf.deleteAgent AgentManager.deleteAgent
      rw [hp, hagent]
      dsimp only
      rw [if_neg (h.agentCount_ne_zero hp), h.ids]
      -- what the maps between ids and connections lose is read from one map by both
      cases m.key2ids.find id with
      | none =>
          refine ⟨rfl, h.minId, h.maxId, fun id' => ?_, h.keys, rfl, hcount⟩
          exact (getAgent_update hid).trans (hagents id')
      | some connId =>
          refine ⟨rfl, h.minId, h.maxId, fun id' => ?_, ?_, rfl, hcount⟩
          · exact (getAgent_update hid).trans (hagents id')
          · exact congrArg (fun ids => UnorderedMap.remove ids connId) h.keys

theorem Refines.deleteAgentByConnId (h : Refines minId maxId p m) :
    (p.deleteAgentByConnId connId).1 = (m.deleteAgentByConnId connId).1 ∧
      Refines minId maxId (p.deleteAgentByConnId connId).2 (m.deleteAgentByConnId connId).2 := by
  unfold AgentManagerPerf.deleteAgentByConnId AgentManager.deleteAgentByConnId AgentManager.getKeyByConnId
  rw [h.keys]
  cases m.id2keys.find connId with
  | none => exact ⟨rfl, h⟩
  | some id => exact h.deleteAgent

theorem Refines.modifyAgent (h : Refines minId maxId p m) (hid : minId ≤ id ∧ id ≤ maxId)
    (f : Agent δ → Agent δ) : Refines minId maxId (p.modifyAgent id f) (m.modifyAgent id f) where
  minId := h.minId
  maxId := h.maxId
  agents id' := by
    rw [← h.minId, ← h.maxId] at hid
    refine (getAgent_update hid).trans ?_
    rw [AgentManager.modifyAgent_getAgent, ← getAgent_of_inRange hid, h.agents, h.agents]
  keys := h.keys
  ids := h.ids
  count := h.count.trans UnorderedMap.size_modify.symm

theorem Refines.getIdByConnId (h : Refines minId maxId p m) : p.getIdByConnId connId = m.getKeyByConnId connId :=
  congrArg (fun keys => UnorderedMap.find keys connId) h.keys

theorem Refines.getAgentByConnId (h : Refines minId maxId p m) :
    p.getAgentByConnId connId = m.getAgentByConnId connId := by
  unfold AgentManagerPerf.getAgentByConnId AgentManager.getAgentByConnId
  rw [h.getIdByConnId]
  exact congrArg _ (funext h.agents)

/-- The two managers of agents with numbers, and the same number for the next agent. -/
def RefinesNumbered (minId maxId : ℤ) (s : Numbered (AgentManagerPerf ℕ)) (t : Numbered (AgentManager ℤ ℕ)) :
    Prop :=
  Refines minId maxId s.mgr t.mgr ∧ s.created = t.created

/-- One call has the same result on both managers, and they stay related. -/
theorem RefinesNumbered.call {s : Numbered (AgentManagerPerf ℕ)} {t : Numbered (AgentManager ℤ ℕ)}
    (h : RefinesNumbered minId maxId s t) {c : AgentCall ℤ} (hid : c.InRange minId maxId) (hclear : c ≠ .clear) :
    (calls.call s c).1 = ((AgentManager.calls ℤ).call t c).1 ∧
      RefinesNumbered minId maxId (calls.call s c).2 ((AgentManager.calls ℤ).call t c).2 := by
  obtain ⟨hmgr, hcreated⟩ := h
  cases c with
  | newAgent id connId =>
      obtain ⟨hp, hm⟩ | ⟨p', m', hp, hm, hnew⟩ := hmgr.newAgent hid connId
      · simp only [calls, AgentManager.calls, AgentOps.responder, AgentOps.call, hp, hm]
        exact ⟨trivial, hmgr, hcreated⟩
      · simp only [calls, AgentManager.calls, AgentOps.responder, AgentOps.call, hp, hm, hcreated]
        have hset := hnew.modifyAgent hid fun agent => { agent with data := t.created }
        exact ⟨congrArg AgentResult.agent (hset.agents id), hset, rfl⟩
  | getAgent id => exact ⟨congrArg AgentResult.agent (hmgr.agents id), hmgr, hcreated⟩
  | getAgentByConnId connId => exact ⟨congrArg AgentResult.agent hmgr.getAgentByConnId, hmgr, hcreated⟩
  | getKeyByConnId connId => exact ⟨congrArg AgentResult.key hmgr.getIdByConnId, hmgr, hcreated⟩
  | deleteAgent id => exact ⟨congrArg AgentResult.done hmgr.deleteAgent.1, hmgr.deleteAgent.2, hcreated⟩
  | deleteAgentByConnId connId =>
      exact ⟨congrArg AgentResult.done hmgr.deleteAgentByConnId.1, hmgr.deleteAgentByConnId.2, hcreated⟩
  | getAgentSize => exact ⟨congrArg AgentResult.size hmgr.count, hmgr, hcreated⟩
  | clear => exact absurd rfl hclear

/-- The ids of the slots. -/
def slots (p : AgentManagerPerf δ) : Finset ℤ :=
  (Finset.range (p.maxId - p.minId + 1).toNat).image fun k : ℕ => p.minId + k

/-- The ids whose slots hold an agent. -/
def occupied (p : AgentManagerPerf δ) : Finset ℤ := p.slots.filter fun id => (p.agents id).isSome

theorem mem_slots : id ∈ p.slots ↔ p.minId ≤ id ∧ id ≤ p.maxId := by
  rw [slots, Finset.mem_image]
  constructor
  · rintro ⟨k, hk, rfl⟩
    rw [Finset.mem_range] at hk
    omega
  · rintro ⟨hmin, hmax⟩
    refine ⟨(id - p.minId).toNat, Finset.mem_range.2 ?_, ?_⟩
    · omega
    · omega

/-- The counter counts the slots that hold an agent. -/
theorem Refines.agentCount_eq (h : Refines minId maxId p m) : p.agentCount = p.occupied.card := by
  rw [h.count]
  refine congrArg Finset.card (Finset.ext fun id => ?_)
  unfold occupied
  rw [UnorderedMap.mem_keys, Finset.mem_filter, mem_slots, ← Option.isSome_iff_ne_none]
  change (m.getAgent id).isSome ↔ _
  rw [← h.agents]
  constructor
  · intro hsome
    obtain ⟨agent, hagent⟩ := Option.isSome_iff_exists.1 hsome
    have hid := inRange_of_getAgent hagent
    rw [getAgent_of_inRange hid] at hsome
    exact ⟨hid, hsome⟩
  · rintro ⟨hid, hsome⟩
    rw [getAgent_of_inRange hid]
    exact hsome

/-- Every list of calls other than `clear` whose ids are ids of slots has the same results on the manager with
the array as on the manager with the hash map, both freshly made. After it the counter is the number of the
slots that hold an agent, so that `deleteAgent` finds no agent while the counter is 0. -/
theorem calls_refine (minId maxId : ℤ) (cs : List (AgentCall ℤ)) (hids : ∀ c ∈ cs, c.InRange minId maxId)
    (hclear : ∀ c ∈ cs, c ≠ .clear) :
    calls.results (.start (init minId maxId)) cs = (AgentManager.calls ℤ).results (.start .empty) cs ∧
      (calls.after (.start (init minId maxId)) cs).mgr.agentCount =
        (calls.after (.start (init minId maxId)) cs).mgr.occupied.card ∧
      ∀ id, (calls.after (.start (init minId maxId)) cs).mgr.getAgent id ≠ none →
        (calls.after (.start (init minId maxId)) cs).mgr.agentCount ≠ 0 := by
  have hstart : RefinesNumbered minId maxId (.start (init minId maxId)) (.start .empty) := ⟨refines_init, rfl⟩
  have hcs : ∀ c ∈ cs, c.InRange minId maxId ∧ c ≠ .clear := fun c hc => ⟨hids c hc, hclear c hc⟩
  have hcall : ∀ s t c, RefinesNumbered minId maxId s t → c.InRange minId maxId ∧ c ≠ .clear →
      RefinesNumbered minId maxId (calls.call s c).2 ((AgentManager.calls ℤ).call t c).2 :=
    fun s t c h hc => (h.call hc.1 hc.2).2
  have hafter := (Responder.after_related hcall hstart hcs).1
  refine ⟨Responder.results_eq hcall (fun s t c h hc => (h.call hc.1 hc.2).1) hstart hcs,
    hafter.agentCount_eq, fun id hid => ?_⟩
  obtain ⟨agent, hagent⟩ := Option.ne_none_iff_exists'.1 hid
  exact hafter.agentCount_ne_zero hagent

/-- Two agents on one connection, of which the second is deleted. -/
def twoOnOne : List (AgentCall ℤ) :=
  [.newAgent 1 7, .newAgent 2 7, .deleteAgent 2, .getAgentByConnId 7, .getAgent 1, .getAgentSize]

theorem twoOnOne_refines :
    calls.results (.start (init 1 3)) twoOnOne =
        [.agent (some ⟨0, 7, .verified⟩), .agent (some ⟨1, 7, .verified⟩), .done true, .agent none,
          .agent (some ⟨0, 7, .verified⟩), .size 1] ∧
      calls.results (.start (init 1 3)) twoOnOne = (AgentManager.calls ℤ).results (.start .empty) twoOnOne :=
  ⟨by decide, (calls_refine 1 3 twoOnOne (by decide) (by decide)).1⟩

end AgentManagerPerf

namespace AgentManager

variable {κ δ : Type} [DecidableEq κ] {m : AgentManager κ δ}

/-- The agents and the connections of the keys have the same keys, a key has the connection of its agent, the
keys of the connections are the inverse of the connections of the keys, and who asks for a connection that an
agent has gets an agent with that connection. -/
structure MapsAgree (m : AgentManager κ δ) : Prop where
  sameKeys : m.key2agents.keys = m.key2ids.keys
  connIds : ∀ key agent, m.getAgent key = some agent → m.key2ids.find key = some agent.connId
  inverse : ∀ id key, m.id2keys.find id = some key ↔ m.key2ids.find key = some id
  found : ∀ key agent, m.getAgent key = some agent →
    ∃ agent', m.getAgentByConnId agent.connId = some agent' ∧ agent'.connId = agent.connId

theorem Consistent.mapsAgree (h : m.Consistent) : m.MapsAgree where
  sameKeys := by
    refine Finset.ext fun key => ?_
    rw [UnorderedMap.mem_keys, UnorderedMap.mem_keys, h.ids, Ne, Ne, Option.map_eq_none_iff]
    rfl
  connIds key agent hagent := by
    rw [h.ids, hagent, Option.map_some]
  inverse id key := by
    rw [h.ids, Option.map_eq_some_iff]
    exact h.keys id key
  found key agent hagent := by
    have hkey := (h.keys agent.connId key).2 ⟨agent, hagent, rfl⟩
    refine ⟨agent, ?_, rfl⟩
    unfold getAgentByConnId
    rw [hkey]
    exact hagent

/-- A new key is put on a connection that has no key, and only a manager without agents is cleared. -/
def OneKeyPerConnection (s : Numbered (AgentManager κ ℕ)) : AgentCall κ → Prop
  | .newAgent key connId => (s.mgr.getAgent key).isSome ∨ s.mgr.getKeyByConnId connId = none
  | .clear => s.mgr.key2ids = ∅
  | _ => True

theorem Consistent.call {s : Numbered (AgentManager κ ℕ)} (h : s.mgr.Consistent) {c : AgentCall κ}
    (hc : OneKeyPerConnection s c) : ((calls κ).call s c).2.mgr.Consistent := by
  cases c with
  | newAgent key connId =>
      cases hnew : s.mgr.newAgent key connId with
      | none =>
          simp only [calls, AgentOps.responder, AgentOps.call, hnew]
          exact h
      | some m' =>
          simp only [calls, AgentOps.responder, AgentOps.call, hnew]
          have hfree : s.mgr.getKeyByConnId connId = none := by
            refine hc.resolve_left fun hsome => ?_
            rw [(of_newAgent hnew).1] at hsome
            cases hsome
          exact (h.newAgent hnew hfree).modifyAgent fun agent => rfl
  | getAgent key => exact h
  | getAgentByConnId connId => exact h
  | getKeyByConnId connId => exact h
  | deleteAgent key => exact h.deleteAgent
  | deleteAgentByConnId connId => exact h.deleteAgentByConnId
  | getAgentSize => exact h
  | clear =>
      change s.mgr.clear.Consistent
      unfold clear
      rw [show s.mgr.key2ids = ∅ from hc]
      exact consistent_empty

/-- A second key on a connection is not found by it. -/
theorem Consistent.not_mapsAgree_of_newAgent [Inhabited δ] {m' : AgentManager κ δ} {key key' : κ} {id : ℤ}
    (h : m.Consistent) (hnew : m.newAgent key id = some m') (hkey : m.getKeyByConnId id = some key')
    (f : Agent δ → Agent δ) : ¬(m'.modifyAgent key f).MapsAgree := by
  intro hagree
  obtain ⟨hnone, rfl⟩ := of_newAgent hnew
  obtain ⟨agent, hagent, -⟩ := (h.keys id key').1 hkey
  have hids : m.key2ids.find key = none := by rw [h.ids, hnone, Option.map_none]
  have hfirst : (m.id2keys.emplace id key).find id = some key' := by
    rw [UnorderedMap.emplace_of_some hkey]
    exact hkey
  have hsecond : (m.id2keys.emplace id key).find id = some key :=
    (hagree.inverse id key).2 (UnorderedMap.find_emplace_self hids)
  obtain rfl := Option.some.inj (hfirst.symm.trans hsecond)
  cases hnone.symm.trans hagent

theorem Consistent.oneKeyPerConnection {s : Numbered (AgentManager κ ℕ)} (h : s.mgr.Consistent)
    {c : AgentCall κ} (hc : ((calls κ).call s c).2.mgr.MapsAgree) : OneKeyPerConnection s c := by
  cases c with
  | newAgent key connId =>
      cases hagent : s.mgr.getAgent key with
      | some agent => exact Or.inl (Option.isSome_of_eq_some hagent)
      | none =>
          refine Or.inr (Option.eq_none_iff_forall_ne_some.2 fun key' hkey => ?_)
          obtain ⟨m', hnew⟩ := newAgent_of_none hagent connId
          simp only [calls, AgentOps.responder, AgentOps.call, hnew] at hc
          exact h.not_mapsAgree_of_newAgent hnew hkey _ hc
  | clear =>
      have hkeys : s.mgr.key2ids.keys = ∅ := hc.sameKeys.symm
      exact UnorderedMap.eq_empty_of_size (Finset.card_eq_zero.2 hkeys)
  | getAgent key => trivial
  | getAgentByConnId connId => trivial
  | getKeyByConnId connId => trivial
  | deleteAgent key => trivial
  | deleteAgentByConnId connId => trivial
  | getAgentSize => trivial

/-- The three maps of a manager agree in every state that a run of calls reaches exactly when every new key of
the run is put on a connection without a key. -/
theorem mapsAgree_iff (cs : List (AgentCall κ)) :
    (calls κ).machine.Along OneKeyPerConnection (.start .empty) cs ↔
      ∀ cs₁ cs₂ s, cs = cs₁ ++ cs₂ → (calls κ).machine.run (.start .empty) cs₁ = some s → s.mgr.MapsAgree := by
  refine Machine.along_iff_reached (I := fun s => s.mgr.Consistent) ?_ ?_ ?_ consistent_empty cs
  · intro s c s' h hc hs'
    obtain rfl := Option.some.inj hs'
    exact h.call hc
  · exact fun s h => h.mapsAgree
  · exact fun s c h hreach => h.oneKeyPerConnection (hreach _ rfl)

/-- A second account logs in on the connection of a first one, and is deleted. -/
def secondLogin : List (AgentCall String) := [.newAgent "a" 7, .newAgent "b" 7, .deleteAgent "b"]

theorem secondLogin_lost :
    ∃ s, (calls String).machine.run (.start .empty) secondLogin = some s ∧
      (s.mgr.getAgent "a").map Agent.connId = some 7 ∧ s.mgr.getAgentByConnId 7 = none ∧ ¬s.mgr.MapsAgree := by
  have hagent : ((calls String).after (.start .empty) secondLogin).mgr.getAgent "a" = some ⟨0, 7, .verified⟩ := by
    decide
  have hnone : ((calls String).after (.start .empty) secondLogin).mgr.getAgentByConnId 7 = none := by decide
  refine ⟨_, Responder.machine_run _ _ _, ?_, hnone, fun h => ?_⟩
  · rw [hagent, Option.map_some]
  · obtain ⟨agent, hfound, -⟩ := h.found "a" _ hagent
    cases hnone.symm.trans hfound

end AgentManager

/-- The calls that are made on a manager once it is cleared. -/
def AgentCall.Listed {κ : Type} : AgentCall κ → Prop
  | .getKeyByConnId _ | .clear => False
  | _ => True

namespace AgentManager

variable {κ : Type} [DecidableEq κ] {key : κ}

/-- A key is put on one connection, deleted, and put on another one. -/
def move (key : κ) (connId connId' : ℤ) : List (AgentCall κ) :=
  [.newAgent key connId, .deleteAgent key, .newAgent key connId']

theorem call_newAgent {s : Numbered (AgentManager κ ℕ)} (h : s.mgr.getAgent key = none) (connId : ℤ) :
    ((calls κ).call s (.newAgent key connId)).2.mgr =
      ⟨(s.mgr.key2agents.emplace key (.make connId)).modify key fun agent => { agent with data := s.created },
        s.mgr.id2keys.emplace connId key, s.mgr.key2ids.emplace key connId⟩ := by
  have hnew : s.mgr.newAgent key connId = some ⟨s.mgr.key2agents.emplace key (.make connId),
      s.mgr.id2keys.emplace connId key, s.mgr.key2ids.emplace key connId⟩ := by
    unfold newAgent
    rw [h]
  simp only [calls, AgentOps.responder, AgentOps.call, hnew]
  rfl

theorem call_newAgent_getAgent {s : Numbered (AgentManager κ ℕ)} (h : s.mgr.getAgent key = none) (connId : ℤ) :
    (((calls κ).call s (.newAgent key connId)).2.mgr.getAgent key).isSome := by
  rw [call_newAgent h]
  unfold getAgent
  rw [UnorderedMap.find_modify, if_pos rfl, UnorderedMap.find_emplace_self h]
  rfl

/-- Of a manager that knows connections of keys only, a key leaves behind its first connection exactly when the
connection that the manager has for the key is another one. -/
theorem move_getAgentByConnId {ids : UnorderedMap κ ℤ} {connId connId' known : ℤ}
    (hknown : (ids.emplace key connId).find key = some known) (hne : connId ≠ connId') :
    (((calls κ).after (.start ⟨∅, ∅, ids⟩) (move key connId connId')).mgr.getAgentByConnId connId).isSome ↔
      known ≠ connId := by
  change (((calls κ).call ((calls κ).call ((calls κ).call (.start ⟨∅, ∅, ids⟩) (.newAgent key connId)).2
    (.deleteAgent key)).2 (.newAgent key connId')).2.mgr.getAgentByConnId connId).isSome ↔ _
  have hnone₀ : (Numbered.start (⟨∅, ∅, ids⟩ : AgentManager κ ℕ)).mgr.getAgent key = none :=
    UnorderedMap.find_empty
  have hmgr₁ := call_newAgent hnone₀ connId
  have hagent₁ := call_newAgent_getAgent hnone₀ connId
  generalize ((calls κ).call (.start ⟨∅, ∅, ids⟩) (.newAgent key connId)).2 = s₁ at hmgr₁ hagent₁ ⊢
  obtain ⟨agent, hagent⟩ := Option.isSome_iff_exists.1 hagent₁
  have hids : s₁.mgr.key2ids.find key = some known := by
    rw [hmgr₁]
    exact hknown
  -- the deletion forgets the connection that the manager knows of the key
  have hmgr₂ : ((calls κ).call s₁ (.deleteAgent key)).2.mgr = ⟨s₁.mgr.key2agents.remove key,
      s₁.mgr.id2keys.remove known, s₁.mgr.key2ids.remove key⟩ := by
    change (s₁.mgr.deleteAgent key).2 = _
    unfold deleteAgent
    rw [hagent, hids]
  generalize ((calls κ).call s₁ (.deleteAgent key)).2 = s₂ at hmgr₂ ⊢
  have hnone₂ : s₂.mgr.getAgent key = none := by
    rw [hmgr₂]
    exact UnorderedMap.find_remove_self
  have hkeys : ((calls κ).call s₂ (.newAgent key connId')).2.mgr.getKeyByConnId connId =
      if connId = known then none else some key := by
    have hfirst : s₁.mgr.id2keys.find connId = some key := by
      rw [hmgr₁]
      exact UnorderedMap.find_emplace_self UnorderedMap.find_empty
    rw [call_newAgent hnone₂]
    refine (UnorderedMap.find_emplace_of_ne hne).trans ?_
    rw [hmgr₂, UnorderedMap.find_remove, hfirst]
  unfold getAgentByConnId
  rw [hkeys]
  split_ifs with heq
  · exact iff_of_false Bool.false_ne_true fun hother => hother heq.symm
  · exact iff_of_true (call_newAgent_getAgent hnone₂ connId') fun hsame => heq hsame.symm

/-- A manager that knows a connection of some key answers otherwise than a fresh one. -/
theorem results_ne_of_known {ids : UnorderedMap κ ℤ} {known : ℤ} (h : ids.find key = some known) :
    (calls κ).results (.start ⟨∅, ∅, ids⟩)
        (move key (known + 1) known ++ [.getAgentByConnId (known + 1)]) ≠
      (calls κ).results (.start .empty) (move key (known + 1) known ++ [.getAgentByConnId (known + 1)]) := by
  have hne : known + 1 ≠ known := by omega
  have hstale : (ids.emplace key (known + 1)).find key = some known := by
    rw [UnorderedMap.emplace_of_some h, h]
  have hfresh : (UnorderedMap.emplace (∅ : UnorderedMap κ ℤ) key (known + 1)).find key = some (known + 1) :=
    UnorderedMap.find_emplace_self UnorderedMap.find_empty
  rw [Responder.results_concat, Responder.results_concat]
  intro heq
  have hlast := List.singleton_inj.1 (List.append_inj_right' heq rfl)
  have hagent := AgentResult.agent.inj hlast
  have hsome := (move_getAgentByConnId hstale hne).2 hne.symm
  have hnot := (move_getAgentByConnId hfresh hne).not.2 (not_not.2 rfl)
  change getAgentByConnId _ _ = getAgentByConnId _ _ at hagent
  rw [hagent] at hsome
  exact hnot hsome

/-- A cleared manager answers as a fresh one exactly when the map that `clear` leaves was empty. -/
theorem clear_fresh_iff (m : AgentManager κ ℕ) :
    (∀ cs, (∀ c ∈ cs, c.Listed) →
        (calls κ).results (.start m.clear) cs = (calls κ).results (.start .empty) cs) ↔ m.key2ids = ∅ := by
  constructor
  · intro h
    by_contra hids
    obtain ⟨key, hkey⟩ : ∃ key, m.key2ids.find key ≠ none := by
      by_contra hall
      push Not at hall
      exact hids (Finmap.ext_lookup fun key => (hall key).trans UnorderedMap.find_empty.symm)
    obtain ⟨known, hknown⟩ := Option.ne_none_iff_exists'.1 hkey
    exact results_ne_of_known hknown (h _ (by simp [move, AgentCall.Listed]))
  · intro hids cs _
    unfold clear
    rw [hids]
    rfl

end AgentManager

namespace AgentManagerPerf

/-- The counter of a cleared manager is that of a fresh one exactly when it was 0. -/
theorem clear_fresh_iff (p : AgentManagerPerf ℕ) :
    (∀ cs, (∀ c ∈ cs, c.Listed) →
        calls.results (.start p.clear) cs = calls.results (.start (init p.minId p.maxId)) cs) ↔
      p.agentCount = 0 := by
  constructor
  · intro h
    have hsize := h [.getAgentSize] (by simp [AgentCall.Listed])
    exact AgentResult.size.inj (List.singleton_inj.1 hsize)
  · intro hcount cs _
    unfold clear init
    rw [hcount]

/-- The ids of the slots. -/
def range {δ : Type} (p : AgentManagerPerf δ) : ℤ × ℤ := (p.minId, p.maxId)

theorem newAgent_range {δ : Type} [Inhabited δ] {p p' : AgentManagerPerf δ} {id connId : ℤ}
    (h : p.newAgent id connId = some p') : p'.range = p.range := by
  unfold newAgent at h
  split_ifs at h
  split at h
  · cases h
  · obtain rfl := Option.some.inj h
    rfl

theorem deleteAgent_range {δ : Type} (p : AgentManagerPerf δ) (id : ℤ) :
    (p.deleteAgent id).2.range = p.range := by
  unfold deleteAgent
  split
  · rfl
  · split_ifs
    · rfl
    · dsimp only
      split
      · rfl
      · rfl

theorem call_range (s : Numbered (AgentManagerPerf ℕ)) (c : AgentCall ℤ) :
    (calls.call s c).2.mgr.range = s.mgr.range := by
  cases c with
  | newAgent id connId =>
      cases hnew : s.mgr.newAgent id connId with
      | none => simp only [calls, AgentOps.responder, AgentOps.call, hnew]
      | some p' =>
          simp only [calls, AgentOps.responder, AgentOps.call, hnew]
          change p'.range = _
          exact newAgent_range hnew
  | deleteAgent id => exact deleteAgent_range s.mgr id
  | deleteAgentByConnId connId =>
      change (s.mgr.deleteAgentByConnId connId).2.range = _
      unfold deleteAgentByConnId
      split
      · rfl
      · exact deleteAgent_range s.mgr _
  | getAgent id => rfl
  | getAgentByConnId connId => rfl
  | getKeyByConnId connId => rfl
  | getAgentSize => rfl
  | clear => rfl

theorem after_range (s : Numbered (AgentManagerPerf ℕ)) (cs : List (AgentCall ℤ)) :
    (calls.after s cs).mgr.range = s.mgr.range :=
  Responder.invariant_after (I := fun t => t.mgr.range = s.mgr.range)
    (fun t c h => (call_range t c).trans h) rfl cs

end AgentManagerPerf

/-- Whatever was called before, a cleared manager answers every further list of calls as a freshly made one
exactly when, before `clear`, the manager with the hash map had a connection of no key and the counter of the
manager with the array was 0. -/
theorem clear_fresh {κ : Type} [DecidableEq κ] (cs : List (AgentCall κ)) (minId maxId : ℤ)
    (ps : List (AgentCall ℤ)) :
    ((∀ fs, (∀ c ∈ fs, c.Listed) →
        (AgentManager.calls κ).results
            (.start ((AgentManager.calls κ).after (.start .empty) cs).mgr.clear) fs =
          (AgentManager.calls κ).results (.start .empty) fs) ↔
      ((AgentManager.calls κ).after (.start .empty) cs).mgr.key2ids = ∅) ∧
    ((∀ fs, (∀ c ∈ fs, c.Listed) →
        AgentManagerPerf.calls.results
            (.start (AgentManagerPerf.calls.after (.start (.init minId maxId)) ps).mgr.clear) fs =
          AgentManagerPerf.calls.results (.start (.init minId maxId)) fs) ↔
      (AgentManagerPerf.calls.after (.start (.init minId maxId)) ps).mgr.agentCount = 0) := by
  refine ⟨AgentManager.clear_fresh_iff _, ?_⟩
  have hrange := AgentManagerPerf.after_range (.start (.init minId maxId)) ps
  have hp := AgentManagerPerf.clear_fresh_iff (AgentManagerPerf.calls.after (.start (.init minId maxId)) ps).mgr
  rw [(Prod.mk.inj hrange).1, (Prod.mk.inj hrange).2] at hp
  exact hp

/-- An agent is left when the managers are cleared; a key is then put on another connection, deleted and put
back. -/
theorem clear_not_fresh :
    (AgentManager.calls String).results
        (.start ((AgentManager.calls String).after (.start .empty) [.newAgent "a" 7]).mgr.clear)
        [.newAgent "a" 8, .deleteAgent "a", .newAgent "a" 7, .getAgentByConnId 8] ≠
      (AgentManager.calls String).results (.start .empty)
        [.newAgent "a" 8, .deleteAgent "a", .newAgent "a" 7, .getAgentByConnId 8] ∧
    AgentManagerPerf.calls.results
        (.start (AgentManagerPerf.calls.after (.start (.init 1 3)) [.newAgent 1 7]).mgr.clear) [.getAgentSize] ≠
      AgentManagerPerf.calls.results (.start (.init 1 3)) [.getAgentSize] := by
  decide

end JmyGame
