import Mathlib.Data.Int.ConditionallyCompleteOrder
import JmyGame.ConfigServer
import JmyGame.GateLogins

/-! How the gates find the login servers. A gate that registers at the config server is told of the login servers that
are registered, and then of each one that registers; it starts a client for each one that it is told of. When a gate
has handled what it was sent, it has started a client for every login server that is registered. -/

namespace JmyGame

/-- A C string ends at the first 0. -/
def cStr (s : Str) : Str := s.takeWhile (· ≠ 0)

/-- The address that `startLoginClient` gets. -/
def address (ip : Str) (port : ℤ) : Str × BitVec 16 := (cStr ip, BitVec.ofInt 16 port)

def MsgLoginInfoData.address (info : MsgLoginInfoData) : Str × BitVec 16 :=
  JmyGame.address info.loginIp info.loginPort

def ConfigAgentData.address (data : ConfigAgentData) : Str × BitVec 16 := JmyGame.address data.ip data.port

/-- The wire has the port of a login server as an unsigned number. -/
theorem address_mod (ip : Str) (port : ℤ) : address ip (port % 2 ^ 16) = address ip port := by
  have hport : BitVec.ofInt 16 (port % 2 ^ 16) = BitVec.ofInt 16 port := by
    refine BitVec.eq_of_toInt_eq ?_
    rw [BitVec.toInt_ofInt, BitVec.toInt_ofInt, Int.bmod_def, Int.bmod_def]
    norm_num
  exact Prod.ext rfl hport

/-- The login servers of a gate and the addresses that it has started clients for. -/
structure GateStarts where
  logins : GlobalLogins
  started : List (Str × BitVec 16)

namespace GateStarts

def start : GateStarts := ⟨.start, []⟩

variable (g : GateStarts)

/-- `startLoginClient` with the client that it starts, and `addLoginClient`, whose result is not looked at. -/
def startClient (info : MsgLoginInfoData) : Option ℕ → GateStarts
  | none => g
  | some client =>
    let logins := { g.logins with clientSet := insert client g.logins.clientSet }
    ⟨(logins.addLoginClient info.loginId client).2, g.started ++ [info.address]⟩

end GateStarts

namespace GateConfigHandler

/-- `processConnectConfigResponse`, with the clients that can be started one after the other. -/
def processConnectConfigResponse : GateStarts → List MsgLoginInfoData → List (Option ℕ) → GateStarts
  | g, [], _ => g
  | g, info :: infos, clients =>
    processConnectConfigResponse (g.startClient info clients.head?.join) infos clients.tail

def processNewLoginNotify (g : GateStarts) (info : MsgLoginInfoData) (client : Option ℕ) : ℤ × GateStarts :=
  match client with
  | none => (-1, g)
  | some _ => (0, g.startClient info client)

/-- `processRemoveLoginNotify`. -/
def processRemoveLoginNotify (g : GateStarts) : ℤ × GateStarts := (0, g)

/-- The handlers of `s_config_handlers`. -/
def handle (g : GateStarts) (msg : ConfigMsg) (clients : List (Option ℕ)) : ℤ × GateStarts :=
  match msg with
  | .gateResponse loginList => (0, processConnectConfigResponse g loginList clients)
  | .newLogin loginData => processNewLoginNotify g loginData clients.head?.join
  | .loginResponse _ => (0, g)

end GateConfigHandler

/-- The login servers that a message tells of. -/
def ConfigMsg.infos : ConfigMsg → List MsgLoginInfoData
  | .gateResponse loginList => loginList
  | .newLogin loginData => [loginData]
  | .loginResponse _ => []

/-- Clients for all the login servers of a message can be started. -/
def AllStart (msg : ConfigMsg) (clients : List (Option ℕ)) : Prop :=
  ∀ i < msg.infos.length, clients[i]?.join.isSome = true

instance (msg : ConfigMsg) (clients : List (Option ℕ)) : Decidable (AllStart msg clients) :=
  inferInstanceAs (Decidable (∀ i < msg.infos.length, _))

theorem startClient_started (g : GateStarts) (info : MsgLoginInfoData) (client : Option ℕ) :
    ∃ new, (g.startClient info client).started = g.started ++ new ∧ (client ≠ none → new = [info.address]) := by
  cases client with
  | none => exact ⟨[], (List.append_nil _).symm, fun h => absurd rfl h⟩
  | some client => exact ⟨[info.address], rfl, fun _ => rfl⟩

theorem response_started (g : GateStarts) (infos : List MsgLoginInfoData) (clients : List (Option ℕ)) :
    (∀ a ∈ g.started, a ∈ (GateConfigHandler.processConnectConfigResponse g infos clients).started) ∧
      ((∀ i < infos.length, clients[i]?.join.isSome = true) → ∀ info ∈ infos,
        info.address ∈ (GateConfigHandler.processConnectConfigResponse g infos clients).started) := by
  induction infos generalizing g clients with
  | nil => exact ⟨fun _ => id, fun _ info hmem => absurd hmem List.not_mem_nil⟩
  | cons info infos ih =>
      obtain ⟨hkept, htold⟩ := ih (g.startClient info clients.head?.join) clients.tail
      obtain ⟨new, hnew, hstart⟩ := startClient_started g info clients.head?.join
      rw [hnew] at hkept
      refine ⟨fun a ha => hkept a (List.mem_append_left _ ha), fun hall info' hmem => ?_⟩
      rcases List.mem_cons.1 hmem with rfl | hmem
      · have hhead : clients.head?.join ≠ none := by
          rw [List.head?_eq_getElem?]
          exact Option.isSome_iff_ne_none.1 (hall 0 (Nat.zero_lt_succ _))
        refine hkept _ (List.mem_append_right _ ?_)
        rw [hstart hhead]
        exact List.mem_singleton_self _
      · refine htold (fun i hi => ?_) info' hmem
        rw [List.getElem?_tail]
        exact hall (i + 1) (Nat.succ_lt_succ hi)

/-- A gate starts a client for each login server that a message tells of, and keeps those that it has started. -/
theorem handle_started (g : GateStarts) (msg : ConfigMsg) (clients : List (Option ℕ)) :
    (∀ a ∈ g.started, a ∈ (GateConfigHandler.handle g msg clients).2.started) ∧
      (AllStart msg clients → ∀ info ∈ msg.infos,
        info.address ∈ (GateConfigHandler.handle g msg clients).2.started) := by
  cases msg with
  | gateResponse loginList => exact response_started g loginList clients
  | loginResponse gateList => exact ⟨fun _ => id, fun _ info hmem => absurd hmem List.not_mem_nil⟩
  | newLogin loginData =>
      obtain ⟨new, hnew, hstart⟩ := startClient_started g loginData clients.head?.join
      unfold GateConfigHandler.handle GateConfigHandler.processNewLoginNotify
      dsimp only
      constructor
      · intro a ha
        split
        · exact ha
        · change a ∈ (g.startClient loginData clients.head?.join).started
          rw [hnew]
          exact List.mem_append_left _ ha
      · intro hall info hmem
        obtain ⟨client, hclient⟩ := Option.isSome_iff_exists.1 (hall 0 Nat.one_pos)
        have hhead : clients.head?.join = some client := by
          rw [List.head?_eq_getElem?, hclient]
        rw [hhead] at hnew hstart ⊢
        rw [List.mem_singleton.1 hmem, hnew, hstart (Option.some_ne_none client)]
        exact List.mem_append_right _ (List.mem_singleton_self _)

/-- A new agent that is filled in. -/
theorem AgentManager.getAgent_filled {m mgr : AgentManager ℤ ConfigAgentData} {key connId : ℤ}
    (hnew : m.newAgent key connId = some mgr) (f : Agent ConfigAgentData → Agent ConfigAgentData) (id : ℤ) :
    (mgr.modifyAgent key f).getAgent id = if id = key then some (f (.make connId)) else m.getAgent id := by
  rw [AgentManager.modifyAgent_getAgent, AgentManager.newAgent_getAgent hnew, if_pos rfl]
  split_ifs with hid
  · rfl
  · rw [AgentManager.newAgent_getAgent hnew, if_neg hid]

/-- Every message can be serialized and is taken by its connection. -/
def Outlet.Open (outlet : Outlet) : Prop := (∀ msg, outlet.fits msg = true) ∧ ∀ connId, outlet.send connId = true

namespace ConfigServer

variable {s : ConfigServer} {connId : ℤ} {conf : ConfGateList} {outlet : Outlet}

/-- A broadcast goes to every gate whose agent is there. -/
theorem broadcastLoop_open (hopen : outlet.Open) (msg : ConfigMsg) (connIds : List ℤ)
    (hagents : ∀ c ∈ connIds, ∃ id agent, s.conn2agent.find c = some id ∧ s.gates.mgr.getAgent id = some agent ∧
      agent.connId = c ∧ agent.state = .verified) :
    s.broadcastLoop outlet msg connIds = (true, connIds.map fun c => (c, msg)) := by
  induction connIds with
  | nil => rfl
  | cons c connIds ih =>
      obtain ⟨id, agent, hfind, hagent, hconn, hstate⟩ := hagents c List.mem_cons_self
      have hrest := ih fun c' hc' => hagents c' (List.mem_cons_of_mem c hc')
      have hsend : agent.sendMsg outlet.send = (true, some c) := by
        rw [Agent.sendMsg, hstate, hconn, hopen.2]
        rfl
      unfold broadcastLoop
      simp only [hfind, hagent, hsend, hrest, if_true]
      rfl

theorem respond_open (hopen : outlet.Open) {agent : Agent ConfigAgentData} (hstate : agent.state = .verified)
    (msg : ConfigMsg) : respond outlet agent msg = (true, [(agent.connId, msg)]) := by
  have hsend : agent.sendMsg outlet.send = (true, some agent.connId) := by
    rw [Agent.sendMsg, hstate, hopen.2]
    rfl
  rw [respond, if_pos (hopen.1 msg), hsend]
  rfl

/-- The agents of the gates can be sent messages. -/
def Verified (s : ConfigServer) : Prop := ∀ id agent, s.gates.mgr.getAgent id = some agent → agent.state = .verified

/-- A gate request does nothing, or the gate is registered and is told of the logins. -/
theorem processGateConnect_open (hopen : outlet.Open) (gateId : ℤ) (hknown : s.checkConn connId = true →
      s.gates.mgr.getAgent gateId = none → conf.byId gateId ≠ none) :
    (s.processGateConnect connId gateId conf outlet).2 = (s, []) ∨
      s.checkConn connId = true ∧ ∃ mgr data, s.gates.mgr.newAgent gateId connId = some mgr ∧
        (s.processGateConnect connId gateId conf outlet).2 =
          (⟨s.conn2agent.modify connId fun _ => gateId, s.logins,
              ⟨mgr.modifyAgent gateId fun agent => { agent with data := data }, insert connId s.gates.connIds⟩⟩,
            [(connId, .gateResponse s.loginList)]) := by
  unfold processGateConnect
  split_ifs with hcheck
  · exact Or.inl rfl
  · rw [Bool.not_eq_false] at hcheck
    cases hagent : s.gates.mgr.getAgent gateId with
    | some agent => exact Or.inl rfl
    | none =>
        obtain ⟨mgr, hnew⟩ := AgentManager.newAgent_of_none hagent connId
        obtain ⟨d, hd⟩ := Option.ne_none_iff_exists'.1 (hknown hcheck hagent)
        refine Or.inr ⟨hcheck, mgr, ⟨gateId, d.ip, toShort d.port⟩, hnew, ?_⟩
        have hget : (mgr.modifyAgent gateId fun agent => { agent with data := ⟨gateId, d.ip, toShort d.port⟩ }).getAgent
            gateId = some ⟨⟨gateId, d.ip, toShort d.port⟩, connId, .verified⟩ := by
          rw [AgentManager.getAgent_filled hnew, if_pos rfl]
          rfl
        have hrespond := respond_open hopen
          (rfl : (⟨⟨gateId, d.ip, toShort d.port⟩, connId, .verified⟩ : Agent ConfigAgentData).state = .verified)
        simp only [hnew, hd, hget, hrespond]
        rfl

/-- A login request does nothing, or the login server is registered and all the gates are told of it. -/
theorem processLoginConnect_open (hopen : outlet.Open) (request : Option MsgConnectConfigRequest)
    (hverified : s.Verified) (hgates : s.gates.Agrees s.conn2agent)
    (hnot : ∀ r, request = some r → s.checkConn connId = true → s.logins.mgr.getAgent r.loginId = none →
      connId ∉ s.gates.connIds) :
    (s.processLoginConnect connId request conf outlet).2 = (s, []) ∨
      ∃ (r : MsgConnectConfigRequest) (mgr : AgentManager ℤ ConfigAgentData),
        s.logins.mgr.newAgent r.loginId connId = some mgr ∧ s.checkConn connId = true ∧
        (s.processLoginConnect connId request conf outlet).2 =
          (⟨s.conn2agent.modify connId fun _ => r.loginId, ⟨mgr.modifyAgent r.loginId fun agent =>
              { agent with data := ⟨r.loginId, r.loginIp, toShort r.loginPort⟩ }, insert connId s.logins.connIds⟩,
              s.gates⟩,
            (connId, .loginResponse conf.gates) :: (s.gates.connIds.sort (· ≤ ·)).map fun c =>
              (c, .newLogin ⟨r.loginIp, toShort r.loginPort % 2 ^ 16, r.loginId⟩)) := by
  unfold processLoginConnect
  split_ifs with hcheck
  · exact Or.inl rfl
  · rw [Bool.not_eq_false] at hcheck
    cases request with
    | none => exact Or.inl rfl
    | some r =>
        dsimp only
        cases hagent : s.logins.mgr.getAgent r.loginId with
        | some agent => exact Or.inl rfl
        | none =>
            obtain ⟨mgr, hnew⟩ := AgentManager.newAgent_of_none hagent connId
            refine Or.inr ⟨r, mgr, hnew, hcheck, ?_⟩
            have hget : (mgr.modifyAgent r.loginId fun agent =>
                { agent with data := ⟨r.loginId, r.loginIp, toShort r.loginPort⟩ }).getAgent r.loginId =
                  some ⟨⟨r.loginId, r.loginIp, toShort r.loginPort⟩, connId, .verified⟩ := by
              rw [AgentManager.getAgent_filled hnew, if_pos rfl]
              rfl
            have hagents : ∀ c ∈ s.gates.connIds.sort (· ≤ ·), ∃ id agent,
                (s.conn2agent.modify connId fun _ => r.loginId).find c = some id ∧
                  s.gates.mgr.getAgent id = some agent ∧ agent.connId = c ∧ agent.state = .verified := by
              intro c hc
              rw [Finset.mem_sort] at hc
              have hne : c ≠ connId := by
                rintro rfl
                exact hnot r rfl hcheck hagent hc
              obtain ⟨id, hid⟩ := Option.ne_none_iff_exists'.1 (hgates.known c hc)
              obtain ⟨agent, hagent, hconn⟩ := hgates.getAgent.2 ⟨hid, hc⟩
              refine ⟨id, agent, ?_, hagent, hconn, hverified id agent hagent⟩
              rw [UnorderedMap.find_modify, if_neg hne, hid]
            have hrespond := respond_open hopen
              (rfl : (⟨⟨r.loginId, r.loginIp, toShort r.loginPort⟩, connId, .verified⟩ : Agent ConfigAgentData).state =
                .verified)
            have hloop := broadcastLoop_open (s := ⟨s.conn2agent.modify connId fun _ => r.loginId,
              ⟨mgr.modifyAgent r.loginId fun agent =>
                { agent with data := ⟨r.loginId, r.loginIp, toShort r.loginPort⟩ },
                insert connId s.logins.connIds⟩, s.gates⟩) hopen
              (.newLogin ⟨r.loginIp, toShort r.loginPort % 2 ^ 16, r.loginId⟩) _ hagents
            simp only [hnew, hget, hrespond, if_true, broadcastNewLoginToGate, hopen.1, updateConn, hloop]
            rfl

/-- A new gate is told of every login server that is there. -/
theorem mem_loginList (hlogins : s.logins.Agrees s.conn2agent) {id : ℤ} {agent : Agent ConfigAgentData}
    (hagent : s.logins.mgr.getAgent id = some agent) :
    ⟨agent.data.ip, agent.data.port, agent.data.id⟩ ∈ s.loginList := by
  obtain ⟨hfind, hmem⟩ := hlogins.getAgent.1 ⟨agent, hagent, rfl⟩
  refine List.mem_filterMap.2 ⟨agent.connId, (Finset.mem_sort _).2 hmem, ?_⟩
  have hkey := (hlogins.keys agent.connId id).2 ⟨hfind, hmem⟩
  rw [AgentManager.getAgentByConnId, hkey, Option.bind_some, hagent, Option.map_some]

/-- Every gate knows of every login server as before, or is told of it now. -/
def Tells (s s' : ConfigServer) (msgs : List (ℤ × ConfigMsg)) : Prop :=
  ∀ c ∈ s'.gates.connIds, ∀ id agent, s'.logins.mgr.getAgent id = some agent →
    (c ∈ s.gates.connIds ∧ s.logins.mgr.getAgent id = some agent) ∨
      ∃ msg, (c, msg) ∈ msgs ∧ ∃ info ∈ msg.infos, info.address = agent.data.address

theorem tells_self (s : ConfigServer) (msgs : List (ℤ × ConfigMsg)) : s.Tells s msgs :=
  fun _ hc _ _ hagent => Or.inl ⟨hc, hagent⟩

theorem gateConnect_tells (hopen : outlet.Open) (gateId : ℤ) (hlogins : s.logins.Agrees s.conn2agent)
    (hknown : s.checkConn connId = true → s.gates.mgr.getAgent gateId = none → conf.byId gateId ≠ none)
    (hverified : s.Verified) :
    s.Tells (s.processGateConnect connId gateId conf outlet).2.1
        (s.processGateConnect connId gateId conf outlet).2.2 ∧
      (s.processGateConnect connId gateId conf outlet).2.1.Verified := by
  obtain heq | ⟨-, mgr, data, hnew, heq⟩ := processGateConnect_open hopen gateId hknown
  · rw [heq]
    exact ⟨tells_self s [], hverified⟩
  · rw [heq]
    refine ⟨fun c hc id agent hagent => ?_, fun id agent hagent => ?_⟩
    · obtain rfl | hc := Finset.mem_insert.1 hc
      · exact Or.inr ⟨_, List.mem_singleton_self _, _, mem_loginList hlogins hagent, rfl⟩
      · exact Or.inl ⟨hc, hagent⟩
    · change (mgr.modifyAgent gateId _).getAgent id = some agent at hagent
      rw [AgentManager.getAgent_filled hnew] at hagent
      by_cases hid : id = gateId
      · rw [if_pos hid] at hagent
        obtain rfl := Option.some.inj hagent
        rfl
      · rw [if_neg hid] at hagent
        exact hverified id agent hagent

theorem loginConnect_tells (hopen : outlet.Open) (request : Option MsgConnectConfigRequest)
    (hgates : s.gates.Agrees s.conn2agent) (hverified : s.Verified)
    (hnot : ∀ r, request = some r → s.checkConn connId = true → s.logins.mgr.getAgent r.loginId = none →
      connId ∉ s.gates.connIds) :
    s.Tells (s.processLoginConnect connId request conf outlet).2.1
        (s.processLoginConnect connId request conf outlet).2.2 ∧
      (s.processLoginConnect connId request conf outlet).2.1.Verified := by
  obtain heq | ⟨r, mgr, hnew, -, heq⟩ := processLoginConnect_open hopen request hverified hgates hnot
  · rw [heq]
    exact ⟨tells_self s [], hverified⟩
  · rw [heq]
    refine ⟨fun c hc id agent hagent => ?_, hverified⟩
    change (mgr.modifyAgent r.loginId _).getAgent id = some agent at hagent
    rw [AgentManager.getAgent_filled hnew] at hagent
    by_cases hid : id = r.loginId
    · rw [if_pos hid] at hagent
      obtain rfl := Option.some.inj hagent
      refine Or.inr ⟨_, List.mem_cons_of_mem _ (List.mem_map_of_mem ((Finset.mem_sort _).2 hc)), _,
        List.mem_singleton_self _, address_mod _ _⟩
    · rw [if_neg hid] at hagent
      exact Or.inl ⟨hc, hagent⟩

/-- A connection that is gone takes agents away only. -/
theorem disconnect_tells (connId stale : ℤ) (hlogins : s.logins.mgr.Consistent) (hgates : s.gates.mgr.Consistent)
    (hverified : s.Verified) :
    s.Tells (s.onDisconnect connId stale).2 [] ∧ (s.onDisconnect connId stale).2.Verified := by
  have hdeleted : ∀ {m : AgentManager ℤ ConfigAgentData}, m.Consistent → ∀ {id agent},
      (m.deleteAgent stale).2.getAgent id = some agent → m.getAgent id = some agent := by
    intro m hm id agent hagent
    rw [hm.deleteAgent_getAgent] at hagent
    exact (Option.ite_none_left_eq_some.1 hagent).2
  unfold onDisconnect
  split
  · exact ⟨tells_self s [], hverified⟩
  · dsimp only
    split_ifs
    · split
      · exact ⟨tells_self s [], hverified⟩
      · exact ⟨fun c hc id agent hagent => Or.inl ⟨hc, hdeleted hlogins hagent⟩, hverified⟩
    · split
      · exact ⟨tells_self s [], hverified⟩
      · exact ⟨fun c hc id agent hagent => Or.inl ⟨Finset.mem_of_mem_erase hc, hagent⟩,
          fun id agent hagent => hverified id agent (hdeleted hgates hagent)⟩
    · exact ⟨tells_self s [], hverified⟩

end ConfigServer

/-- A connection of the config server, with the gate at its other end and the messages of the server that the gate has
handled and those that it has not. -/
structure ConfigLink (ι : Type) where
  gate : Option ι
  handled : List ConfigMsg
  pending : List ConfigMsg

namespace ConfigLink

def sent {ι : Type} (link : ConfigLink ι) : List ConfigMsg := link.handled ++ link.pending

def push {ι : Type} (link : ConfigLink ι) (msgs : List ConfigMsg) : ConfigLink ι :=
  { link with pending := link.pending ++ msgs }

end ConfigLink

structure Discovery (ι : Type) where
  config : ConfigRun
  links : ℤ → ConfigLink ι
  gates : ι → GateStarts

inductive DiscoveryEvent (ι : Type) where
  | connect (connId : ℤ) (gate : Option ι)
  | server (event : ConfigEvent)
  | handle (connId : ℤ) (clients : List (Option ℕ))

/-- The messages of a step of the config server, with their connections. -/
def ConfigServer.sentBy (s : ConfigServer) : ConfigEvent → List (ℤ × ConfigMsg)
  | .connect _ => []
  | .gateConnect connId gateId conf outlet => (s.processGateConnect connId gateId conf outlet).2.2
  | .loginConnect connId request conf outlet => (s.processLoginConnect connId request conf outlet).2.2
  | .disconnect _ _ => []

/-- The messages to one connection. -/
def sentTo (connId : ℤ) (msgs : List (ℤ × ConfigMsg)) : List ConfigMsg :=
  (msgs.filter fun m => m.1 = connId).map Prod.snd

namespace Discovery

variable {ι : Type} [DecidableEq ι]

def start : Discovery ι := ⟨.start, fun _ => ⟨none, [], []⟩, fun _ => .start⟩

def step (d : Discovery ι) : DiscoveryEvent ι → Option (Discovery ι)
  | .connect connId gate =>
    if connId ∈ d.config.opened then none
    else (configMachine.step d.config (.connect connId)).map fun config =>
      { d with config := config, links := Function.update d.links connId ⟨gate, [], []⟩ }
  | .server (.connect _) => none
  | .server event => (configMachine.step d.config event).map fun config =>
      { d with
        config := config
        links := fun connId => (d.links connId).push (sentTo connId (d.config.server.sentBy event)) }
  | .handle connId clients =>
    match (d.links connId).gate, (d.links connId).pending with
    | some i, msg :: pending => some { d with
        links := Function.update d.links connId ⟨some i, (d.links connId).handled ++ [msg], pending⟩
        gates := Function.update d.gates i (GateConfigHandler.handle (d.gates i) msg clients).2 }
    | _, _ => none

end Discovery

def discoveryMachine (ι : Type) [DecidableEq ι] : Machine (Discovery ι) (DiscoveryEvent ι) := ⟨Discovery.step⟩

/-- What is sent at a request is taken. -/
def ConfigEvent.Sends : ConfigEvent → Prop
  | .gateConnect _ _ _ outlet => outlet.Open
  | .loginConnect _ _ _ outlet => outlet.Open
  | _ => True

def DiscoveryEvent.Sends {ι : Type} : DiscoveryEvent ι → Prop
  | .server event => event.Sends
  | _ => True

/-- The config server stays consistent, and a gate can start the clients that it is told to start. -/
def Discovery.Ready {ι : Type} (d : Discovery ι) : DiscoveryEvent ι → Prop
  | .connect _ _ => True
  | .server event => d.config.Clean event
  | .handle connId clients => ∀ msg ∈ (d.links connId).pending.head?, AllStart msg clients

instance {ι : Type} (d : Discovery ι) : DecidablePred d.Ready
  | .connect _ _ => inferInstanceAs (Decidable True)
  | .server event => inferInstanceAs (Decidable (d.config.Clean event))
  | .handle connId clients =>
      inferInstanceAs (Decidable (∀ msg ∈ (d.links connId).pending.head?, AllStart msg clients))

def Discovery.Smooth {ι : Type} (d : Discovery ι) (e : DiscoveryEvent ι) : Prop := d.Ready e ∧ e.Sends

namespace Discovery

variable {ι : Type} {d d' : Discovery ι} {connId : ℤ}

/-- What the connection was sent tells of the address. -/
def Told (d : Discovery ι) (connId : ℤ) (a : Str × BitVec 16) : Prop :=
  ∃ msg ∈ (d.links connId).sent, ∃ info ∈ msg.infos, info.address = a

/-- Every gate was told of every login server, and has started the clients of what it has handled. -/
structure Informed (d : Discovery ι) : Prop where
  inv : d.config.Inv
  verified : d.config.server.Verified
  told : ∀ connId ∈ d.config.server.gates.connIds, ∀ id agent,
    d.config.server.logins.mgr.getAgent id = some agent → d.Told connId agent.data.address
  handled : ∀ connId i, (d.links connId).gate = some i → ∀ msg ∈ (d.links connId).handled, ∀ info ∈ msg.infos,
    info.address ∈ (d.gates i).started

theorem informed_start : Informed (start : Discovery ι) where
  inv := ConfigRun.inv_start
  verified _ agent hagent := absurd hagent (Option.some_ne_none agent).symm
  told _ hmem := absurd hmem (Finset.notMem_empty _)
  handled _ i hgate := absurd hgate (Option.some_ne_none i).symm

/-- What was told stays told when more is sent. -/
theorem Told.push {a : Str × BitVec 16} (h : d.Told connId a) {msgs : List ConfigMsg}
    (hlink : d'.links connId = (d.links connId).push msgs) : d'.Told connId a := by
  obtain ⟨msg, hmsg, hinfo⟩ := h
  refine ⟨msg, ?_, hinfo⟩
  rw [hlink]
  rcases List.mem_append.1 hmsg with hmsg | hmsg
  · exact List.mem_append_left _ hmsg
  · exact List.mem_append_right _ (List.mem_append_left _ hmsg)

theorem mem_sentTo {msgs : List (ℤ × ConfigMsg)} {msg : ConfigMsg} (h : (connId, msg) ∈ msgs) :
    msg ∈ sentTo connId msgs :=
  List.mem_map.2 ⟨(connId, msg), List.mem_filter.2 ⟨h, decide_eq_true rfl⟩, rfl⟩

/-- A step of the config server tells the gates of what they do not know yet. -/
theorem server_tells {s : ConfigServer} {opened : Finset ℤ} (hinv : ConfigRun.Inv ⟨s, opened⟩) (hverified : s.Verified)
    {event : ConfigEvent} {config : ConfigRun} (hclean : ConfigRun.Clean ⟨s, opened⟩ event) (hsends : event.Sends)
    (hstep : configMachine.step ⟨s, opened⟩ event = some config) (hnew : ∀ connId, event ≠ .connect connId) :
    s.Tells config.server (s.sentBy event) ∧ config.server.Verified := by
  cases event with
  | connect connId => exact absurd rfl (hnew connId)
  | gateConnect connId gateId conf outlet =>
      obtain rfl := Option.some.inj hstep
      exact ConfigServer.gateConnect_tells hsends gateId hinv.logins
        (fun hcheck hagent => (hclean hcheck hagent).2) hverified
  | loginConnect connId request conf outlet =>
      obtain rfl := Option.some.inj hstep
      refine ConfigServer.loginConnect_tells hsends request hinv.gates hverified fun r hr hcheck hagent => ?_
      subst hr
      exact (hclean hcheck hagent).2
  | disconnect connId stale =>
      obtain rfl := Option.some.inj hstep
      exact ConfigServer.disconnect_tells connId stale hinv.logins.consistent hinv.gates.consistent hverified

variable [DecidableEq ι]

theorem Informed.connect (h : d.Informed) {gate : Option ι} (hstep : d.step (.connect connId gate) = some d') :
    d'.Informed := by
  obtain ⟨hnew, hstep⟩ := Option.ite_none_left_eq_some.1 hstep
  obtain ⟨config, hconfig, rfl⟩ := Option.map_eq_some_iff.1 hstep
  have hinv : config.Inv := h.inv.step (e := .connect connId) trivial hconfig
  obtain rfl := Option.some.inj hconfig
  have hfind : d.config.server.conn2agent.find connId = none := not_not.1 (mt (h.inv.opened connId).1 hnew)
  have htables : (d.config.server.onConnect connId).2.gates = d.config.server.gates ∧
      (d.config.server.onConnect connId).2.logins = d.config.server.logins := by
    rw [ConfigServer.onConnect, hfind]
    exact ⟨rfl, rfl⟩
  refine ⟨hinv, fun id agent hagent => ?_, fun c hc id agent hagent => ?_, fun c i hgate msg hmsg => ?_⟩
  · change (d.config.server.onConnect connId).2.gates.mgr.getAgent id = some agent at hagent
    rw [htables.1] at hagent
    exact h.verified id agent hagent
  · change c ∈ (d.config.server.onConnect connId).2.gates.connIds at hc
    change (d.config.server.onConnect connId).2.logins.mgr.getAgent id = some agent at hagent
    rw [htables.1] at hc
    rw [htables.2] at hagent
    have hne : c ≠ connId := by
      rintro rfl
      exact h.inv.gates.not_mem hfind hc
    obtain ⟨msg, hmsg, hinfo⟩ := h.told c hc id agent hagent
    refine ⟨msg, ?_, hinfo⟩
    change msg ∈ (Function.update d.links connId _ c).sent
    rwa [Function.update_of_ne hne]
  · change (Function.update d.links connId _ c).gate = some i at hgate
    change msg ∈ (Function.update d.links connId _ c).handled at hmsg
    by_cases hc : c = connId
    · subst hc
      rw [Function.update_self] at hmsg
      exact absurd hmsg List.not_mem_nil
    · rw [Function.update_of_ne hc] at hgate hmsg
      exact h.handled c i hgate msg hmsg

theorem Informed.server (h : d.Informed) {event : ConfigEvent} (hsmooth : d.Smooth (.server event))
    (hstep : d.step (.server event) = some d') : d'.Informed := by
  have hnew : ∀ connId, event ≠ .connect connId := by
    rintro connId rfl
    exact absurd hstep (Option.some_ne_none d').symm
  have hmap : (configMachine.step d.config event).map (fun config => { d with
      config := config
      links := fun connId => (d.links connId).push (sentTo connId (d.config.server.sentBy event)) }) = some d' := by
    cases event with
    | connect connId => exact absurd rfl (hnew connId)
    | gateConnect connId gateId conf outlet => exact hstep
    | loginConnect connId request conf outlet => exact hstep
    | disconnect connId stale => exact hstep
  obtain ⟨config, hconfig, rfl⟩ := Option.map_eq_some_iff.1 hmap
  obtain ⟨htells, hverified⟩ := server_tells h.inv h.verified hsmooth.1 hsmooth.2 hconfig hnew
  refine ⟨h.inv.step hsmooth.1 hconfig, hverified, fun c hc id agent hagent => ?_,
    fun c i hgate msg hmsg => h.handled c i hgate msg hmsg⟩
  rcases htells c hc id agent hagent with ⟨hc, hagent⟩ | ⟨msg, hmsg, hinfo⟩
  · exact (h.told c hc id agent hagent).push rfl
  · exact ⟨msg, List.mem_append_right _ (List.mem_append_right _ (mem_sentTo hmsg)), hinfo⟩

theorem Informed.handle (h : d.Informed) {clients : List (Option ℕ)} (hsmooth : d.Smooth (.handle connId clients))
    (hstep : d.step (.handle connId clients) = some d') : d'.Informed := by
  rw [step] at hstep
  cases hgate : (d.links connId).gate with
  | none =>
      rw [hgate] at hstep
      exact absurd hstep (Option.some_ne_none d').symm
  | some i =>
      cases hpending : (d.links connId).pending with
      | nil =>
          rw [hgate, hpending] at hstep
          exact absurd hstep (Option.some_ne_none d').symm
      | cons msg pending =>
          rw [hgate, hpending] at hstep
          obtain rfl := Option.some.inj hstep
          have hall : AllStart msg clients := hsmooth.1 msg (by rw [hpending]; rfl)
          obtain ⟨hkept, hstarted⟩ := handle_started (d.gates i) msg clients
          have hgates : ∀ j a, a ∈ (d.gates j).started → a ∈ (Function.update d.gates i
              (GateConfigHandler.handle (d.gates i) msg clients).2 j).started := by
            intro j a ha
            by_cases hj : j = i
            · subst hj
              rw [Function.update_self]
              exact hkept a ha
            · rwa [Function.update_of_ne hj]
          refine ⟨h.inv, h.verified, fun c hc id agent hagent => ?_, fun c j hj msg' hmsg' info hinfo => ?_⟩
          · obtain ⟨msg', hmsg', hinfo⟩ := h.told c hc id agent hagent
            refine ⟨msg', ?_, hinfo⟩
            change msg' ∈ (Function.update d.links connId _ c).sent
            by_cases hconn : c = connId
            · subst hconn
              rw [ConfigLink.sent, hpending] at hmsg'
              rwa [Function.update_self, ConfigLink.sent, List.append_assoc, List.singleton_append]
            · rwa [Function.update_of_ne hconn]
          · change (Function.update d.links connId _ c).gate = some j at hj
            change msg' ∈ (Function.update d.links connId _ c).handled at hmsg'
            by_cases hconn : c = connId
            · subst hconn
              rw [Function.update_self] at hj hmsg'
              obtain rfl := Option.some.inj hj
              rcases List.mem_append.1 hmsg' with hmsg' | hmsg'
              · exact hgates i _ (h.handled c i hgate msg' hmsg' info hinfo)
              · obtain rfl := List.mem_singleton.1 hmsg'
                change _ ∈ (Function.update d.gates i _ i).started
                rw [Function.update_self]
                exact hstarted hall info hinfo
            · rw [Function.update_of_ne hconn] at hj hmsg'
              exact hgates j _ (h.handled c j hj msg' hmsg' info hinfo)

theorem Informed.step {e : DiscoveryEvent ι} (h : d.Informed) (hsmooth : d.Smooth e)
    (hstep : (discoveryMachine ι).step d e = some d') : d'.Informed := by
  cases e with
  | connect connId gate => exact h.connect hstep
  | server event => exact h.server hsmooth hstep
  | handle connId clients => exact h.handle hsmooth hstep

/-- In every run in which the config server stays consistent, its messages are taken and the gates can start their
clients, a registered gate that has handled what it was sent has started a client for every registered login server. -/
theorem every_login_started {es : List (DiscoveryEvent ι)} (hsmooth : (discoveryMachine ι).Along Smooth start es)
    (hrun : (discoveryMachine ι).run start es = some d) {gateId loginId : ℤ} {gate login : Agent ConfigAgentData}
    (hgate : d.config.server.gates.mgr.getAgent gateId = some gate)
    (hlogin : d.config.server.logins.mgr.getAgent loginId = some login) {i : ι}
    (hlink : (d.links gate.connId).gate = some i) (hhandled : (d.links gate.connId).pending = []) :
    login.data.address ∈ (d.gates i).started := by
  have hinformed : d.Informed := Machine.invariant_along (fun _ _ _ h => h.step) informed_start hsmooth hrun
  obtain ⟨-, hmem⟩ := hinformed.inv.gates.getAgent.1 ⟨gate, hgate, rfl⟩
  obtain ⟨msg, hmsg, info, hinfo, haddress⟩ := hinformed.told gate.connId hmem loginId login hlogin
  rw [ConfigLink.sent, hhandled, List.append_nil] at hmsg
  rw [← haddress]
  exact hinformed.handled gate.connId i hlink msg hmsg info hinfo

/-- Login server 10001 registers before gate 1, and login server 10002 behind it. -/
def twoLogins : List (DiscoveryEvent Unit) := [
  .connect 10 none, .server (.loginConnect 10 (some ⟨10001, [49], 8000⟩) ConfigRun.twoGates ConfigRun.allSent),
  .connect 11 (some ()), .server (.gateConnect 11 1 ConfigRun.twoGates ConfigRun.allSent),
  .connect 12 none, .server (.loginConnect 12 (some ⟨10002, [50], 50000⟩) ConfigRun.twoGates ConfigRun.allSent),
  .handle 11 [some 0], .handle 11 [some 1]]

theorem twoLogins_started : ∃ d login, (discoveryMachine Unit).run start twoLogins = some d ∧
    d.config.server.logins.mgr.getAgent 10002 = some login ∧ login.data.address ∈ (d.gates ()).started := by
  have hready : (discoveryMachine Unit).Along Ready start twoLogins := by decide +kernel
  have hsends : (discoveryMachine Unit).Along (fun _ e => e.Sends) start twoLogins := by
    refine Machine.along_of_forall fun e he => ?_
    simp only [twoLogins, List.mem_cons, List.not_mem_nil, or_false] at he
    rcases he with rfl | rfl | rfl | rfl | rfl | rfl | rfl | rfl
    all_goals first | trivial | exact ⟨fun _ => rfl, fun _ => rfl⟩
  have hagents : ((discoveryMachine Unit).run start twoLogins).map (fun d =>
      ((d.config.server.gates.mgr.getAgent 1).map Agent.connId, (d.config.server.logins.mgr.getAgent 10002).isSome,
        (d.links 11).gate, (d.links 11).pending)) = some (some 11, true, some (), []) := by decide +kernel
  obtain ⟨d, hd, hagents⟩ := Option.map_eq_some_iff.1 hagents
  rw [Prod.mk.injEq, Prod.mk.injEq, Prod.mk.injEq] at hagents
  obtain ⟨hgate, hlogin, hlink, hhandled⟩ := hagents
  obtain ⟨gate, hgate, hconn⟩ := Option.map_eq_some_iff.1 hgate
  obtain ⟨login, hlogin⟩ := Option.isSome_iff_exists.1 hlogin
  rw [← hconn] at hlink hhandled
  exact ⟨d, login, hd, hlogin, every_login_started (hready.and hsends) hd hgate hlogin hlink hhandled⟩

end Discovery

end JmyGame
