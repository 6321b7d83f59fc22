import JmyGame.GateKicks

/-! What the handlers of the gate can do to its tables and to its link to the game server: most of them
are calm, a `GetRole` request may take a slot, and a role response stores a role in a slot. -/

namespace JmyGame

open CArith

/-- A connection that is neither closed nor freed. -/
def Gate.Up (g : Gate) (connId : ℤ) : Prop :=
  g.connState connId ≠ none ∧ g.connState connId ≠ some .disconnected

/-- No connection comes up, and one that is up keeps its client, if the removals read the values of their entries. -/
structure KeepsClients (g g' : Gate) : Prop where
  up : ∀ c, g'.Up c → g.Up c
  client : ClientTables g.mgr → g.mgr.Intact → ∀ c p, g'.Up c → g.mgr.getClientInfoByConnId c = some p →
    g'.mgr.getClientInfoByConnId c = some p

namespace KeepsClients

variable {g g' g'' : Gate}

theorem of_client (hconn : g'.connState = g.connState)
    (hclient : ∀ c p, g.mgr.getClientInfoByConnId c = some p → g'.mgr.getClientInfoByConnId c = some p) :
    KeepsClients g g' :=
  ⟨fun c => by rw [Gate.Up, hconn]; exact id, fun _ _ c p _ => hclient c p⟩

theorem trans (h : KeepsClients g g') (htables : ClientTables g.mgr → ClientTables g'.mgr)
    (hreads : g'.mgr.reads = g.mgr.reads) (h' : KeepsClients g' g'') : KeepsClients g g'' :=
  ⟨fun c hup => h.up c (h'.up c hup), fun ht hi c p hup hp =>
    h'.client (htables ht) (fun k => hreads ▸ hi k) c p hup (h.client ht hi c p (h'.up c hup) hp)⟩

theorem connForceClose (g : Gate) (connId : ℤ) : KeepsClients g (g.connForceClose connId) := by
  by_cases hopen : g.Up connId
  swap
  · rw [Gate.connForceClose_of_closed (or_iff_not_and_not.2 hopen)]
    exact of_client rfl fun _ _ => id
  rw [Gate.connForceClose_of_open hopen.1 hopen.2]
  have hother : ∀ c, Gate.Up { g with
      connState := Function.update g.connState connId (some .disconnected)
      mgr := (g.mgr.removeByConnId connId).2 } c → c ≠ connId := by
    rintro c hup rfl
    exact hup.2 (Function.update_self _ _ _)
  refine ⟨fun c hup => ?_, fun ht hi c p hup hp => removeByConnId_client ht hi (hother c hup) hp⟩
  have hsame : Function.update g.connState connId (some .disconnected) c = g.connState c :=
    Function.update_of_ne (hother c hup) _ _
  rw [Gate.Up] at hup ⊢
  rwa [← hsame]

end KeepsClients

/-- No slot is taken, no account or role changes, and the packets that go to the game server meet the
predicate; without an agent there are none. -/
structure Calm (F : Packet → Prop) (g g' : Gate) : Prop where
  mgr : Shrinks g.mgr g'.mgr
  clients : KeepsClients g g'
  agent : g'.gameAgent = g.gameAgent
  maxConn : g'.maxConn = g.maxConn
  trace : ∃ new, g'.trace = g.trace ++ new ∧ ∀ p a, GateObs.alloc p a ∉ new
  queue : ∃ new, g'.toGame = g.toGame ++ new ∧ (∀ packet ∈ new, F packet) ∧ (g.gameAgent = none → new = [])

namespace Calm

variable {F : Packet → Prop} {g g' g'' : Gate}

theorem of_mgr (hmgr : Shrinks g.mgr g'.mgr) (hclients : KeepsClients g g') (hagent : g'.gameAgent = g.gameAgent)
    (hmax : g'.maxConn = g.maxConn) (htrace : g'.trace = g.trace) (hqueue : g'.toGame = g.toGame) :
    Calm F g g' :=
  ⟨hmgr, hclients, hagent, hmax, ⟨[], by rw [htrace, List.append_nil], by simp⟩,
    ⟨[], by rw [hqueue, List.append_nil], by simp, fun _ => rfl⟩⟩

theorem refl (g : Gate) : Calm F g g := of_mgr (Shrinks.refl _) (.of_client rfl fun _ _ => id) rfl rfl rfl rfl

theorem trans (h : Calm F g g') (h' : Calm F g' g'') : Calm F g g'' := by
  obtain ⟨new, hnew, hall⟩ := h.trace
  obtain ⟨new', hnew', hall'⟩ := h'.trace
  obtain ⟨sent, hsent, hF, hnone⟩ := h.queue
  obtain ⟨sent', hsent', hF', hnone'⟩ := h'.queue
  refine ⟨h.mgr.trans h'.mgr, h.clients.trans h.mgr.tables h.mgr.reads h'.clients, h'.agent.trans h.agent,
    h'.maxConn.trans h.maxConn,
    ⟨new ++ new', by rw [hnew', hnew, List.append_assoc], fun p a hmem => ?_⟩,
    ⟨sent ++ sent', by rw [hsent', hsent, List.append_assoc], fun packet hmem => ?_, fun hagent => ?_⟩⟩
  · rcases List.mem_append.1 hmem with hmem | hmem
    · exact hall p a hmem
    · exact hall' p a hmem
  · rcases List.mem_append.1 hmem with hmem | hmem
    · exact hF packet hmem
    · exact hF' packet hmem
  · rw [hnone hagent, hnone' (h.agent.trans hagent), List.append_nil]

/-- A change of the state of a connection that does not bring it up. -/
theorem setConn (g : Gate) (connId : ℤ) (state : Option JmyConnState)
    (hup : (g.setConn connId state).Up connId → g.Up connId) : Calm F g (g.setConn connId state) := by
  refine of_mgr (Shrinks.refl _) ⟨fun c hc => ?_, fun _ _ _ _ _ => id⟩ rfl rfl rfl rfl
  by_cases heq : c = connId
  · exact heq ▸ hup (heq ▸ hc)
  · have hsame : (g.setConn connId state).connState c = g.connState c := Function.update_of_ne heq _ _
    rw [Gate.Up] at hc ⊢
    rwa [← hsame]

/-- Something is seen of the gate that is not a slot given out. -/
theorem observe (g : Gate) {o : GateObs} (ho : ∀ p a, GateObs.alloc p a ≠ o) : Calm F g (g.observe o) :=
  ⟨Shrinks.refl _, .of_client rfl fun _ _ => id, rfl, rfl,
    ⟨[o], rfl, fun p a hmem => ho p a (List.mem_singleton.1 hmem)⟩,
    ⟨[], (List.append_nil _).symm, by simp, fun _ => rfl⟩⟩

theorem connSend (g : Gate) (connId : ℤ) (msgId : MsgId) (data : List Byte) :
    Calm F g (g.connSend connId msgId data).2 := by
  unfold Gate.connSend
  split_ifs
  · exact observe g (fun _ _ => GateObs.noConfusion)
  · exact refl g

theorem connClose (g : Gate) (connId : ℤ) : Calm F g (g.connClose connId) := by
  unfold Gate.connClose
  split_ifs with hstate
  · refine setConn g _ _ fun _ => ?_
    rw [Gate.Up, hstate]
    exact ⟨nofun, nofun⟩
  · exact refl g

theorem connForceClose (g : Gate) (connId : ℤ) : Calm F g (g.connForceClose connId) := by
  have hclients := KeepsClients.connForceClose g connId
  by_cases hopen : g.Up connId
  swap
  · rw [Gate.connForceClose_of_closed (or_iff_not_and_not.2 hopen)]
    exact refl g
  · rw [Gate.connForceClose_of_open hopen.1 hopen.2] at hclients ⊢
    exact of_mgr (Shrinks.removeByConnId g.mgr connId) hclients rfl rfl rfl rfl

theorem clientSend (g : Gate) (p : ℤ) (msgId : MsgId) (data : List Byte) :
    Calm F g (g.clientSend p msgId data).2 := by
  unfold Gate.clientSend
  split_ifs
  · exact refl g
  · split
    · exact refl g
    · exact connSend g _ _ _

/-- A change of a `ClientInfo` that leaves its id, its account and its role alone. -/
theorem modifyInfo (g : Gate) (p : ℤ) {f : ClientInfo → ClientInfo}
    (hid : (f (g.mgr.info p)).id = (g.mgr.info p).id)
    (haccount : g.mgr.Intact → (f (g.mgr.info p)).account = (g.mgr.info p).account)
    (hrole : (f (g.mgr.info p)).currRoleId = (g.mgr.info p).currRoleId) :
    Calm F g { g with mgr := g.mgr.modifyInfo p f } :=
  of_mgr (Shrinks.modifyInfo g.mgr p hid haccount hrole) (.of_client rfl fun _ _ => id) rfl rfl rfl rfl

theorem clientClose (g : Gate) (p : ℤ) : Calm F g (g.clientClose p) := by
  unfold Gate.clientClose
  split_ifs
  · exact refl g
  · split
    · exact refl g
    · exact (connClose g _).trans (modifyInfo _ p rfl (fun _ => rfl) rfl)

theorem clientForceClose (g : Gate) (p : ℤ) : Calm F g (g.clientForceClose p) := by
  unfold Gate.clientForceClose
  split_ifs
  · exact refl g
  · split
    · exact refl g
    · exact connForceClose g _

theorem sendGameMsg (g : Gate) (msgId : MsgId) (data : List Byte)
    (hF : F ⟨none, msgId, short data⟩) : Calm F g (g.sendGameMsg msgId data).2 := by
  unfold Gate.sendGameMsg
  split_ifs with h
  · refine ⟨Shrinks.refl _, .of_client rfl fun _ _ => id, rfl, rfl, ⟨_, rfl, by simp⟩,
      ⟨_, rfl, by simpa using hF, fun hagent => ?_⟩⟩
    simp [hagent] at h
  · exact refl g

theorem sendGameUserMsg (g : Gate) (userId : ℤ) (msgId : MsgId) (data : List Byte)
    (hF : F ⟨some (BitVec.ofInt 32 userId), msgId, short data⟩) :
    Calm F g (g.sendGameUserMsg userId msgId data).2 := by
  unfold Gate.sendGameUserMsg
  split_ifs with h
  · refine ⟨Shrinks.refl _, .of_client rfl fun _ _ => id, rfl, rfl, ⟨_, rfl, by simp⟩,
      ⟨_, rfl, by simpa using hF, fun hagent => ?_⟩⟩
    simp [hagent] at h
  · exact refl g

theorem sendError (P : Protocol) (g : Gate) (connId : ℤ) (error : ProtoErrorType) :
    Calm F g (g.sendError P connId error) := connSend g _ _ _

theorem kick (g : Gate) (ci : Option ℤ) : Calm F g (ClientHandler.kick g ci) := by
  cases ci with
  | none => exact refl g
  | some p => exact clientForceClose g p

theorem bindConn (g : Gate) (connId p : ℤ) : Calm F g (ClientHandler.bindConn g connId p) := by
  have hbimap : Shrinks g.mgr (g.mgr.insertConnIdId connId (g.mgr.info p).id).2 :=
    Shrinks.congr rfl rfl rfl fun _ h => h.insert connId (g.mgr.info p).id
  refine of_mgr (hbimap.trans (Shrinks.modifyInfo _ p rfl (fun _ => rfl) rfl)) (.of_client rfl fun c q hq => ?_)
    rfl rfl rfl rfl
  obtain ⟨id, hid, hget⟩ := Option.bind_eq_some_iff.1 hq
  exact Option.bind_eq_some_iff.2 ⟨id, FreedBiMap.find1_insert_of_some hid, hget⟩

theorem checkSession (g : Gate) (time : ℤ) (account session : Str) :
    Calm F g { g with mgr := (g.mgr.checkSessionByAccount time account session).2 } :=
  of_mgr (Shrinks.checkSession g.mgr time account session) (.of_client rfl fun c p hp => by
    obtain ⟨harray, -, hconnids, -⟩ := Shrinks.checkSession_fields g.mgr time account session
    rwa [ClientManager.getClientInfoByConnId, harray, hconnids]) rfl rfl rfl rfl

theorem newAccountSession (g : Gate) (time : ℤ) (account session : Str) :
    Calm F g { g with mgr := g.mgr.newAccountSession time account session } :=
  of_mgr (Shrinks.congr rfl rfl rfl fun _ => id) (.of_client rfl fun _ _ => id) rfl rfl rfl rfl

/-- A handler whose last step is a send answers with the gate behind the send in any case. -/
theorem answer {c : Prop} [Decidable c] {a b : ℤ} (h : Calm F g g') :
    Calm F g (if c then (a, g') else (b, g')).2 := by
  split_ifs
  · exact h
  · exact h

theorem closeOnError {connId : ℤ} {r : ℤ × Gate} (h : Calm F g r.2) :
    Calm F g (Gate.closeOnError connId r) := by
  unfold Gate.closeOnError
  split_ifs
  · exact h.trans (connForceClose _ connId)
  · exact h

end Calm

/-- What the handlers do: calm steps, slots that are taken for new accounts, and roles that are stored
for the account of a slot when a response with them was seen. -/
inductive Moves (F : Packet → Prop) (T : ClientManager → ℤ → Prop) : Gate → Gate → Prop where
  | calm {g g' : Gate} (h : Calm F g g') : Moves F T g g'
  | takes {g g' : Gate} {account : Str} {p : ℤ} (h : Takes g.mgr g'.mgr account p)
      (hconn : g'.connState = g.connState) (htrace : g'.trace = g.trace ++ [.alloc p account])
      (hagent : g'.gameAgent = g.gameAgent) (hmax : g'.maxConn = g.maxConn) (hqueue : g'.toGame = g.toGame)
      (hT : T g.mgr p) : Moves F T g g'
  | setRole {g : Gate} {p : ℤ} {roleId : BitVec 64} (htrace : g.mgr.Intact → ∃ before after,
        g.trace = before ++ .role (g.mgr.info p).account roleId :: after ∧ ∀ p' a, GateObs.alloc p' a ∉ after) :
      Moves F T g { g with mgr := g.mgr.modifyInfo p fun ci => ci.setRole roleId }
  | trans {g g' g'' : Gate} (h : Moves F T g g') (h' : Moves F T g' g'') : Moves F T g g''

namespace Moves

variable {F : Packet → Prop} {T : ClientManager → ℤ → Prop} {g g' : Gate}

/-- The tables stay in order, and the slots are those of the start. -/
theorem tables (hm : Moves F T g g') (h : ClientTables g.mgr) :
    ClientTables g'.mgr ∧ g'.mgr.clientArray.startId = g.mgr.clientArray.startId ∧
      g'.mgr.clientArray.infoSize = g.mgr.clientArray.infoSize := by
  induction hm with
  | calm hc => exact ⟨hc.mgr.tables h, hc.mgr.start, hc.mgr.size⟩
  | takes ht _ _ _ _ _ _ => exact ⟨ht.tables h, ht.start, ht.size⟩
  | setRole _ => exact ⟨h.setRole, rfl, rfl⟩
  | trans _ _ ih ih' =>
      obtain ⟨htables, hstart, hsize⟩ := ih h
      obtain ⟨htables', hstart', hsize'⟩ := ih' htables
      exact ⟨htables', hstart'.trans hstart, hsize'.trans hsize⟩

theorem reads (hm : Moves F T g g') : g'.mgr.reads = g.mgr.reads := by
  induction hm with
  | calm hc => exact hc.mgr.reads
  | takes ht _ _ _ _ _ _ => exact ht.reads
  | setRole _ => rfl
  | trans _ _ ih ih' => exact ih'.trans ih

/-- A connection that stays up keeps its client, and the client its account. -/
theorem client (hm : Moves F T g g') (h : ClientTables g.mgr) (hreads : g.mgr.Intact) {c : ℤ} (hup : g'.Up c) :
    g.Up c ∧ ∀ p, g.mgr.getClientInfoByConnId c = some p →
      g'.mgr.getClientInfoByConnId c = some p ∧ (g'.mgr.info p).account = (g.mgr.info p).account := by
  induction hm with
  | calm hc =>
      exact ⟨hc.clients.up c hup, fun p hp => ⟨hc.clients.client h hreads c p hup hp, hc.mgr.account hreads p⟩⟩
  | @takes g g' account q ht hconn _ _ _ _ _ =>
      refine ⟨by rwa [Gate.Up, ← hconn], fun p hp => ?_⟩
      obtain ⟨id, hid, hget⟩ := Option.bind_eq_some_iff.1 hp
      obtain ⟨rfl, hused⟩ := ClientArray.get_eq_some hget
      have hfree : id ≠ q := by
        rintro rfl
        exact h.free id (List.mem_of_mem_head? ht.head) hused
      have hmem : id ∈ g'.mgr.clientArray.usedIds := ht.used ▸ Finset.mem_insert_of_mem hused
      refine ⟨?_, by rw [ht.others id hfree]⟩
      rw [ClientManager.getClientInfoByConnId, ht.connids, hid, Option.bind_some,
        ClientArray.get_congr ht.start ht.size (iff_of_true hmem hused), hget]
  | @setRole g q roleId _ =>
      refine ⟨hup, fun p hp => ⟨hp, ?_⟩⟩
      by_cases heq : p = q
      · rw [heq, info_modifyInfo_self, ClientInfo.setRole_account]
      · rw [info_modifyInfo_of_ne _ _ _ heq]
  | trans hm _ ih ih' =>
      obtain ⟨hup', hrest⟩ := ih' (hm.tables h).1 (fun k => hm.reads ▸ hreads k) hup
      obtain ⟨hup'', hfirst⟩ := ih h hreads hup'
      refine ⟨hup'', fun p hp => ?_⟩
      obtain ⟨hp', hacc⟩ := hfirst p hp
      obtain ⟨hp'', hacc'⟩ := hrest p hp'
      exact ⟨hp'', hacc'.trans hacc⟩

/-- What goes to the game server meets the predicate, and goes nowhere without an agent. -/
theorem link (hm : Moves F T g g') : g'.gameAgent = g.gameAgent ∧ g'.maxConn = g.maxConn ∧
    ∃ new, g'.toGame = g.toGame ++ new ∧ (∀ packet ∈ new, F packet) ∧ (g.gameAgent = none → new = []) := by
  induction hm with
  | calm hc => exact ⟨hc.agent, hc.maxConn, hc.queue⟩
  | takes _ _ _ hagent hmax hqueue _ =>
      exact ⟨hagent, hmax, [], by rw [hqueue, List.append_nil], by simp, fun _ => rfl⟩
  | setRole _ => exact ⟨rfl, rfl, [], by rw [List.append_nil], by simp, fun _ => rfl⟩
  | trans _ _ ih ih' =>
      obtain ⟨hagent, hmax, new, hnew, hF, hnone⟩ := ih
      obtain ⟨hagent', hmax', new', hnew', hF', hnone'⟩ := ih'
      refine ⟨hagent'.trans hagent, hmax'.trans hmax, new ++ new', ?_, ?_, ?_⟩
      · rw [hnew', hnew, List.append_assoc]
      · intro packet hpacket
        rcases List.mem_append.1 hpacket with hpacket | hpacket
        · exact hF packet hpacket
        · exact hF' packet hpacket
      · intro h
        rw [hnone h, hnone' (hagent.trans h), List.append_nil]

end Moves

/-- The packets that a message of a client leads to meet the predicate. -/
structure Carries (P : Protocol) (F : Packet → Prop) (g : Gate) (msgId : MsgId) : Prop where
  getRole : ∀ data, F ⟨none, MsgId.gt2gsGetRoleRequest, data⟩
  createRole : ∀ data, F ⟨none, MsgId.gt2gsCreateRoleRequest, data⟩
  enter : ∀ p ∈ g.mgr.clientArray.usedIds, ∀ roleId,
    F ⟨some (BitVec.ofInt 32 (g.mgr.info p).id), MsgId.gt2gsEnterGameRequest,
      short (P.enterGameRequest.serialize roleId)⟩
  leave : ∀ userId, F ⟨some userId, MsgId.gt2gsLeaveGameRequest, short (P.leaveGameRequest.serialize 0)⟩
  forward : ∀ userId data, F ⟨some userId, msgId, data⟩

theorem Carries.always (P : Protocol) (g : Gate) (msgId : MsgId) : Carries P (fun _ => True) g msgId :=
  ⟨fun _ => trivial, fun _ => trivial, fun _ _ _ => trivial, fun _ => trivial, fun _ _ => trivial⟩

/-- A free slot that a `GetRole` request takes, once its session is accepted, meets the predicate. -/
def TakesOnly (P : Protocol) (T : ClientManager → ℤ → Prop) (time : ℤ) (g : Gate) (data : List Byte) : Prop :=
  ∀ request, P.c2sGetRoleRequest.parse data = some request →
    ∀ check, (ClientHandler.kick g (g.mgr.getClientInfoByAccount request.account)).mgr.checkSessionByAccount
      time request.account request.enterSession = (true, check) →
      check.accountIdBimap.find1 request.account = none →
        ∀ p, check.clientArray.freeIds.head? = some p → T check p

/-- `newClient` gives no slot, the slot that the account has, or a free one. -/
theorem newClient_cases {F : Packet → Prop} {g : Gate} (h : ClientTables g.mgr) (account : Str) :
    Calm F g (g.newClient account).2 ∨
    (∃ p, g.mgr.accountIdBimap.find1 account = none ∧
      Takes g.mgr (g.newClient account).2.mgr account p ∧ (g.newClient account).2.connState = g.connState ∧
      (g.newClient account).2.trace = g.trace ++ [.alloc p account] ∧
      (g.newClient account).2.gameAgent = g.gameAgent ∧ (g.newClient account).2.maxConn = g.maxConn ∧
      (g.newClient account).2.toGame = g.toGame) := by
  unfold Gate.newClient
  split
  · rename_i id hfound
    split
    · exact Or.inl (Calm.refl g)
    · rename_i p hget
      obtain ⟨rfl, -⟩ := ClientArray.get_eq_some hget
      have hclose := Calm.clientForceClose (F := F) g id
      -- the slot holds this account already
      have haccount : (g.clientForceClose id).mgr.Intact → account = ((g.clientForceClose id).mgr.info id).account := by
        intro hreads
        have hreads' : g.mgr.Intact := fun k => hclose.mgr.reads ▸ hreads k
        exact (h.account hreads' account id hfound).2.symm.trans (hclose.mgr.account hreads' id).symm
      exact Or.inl (hclose.trans (Calm.modifyInfo _ id rfl haccount rfl))
  · rename_i hfound
    split
    · exact Or.inl (Calm.refl g)
    · rename_i p m htake
      exact Or.inr ⟨p, hfound, Takes.of_takeFree hfound htake, rfl, rfl, rfl, rfl, rfl⟩

section handlers

variable {P : Protocol} {F : Packet → Prop} {T : ClientManager → ℤ → Prop} {g : Gate} {info : JmyMsgInfo}

theorem Moves.processGetRoleRequest {time : ℤ} (h : ClientTables g.mgr)
    (hF : ∀ data, F ⟨none, MsgId.gt2gsGetRoleRequest, data⟩) (hT : TakesOnly P T time g info.data) :
    Moves F T g (ClientHandler.processGetRoleRequest P time g info).2 := by
  unfold ClientHandler.processGetRoleRequest
  split
  · exact .calm (Calm.refl g)
  split
  · exact .calm (Calm.refl g)
  rename_i request hparse
  have hnewT := hT request hparse
  have hkick := Calm.kick (F := F) g (g.mgr.getClientInfoByAccount request.account)
  dsimp only
  generalize ClientHandler.kick g (g.mgr.getClientInfoByAccount request.account) = g₁ at hnewT hkick ⊢
  have hcheck := hkick.trans (Calm.checkSession g₁ time request.account request.enterSession)
  generalize g₁.mgr.checkSessionByAccount time request.account request.enterSession = check
    at hnewT hcheck ⊢
  split_ifs with hsession
  · exact .calm (hcheck.trans (Calm.sendError P _ _ _))
  rw [Bool.not_eq_false] at hsession
  have hnew : Moves F T g (Gate.newClient { g₁ with mgr := check.2 } request.account).2 := by
    apply Moves.trans (.calm hcheck)
    rcases newClient_cases (hcheck.mgr.tables h) request.account with
      hcalm | ⟨p, hfree, htakes, hconn, htrace, hagent, hmax, hqueue⟩
    · exact .calm hcalm
    · refine .takes htakes hconn htrace hagent hmax hqueue ?_
      exact hnewT check.2 (Prod.ext hsession rfl) hfree p htakes.head
  split
  · rename_i g₃ hg₃
    rw [hg₃] at hnew
    exact hnew.trans (.calm (Calm.sendError P _ _ _))
  rename_i p g₃ hg₃
  rw [hg₃] at hnew
  dsimp only at hnew ⊢
  split
  · exact hnew.trans (.calm ((Calm.sendError P _ _ _).trans (Calm.clientClose _ p)))
  have hbind := Calm.bindConn (F := F) g₃ info.connId p
  split
  · exact hnew.trans (.calm hbind)
  · exact hnew.trans (.calm (hbind.trans (Calm.answer (Calm.sendGameMsg _ _ _ (hF _)))))

theorem Calm.processCreateRoleRequest (hF : ∀ data, F ⟨none, MsgId.gt2gsCreateRoleRequest, data⟩) :
    Calm F g (ClientHandler.processCreateRoleRequest P g info).2 := by
  unfold ClientHandler.processCreateRoleRequest
  split
  · exact refl g
  split
  · exact refl g
  split
  · exact refl g
  split
  · exact refl g
  · exact sendGameMsg g _ _ (hF _)

theorem Calm.processEnterGameRequest (hF : ∀ p ∈ g.mgr.clientArray.usedIds, ∀ roleId,
      F ⟨some (BitVec.ofInt 32 (g.mgr.info p).id), MsgId.gt2gsEnterGameRequest,
        short (P.enterGameRequest.serialize roleId)⟩) :
    Calm F g (ClientHandler.processEnterGameRequest P g info).2 := by
  unfold ClientHandler.processEnterGameRequest
  split
  · exact refl g
  split
  · exact refl g
  rename_i p hp
  split_ifs
  · exact sendError P g _ _
  split
  · exact refl g
  · rename_i tmp htmp
    rw [Codec.eq_serialize htmp]
    exact sendGameUserMsg g _ _ _ (hF p (getClientInfoByConnId_eq_some hp) _)

theorem Calm.processLeaveGameRequest (hF : ∀ userId, F ⟨some userId, MsgId.gt2gsLeaveGameRequest,
      short (P.leaveGameRequest.serialize 0)⟩) :
    Calm F g (ClientHandler.processLeaveGameRequest P g info).2 := by
  unfold ClientHandler.processLeaveGameRequest
  split
  · exact refl g
  rename_i p hp
  have hclose := clientClose (F := F) g p
  dsimp only
  split
  · exact hclose
  · rename_i tmp htmp
    rw [Codec.eq_serialize htmp]
    exact hclose.trans (answer (sendGameUserMsg _ _ _ _ (hF _)))

theorem Calm.processReconnectRequest {session : Str} :
    Calm F g (ClientHandler.processReconnectRequest P session g info).2 := by
  unfold ClientHandler.processReconnectRequest
  split
  · exact refl g
  split
  · exact refl g
  split
  · exact sendError P g _ _
  rename_i p hp
  have hclose : Calm F g (if g.clientConn p = some info.connId then g else g.clientForceClose p) := by
    split_ifs
    · exact refl g
    · exact clientForceClose g p
  dsimp only
  generalize (if g.clientConn p = some info.connId then g else g.clientForceClose p) = g₁ at hclose ⊢
  have hset := hclose.trans (modifyInfo g₁ p (f := fun ci => { ci with reconnSession := session })
    rfl (fun _ => rfl) rfl)
  split
  · exact hset.trans (sendError P _ _ _)
  · exact hset.trans (answer (connSend _ _ _ _))

theorem Calm.processDefault (hF : ∀ userId data, F ⟨some userId, info.msgId, data⟩) :
    Calm F g (ClientHandler.processDefault P g info).2 := by
  unfold ClientHandler.processDefault
  split
  · exact refl g
  dsimp only
  split_ifs
  · exact sendError P g _ _
  · exact (sendGameUserMsg g _ _ _ (hF _ _)).trans (sendError P _ _ _)
  · exact sendGameUserMsg g _ _ _ (hF _ _)

theorem Moves.handleClient {time : ℤ} {session : Str} (h : ClientTables g.mgr)
    (hF : Carries P F g info.msgId)
    (hT : info.msgId = MsgId.c2sGetRoleRequest → TakesOnly P T time g info.data) :
    Moves F T g (ClientHandler.handle P time session g info).2 := by
  unfold ClientHandler.handle
  split_ifs with hmsg
  · exact .processGetRoleRequest h hF.getRole (hT hmsg)
  · exact .calm (Calm.processCreateRoleRequest hF.createRole)
  · exact .calm (Calm.processEnterGameRequest hF.enter)
  · exact .calm (Calm.processLeaveGameRequest hF.leave)
  · exact .calm Calm.processReconnectRequest
  · exact .calm (Calm.processDefault hF.forward)

theorem Moves.processGetRoleResponse {session : Str} (h : ClientTables g.mgr) :
    Moves F T g (GateGameHandler.processGetRoleResponse P session g info).2 := by
  unfold GateGameHandler.processGetRoleResponse
  split
  · exact .calm (Calm.refl g)
  rename_i response hparse
  have hobs : Calm F g (g.observe (.role response.account response.roleData.roleId)) :=
    Calm.observe g (fun _ _ => GateObs.noConfusion)
  dsimp only
  split
  · exact .calm hobs
  rename_i p hp
  split
  · split
    · exact .calm hobs
    · exact .calm (hobs.trans (Calm.answer (Calm.clientSend _ p MsgId.error _)))
  have hset := Calm.modifyInfo (F := F) (g.observe (.role response.account response.roleData.roleId)) p
    (f := fun ci => { ci with reconnSession := session }) rfl (fun _ => rfl) rfl
  split
  · exact .calm (hobs.trans hset)
  rename_i tmp htmp
  have hsend := hset.trans (Calm.clientSend _ p MsgId.s2cGetRoleResponse tmp)
  split
  · exact .calm (hobs.trans hsend)
  · apply Moves.trans (.calm (hobs.trans hsend))
    obtain ⟨new, hnew, hall⟩ := hsend.trace
    refine .setRole fun hreads => ⟨g.trace, new, ?_, hall⟩
    have hreads' : g.mgr.Intact := fun k => hsend.mgr.reads ▸ hreads k
    have haccount := (h.account hreads' _ p (getClientInfoByAccount_eq_some hp)).2
    rw [hnew, hsend.mgr.account hreads' p]
    exact (List.append_assoc _ _ _).trans (congrArg (fun a => g.trace ++
      GateObs.role a response.roleData.roleId :: new) haccount.symm)

theorem Moves.processCreateRoleResponse (h : ClientTables g.mgr) :
    Moves F T g (GateGameHandler.processCreateRoleResponse P g info).2 := by
  unfold GateGameHandler.processCreateRoleResponse
  split
  · exact .calm (Calm.refl g)
  rename_i response hparse
  have hobs : Calm F g (g.observe (.role response.account response.roleData.roleId)) :=
    Calm.observe g (fun _ _ => GateObs.noConfusion)
  dsimp only
  split
  · exact .calm hobs
  rename_i p hp
  have hset : Moves F T g { g.observe (.role response.account response.roleData.roleId) with
      mgr := g.mgr.modifyInfo p fun ci => ci.setRole response.roleData.roleId } := by
    apply Moves.trans (.calm hobs)
    refine .setRole fun hreads => ⟨g.trace, [], ?_, by simp⟩
    have haccount := (h.account hreads _ p (getClientInfoByAccount_eq_some hp)).2
    exact congrArg (fun a => g.trace ++ [GateObs.role a response.roleData.roleId]) haccount.symm
  split
  · exact hset
  · exact hset.trans (.calm (Calm.answer (Calm.clientSend _ p MsgId.s2cCreateRoleResponse _)))

theorem Calm.processDefaultGame : Calm F g (GateGameHandler.processDefault g info).2 := by
  unfold GateGameHandler.processDefault
  split
  · exact refl g
  split
  · exact refl g
  split
  · exact refl g
  · exact answer (clientSend g _ _ _)

/-- `processConnectGateRequest` makes an agent, and sends a response with it. -/
theorem processConnectGateRequest_cases (P : Protocol) (g : Gate) (info : JmyMsgInfo) :
    (GateGameHandler.processConnectGateRequest P g info).2 = g ∨
    g.gameAgent = none ∧ ∃ gameId,
      (GateGameHandler.processConnectGateRequest P g info = (-1, { g with gameAgent := some gameId }) ∨
        ∃ data, P.connectGateResponse.serializeToArray maxMsgSize
            ⟨g.maxConn, g.mgr.clientArray.startId⟩ = some data ∧
          (GateGameHandler.processConnectGateRequest P g info).2 =
            { (g.observe (.toGame ⟨none, MsgId.gt2gsConnectGateResponse, short data⟩)) with
              gameAgent := some gameId
              toGame := g.toGame ++ [⟨none, MsgId.gt2gsConnectGateResponse, short data⟩] }) := by
  unfold GateGameHandler.processConnectGateRequest
  split
  · exact Or.inl rfl
  rename_i gameId hparse
  dsimp only
  by_cases hagent : g.gameAgent.isSome = true
  · rw [Gate.newGameAgent, if_pos hagent]
    exact Or.inl rfl
  rw [Gate.newGameAgent, if_neg hagent]
  by_cases hrange : gameId < gameServerMinId ∨ gameServerMaxId < gameId
  · rw [if_pos hrange]
    exact Or.inl rfl
  rw [if_neg hrange]
  refine Or.inr ⟨by simpa using hagent, gameId, ?_⟩
  simp only [Bool.true_eq_false, if_false]
  split
  · exact Or.inl rfl
  · rename_i data hdata
    unfold Gate.sendGameMsg
    split_ifs with _ hneg hneg
    · exact Or.inr ⟨data, hdata, rfl⟩
    · exact Or.inr ⟨data, hdata, rfl⟩
    · exact Or.inl rfl
    · exact absurd (Int.negSucc_lt_zero 0) hneg

end handlers

end JmyGame
