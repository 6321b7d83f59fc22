import JmyGame.GateMoves
import JmyGame.GateQueues

/-! The roles of the gate's clients. A role response of the game server is for an account and is stored
in the slot of this account; a client enters the game with the role in its slot. The slot of a client
that is gone keeps its role, and the next client that gets the slot enters the game with it: the roles
are right in every run in which no slot with a role is given out again. The removals read the values of
the entries that they erase. -/

namespace JmyGame

open CArith

/-- The account that the slot was last given to, and what happened since. -/
def sinceAlloc (p : ℤ) (trace : List GateObs) : Option (Str × List GateObs) :=
  trace.foldl (fun acc o => if let .alloc p' a := o then
      if p' = p then some (a, []) else acc.map fun r => (r.1, r.2 ++ [o])
    else acc.map fun r => (r.1, r.2 ++ [o])) none

/-- A response for the account gave the role to the slot since it was given to the account. -/
def RoleSince (trace : List GateObs) (p : ℤ) (account : Str) (roleId : BitVec 64) : Prop :=
  ∃ since, sinceAlloc p trace = some (account, since) ∧ GateObs.role account roleId ∈ since

theorem sinceAlloc_append_alloc (p : ℤ) (trace : List GateObs) (account : Str) :
    sinceAlloc p (trace ++ [.alloc p account]) = some (account, []) := by
  rw [sinceAlloc, List.foldl_append]
  simp

theorem sinceAlloc_append {p : ℤ} {new : List GateObs} (hnew : ∀ a, GateObs.alloc p a ∉ new)
    (trace : List GateObs) :
    sinceAlloc p (trace ++ new) = (sinceAlloc p trace).map fun r => (r.1, r.2 ++ new) := by
  induction new generalizing trace with
  | nil => simp
  | cons o new ih =>
      have hone : sinceAlloc p (trace ++ [o]) = (sinceAlloc p trace).map fun r => (r.1, r.2 ++ [o]) := by
        rw [sinceAlloc, List.foldl_append]
        cases o with
        | alloc p' a =>
            have hne : p' ≠ p := by
              intro heq
              exact hnew a (heq ▸ List.mem_cons_self)
            simp [hne, sinceAlloc]
        | _ => rfl
      rw [List.append_cons trace o new, ih (fun a h => hnew a (List.mem_cons_of_mem o h)), hone,
        Option.map_map]
      congr 1
      funext r
      simp

/-- A slot in use was last given to its account, and its role came with a response since. -/
structure RolesFit (g : Gate) : Prop where
  tables : ClientTables g.mgr
  reads : g.mgr.Intact
  since : ∀ p ∈ g.mgr.clientArray.usedIds, ∃ since,
    sinceAlloc p g.trace = some ((g.mgr.info p).account, since) ∧
      ((g.mgr.info p).currRoleId ≠ 0 →
        GateObs.role (g.mgr.info p).account (g.mgr.info p).currRoleId ∈ since)

namespace RolesFit

variable {F : Packet → Prop} {T : ClientManager → ℤ → Prop} {g g' : Gate}

theorem start (maxConn : ℕ) : RolesFit (.start maxConn) :=
  ⟨ClientTables.init maxConn defaultClientStartId fun _ => .intact, fun _ => rfl,
    fun p hp => absurd hp (Finset.notMem_empty p)⟩

theorem calm (h : RolesFit g) (hc : Calm F g g') : RolesFit g' := by
  obtain ⟨new, hnew, hall⟩ := hc.trace
  refine ⟨hc.mgr.tables h.tables, hc.mgr.intact h.reads, fun p hp => ?_⟩
  obtain ⟨since, hsince, hrole⟩ := h.since p (hc.mgr.used hp)
  refine ⟨since ++ new, ?_, fun hne => ?_⟩
  · rw [hnew, sinceAlloc_append (hall p), hsince, hc.mgr.account h.reads p, Option.map_some]
  · rw [hc.mgr.role p] at hne ⊢
    rw [hc.mgr.account h.reads p]
    exact List.mem_append_left new (hrole hne)

/-- A slot without a role is given to an account. -/
theorem takes {account : Str} {p : ℤ} (h : RolesFit g) (ht : Takes g.mgr g'.mgr account p)
    (htrace : g'.trace = g.trace ++ [.alloc p account]) (hrole : (g.mgr.info p).currRoleId = 0) :
    RolesFit g' := by
  refine ⟨ht.tables h.tables, fun k => ht.reads ▸ h.reads k, fun p' hp' => ?_⟩
  rw [ht.used] at hp'
  by_cases heq : p' = p
  · subst heq
    refine ⟨[], ?_, fun hne => ?_⟩
    · rw [htrace, sinceAlloc_append_alloc, ht.account]
    · rw [ht.role] at hne
      exact absurd hrole hne
  · have hmem := (Finset.mem_insert.1 hp').resolve_left heq
    obtain ⟨since, hsince, hold⟩ := h.since p' hmem
    have hnew : ∀ a, GateObs.alloc p' a ∉ [GateObs.alloc p account] := by
      intro a hmem
      exact heq (GateObs.alloc.inj (List.mem_singleton.1 hmem)).1
    refine ⟨since ++ [.alloc p account], ?_, fun hne => ?_⟩
    · rw [htrace, sinceAlloc_append hnew, hsince, ht.others p' heq, Option.map_some]
    · rw [ht.others p' heq] at hne ⊢
      exact List.mem_append_left _ (hold hne)

/-- The role of a response is stored in the slot. -/
theorem setRole {p : ℤ} {roleId : BitVec 64} {before after : List GateObs} (h : RolesFit g)
    (htrace : g.trace = before ++ .role (g.mgr.info p).account roleId :: after)
    (hafter : ∀ p' a, GateObs.alloc p' a ∉ after) :
    RolesFit { g with mgr := g.mgr.modifyInfo p fun ci => ci.setRole roleId } := by
  refine ⟨h.tables.setRole, h.reads, fun p' hp' => ?_⟩
  by_cases heq : p' = p
  · subst heq
    obtain ⟨since, hsince, -⟩ := h.since p' hp'
    rw [info_modifyInfo_self, ClientInfo.setRole_account]
    refine ⟨since, hsince, fun _ => ?_⟩
    -- nothing was given out since the response, so that it came since the slot was
    have hnew : ∀ a, GateObs.alloc p' a ∉ GateObs.role (g.mgr.info p').account roleId :: after := by
      intro a hmem
      rcases List.mem_cons.1 hmem with h | h
      · cases h
      · exact hafter p' a h
    rw [htrace, sinceAlloc_append hnew] at hsince
    obtain ⟨r, -, heq⟩ := Option.map_eq_some_iff.1 hsince
    obtain ⟨-, rfl⟩ := Prod.mk.inj heq
    exact List.mem_append_right _ List.mem_cons_self
  · rw [info_modifyInfo_of_ne _ _ _ heq]
    exact h.since p' hp'

/-- The slots that are taken have no role. -/
theorem moves (hm : Moves F (fun m p => (m.info p).currRoleId = 0) g g') (h : RolesFit g) : RolesFit g' := by
  induction hm with
  | calm hc => exact h.calm hc
  | takes ht _ htrace _ _ _ hT => exact h.takes ht htrace hT
  | setRole htrace =>
      obtain ⟨before, after, htrace, hafter⟩ := htrace h.reads
      exact h.setRole htrace hafter
  | trans _ _ ih ih' => exact ih' (ih h)

/-- Only the tables and the trace matter. -/
theorem congr (h : RolesFit g) (hmgr : g'.mgr = g.mgr) (htrace : g'.trace = g.trace) : RolesFit g' := by
  refine ⟨hmgr ▸ h.tables, hmgr ▸ h.reads, ?_⟩
  rw [hmgr, htrace]
  exact h.since

end RolesFit

/-- A session is accepted, and the account gets a free slot in which the role of an earlier client is
left. -/
def TakesRole (time : ℤ) (request : MsgGetRoleRequest) (m : ClientManager) : Prop :=
  (m.checkSessionByAccount time request.account request.enterSession).1 = true ∧
    m.accountIdBimap.find1 request.account = none ∧
      ∃ p ∈ m.clientArray.freeIds.head?, (m.info p).currRoleId ≠ 0

instance (time : ℤ) (request : MsgGetRoleRequest) (m : ClientManager) :
    Decidable (TakesRole time request m) := inferInstanceAs (Decidable (_ ∧ _ ∧ _))

/-- The step is a `GetRole` request that gets a slot with the role of an earlier client. -/
def Recycles (P : Protocol) (g : Gate) : GateEvent → Prop
  | .client time _ _ msgId data => msgId = MsgId.c2sGetRoleRequest ∧
    ∃ request ∈ P.c2sGetRoleRequest.parse data,
      TakesRole time request (ClientHandler.kick g (g.mgr.getClientInfoByAccount request.account)).mgr
  | _ => False

instance (P : Protocol) (g : Gate) : ∀ e, Decidable (Recycles P g e)
  | .client _ _ _ _ _ => inferInstanceAs (Decidable (_ ∧ _))
  | .connect | .drop _ | .revive _ | .release _ | .session _ _ _ | .game _ _ _ _ =>
    inferInstanceAs (Decidable False)

theorem takesOnly_of_not_recycles {P : Protocol} {g : Gate} {time : ℤ} {session : Str} {connId : ℤ}
    {msgId : MsgId} {data : List Byte} (hmsg : msgId = MsgId.c2sGetRoleRequest)
    (hnot : ¬Recycles P g (.client time session connId msgId data)) :
    TakesOnly P (fun m p => (m.info p).currRoleId = 0) time g data := by
  intro request hparse check hcheck hfree p hhead
  by_contra hrole
  obtain ⟨harray, hbimap, -, -⟩ := Shrinks.checkSession_fields
    (ClientHandler.kick g (g.mgr.getClientInfoByAccount request.account)).mgr time request.account
    request.enterSession
  rw [hcheck] at harray hbimap
  dsimp only at harray hbimap
  simp only [ClientManager.info, harray, hbimap] at hfree hhead hrole
  exact hnot ⟨hmsg, request, hparse, congrArg Prod.fst hcheck, hfree, p, hhead, hrole⟩

theorem RolesFit.handleClient {P : Protocol} {g : Gate} {info : JmyMsgInfo} {time : ℤ} {session : Str}
    (h : RolesFit g) (hnot : ¬Recycles P g (.client time session info.connId info.msgId info.data)) :
    RolesFit (ClientHandler.handle P time session g info).2 := by
  have hmoves : Moves (fun _ => True) (fun m p => (m.info p).currRoleId = 0) g
      (ClientHandler.handle P time session g info).2 :=
    Moves.handleClient h.tables (Carries.always P g info.msgId)
      fun hmsg => takesOnly_of_not_recycles hmsg hnot
  exact h.moves hmoves

theorem RolesFit.handleGame {P : Protocol} {g : Gate} {info : JmyMsgInfo} {session : Str} (h : RolesFit g) :
    RolesFit (GateGameHandler.handle P session g info).2 := by
  unfold GateGameHandler.handle
  split_ifs
  · rcases processConnectGateRequest_cases P g info with heq | ⟨-, gameId, heq | ⟨data, -, heq⟩⟩
    · rw [heq]
      exact h
    · rw [heq]
      exact h.congr rfl rfl
    · rw [heq]
      have hobs : Calm (fun _ => True) g (g.observe (.toGame ⟨none, MsgId.gt2gsConnectGateResponse, short data⟩)) :=
        Calm.observe g (fun _ _ => GateObs.noConfusion)
      exact (h.calm hobs).congr rfl rfl
  · exact moves (F := fun _ => True) (.processGetRoleResponse h.tables) h
  · exact moves (F := fun _ => True) (.processCreateRoleResponse h.tables) h
  · exact h.calm (F := fun _ => True) Calm.processDefaultGame

theorem RolesFit.step {P : Protocol} {g g' : Gate} {e : GateEvent} (h : RolesFit g)
    (hnot : ¬Recycles P g e) (hstep : g.step P e = some g') : RolesFit g' := by
  cases e with
  | connect =>
      cases hstep
      exact h.congr rfl rfl
  | drop connId =>
      cases hstep
      exact h.calm (F := fun _ => True) (Calm.connForceClose g connId)
  | revive connId =>
      simp only [Gate.step, Option.ite_none_right_eq_some, Option.some.injEq] at hstep
      exact hstep.2 ▸ h.congr rfl rfl
  | release connId =>
      simp only [Gate.step, Option.ite_none_right_eq_some, Option.some.injEq] at hstep
      exact hstep.2 ▸ h.congr rfl rfl
  | session time account session =>
      cases hstep
      exact h.calm (F := fun _ => True) (Calm.newAccountSession g time account session)
  | client time session connId msgId data =>
      simp only [Gate.step, Option.ite_none_right_eq_some, Option.some.injEq] at hstep
      obtain ⟨-, rfl⟩ := hstep
      have hhandle : RolesFit (g.onClient P time session connId msgId data).2 := h.handleClient hnot
      exact hhandle.calm (F := fun _ => True) (Calm.closeOnError (Calm.refl _))
  | game session userId msgId data =>
      simp only [Gate.step, Option.ite_none_right_eq_some, Option.some.injEq] at hstep
      obtain ⟨-, rfl⟩ := hstep
      have hhandle : RolesFit (g.onGame P session userId msgId data).2 := h.handleGame
      unfold Gate.closeGameOnError
      split_ifs
      · exact hhandle.congr rfl rfl
      · exact hhandle

/-- `processEnterGameRequest` for a client: what it sends to the game server is the role of a response
for the account of the client, and without such a response the client is refused. -/
def EnterFits (P : Protocol) (g : Gate) (info : JmyMsgInfo) (p : ℤ) : Prop :=
  let r := ClientHandler.processEnterGameRequest P g info
  (∀ packet, GateObs.toGame packet ∈ r.2.trace.drop g.trace.length →
    packet.msgId = MsgId.gt2gsEnterGameRequest ∧ ∃ roleId ≠ 0,
      RoleSince g.trace p (g.mgr.info p).account roleId ∧
        packet.data = short (P.enterGameRequest.serialize roleId)) ∧
  ((∀ roleId ≠ 0, ¬RoleSince g.trace p (g.mgr.info p).account roleId) →
    r = (-1, g.sendError P info.connId .enterGameInvalidAccount))

theorem sendError_trace (P : Protocol) (g : Gate) (connId : ℤ) (error : ProtoErrorType) (packet : Packet) :
    GateObs.toGame packet ∉ (g.sendError P connId error).trace.drop g.trace.length := by
  unfold Gate.sendError Gate.connSend
  split_ifs
  · simp [Gate.observe]
  · simp

theorem sendGameUserMsg_trace {g : Gate} {userId : ℤ} {msgId : MsgId} {data : List Byte} {packet : Packet}
    (h : GateObs.toGame packet ∈ (g.sendGameUserMsg userId msgId data).2.trace.drop g.trace.length) :
    packet = ⟨some (BitVec.ofInt 32 userId), msgId, short data⟩ := by
  unfold Gate.sendGameUserMsg at h
  split_ifs at h
  · simpa [Gate.observe] using h
  · simp at h

theorem RolesFit.enterFits {P : Protocol} {g : Gate} {info : JmyMsgInfo} {p : ℤ} (h : RolesFit g)
    (hconn : (g.connState info.connId).isSome = true)
    (hp : g.mgr.getClientInfoByConnId info.connId = some p) : EnterFits P g info p := by
  obtain ⟨state, hstate⟩ := Option.isSome_iff_exists.1 hconn
  obtain ⟨since, hsince, hrole⟩ := h.since p (getClientInfoByConnId_eq_some hp)
  unfold EnterFits ClientHandler.processEnterGameRequest
  simp only [hstate, hp]
  by_cases hzero : (g.mgr.info p).currRoleId = 0
  · rw [if_pos hzero]
    exact ⟨fun packet hpacket => absurd hpacket (sendError_trace P g _ _ packet), fun _ => rfl⟩
  · rw [if_neg hzero]
    have hgot : RoleSince g.trace p (g.mgr.info p).account (g.mgr.info p).currRoleId :=
      ⟨since, hsince, hrole hzero⟩
    refine ⟨fun packet hpacket => ?_, fun hnone => absurd hgot (hnone _ hzero)⟩
    split at hpacket
    · simp at hpacket
    · rename_i tmp htmp
      rw [sendGameUserMsg_trace hpacket, Codec.eq_serialize htmp]
      exact ⟨rfl, _, hzero, hgot, rfl⟩

/-- The slot that `newClient` gives an account. -/
def ClientManager.slotFor (m : ClientManager) (account : Str) : Option ℤ :=
  match m.accountIdBimap.find1 account with
  | some id => m.clientArray.get id
  | none => m.clientArray.freeIds.head?

/-- A session is accepted, and the connection or the slot that the account gets is in `connid_id_bimap_` already, so
that `insertConnIdId` fails. -/
def TakesBound (time : ℤ) (request : MsgGetRoleRequest) (connId : ℤ) (m : ClientManager) : Prop :=
  (m.checkSessionByAccount time request.account request.enterSession).1 = true ∧
    ∃ p ∈ m.slotFor request.account, m.connidIdBimap.find1 connId ≠ none ∨ m.connidIdBimap.find2 p ≠ none

instance (time : ℤ) (request : MsgGetRoleRequest) (connId : ℤ) (m : ClientManager) :
    Decidable (TakesBound time request connId m) := inferInstanceAs (Decidable (_ ∧ _))

/-- The step is a `GetRole` request whose client is not found under its connection afterwards. -/
def Unbound (P : Protocol) (g : Gate) : GateEvent → Prop
  | .client time _ connId msgId data => msgId = MsgId.c2sGetRoleRequest ∧
    ∃ request ∈ P.c2sGetRoleRequest.parse data,
      TakesBound time request connId (ClientHandler.kick g (g.mgr.getClientInfoByAccount request.account)).mgr
  | _ => False

instance (P : Protocol) (g : Gate) : ∀ e, Decidable (Unbound P g e)
  | .client _ _ _ _ _ => inferInstanceAs (Decidable (_ ∧ _))
  | .connect | .drop _ | .revive _ | .release _ | .session _ _ _ | .game _ _ _ _ =>
    inferInstanceAs (Decidable False)

/-- A connection leads to a client of the account. -/
def ClientOf (g : Gate) (connId : ℤ) (account : Str) : Prop :=
  ∃ p, g.mgr.getClientInfoByConnId connId = some p ∧ (g.mgr.info p).account = account

/-- A client that `newClient` gives a slot has the account in it, and the other table is left alone. -/
theorem newClient_slot {g g' : Gate} {account : Str} {p : ℤ} (h : ClientTables g.mgr)
    (hkick : ∀ p, g.mgr.accountIdBimap.find1 account = some p → g.mgr.clientArray.get p = some p → ¬g.Kicks p)
    (hnew : g.newClient account = (some p, g')) : p ∈ g.mgr.slotFor account ∧ g'.mgr.clientArray.get p = some p ∧
      (g'.mgr.info p).id = p ∧ (g'.mgr.info p).account = account ∧
        g'.mgr.connidIdBimap = g.mgr.connidIdBimap := by
  have hslot : ∀ o, g.mgr.accountIdBimap.find1 account = o →
      g.mgr.slotFor account = o.elim g.mgr.clientArray.freeIds.head? g.mgr.clientArray.get := by
    rintro o rfl
    unfold ClientManager.slotFor
    cases g.mgr.accountIdBimap.find1 account <;> rfl
  unfold Gate.newClient at hnew
  split at hnew
  · rename_i q hfound
    rw [hslot _ hfound]
    split at hnew
    · cases hnew
    rename_i q' hget
    obtain ⟨rfl, -⟩ := ClientArray.get_eq_some hget
    rw [Gate.clientForceClose_of_not_kicks (hkick q hfound hget)] at hnew
    cases hnew
    dsimp only
    rw [info_modifyInfo_self]
    exact ⟨hget, hget, h.ids p, rfl, rfl⟩
  · rename_i hfound
    rw [hslot _ hfound]
    split at hnew
    · cases hnew
    rename_i q m htake
    cases hnew
    have ht := Takes.of_takeFree hfound htake
    have hused : p ∈ (m.modifyInfo p fun ci => { ci with account := account }).clientArray.usedIds :=
      ht.used ▸ Finset.mem_insert_self _ _
    exact ⟨ht.head, (ht.tables h).get hused, (ht.tables h).ids p, ht.account, ht.connids⟩

section

variable {P : Protocol} {g g' : Gate} {info : JmyMsgInfo} {c p : ℤ} {account : Str}

theorem bindConn_client (hget : g.mgr.clientArray.get p = some p) (hid : (g.mgr.info p).id = p)
    (haccount : (g.mgr.info p).account = account) (hconn : g.mgr.connidIdBimap.find1 c = none)
    (hslot : g.mgr.connidIdBimap.find2 p = none) : ClientOf (ClientHandler.bindConn g c p) c account := by
  have hfind : (g.mgr.connidIdBimap.insert c (g.mgr.info p).id).2.find1 c = some p := by
    rw [hid, (FreedBiMap.insert_of_absent hconn hslot).2, if_pos rfl]
  refine ⟨p, Option.bind_eq_some_iff.2 ⟨p, hfind, hget⟩, ?_⟩
  unfold ClientHandler.bindConn
  rw [info_modifyInfo_self]
  exact haccount

/-- A client with room is bound to its connection, unless the answer to its request is an error. -/
theorem enrol_client {r : Option ℤ × Gate} (hok : 0 ≤ (Gate.enrol P info r).1)
    (hbind : ∀ p, r.1 = some p → ClientOf (ClientHandler.bindConn r.2 info.connId p) info.connId account) :
    ClientOf (Gate.enrol P info r).2 info.connId account := by
  obtain ⟨slot, g⟩ := r
  cases slot with
  | none => exact absurd (show (0 : ℤ) ≤ -1 from hok) (by decide)
  | some p =>
      have hclient := hbind p rfl
      unfold Gate.enrol at hok ⊢
      dsimp only at hok hclient ⊢
      by_cases hfull : g.maxConn ≤ g.mgr.clientArray.getUsedSize
      · rw [if_pos hfull] at hok
        exact absurd (show (0 : ℤ) ≤ -1 from hok) (by decide)
      rw [if_neg hfull]
      split
      · exact hclient
      · rw [apply_ite Prod.snd, ite_self, ClientOf, Gate.sendGameMsg_mgr]
        exact hclient

/-- A `GetRole` request that is answered without an error binds its connection to a client of its account. -/
theorem getRole_client {time : ℤ} {request : MsgGetRoleRequest} (h : ClientTables g.mgr)
    (hparse : P.c2sGetRoleRequest.parse info.data = some request)
    (hbound : ¬TakesBound time request info.connId
      (ClientHandler.kick g (g.mgr.getClientInfoByAccount request.account)).mgr)
    (hok : 0 ≤ (ClientHandler.processGetRoleRequest P time g info).1) :
    ClientOf (ClientHandler.processGetRoleRequest P time g info).2 info.connId request.account := by
  by_cases hconn : g.connState info.connId = none
  · rw [ClientHandler.processGetRoleRequest, hconn] at hok
    exact absurd (show (0 : ℤ) ≤ -1 from hok) (by decide)
  by_cases haccept : (g.mgr.checkSessionByAccount time request.account request.enterSession).1 = false
  · rw [processGetRoleRequest_rejected hconn hparse haccept] at hok
    exact absurd (show (0 : ℤ) ≤ -1 from hok) (by decide)
  rw [processGetRoleRequest_accepted hconn hparse haccept] at hok ⊢
  refine enrol_client hok fun p hp => ?_
  obtain ⟨account, session⟩ := request
  dsimp only at haccept hbound hp ⊢
  have haccept' : ((g.kicked account).mgr.checkSessionByAccount time account session).1 = true := by
    rw [checkSession_congr (kicked_sessions g account)]
    exact Bool.not_eq_false _ ▸ haccept
  obtain ⟨harray, haccounts, hconnids, -⟩ := Shrinks.checkSession_fields (g.kicked account).mgr time account session
  have htables : ClientTables (g.checked time account session).mgr :=
    (Shrinks.checkSession _ time account session).tables ((Calm.kick (F := fun _ => True) g _).mgr.tables h)
  have hkick : ∀ q, (g.checked time account session).mgr.accountIdBimap.find1 account = some q →
      (g.checked time account session).mgr.clientArray.get q = some q → ¬(g.checked time account session).Kicks q := by
    intro q hfind hget hkicks
    have hnot := not_kicks_kicked (haccounts ▸ hfind) (harray ▸ hget)
    unfold Gate.Kicks ClientManager.info at hkicks hnot
    rw [← harray] at hnot
    exact hnot hkicks
  obtain ⟨hslot, hget, hid, haccount, hsame⟩ := newClient_slot htables hkick (Prod.ext hp rfl)
  have hslot' : p ∈ (g.kicked account).mgr.slotFor account := by
    unfold ClientManager.slotFor at hslot ⊢
    rw [← haccounts, ← harray]
    exact hslot
  have hfree : (g.kicked account).mgr.connidIdBimap.find1 info.connId = none ∧
      (g.kicked account).mgr.connidIdBimap.find2 p = none := by
    by_contra hnot
    exact hbound ⟨haccept', p, hslot', not_and_or.1 hnot⟩
  have hconnids' := hsame.trans hconnids
  exact bindConn_client hget hid haccount (hconnids' ▸ hfree.1) (hconnids' ▸ hfree.2)

theorem not_up_connForceClose (g : Gate) (c : ℤ) : ¬(g.connForceClose c).Up c := by
  by_cases hopen : g.Up c
  · rw [Gate.connForceClose_of_open hopen.1 hopen.2]
    exact fun hup => hup.2 (Function.update_self _ _ _)
  · rwa [Gate.connForceClose_of_closed (or_iff_not_and_not.2 hopen)]

/-- A connection that is up behind its `GetRole` request leads to a client of the account. -/
theorem getRole_step_client {time : ℤ} {session : Str} {data : List Byte} {request : MsgGetRoleRequest}
    (h : ClientTables g.mgr) (hparse : P.c2sGetRoleRequest.parse data = some request)
    (hbound : ¬Unbound P g (.client time session c MsgId.c2sGetRoleRequest data))
    (hstep : g.step P (.client time session c MsgId.c2sGetRoleRequest data) = some g') (hup : g'.Up c) :
    ClientOf g' c request.account := by
  simp only [Gate.step, Option.ite_none_right_eq_some, Option.some.injEq] at hstep
  obtain ⟨-, rfl⟩ := hstep
  unfold Gate.closeOnError at hup ⊢
  split_ifs at hup ⊢ with herror
  · exact absurd hup (not_up_connForceClose _ c)
  · exact @getRole_client P g ⟨0, MsgId.c2sGetRoleRequest, data, data.length, c⟩ time request h hparse
      (fun htakes => hbound ⟨rfl, request, hparse, htakes⟩) (not_lt.1 herror)

theorem ClientOf.moves {F : Packet → Prop} {T : ClientManager → ℤ → Prop} (hclient : ClientOf g c account)
    (hm : Moves F T g g') (h : RolesFit g) (hup : g'.Up c) : ClientOf g' c account := by
  obtain ⟨p, hp, haccount⟩ := hclient
  obtain ⟨hp', hsame⟩ := (hm.client h.tables h.reads hup).2 p hp
  exact ⟨p, hp', hsame.trans haccount⟩

theorem ClientOf.handleGame {session : Str} (hclient : ClientOf g c account) (h : RolesFit g)
    (hup : (GateGameHandler.handle P session g info).2.Up c) :
    ClientOf (GateGameHandler.handle P session g info).2 c account := by
  unfold GateGameHandler.handle at hup ⊢
  split_ifs at hup ⊢
  · rcases processConnectGateRequest_cases P g info with heq | ⟨-, gameId, heq | ⟨data, -, heq⟩⟩
    all_goals
      rw [heq]
      exact hclient
  · exact hclient.moves (F := fun _ => True) (T := fun _ _ => True) (.processGetRoleResponse h.tables) h hup
  · exact hclient.moves (F := fun _ => True) (T := fun _ _ => True) (.processCreateRoleResponse h.tables) h hup
  · exact hclient.moves (F := fun _ => True) (T := fun _ _ => True) (.calm Calm.processDefaultGame) h hup

/-- A connection that is up has the client that it had. -/
theorem ClientOf.step {e : GateEvent} (hclient : ClientOf g c account) (h : RolesFit g)
    (hstep : g.step P e = some g') (hup : g'.Up c) : ClientOf g' c account := by
  cases e with
  | connect =>
      cases hstep
      exact hclient
  | drop connId =>
      cases hstep
      exact hclient.moves (F := fun _ => True) (T := fun _ _ => True) (.calm (Calm.connForceClose g connId)) h hup
  | revive connId =>
      simp only [Gate.step, Option.ite_none_right_eq_some, Option.some.injEq] at hstep
      exact hstep.2 ▸ hclient
  | release connId =>
      simp only [Gate.step, Option.ite_none_right_eq_some, Option.some.injEq] at hstep
      exact hstep.2 ▸ hclient
  | session time account session =>
      cases hstep
      exact hclient
  | client time session connId msgId data =>
      simp only [Gate.step, Option.ite_none_right_eq_some, Option.some.injEq] at hstep
      obtain ⟨-, rfl⟩ := hstep
      have hmoves : Moves (fun _ => True) (fun _ _ => True) g (g.onClient P time session connId msgId data).2 :=
        .handleClient h.tables (Carries.always P g msgId) fun _ _ _ _ _ _ _ _ => trivial
      exact hclient.moves (hmoves.trans (.calm (Calm.closeOnError (Calm.refl _)))) h hup
  | game session userId msgId data =>
      simp only [Gate.step, Option.ite_none_right_eq_some, Option.some.injEq] at hstep
      obtain ⟨-, rfl⟩ := hstep
      unfold Gate.closeGameOnError at hup ⊢
      split_ifs at hup ⊢
      · exact hclient.handleGame h hup
      · exact hclient.handleGame h hup

end

/-- The connection sent a `GetRole` request for the account, and was up all the time since. -/
def LoggedIn (P : Protocol) (start : Gate) (es : List GateEvent) (c : ℤ) (account : Str) : Prop :=
  ∃ before after time session data request g g',
    es = before ++ .client time session c MsgId.c2sGetRoleRequest data :: after ∧
      P.c2sGetRoleRequest.parse data = some request ∧ request.account = account ∧
        (gateMachine P).run start before = some g ∧
          g.step P (.client time session c MsgId.c2sGetRoleRequest data) = some g' ∧
            (gateMachine P).Along (fun g _ => g.Up c) g' after

/-- In every run in which no slot with a role is given out again, every client is bound to its connection and the
removals read the values of the entries that they erase, a client enters the game with a role of its own account, and
every connection that logged in and is up since has its client. -/
theorem enterGame_role (P : Protocol) {maxConn : ℕ} {reads : ℕ → FreedReads} (hreads : ∀ k, reads k = .intact)
    {es : List GateEvent} {g : Gate}
    (hfresh : (gateMachine P).Along (fun g e => ¬Recycles P g e ∧ ¬Unbound P g e)
      ((Gate.start maxConn).reading reads) es)
    (hrun : (gateMachine P).run ((Gate.start maxConn).reading reads) es = some g) :
    (∀ (info : JmyMsgInfo) p, (g.connState info.connId).isSome = true →
      g.mgr.getClientInfoByConnId info.connId = some p → EnterFits P g info p) ∧
    ∀ c account, LoggedIn P ((Gate.start maxConn).reading reads) es c account → g.Up c →
      ClientOf g c account := by
  obtain rfl : reads = fun _ => .intact := funext hreads
  have hstep : ∀ s e s', RolesFit s → ¬Recycles P s e ∧ ¬Unbound P s e → (gateMachine P).step s e = some s' →
      RolesFit s' := fun s e s' hs hnot hstep => hs.step hnot.1 hstep
  have hstart := RolesFit.start maxConn
  refine ⟨fun info p hconn hp => (Machine.invariant_along hstep hstart hfresh hrun).enterFits hconn hp, ?_⟩
  rintro c account ⟨before, after, time, session, data, request, g₀, g₁, rfl, hparse, rfl, hg₀, hg₁, halong⟩ hup
  obtain ⟨⟨hrecycles, hunbound⟩, hrest⟩ := hfresh.rest hg₀
  have hfit : RolesFit g₀ := Machine.invariant_along hstep hstart hfresh.first hg₀
  have hbound : g₁.Up c → ClientOf g₁ c request.account := getRole_step_client hfit.tables hparse hunbound hg₁
  rw [Machine.run_append, hg₀, Option.bind_some] at hrun
  obtain ⟨g₁', hg₁', hrun⟩ := ((gateMachine P).run_cons_eq_some).1 hrun
  obtain rfl := Option.some.inj (hg₁.symm.trans hg₁')
  -- while the connection is up, it keeps its client
  have hkept : RolesFit g ∧ (g.Up c → ClientOf g c request.account) :=
    Machine.invariant_along (m := gateMachine P)
      (I := fun g => RolesFit g ∧ (g.Up c → ClientOf g c request.account))
      (fun s e s' hs hnot hs' => ⟨hs.1.step hnot.1.1 hs', fun hup' => (hs.2 hnot.2).step hs.1 hs' hup'⟩)
      ⟨hfit.step hrecycles hg₁, hbound⟩ ((hrest g₁ hg₁).and halong) hrun
  exact hkept.2 hup

/-- The game server connects, and a client of the account `a` gets its role 7. -/
def roleRun : List GateEvent := [
  .game [] 0 MsgId.gs2gtConnectGateRequest (wire.connectGateRequest.serialize 40001),
  .connect,
  .session 0 [97] [1],
  .client 0 [] 1 MsgId.c2sGetRoleRequest (wire.c2sGetRoleRequest.serialize ⟨[97], [1]⟩),
  .game [2] 0 MsgId.gs2gtGetRoleResponse (wire.gs2gtGetRoleResponse.serialize ⟨[97], ⟨7, [], 0, 0, 0, 0⟩⟩)]

/-- The client of account `a` is gone, and a client of account `b` asks for its role. -/
def reuseRun : List GateEvent := roleRun ++ [
  .drop 1,
  .connect,
  .session 0 [98] [1],
  .client 0 [] 2 MsgId.c2sGetRoleRequest (wire.c2sGetRoleRequest.serialize ⟨[98], [1]⟩)]

def enterInfo (connId : ℤ) : JmyMsgInfo := ⟨0, MsgId.c2sEnterGameRequest, [], 0, connId⟩

/-- A client that got its role enters the game with it. -/
theorem enterGame_role_run : ∃ g, (gateMachine wire).run ((Gate.start 2).reading fun _ => .intact) roleRun = some g ∧
    EnterFits wire g (enterInfo 1) 100000 := by
  have hsees : ((gateMachine wire).run ((Gate.start 2).reading fun _ => .intact) roleRun).map (fun g =>
      ((g.connState 1).isSome, g.mgr.getClientInfoByConnId 1)) = some (true, some 100000) := rfl
  obtain ⟨g, hg, hsees⟩ := Option.map_eq_some_iff.1 hsees
  simp only [Prod.mk.injEq] at hsees
  exact ⟨g, hg, (@enterGame_role wire 2 _ (fun _ => rfl) roleRun g (by decide +kernel) hg).1 (enterInfo 1) 100000
    hsees.1 hsees.2⟩

/-- Where the removals read the entries that they erase, the slot of account `a` goes to account `b` with the role of
account `a` in it. -/
theorem reuseRun_intact : ∃ g, (gateMachine wire).run ((Gate.start 2).reading fun _ => .intact) reuseRun = some g ∧
    g.mgr.getClientInfoByConnId 2 = some 100000 ∧ (g.mgr.info 100000).account = [98] ∧
      ¬EnterFits wire g (enterInfo 2) 100000 := by
  have hsees : ((gateMachine wire).run ((Gate.start 2).reading fun _ => .intact) reuseRun).map (fun g =>
      (g.mgr.getClientInfoByConnId 2, (g.mgr.info 100000).account,
        (ClientHandler.processEnterGameRequest wire g (enterInfo 2)).1,
        sinceAlloc 100000 g.trace)) =
      some (some 100000, [98], 0, some ([98], [.toGame ⟨none, MsgId.gt2gsGetRoleRequest,
        wire.c2sGetRoleRequest.serialize ⟨[98], [1]⟩⟩])) := rfl
  obtain ⟨g, hg, hsees⟩ := Option.map_eq_some_iff.1 hsees
  simp only [Prod.mk.injEq] at hsees
  obtain ⟨hclient, haccount, henter, hsince⟩ := hsees
  refine ⟨g, hg, hclient, haccount, fun hfits => ?_⟩
  -- no response for the account `b` came, but the request is not refused
  have hrefused := hfits.2 (fun roleId _ hrole => by
    obtain ⟨since, heq, hmem⟩ := hrole
    rw [hsince, haccount] at heq
    cases heq
    simp at hmem)
  rw [hrefused] at henter
  cases henter

/-- Where the node of a connection is written over, the client of account `b` is bound to no connection. -/
theorem reuseRun_lost : ∃ g, (gateMachine wire).run ((Gate.start 2).reading lostIds) reuseRun = some g ∧
    (g.mgr.info 100000).account = [98] ∧ g.connState 2 = some .connected ∧
      ClientHandler.processEnterGameRequest wire g (enterInfo 2) = (-1, g) := by
  have hsees : ((gateMachine wire).run ((Gate.start 2).reading lostIds) reuseRun).map (fun g =>
      ((g.mgr.info 100000).account, g.connState 2, g.mgr.getClientInfoByConnId 2)) =
        some ([98], some .connected, none) := rfl
  obtain ⟨g, hg, hsees⟩ := Option.map_eq_some_iff.1 hsees
  simp only [Prod.mk.injEq] at hsees
  obtain ⟨haccount, hstate, hclient⟩ := hsees
  have hconn : g.connState (enterInfo 2).connId = some .connected := hstate
  have hnone : g.mgr.getClientInfoByConnId (enterInfo 2).connId = none := hclient
  refine ⟨g, hg, haccount, hstate, ?_⟩
  unfold ClientHandler.processEnterGameRequest
  rw [hconn, hnone]

/-- The client of account `b`, which no role response came for, enters the game with the role of account `a`, or is
told nothing. -/
theorem recycled_role :
    (∃ g, (gateMachine wire).run ((Gate.start 2).reading fun _ => .intact) reuseRun = some g ∧
      g.mgr.getClientInfoByConnId 2 = some 100000 ∧ (g.mgr.info 100000).account = [98] ∧
        ¬EnterFits wire g (enterInfo 2) 100000) ∧
    ∃ g, (gateMachine wire).run ((Gate.start 2).reading lostIds) reuseRun = some g ∧
      (g.mgr.info 100000).account = [98] ∧ g.connState 2 = some .connected ∧
        ClientHandler.processEnterGameRequest wire g (enterInfo 2) = (-1, g) :=
  ⟨reuseRun_intact, reuseRun_lost⟩

end JmyGame
