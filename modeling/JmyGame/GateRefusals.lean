import JmyGame.GateQueues

/-! GetRole requests that are refused although their session is accepted. `newClient` has taken a slot and
an account by then, and `ClientInfo::close` does not give them back. -/

namespace JmyGame

open CArith

section kicked

variable {g : Gate} {account : Str} {p : ℤ}

/-- The kick takes the slot of the connection that is closed, and the account: what the removal reads of the erased
entry of the slot is the account. -/
def Frees (g : Gate) (account : Str) (q : ℤ) : Prop :=
  ∃ p ∈ g.mgr.getClientInfoByAccount account, g.Kicks p ∧
    q ∈ g.mgr.getClientInfoByConnId (g.mgr.info p).connId ∧ (g.mgr.info q).used = true ∧
      ∃ a ∈ g.mgr.accountIdBimap.find2 q, (g.mgr.reads g.mgr.removals).account a = account

/-- A kick that takes the slot. -/
theorem kicked_of_frees (h : Frees g account p) : (g.kicked account).mgr.accountIdBimap.find1 account = none ∧
    (g.kicked account).mgr.clientArray = g.mgr.clientArray.freed p := by
  obtain ⟨q, hq, hkicks, hmap, hused, a, ha, rfl⟩ := h
  rw [kicked_of_kicks hq hkicks]
  dsimp only
  rw [removeByConnId_of_client hmap hused ha]
  exact ⟨by rw [(FreedBiMap.remove2_of_present ha).2, if_pos rfl], rfl⟩

/-- A kick that does not take the slot leaves the account where it was. -/
theorem kicked_find1_of_not_frees (h : ∀ p, ¬Frees g account p) :
    (g.kicked account).mgr.accountIdBimap.find1 account = g.mgr.accountIdBimap.find1 account := by
  rcases kicked_cases g account with ⟨p, hp, hkicks⟩ | heq
  · rw [kicked_of_kicks hp hkicks]
    dsimp only
    unfold ClientManager.removeByConnId
    split
    · rfl
    rename_i id hid
    dsimp only
    have hremove : (m' : ClientManager) → m'.accountIdBimap =
        (g.mgr.accountIdBimap.remove2 (g.mgr.reads g.mgr.removals).account id).2 →
          (g.mgr.clientArray.freeId id).1 ≠ false →
            m'.accountIdBimap.find1 account = g.mgr.accountIdBimap.find1 account := by
      intro m' heq hfreed
      -- the account that is read would be this one
      cases hfind : g.mgr.accountIdBimap.find2 id with
      | none =>
          rw [heq, FreedBiMap.remove2_of_absent hfind]
      | some a =>
          rw [heq, (FreedBiMap.remove2_of_present hfind).2, if_neg]
          rintro rfl
          cases hget : g.mgr.clientArray.get id with
          | none =>
              rw [ClientArray.freeId, hget] at hfreed
              exact hfreed rfl
          | some q =>
              obtain ⟨rfl, -⟩ := ClientArray.get_eq_some hget
              rw [ClientArray.freeId, hget] at hfreed
              refine h id ⟨p, hp, hkicks, ?_, ?_, a, hfind, rfl⟩
              · exact Option.bind_eq_some_iff.2 ⟨id, hid, hget⟩
              · by_contra hused
                exact hfreed (congrArg Prod.fst (if_pos (Bool.not_eq_true _ ▸ hused)))
    split_ifs with hfreed
    · rfl
    · exact hremove _ rfl hfreed
    · exact hremove _ rfl hfreed
  · rw [heq]

@[simp] theorem kicked_maxConn (g : Gate) (account : Str) : (g.kicked account).maxConn = g.maxConn := by
  rcases kicked_cases g account with ⟨p, hp, hkicks⟩ | heq
  · rw [kicked_of_kicks hp hkicks]
  · rw [heq]

/-- The kick leaves the array as it was when there is no client to kick. -/
theorem kicked_of_unmapped (h : g.mgr.accountIdBimap.find1 account = none) : g.kicked account = g := by
  unfold Gate.kicked ClientManager.getClientInfoByAccount
  rw [h]
  rfl

end kicked

/-- There is no slot, or with the one that was taken there are too many clients. -/
def Refused (r : Option ℤ × Gate) : Prop :=
  r.1 = none ∨ r.2.maxConn ≤ r.2.mgr.clientArray.getUsedSize

/-- The slots, the tables and the other connections are the same. -/
structure SameSlots (g g' : Gate) (connId : ℤ) : Prop where
  free : g'.mgr.clientArray.freeIds = g.mgr.clientArray.freeIds
  used : g'.mgr.clientArray.usedIds = g.mgr.clientArray.usedIds
  accounts : g'.mgr.accountIdBimap = g.mgr.accountIdBimap
  connids : g'.mgr.connidIdBimap = g.mgr.connidIdBimap
  conns : ∀ c, c ≠ connId → g'.connState c = g.connState c

/-- The request takes a slot, new or from the client that was kicked, and the gate is full with it. -/
def TakesLast (g : Gate) (account : Str) : Prop :=
  (g.mgr.accountIdBimap.find1 account = none ∧ ∃ id ∈ g.mgr.clientArray.freeIds.head?,
    g.maxConn ≤ (insert id g.mgr.clientArray.usedIds).card) ∨
  ∃ p ∈ g.mgr.getClientInfoByAccount account, g.Kicks p ∧
    ∃ q ∈ g.mgr.getClientInfoByConnId (g.mgr.info p).connId, (g.mgr.info q).used = true ∧
      (∃ a ∈ g.mgr.accountIdBimap.find2 q, (g.mgr.reads g.mgr.removals).account a = account) ∧
        g.maxConn ≤ (insert (g.mgr.info q).id g.mgr.clientArray.usedIds).card

instance (g : Gate) (account : Str) : Decidable (TakesLast g account) := inferInstanceAs (Decidable (_ ∨ _))

namespace SameSlots

variable {g g' g'' : Gate} {connId : ℤ}

theorem refl (g : Gate) (connId : ℤ) : SameSlots g g connId := ⟨rfl, rfl, rfl, rfl, fun _ _ => rfl⟩

theorem trans (h : SameSlots g g' connId) (h' : SameSlots g' g'' connId) : SameSlots g g'' connId :=
  ⟨h'.free.trans h.free, h'.used.trans h.used, h'.accounts.trans h.accounts, h'.connids.trans h.connids,
    fun c hc => (h'.conns c hc).trans (h.conns c hc)⟩

theorem sendError (P : Protocol) (g : Gate) (c connId : ℤ) (error : ProtoErrorType) :
    SameSlots g (g.sendError P c error) connId := by
  refine ⟨?_, ?_, ?_, ?_, ?_⟩
  · rw [Gate.sendError_mgr]
  · rw [Gate.sendError_mgr]
  · rw [Gate.sendError_mgr]
  · rw [Gate.sendError_mgr]
  · intro c _
    rw [Gate.sendError_connState]

theorem checkSession (g : Gate) (time : ℤ) (account session : Str) (connId : ℤ) :
    SameSlots g { g with mgr := (g.mgr.checkSessionByAccount time account session).2 } connId := by
  unfold ClientManager.checkSessionByAccount
  split
  · exact refl g connId
  · split_ifs
    · exact refl g connId
    · exact ⟨rfl, rfl, rfl, rfl, fun _ _ => rfl⟩

/-- `ClientInfo::close` of a client that could not be kicked closes nothing. -/
theorem clientClose {p : ℤ} (h : ¬g.Kicks p) : SameSlots g (g.clientClose p) connId := by
  unfold Gate.clientClose Gate.clientConn
  by_cases hused : (g.mgr.info p).used = false
  · rw [if_pos hused]
    exact refl g connId
  rw [if_neg hused]
  by_cases hconn : (g.mgr.info p).hasMgr = true ∧ (g.connState (g.mgr.info p).connId).isSome = true
  · have hclosed : g.connState (g.mgr.info p).connId ≠ some .connected := by
      intro hopen
      apply h
      refine ⟨by simpa using hused, hconn.1, Option.isSome_iff_ne_none.1 hconn.2, ?_⟩
      rw [hopen]
      decide
    rw [if_pos hconn]
    dsimp only
    unfold Gate.connClose
    rw [if_neg hclosed]
    exact ⟨rfl, rfl, rfl, rfl, fun _ _ => rfl⟩
  · rw [if_neg hconn]
    exact refl g connId

end SameSlots

section traceless

variable {P : Protocol} {time : ℤ} {g : Gate} {info : JmyMsgInfo} {account : Str}

/-- An account that has a slot gets this slot, and no other is taken. -/
theorem newClient_of_mapped {id : ℤ} (h : g.mgr.accountIdBimap.find1 account = some id)
    (hnot : g.mgr.clientArray.get id = some id → ¬g.Kicks id) (connId : ℤ) :
    SameSlots g (g.newClient account).2 connId ∧
      ∀ p, (g.newClient account).1 = some p → ¬(g.newClient account).2.Kicks p := by
  unfold Gate.newClient
  rw [h]
  dsimp only
  cases hget : g.mgr.clientArray.get id with
  | none =>
      refine ⟨SameSlots.refl g connId, ?_⟩
      intro p hp
      cases hp
  | some p =>
      obtain ⟨rfl, -⟩ := ClientArray.get_eq_some hget
      replace hnot := hnot hget
      dsimp only
      rw [Gate.clientForceClose_of_not_kicks hnot]
      refine ⟨⟨rfl, rfl, rfl, rfl, fun _ _ => rfl⟩, ?_⟩
      intro q hq
      cases hq
      unfold Gate.Kicks at hnot ⊢
      dsimp only
      rw [info_modifyInfo_self]
      exact hnot

/-- A new account takes the first free slot. -/
theorem newClient_of_free {id : ℤ} {rest : List ℤ} (h : g.mgr.accountIdBimap.find1 account = none)
    (hfree : g.mgr.clientArray.freeIds = id :: rest) :
    ∃ g', g.newClient account = (some id, g') ∧ g'.maxConn = g.maxConn ∧
      g'.mgr.clientArray.freeIds = rest ∧
      g'.mgr.clientArray.usedIds = insert id g.mgr.clientArray.usedIds := by
  unfold Gate.newClient ClientManager.takeFree ClientArray.getFree
  rw [h, hfree]
  exact ⟨_, rfl, rfl, rfl, rfl⟩

theorem newClient_of_empty (h : g.mgr.accountIdBimap.find1 account = none)
    (hfree : g.mgr.clientArray.freeIds = []) : g.newClient account = (none, g) := by
  unfold Gate.newClient ClientManager.takeFree ClientArray.getFree
  rw [h, hfree]
  rfl

/-- A refused request whose slot was there already leaves no trace. -/
theorem enrol_refused {r : Option ℤ × Gate} (hrefused : Refused r) (hnot : ∀ p, r.1 = some p → ¬r.2.Kicks p)
    (connId : ℤ) : SameSlots r.2 (Gate.enrol P info r).2 connId := by
  obtain ⟨slot, g⟩ := r
  cases slot with
  | none => exact SameSlots.sendError P g _ _ _
  | some p =>
      rcases hrefused with hnone | hfull
      · cases hnone
      · unfold Gate.enrol
        dsimp only at hfull ⊢
        rw [if_pos hfull]
        refine (SameSlots.sendError P g info.connId connId .enterGamePlayerCountMaximum).trans ?_
        apply SameSlots.clientClose
        unfold Gate.Kicks
        rw [Gate.sendError_mgr, Gate.sendError_connState]
        exact hnot p rfl

theorem enrol_freeIds (P : Protocol) (info : JmyMsgInfo) (r : Option ℤ × Gate) :
    (Gate.enrol P info r).2.mgr.clientArray.freeIds = r.2.mgr.clientArray.freeIds := by
  obtain ⟨slot, g⟩ := r
  cases slot with
  | none =>
      unfold Gate.enrol
      rw [Gate.sendError_mgr]
  | some p =>
      unfold Gate.enrol
      dsimp only
      by_cases hfull : g.maxConn ≤ g.mgr.clientArray.getUsedSize
      · rw [if_pos hfull]
        unfold Gate.clientClose
        split_ifs
        · rw [Gate.sendError_mgr]
        · split
          · rw [Gate.sendError_mgr]
          · unfold Gate.connClose
            split_ifs
            · rw [← Gate.sendError_mgr P g info.connId .enterGamePlayerCountMaximum]
              rfl
            · rw [← Gate.sendError_mgr P g info.connId .enterGamePlayerCountMaximum]
              rfl
      · rw [if_neg hfull]
        split
        · rfl
        · rw [apply_ite Prod.snd, ite_self, Gate.sendGameMsg_mgr]
          rfl

/-- A request that is refused although its session is accepted changes neither slots, nor tables, nor
other connections, apart from the kick of the client that the account had. -/
def GetRoleTraceless (P : Protocol) (time : ℤ) (g : Gate) (info : JmyMsgInfo) : Prop :=
  g.connState info.connId ≠ none → ∀ request, P.c2sGetRoleRequest.parse info.data = some request →
    (g.mgr.checkSessionByAccount time request.account request.enterSession).1 = true →
      Refused ((g.checked time request.account request.enterSession).newClient request.account) →
        SameSlots (g.kicked request.account) (ClientHandler.processGetRoleRequest P time g info).2 info.connId

/-- The slot is taken behind the kick. -/
theorem takesLast_iff : TakesLast g account ↔ (g.kicked account).mgr.accountIdBimap.find1 account = none ∧
    ∃ id rest, (g.kicked account).mgr.clientArray.freeIds = id :: rest ∧
      g.maxConn ≤ (insert id (g.kicked account).mgr.clientArray.usedIds).card := by
  have hinsert : ∀ id, insert id (g.mgr.clientArray.usedIds.erase id) = insert id g.mgr.clientArray.usedIds := by
    intro id
    ext id'
    by_cases hid : id' = id
    · simp [hid]
    · simp [hid]
  constructor
  · rintro (⟨hnone, id, hhead, hfull⟩ | ⟨p, hp, hkicks, q, hmap, hused, haccount, hfull⟩)
    · obtain ⟨rest, hfree⟩ := List.head?_eq_some_iff.1 (Option.mem_def.1 hhead)
      rw [kicked_of_unmapped hnone]
      exact ⟨hnone, id, rest, hfree, hfull⟩
    · obtain ⟨hnone, harray⟩ := kicked_of_frees ⟨p, hp, hkicks, hmap, hused, haccount⟩
      refine ⟨hnone, ?_⟩
      rw [harray]
      refine ⟨(g.mgr.info q).id, g.mgr.clientArray.freeIds, rfl, ?_⟩
      change g.maxConn ≤ (insert (g.mgr.info q).id (g.mgr.clientArray.usedIds.erase (g.mgr.info q).id)).card
      rw [hinsert]
      exact hfull
  · rintro ⟨hnone, id, rest, hfree, hfull⟩
    by_cases hfrees : ∃ q, Frees g account q
    · obtain ⟨q, hfrees⟩ := hfrees
      rw [(kicked_of_frees hfrees).2] at hfree hfull
      obtain ⟨rfl, -⟩ := List.cons.inj (hfree : (g.mgr.info q).id :: g.mgr.clientArray.freeIds = id :: rest)
      change g.maxConn ≤ (insert (g.mgr.info q).id (g.mgr.clientArray.usedIds.erase (g.mgr.info q).id)).card
        at hfull
      rw [hinsert] at hfull
      obtain ⟨p, hp, hkicks, hmap, hused, haccount⟩ := hfrees
      exact Or.inr ⟨p, hp, hkicks, q, hmap, hused, haccount, hfull⟩
    · rw [kicked_find1_of_not_frees (not_exists.1 hfrees)] at hnone
      rw [kicked_of_unmapped hnone] at hfree hfull
      exact Or.inl ⟨hnone, id, List.head?_eq_some_iff.2 ⟨rest, hfree⟩, hfull⟩

/-- An accepted request that is refused afterwards leaves no trace exactly when it took no slot. -/
theorem refused_traceless_iff {request : MsgGetRoleRequest} (hconn : g.connState info.connId ≠ none)
    (hparse : P.c2sGetRoleRequest.parse info.data = some request)
    (haccept : (g.mgr.checkSessionByAccount time request.account request.enterSession).1 ≠ false) :
    (Refused ((g.checked time request.account request.enterSession).newClient request.account) →
      SameSlots (g.kicked request.account) (ClientHandler.processGetRoleRequest P time g info).2 info.connId) ↔
        ¬TakesLast g request.account := by
  obtain ⟨account, session⟩ := request
  dsimp only at haccept ⊢
  rw [processGetRoleRequest_accepted hconn hparse haccept, takesLast_iff]
  have hcheck : SameSlots (g.kicked account) (g.checked time account session) info.connId :=
    SameSlots.checkSession (g.kicked account) time account session info.connId
  rw [← kicked_maxConn g account, ← hcheck.free, ← hcheck.used, ← hcheck.accounts]
  constructor
  · rintro h ⟨hnone, id, rest, hfree, hfull⟩
    obtain ⟨g', hnew, hmax, hfree', hused'⟩ := newClient_of_free hnone hfree
    rw [hnew] at h
    have hrefused : Refused (some id, g') := by
      refine Or.inr ?_
      change g'.maxConn ≤ (g'.mgr.clientArray.usedIds.card : ℤ)
      rw [hmax, hused']
      exact hfull
    have hsame := (h hrefused).free
    rw [enrol_freeIds, hfree', ← hcheck.free, hfree] at hsame
    exact List.cons_ne_self _ _ hsame.symm
  · intro h hrefused
    refine hcheck.trans ?_
    cases hfind : (g.checked time account session).mgr.accountIdBimap.find1 account with
    | some id =>
        have hnot : (g.checked time account session).mgr.clientArray.get id = some id →
            ¬(g.checked time account session).Kicks id := by
          obtain ⟨harray, hbimap, -, -⟩ := Shrinks.checkSession_fields (g.kicked account).mgr time account session
          intro hget
          have hkicked := not_kicks_kicked (hbimap ▸ hfind) (harray ▸ hget)
          unfold Gate.Kicks ClientManager.info at hkicked ⊢
          rw [← harray] at hkicked
          exact hkicked
        obtain ⟨hsame, hkicks⟩ := newClient_of_mapped hfind hnot info.connId
        exact hsame.trans (enrol_refused hrefused hkicks info.connId)
    | none =>
        cases hfree : (g.checked time account session).mgr.clientArray.freeIds with
        | nil =>
            rw [newClient_of_empty hfind hfree] at hrefused ⊢
            exact enrol_refused hrefused (fun p hp => by cases hp) info.connId
        | cons id rest =>
            -- a slot is taken, so that the gate must be full with it
            obtain ⟨g', hnew, hmax, -, hused'⟩ := newClient_of_free hfind hfree
            rw [hnew] at hrefused
            refine absurd ⟨hfind, id, rest, hfree, ?_⟩ h
            rcases hrefused with hnone | hfull
            · cases hnone
            · change g'.maxConn ≤ (g'.mgr.clientArray.usedIds.card : ℤ) at hfull
              rw [hmax, hused'] at hfull
              exact hfull

/-- A refused request leaves no trace exactly when it did not take the last slot. -/
theorem getRole_traceless_iff (P : Protocol) (time : ℤ) (g : Gate) (info : JmyMsgInfo) :
    GetRoleTraceless P time g info ↔ (g.connState info.connId ≠ none →
      ∀ request, P.c2sGetRoleRequest.parse info.data = some request →
        (g.mgr.checkSessionByAccount time request.account request.enterSession).1 = true →
          ¬TakesLast g request.account) := by
  constructor
  · intro h hconn request hparse haccept
    exact (refused_traceless_iff hconn hparse (by rw [haccept]; decide)).1 (h hconn request hparse haccept)
  · intro h hconn request hparse haccept
    exact (refused_traceless_iff hconn hparse (by rw [haccept]; decide)).2 (h hconn request hparse haccept)

end traceless

/-- One connection, and a session for account `a`. -/
def knockRun : List GateEvent := [.connect, .session 0 [97] [1]]

/-- The client that fills a gate is refused, but keeps its slot. -/
theorem getRole_keeps_slot : ∃ g, (gateMachine wire).run (.start 1) knockRun = some g ∧
    ¬GetRoleTraceless wire 0 g ⟨0, MsgId.c2sGetRoleRequest, getRoleData [1], (getRoleData [1]).length, 1⟩ := by
  have hsees : ((gateMachine wire).run (.start 1) knockRun).map (fun g =>
      (decide (g.connState 1 = none), (g.mgr.checkSessionByAccount 0 [97] [1]).1,
        decide (((g.checked 0 [97] [1]).newClient [97]).2.maxConn ≤
          ((g.checked 0 [97] [1]).newClient [97]).2.mgr.clientArray.getUsedSize),
        (g.kicked [97]).mgr.clientArray.freeIds, (ClientHandler.processGetRoleRequest wire 0 g
          ⟨0, MsgId.c2sGetRoleRequest, getRoleData [1], (getRoleData [1]).length, 1⟩).2.mgr.clientArray.freeIds)) =
            some (false, true, true, [100000], []) := by decide +kernel
  obtain ⟨g, hg, hsees⟩ := Option.map_eq_some_iff.1 hsees
  obtain ⟨hconn, hsees⟩ := Prod.mk.inj hsees
  obtain ⟨haccept, hsees⟩ := Prod.mk.inj hsees
  obtain ⟨hfull, hsees⟩ := Prod.mk.inj hsees
  obtain ⟨hbefore, hafter⟩ := Prod.mk.inj hsees
  refine ⟨g, hg, ?_⟩
  intro h
  have hparse : wire.c2sGetRoleRequest.parse (getRoleData [1]) = some ⟨[97], [1]⟩ := by decide +kernel
  have hkept := (h (of_decide_eq_false hconn) ⟨[97], [1]⟩ hparse haccept (Or.inr (of_decide_eq_true hfull))).free
  rw [hbefore, hafter] at hkept
  cases hkept

end JmyGame
