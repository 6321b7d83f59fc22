import JmyGame.GateHandlers

/-! Kicks. `processGetRoleRequest` closes the client that an account has already, before it looks at the
session and whatever connection this client is on. This says what a kick does, when an unauthenticated
request is harmless, and when the handlers leave the receive list of the connection alone whose packets
are being processed. -/

namespace JmyGame

open CArith

namespace Gate

variable (P : Protocol) (g : Gate) (connId p : ℤ) (msgId : MsgId) (data : List Byte)

@[simp] theorem connSend_mgr : (g.connSend connId msgId data).2.mgr = g.mgr := by
  unfold connSend
  split_ifs <;> rfl

@[simp] theorem connSend_connState : (g.connSend connId msgId data).2.connState = g.connState := by
  unfold connSend
  split_ifs <;> rfl

@[simp] theorem sendError_mgr (error : ProtoErrorType) : (g.sendError P connId error).mgr = g.mgr :=
  connSend_mgr _ _ _ _

@[simp] theorem sendError_connState (error : ProtoErrorType) :
    (g.sendError P connId error).connState = g.connState := connSend_connState _ _ _ _

@[simp] theorem sendGameMsg_mgr : (g.sendGameMsg msgId data).2.mgr = g.mgr := by
  unfold sendGameMsg
  split_ifs <;> rfl

@[simp] theorem sendGameMsg_connState : (g.sendGameMsg msgId data).2.connState = g.connState := by
  unfold sendGameMsg
  split_ifs <;> rfl

@[simp] theorem sendGameUserMsg_mgr (userId : ℤ) : (g.sendGameUserMsg userId msgId data).2.mgr = g.mgr := by
  unfold sendGameUserMsg
  split_ifs <;> rfl

@[simp] theorem sendGameUserMsg_connState (userId : ℤ) :
    (g.sendGameUserMsg userId msgId data).2.connState = g.connState := by
  unfold sendGameUserMsg
  split_ifs <;> rfl

/-- The slot is in use and its connection is there and not closed yet. -/
def Kicks : Prop :=
  (g.mgr.info p).used = true ∧ (g.mgr.info p).hasMgr = true ∧
    g.connState (g.mgr.info p).connId ≠ none ∧ g.connState (g.mgr.info p).connId ≠ some .disconnected

instance : Decidable (g.Kicks p) := inferInstanceAs (Decidable (_ ∧ _ ∧ _ ∧ _))

variable {g connId p}

theorem connForceClose_of_open (hsome : g.connState connId ≠ none)
    (hopen : g.connState connId ≠ some .disconnected) :
    g.connForceClose connId = { g with
      connState := Function.update g.connState connId (some .disconnected)
      mgr := (g.mgr.removeByConnId connId).2 } := by
  have hself : (g.setConn connId (some .disconnected)).connState connId = some .disconnected :=
    Function.update_self _ _ _
  unfold connForceClose
  split
  · rename_i h
    exact absurd h hsome
  · rename_i h
    exact absurd h hopen
  · unfold onDisconnect
    rw [hself]
    rfl

theorem connForceClose_of_closed (h : g.connState connId = none ∨ g.connState connId = some .disconnected) :
    g.connForceClose connId = g := by
  unfold connForceClose
  rcases h with h | h <;> rw [h]

/-- A client that is closed loses its connection and its slot. -/
theorem clientForceClose_of_kicks (h : g.Kicks p) : g.clientForceClose p = { g with
    connState := Function.update g.connState (g.mgr.info p).connId (some .disconnected)
    mgr := (g.mgr.removeByConnId (g.mgr.info p).connId).2 } := by
  obtain ⟨hused, hmgr, hsome, hopen⟩ := h
  unfold clientForceClose clientConn
  rw [if_neg (by rw [hused]; decide), if_pos ⟨hmgr, Option.isSome_iff_ne_none.2 hsome⟩]
  exact connForceClose_of_open hsome hopen

theorem clientForceClose_of_not_kicks (h : ¬g.Kicks p) : g.clientForceClose p = g := by
  unfold clientForceClose clientConn
  by_cases hused : (g.mgr.info p).used = false
  · rw [if_pos hused]
  rw [if_neg hused]
  by_cases hconn : (g.mgr.info p).hasMgr = true ∧ (g.connState (g.mgr.info p).connId).isSome = true
  · rw [if_pos hconn]
    apply connForceClose_of_closed
    by_contra hopen
    rw [not_or] at hopen
    exact h ⟨by simpa using hused, hconn.1, hopen⟩
  · rw [if_neg hconn]

end Gate

/-- What `removeByConnId` does to the slots: the one of the connection is not in use any more. -/
theorem removeByConnId_info (m : ClientManager) (connId p : ℤ) :
    (m.removeByConnId connId).2.info p = m.info p ∨
      (m.removeByConnId connId).2.info p = { m.info p with used := false } := by
  unfold ClientManager.removeByConnId
  split
  · exact Or.inl rfl
  rename_i id _
  dsimp only
  have hfree : (m.clientArray.freeId id).2.infoArray p = m.info p ∨
      (m.clientArray.freeId id).2.infoArray p = { m.info p with used := false } := by
    unfold ClientArray.freeId
    split
    · exact Or.inl rfl
    rename_i q _
    unfold ClientArray.free
    split_ifs
    · exact Or.inl rfl
    · by_cases hp : p = q
      · rw [hp]
        exact Or.inr (Function.update_self _ _ _)
      · exact Or.inl (Function.update_of_ne hp _ _)
  split_ifs
  · exact Or.inl rfl
  · exact hfree
  · exact hfree

@[simp] theorem removeByConnId_connId (m : ClientManager) (connId p : ℤ) :
    ((m.removeByConnId connId).2.info p).connId = (m.info p).connId := by
  rcases removeByConnId_info m connId p with hinfo | hinfo
  · rw [hinfo]
  · rw [hinfo]

theorem removeByConnId_find1 {m : ClientManager} {c : ℤ} {account : Str} {id : ℤ}
    (h : (m.removeByConnId c).2.accountIdBimap.find1 account = some id) :
    m.accountIdBimap.find1 account = some id := by
  unfold ClientManager.removeByConnId at h
  split at h
  · exact h
  · dsimp only at h
    split_ifs at h
    · exact h
    · exact FreedBiMap.find1_of_remove2 h
    · exact FreedBiMap.find1_of_remove2 h

theorem removeByConnId_conn {m : ClientManager} {connId c id : ℤ}
    (h : (m.removeByConnId connId).2.connidIdBimap.find1 c = some id) : m.connidIdBimap.find1 c = some id := by
  unfold ClientManager.removeByConnId at h
  split at h
  · exact h
  · dsimp only at h
    split_ifs at h
    · exact h
    · exact h
    · exact (FreedBiMap.remove1_find1.1 h).1

theorem clientForceClose_connId (g : Gate) (p q : ℤ) :
    ((g.clientForceClose p).mgr.info q).connId = (g.mgr.info q).connId := by
  by_cases hkicks : g.Kicks p
  · rw [Gate.clientForceClose_of_kicks hkicks]
    exact removeByConnId_connId g.mgr (g.mgr.info p).connId q
  · rw [Gate.clientForceClose_of_not_kicks hkicks]

theorem clientForceClose_find1 {g : Gate} {p : ℤ} {account : Str} {id : ℤ}
    (h : (g.clientForceClose p).mgr.accountIdBimap.find1 account = some id) :
    g.mgr.accountIdBimap.find1 account = some id := by
  by_cases hkicks : g.Kicks p
  · rw [Gate.clientForceClose_of_kicks hkicks] at h
    exact removeByConnId_find1 h
  · rw [Gate.clientForceClose_of_not_kicks hkicks] at h
    exact h

/-- A client is not closed twice. -/
theorem not_kicks_clientForceClose (g : Gate) (p : ℤ) : ¬(g.clientForceClose p).Kicks p := by
  by_cases h : g.Kicks p
  · rw [Gate.clientForceClose_of_kicks h]
    rintro ⟨-, -, -, hopen⟩
    apply hopen
    dsimp only
    rw [removeByConnId_connId]
    exact Function.update_self _ _ _
  · rw [Gate.clientForceClose_of_not_kicks h]
    exact h

@[simp] theorem removeByConnId_sessions (m : ClientManager) (connId : ℤ) :
    (m.removeByConnId connId).2.accountSessionMap = m.accountSessionMap := by
  unfold ClientManager.removeByConnId
  split
  · rfl
  · dsimp only
    split_ifs <;> rfl

/-- Nothing is removed for a connection without a client in use. -/
theorem removeByConnId_of_unused {m : ClientManager} {connId : ℤ}
    (h : ∀ q, m.getClientInfoByConnId connId = some q → (m.info q).used = false) :
    (m.removeByConnId connId).2 = m := by
  unfold ClientManager.removeByConnId
  split
  · rfl
  rename_i id hid
  have hfail : (m.clientArray.freeId id).1 = false := by
    unfold ClientArray.freeId
    cases hget : m.clientArray.get id with
    | none => rfl
    | some q =>
        have hq := h q (by rw [ClientManager.getClientInfoByConnId, hid]; exact hget)
        exact congrArg Prod.fst (if_pos hq : m.clientArray.free q = _)
  exact congrArg Prod.snd (if_pos hfail)

/-- The array after a slot in use was freed. -/
def ClientArray.freed (a : ClientArray) (p : ℤ) : ClientArray := { a with
  freeIds := (a.infoArray p).id :: a.freeIds
  usedIds := a.usedIds.erase (a.infoArray p).id
  infoArray := Function.update a.infoArray p { a.infoArray p with used := false } }

theorem freeId_of_used {m : ClientManager} {id p : ℤ} (hget : m.clientArray.get id = some p)
    (hused : (m.info p).used = true) : m.clientArray.freeId id = (true, m.clientArray.freed p) := by
  unfold ClientArray.freeId
  rw [hget]
  exact if_neg (by rw [show (m.clientArray.infoArray p).used = true from hused]; decide)

theorem removeByConnId_used {m : ClientManager} {connId q : ℤ}
    (h : m.getClientInfoByConnId connId = some q) (hused : (m.info q).used = true) :
    ((m.removeByConnId connId).2.info q).used = false := by
  obtain ⟨id, hid, hget⟩ := Option.bind_eq_some_iff.1 h
  have hfreed : ((m.clientArray.freed q).infoArray q).used = false := by
    unfold ClientArray.freed
    dsimp only
    rw [Function.update_self]
  unfold ClientManager.removeByConnId
  rw [hid]
  simp only [freeId_of_used hget hused, Bool.true_eq_false, if_false]
  split_ifs
  · exact hfreed
  · exact hfreed

/-- The client of a connection is removed from the array and from both tables. -/
theorem removeByConnId_of_client {m : ClientManager} {connId p : ℤ} {account : Str}
    (h : m.getClientInfoByConnId connId = some p) (hused : (m.info p).used = true)
    (haccount : m.accountIdBimap.find2 p = some account) :
    (m.removeByConnId connId).2 = { m with
      clientArray := m.clientArray.freed p
      accountIdBimap := (m.accountIdBimap.remove2 (m.reads m.removals).account p).2
      connidIdBimap := (m.connidIdBimap.remove1 (m.reads m.removals).id connId).2
      removals := m.removals + 1 } := by
  obtain ⟨id, hid, hget⟩ := Option.bind_eq_some_iff.1 h
  obtain ⟨rfl, -⟩ := ClientArray.get_eq_some hget
  unfold ClientManager.removeByConnId
  rw [hid]
  simp only [freeId_of_used hget hused, (FreedBiMap.remove2_of_present haccount).1, Bool.true_eq_false, if_false]

section harmless

variable {P : Protocol} {time : ℤ} {g : Gate} {info : JmyMsgInfo} {request : MsgGetRoleRequest}

/-- The gate after the client of the account was kicked. -/
def Gate.kicked (g : Gate) (account : Str) : Gate :=
  ClientHandler.kick g (g.mgr.getClientInfoByAccount account)

theorem kicked_of_kicks {account : Str} {p : ℤ} (hp : g.mgr.getClientInfoByAccount account = some p)
    (h : g.Kicks p) : g.kicked account = { g with
      connState := Function.update g.connState (g.mgr.info p).connId (some .disconnected)
      mgr := (g.mgr.removeByConnId (g.mgr.info p).connId).2 } := by
  unfold Gate.kicked
  rw [hp]
  exact Gate.clientForceClose_of_kicks h

theorem kicked_of_not_kicks {account : Str}
    (h : ∀ p, g.mgr.getClientInfoByAccount account = some p → ¬g.Kicks p) : g.kicked account = g := by
  unfold Gate.kicked
  cases hp : g.mgr.getClientInfoByAccount account with
  | none => rfl
  | some p => exact Gate.clientForceClose_of_not_kicks (h p hp)

theorem kicked_cases (g : Gate) (account : Str) :
    (∃ p, g.mgr.getClientInfoByAccount account = some p ∧ g.Kicks p) ∨ g.kicked account = g := by
  by_cases h : ∃ p, g.mgr.getClientInfoByAccount account = some p ∧ g.Kicks p
  · exact Or.inl h
  · exact Or.inr (kicked_of_not_kicks fun p hp hkicks => h ⟨p, hp, hkicks⟩)

@[simp] theorem kicked_sessions (g : Gate) (account : Str) :
    (g.kicked account).mgr.accountSessionMap = g.mgr.accountSessionMap := by
  rcases kicked_cases g account with ⟨p, hp, hkicks⟩ | heq
  · rw [kicked_of_kicks hp hkicks]
    exact removeByConnId_sessions _ _
  · rw [heq]

@[simp] theorem kicked_trace (g : Gate) (account : Str) : (g.kicked account).trace = g.trace := by
  rcases kicked_cases g account with ⟨p, hp, hkicks⟩ | heq
  · rw [kicked_of_kicks hp hkicks]
  · rw [heq]

/-- What a check answers is in the session map. -/
theorem checkSession_congr {m m' : ClientManager} (h : m'.accountSessionMap = m.accountSessionMap)
    (account session : Str) : (m'.checkSessionByAccount time account session).1 =
      (m.checkSessionByAccount time account session).1 := by
  unfold ClientManager.checkSessionByAccount
  rw [h]
  split
  · rfl
  · split_ifs <;> rfl

/-- The gate after the session of the account was checked, too. -/
def Gate.checked (g : Gate) (time : ℤ) (account session : Str) : Gate :=
  { g.kicked account with mgr := ((g.kicked account).mgr.checkSessionByAccount time account session).2 }

/-- A request whose session is not accepted. -/
theorem processGetRoleRequest_rejected (hconn : g.connState info.connId ≠ none)
    (hparse : P.c2sGetRoleRequest.parse info.data = some request)
    (hreject : (g.mgr.checkSessionByAccount time request.account request.enterSession).1 = false) :
    ClientHandler.processGetRoleRequest P time g info =
      (-1, (g.checked time request.account request.enterSession).sendError P info.connId
        .loginAccountOrPasswordInvalid) := by
  obtain ⟨state, hstate⟩ := Option.ne_none_iff_exists'.1 hconn
  have hreject' : ((g.kicked request.account).mgr.checkSessionByAccount time request.account
      request.enterSession).1 = false := by
    rw [checkSession_congr (kicked_sessions g request.account)]
    exact hreject
  unfold ClientHandler.processGetRoleRequest
  rw [hstate, hparse]
  exact if_pos hreject'

/-- What `processGetRoleRequest` does with the slot that it got, or did not get. -/
def Gate.enrol (P : Protocol) (info : JmyMsgInfo) : Option ℤ × Gate → ℤ × Gate
  | (none, g) => (-1, g.sendError P info.connId .enterGameInvalidAccount)
  | (some p, g) =>
    if g.maxConn ≤ g.mgr.clientArray.getUsedSize then
      (-1, (g.sendError P info.connId .enterGamePlayerCountMaximum).clientClose p)
    else
      let g' := ClientHandler.bindConn g info.connId p
      match P.gt2gsGetRoleRequest.serializeToArray maxMsgSize (g'.mgr.info p).account with
      | none => (-1, g')
      | some _ =>
        let sent := g'.sendGameMsg MsgId.gt2gsGetRoleRequest info.data
        if sent.1 < 0 then (-1, sent.2) else (info.len, sent.2)

/-- A request whose session is accepted. -/
theorem processGetRoleRequest_accepted (hconn : g.connState info.connId ≠ none)
    (hparse : P.c2sGetRoleRequest.parse info.data = some request)
    (haccept : (g.mgr.checkSessionByAccount time request.account request.enterSession).1 ≠ false) :
    ClientHandler.processGetRoleRequest P time g info = Gate.enrol P info
      ((g.checked time request.account request.enterSession).newClient request.account) := by
  obtain ⟨state, hstate⟩ := Option.ne_none_iff_exists'.1 hconn
  have haccept' : ((g.kicked request.account).mgr.checkSessionByAccount time request.account
      request.enterSession).1 ≠ false := by
    rw [checkSession_congr (kicked_sessions g request.account)]
    exact haccept
  unfold ClientHandler.processGetRoleRequest
  rw [hstate, hparse]
  exact if_neg haccept'

/-- Nothing changed but that the connection got errors. -/
structure Harmless (g g' : Gate) (connId : ℤ) : Prop where
  conns : ∀ c, c ≠ connId → g'.connState c = g.connState c
  infos : ∀ p, g'.mgr.info p = g.mgr.info p
  accounts : g'.mgr.accountIdBimap = g.mgr.accountIdBimap
  connids : g'.mgr.connidIdBimap = g.mgr.connidIdBimap
  sessions : g'.mgr.accountSessionMap = g.mgr.accountSessionMap
  errors : ∃ new, g'.trace = g.trace ++ new ∧ ∀ o ∈ new, ∃ data, o = .toClient connId MsgId.error data

/-- The kick of the client that the account has closes nothing, or the requesting connection alone, which
has no client in use. -/
def SparesClients (g : Gate) (account : Str) (connId : ℤ) : Prop :=
  ∀ p, g.mgr.getClientInfoByAccount account = some p → g.Kicks p → (g.mgr.info p).connId = connId ∧
    ∀ q, g.mgr.getClientInfoByConnId connId = some q → (g.mgr.info q).used = false

/-- The session that is stored for the account, if any, is another one. -/
def SparesSession (g : Gate) (account session : Str) : Prop :=
  ∀ si, g.mgr.accountSessionMap account = some si → si.session ≠ session

theorem checkSession_spares {m : ClientManager} {account session : Str}
    (h : ∀ si, m.accountSessionMap account = some si → si.session ≠ session) :
    (m.checkSessionByAccount time account session).2 = m := by
  unfold ClientManager.checkSessionByAccount
  split
  · rfl
  · rename_i si hsi
    exact congrArg Prod.snd (if_pos (h si hsi))

theorem sendError_errors (P : Protocol) (g : Gate) (connId : ℤ) (error : ProtoErrorType) :
    ∃ new, (g.sendError P connId error).trace = g.trace ++ new ∧
      ∀ o ∈ new, ∃ data, o = .toClient connId MsgId.error data := by
  unfold Gate.sendError Gate.connSend
  split_ifs
  · exact ⟨[_], rfl, fun o ho => ⟨_, List.mem_singleton.1 ho⟩⟩
  · exact ⟨[], (List.append_nil _).symm, fun o ho => absurd ho List.not_mem_nil⟩

/-- The check of a session touches no slot. -/
theorem checked_info (time : ℤ) (g : Gate) (account session : Str) (p : ℤ) :
    (g.checked time account session).mgr.info p = (g.kicked account).mgr.info p := by
  unfold Gate.checked ClientManager.checkSessionByAccount ClientManager.info
  split
  · rfl
  · split_ifs <;> rfl

/-- A kick that changes no other connection and no slot is one of the requesting connection, without a client. -/
theorem spares_clients_of_harmless {account session : Str} {connId : ℤ} {error : ProtoErrorType}
    (h : Harmless g ((g.checked time account session).sendError P connId error) connId) :
    SparesClients g account connId := by
  have hinfos : ∀ p, (g.kicked account).mgr.info p = g.mgr.info p := by
    intro p
    have hp := h.infos p
    rw [Gate.sendError_mgr, checked_info] at hp
    exact hp
  intro p hp hkicks
  have hkicked := kicked_of_kicks hp hkicks
  have hsame : (g.mgr.info p).connId = connId := by
    by_contra hne
    have hstate := h.conns _ hne
    rw [Gate.sendError_connState, Gate.checked, hkicked] at hstate
    exact hkicks.2.2.2 (hstate.symm.trans (Function.update_self _ _ _))
  refine ⟨hsame, ?_⟩
  intro q hq
  rw [Bool.eq_false_iff]
  intro hused
  have hgone := removeByConnId_used hq hused
  have hkept := hinfos q
  rw [hkicked, hsame] at hkept
  rw [← hkept] at hused
  rw [hused] at hgone
  cases hgone

/-- The session of the request would be removed if it were the stored one. -/
theorem spares_session_of_harmless {account session : Str} {connId : ℤ} {error : ProtoErrorType}
    (h : Harmless g ((g.checked time account session).sendError P connId error) connId) :
    SparesSession g account session := by
  intro si hsi heq
  have hsessions := congrFun h.sessions account
  have hsi' : (g.kicked account).mgr.accountSessionMap account = some si := by
    rw [kicked_sessions]
    exact hsi
  rw [Gate.sendError_mgr, hsi] at hsessions
  unfold Gate.checked ClientManager.checkSessionByAccount at hsessions
  simp only [hsi', if_neg (not_not.2 heq), Function.update_self, reduceCtorEq] at hsessions

theorem kicked_of_spares {account : Str} {connId : ℤ} (h : SparesClients g account connId) :
    (∀ c, c ≠ connId → (g.kicked account).connState c = g.connState c) ∧ (g.kicked account).mgr = g.mgr := by
  rcases kicked_cases g account with ⟨p, hp, hkicks⟩ | heq
  · obtain ⟨hsame, hunused⟩ := h p hp hkicks
    rw [kicked_of_kicks hp hkicks, hsame]
    exact ⟨fun c hc => Function.update_of_ne hc _ _, removeByConnId_of_unused hunused⟩
  · rw [heq]
    exact ⟨fun _ _ => rfl, rfl⟩

theorem harmless_of_spares {account session : Str} {connId : ℤ} (hclients : SparesClients g account connId)
    (hsession : SparesSession g account session) (error : ProtoErrorType) :
    Harmless g ((g.checked time account session).sendError P connId error) connId := by
  obtain ⟨hconns, hmgr⟩ := kicked_of_spares hclients
  have hcheck : g.checked time account session = g.kicked account := by
    unfold Gate.checked
    rw [checkSession_spares]
    rw [kicked_sessions]
    exact hsession
  obtain ⟨new, htrace, hnew⟩ := sendError_errors P (g.checked time account session) connId error
  rw [hcheck] at htrace ⊢
  refine ⟨?_, ?_, ?_, ?_, ?_, ?_⟩
  · intro c hc
    rw [Gate.sendError_connState]
    exact hconns c hc
  · intro p
    rw [Gate.sendError_mgr, hmgr]
  · rw [Gate.sendError_mgr, hmgr]
  · rw [Gate.sendError_mgr, hmgr]
  · rw [Gate.sendError_mgr, hmgr]
  · refine ⟨new, ?_, hnew⟩
    rw [htrace]
    exact congrArg (· ++ new) (kicked_trace g account)

/-- The handler does no harm exactly when the kick does none, and the session was not the stored one. -/
theorem harmless_rejected_iff (hconn : g.connState info.connId ≠ none)
    (hparse : P.c2sGetRoleRequest.parse info.data = some request)
    (hreject : (g.mgr.checkSessionByAccount time request.account request.enterSession).1 = false) :
    Harmless g (ClientHandler.processGetRoleRequest P time g info).2 info.connId ↔
      SparesClients g request.account info.connId ∧ SparesSession g request.account request.enterSession := by
  rw [processGetRoleRequest_rejected hconn hparse hreject]
  constructor
  · intro h
    exact ⟨spares_clients_of_harmless h, spares_session_of_harmless h⟩
  · rintro ⟨hclients, hsession⟩
    exact harmless_of_spares hclients hsession _

theorem Harmless.refl (g : Gate) (connId : ℤ) : Harmless g g connId :=
  ⟨fun _ _ => rfl, fun _ => rfl, rfl, rfl, rfl, [], (List.append_nil _).symm,
    fun _ ho => absurd ho List.not_mem_nil⟩

/-- A request whose session is not accepted does no harm. -/
def GetRoleHarmless (P : Protocol) (time : ℤ) (g : Gate) (info : JmyMsgInfo) : Prop :=
  ∀ request, P.c2sGetRoleRequest.parse info.data = some request →
    (g.mgr.checkSessionByAccount time request.account request.enterSession).1 = false →
      Harmless g (ClientHandler.processGetRoleRequest P time g info).2 info.connId

/-- An unauthenticated request does no harm exactly when there is no client to kick, and the session that
was refused is not the one that is stored. -/
theorem getRole_harmless_iff (P : Protocol) (time : ℤ) (g : Gate) (info : JmyMsgInfo) :
    GetRoleHarmless P time g info ↔ (g.connState info.connId ≠ none →
      ∀ request, P.c2sGetRoleRequest.parse info.data = some request →
        (g.mgr.checkSessionByAccount time request.account request.enterSession).1 = false →
          SparesClients g request.account info.connId ∧
            SparesSession g request.account request.enterSession) := by
  by_cases hconn : g.connState info.connId = none
  · refine iff_of_true ?_ (fun h => absurd hconn h)
    intro request _ _
    unfold ClientHandler.processGetRoleRequest
    rw [hconn]
    exact Harmless.refl g info.connId
  · constructor
    · intro h _ request hparse hreject
      exact (harmless_rejected_iff hconn hparse hreject).1 (h request hparse hreject)
    · intro h request hparse hreject
      exact (harmless_rejected_iff hconn hparse hreject).2 (h hconn request hparse hreject)

end harmless

/-- A GetRole request of account `a` with a session. -/
def getRoleData (session : Str) : List Byte := wire.c2sGetRoleRequest.serialize ⟨[97], session⟩

/-- Two connections; the client of account `a` is on the first one. -/
def loginRun : List GateEvent := [
  .game [] 0 MsgId.gs2gtConnectGateRequest (wire.connectGateRequest.serialize 40001),
  .connect, .connect, .session 0 [97] [1],
  .client 0 [] 1 MsgId.c2sGetRoleRequest (getRoleData [1])]

/-- Whoever knows the name of an account can close its connection. -/
theorem getRole_kicks_unauthenticated : ∃ g, (gateMachine wire).run (.start 3) loginRun = some g ∧
    ¬GetRoleHarmless wire 0 g ⟨0, MsgId.c2sGetRoleRequest, getRoleData [2], (getRoleData [2]).length, 2⟩ := by
  have hsees : ((gateMachine wire).run (.start 3) loginRun).map (fun g =>
      (g.connState 1, (ClientHandler.processGetRoleRequest wire 0 g
        ⟨0, MsgId.c2sGetRoleRequest, getRoleData [2], (getRoleData [2]).length, 2⟩).2.connState 1,
        (g.mgr.checkSessionByAccount 0 [97] [2]).1)) =
          some (some .connected, some .disconnected, false) := by decide +kernel
  obtain ⟨g, hg, hsees⟩ := Option.map_eq_some_iff.1 hsees
  obtain ⟨hbefore, hsees⟩ := Prod.mk.inj hsees
  obtain ⟨hafter, hreject⟩ := Prod.mk.inj hsees
  refine ⟨g, hg, ?_⟩
  intro h
  have hparse : wire.c2sGetRoleRequest.parse (getRoleData [2]) = some ⟨[97], [2]⟩ := by decide +kernel
  have hkept := (h ⟨[97], [2]⟩ hparse hreject).conns 1 (by decide)
  rw [hbefore, hafter] at hkept
  cases hkept

end JmyGame
