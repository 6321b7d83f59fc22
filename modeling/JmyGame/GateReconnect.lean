import JmyGame.GateQueues

/-! `processReconnectRequest`. A client that comes back on a new connection presents the reconnect session
that it got last; the handler never looks at it, and the client that it kicks loses the slot that is to be
used again. This says for which requests the handler does what a reconnect is for. -/

namespace JmyGame

open CArith

/-- The client that comes back was kicked, if it is on another connection, and has a new session. -/
def Gate.reissued (g : Gate) (p connId : ℤ) (session : Str) : Gate :=
  let g' := if g.clientConn p = some connId then g else g.clientForceClose p
  { g' with mgr := g'.mgr.modifyInfo p fun ci => { ci with reconnSession := session } }

/-- The answer to a client that comes back. -/
def Gate.answerReconnect (P : Protocol) (session : Str) (info : JmyMsgInfo) (g : Gate) : ℤ × Gate :=
  match P.s2cReconnectResponse.serializeToArray maxMsgSize session with
  | none => (-1, g.sendError P info.connId .reconnFailed)
  | some tmp =>
    let sent := g.connSend info.connId MsgId.s2cReconnectResponse tmp
    if sent.1 < (0 : ℤ) then (-1, sent.2) else (info.len, sent.2)

/-- The session fits into a response, and the response into a packet. -/
def Answers (P : Protocol) (session : Str) : Prop :=
  ∃ tmp, P.s2cReconnectResponse.serializeToArray maxMsgSize session = some tmp ∧
    sendTakes MsgId.s2cReconnectResponse tmp = true

section parts

variable {P : Protocol} {session : Str} {g : Gate} {info : JmyMsgInfo} {p connId : ℤ}

theorem processReconnectRequest_found {request : MsgReconnectRequest} (hconn : g.connState info.connId ≠ none)
    (hparse : P.c2sReconnectRequest.parse info.data = some request)
    (hp : g.mgr.getClientInfoByAccount request.account = some p) :
    ClientHandler.processReconnectRequest P session g info =
      (g.reissued p info.connId session).answerReconnect P session info := by
  obtain ⟨state, hstate⟩ := Option.ne_none_iff_exists'.1 hconn
  unfold ClientHandler.processReconnectRequest
  rw [hparse, hstate]
  dsimp only
  rw [hp]
  rfl

@[simp] theorem answerReconnect_mgr : (g.answerReconnect P session info).2.mgr = g.mgr := by
  unfold Gate.answerReconnect
  split
  · exact Gate.sendError_mgr _ _ _ _
  · dsimp only
    rw [apply_ite Prod.snd, ite_self]
    exact Gate.connSend_mgr _ _ _ _

/-- The answer goes out on a connection that is up. -/
theorem answerReconnect_nonneg_iff : 0 ≤ (g.answerReconnect P session info).1 ↔
    g.connState info.connId = some .connected ∧ Answers P session := by
  have hneg : ¬(0 : ℤ) ≤ -1 := by decide
  unfold Gate.answerReconnect Answers
  cases hfits : P.s2cReconnectResponse.serializeToArray maxMsgSize session with
  | none =>
      refine iff_of_false hneg ?_
      rintro ⟨-, tmp, hnone, -⟩
      cases hnone
  | some tmp =>
      unfold Gate.connSend
      dsimp only
      by_cases htakes : g.connState info.connId = some .connected ∧
          sendTakes MsgId.s2cReconnectResponse tmp = true
      · rw [if_pos htakes, if_neg (not_lt.2 (Int.natCast_nonneg _))]
        exact iff_of_true (Int.natCast_nonneg _) ⟨htakes.1, tmp, rfl, htakes.2⟩
      · rw [if_neg htakes, if_pos (by decide : (-1 : ℤ) < 0)]
        refine iff_of_false hneg ?_
        rintro ⟨hopen, tmp', heq, hsend⟩
        cases heq
        exact htakes ⟨hopen, hsend⟩

/-- A client on the connection itself is not kicked. -/
theorem reissued_of_own (hown : (g.mgr.info p).connId = connId) :
    g.reissued p connId session =
      { g with mgr := g.mgr.modifyInfo p fun ci => { ci with reconnSession := session } } := by
  unfold Gate.reissued
  by_cases hsame : g.clientConn p = some connId
  · rw [if_pos hsame]
  · have hnot : ¬g.Kicks p := by
      rintro ⟨-, hmgr, hsome, -⟩
      apply hsame
      unfold Gate.clientConn
      rw [if_pos ⟨hmgr, Option.isSome_iff_ne_none.2 hsome⟩, hown]
    rw [if_neg hsame, Gate.clientForceClose_of_not_kicks hnot]

theorem reissued_connState :
    (g.reissued p connId session).connState connId = g.connState connId := by
  by_cases hown : (g.mgr.info p).connId = connId
  · rw [reissued_of_own hown]
  · unfold Gate.reissued
    split_ifs
    · rfl
    · by_cases hkicks : g.Kicks p
      · rw [Gate.clientForceClose_of_kicks hkicks]
        exact Function.update_of_ne (Ne.symm hown) _ _
      · rw [Gate.clientForceClose_of_not_kicks hkicks]

theorem reissued_session : ((g.reissued p connId session).mgr.info p).reconnSession = session := by
  unfold Gate.reissued
  dsimp only
  rw [info_modifyInfo_self]

/-- The account has no other client afterwards, and its connection is the one it was. -/
theorem reissued_client {account : Str} {q : ℤ} (hp : g.mgr.getClientInfoByAccount account = some p)
    (hq : (g.reissued p connId session).mgr.getClientInfoByAccount account = some q) :
    q = p ∧ ((g.reissued p connId session).mgr.info p).connId = (g.mgr.info p).connId := by
  have hfind := getClientInfoByAccount_eq_some hp
  have hfind' := getClientInfoByAccount_eq_some hq
  unfold Gate.reissued at hfind' ⊢
  dsimp only
  rw [info_modifyInfo_self]
  split_ifs at hfind' ⊢
  · have hsame : g.mgr.accountIdBimap.find1 account = some q := hfind'
    rw [hfind, Option.some.injEq] at hsame
    exact ⟨hsame.symm, rfl⟩
  · have hsame := clientForceClose_find1 hfind'
    rw [hfind, Option.some.injEq] at hsame
    exact ⟨hsame.symm, clientForceClose_connId g p p⟩

end parts

/-- The session is the one that the client of the account got last. -/
def Issued (g : Gate) (account session : Str) : Prop :=
  ∃ p, g.mgr.getClientInfoByAccount account = some p ∧ (g.mgr.info p).reconnSession = session

/-- No connection is closed, no client has changed and no session went out. -/
structure NothingIssued (g g' : Gate) : Prop where
  conns : g'.connState = g.connState
  infos : ∀ p, g'.mgr.info p = g.mgr.info p
  sent : ∃ new, g'.trace = g.trace ++ new ∧
    ∀ connId data, GateObs.toClient connId MsgId.s2cReconnectResponse data ∉ new

/-- The account has a client in use, which is on the connection. -/
def Bound (m : ClientManager) (account : Str) (connId : ℤ) : Prop :=
  ∃ p, m.getClientInfoByAccount account = some p ∧ (m.info p).used = true ∧
    (m.info p).connId = connId ∧ m.getClientInfoByConnId connId = some p

/-- A request with another session than the last one changes nothing, and a request that is answered
leaves the client on the connection that it came on. -/
def ReconnectSafe (P : Protocol) (g : Gate) (info : JmyMsgInfo) : Prop :=
  ∀ session request, P.c2sReconnectRequest.parse info.data = some request →
    (¬Issued g request.account request.reconnectSession →
      NothingIssued g (ClientHandler.processReconnectRequest P session g info).2) ∧
    (0 ≤ (ClientHandler.processReconnectRequest P session g info).1 →
      Bound (ClientHandler.processReconnectRequest P session g info).2.mgr request.account info.connId)

/-- The account has no client; or the session is the last one and, when an answer can be sent, the client
is on the connection already. -/
def ReconnectsInPlace (P : Protocol) (g : Gate) (info : JmyMsgInfo) : Prop :=
  g.connState info.connId ≠ none → ∀ request, P.c2sReconnectRequest.parse info.data = some request →
    ∀ p, g.mgr.getClientInfoByAccount request.account = some p →
      request.reconnectSession = (g.mgr.info p).reconnSession ∧
      (g.connState info.connId = some .connected → (∃ session, Answers P session) →
        (g.mgr.info p).used = true ∧ (g.mgr.info p).connId = info.connId ∧
          g.mgr.getClientInfoByConnId info.connId = some p)

theorem NothingIssued.refl (g : Gate) : NothingIssued g g :=
  ⟨rfl, fun _ => rfl, [], (List.append_nil _).symm, fun _ _ => List.not_mem_nil⟩

theorem NothingIssued.sendError (P : Protocol) (g : Gate) (connId : ℤ) (error : ProtoErrorType) :
    NothingIssued g (g.sendError P connId error) := by
  obtain ⟨new, htrace, hnew⟩ := sendError_errors P g connId error
  refine ⟨Gate.sendError_connState _ _ _ _, fun p => by rw [Gate.sendError_mgr], new, htrace, ?_⟩
  intro c data hmem
  obtain ⟨data', heq⟩ := hnew _ hmem
  injection heq with _ hid _
  exact absurd hid (by decide)

section safe

variable {P : Protocol} {g : Gate} {info : JmyMsgInfo} {request : MsgReconnectRequest} {p : ℤ}

theorem bound_reissued {account session : Str}
    (hp : g.mgr.getClientInfoByAccount account = some p) (hused : (g.mgr.info p).used = true)
    (hown : (g.mgr.info p).connId = info.connId)
    (hmap : g.mgr.getClientInfoByConnId info.connId = some p) :
    Bound (g.reissued p info.connId session).mgr account info.connId := by
  rw [reissued_of_own hown]
  refine ⟨p, hp, ?_, ?_, hmap⟩
  · rw [info_modifyInfo_self]
    exact hused
  · rw [info_modifyInfo_self]
    exact hown

theorem reconnectsInPlace_of_safe (h : ReconnectSafe P g info) : ReconnectsInPlace P g info := by
  intro hconn request hparse p hp
  constructor
  · by_contra hne
    -- any new session that is not the old one shows that it was issued
    have hsafe := (h (0 :: (g.mgr.info p).reconnSession) request hparse).1 (by
      rintro ⟨q, hq, hsession⟩
      rw [hp, Option.some.injEq] at hq
      subst hq
      exact hne hsession.symm)
    have hinfo := congrArg ClientInfo.reconnSession (hsafe.infos p)
    rw [processReconnectRequest_found hconn hparse hp, answerReconnect_mgr, reissued_session] at hinfo
    exact List.cons_ne_self _ _ hinfo
  · rintro hopen ⟨session, hanswers⟩
    have hbound := (h session request hparse).2
    rw [processReconnectRequest_found hconn hparse hp, answerReconnect_mgr, answerReconnect_nonneg_iff,
      reissued_connState] at hbound
    obtain ⟨q, hq, hused, hconnId, hmap⟩ := hbound ⟨hopen, hanswers⟩
    obtain ⟨rfl, hsame⟩ := reissued_client hp hq
    rw [hsame] at hconnId
    rw [reissued_of_own hconnId, info_modifyInfo_self] at hused
    rw [reissued_of_own hconnId] at hmap
    exact ⟨hused, hconnId, hmap⟩

/-- A reconnect is safe exactly when it has no client to bring back, or brings it back with its session
and to the connection that it has never left. -/
theorem reconnect_safe_iff (P : Protocol) (g : Gate) (info : JmyMsgInfo) :
    ReconnectSafe P g info ↔ ReconnectsInPlace P g info := by
  refine ⟨reconnectsInPlace_of_safe, ?_⟩
  intro hplace session request hparse
  have hneg : ¬(0 : ℤ) ≤ -1 := by decide
  by_cases hconn : g.connState info.connId = none
  · unfold ClientHandler.processReconnectRequest
    rw [hparse, hconn]
    exact ⟨fun _ => NothingIssued.refl g, fun h => absurd h hneg⟩
  cases hp : g.mgr.getClientInfoByAccount request.account with
  | none =>
      obtain ⟨state, hstate⟩ := Option.ne_none_iff_exists'.1 hconn
      unfold ClientHandler.processReconnectRequest
      rw [hparse, hstate]
      dsimp only
      rw [hp]
      exact ⟨fun _ => NothingIssued.sendError P g _ _, fun h => absurd h hneg⟩
  | some p =>
      obtain ⟨hsession, hbound⟩ := hplace hconn request hparse p hp
      refine ⟨fun hnot => absurd ⟨p, hp, hsession.symm⟩ hnot, ?_⟩
      rw [processReconnectRequest_found hconn hparse hp, answerReconnect_mgr, answerReconnect_nonneg_iff,
        reissued_connState]
      rintro ⟨hopen, hanswers⟩
      obtain ⟨hused, hown, hmap⟩ := hbound hopen ⟨session, hanswers⟩
      exact bound_reissued hp hused hown hmap

end safe

/-- A reconnect request of account `a` with a session that nobody got. -/
def reconnectData : List Byte := wire.c2sReconnectRequest.serialize ⟨[97], [9]⟩

/-- Whoever knows the name of an account closes its client with a reconnect, and gets a session. -/
theorem reconnect_unauthenticated : ∃ g, (gateMachine wire).run (.start 3) loginRun = some g ∧
    ¬ReconnectSafe wire g ⟨0, MsgId.c2sReconnectRequest, reconnectData, reconnectData.length, 2⟩ := by
  have hsees : ((gateMachine wire).run (.start 3) loginRun).map (fun g =>
      (g.connState 1, (ClientHandler.processReconnectRequest wire [7] g
        ⟨0, MsgId.c2sReconnectRequest, reconnectData, reconnectData.length, 2⟩).2.connState 1,
        g.mgr.getClientInfoByAccount [97], (g.mgr.info 100000).reconnSession)) =
          some (some .connected, some .disconnected, some 100000, []) := by decide +kernel
  obtain ⟨g, hg, hsees⟩ := Option.map_eq_some_iff.1 hsees
  obtain ⟨hbefore, hsees⟩ := Prod.mk.inj hsees
  obtain ⟨hafter, hsees⟩ := Prod.mk.inj hsees
  obtain ⟨hclient, hsession⟩ := Prod.mk.inj hsees
  refine ⟨g, hg, ?_⟩
  intro h
  have hparse : wire.c2sReconnectRequest.parse reconnectData = some ⟨[97], [9]⟩ := by decide +kernel
  have hnot : ¬Issued g [97] [9] := by
    rintro ⟨p, hp, heq⟩
    rw [hclient, Option.some.injEq] at hp
    subst hp
    rw [hsession] at heq
    cases heq
  have hkept := congrFun ((h [7] ⟨[97], [9]⟩ hparse).1 hnot).conns 1
  rw [hbefore, hafter] at hkept
  cases hkept

end JmyGame
