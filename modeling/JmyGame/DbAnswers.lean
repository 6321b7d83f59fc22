import JmyGame.DbServer

/-! The requests for roles and their answers. A request for an account without a record is answered when its select
completes. The callback of the select makes a record without looking for one that was made in the meantime; when there
is one, the keys of the new record are refused and nothing is sent. -/

namespace JmyGame

open CArith DbGameHandler DBResCBFuncs

/-- The db server with the rows that the database has for the accounts. The last three fields are a record of what
has happened: the requests for roles with their connections, the roles that were sent for them, and the roles that
were sent since the data of their account changed last. -/
structure RoleService where
  server : DbServer
  rows : Str → Option TPlayer
  asked : List (Str × ℤ)
  answers : List (Str × ℤ × MsgRoleResponse)
  fresh : List (Str × MsgRoleResponse)

/-- A message, a select that is executed or completed, a row that the database stores for an account with a record,
or a connection that comes or goes. -/
inductive RoleEvent where
  | message (selected : Bool) (time : ℕ) (info : JmyMsgInfo)
  | execute (i : ℕ)
  | complete (i : ℕ)
  | write (account : Str) (row : Option TPlayer)
  | link (connId : ℤ) (up : Bool) (agent : Option ℤ)

/-- The role of an account in the cache. -/
def DbServer.cachedRole (s : DbServer) (account : Str) : MsgRoleResponse :=
  selectedRole account ((s.table.getByKey2 account).map s.table.recs)

/-- The role of an account: that of its record, or that of its row. -/
def roleData (s : DbServer) (rows : Str → Option TPlayer) (account : Str) : MsgRoleResponse :=
  match s.table.getByKey2 account with
  | none => selectedRole account (rows account)
  | some r => (s.table.recs r).role

namespace RoleService

def start (rows : Str → Option TPlayer) : RoleService := ⟨.start, rows, [], [], []⟩

variable (P : Protocol)

/-- The account whose role a message asks for. -/
def request (info : JmyMsgInfo) : Option Str :=
  if info.msgId = MsgId.gs2dsGetRoleRequest then P.gs2dsGetRoleRequest.parse info.data else none

/-- What a step asks for. -/
def asks : RoleEvent → List (Str × ℤ)
  | .message _ _ info => (request P info).toList.map fun account => (account, info.connId)
  | _ => []

/-- The role that a step has to send, with its account and its connection. -/
def due (w : RoleService) : RoleEvent → Option (Str × ℤ × MsgRoleResponse)
  | .message _ _ info => (request P info).bind fun account =>
      (w.server.table.getByKey2 account).map fun r => (account, info.connId, (w.server.table.recs r).role)
  | .complete i => w.server.selects[i]?.bind fun select => select.result.map fun result =>
      (select.account, select.connId, selectedRole select.account result)
  | _ => none

/-- The packet of a role is behind what its connection had sent. -/
def wasSent (s s' : DbServer) (x : Str × ℤ × MsgRoleResponse) : Bool :=
  (s'.links x.2.1).sent = (s.links x.2.1).sent ++ [rolePacket P x.2.2]

/-- What a step has sent. -/
def news (w : RoleService) (e : RoleEvent) (s' : DbServer) : List (Str × ℤ × MsgRoleResponse) :=
  ((w.due P e).filter (wasSent P w.server s')).toList

/-- The service behind a step. -/
def note (w : RoleService) (e : RoleEvent) (s' : DbServer) (rows' : Str → Option TPlayer) : RoleService where
  server := s'
  rows := rows'
  asked := w.asked ++ asks P e
  answers := w.answers ++ w.news P e s'
  fresh := (w.fresh.filter fun p => roleData w.server w.rows p.1 = roleData s' rows' p.1) ++
    (w.news P e s').map fun x => (x.1, x.2.2)

def step (w : RoleService) (e : RoleEvent) : Option RoleService :=
  match e with
  | .message selected time info => (w.server.message P selected time info).map fun s' => w.note P e s' w.rows
  | .execute i => (w.server.execute w.rows i).map fun s' => w.note P e s' w.rows
  | .complete i => (w.server.complete P i).map fun s' => w.note P e s' w.rows
  | .write account row =>
    if (w.server.table.getByKey2 account).isSome then
      some (w.note P e w.server (Function.update w.rows account row))
    else none
  | .link connId up agent => some (w.note P e (w.server.setLink connId up agent) w.rows)

/-- Every request is answered once or has its select, the role responses that were sent are the answers, and the
answers of an account since the last change of its data are what the cache has for it. -/
structure Answered (w : RoleService) : Prop where
  once : ∀ x, w.asked.count x =
    (w.answers.map fun y => (y.1, y.2.1)).count x + (w.server.selects.map fun s => (s.account, s.connId)).count x
  sent : ∀ connId, roles (w.server.links connId).sent =
    (w.answers.filter fun y => y.2.1 = connId).map fun y => rolePacket P y.2.2
  same : ∀ p ∈ w.fresh, p.2 = w.server.cachedRole p.1

/-- A step that answers what it has to: the database takes the select, no select completes for an account that has a
record by then, and a role that is to be sent can be sent. -/
def Answers (w : RoleService) : RoleEvent → Prop
  | .message selected _ info => ∀ account, request P info = some account →
    match w.server.table.getByKey2 account with
    | none => selected = true
    | some r => SendsRole P (w.server.view info.connId) (w.server.table.recs r).role info.connId
  | .complete i => ∀ select result, w.server.selects[i]? = some select → select.result = some result →
    w.server.table.getByKey2 select.account = none ∧
      SendsRole P (w.server.view select.connId) (selectedRole select.account result) select.connId
  | _ => True

/-- What holds as long as every step answers. A select that was executed has read the row of an account without a
record. -/
structure Inv (w : RoleService) : Prop where
  bounded : w.server.table.Bounded
  once : ∀ x, w.asked.count x =
    (w.answers.map fun y => (y.1, y.2.1)).count x + (w.server.selects.map fun s => (s.account, s.connId)).count x
  sent : ∀ connId, roles (w.server.links connId).sent =
    (w.answers.filter fun y => y.2.1 = connId).map fun y => rolePacket P y.2.2
  fresh : ∀ p ∈ w.fresh, p.2 = roleData w.server w.rows p.1 ∧
    (w.server.table.getByKey2 p.1 = none → w.rows p.1 = none)
  results : ∀ select ∈ w.server.selects, ∀ result, select.result = some result →
    w.server.table.getByKey2 select.account = none → result = w.rows select.account

variable {P} {w : RoleService} {e : RoleEvent} {s' : DbServer} {rows' : Str → Option TPlayer}
  {new : List (Str × ℤ × MsgRoleResponse)}

theorem inv_start (rows : Str → Option TPlayer) : Inv P (start rows) where
  bounded := PlayerTable.bounded_empty
  once _ := rfl
  sent _ := rfl
  fresh := nofun
  results := nofun

/-- What the cache has for the accounts that were answered. -/
theorem Inv.answered (h : Inv P w) : Answered P w where
  once := h.once
  sent := h.sent
  same p hp := by
    obtain ⟨hdata, hnone⟩ := h.fresh p hp
    rw [hdata, roleData, DbServer.cachedRole]
    cases hrec : w.server.table.getByKey2 p.1 with
    | none => rw [hnone hrec, Option.map_none]
    | some r => rfl

/-- What a step has to do to keep the invariant. -/
theorem Inv.note (h : Inv P w) (hnew : w.news P e s' = new) (hbounded : s'.table.Bounded)
    (hkept : ∀ a, s'.table.getByKey2 a = none → w.server.table.getByKey2 a = none ∧ rows' a = w.rows a)
    (hcount : ∀ x, (asks P e).count x + (w.server.selects.map fun s => (s.account, s.connId)).count x =
      (new.map fun y => (y.1, y.2.1)).count x + (s'.selects.map fun s => (s.account, s.connId)).count x)
    (hsent : ∀ connId, roles (s'.links connId).sent = roles (w.server.links connId).sent ++
      (new.filter fun y => y.2.1 = connId).map fun y => rolePacket P y.2.2)
    (hanswers : ∀ y ∈ new, y.2.2 = roleData s' rows' y.1 ∧ (s'.table.getByKey2 y.1 = none → rows' y.1 = none))
    (hresults : ∀ select ∈ s'.selects, ∀ result, select.result = some result →
      s'.table.getByKey2 select.account = none → result = rows' select.account) : Inv P (w.note P e s' rows') where
  bounded := hbounded
  once x := by
    have hold := h.once x
    have hstep := hcount x
    change (w.asked ++ asks P e).count x = ((w.answers ++ w.news P e s').map fun y => (y.1, y.2.1)).count x +
      (s'.selects.map fun s => (s.account, s.connId)).count x
    rw [hnew, List.count_append, List.map_append, List.count_append]
    omega
  sent connId := by
    change roles (s'.links connId).sent = ((w.answers ++ w.news P e s').filter fun y => y.2.1 = connId).map _
    rw [hnew, List.filter_append, List.map_append, hsent, h.sent]
  fresh p hp := by
    rcases List.mem_append.1 hp with hold | hadded
    · obtain ⟨hmem, hsame⟩ := List.mem_filter.1 hold
      obtain ⟨hdata, hnone⟩ := h.fresh p hmem
      refine ⟨hdata.trans (of_decide_eq_true hsame), ?_⟩
      intro hrec
      obtain ⟨hrec', hrows⟩ := hkept p.1 hrec
      exact hrows.trans (hnone hrec')
    · rw [hnew] at hadded
      obtain ⟨y, hy, rfl⟩ := List.mem_map.1 hadded
      exact hanswers y hy
  results := hresults

variable {selected : Bool} {time : ℕ} {info : JmyMsgInfo}

/-- A message that asks for no role. -/
theorem handle_effect_of_request (selected : Bool) (time : ℕ) (hbounded : w.server.table.Bounded)
    (hrequest : request P info = none) : Effect (Creates P info) (w.server.view info.connId)
      (handle P selected time (w.server.view info.connId) info).2 := by
  by_cases hmsg : info.msgId = MsgId.gs2dsGetRoleRequest
  · rw [request, if_pos hmsg] at hrequest
    rw [DbGameHandler.handle_getRole selected time hmsg, processGetRole, hrequest]
    exact Effect.refl _ _
  · exact handle_effect hbounded hmsg

theorem Inv.message_other (h : Inv P w) (hrequest : request P info = none)
    (hs : w.server.message P selected time info = some s') :
    Inv P (w.note P (.message selected time info) s' w.rows) := by
  obtain ⟨d, rfl, htable, hselecting, hsent⟩ := DbServer.message_back hs
  have heffect := handle_effect_of_request selected time h.bounded hrequest
  have hmove : w.server.table.Move (Creates P info) d.table := htable ▸ heffect.move
  have hselects : (w.server.back info.connId d).selects = w.server.selects := by
    change w.server.selects ++ d.selecting.map _ = _
    rw [hselecting, heffect.selecting]
    exact List.append_nil _
  have hnews : w.news P (.message selected time info) (w.server.back info.connId d) = [] := by
    rw [news, due, hrequest]
    rfl
  have hkept : ∀ a, d.table.getByKey2 a = none → w.server.table.getByKey2 a = none := fun a => hmove.of_none h.bounded
  refine h.note hnews (h.bounded.move hmove) (fun a ha => ⟨hkept a ha, rfl⟩) ?_ ?_ nofun ?_
  · intro x
    rw [hselects, asks, hrequest]
    rfl
  · intro connId
    rw [DbServer.back_links, List.filter_nil, List.map_nil, List.append_nil]
    split_ifs with hconn
    · rw [hsent, heffect.sent, hconn]
      rfl
    · rfl
  · intro select hmem result hresult hnone
    rw [hselects] at hmem
    exact h.results select hmem result hresult (hkept _ hnone)

/-- A request for an account without a record waits for its select. -/
theorem Inv.message_selecting (h : Inv P w) {account : Str} (hrequest : request P info = some account)
    (hnone : w.server.table.getByKey2 account = none) {d : DB} (htable : d.table = w.server.table)
    (hselecting : d.selecting = [(account, info.connId)]) (hsent : d.toGame = (w.server.links info.connId).sent) :
    Inv P (w.note P (.message selected time info) (w.server.back info.connId d) w.rows) := by
  have hselects : (w.server.back info.connId d).selects = w.server.selects ++ [⟨account, info.connId, none⟩] := by
    change w.server.selects ++ d.selecting.map _ = _
    rw [hselecting]
    rfl
  have hnews : w.news P (.message selected time info) (w.server.back info.connId d) = [] := by
    rw [news, due, hrequest, Option.bind_some, hnone]
    rfl
  have hkept : ∀ a, (w.server.back info.connId d).table.getByKey2 a = w.server.table.getByKey2 a := by
    intro a
    change d.table.getByKey2 a = _
    rw [htable]
  refine h.note hnews ?_ (fun a ha => ⟨hkept a ▸ ha, rfl⟩) ?_ ?_ nofun ?_
  · change d.table.Bounded
    exact htable ▸ h.bounded
  · intro x
    rw [hselects, asks, hrequest, List.map_append, List.count_append, List.map_nil, List.count_nil, Nat.zero_add,
      Nat.add_comm]
    rfl
  · intro connId
    rw [DbServer.back_links, List.filter_nil, List.map_nil, List.append_nil]
    split_ifs with hconn
    · rw [hsent, hconn]
    · rfl
  · intro select hmem result hresult hrec
    rw [hselects] at hmem
    rcases List.mem_append.1 hmem with hold | hadded
    · exact h.results select hold result hresult (hkept _ ▸ hrec)
    · rw [List.mem_singleton.1 hadded] at hresult
      cases hresult

/-- A role that was sent is news. -/
theorem news_of_due {x : Str × ℤ × MsgRoleResponse} (hdue : w.due P e = some x)
    (hsent : (s'.links x.2.1).sent = (w.server.links x.2.1).sent ++ [rolePacket P x.2.2]) : w.news P e s' = [x] := by
  have hwas : wasSent P w.server s' x = true := decide_eq_true hsent
  rw [news, hdue, Option.filter_some, if_pos hwas]
  rfl

/-- The role responses behind one that was sent. -/
theorem back_roles {s : DbServer} {d : DB} {connId : ℤ} {response : MsgRoleResponse}
    (hsent : d.toGame = (s.links connId).sent ++ [rolePacket P response]) (account : Str) (c : ℤ) :
    roles ((s.back connId d).links c).sent = roles (s.links c).sent ++
      ([(account, connId, response)].filter fun y => y.2.1 = c).map fun y => rolePacket P y.2.2 := by
  rw [DbServer.back_links]
  by_cases hc : c = connId
  · subst hc
    have hfilter : ([(account, c, response)].filter fun y => y.2.1 = c) = [(account, c, response)] :=
      List.filter_cons_of_pos (decide_eq_true rfl)
    have hrole : roles [rolePacket P response] = [rolePacket P response] :=
      List.filter_cons_of_pos (decide_eq_true rfl)
    rw [if_pos rfl, hsent, roles_append, hrole, hfilter]
    rfl
  · have hfilter : ([(account, connId, response)].filter fun y => y.2.1 = c) = [] :=
      List.filter_cons_of_neg fun h => hc (of_decide_eq_true h).symm
    rw [if_neg hc, hfilter, List.map_nil, List.append_nil]

/-- A request for an account with a record is answered. -/
theorem Inv.message_found (h : Inv P w) {account : Str} {r : ℕ} (hrequest : request P info = some account)
    (hsome : w.server.table.getByKey2 account = some r) {d : DB} (htable : d.table = w.server.table)
    (hselecting : d.selecting = [])
    (hsent : d.toGame = (w.server.links info.connId).sent ++ [rolePacket P (w.server.table.recs r).role]) :
    Inv P (w.note P (.message selected time info) (w.server.back info.connId d) w.rows) := by
  have hselects : (w.server.back info.connId d).selects = w.server.selects := by
    change w.server.selects ++ d.selecting.map _ = _
    rw [hselecting]
    exact List.append_nil _
  have hlink : ((w.server.back info.connId d).links info.connId).sent = d.toGame :=
    congrArg DbLink.sent (Function.update_self info.connId _ w.server.links)
  have hdue : w.due P (.message selected time info) =
      some (account, info.connId, (w.server.table.recs r).role) := by
    rw [due, hrequest, Option.bind_some, hsome]
    rfl
  have hkept : (w.server.back info.connId d).table = w.server.table := htable
  refine h.note (news_of_due hdue (hlink.trans hsent)) (hkept ▸ h.bounded) (fun a ha => ⟨hkept ▸ ha, rfl⟩) ?_
    (back_roles hsent account) ?_ ?_
  · intro x
    rw [hselects, asks, hrequest]
    rfl
  · intro y hy
    obtain rfl := List.mem_singleton.1 hy
    rw [roleData, hkept, hsome]
    exact ⟨rfl, nofun⟩
  · intro select hmem result hresult hrec
    rw [hselects] at hmem
    exact h.results select hmem result hresult (hkept ▸ hrec)

/-- A request for a role makes a select, or is answered. -/
theorem Inv.message_request (h : Inv P w) {account : Str} (hrequest : request P info = some account)
    (hanswers : w.Answers P (.message selected time info)) (hs : w.server.message P selected time info = some s') :
    Inv P (w.note P (.message selected time info) s' w.rows) := by
  obtain ⟨hmsg, hparse⟩ := Option.ite_none_right_eq_some.1 hrequest
  obtain ⟨d, rfl, htable, hselecting, hsent⟩ := DbServer.message_back hs
  have hanswer := hanswers account hrequest
  have hasked : Asked P selected (w.server.view info.connId) info
      (processGetRole P selected (w.server.view info.connId) info).2 := processGetRole_asked
  rw [← DbGameHandler.handle_getRole selected time hmsg] at hasked
  generalize (handle P selected time (w.server.view info.connId) info).2 = d' at htable hselecting hsent hasked
  cases hasked with
  | unread hparse' => cases hparse'.symm.trans hparse
  | refused account' hparse' hnone hselected =>
      obtain rfl := Option.some.inj (hparse'.symm.trans hparse)
      have hnone' : w.server.table.getByKey2 account' = none := hnone
      rw [hnone', hselected] at hanswer
      cases hanswer
  | selecting account' hparse' hnone hselected =>
      obtain rfl := Option.some.inj (hparse'.symm.trans hparse)
      have hnone' : w.server.table.getByKey2 account' = none := hnone
      exact h.message_selecting hrequest hnone' htable hselecting hsent
  | found account' r hparse' hsome =>
      obtain rfl := Option.some.inj (hparse'.symm.trans hparse)
      have hsome' : w.server.table.getByKey2 account' = some r := hsome
      rw [hsome'] at hanswer
      have hsends : sendRole P (w.server.view info.connId) ((w.server.view info.connId).table.recs r).role info.connId =
          _ := sendRole_sends hanswer
      rw [hsends] at htable hselecting hsent
      exact h.message_found hrequest hsome' htable hselecting hsent

/-- A select that is executed has read the row of its account. -/
theorem Inv.execute (h : Inv P w) {i : ℕ} (hs : w.server.execute w.rows i = some s') :
    Inv P (w.note P (.execute i) s' w.rows) := by
  obtain ⟨select, hselect, -, rfl⟩ := DbServer.execute_eq hs
  refine h.note rfl h.bounded (fun a ha => ⟨ha, rfl⟩) ?_ (fun connId => (List.append_nil _).symm) nofun ?_
  · intro x
    obtain ⟨hlt, hget⟩ := List.getElem?_eq_some_iff.1 hselect
    have hkeys : (w.server.selects.set i { select with result := some (w.rows select.account) }).map
        (fun s => (s.account, s.connId)) = w.server.selects.map fun s => (s.account, s.connId) := by
      subst hget
      rw [List.map_set]
      exact (congrArg _ (List.getElem_map _).symm).trans (List.set_getElem_self (by rwa [List.length_map]))
    rw [hkeys]
    rfl
  · intro select' hmem result hresult hnone
    rcases List.mem_or_eq_of_mem_set hmem with hold | rfl
    · exact h.results select' hold result hresult hnone
    · exact (Option.some.inj hresult).symm

/-- What the callback of a select has to leave. -/
theorem Inv.complete_back (h : Inv P w) {i : ℕ} {select : DbSelect} {result : Option TPlayer} {d : DB}
    (hselect : w.server.selects[i]? = some select) (hresult : select.result = some result)
    (hbounded : d.table.Bounded) (hkept : ∀ a, d.table.getByKey2 a = none → w.server.table.getByKey2 a = none)
    (hselecting : d.selecting = [])
    (hsent : d.toGame = (w.server.links select.connId).sent ++ [rolePacket P (selectedRole select.account result)])
    (hdata : selectedRole select.account result = (match d.table.getByKey2 select.account with
      | none => selectedRole select.account (w.rows select.account)
      | some r => (d.table.recs r).role))
    (hnone : d.table.getByKey2 select.account = none → w.rows select.account = none) :
    Inv P (w.note P (.complete i)
      ({ w.server with selects := w.server.selects.eraseIdx i }.back select.connId d) w.rows) := by
  have hselects : ({ w.server with selects := w.server.selects.eraseIdx i }.back select.connId d).selects =
      w.server.selects.eraseIdx i := by
    change w.server.selects.eraseIdx i ++ d.selecting.map _ = _
    rw [hselecting]
    exact List.append_nil _
  have hlink : (({ w.server with selects := w.server.selects.eraseIdx i }.back select.connId d).links
      select.connId).sent = d.toGame := congrArg DbLink.sent (Function.update_self select.connId _ w.server.links)
  have hdue : w.due P (.complete i) =
      some (select.account, select.connId, selectedRole select.account result) := by
    rw [due, hselect, Option.bind_some, hresult]
    rfl
  refine h.note (news_of_due hdue (hlink.trans hsent)) hbounded (fun a ha => ⟨hkept a ha, rfl⟩) ?_
    (back_roles hsent select.account) ?_ ?_
  · intro x
    obtain ⟨hlt, rfl⟩ := List.getElem?_eq_some_iff.1 hselect
    have hperm := ((List.getElem_cons_eraseIdx_perm hlt).map fun s => (s.account, s.connId)).count_eq x
    have hasks : (asks P (.complete i)).count x = 0 := rfl
    rw [hselects, hasks, Nat.zero_add, ← hperm, List.map_cons, List.count_cons, List.map_singleton,
      List.count_singleton, Nat.add_comm]
  · intro y hy
    obtain rfl := List.mem_singleton.1 hy
    exact ⟨hdata, hnone⟩
  · intro select' hmem result' hresult' hrec
    rw [hselects] at hmem
    exact h.results select' (List.mem_of_mem_eraseIdx hmem) result' hresult' (hkept _ hrec)

/-- A select that completes for an account without a record is answered. -/
theorem Inv.complete (h : Inv P w) {i : ℕ} (hanswers : w.Answers P (.complete i))
    (hs : w.server.complete P i = some s') : Inv P (w.note P (.complete i) s' w.rows) := by
  obtain ⟨select, result, hselect, hresult, rfl⟩ := DbServer.complete_eq hs
  obtain ⟨hnone, hsends⟩ := hanswers select result hselect hresult
  have hrow : result = w.rows select.account := h.results select (List.mem_of_getElem? hselect) result hresult hnone
  cases result with
  | none =>
      rw [Option.elim_none, onSelect_empty, sendRole_sends hsends]
      refine h.complete_back hselect hresult h.bounded (fun a ha => ha) rfl rfl ?_ fun _ => hrow.symm
      change _ = (match w.server.table.getByKey2 select.account with | none => _ | some r => _)
      rw [hnone, ← hrow]
  | some row =>
      have hloaded : (w.server.table.loaded select.account row).getByKey2 select.account =
          some w.server.table.next := by
        rw [PlayerTable.getByKey2, (PlayerTable.loaded_kept _ _ _).1, PlayerTable.getByKey2_insert h.bounded hnone,
          if_pos rfl]
      have hrecs : (w.server.table.loaded select.account row).recs w.server.table.next = row := by
        rw [(PlayerTable.loaded_kept _ _ _).2.1, Function.update_self]
      have hsends' : SendsRole P ((w.server.view select.connId).setTable
        (w.server.table.loaded select.account row)) row.role select.connId := hsends
      have hkeyed : (keyed w.server.table select.account row).1 = true := keyed_fst h.bounded hnone row
      have hanswer : (onSelect P (w.server.view select.connId) select.account select.connId (.row row)).2 =
          { (w.server.view select.connId).setTable (w.server.table.loaded select.account row) with
            toGame := (w.server.links select.connId).sent ++ [rolePacket P row.role] } := by
        rw [onSelect_row, if_neg (by rw [Bool.not_eq_false]; exact hkeyed)]
        exact congrArg Prod.snd (sendRole_sends hsends')
      rw [Option.elim_some, hanswer]
      refine h.complete_back hselect hresult (h.bounded.loaded _ _) ?_ rfl rfl ?_ ?_
      · intro a ha
        exact PlayerTable.loaded_none ha
      · change _ = (match (w.server.table.loaded select.account row).getByKey2 select.account with
          | none => _ | some r => _)
        rw [hloaded]
        exact congrArg TPlayer.role hrecs.symm
      · intro ha
        cases hloaded.symm.trans ha

theorem Inv.write (h : Inv P w) {account : Str} (hsome : (w.server.table.getByKey2 account).isSome = true)
    (row : Option TPlayer) :
    Inv P (w.note P (.write account row) w.server (Function.update w.rows account row)) := by
  have hrows : ∀ a, w.server.table.getByKey2 a = none → Function.update w.rows account row a = w.rows a := by
    intro a ha
    refine Function.update_of_ne ?_ _ _
    rintro rfl
    rw [ha] at hsome
    cases hsome
  refine h.note rfl h.bounded (fun a ha => ⟨ha, hrows a ha⟩) (fun x => rfl) (fun connId => (List.append_nil _).symm)
    nofun ?_
  intro select hmem result hresult hnone
  rw [hrows _ hnone]
  exact h.results select hmem result hresult hnone

theorem Inv.link (h : Inv P w) (connId : ℤ) (up : Bool) (agent : Option ℤ) :
    Inv P (w.note P (.link connId up agent) (w.server.setLink connId up agent) w.rows) := by
  refine h.note rfl h.bounded (fun a ha => ⟨ha, rfl⟩) (fun x => rfl) ?_ nofun h.results
  intro c
  change roles (Function.update w.server.links connId _ c).sent = _
  rw [Function.update_apply]
  split_ifs with hc
  · rw [hc]
    exact (List.append_nil _).symm
  · exact (List.append_nil _).symm

/-- A step that answers what it has to keeps the invariant. -/
theorem Inv.step (h : Inv P w) {w' : RoleService} (hanswers : w.Answers P e) (hstep : w.step P e = some w') :
    Inv P w' := by
  cases e with
  | message selected time info =>
      obtain ⟨s', hs, rfl⟩ := Option.map_eq_some_iff.1 hstep
      cases hrequest : request P info with
      | none => exact h.message_other hrequest hs
      | some account => exact h.message_request hrequest hanswers hs
  | execute i =>
      obtain ⟨s', hs, rfl⟩ := Option.map_eq_some_iff.1 hstep
      exact h.execute hs
  | complete i =>
      obtain ⟨s', hs, rfl⟩ := Option.map_eq_some_iff.1 hstep
      exact h.complete hanswers hs
  | write account row =>
      obtain ⟨hsome, heq⟩ := Option.ite_none_right_eq_some.1 hstep
      obtain rfl := Option.some.inj heq
      exact h.write hsome row
  | link connId up agent =>
      obtain rfl := Option.some.inj hstep
      exact h.link connId up agent

end RoleService

def roleMachine (P : Protocol) : Machine RoleService RoleEvent := ⟨RoleService.step P⟩

/-- In a run in which no select completes for an account that has a record by then, and every role can be sent that
is to be sent, every request is answered once, with what the cache has. -/
theorem roles_answered (P : Protocol) (rows : Str → Option TPlayer) {es : List RoleEvent}
    (halong : (roleMachine P).Along (fun w e => w.Answers P e) (.start rows) es) {es₁ es₂ : List RoleEvent}
    {w : RoleService} (hes : es = es₁ ++ es₂) (hrun : (roleMachine P).run (.start rows) es₁ = some w) :
    w.Answered P := by
  subst hes
  have hinv : RoleService.Inv P w := Machine.invariant_along (fun _ _ _ h hanswers hstep => h.step hanswers hstep)
    (RoleService.inv_start rows) halong.first hrun
  exact hinv.answered

/-- A database with a row for the account `a`. -/
def rowOfA (account : Str) : Option TPlayer :=
  if account = [97] then some { TPlayer.new with account := [97], roleId := 7 } else none

/-- The connection 1 asks for the role of the account `a`. -/
def askForA : RoleEvent :=
  .message true 0 ⟨0, MsgId.gs2dsGetRoleRequest, wire.gs2dsGetRoleRequest.serialize [97], 3, 1⟩

/-- Two requests of which the second comes when the first is answered. -/
def oneAfterOther : List RoleEvent := [.link 1 true (some 1), askForA, .execute 0, .complete 0, askForA]

theorem oneAfterOther_answers :
    (roleMachine wire).Along (fun w e => w.Answers wire e) (.start rowOfA) oneAfterOther := by
  refine ⟨trivial, fun w hw => ?_⟩
  obtain rfl := Option.some.inj hw
  refine ⟨fun account haccount => ?_, fun w hw => ?_⟩
  · obtain rfl : [97] = account := Option.some.inj haccount
    rfl
  obtain rfl := Option.some.inj hw
  refine ⟨trivial, fun w hw => ?_⟩
  obtain rfl := Option.some.inj hw
  refine ⟨fun select result hselect hresult => ?_, fun w hw => ?_⟩
  · obtain rfl := Option.some.inj hselect
    obtain rfl := Option.some.inj hresult
    exact ⟨rfl, by decide, by unfold Codec.Fits; decide, by decide, by decide⟩
  obtain rfl := Option.some.inj hw
  refine ⟨fun account haccount => ?_, fun _ _ => trivial⟩
  obtain rfl : [97] = account := Option.some.inj haccount
  exact ⟨by decide, by unfold Codec.Fits; decide, by decide, by decide⟩

theorem oneAfterOther_answered : ∃ w, (roleMachine wire).run (.start rowOfA) oneAfterOther = some w ∧
    w.asked.length = 2 ∧ w.Answered wire :=
  ⟨_, rfl, rfl, roles_answered wire rowOfA oneAfterOther_answers (List.append_nil oneAfterOther).symm rfl⟩

/-- Two requests of which the second comes while the first has its select. -/
def overlapping : List RoleEvent :=
  [.link 1 true (some 1), askForA, askForA, .execute 0, .execute 1, .complete 0, .complete 0]

/-- The second of two overlapping requests is never answered. -/
theorem overlapping_unanswered :
    ∃ w, (roleMachine wire).run (.start rowOfA) overlapping = some w ∧ ¬w.Answered wire := by
  refine ⟨_, rfl, fun h => ?_⟩
  have hcount := h.once ([97], 1)
  revert hcount
  decide

end JmyGame
