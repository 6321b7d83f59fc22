import JmyGame.NetClientMaster

/-! `JmyTcpClients`: the ids of its connections are in `used_ids_`, or in `free_ids_` once `send` or `run` has failed.
Its connections get no event handler, which `connect` calls when the peer takes the connection; and `start` keeps the
connection and the buffer of a new id whose connection is refused. -/

namespace JmyGame

/-- `JmyTcpClients`. -/
structure JmyTcpClients where
  maxCount : ℤ
  usedIds : Finset ℤ
  freeIds : List ℤ
  mgr : JmyTcpConnectionMgr
  bufferMgr : JmyConnectionBufferMgr
  idGen : JmyIdGenerator

namespace JmyTcpClients

/-- The clients behind `loadConfig`; without a configuration there are no connections. -/
def loadConfig (maxCount : ℤ) (maxConn : ℕ) : JmyTcpClients :=
  ⟨maxCount, ∅, [], .init maxConn, .init (2 * maxConn), .new⟩

variable (s : JmyTcpClients)

/-- The end of `start`; `connects` says whether the peer takes the connection. The connection raises its connect event
through `event_handler_` then, which is null: the program goes on only where `hasEventHandler` holds. -/
def connect (hasEventHandler : Bool) (id : ℤ) (conn : ℕ) (connects : Bool) : Option (Option ℕ × JmyTcpClients) :=
  if connects = false then some (none, s)
  else if hasEventHandler = false then none
  else some (some conn, { s with usedIds := insert id s.usedIds })

/-- `start`. No function of the class gives a connection an event handler. -/
def start (connects : Bool) : Option (Option ℕ × JmyTcpClients) :=
  if s.maxCount ≤ s.usedIds.card then some (none, s)
  else match s.freeIds with
  | [] =>
    match s.idGen.get with
    | none => none
    | some (id, idGen) =>
      match s.mgr.getFree id with
      | none => some (none, { s with idGen := idGen })
      | some (conn, mgr) =>
        match s.bufferMgr.getOneBuffer with
        | none => some (none, { s with idGen := idGen, mgr := mgr })
        | some (_, bufferMgr) =>
          { s with idGen := idGen, mgr := mgr, bufferMgr := bufferMgr }.connect false (mgr.ids conn) conn connects
  | id :: _ =>
    match s.mgr.get id with
    | none => some (none, s)
    | some conn => s.connect false id conn connects

def getConnection (connId : ℤ) : Option ℕ := if connId ∈ s.usedIds then s.mgr.get connId else none

/-- The id of a connection that fails. -/
def giveUp (connId : ℤ) : JmyTcpClients :=
  { s with usedIds := s.usedIds.erase connId, freeIds := s.freeIds ++ [connId] }

/-- `send`; `res` is the result of the connection. -/
def send (connId res : ℤ) : ℤ × JmyTcpClients :=
  match s.getConnection connId with
  | none => (0, s)
  | some _ => if res < 0 then (res, s.giveUp connId) else (res, s)

/-- `run`. -/
def run (connId res : ℤ) : ℤ × JmyTcpClients :=
  match s.getConnection connId with
  | none => (-1, s)
  | some _ => if res < 0 then (res, s.giveUp connId) else (res, s)

end JmyTcpClients

inductive ClientsCall where
  | start (connects : Bool)
  | send (connId res : ℤ)
  | run (connId res : ℤ)
  deriving DecidableEq

def clientsMachine : Machine JmyTcpClients ClientsCall where
  step s
    | .start connects => (s.start connects).map Prod.snd
    | .send connId res => some (s.send connId res).2
    | .run connId res => some (s.run connId res).2

/-- The two sets of ids agree with each other and with the connections. -/
structure IdsAgree (s : JmyTcpClients) : Prop where
  disjoint : ∀ id ∈ s.usedIds, id ∉ s.freeIds
  nodup : s.freeIds.Nodup
  held : ∀ id, id ∈ s.usedIds ∨ id ∈ s.freeIds → s.mgr.get id ≠ none

/-- The call comes back, the ids agree behind it, and a `start` that fails changes none of them, no connection and no
buffer. -/
def ClientsCall.Clean (s : JmyTcpClients) (e : ClientsCall) : Prop :=
  ∃ s', clientsMachine.step s e = some s' ∧ IdsAgree s' ∧
    ∀ connects, e = .start connects → (s.start connects).map Prod.fst = some none →
      s'.usedIds = s.usedIds ∧ s'.freeIds = s.freeIds ∧ s'.mgr = s.mgr ∧ s'.bufferMgr = s.bufferMgr

/-- A `start` finds as many ids in use as there may be, or an id for a new connection but no connection. -/
def ClientsCall.Sound (s : JmyTcpClients) : ClientsCall → Prop
  | .start _ => s.maxCount ≤ s.usedIds.card ∨ s.mgr.freeList = [] ∧ s.idGen.get ≠ none
  | .send _ _ => True
  | .run _ _ => True

/-- No id is in use or free again, and the ids of the connections are those up to that of the generator. -/
structure ClientsInv (s : JmyTcpClients) : Prop where
  unused : s.usedIds = ∅
  noFree : s.freeIds = []
  gen : s.idGen = { JmyIdGenerator.new with currId := s.idGen.currId }
  pos : 0 ≤ s.idGen.currId
  keys : ∀ id conn, s.mgr.usedMap id = some conn → id ≤ s.idGen.currId

namespace ClientsInv

variable {s s' : JmyTcpClients}

theorem loadConfig (maxCount : ℤ) (maxConn : ℕ) : ClientsInv (.loadConfig maxCount maxConn) where
  unused := rfl
  noFree := rfl
  gen := rfl
  pos := le_rfl
  keys _ _ h := nomatch h

theorem agree (h : ClientsInv s) : IdsAgree s where
  disjoint id hid := by
    rw [h.unused] at hid
    exact absurd hid (Finset.notMem_empty id)
  nodup := by
    rw [h.noFree]
    exact List.nodup_nil
  held id hid := by
    rw [h.unused, h.noFree] at hid
    exact (hid.elim (Finset.notMem_empty id) List.not_mem_nil).elim

theorem getConnection (h : ClientsInv s) (connId : ℤ) : s.getConnection connId = none := by
  unfold JmyTcpClients.getConnection
  rw [h.unused, if_neg (Finset.notMem_empty connId)]

theorem send (h : ClientsInv s) (connId res : ℤ) : s.send connId res = (0, s) := by
  unfold JmyTcpClients.send
  rw [h.getConnection]

theorem run (h : ClientsInv s) (connId res : ℤ) : s.run connId res = (-1, s) := by
  unfold JmyTcpClients.run
  rw [h.getConnection]

/-- The generator counts up to the last `int`. -/
theorem get_eq (h : ClientsInv s) (hget : s.idGen.get ≠ none) :
    s.idGen.get = some (s.idGen.currId + 1, { s.idGen with currId := s.idGen.currId + 1 }) := by
  by_cases hover : s.idGen.currId = 2 ^ 31 - 1
  · rw [h.gen, hover] at hget
    exact absurd rfl hget
  · rw [h.gen]
    exact JmyIdGenerator.get_new h.pos hover

/-- A `start` below the count of connections takes a new id. It fails without a connection; with one it keeps the
connection when the peer refuses it, and does not come back when the peer takes it. -/
theorem start_eq (h : ClientsInv s) (hroom : ¬s.maxCount ≤ s.usedIds.card) (hget : s.idGen.get ≠ none)
    (connects : Bool) :
    s.mgr.freeList = [] ∧ s.start connects =
        some (none, { s with idGen := { s.idGen with currId := s.idGen.currId + 1 } }) ∨
      ∃ conn mgr, s.mgr.freeList ≠ [] ∧ s.mgr.getFree (s.idGen.currId + 1) = some (conn, mgr) ∧
        ∀ r, s.start connects = some r → ∃ bufferMgr, r = (none, { s with
          idGen := { s.idGen with currId := s.idGen.currId + 1 }
          mgr := mgr
          bufferMgr := bufferMgr }) := by
  have hunused := JmyTcpConnectionMgr.usedMap_succ h.keys
  unfold JmyTcpClients.start
  rw [if_neg hroom, h.noFree]
  dsimp only
  rw [h.get_eq hget]
  dsimp only
  by_cases hconns : s.mgr.freeList = []
  · left
    rw [(JmyTcpConnectionMgr.getFree_eq_none hunused).2 hconns]
    exact ⟨hconns, rfl⟩
  · obtain ⟨conn, mgr, hmgr⟩ := JmyTcpConnectionMgr.exists_getFree hunused hconns
    refine Or.inr ⟨conn, mgr, hconns, hmgr, fun r hr => ?_⟩
    rw [hmgr] at hr
    dsimp only at hr
    cases hbuffer : s.bufferMgr.getOneBuffer with
    | none =>
        rw [hbuffer] at hr
        cases hr
        exact ⟨s.bufferMgr, rfl⟩
    | some b =>
        rw [hbuffer] at hr
        dsimp only [JmyTcpClients.connect] at hr
        rw [if_pos (rfl : false = false)] at hr
        split_ifs at hr
        cases hr
        exact ⟨b.2, rfl⟩

/-- No call puts an id in use. -/
theorem start (h : ClientsInv s) {connects : Bool} {r : Option ℕ × JmyTcpClients}
    (hstart : s.start connects = some r) : r.1 = none ∧ ClientsInv r.2 := by
  by_cases hroom : s.maxCount ≤ s.usedIds.card
  · rw [JmyTcpClients.start, if_pos hroom] at hstart
    cases hstart
    exact ⟨rfl, h⟩
  have hget : s.idGen.get ≠ none := by
    intro hnone
    unfold JmyTcpClients.start at hstart
    rw [if_neg hroom, h.noFree] at hstart
    dsimp only at hstart
    rw [hnone] at hstart
    cases hstart
  rcases h.start_eq hroom hget connects with ⟨-, hnew⟩ | ⟨conn, mgr, -, hmgr, hnew⟩
  · rw [hnew] at hstart
    cases hstart
    exact ⟨rfl, h.unused, h.noFree, by rw [h.gen], Int.le_add_one h.pos,
      fun id conn hconn => Int.le_add_one (h.keys id conn hconn)⟩
  · obtain ⟨bufferMgr, rfl⟩ := hnew r hstart
    exact ⟨rfl, h.unused, h.noFree, by rw [h.gen], Int.le_add_one h.pos,
      fun id conn hconn => JmyTcpConnectionMgr.getFree_keys h.keys hmgr hconn⟩

theorem step (h : ClientsInv s) {e : ClientsCall} (hstep : clientsMachine.step s e = some s') : ClientsInv s' := by
  cases e with
  | start connects =>
      obtain ⟨r, hr, rfl⟩ := Option.map_eq_some_iff.1 hstep
      exact (h.start hr).2
  | send connId res =>
      obtain rfl := Option.some.inj hstep
      rw [h.send]
      exact h
  | run connId res =>
      obtain rfl := Option.some.inj hstep
      rw [h.run]
      exact h

/-- A connection that is taken stays away from the free ones. -/
theorem mgr_ne {conn : ℕ} {mgr : JmyTcpConnectionMgr} {id : ℤ} (hmgr : s.mgr.getFree id = some (conn, mgr)) :
    mgr ≠ s.mgr := by
  rintro rfl
  obtain ⟨hnone, -⟩ := JmyTcpConnectionMgr.getFree_eq_some.1 hmgr
  exact nomatch (JmyTcpConnectionMgr.getFree_self hmgr).symm.trans hnone

theorem start_clean_iff (h : ClientsInv s) (connects : Bool) :
    (ClientsCall.start connects).Sound s ↔ (ClientsCall.start connects).Clean s := by
  by_cases hroom : s.maxCount ≤ s.usedIds.card
  · refine iff_of_true (Or.inl hroom) ⟨s, ?_, h.agree, fun _ _ _ => ⟨rfl, rfl, rfl, rfl⟩⟩
    change (s.start connects).map Prod.snd = some s
    rw [JmyTcpClients.start, if_pos hroom]
    rfl
  by_cases hget : s.idGen.get = none
  · refine iff_of_false (fun hsound => (hsound.resolve_left hroom).2 hget) ?_
    rintro ⟨s', hstep, -⟩
    obtain ⟨r, hr, -⟩ := Option.map_eq_some_iff.1 hstep
    unfold JmyTcpClients.start at hr
    rw [if_neg hroom, h.noFree] at hr
    dsimp only at hr
    rw [hget] at hr
    cases hr
  rcases h.start_eq hroom hget connects with ⟨hconns, hnew⟩ | ⟨conn, mgr, hconns, hmgr, hnew⟩
  · refine iff_of_true (Or.inr ⟨hconns, hget⟩) ⟨_, Option.map_eq_some_iff.2 ⟨_, hnew, rfl⟩, (h.start hnew).2.agree, ?_⟩
    exact fun _ _ _ => ⟨rfl, rfl, rfl, rfl⟩
  · refine iff_of_false (fun hsound => hconns (hsound.resolve_left hroom).1) ?_
    rintro ⟨s', hstep, -, hfailed⟩
    obtain ⟨r, hr, rfl⟩ := Option.map_eq_some_iff.1 hstep
    obtain ⟨bufferMgr, rfl⟩ := hnew r hr
    exact mgr_ne hmgr (hfailed connects rfl (by rw [hr]; rfl)).2.2.1

theorem clean_iff (h : ClientsInv s) (e : ClientsCall) : e.Sound s ↔ e.Clean s := by
  cases e with
  | start connects => exact h.start_clean_iff connects
  | send connId res =>
      refine iff_of_true trivial ⟨s, ?_, h.agree, fun _ heq => nomatch heq⟩
      exact congrArg (fun r : ℤ × JmyTcpClients => some r.2) (h.send connId res)
  | run connId res =>
      refine iff_of_true trivial ⟨s, ?_, h.agree, fun _ heq => nomatch heq⟩
      exact congrArg (fun r : ℤ × JmyTcpClients => some r.2) (h.run connId res)

end ClientsInv

/-- In no run a connection is ever started: the ids in use and the free ids stay empty. -/
theorem no_client_started {maxCount : ℤ} {maxConn : ℕ} {es : List ClientsCall} {s : JmyTcpClients}
    (hrun : clientsMachine.run (.loadConfig maxCount maxConn) es = some s) :
    s.usedIds = ∅ ∧ s.freeIds = [] ∧ ∀ connects r, s.start connects = some r → r.1 = none := by
  have h : ClientsInv s :=
    Machine.invariant_run (fun _ _ _ h hstep => h.step hstep) (ClientsInv.loadConfig maxCount maxConn) hrun
  exact ⟨h.unused, h.noFree, fun connects r hr => (h.start hr).1⟩

/-- Every call of a run comes back, leaves ids that agree and no trace of a failure exactly when no `start` finds room
for an id and a connection: the connection is lost when the peer refuses it, and the program when the peer takes it. -/
theorem clients_clean_iff (maxCount : ℤ) (maxConn : ℕ) (es : List ClientsCall) :
    clientsMachine.Along (fun s e => e.Sound s) (.loadConfig maxCount maxConn) es ↔
      clientsMachine.Along (fun s e => e.Clean s) (.loadConfig maxCount maxConn) es :=
  Machine.along_iff_along (fun _ e h => h.clean_iff e) (fun _ _ _ h _ hstep => h.step hstep)
    (ClientsInv.loadConfig maxCount maxConn) es

/-- Two peers refuse: the second `start` finds no connection any more. -/
theorem refused_lost : clientsMachine.run (.loadConfig 5 1) [.start false, .start false] ≠ none ∧
    ¬clientsMachine.Along (fun s e => e.Clean s) (.loadConfig 5 1) [.start false, .start false] := by
  refine ⟨nofun, fun h => ?_⟩
  obtain ⟨s', hstep, -, hfailed⟩ := h.1
  have hkept := congrArg JmyTcpConnectionMgr.freeList (hfailed false rfl rfl).2.2.1
  obtain rfl := Option.some.inj hstep
  cases hkept

end JmyGame
