import JmyGame.ClusterLinks

/-! The db server with all its connections. The handlers work on one connection at a time; the records, the counter
of role ids and the selects that the database has not answered yet are shared. -/

namespace JmyGame

open CArith

namespace PlayerTable

/-- The objects that are known were allocated. -/
structure Bounded (t : PlayerTable) : Prop where
  key : ∀ roleId r, t.keyRecordMap.find1 roleId = some r → r < t.next
  key2 : ∀ account r, t.getByKey2 account = some r → r < t.next
  states : ∀ r, t.states r ≠ none → r < t.next

theorem bounded_empty : Bounded .empty := ⟨nofun, nofun, fun _ h => absurd rfl h⟩

/-- The table with a record that a select has read. -/
def loaded (t : PlayerTable) (account : Str) (row : TPlayer) : PlayerTable :=
  let table := (t.getNewByKey2 account).2.modify t.next fun _ => row
  if row.roleId = 0 then table else (table.insertKeyRecord row.roleId t.next).2

/-- The table with a record that `processCreateRole` makes. -/
def created (t : PlayerTable) (roleId : BitVec 64) (account : Str) (f : TPlayer → TPlayer) : PlayerTable :=
  (((t.getNewByKeyAndKey2 roleId account).2.modify t.next f).commitInsertRequest t.next).2

/-- The table with a record that has changed. -/
def changed (t : PlayerTable) (r : ℕ) (f : TPlayer → TPlayer) : PlayerTable := ((t.modify r f).commitUpdateRequest r).2

/-- What a message does to the records: nothing, a new record for an account that has none and that the message is
for, or a change of a record that keeps its keys. -/
inductive Move (isFor : Str → Prop) (t : PlayerTable) : PlayerTable → Prop
  | same : Move isFor t t
  | created (roleId : BitVec 64) (account : Str) (f : TPlayer → TPlayer) (hfor : isFor account)
      (hnone : t.getByKey2 account = none) (hf : ∀ user, (f user).account = account ∧ (f user).roleId = roleId) :
      Move isFor t (t.created roleId account f)
  | changed (r : ℕ) (f : TPlayer → TPlayer) (hr : r < t.next)
      (hf : ∀ user, (f user).account = user.account ∧ (f user).roleId = user.roleId) : Move isFor t (t.changed r f)

variable {t t' : PlayerTable} {isFor : Str → Prop} {account a : Str} {roleId : BitVec 64} {r : ℕ}
  {f : TPlayer → TPlayer}

theorem Bounded.fresh (h : t.Bounded) : t.keyRecordMap.find2 t.next = none ∧ t.key2RecordMap.find2 t.next = none := by
  constructor
  · by_contra hne
    obtain ⟨roleId, hr⟩ := Option.ne_none_iff_exists'.1 hne
    exact absurd (h.key roleId t.next ((t.keyRecordMap.inverse roleId t.next).2 hr)) (lt_irrefl _)
  · by_contra hne
    obtain ⟨account, hr⟩ := Option.ne_none_iff_exists'.1 hne
    exact absurd (h.key2 account t.next ((t.key2RecordMap.inverse account t.next).2 hr)) (lt_irrefl _)

theorem getByKey2_insert (h : t.Bounded) (hnone : t.getByKey2 account = none) :
    (t.key2RecordMap.insert account t.next).2.find1 a = if a = account then some t.next else t.getByKey2 a :=
  (BiMap.insert_of_absent hnone h.fresh.2).2 a

theorem insertKeyRecord_kept (t : PlayerTable) (roleId : BitVec 64) (r : ℕ) :
    (t.insertKeyRecord roleId r).2.key2RecordMap = t.key2RecordMap ∧ (t.insertKeyRecord roleId r).2.recs = t.recs ∧
      (t.insertKeyRecord roleId r).2.states = t.states ∧ (t.insertKeyRecord roleId r).2.next = t.next := by
  unfold insertKeyRecord
  split_ifs <;> exact ⟨rfl, rfl, rfl, rfl⟩

theorem loaded_kept (t : PlayerTable) (account : Str) (row : TPlayer) :
    (t.loaded account row).key2RecordMap = (t.key2RecordMap.insert account t.next).2 ∧
      (t.loaded account row).recs = Function.update t.recs t.next row ∧ (t.loaded account row).states = t.states ∧
      (t.loaded account row).next = t.next + 1 := by
  have hrecs : Function.update (Function.update t.recs t.next .new) t.next row = Function.update t.recs t.next row :=
    Function.update_idem _ _ _
  unfold loaded
  dsimp only
  split_ifs
  · exact ⟨rfl, hrecs, rfl, rfl⟩
  · obtain ⟨hkey2, hrec, hstates, hnext⟩ :=
      insertKeyRecord_kept ((t.getNewByKey2 account).2.modify t.next fun _ => row) row.roleId t.next
    exact ⟨hkey2, hrec.trans hrecs, hstates, hnext⟩

theorem created_kept (h : t.Bounded) (roleId : BitVec 64) (account : Str) (f : TPlayer → TPlayer) :
    (t.created roleId account f).keyRecordMap = (t.keyRecordMap.insert roleId t.next).2 ∧
      (t.created roleId account f).key2RecordMap = (t.key2RecordMap.insert account t.next).2 ∧
      (t.created roleId account f).recs = Function.update t.recs t.next (f .new) ∧
      (t.created roleId account f).states = Function.update t.states t.next (some .insert) ∧
      (t.created roleId account f).next = t.next + 1 := by
  have hstate : t.states t.next = none := by
    by_contra hne
    exact absurd (h.states t.next hne) (lt_irrefl _)
  have hrecs : Function.update (Function.update t.recs t.next .new) t.next
      (f (Function.update t.recs t.next .new t.next)) = Function.update t.recs t.next (f .new) := by
    rw [Function.update_self, Function.update_idem]
  have hnew : ((t.getNewByKeyAndKey2 roleId account).2.modify t.next f).states t.next = none := hstate
  rw [created, commitInsertRequest, hnew]
  exact ⟨rfl, rfl, hrecs, rfl, rfl⟩

theorem changed_kept (t : PlayerTable) (r : ℕ) (f : TPlayer → TPlayer) :
    (t.changed r f).keyRecordMap = t.keyRecordMap ∧ (t.changed r f).key2RecordMap = t.key2RecordMap ∧
      (t.changed r f).recs = Function.update t.recs r (f (t.recs r)) ∧ (t.changed r f).next = t.next := by
  unfold changed commitUpdateRequest
  split <;> exact ⟨rfl, rfl, rfl, rfl⟩

/-- A change leaves the other records and their states, and a record that is to be inserted stays one. -/
theorem changed_states (t : PlayerTable) (r : ℕ) (f : TPlayer → TPlayer) (s : ℕ) :
    (t.changed r f).states s = t.states s ∨
      s = r ∧ t.states s ≠ some .insert ∧ (t.changed r f).states s = some .update := by
  have hset : t.states r ≠ some .insert → ((t.modify r f).setState r .update).states s = t.states s ∨
      s = r ∧ t.states s ≠ some .insert ∧ ((t.modify r f).setState r .update).states s = some .update := by
    intro hne
    by_cases hs : s = r
    · subst hs
      exact Or.inr ⟨rfl, hne, Function.update_self _ _ _⟩
    · exact Or.inl (Function.update_of_ne hs _ _)
  have hstate : (t.modify r f).states r = t.states r := rfl
  unfold changed commitUpdateRequest
  rw [hstate]
  cases hr : t.states r with
  | none => exact hset (by rw [hr]; exact nofun)
  | some state =>
      cases state with
      | none => exact hset (by rw [hr]; exact nofun)
      | insert => exact Or.inl rfl
      | delete => exact Or.inl rfl
      | update => exact Or.inl rfl

theorem find_insert_lt {κ : Type} [DecidableEq κ] {m : BiMap κ ℕ} {n : ℕ} (h : ∀ k r, m.find1 k = some r → r < n)
    {k k' : κ} {r : ℕ} (hr : (m.insert k n).2.find1 k' = some r) : r < n + 1 := by
  rcases BiMap.insert_find1 hr with hold | ⟨-, -, rfl⟩
  · exact Nat.lt_succ_of_lt (h k' r hold)
  · exact Nat.lt_succ_self r

theorem Bounded.loaded (h : t.Bounded) (account : Str) (row : TPlayer) : (t.loaded account row).Bounded := by
  obtain ⟨hkey2, -, hstates, hnext⟩ := loaded_kept t account row
  refine ⟨?_, ?_, ?_⟩
  · intro roleId r hr
    rw [hnext]
    have hcases : t.keyRecordMap.find1 roleId = some r ∨
        (t.keyRecordMap.insert row.roleId t.next).2.find1 roleId = some r := by
      unfold PlayerTable.loaded insertKeyRecord at hr
      dsimp only at hr
      split_ifs at hr
      · exact Or.inl hr
      · exact Or.inl hr
      · exact Or.inr hr
      · exact Or.inl hr
    rcases hcases with hold | hnew
    · exact Nat.lt_succ_of_lt (h.key roleId r hold)
    · exact find_insert_lt h.key hnew
  · intro a r hr
    rw [getByKey2, hkey2] at hr
    rw [hnext]
    exact find_insert_lt h.key2 hr
  · intro r hr
    rw [hstates] at hr
    rw [hnext]
    exact Nat.lt_succ_of_lt (h.states r hr)

theorem Bounded.move (h : t.Bounded) (hmove : t.Move isFor t') : t'.Bounded := by
  cases hmove with
  | same => exact h
  | created roleId account f hfor hnone hf =>
      obtain ⟨hkey, hkey2, -, hstates, hnext⟩ := created_kept h roleId account f
      refine ⟨?_, ?_, ?_⟩
      · intro roleId' r hr
        rw [hkey] at hr
        rw [hnext]
        exact find_insert_lt h.key hr
      · intro a r hr
        rw [getByKey2, hkey2] at hr
        rw [hnext]
        exact find_insert_lt h.key2 hr
      · intro r hr
        rw [hstates] at hr
        rw [hnext]
        by_cases heq : r = t.next
        · exact heq ▸ Nat.lt_succ_self _
        · rw [Function.update_of_ne heq] at hr
          exact Nat.lt_succ_of_lt (h.states r hr)
  | changed r f hr hf =>
      obtain ⟨hkey, hkey2, -, hnext⟩ := changed_kept t r f
      refine ⟨?_, ?_, ?_⟩
      · intro roleId s hs
        rw [hkey] at hs
        rw [hnext]
        exact h.key roleId s hs
      · intro a s hs
        rw [getByKey2, hkey2] at hs
        rw [hnext]
        exact h.key2 a s hs
      · intro s hs
        rw [hnext]
        rcases changed_states t r f s with hsame | ⟨rfl, -, -⟩
        · rw [hsame] at hs
          exact h.states s hs
        · exact hr

/-- An account that has a record keeps it. -/
theorem Move.getByKey2 (hmove : t.Move isFor t') (h : t.Bounded) (ha : t.getByKey2 a = some r) :
    t'.getByKey2 a = some r := by
  cases hmove with
  | same => exact ha
  | created roleId account f hfor hnone hf =>
      obtain ⟨-, hkey2, -⟩ := created_kept h roleId account f
      rw [PlayerTable.getByKey2, hkey2]
      exact BiMap.find1_insert_of_some ha
  | changed s f hs hf =>
      obtain ⟨-, hkey2, -⟩ := changed_kept t s f
      rw [PlayerTable.getByKey2, hkey2]
      exact ha

theorem Move.of_none (hmove : t.Move isFor t') (h : t.Bounded) (ha : t'.getByKey2 a = none) : t.getByKey2 a = none := by
  by_contra hne
  obtain ⟨r, hr⟩ := Option.ne_none_iff_exists'.1 hne
  cases ha.symm.trans (hmove.getByKey2 h hr)

theorem loaded_getByKey2 (account : Str) (row : TPlayer) (ha : t.getByKey2 a = some r) :
    (t.loaded account row).getByKey2 a = some r := by
  rw [getByKey2, (loaded_kept t account row).1]
  exact BiMap.find1_insert_of_some ha

theorem loaded_none {row : TPlayer} (ha : (t.loaded account row).getByKey2 a = none) : t.getByKey2 a = none := by
  by_contra hne
  obtain ⟨r, hr⟩ := Option.ne_none_iff_exists'.1 hne
  cases ha.symm.trans (loaded_getByKey2 account row hr)

end PlayerTable

/-- The role responses of a connection. -/
def roles (packets : List Packet) : List Packet := packets.filter fun p => p.msgId = MsgId.ds2gsGetRoleResponse

/-- The role that is sent for a record. -/
def TPlayer.role (user : TPlayer) : MsgRoleResponse :=
  ⟨user.account, ⟨user.roleId, user.nickName, 0, user.sex, 0, user.level⟩⟩

/-- The role that is sent for what a select reads. -/
def selectedRole (account : Str) : Option TPlayer → MsgRoleResponse
  | none => ⟨account, ⟨0, [], 0, 0, 0, 0⟩⟩
  | some row => row.role

/-- The packet of a role. -/
def rolePacket (P : Protocol) (response : MsgRoleResponse) : Packet :=
  ⟨none, MsgId.ds2gsGetRoleResponse, short (P.ds2gsGetRoleResponse.serialize response)⟩

/-- The message asks for a role to be created for the account. -/
def Creates (P : Protocol) (info : JmyMsgInfo) (account : Str) : Prop :=
  info.msgId = MsgId.gs2dsCreateRoleRequest ∧
    ∃ request, P.gs2dsCreateRoleRequest.parse info.data = some request ∧ request.account = account

/-- The link is up or not as before, and an agent stays. -/
structure DB.StaysLinked (d d' : DB) : Prop where
  gameUp : d'.gameUp = d.gameUp
  agent : d.agent.isSome = true → d'.agent.isSome = true

/-- What a message that does not ask for a role does. -/
structure Effect (isFor : Str → Prop) (d d' : DB) : Prop where
  move : d.table.Move isFor d'.table
  selecting : d'.selecting = d.selecting
  sent : roles d'.toGame = roles d.toGame
  link : d.StaysLinked d'

theorem roles_append (packets packets' : List Packet) : roles (packets ++ packets') = roles packets ++ roles packets' :=
  List.filter_append packets packets'

theorem Effect.refl (isFor : Str → Prop) (d : DB) : Effect isFor d d := ⟨.same, rfl, rfl, rfl, id⟩

/-- Another message is sent. -/
theorem Effect.send {isFor : Str → Prop} {d d' : DB} (h : Effect isFor d d') {msgId : MsgId}
    (hmsg : msgId ≠ MsgId.ds2gsGetRoleResponse) (data : List Byte) : Effect isFor d (d'.gameConnSend msgId data).2 := by
  unfold DB.gameConnSend
  split_ifs
  · refine ⟨h.move, h.selecting, ?_, h.link.gameUp, h.link.agent⟩
    have hother : roles [⟨none, msgId, short data⟩] = [] := List.filter_cons_of_neg (by simpa using hmsg)
    rw [roles_append, hother, List.append_nil, h.sent]
  · exact h

namespace DbGameHandler

open DBResCBFuncs

variable {P : Protocol} {d : DB} {info : JmyMsgInfo} {isFor : Str → Prop}

theorem processConnectDBRequest_effect : Effect isFor d (processConnectDBRequest P d info).2 := by
  unfold processConnectDBRequest
  split_ifs
  · exact Effect.refl _ d
  split
  · exact Effect.refl _ d
  dsimp only
  have hmade : ∀ gameId, Effect isFor d (d.newAgent gameId).2 := by
    intro gameId
    unfold DB.newAgent
    split_ifs
    · exact Effect.refl _ d
    · exact ⟨.same, rfl, rfl, rfl, fun _ => rfl⟩
  split_ifs
  · exact hmade _
  split
  · exact hmade _
  split_ifs
  · exact (hmade _).send (by decide) _
  · exact (hmade _).send (by decide) _

theorem processCreateRole_effect {time : ℕ} (hbounded : d.table.Bounded)
    (hmsg : info.msgId = MsgId.gs2dsCreateRoleRequest) :
    Effect (Creates P info) d (processCreateRole P time d info).2 := by
  unfold processCreateRole
  split_ifs
  · exact Effect.refl _ d
  split
  · exact Effect.refl _ d
  rename_i request hparse
  dsimp only
  split
  · exact Effect.refl _ d
  rename_i hnone
  have hfound := (getNewByKeyAndKey2_found d.table (nextRoleId d time) request.account).2 (Or.inr hbounded.fresh.1)
  split
  · rename_i hnotfound
    rw [← Option.not_isSome_iff_eq_none] at hnotfound
    exact absurd hfound hnotfound
  have hmade : Effect (Creates P info) d { (d.genUniqueRoleId (d.agent.getD 0) time).2 with
      table := d.table.created (nextRoleId d time) request.account fun user => { user with
        roleId := nextRoleId d time, account := request.account, sex := request.sex, nickName := request.nickName } } :=
    ⟨.created _ _ _ ⟨hmsg, request, hparse, rfl⟩ hnone fun _ => ⟨rfl, rfl⟩, rfl, rfl, rfl, id⟩
  split_ifs
  · exact hmade
  split
  · exact hmade
  split_ifs
  · exact hmade.send (by decide) _
  · exact hmade.send (by decide) _

theorem processSetRoleData_effect (hbounded : d.table.Bounded) : Effect isFor d (processSetRoleData P d info).2 := by
  unfold processSetRoleData
  split_ifs
  · exact Effect.refl _ d
  split
  · exact Effect.refl _ d
  rename_i request _
  split
  · exact Effect.refl _ d
  rename_i p hp
  have hcommit : ∀ f, (d.table.modify p f).commitUpdateRequestByKey request.roleId =
      (d.table.modify p f).commitUpdateRequest p := by
    intro f
    have hkey : (d.table.modify p f).getByKey request.roleId = some p := hp
    rw [PlayerTable.commitUpdateRequestByKey, hkey]
  dsimp only
  rw [hcommit]
  have hmade : Effect isFor d (d.setTable (d.table.changed p fun user =>
      { user with sex := request.roleData.sex, level := request.roleData.level })) :=
    ⟨.changed p _ (hbounded.key _ _ hp) fun _ => ⟨rfl, rfl⟩, rfl, rfl, rfl, id⟩
  split
  · exact hmade
  split_ifs
  · exact hmade.send (by decide) _
  · exact hmade.send (by decide) _

theorem processAddItem_effect (hbounded : d.table.Bounded) : Effect isFor d (processAddItem P d info).2 := by
  unfold processAddItem
  split_ifs
  · exact Effect.refl _ d
  split
  · exact Effect.refl _ d
  rename_i request _
  split
  · exact Effect.refl _ d
  rename_i p hp
  dsimp only
  have hmade : Effect isFor d (d.setTable (d.table.changed p fun user => { user with
      items := Function.update user.items request.typeId
        (some ((user.items request.typeId).getD 0 + request.itemNum)) })) :=
    ⟨.changed p _ (hbounded.key _ _ hp) fun _ => ⟨rfl, rfl⟩, rfl, rfl, rfl, id⟩
  split
  · exact hmade
  split_ifs
  · exact hmade.send (by decide) _
  · exact hmade.send (by decide) _

/-- A message that does not ask for a role makes no role response and no select. -/
theorem handle_effect {selected : Bool} {time : ℕ} (hbounded : d.table.Bounded)
    (hmsg : info.msgId ≠ MsgId.gs2dsGetRoleRequest) :
    Effect (Creates P info) d (handle P selected time d info).2 := by
  unfold handle processDefault
  split_ifs with _ hcreate
  · exact processConnectDBRequest_effect
  · exact processCreateRole_effect hbounded hcreate
  · exact processSetRoleData_effect hbounded
  · exact processAddItem_effect hbounded
  · exact Effect.refl _ d

/-- A role that can be sent is sent. -/
theorem sendRole_sends {response : MsgRoleResponse} {connId : ℤ} (h : SendsRole P d response connId) :
    sendRole P d response connId = (0, { d with toGame := d.toGame ++ [rolePacket P response] }) := by
  obtain ⟨hagent, hfits, hup, htakes⟩ := h
  have hsend : d.gameConnSend MsgId.ds2gsGetRoleResponse (P.ds2gsGetRoleResponse.serialize response) =
      (((P.ds2gsGetRoleResponse.serialize response).length : ℤ),
        { d with toGame := d.toGame ++ [rolePacket P response] }) := if_pos ⟨hup, htakes⟩
  unfold sendRole DB.agentSend
  rw [if_neg (by rw [hagent]; decide), Codec.serializeToArray_of_fits hfits]
  dsimp only
  rw [hsend]
  dsimp only
  rw [if_neg (not_lt.2 (Int.natCast_nonneg _)), if_neg (by decide)]

/-- Sending a role changes nothing but what is sent. -/
theorem sendRole_kept (d : DB) (response : MsgRoleResponse) (connId : ℤ) :
    (sendRole P d response connId).2.table = d.table ∧ (sendRole P d response connId).2.selecting = d.selecting ∧
      (sendRole P d response connId).2.gameUp = d.gameUp ∧ (sendRole P d response connId).2.agent = d.agent := by
  have hsend : ∀ data, (d.agentSend MsgId.ds2gsGetRoleResponse data).2.table = d.table ∧
      (d.agentSend MsgId.ds2gsGetRoleResponse data).2.selecting = d.selecting ∧
        (d.agentSend MsgId.ds2gsGetRoleResponse data).2.gameUp = d.gameUp ∧
          (d.agentSend MsgId.ds2gsGetRoleResponse data).2.agent = d.agent := by
    intro data
    unfold DB.agentSend DB.gameConnSend
    split_ifs <;> exact ⟨rfl, rfl, rfl, rfl⟩
  unfold sendRole
  split_ifs
  · exact ⟨rfl, rfl, rfl, rfl⟩
  split
  · exact ⟨rfl, rfl, rfl, rfl⟩
  dsimp only
  split_ifs
  · exact hsend _
  · exact hsend _

theorem handle_getRole (selected : Bool) (time : ℕ) (hmsg : info.msgId = MsgId.gs2dsGetRoleRequest) (d : DB) :
    handle P selected time d info = processGetRole P selected d info := by
  unfold handle
  rw [if_neg (by rw [hmsg]; decide), if_pos hmsg]

/-- What the request for a role does. -/
inductive Asked (P : Protocol) (selected : Bool) (d : DB) (info : JmyMsgInfo) : DB → Prop
  | unread (hparse : P.gs2dsGetRoleRequest.parse info.data = none) : Asked P selected d info d
  | refused (account : Str) (hparse : P.gs2dsGetRoleRequest.parse info.data = some account)
      (hnone : d.table.getByKey2 account = none) (hselected : selected = false) : Asked P selected d info d
  | selecting (account : Str) (hparse : P.gs2dsGetRoleRequest.parse info.data = some account)
      (hnone : d.table.getByKey2 account = none) (hselected : selected = true) :
      Asked P selected d info { d with selecting := d.selecting ++ [(account, info.connId)] }
  | found (account : Str) (r : ℕ) (hparse : P.gs2dsGetRoleRequest.parse info.data = some account)
      (hsome : d.table.getByKey2 account = some r) :
      Asked P selected d info (sendRole P d (d.table.recs r).role info.connId).2

theorem processGetRole_asked {selected : Bool} : Asked P selected d info (processGetRole P selected d info).2 := by
  unfold processGetRole
  cases hparse : P.gs2dsGetRoleRequest.parse info.data with
  | none => exact .unread hparse
  | some account =>
      dsimp only
      cases hrec : d.table.getByKey2 account with
      | none =>
          cases selected with
          | false => exact .refused account hparse hrec rfl
          | true => exact .selecting account hparse hrec rfl
      | some r =>
          dsimp only
          split_ifs
          · exact .found account r hparse hrec
          · exact .found account r hparse hrec

/-- The table behind a select that reads a row, with the result of `insert_key_record`. -/
def keyed (t : PlayerTable) (account : Str) (row : TPlayer) : Bool × PlayerTable :=
  let table := (t.getNewByKey2 account).2.modify t.next fun _ => row
  if row.roleId = 0 then (true, table) else table.insertKeyRecord row.roleId t.next

theorem keyed_snd (t : PlayerTable) (account : Str) (row : TPlayer) :
    (keyed t account row).2 = t.loaded account row := by
  unfold keyed PlayerTable.loaded
  split_ifs <;> rfl

/-- The record of an account that has none gets its first key. -/
theorem keyed_fst {t : PlayerTable} (hbounded : t.Bounded) {account : Str} (hnone : t.getByKey2 account = none)
    (row : TPlayer) : (keyed t account row).1 = true := by
  have hfind : ((t.getNewByKey2 account).2.modify t.next fun _ => row).key2RecordMap.find2 t.next ≠ none := by
    have hone : (t.key2RecordMap.insert account t.next).2.find1 account = some t.next := by
      rw [PlayerTable.getByKey2_insert hbounded hnone, if_pos rfl]
    intro h
    cases h.symm.trans (((t.key2RecordMap.insert account t.next).2.inverse account t.next).1 hone)
  unfold keyed PlayerTable.insertKeyRecord
  dsimp only
  rw [if_neg hfind]
  split_ifs <;> rfl

theorem onSelect_row (d : DB) (account : Str) (connId : ℤ) (row : TPlayer) :
    (onSelect P d account connId (.row row)).2 =
      if (keyed d.table account row).1 = false then d.setTable (d.table.loaded account row)
      else (sendRole P (d.setTable (d.table.loaded account row)) row.role connId).2 := by
  rw [← keyed_snd]
  change (if (keyed d.table account row).1 = false then (-1, d.setTable (keyed d.table account row).2) else
    let sent := sendRole P (d.setTable (keyed d.table account row).2) row.role connId
    if sent.1 < 0 then (-1, sent.2) else (0, sent.2)).2 = _
  dsimp only
  split_ifs <;> rfl

theorem onSelect_empty (d : DB) (account : Str) (connId : ℤ) : (onSelect P d account connId .empty).2 =
    (sendRole P d (selectedRole account none) connId).2 := by
  unfold onSelect sendGetRoleEmptyResponse selectedRole
  dsimp only
  split_ifs <;> rfl

/-- The answer of the database leaves the record that it reads, and makes no select. -/
theorem onSelect_row_kept (d : DB) (account : Str) (connId : ℤ) (row : TPlayer) :
    (onSelect P d account connId (.row row)).2.table = d.table.loaded account row ∧
      (onSelect P d account connId (.row row)).2.selecting = d.selecting ∧
        (onSelect P d account connId (.row row)).2.gameUp = d.gameUp ∧
          (onSelect P d account connId (.row row)).2.agent = d.agent := by
  rw [onSelect_row]
  split_ifs
  · exact ⟨rfl, rfl, rfl, rfl⟩
  · exact sendRole_kept (d.setTable (d.table.loaded account row)) row.role connId

/-- A row that is not read to its end leaves a record without its first key. -/
theorem onSelect_broken (hbounded : d.table.Bounded) (account : Str) (connId : ℤ) (row : TPlayer) :
    (onSelect P d account connId (.broken row)).2 =
      d.setTable ((d.table.getNewByKey2 account).2.modify d.table.next fun _ => row) :=
  congrArg (fun r : Bool × PlayerTable => d.setTable r.2) (if_pos hbounded.fresh.1)

theorem onSelect_bounded (hbounded : d.table.Bounded) (account : Str) (connId : ℤ) (result : SelectResult) :
    (onSelect P d account connId result).2.table.Bounded := by
  cases result with
  | empty =>
      rw [onSelect_empty, (sendRole_kept _ _ _).1]
      exact hbounded
  | broken row =>
      have hloaded := hbounded.loaded account { row with roleId := 0 }
      rw [PlayerTable.loaded, if_pos rfl] at hloaded
      rw [onSelect_broken hbounded]
      exact ⟨hloaded.key, hloaded.key2, hloaded.states⟩
  | row row =>
      rw [(onSelect_row_kept _ _ _ _).1]
      exact hbounded.loaded account row

/-- The answer of the database leaves the link alone. -/
theorem onSelect_link (hbounded : d.table.Bounded) (account : Str) (connId : ℤ) (result : SelectResult) :
    (onSelect P d account connId result).2.gameUp = d.gameUp ∧
      (onSelect P d account connId result).2.agent = d.agent := by
  cases result with
  | empty =>
      rw [onSelect_empty]
      exact (sendRole_kept _ _ _).2.2
  | broken row =>
      rw [onSelect_broken hbounded]
      exact ⟨rfl, rfl⟩
  | row row => exact (onSelect_row_kept _ _ _ _).2.2

/-- A message moves the records, and leaves the link alone. -/
theorem handle_kept {selected : Bool} {time : ℕ} (hbounded : d.table.Bounded) :
    (handle P selected time d info).2.table.Bounded ∧ d.StaysLinked (handle P selected time d info).2 := by
  by_cases hmsg : info.msgId = MsgId.gs2dsGetRoleRequest
  · rw [handle_getRole selected time hmsg]
    have hasked : Asked P selected d info (processGetRole P selected d info).2 := processGetRole_asked
    generalize (processGetRole P selected d info).2 = d' at hasked
    cases hasked with
    | unread => exact ⟨hbounded, rfl, id⟩
    | refused => exact ⟨hbounded, rfl, id⟩
    | selecting => exact ⟨hbounded, rfl, id⟩
    | found account r =>
        obtain ⟨htable, -, hup, hagent⟩ := sendRole_kept (P := P) d (d.table.recs r).role info.connId
        rw [htable]
        exact ⟨hbounded, hup, fun hsome => hagent.symm ▸ hsome⟩
  · have heffect : Effect (Creates P info) d (handle P selected time d info).2 := handle_effect hbounded hmsg
    exact ⟨hbounded.move heffect.move, heffect.link⟩

end DbGameHandler

/-- A connection of the db server with its game agent, and all that was sent on it. -/
structure DbLink where
  up : Bool
  agent : Option ℤ
  sent : List Packet

/-- A select for an account, and what it has read when the database has executed it. -/
structure DbSelect where
  account : Str
  connId : ℤ
  result : Option (Option TPlayer)

/-- The db server with its connections. -/
structure DbServer where
  table : PlayerTable
  counter : BitVec 16
  links : ℤ → DbLink
  selects : List DbSelect

namespace DbServer

def start : DbServer := ⟨.empty, 0, fun _ => ⟨false, none, []⟩, []⟩

variable (P : Protocol) (s : DbServer)

/-- The server as the handlers of a connection see it, without the selects that are there already. -/
def view (connId : ℤ) : DB :=
  ⟨s.table, (s.links connId).up, connId, (s.links connId).agent, s.counter, [], (s.links connId).sent⟩

/-- The server behind a handler of a connection. -/
def back (connId : ℤ) (d : DB) : DbServer where
  table := d.table
  counter := d.counter
  links := Function.update s.links connId ⟨d.gameUp, d.agent, d.toGame⟩
  selects := s.selects ++ d.selecting.map fun p => ⟨p.1, p.2, none⟩

/-- A message of a connection. `selected` says whether the database takes a select. -/
def message (selected : Bool) (time : ℕ) (info : JmyMsgInfo) : Option DbServer :=
  if (s.links info.connId).up then
    some (s.back info.connId (DB.closeGameOnError
      (DbGameHandler.handle P selected time (s.view info.connId) info)))
  else none

/-- The database executes a select. -/
def execute (find : Str → Option TPlayer) (i : ℕ) : Option DbServer :=
  match s.selects[i]? with
  | some ⟨account, connId, none⟩ => some { s with selects := s.selects.set i ⟨account, connId, some (find account)⟩ }
  | _ => none

/-- The main loop runs the callback of a select that was executed. -/
def complete (i : ℕ) : Option DbServer :=
  match s.selects[i]? with
  | some ⟨account, connId, some result⟩ => some ({ s with selects := s.selects.eraseIdx i }.back connId
      (DBResCBFuncs.onSelect P (s.view connId) account connId (result.elim .empty .row)).2)
  | _ => none

/-- A connection comes or goes, and its agent with it. -/
def setLink (connId : ℤ) (up : Bool) (agent : Option ℤ) : DbServer :=
  { s with links := Function.update s.links connId ⟨up, agent, (s.links connId).sent⟩ }

variable {P s} {s' : DbServer} {selected : Bool} {time : ℕ} {info : JmyMsgInfo} {connId : ℤ}

theorem back_links (s : DbServer) (connId : ℤ) (d : DB) (c : ℤ) :
    roles ((s.back connId d).links c).sent = if c = connId then roles d.toGame else roles (s.links c).sent := by
  change roles (Function.update s.links connId _ c).sent = _
  rw [Function.update_apply]
  split_ifs <;> rfl

/-- A message leaves what its handler leaves; the connection may be closed. -/
theorem message_back (h : s.message P selected time info = some s') : ∃ d, s' = s.back info.connId d ∧
    d.table = (DbGameHandler.handle P selected time (s.view info.connId) info).2.table ∧
    d.selecting = (DbGameHandler.handle P selected time (s.view info.connId) info).2.selecting ∧
    d.toGame = (DbGameHandler.handle P selected time (s.view info.connId) info).2.toGame := by
  obtain ⟨-, heq⟩ := Option.ite_none_right_eq_some.1 h
  refine ⟨_, (Option.some.inj heq).symm, ?_⟩
  unfold DB.closeGameOnError
  split_ifs <;> exact ⟨rfl, rfl, rfl⟩

/-- What a message does to the records, and the selects that it makes. -/
theorem message_move (hbounded : s.table.Bounded) (h : s.message P selected time info = some s') :
    s.table.Move (Creates P info) s'.table ∧
      ∃ new : List DbSelect, s'.selects = s.selects ++ new ∧ ∀ select ∈ new, select.result = none := by
  obtain ⟨d, rfl, htable, -, -⟩ := message_back h
  refine ⟨?_, d.selecting.map fun p => ⟨p.1, p.2, none⟩, rfl, ?_⟩
  · change s.table.Move (Creates P info) d.table
    rw [htable]
    by_cases hmsg : info.msgId = MsgId.gs2dsGetRoleRequest
    · rw [DbGameHandler.handle_getRole selected time hmsg]
      have hasked : DbGameHandler.Asked P selected (s.view info.connId) info
          (DbGameHandler.processGetRole P selected (s.view info.connId) info).2 := DbGameHandler.processGetRole_asked
      generalize (DbGameHandler.processGetRole P selected (s.view info.connId) info).2 = d' at hasked
      cases hasked with
      | unread => exact .same
      | refused => exact .same
      | selecting => exact .same
      | found account r =>
          rw [(DbGameHandler.sendRole_kept _ _ _).1]
          exact .same
    · exact (DbGameHandler.handle_effect (d := s.view info.connId) hbounded hmsg).move
  · intro select hmem
    obtain ⟨p, -, rfl⟩ := List.mem_map.1 hmem
    rfl

/-- The select that is executed. -/
theorem execute_eq {find : Str → Option TPlayer} {i : ℕ} (h : s.execute find i = some s') :
    ∃ select, s.selects[i]? = some select ∧ select.result = none ∧
      s' = { s with selects := s.selects.set i { select with result := some (find select.account) } } := by
  unfold execute at h
  split at h
  · rename_i account connId hselect
    exact ⟨_, hselect, rfl, (Option.some.inj h).symm⟩
  · cases h

/-- The select that completes. -/
theorem complete_eq {i : ℕ} (h : s.complete P i = some s') : ∃ select result, s.selects[i]? = some select ∧
    select.result = some result ∧ s' = { s with selects := s.selects.eraseIdx i }.back select.connId
      (DBResCBFuncs.onSelect P (s.view select.connId) select.account select.connId (result.elim .empty .row)).2 := by
  unfold complete at h
  split at h
  · rename_i account connId result hselect
    exact ⟨_, result, hselect, rfl, (Option.some.inj h).symm⟩
  · cases h

/-- What a select that completes does to the records. -/
theorem complete_table {i : ℕ} (h : s.complete P i = some s') : ∃ select result, s.selects[i]? = some select ∧
    select.result = some result ∧ s'.table = result.elim s.table (s.table.loaded select.account) ∧
      s'.selects = s.selects.eraseIdx i := by
  obtain ⟨select, result, hselect, hresult, rfl⟩ := complete_eq h
  refine ⟨select, result, hselect, hresult, ?_⟩
  cases result with
  | none =>
      rw [Option.elim_none, DbGameHandler.onSelect_empty]
      obtain ⟨htable, hselecting, -⟩ := DbGameHandler.sendRole_kept (P := P) (s.view select.connId)
        (selectedRole select.account none) select.connId
      refine ⟨htable, ?_⟩
      rw [back, hselecting]
      exact List.append_nil _
  | some row =>
      obtain ⟨htable, hselecting, -⟩ := DbGameHandler.onSelect_row_kept (P := P) (s.view select.connId) select.account
        select.connId row
      refine ⟨htable, ?_⟩
      rw [Option.elim_some, back, hselecting]
      exact List.append_nil _

end DbServer

end JmyGame
