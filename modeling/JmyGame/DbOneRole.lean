import Mathlib.Data.List.Nodup
import JmyGame.DbServer

/-! One role for each account. `processCreateRole` looks for a role in the cache only, so that a role is made for an
account whose row has not been read yet. The database has one row for an account, and the one that is there stays. -/

namespace JmyGame

open CArith DbGameHandler DBResCBFuncs

/-- A command of the write queue. -/
inductive DbWrite where
  | insert (row : TPlayer)
  | update (row : TPlayer)

/-- The account that a command inserts a row for. -/
def DbWrite.inserts : DbWrite → Option Str
  | insert row => some row.account
  | update _ => none

/-- The db server with the rows of the database, and the commands that are not executed yet. -/
structure RoleStore where
  server : DbServer
  rows : List TPlayer
  writes : List DbWrite

/-- A message, a select that is executed or completed, a connection that comes or goes, `update` of the records in
the order of their hash map with what the requests return, or the execution of a command. -/
inductive StoreEvent where
  | message (selected : Bool) (time : ℕ) (info : JmyMsgInfo)
  | execute (i : ℕ)
  | complete (i : ℕ)
  | link (connId : ℤ) (up : Bool) (agent : Option ℤ)
  | flush (succeeds : ℕ → Bool) (order : List ℕ)
  | write

/-- A select by the account. -/
def findRow (rows : List TPlayer) (account : Str) : Option TPlayer := rows.find? fun row => row.account = account

/-- The column `account` is unique: a second row for an account is refused. An update finds its rows by the role id
and leaves their keys. -/
def DbWrite.execute : DbWrite → List TPlayer → List TPlayer
  | insert row, rows => if rows.any fun old => old.account = row.account then rows else rows ++ [row]
  | update row, rows => rows.map fun old => if old.roleId = row.roleId
      then { row with account := old.account, roleId := old.roleId } else old

/-- The request of a record. -/
def PlayerTable.requestOf (t : PlayerTable) (r : ℕ) : Option DbWrite :=
  match t.states r with
  | some .insert => some (.insert (t.recs r))
  | some .update => some (.update (t.recs r))
  | _ => none

namespace PlayerTable

variable {t t' : PlayerTable} {isFor : Str → Prop} {account a : Str} {r : ℕ} {row : TPlayer}

/-- The record of an account keeps its keys and its insert. -/
def Keeps (t t' : PlayerTable) (r : ℕ) : Prop :=
  (t'.recs r).account = (t.recs r).account ∧ (t'.recs r).roleId = (t.recs r).roleId ∧
    (t'.states r = some .insert ↔ t.states r = some .insert)

theorem Move.keeps (hmove : t.Move isFor t') (h : t.Bounded) (hr : t.getByKey2 a = some r) : t.Keeps t' r := by
  cases hmove with
  | same => exact ⟨rfl, rfl, Iff.rfl⟩
  | created roleId account f hfor hnone hf =>
      obtain ⟨-, -, hrecs, hstates, -⟩ := created_kept h roleId account f
      have hne : r ≠ t.next := (h.key2 a r hr).ne
      rw [Keeps, hrecs, hstates, Function.update_of_ne hne, Function.update_of_ne hne]
      exact ⟨rfl, rfl, Iff.rfl⟩
  | changed s f hs hf =>
      obtain ⟨-, -, hrecs, -⟩ := changed_kept t s f
      have hkeys : ((t.changed s f).recs r).account = (t.recs r).account ∧
          ((t.changed s f).recs r).roleId = (t.recs r).roleId := by
        rw [hrecs]
        by_cases hrs : r = s
        · rw [hrs, Function.update_self]
          exact hf _
        · rw [Function.update_of_ne hrs]
          exact ⟨rfl, rfl⟩
      refine ⟨hkeys.1, hkeys.2, ?_⟩
      rcases changed_states t s f r with hsame | ⟨-, hold, hnew⟩
      · rw [hsame]
      · rw [hnew]
        exact iff_of_false nofun hold

/-- A record that is to be inserted now was made for an account of the message. -/
theorem Move.made (hmove : t.Move isFor t') (h : t.Bounded) (hstate : t'.states r = some .insert)
    (hold : t.states r ≠ some .insert) :
    ∃ account, isFor account ∧ t.getByKey2 account = none ∧ t'.getByKey2 account = some r := by
  cases hmove with
  | same => exact absurd hstate hold
  | created roleId account f hfor hnone hf =>
      obtain ⟨-, hkey2, -, hstates, -⟩ := created_kept h roleId account f
      have hr : r = t.next := by
        by_contra hne
        rw [hstates, Function.update_of_ne hne] at hstate
        exact hold hstate
      refine ⟨account, hfor, hnone, ?_⟩
      rw [PlayerTable.getByKey2, hkey2, getByKey2_insert h hnone, if_pos rfl, hr]
  | changed s f hs hf =>
      rcases changed_states t s f r with hsame | ⟨-, -, hnew⟩
      · exact absurd (hsame.symm.trans hstate) hold
      · cases hnew.symm.trans hstate

/-- An account that gets a record gets one that is to be inserted. -/
theorem Move.found (hmove : t.Move isFor t') (h : t.Bounded) (hr : t'.getByKey2 a = some r)
    (hold : t.getByKey2 a ≠ some r) : (t'.recs r).account = a ∧ t'.states r = some .insert := by
  cases hmove with
  | same => exact absurd hr hold
  | created roleId account f hfor hnone hf =>
      obtain ⟨-, hkey2, hrecs, hstates, -⟩ := created_kept h roleId account f
      rw [PlayerTable.getByKey2, hkey2] at hr
      rcases BiMap.insert_find1 hr with hfound | ⟨-, rfl, rfl⟩
      · exact absurd hfound hold
      · rw [hrecs, hstates, Function.update_self, Function.update_self]
        exact ⟨(hf _).1, rfl⟩
  | changed s f hs hf =>
      obtain ⟨-, hkey2, -⟩ := changed_kept t s f
      rw [PlayerTable.getByKey2, hkey2] at hr
      exact absurd hr hold

theorem loaded_keeps (h : t.Bounded) (hr : t.getByKey2 a = some r) : t.Keeps (t.loaded account row) r := by
  obtain ⟨-, hrecs, hstates, -⟩ := loaded_kept t account row
  rw [Keeps, hrecs, hstates, Function.update_of_ne (h.key2 a r hr).ne]
  exact ⟨rfl, rfl, Iff.rfl⟩

/-- An account that gets a record by a select gets the row that was read. -/
theorem loaded_found (hr : (t.loaded account row).getByKey2 a = some r) (hold : t.getByKey2 a ≠ some r) :
    a = account ∧ (t.loaded account row).recs r = row := by
  obtain ⟨hkey2, hrecs, -, -⟩ := loaded_kept t account row
  rw [getByKey2, hkey2] at hr
  rcases BiMap.insert_find1 hr with hfound | ⟨-, rfl, rfl⟩
  · exact absurd hfound hold
  · rw [hrecs, Function.update_self]
    exact ⟨rfl, rfl⟩

end PlayerTable

namespace RoleStore

variable (P : Protocol)

/-- The database with some rows, and the server with an empty cache. -/
def start (rows : List TPlayer) : RoleStore := ⟨.start, rows, []⟩

/-- The requests of `update`. -/
def requests (t : PlayerTable) (succeeds : ℕ → Bool) (order : List ℕ) : List DbWrite :=
  (order.filter succeeds).filterMap t.requestOf

def step (w : RoleStore) : StoreEvent → Option RoleStore
  | .message selected time info => (w.server.message P selected time info).map fun s' => { w with server := s' }
  | .execute i => (w.server.execute (findRow w.rows) i).map fun s' => { w with server := s' }
  | .complete i => (w.server.complete P i).map fun s' => { w with server := s' }
  | .link connId up agent => some { w with server := w.server.setLink connId up agent }
  | .flush succeeds order =>
    if order.Nodup ∧ ∀ r < w.server.table.next, r ∈ order ↔ w.server.table.states r ≠ none then
      some { w with
        server := { w.server with table := w.server.table.update }
        writes := w.writes ++ requests w.server.table succeeds order }
    else none
  | .write =>
    match w.writes with
    | [] => none
    | write :: writes => some { w with rows := write.execute w.rows, writes := writes }

/-- A role is made only for an account without a row, and the insert of a new record is taken. -/
def CreatesNew (w : RoleStore) : StoreEvent → Prop
  | .message _ _ info => ∀ account, Creates P info account → w.server.table.getByKey2 account = none →
    ∀ row ∈ w.rows, row.account ≠ account
  | .flush succeeds _ => ∀ r, w.server.table.states r = some .insert → succeeds r = true
  | _ => True

/-- The row of an account is stored with a role id. -/
def Stored (w : RoleStore) (account : Str) (roleId : BitVec 64) : Prop :=
  ∃ row ∈ w.rows, row.account = account ∧ row.roleId = roleId

/-- The insert of a row for an account with a role id is in the write queue. -/
def Queued (w : RoleStore) (account : Str) (roleId : BitVec 64) : Prop :=
  ∃ row, .insert row ∈ w.writes ∧ row.account = account ∧ row.roleId = roleId

/-- There is one row at most for an account, stored or on its way, and the record of an account in the cache is the
one that is stored, or there is no row and the record is still to be inserted. -/
structure OneRole (w : RoleStore) : Prop where
  rows : (w.rows.map TPlayer.account ++ w.writes.filterMap DbWrite.inserts).Nodup
  cached : ∀ account r, w.server.table.getByKey2 account = some r →
    w.Stored account (w.server.table.recs r).roleId ∨
      (∀ row ∈ w.rows, row.account ≠ account) ∧
        (w.server.table.states r = some .insert ∨ w.Queued account (w.server.table.recs r).roleId)

/-- What holds as long as roles are made for accounts without rows: a record that is to be inserted has no row, stored
or on its way, and a row that was read is stored. -/
structure Inv (w : RoleStore) : Prop where
  bounded : w.server.table.Bounded
  rows : (w.rows.map TPlayer.account ++ w.writes.filterMap DbWrite.inserts).Nodup
  queued : ∀ row, .insert row ∈ w.writes → ∃ r, w.server.table.getByKey2 row.account = some r ∧
    w.server.table.states r ≠ some .insert
  pending : ∀ r, w.server.table.states r = some .insert → ∃ account, w.server.table.getByKey2 account = some r ∧
    ∀ row ∈ w.rows, row.account ≠ account
  cached : ∀ account r, w.server.table.getByKey2 account = some r → (w.server.table.recs r).account = account ∧
    (w.Stored account (w.server.table.recs r).roleId ∨ w.server.table.states r = some .insert ∨
      w.Queued account (w.server.table.recs r).roleId)
  results : ∀ select ∈ w.server.selects, ∀ row, select.result = some (some row) →
    row.account = select.account ∧ w.Stored select.account row.roleId

variable {P} {w w' : RoleStore}

theorem inv_start {rows : List TPlayer} (hrows : (rows.map TPlayer.account).Nodup) : Inv (start rows) where
  bounded := PlayerTable.bounded_empty
  rows := by
    change (rows.map TPlayer.account ++ []).Nodup
    rwa [List.append_nil]
  queued := nofun
  pending := nofun
  cached := nofun
  results := nofun

theorem Queued.not_stored (hrows : (w.rows.map TPlayer.account ++ w.writes.filterMap DbWrite.inserts).Nodup)
    {account : Str} {roleId : BitVec 64} (h : w.Queued account roleId) : ∀ row ∈ w.rows, row.account ≠ account := by
  obtain ⟨queued, hmem, rfl, -⟩ := h
  intro row hrow
  exact (List.nodup_append.1 hrows).2.2 row.account (List.mem_map_of_mem hrow) queued.account
    (List.mem_filterMap.2 ⟨.insert queued, hmem, rfl⟩)

theorem Inv.oneRole (h : Inv w) : OneRole w where
  rows := h.rows
  cached account r hr := by
    rcases (h.cached account r hr).2 with hstored | hpending | hqueued
    · exact Or.inl hstored
    · obtain ⟨account', hr', hnone⟩ := h.pending r hpending
      obtain rfl := BiMap.find1_inj hr hr'
      exact Or.inr ⟨hnone, Or.inl hpending⟩
    · exact Or.inr ⟨hqueued.not_stored h.rows, Or.inr hqueued⟩

/-- What a step that leaves the database has to do to keep the invariant: the accounts keep their records, these keep
their keys and are to be inserted as before, and a new record of an account is stored or is to be inserted. -/
theorem Inv.of_server (h : Inv w) {s' : DbServer} (hbounded : s'.table.Bounded)
    (hkept : ∀ account r, w.server.table.getByKey2 account = some r → s'.table.getByKey2 account = some r ∧
      w.server.table.Keeps s'.table r)
    (hpending : ∀ r, s'.table.states r = some .insert → w.server.table.states r ≠ some .insert →
      ∃ account, s'.table.getByKey2 account = some r ∧ ∀ row ∈ w.rows, row.account ≠ account)
    (hcached : ∀ account r, s'.table.getByKey2 account = some r → w.server.table.getByKey2 account ≠ some r →
      (s'.table.recs r).account = account ∧
        (w.Stored account (s'.table.recs r).roleId ∨ s'.table.states r = some .insert))
    (hresults : ∀ select ∈ s'.selects, ∀ row, select.result = some (some row) →
      row.account = select.account ∧ w.Stored select.account row.roleId) : Inv { w with server := s' } where
  bounded := hbounded
  rows := h.rows
  queued row hmem := by
    obtain ⟨r, hr, hstate⟩ := h.queued row hmem
    obtain ⟨hr', -, -, hstate'⟩ := hkept row.account r hr
    exact ⟨r, hr', mt hstate'.1 hstate⟩
  pending r hstate := by
    by_cases hold : w.server.table.states r = some .insert
    · obtain ⟨account, hr, hnone⟩ := h.pending r hold
      exact ⟨account, (hkept account r hr).1, hnone⟩
    · exact hpending r hstate hold
  cached account r hr := by
    by_cases hold : w.server.table.getByKey2 account = some r
    · obtain ⟨-, haccount, hroleId, hstate⟩ := hkept account r hold
      obtain ⟨haccount', hrow⟩ := h.cached account r hold
      refine ⟨haccount.trans haccount', ?_⟩
      change w.Stored account (s'.table.recs r).roleId ∨ s'.table.states r = some .insert ∨
        w.Queued account (s'.table.recs r).roleId
      rw [hroleId, hstate]
      exact hrow
    · obtain ⟨haccount, hrow⟩ := hcached account r hr hold
      exact ⟨haccount, hrow.imp_right Or.inl⟩
  results := hresults

theorem Inv.message (h : Inv w) {selected : Bool} {time : ℕ} {info : JmyMsgInfo} {s' : DbServer}
    (hnew : w.CreatesNew P (.message selected time info)) (hs : w.server.message P selected time info = some s') :
    Inv { w with server := s' } := by
  obtain ⟨hmove, new, hselects, hresults⟩ := DbServer.message_move h.bounded hs
  refine h.of_server (h.bounded.move hmove) ?_ ?_ ?_ ?_
  · exact fun account r hr => ⟨hmove.getByKey2 h.bounded hr, hmove.keeps h.bounded hr⟩
  · intro r hstate hold
    obtain ⟨account, hfor, hnone, hr⟩ := hmove.made h.bounded hstate hold
    exact ⟨account, hr, hnew account hfor hnone⟩
  · intro account r hr hold
    obtain ⟨haccount, hstate⟩ := hmove.found h.bounded hr hold
    exact ⟨haccount, Or.inr hstate⟩
  · intro select hmem row hresult
    rw [hselects] at hmem
    rcases List.mem_append.1 hmem with hold | hadded
    · exact h.results select hold row hresult
    · cases (hresults select hadded).symm.trans hresult

theorem Inv.execute (h : Inv w) {i : ℕ} {s' : DbServer} (hs : w.server.execute (findRow w.rows) i = some s') :
    Inv { w with server := s' } := by
  obtain ⟨select, -, -, rfl⟩ := DbServer.execute_eq hs
  refine h.of_server h.bounded (fun account r hr => ⟨hr, rfl, rfl, Iff.rfl⟩) (fun r h₁ h₂ => absurd h₁ h₂)
    (fun account r h₁ h₂ => absurd h₁ h₂) ?_
  intro select' hmem row hresult
  rcases List.mem_or_eq_of_mem_set hmem with hold | rfl
  · exact h.results select' hold row hresult
  · have hfind : w.rows.find? (fun row => row.account = select.account) = some row := Option.some.inj hresult
    have haccount : row.account = select.account := by simpa using List.find?_some hfind
    exact ⟨haccount, row, List.mem_of_find?_eq_some hfind, haccount, rfl⟩

theorem Inv.complete (h : Inv w) {i : ℕ} {s' : DbServer} (hs : w.server.complete P i = some s') :
    Inv { w with server := s' } := by
  obtain ⟨select, result, hselect, hresult, htable, hselects⟩ := DbServer.complete_table hs
  have hresults : ∀ select ∈ s'.selects, ∀ row, select.result = some (some row) →
      row.account = select.account ∧ w.Stored select.account row.roleId := by
    intro select' hmem
    rw [hselects] at hmem
    exact h.results select' (List.mem_of_mem_eraseIdx hmem)
  cases result with
  | none =>
      rw [Option.elim_none] at htable
      refine h.of_server (htable ▸ h.bounded) ?_ ?_ ?_ hresults
      · rw [htable]
        exact fun account r hr => ⟨hr, rfl, rfl, Iff.rfl⟩
      · rw [htable]
        exact fun r h₁ h₂ => absurd h₁ h₂
      · rw [htable]
        exact fun account r h₁ h₂ => absurd h₁ h₂
  | some row =>
      rw [Option.elim_some] at htable
      refine h.of_server (htable ▸ h.bounded.loaded _ _) ?_ ?_ ?_ hresults
      · rw [htable]
        exact fun account r hr => ⟨PlayerTable.loaded_getByKey2 _ _ hr, PlayerTable.loaded_keeps h.bounded hr⟩
      · rw [htable, (PlayerTable.loaded_kept _ _ _).2.2.1]
        exact fun r h₁ h₂ => absurd h₁ h₂
      · rw [htable]
        intro account r hr hold
        obtain ⟨rfl, hrec⟩ := PlayerTable.loaded_found hr hold
        obtain ⟨haccount, hstored⟩ := h.results select (List.mem_of_getElem? hselect) row hresult
        rw [hrec]
        exact ⟨haccount, Or.inl hstored⟩

theorem requestOf_insert {t : PlayerTable} {r : ℕ} {row : TPlayer} (h : t.requestOf r = some (.insert row)) :
    t.states r = some .insert ∧ row = t.recs r := by
  unfold PlayerTable.requestOf at h
  split at h
  · rename_i hstate
    cases h
    exact ⟨hstate, rfl⟩
  · cases h
  · cases h

/-- The records that `update` inserts. -/
theorem mem_requests {t : PlayerTable} {succeeds : ℕ → Bool} {order : List ℕ} {row : TPlayer}
    (h : .insert row ∈ requests t succeeds order) : ∃ r ∈ order, t.states r = some .insert ∧ row = t.recs r := by
  obtain ⟨r, hr, hrequest⟩ := List.mem_filterMap.1 h
  exact ⟨r, (List.mem_filter.1 hr).1, requestOf_insert hrequest⟩

/-- The account of a record that is to be inserted. -/
theorem Inv.pending_account (h : Inv w) {r : ℕ} (hstate : w.server.table.states r = some .insert) :
    w.server.table.getByKey2 (w.server.table.recs r).account = some r ∧
      ∀ row ∈ w.rows, row.account ≠ (w.server.table.recs r).account := by
  obtain ⟨account, hr, hnone⟩ := h.pending r hstate
  rw [(h.cached account r hr).1]
  exact ⟨hr, hnone⟩

/-- The rows that `update` inserts are for different accounts. -/
theorem Inv.requests_nodup (h : Inv w) (succeeds : ℕ → Bool) {order : List ℕ} (horder : order.Nodup) :
    ((requests w.server.table succeeds order).filterMap DbWrite.inserts).Nodup := by
  have hrecord : ∀ {r account}, (w.server.table.requestOf r).bind DbWrite.inserts = some account →
      w.server.table.getByKey2 account = some r := by
    intro r account hr
    obtain ⟨write, hwrite, haccount⟩ := Option.bind_eq_some_iff.1 hr
    cases write with
    | update row => cases haccount
    | insert row =>
        obtain ⟨hstate, rfl⟩ := requestOf_insert hwrite
        obtain rfl := Option.some.inj haccount
        exact (h.pending_account hstate).1
  rw [requests, List.filterMap_filterMap]
  refine List.Nodup.filterMap ?_ (horder.filter _)
  intro r r' account hr hr'
  exact Option.some.inj ((hrecord hr).symm.trans (hrecord hr'))

/-- The records that are to be inserted get into the write queue. -/
theorem Inv.flush (h : Inv w) {succeeds : ℕ → Bool} {order : List ℕ} (horder : order.Nodup)
    (hall : ∀ r < w.server.table.next, r ∈ order ↔ w.server.table.states r ≠ none)
    (hnew : w.CreatesNew P (.flush succeeds order)) : Inv { w with
      server := { w.server with table := w.server.table.update }
      writes := w.writes ++ requests w.server.table succeeds order } where
  bounded := ⟨h.bounded.key, h.bounded.key2, fun r hr => absurd rfl hr⟩
  rows := by
    change (w.rows.map TPlayer.account ++
      (w.writes ++ requests w.server.table succeeds order).filterMap DbWrite.inserts).Nodup
    rw [List.filterMap_append, ← List.append_assoc]
    refine List.nodup_append.2 ⟨h.rows, h.requests_nodup succeeds horder, ?_⟩
    rintro account hold account' hadded rfl
    obtain ⟨write, hwrite, haccount⟩ := List.mem_filterMap.1 hadded
    cases write with
    | update row => cases haccount
    | insert row =>
        obtain ⟨r, -, hstate, rfl⟩ := mem_requests hwrite
        obtain rfl := Option.some.inj haccount
        obtain ⟨hr, hnone⟩ := h.pending_account hstate
        rcases List.mem_append.1 hold with hrow | hqueued
        · obtain ⟨row, hmem, heq⟩ := List.mem_map.1 hrow
          exact hnone row hmem heq
        · obtain ⟨write, hwrite, haccount'⟩ := List.mem_filterMap.1 hqueued
          cases write with
          | update row => cases haccount'
          | insert row =>
              -- the record of a queued insert is not to be inserted again
              obtain ⟨r', hr', hstate'⟩ := h.queued row hwrite
              rw [Option.some.inj haccount', hr] at hr'
              exact hstate' (Option.some.inj hr' ▸ hstate)
  queued row hmem := by
    rcases List.mem_append.1 hmem with hold | hadded
    · obtain ⟨r, hr, -⟩ := h.queued row hold
      exact ⟨r, hr, nofun⟩
    · obtain ⟨r, -, hstate, rfl⟩ := mem_requests hadded
      exact ⟨r, (h.pending_account hstate).1, nofun⟩
  pending r hr := by cases hr
  cached account r hr := by
    obtain ⟨haccount, hrow⟩ := h.cached account r hr
    refine ⟨haccount, ?_⟩
    rcases hrow with hstored | hstate | ⟨row, hmem, hrow⟩
    · exact Or.inl hstored
    · refine Or.inr (Or.inr ⟨w.server.table.recs r, List.mem_append_right _ ?_, haccount, rfl⟩)
      have hmem : r ∈ order := (hall r (h.bounded.key2 account r hr)).2 (by rw [hstate]; exact nofun)
      refine List.mem_filterMap.2 ⟨r, List.mem_filter.2 ⟨hmem, hnew r hstate⟩, ?_⟩
      rw [PlayerTable.requestOf, hstate]
    · exact Or.inr (Or.inr ⟨row, List.mem_append_left _ hmem, hrow⟩)
  results := h.results

/-- An insert finds no row of its account. -/
theorem Inv.write_insert (h : Inv w) {row : TPlayer} {writes : List DbWrite}
    (hwrites : w.writes = .insert row :: writes) :
    Inv { w with rows := (DbWrite.insert row).execute w.rows, writes := writes } := by
  have hmem : .insert row ∈ w.writes := hwrites ▸ List.mem_cons_self
  have hnone : ∀ old ∈ w.rows, old.account ≠ row.account :=
    Queued.not_stored h.rows ⟨row, hmem, rfl, rfl⟩
  have hrows : (DbWrite.insert row).execute w.rows = w.rows ++ [row] := by
    refine if_neg ?_
    rw [List.any_eq_true]
    rintro ⟨old, hold, heq⟩
    exact hnone old hold (of_decide_eq_true heq)
  rw [hrows]
  have hstored : ∀ {account roleId}, w.Stored account roleId →
      RoleStore.Stored { w with rows := w.rows ++ [row], writes := writes } account roleId := by
    rintro account roleId ⟨old, hold, hkeys⟩
    exact ⟨old, List.mem_append_left _ hold, hkeys⟩
  refine ⟨h.bounded, ?_, ?_, ?_, ?_, ?_⟩
  · have hall := h.rows
    rw [hwrites] at hall
    change ((w.rows ++ [row]).map TPlayer.account ++ writes.filterMap DbWrite.inserts).Nodup
    rw [List.map_append, List.append_assoc]
    exact hall
  · intro row' hrow'
    exact h.queued row' (hwrites ▸ List.mem_cons_of_mem _ hrow')
  · intro r hstate
    obtain ⟨account, hr, hfree⟩ := h.pending r hstate
    refine ⟨account, hr, ?_⟩
    intro old hold
    rcases List.mem_append.1 hold with hold | hold
    · exact hfree old hold
    · -- the record of the inserted row is not to be inserted again
      obtain rfl := List.mem_singleton.1 hold
      rintro rfl
      obtain ⟨r', hr', hstate'⟩ := h.queued old hmem
      exact hstate' (Option.some.inj (hr'.symm.trans hr) ▸ hstate)
  · intro account r hr
    obtain ⟨haccount, hrow⟩ := h.cached account r hr
    refine ⟨haccount, ?_⟩
    rcases hrow with hold | hstate | ⟨row', hmem', hkeys⟩
    · exact Or.inl (hstored hold)
    · exact Or.inr (Or.inl hstate)
    · rw [hwrites] at hmem'
      rcases List.mem_cons.1 hmem' with heq | hrest
      · cases heq
        exact Or.inl ⟨row, List.mem_append_right _ List.mem_cons_self, hkeys⟩
      · exact Or.inr (Or.inr ⟨row', hrest, hkeys⟩)
  · intro select hselect row' hresult
    obtain ⟨haccount, hold⟩ := h.results select hselect row' hresult
    exact ⟨haccount, hstored hold⟩

/-- An update leaves the keys of the rows. -/
theorem Inv.write_update (h : Inv w) {row : TPlayer} {writes : List DbWrite}
    (hwrites : w.writes = .update row :: writes) :
    Inv { w with rows := (DbWrite.update row).execute w.rows, writes := writes } := by
  have hkeys : ∀ old : TPlayer, (if old.roleId = row.roleId
      then { row with account := old.account, roleId := old.roleId } else old).account = old.account ∧
      (if old.roleId = row.roleId
        then { row with account := old.account, roleId := old.roleId } else old).roleId = old.roleId := by
    intro old
    split_ifs <;> exact ⟨rfl, rfl⟩
  have haccounts : ((DbWrite.update row).execute w.rows).map TPlayer.account = w.rows.map TPlayer.account := by
    rw [DbWrite.execute, List.map_map]
    exact List.map_congr_left fun old _ => (hkeys old).1
  have hstored : ∀ {account roleId}, w.Stored account roleId →
      RoleStore.Stored { w with rows := (DbWrite.update row).execute w.rows, writes := writes } account roleId := by
    rintro account roleId ⟨old, hold, rfl, rfl⟩
    exact ⟨_, List.mem_map_of_mem hold, hkeys old⟩
  have hqueue : ∀ row', .insert row' ∈ writes ↔ .insert row' ∈ w.writes := by
    intro row'
    rw [hwrites, List.mem_cons, or_iff_right nofun]
  refine ⟨h.bounded, ?_, ?_, ?_, ?_, ?_⟩
  · have hall := h.rows
    rw [hwrites, List.filterMap_cons_none rfl] at hall
    rw [haccounts]
    exact hall
  · exact fun row' hrow' => h.queued row' ((hqueue row').1 hrow')
  · intro r hstate
    obtain ⟨account, hr, hfree⟩ := h.pending r hstate
    refine ⟨account, hr, ?_⟩
    intro new hnew
    obtain ⟨old, hold, rfl⟩ := List.mem_map.1 hnew
    rw [(hkeys old).1]
    exact hfree old hold
  · intro account r hr
    obtain ⟨haccount, hrow⟩ := h.cached account r hr
    refine ⟨haccount, ?_⟩
    rcases hrow with hold | hstate | ⟨row', hmem', hrow'⟩
    · exact Or.inl (hstored hold)
    · exact Or.inr (Or.inl hstate)
    · exact Or.inr (Or.inr ⟨row', (hqueue row').2 hmem', hrow'⟩)
  · intro select hselect row' hresult
    obtain ⟨haccount, hold⟩ := h.results select hselect row' hresult
    exact ⟨haccount, hstored hold⟩

/-- A step that makes roles for accounts without rows keeps the invariant. -/
theorem Inv.step (h : Inv w) {e : StoreEvent} (hnew : w.CreatesNew P e) (hstep : w.step P e = some w') : Inv w' := by
  cases e with
  | message selected time info =>
      obtain ⟨s', hs, rfl⟩ := Option.map_eq_some_iff.1 hstep
      exact h.message hnew hs
  | execute i =>
      obtain ⟨s', hs, rfl⟩ := Option.map_eq_some_iff.1 hstep
      exact h.execute hs
  | complete i =>
      obtain ⟨s', hs, rfl⟩ := Option.map_eq_some_iff.1 hstep
      exact h.complete hs
  | link connId up agent =>
      obtain rfl := Option.some.inj hstep
      exact h.of_server h.bounded (fun account r hr => ⟨hr, rfl, rfl, Iff.rfl⟩) (fun r h₁ h₂ => absurd h₁ h₂)
        (fun account r h₁ h₂ => absurd h₁ h₂) h.results
  | flush succeeds order =>
      obtain ⟨⟨horder, hall⟩, heq⟩ := Option.ite_none_right_eq_some.1 hstep
      obtain rfl := Option.some.inj heq
      exact h.flush horder hall hnew
  | write =>
      cases hwrites : w.writes with
      | nil =>
          rw [RoleStore.step, hwrites] at hstep
          cases hstep
      | cons write writes =>
          rw [RoleStore.step, hwrites] at hstep
          obtain rfl := Option.some.inj hstep
          cases write with
          | insert row => exact h.write_insert hwrites
          | update row => exact h.write_update hwrites

end RoleStore

def storeMachine (P : Protocol) : Machine RoleStore StoreEvent := ⟨RoleStore.step P⟩

/-- In a run in which roles are made only for accounts that have no row, an account never has two rows, and the record
in the cache is the one that is stored. -/
theorem one_role (P : Protocol) {rows : List TPlayer} (hrows : (rows.map TPlayer.account).Nodup)
    {es : List StoreEvent} (halong : (storeMachine P).Along (fun w e => w.CreatesNew P e) (.start rows) es)
    {es₁ es₂ : List StoreEvent} {w : RoleStore} (hes : es = es₁ ++ es₂)
    (hrun : (storeMachine P).run (.start rows) es₁ = some w) : w.OneRole := by
  subst hes
  have hinv : RoleStore.Inv w := Machine.invariant_along (fun _ _ _ h hnew hstep => h.step hnew hstep)
    (RoleStore.inv_start hrows) halong.first hrun
  exact hinv.oneRole

/-- The connection 1 asks for a role for the account `a`, and the role is written. -/
def createForA : List StoreEvent :=
  [.link 1 true (some 1), .message true 0 ⟨0, MsgId.gs2dsCreateRoleRequest,
    wire.gs2dsCreateRoleRequest.serialize ⟨[97], [98], 0, 0⟩, 10, 1⟩, .flush (fun _ => true) [0], .write]

/-- With no rows, the role is stored. -/
theorem createForA_one : ∃ w, (storeMachine wire).run (.start []) createForA = some w ∧ w.rows.length = 1 ∧
    w.OneRole := by
  have hrows : (([] : List TPlayer).map TPlayer.account).Nodup := List.nodup_nil
  refine ⟨_, rfl, rfl, one_role wire hrows ?_ (List.append_nil createForA).symm rfl⟩
  refine ⟨trivial, fun w hw => ?_⟩
  obtain rfl := Option.some.inj hw
  refine ⟨fun account _ _ row hrow => absurd hrow List.not_mem_nil, fun w hw => ?_⟩
  obtain rfl := Option.some.inj hw
  exact ⟨fun _ _ => rfl, fun w _ => ⟨trivial, fun _ _ => trivial⟩⟩

/-- With a row for the account, the role in the cache is another one than the stored one. -/
theorem createForA_other : ∃ w,
    (storeMachine wire).run (.start [{ TPlayer.new with account := [97], roleId := 7 }]) createForA = some w ∧
      w.rows.length = 1 ∧ ¬w.OneRole := by
  refine ⟨_, rfl, rfl, fun h => ?_⟩
  rcases h.cached [97] 0 rfl with ⟨row, hrow, -, hroleId⟩ | ⟨hnone, -⟩
  · obtain rfl := List.mem_singleton.1 hrow
    revert hroleId
    decide
  · exact hnone _ List.mem_cons_self rfl

end JmyGame
