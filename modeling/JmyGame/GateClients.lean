import Mathlib.Data.Finset.Card
import JmyGame.CommonBiMap
import JmyGame.CommonMessages

/-! `ClientArray` and `ClientManager`: the slots of the gate for its clients, and the tables that find
a slot by account and by connection. A slot is named by its id, which stands for the pointer to its
`ClientInfo`. -/

namespace JmyGame

structure ClientInfo where
  used : Bool
  id : ℤ
  currRoleId : BitVec 64
  account : Str
  connId : ℤ
  hasMgr : Bool
  reconnSession : Str
  roleIdList : List (BitVec 64)
  deriving DecidableEq

namespace ClientInfo

/-- A slot as `ClientArray::init` makes it. -/
def new (id : ℤ) : ClientInfo := ⟨false, id, 0, [], 0, false, [], []⟩

def hasRoleId (ci : ClientInfo) (roleId : BitVec 64) : Bool := roleId ∈ ci.roleIdList

def addRoleId (ci : ClientInfo) (roleId : BitVec 64) : ClientInfo :=
  if ci.hasRoleId roleId then ci else { ci with roleIdList := ci.roleIdList ++ [roleId] }

/-- The role that a role response gives to a client. -/
def setRole (ci : ClientInfo) (roleId : BitVec 64) : ClientInfo :=
  { ci.addRoleId roleId with currRoleId := roleId }

@[simp] theorem setRole_id (ci : ClientInfo) (roleId : BitVec 64) : (ci.setRole roleId).id = ci.id := by
  unfold setRole addRoleId
  split_ifs <;> rfl

@[simp] theorem setRole_account (ci : ClientInfo) (roleId : BitVec 64) :
    (ci.setRole roleId).account = ci.account := by
  unfold setRole addRoleId
  split_ifs <;> rfl

@[simp] theorem setRole_used (ci : ClientInfo) (roleId : BitVec 64) :
    (ci.setRole roleId).used = ci.used := by
  unfold setRole addRoleId
  split_ifs <;> rfl

@[simp] theorem setRole_connId (ci : ClientInfo) (roleId : BitVec 64) :
    (ci.setRole roleId).connId = ci.connId := by
  unfold setRole addRoleId
  split_ifs <;> rfl

@[simp] theorem setRole_hasMgr (ci : ClientInfo) (roleId : BitVec 64) :
    (ci.setRole roleId).hasMgr = ci.hasMgr := by
  unfold setRole addRoleId
  split_ifs <;> rfl

end ClientInfo

structure ClientArray where
  infoArray : ℤ → ClientInfo
  startId : ℤ
  infoSize : ℤ
  freeIds : List ℤ
  usedIds : Finset ℤ

namespace ClientArray

/-- An array behind a successful `init`. -/
def init (arraySize : ℕ) (startId : ℤ) : ClientArray :=
  ⟨ClientInfo.new, startId, arraySize, (List.range arraySize).map fun i : ℕ => startId + i, ∅⟩

variable (a : ClientArray)

def modifyInfo (p : ℤ) (f : ClientInfo → ClientInfo) : ClientArray :=
  { a with infoArray := Function.update a.infoArray p (f (a.infoArray p)) }

def getFree : Option (ℤ × ClientArray) :=
  match a.freeIds with
  | [] => none
  | id :: rest => some (id, { a with
      freeIds := rest
      usedIds := insert id a.usedIds
      infoArray := Function.update a.infoArray id { a.infoArray id with id := id, used := true } })

def get (id : ℤ) : Option ℤ :=
  if id < a.startId ∨ a.startId + a.infoSize < id then none
  else if id ∉ a.usedIds then none
  else some id

/-- `free(ClientInfo*)`. -/
def free (p : ℤ) : Bool × ClientArray :=
  if (a.infoArray p).used = false then (false, a)
  else (true, { a with
    freeIds := (a.infoArray p).id :: a.freeIds
    usedIds := a.usedIds.erase (a.infoArray p).id
    infoArray := Function.update a.infoArray p { a.infoArray p with used := false } })

/-- `free(int)`. -/
def freeId (id : ℤ) : Bool × ClientArray :=
  match a.get id with
  | none => (false, a)
  | some p => a.free p

def getUsedSize : ℤ := a.usedIds.card

end ClientArray

structure SessionInfo where
  session : Str
  getSessionTime : ℤ
  deriving DecidableEq

/-- What a removal reads of the nodes that it has erased, for the values that they had. -/
structure FreedReads where
  account : Str → Str
  id : ℤ → ℤ

/-- The erased nodes are as they were. -/
def FreedReads.intact : FreedReads := ⟨fun account => account, fun id => id⟩

/-- The node of a connection is written over when it is erased. -/
def lostIds : ℕ → FreedReads := fun _ => ⟨fun account => account, fun _ => 0⟩

/-- `ClientManager`. `reads` is what its removals read of the nodes that they have erased, by their number. -/
structure ClientManager where
  accountSessionMap : Str → Option SessionInfo
  accountIdBimap : FreedBiMap Str ℤ
  connidIdBimap : FreedBiMap ℤ ℤ
  clientArray : ClientArray
  reads : ℕ → FreedReads
  removals : ℕ

namespace ClientManager

/-- A manager behind `init`, with the ids from `startId` on; jemalloc leaves freed nodes as they are. -/
def init (maxConn : ℕ) (startId : ℤ) : ClientManager :=
  ⟨fun _ => none, .empty, .empty, .init maxConn startId, fun _ => .intact, 0⟩

variable (m : ClientManager)

/-- The `ClientInfo` of a slot. -/
def info (p : ℤ) : ClientInfo := m.clientArray.infoArray p

def modifyInfo (p : ℤ) (f : ClientInfo → ClientInfo) : ClientManager :=
  { m with clientArray := m.clientArray.modifyInfo p f }

def newAccountSession (time : ℤ) (account session : Str) : ClientManager :=
  { m with
    accountSessionMap := Function.update m.accountSessionMap account (some ⟨session, time⟩) }

/-- A session is used up when it is accepted and when it has expired. -/
def checkSessionByAccount (time : ℤ) (account session : Str) : Bool × ClientManager :=
  match m.accountSessionMap account with
  | none => (false, m)
  | some si =>
    if si.session ≠ session then (false, m)
    else (decide (time - si.getSessionTime ≤ 100),
      { m with accountSessionMap := Function.update m.accountSessionMap account none })

def insertConnIdId (connId id : ℤ) : Bool × ClientManager :=
  let r := m.connidIdBimap.insert connId id
  (r.1, { m with connidIdBimap := r.2 })

/-- `getIdByConnId`, with 0 for no id. -/
def getIdByConnId (connId : ℤ) : ℤ := (m.connidIdBimap.find1 connId).getD 0

def removeByConnId (connId : ℤ) : Bool × ClientManager :=
  match m.connidIdBimap.find1 connId with
  | none => (false, m)
  | some id =>
    let freed := m.clientArray.freeId id
    if freed.1 = false then (false, m)
    else
      let removed := m.accountIdBimap.remove2 (m.reads m.removals).account id
      let m₁ := { m with clientArray := freed.2, accountIdBimap := removed.2, removals := m.removals + 1 }
      if removed.1 = false then (false, m₁)
      else
        let r := m₁.connidIdBimap.remove1 (m.reads m.removals).id connId
        (r.1, { m₁ with connidIdBimap := r.2 })

def getClientInfo (userId : ℤ) : Option ℤ := m.clientArray.get userId

def getClientInfoByAccount (account : Str) : Option ℤ :=
  (m.accountIdBimap.find1 account).bind m.clientArray.get

def getClientInfoByConnId (connId : ℤ) : Option ℤ :=
  (m.connidIdBimap.find1 connId).bind m.clientArray.get

/-- The slot that `newClient` takes for a new account. -/
def takeFree (account : Str) : Option (ℤ × ClientManager) :=
  m.clientArray.getFree.map fun (id, a) =>
    (id, { m with clientArray := a, accountIdBimap := (m.accountIdBimap.insert account id).2 })

end ClientManager

/-- Every removal reads the value of the entry that it has erased. -/
def ClientManager.Intact (m : ClientManager) : Prop := ∀ k, m.reads k = .intact

/-- A free slot is not in use. When the removals read the values of their entries, the two tables are one to one, and
an account leads to a slot in use that holds this account. -/
structure ClientTables (m : ClientManager) : Prop where
  ids : ∀ p, (m.info p).id = p
  nodup : m.clientArray.freeIds.Nodup
  free : ∀ p ∈ m.clientArray.freeIds, p ∉ m.clientArray.usedIds
  range : ∀ p, p ∈ m.clientArray.freeIds ∨ p ∈ m.clientArray.usedIds →
    m.clientArray.startId ≤ p ∧ p < m.clientArray.startId + m.clientArray.infoSize
  accounts : m.Intact → m.accountIdBimap.Inverse
  connids : m.Intact → m.connidIdBimap.Inverse
  account : m.Intact → ∀ a p, m.accountIdBimap.find1 a = some p →
    p ∈ m.clientArray.usedIds ∧ (m.info p).account = a

theorem ClientArray.get_eq_some {a : ClientArray} {id p : ℤ} (h : a.get id = some p) :
    id = p ∧ p ∈ a.usedIds := by
  rw [ClientArray.get] at h
  split_ifs at h with hrange hused
  cases h
  exact ⟨rfl, hused⟩

theorem ClientArray.get_congr {a a' : ClientArray} {id : ℤ} (hstart : a'.startId = a.startId)
    (hsize : a'.infoSize = a.infoSize) (hused : id ∈ a'.usedIds ↔ id ∈ a.usedIds) : a'.get id = a.get id := by
  simp only [ClientArray.get, hstart, hsize, hused]

theorem getClientInfoByAccount_eq_some {m : ClientManager} {account : Str} {p : ℤ}
    (h : m.getClientInfoByAccount account = some p) : m.accountIdBimap.find1 account = some p := by
  obtain ⟨id, hid, hget⟩ := Option.bind_eq_some_iff.1 h
  rw [hid, (ClientArray.get_eq_some hget).1]

theorem getClientInfoByConnId_eq_some {m : ClientManager} {connId p : ℤ}
    (h : m.getClientInfoByConnId connId = some p) : p ∈ m.clientArray.usedIds := by
  obtain ⟨id, -, hget⟩ := Option.bind_eq_some_iff.1 h
  exact (ClientArray.get_eq_some hget).2

namespace ClientTables

variable {m m' : ClientManager}

theorem init (maxConn : ℕ) (startId : ℤ) (reads : ℕ → FreedReads) :
    ClientTables { ClientManager.init maxConn startId with reads := reads } := by
  refine ⟨fun p => rfl, ?_, ?_, ?_, fun _ => .empty, fun _ => .empty, ?_⟩
  · exact List.nodup_range.map (fun _ _ h => by simpa using h)
  · intro p _ hp
    cases hp
  · intro p hp
    rcases hp with hp | hp
    · obtain ⟨i, hi, rfl⟩ := List.mem_map.1 hp
      have hlt := List.mem_range.1 hi
      exact ⟨by simp [ClientManager.init, ClientArray.init],
        by simpa [ClientManager.init, ClientArray.init] using hlt⟩
    · cases hp
  · intro _ a p h
    cases h

/-- A change of a `ClientInfo` that leaves its id and its account alone. -/
theorem modifyInfo (h : ClientTables m) {p : ℤ} {f : ClientInfo → ClientInfo}
    (hid : (f (m.info p)).id = (m.info p).id)
    (haccount : m.Intact → (f (m.info p)).account = (m.info p).account) : ClientTables (m.modifyInfo p f) := by
  have hinfo : ∀ p', ((m.modifyInfo p f).info p').id = (m.info p').id ∧
      (m.Intact → ((m.modifyInfo p f).info p').account = (m.info p').account) := by
    intro p'
    by_cases hp : p' = p
    · subst hp
      simp only [ClientManager.info, ClientManager.modifyInfo, ClientArray.modifyInfo,
        Function.update_self]
      exact ⟨hid, haccount⟩
    · simp only [ClientManager.info, ClientManager.modifyInfo, ClientArray.modifyInfo,
        Function.update_of_ne hp]
      exact ⟨trivial, fun _ => trivial⟩
  refine ⟨fun p' => (hinfo p').1.trans (h.ids p'), h.nodup, h.free, h.range, h.accounts, h.connids,
    fun hreads a p' ha => ?_⟩
  obtain ⟨hused, hacc⟩ := h.account hreads a p' ha
  exact ⟨hused, ((hinfo p').2 hreads).trans hacc⟩

theorem get (h : ClientTables m) {p : ℤ} (hused : p ∈ m.clientArray.usedIds) : m.clientArray.get p = some p := by
  obtain ⟨hlow, hhigh⟩ := h.range p (Or.inr hused)
  exact (if_neg (by omega)).trans (if_neg (not_not.2 hused))

theorem setRole (h : ClientTables m) {p : ℤ} {roleId : BitVec 64} :
    ClientTables (m.modifyInfo p fun ci => ci.setRole roleId) :=
  h.modifyInfo (ClientInfo.setRole_id _ _) fun _ => ClientInfo.setRole_account _ _

/-- A change that is not in the array or the accounts. -/
theorem congr (h : ClientTables m) (harray : m'.clientArray = m.clientArray)
    (hbimap : m'.accountIdBimap = m.accountIdBimap) (hreads : m'.reads = m.reads)
    (hconnids : m.Intact → m.connidIdBimap.Inverse → m'.connidIdBimap.Inverse) : ClientTables m' := by
  have hintact : m'.Intact → m.Intact := fun h k => hreads ▸ h k
  refine ⟨?_, ?_, ?_, ?_, ?_, fun h' => hconnids (hintact h') (h.connids (hintact h')), ?_⟩
  · intro p
    rw [ClientManager.info, harray]
    exact h.ids p
  · rw [harray]
    exact h.nodup
  · rw [harray]
    exact h.free
  · rw [harray]
    exact h.range
  · rw [hbimap]
    exact fun h' => h.accounts (hintact h')
  · intro h' a p
    rw [hbimap, ClientManager.info, harray]
    exact h.account (hintact h') a p

end ClientTables

section

variable (m : ClientManager) (p : ℤ) (f : ClientInfo → ClientInfo)

@[simp] theorem info_modifyInfo_self : (m.modifyInfo p f).info p = f (m.info p) :=
  Function.update_self _ _ _

@[simp] theorem info_modifyInfo_of_ne {p' : ℤ} (h : p' ≠ p) : (m.modifyInfo p f).info p' = m.info p' :=
  Function.update_of_ne h _ _

end

/-- No slot is taken, and the roles of the slots stay, and their accounts, too, when the removals read the values of
their entries. -/
structure Shrinks (m m' : ClientManager) : Prop where
  tables : ClientTables m → ClientTables m'
  reads : m'.reads = m.reads
  used : m'.clientArray.usedIds ⊆ m.clientArray.usedIds
  account : m.Intact → ∀ p, (m'.info p).account = (m.info p).account
  role : ∀ p, (m'.info p).currRoleId = (m.info p).currRoleId
  start : m'.clientArray.startId = m.clientArray.startId
  size : m'.clientArray.infoSize = m.clientArray.infoSize

namespace Shrinks

variable {m m' m'' : ClientManager}

theorem refl (m : ClientManager) : Shrinks m m :=
  ⟨id, rfl, Finset.Subset.refl _, fun _ _ => rfl, fun _ => rfl, rfl, rfl⟩

theorem intact (h : Shrinks m m') (hreads : m.Intact) : m'.Intact := fun k => h.reads ▸ hreads k

theorem trans (h : Shrinks m m') (h' : Shrinks m' m'') : Shrinks m m'' :=
  ⟨h'.tables ∘ h.tables, h'.reads.trans h.reads, h'.used.trans h.used,
    fun hreads p => (h'.account (h.intact hreads) p).trans (h.account hreads p),
    fun p => (h'.role p).trans (h.role p), h'.start.trans h.start, h'.size.trans h.size⟩

theorem congr (harray : m'.clientArray = m.clientArray) (hbimap : m'.accountIdBimap = m.accountIdBimap)
    (hreads : m'.reads = m.reads)
    (hconnids : m.Intact → m.connidIdBimap.Inverse → m'.connidIdBimap.Inverse) : Shrinks m m' := by
  refine ⟨fun h => h.congr harray hbimap hreads hconnids, hreads, ?_, fun _ p => ?_, fun p => ?_, ?_, ?_⟩
  · rw [harray]
  · rw [ClientManager.info, ClientManager.info, harray]
  · rw [ClientManager.info, ClientManager.info, harray]
  · rw [harray]
  · rw [harray]

theorem modifyInfo (m : ClientManager) (p : ℤ) {f : ClientInfo → ClientInfo}
    (hid : (f (m.info p)).id = (m.info p).id)
    (haccount : m.Intact → (f (m.info p)).account = (m.info p).account)
    (hrole : (f (m.info p)).currRoleId = (m.info p).currRoleId) : Shrinks m (m.modifyInfo p f) := by
  refine ⟨fun h => h.modifyInfo hid haccount, rfl, Finset.Subset.refl _, fun hreads p' => ?_, fun p' => ?_, rfl, rfl⟩
  · by_cases hp : p' = p
    · rw [hp, info_modifyInfo_self, haccount hreads]
    · rw [info_modifyInfo_of_ne m p f hp]
  · by_cases hp : p' = p
    · rw [hp, info_modifyInfo_self, hrole]
    · rw [info_modifyInfo_of_ne m p f hp]

theorem checkSession_fields (m : ClientManager) (time : ℤ) (account session : Str) :
    (m.checkSessionByAccount time account session).2.clientArray = m.clientArray ∧
      (m.checkSessionByAccount time account session).2.accountIdBimap = m.accountIdBimap ∧
      (m.checkSessionByAccount time account session).2.connidIdBimap = m.connidIdBimap ∧
      (m.checkSessionByAccount time account session).2.reads = m.reads := by
  unfold ClientManager.checkSessionByAccount
  split
  · exact ⟨rfl, rfl, rfl, rfl⟩
  · split_ifs
    · exact ⟨rfl, rfl, rfl, rfl⟩
    · exact ⟨rfl, rfl, rfl, rfl⟩

theorem checkSession (m : ClientManager) (time : ℤ) (account session : Str) :
    Shrinks m (m.checkSessionByAccount time account session).2 := by
  obtain ⟨harray, haccounts, hconnids, hreads⟩ := checkSession_fields m time account session
  exact congr harray haccounts hreads fun _ h => hconnids ▸ h

/-- A slot that is freed was in use under its own id, so that it goes back to the free ids once. -/
theorem freeSlot {id : ℤ} (hused : id ∈ m.clientArray.usedIds)
    (hfreeIds : m'.clientArray.freeIds = (m.info id).id :: m.clientArray.freeIds)
    (husedIds : m'.clientArray.usedIds = m.clientArray.usedIds.erase (m.info id).id)
    (hinfo : ∀ p, (m'.info p).id = (m.info p).id ∧ (m'.info p).account = (m.info p).account ∧
      (m'.info p).currRoleId = (m.info p).currRoleId)
    (hbimap : m'.accountIdBimap = (m.accountIdBimap.remove2 (m.reads m.removals).account id).2)
    (hconnids : m'.connidIdBimap = m.connidIdBimap) (hreads : m'.reads = m.reads)
    (hstart : m'.clientArray.startId = m.clientArray.startId)
    (hsize : m'.clientArray.infoSize = m.clientArray.infoSize) : Shrinks m m' := by
  refine ⟨fun h => ?_, hreads, husedIds ▸ Finset.erase_subset _ _, fun _ p => (hinfo p).2.1,
    fun p => (hinfo p).2.2, hstart, hsize⟩
  rw [h.ids id] at hfreeIds husedIds
  have hintact : m'.Intact → m.Intact := fun h k => hreads ▸ h k
  have hremove : m'.Intact → m'.accountIdBimap = (m.accountIdBimap.remove2 (fun a => a) id).2 := by
    intro h'
    rw [hbimap, hintact h' m.removals]
    rfl
  refine ⟨fun p => (hinfo p).1.trans (h.ids p), ?_, ?_, ?_, fun h' => ?_, fun h' => ?_, fun h' a p ha => ?_⟩
  · rw [hfreeIds]
    exact List.nodup_cons.2 ⟨fun hmem => h.free id hmem hused, h.nodup⟩
  · intro p hp hmem
    rw [husedIds] at hmem
    rw [hfreeIds] at hp
    obtain ⟨hne, hmem⟩ := Finset.mem_erase.1 hmem
    rcases List.mem_cons.1 hp with hp | hp
    · exact hne hp
    · exact h.free p hp hmem
  · intro p hp
    rw [hfreeIds, husedIds] at hp
    rw [hstart, hsize]
    apply h.range
    rcases hp with hp | hp
    · rcases List.mem_cons.1 hp with rfl | hp
      · exact Or.inr hused
      · exact Or.inl hp
    · exact Or.inr (Finset.mem_of_mem_erase hp)
  · rw [hremove h']
    exact (h.accounts (hintact h')).remove2 id
  · rw [hconnids]
    exact h.connids (hintact h')
  · rw [hremove h'] at ha
    obtain ⟨ha, hne⟩ := (h.accounts (hintact h')).remove2_find1.1 ha
    obtain ⟨hmem, hacc⟩ := h.account (hintact h') a p ha
    rw [husedIds]
    exact ⟨Finset.mem_erase.2 ⟨hne, hmem⟩, (hinfo p).2.1.trans hacc⟩

theorem removeByConnId (m : ClientManager) (connId : ℤ) : Shrinks m (m.removeByConnId connId).2 := by
  unfold ClientManager.removeByConnId
  split
  · exact refl m
  rename_i id hid
  dsimp only
  by_cases hfreed : (m.clientArray.freeId id).1 = false
  · rw [if_pos hfreed]
    exact refl m
  rw [if_neg hfreed]
  have hfree : Shrinks m { m with
      clientArray := (m.clientArray.freeId id).2
      accountIdBimap := (m.accountIdBimap.remove2 (m.reads m.removals).account id).2
      removals := m.removals + 1 } := by
    unfold ClientArray.freeId at hfreed ⊢
    split at hfreed
    · exact absurd rfl hfreed
    rename_i p hget
    obtain ⟨rfl, hused⟩ := ClientArray.get_eq_some hget
    unfold ClientArray.free at hfreed ⊢
    split_ifs at hfreed with hinuse
    · exact absurd rfl hfreed
    simp only [if_neg hinuse]
    refine freeSlot hused rfl rfl (fun p => ?_) rfl rfl rfl rfl rfl
    by_cases hp : p = id
    · simp only [ClientManager.info, hp, Function.update_self]
      exact ⟨trivial, trivial, trivial⟩
    · simp only [ClientManager.info, Function.update_of_ne hp]
      exact ⟨trivial, trivial, trivial⟩
  split_ifs
  · exact hfree
  · refine hfree.trans (congr rfl rfl rfl fun hreads h => ?_)
    dsimp only
    rw [show m.reads m.removals = .intact from hreads m.removals]
    exact h.remove1 connId

end Shrinks

/-- The clients of the other connections stay when one is removed. -/
theorem removeByConnId_client {m : ClientManager} {connId c p : ℤ} (h : ClientTables m) (hreads : m.Intact)
    (hne : c ≠ connId) (hp : m.getClientInfoByConnId c = some p) :
    (m.removeByConnId connId).2.getClientInfoByConnId c = some p := by
  obtain ⟨id, hid, hget⟩ := Option.bind_eq_some_iff.1 hp
  obtain ⟨rfl, hused⟩ := ClientArray.get_eq_some hget
  have hshrinks := Shrinks.removeByConnId m connId
  have hkept : id ∈ (m.removeByConnId connId).2.clientArray.usedIds ∧
      (m.removeByConnId connId).2.connidIdBimap.find1 c = some id := by
    unfold ClientManager.removeByConnId
    split
    · exact ⟨hused, hid⟩
    rename_i id' hid'
    -- the slot that is freed is another one, because each has one connection
    have hother : id ≠ id' := fun heq => hne ((h.connids hreads).find1_inj (heq ▸ hid) hid')
    have hfreed : id ∈ (m.clientArray.freeId id').2.usedIds := by
      unfold ClientArray.freeId
      split
      · exact hused
      rename_i q hq
      obtain ⟨rfl, -⟩ := ClientArray.get_eq_some hq
      unfold ClientArray.free
      split_ifs
      · exact hused
      · exact Finset.mem_erase.2 ⟨fun heq => hother (heq.trans (h.ids id')), hused⟩
    dsimp only
    split_ifs
    · exact ⟨hused, hid⟩
    · exact ⟨hfreed, hid⟩
    · exact ⟨hfreed, FreedBiMap.remove1_find1.2 ⟨hid, hne⟩⟩
  rw [ClientManager.getClientInfoByConnId, hkept.2, Option.bind_some,
    ClientArray.get_congr hshrinks.start hshrinks.size (iff_of_true hkept.1 hused), hget]

/-- The slot that `newClient` takes: it was free, holds the account now and keeps its role. -/
structure Takes (m m' : ClientManager) (account : Str) (p : ℤ) : Prop where
  tables : ClientTables m → ClientTables m'
  reads : m'.reads = m.reads
  connids : m'.connidIdBimap = m.connidIdBimap
  head : m.clientArray.freeIds.head? = some p
  used : m'.clientArray.usedIds = insert p m.clientArray.usedIds
  account : (m'.info p).account = account
  role : (m'.info p).currRoleId = (m.info p).currRoleId
  others : ∀ p' ≠ p, m'.info p' = m.info p'
  start : m'.clientArray.startId = m.clientArray.startId
  size : m'.clientArray.infoSize = m.clientArray.infoSize

theorem Takes.of_takeFree {m m' : ClientManager} {account : Str} {p : ℤ}
    (hnew : m.accountIdBimap.find1 account = none) (h : m.takeFree account = some (p, m')) :
    Takes m (m'.modifyInfo p fun ci => { ci with account := account }) account p := by
  obtain ⟨⟨id, a⟩, hget, heq⟩ := Option.map_eq_some_iff.1 h
  simp only [Prod.mk.injEq] at heq
  obtain ⟨rfl, rfl⟩ := heq
  unfold ClientArray.getFree at hget
  split at hget
  · cases hget
  rename_i id' rest hfree
  simp only [Option.some.injEq, Prod.mk.injEq] at hget
  obtain ⟨rfl, rfl⟩ := hget
  have hothers : ∀ p' ≠ id', (ClientManager.modifyInfo { m with
      clientArray := { m.clientArray with
        freeIds := rest
        usedIds := insert id' m.clientArray.usedIds
        infoArray := Function.update m.clientArray.infoArray id'
          { m.clientArray.infoArray id' with id := id', used := true } }
      accountIdBimap := (m.accountIdBimap.insert account id').2 } id'
        fun ci => { ci with account := account }).info p' = m.info p' := by
    intro p' hp'
    rw [info_modifyInfo_of_ne _ _ _ hp']
    exact Function.update_of_ne hp' _ _
  refine ⟨fun h => ?_, rfl, rfl, by rw [hfree]; rfl, rfl, ?_, ?_, hothers, rfl, rfl⟩
  · have hnodup : id' ∉ rest ∧ rest.Nodup := List.nodup_cons.1 (hfree ▸ h.nodup)
    have hunused : id' ∉ m.clientArray.usedIds := h.free id' (hfree ▸ List.mem_cons_self)
    refine ⟨fun p' => ?_, hnodup.2, ?_, ?_, fun hreads => (h.accounts hreads).insert account id', h.connids,
      fun hreads a p' ha => ?_⟩
    · by_cases hp' : p' = id'
      · rw [hp', info_modifyInfo_self]
        simp only [ClientManager.info, Function.update_self]
      · rw [hothers p' hp']
        exact h.ids p'
    · intro p' hp' hmem
      rcases Finset.mem_insert.1 hmem with rfl | hmem
      · exact hnodup.1 hp'
      · exact h.free p' (hfree ▸ List.mem_cons_of_mem id' hp') hmem
    · intro p' hp'
      apply h.range
      rcases hp' with hp' | hp'
      · exact Or.inl (hfree ▸ List.mem_cons_of_mem id' hp')
      · rcases Finset.mem_insert.1 hp' with rfl | hp'
        · exact Or.inl (hfree ▸ List.mem_cons_self)
        · exact Or.inr hp'
    · rcases FreedBiMap.insert_find1 ha with ha | ⟨-, rfl, rfl⟩
      · obtain ⟨hmem, hacc⟩ := h.account hreads a p' ha
        have hne : p' ≠ id' := fun heq => hunused (heq ▸ hmem)
        exact ⟨Finset.mem_insert_of_mem hmem, (congrArg _ (hothers p' hne)).trans hacc⟩
      · refine ⟨Finset.mem_insert_self _ _, ?_⟩
        rw [info_modifyInfo_self]
  · rw [info_modifyInfo_self]
  · rw [info_modifyInfo_self]
    simp only [ClientManager.info, Function.update_self]

end JmyGame
