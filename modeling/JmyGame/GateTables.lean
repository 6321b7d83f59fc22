import JmyGame.GateReconnect
import JmyGame.GateRefusals

/-! The client tables of the gate. The free ids, the used ids, the `used` flags and the two tables that
find a slot are changed in different places; this says on which runs they fit together between events. The removals
read the values of the entries that they erase. -/

namespace JmyGame

open CArith

/-- The tables fit together: the free and the used ids are a partition of all ids, a slot is in use
exactly under a used id, every used id has one account and one connection, which is the one of its slot
and is not closed, and no table leads to a free id. -/
structure TablesConsistent (g : Gate) : Prop where
  nodup : g.mgr.clientArray.freeIds.Nodup
  disjoint : ∀ p ∈ g.mgr.clientArray.freeIds, p ∉ g.mgr.clientArray.usedIds
  ids : ∀ p, p ∈ g.mgr.clientArray.freeIds ∨ p ∈ g.mgr.clientArray.usedIds ↔
    g.mgr.clientArray.startId ≤ p ∧ p < g.mgr.clientArray.startId + g.mgr.clientArray.infoSize
  flags : ∀ p, (g.mgr.info p).used = true ↔ p ∈ g.mgr.clientArray.usedIds
  accounts : ∀ p ∈ g.mgr.clientArray.usedIds, ∃! account, g.mgr.accountIdBimap.find1 account = some p
  conns : ∀ p ∈ g.mgr.clientArray.usedIds, (∃! connId, g.mgr.connidIdBimap.find1 connId = some p) ∧
    g.mgr.connidIdBimap.find1 (g.mgr.info p).connId = some p ∧
    g.connState (g.mgr.info p).connId ≠ some .disconnected
  freeAccounts : ∀ account p, g.mgr.accountIdBimap.find1 account = some p →
    p ∉ g.mgr.clientArray.freeIds
  freeConns : ∀ connId p, g.mgr.connidIdBimap.find1 connId = some p → p ∉ g.mgr.clientArray.freeIds

/-- The two tables are one to one, and the removals to come keep them so. -/
structure Paired (m : ClientManager) : Prop where
  reads : m.Intact
  accounts : m.accountIdBimap.Inverse
  connids : m.connidIdBimap.Inverse

/-- What the handlers keep: besides, the ids of the slots are their own, and a connection of a client is
known. -/
structure Tidy (m : ClientManager) (connState : ℤ → Option JmyConnState) : Prop where
  paired : Paired m
  own : ∀ p, (m.info p).id = p
  nodup : m.clientArray.freeIds.Nodup
  disjoint : ∀ p ∈ m.clientArray.freeIds, p ∉ m.clientArray.usedIds
  ids : ∀ p, p ∈ m.clientArray.freeIds ∨ p ∈ m.clientArray.usedIds ↔
    m.clientArray.startId ≤ p ∧ p < m.clientArray.startId + m.clientArray.infoSize
  flags : ∀ p, (m.info p).used = true ↔ p ∈ m.clientArray.usedIds
  account : ∀ p ∈ m.clientArray.usedIds, ∃ account, m.accountIdBimap.find1 account = some p
  accountUsed : ∀ account p, m.accountIdBimap.find1 account = some p → p ∈ m.clientArray.usedIds
  conn : ∀ p ∈ m.clientArray.usedIds, m.connidIdBimap.find1 (m.info p).connId = some p
  connUsed : ∀ connId p, m.connidIdBimap.find1 connId = some p → p ∈ m.clientArray.usedIds
  hasMgr : ∀ p ∈ m.clientArray.usedIds, (m.info p).hasMgr = true
  known : ∀ p ∈ m.clientArray.usedIds, connState (m.info p).connId ≠ none
  up : ∀ p ∈ m.clientArray.usedIds, connState (m.info p).connId ≠ some .disconnected

/-- The part of it that is about the slots: each has its own id, which is free or used, and is in use under a used
id. -/
structure SlotsTidy (a : ClientArray) : Prop where
  own : ∀ p, (a.infoArray p).id = p
  nodup : a.freeIds.Nodup
  disjoint : ∀ p ∈ a.freeIds, p ∉ a.usedIds
  ids : ∀ p, p ∈ a.freeIds ∨ p ∈ a.usedIds ↔ a.startId ≤ p ∧ p < a.startId + a.infoSize
  flags : ∀ p, (a.infoArray p).used = true ↔ p ∈ a.usedIds

namespace SlotsTidy

variable {a a' : ClientArray} {p : ℤ}

theorem init (n : ℕ) (start : ℤ) : SlotsTidy (.init n start) := by
  have htables := ClientTables.init n start fun _ => .intact
  refine ⟨htables.ids, htables.nodup, htables.free, fun p => ⟨htables.range p, ?_⟩, ?_⟩
  · rintro ⟨hlow, hhigh⟩
    change start ≤ p at hlow
    change p < start + (n : ℤ) at hhigh
    refine Or.inl (List.mem_map.2 ⟨(p - start).toNat, List.mem_range.2 (by omega), by omega⟩)
  · exact fun p => iff_of_false Bool.false_ne_true (Finset.notMem_empty p)

theorem freed_usedIds (h : SlotsTidy a) {q : ℤ} : q ∈ (a.freed p).usedIds ↔ q ≠ p ∧ q ∈ a.usedIds := by
  change q ∈ a.usedIds.erase (a.infoArray p).id ↔ _
  rw [h.own p, Finset.mem_erase]

theorem freed_self : (a.freed p).infoArray p = { a.infoArray p with used := false } := Function.update_self _ _ _

theorem freed_other {q : ℤ} (hq : q ≠ p) : (a.freed p).infoArray q = a.infoArray q := Function.update_of_ne hq _ _

/-- A used slot becomes a free one. -/
theorem freed (h : SlotsTidy a) (hp : p ∈ a.usedIds) : SlotsTidy (a.freed p) := by
  have hfree : p ∉ a.freeIds := fun hmem => h.disjoint p hmem hp
  have hfreeIds : (a.freed p).freeIds = p :: a.freeIds := congrArg (· :: a.freeIds) (h.own p)
  refine ⟨?_, ?_, ?_, ?_, ?_⟩
  · intro q
    by_cases hq : q = p
    · rw [hq, freed_self]
      exact h.own p
    · rw [freed_other hq]
      exact h.own q
  · rw [hfreeIds]
    exact List.nodup_cons.2 ⟨hfree, h.nodup⟩
  · intro q hq hmem
    rw [hfreeIds, List.mem_cons] at hq
    obtain ⟨hqp, hmem⟩ := h.freed_usedIds.1 hmem
    exact h.disjoint q (hq.resolve_left hqp) hmem
  · intro q
    rw [hfreeIds, List.mem_cons, h.freed_usedIds]
    refine Iff.trans ?_ (h.ids q)
    by_cases hq : q = p
    · rw [hq]
      exact iff_of_true (Or.inl (Or.inl rfl)) (Or.inr hp)
    · simp [hq]
  · intro q
    rw [h.freed_usedIds]
    by_cases hq : q = p
    · rw [hq, freed_self]
      exact iff_of_false Bool.false_ne_true fun h' => h'.1 rfl
    · rw [freed_other hq, h.flags q]
      exact ⟨fun h' => ⟨hq, h'⟩, And.right⟩

/-- The first free slot becomes a used one. -/
theorem taken {rest : List ℤ} (h : SlotsTidy a) (hfree : a.freeIds = p :: rest) (hfreeIds : a'.freeIds = rest)
    (husedIds : a'.usedIds = insert p a.usedIds) (hstart : a'.startId = a.startId) (hsize : a'.infoSize = a.infoSize)
    (hself : (a'.infoArray p).id = p ∧ (a'.infoArray p).used = true)
    (hothers : ∀ q, q ≠ p → a'.infoArray q = a.infoArray q) : SlotsTidy a' := by
  have hnodup : p ∉ rest ∧ rest.Nodup := List.nodup_cons.1 (hfree ▸ h.nodup)
  have hmem : ∀ q, q ∈ a'.usedIds ↔ q = p ∨ q ∈ a.usedIds := by
    intro q
    rw [husedIds, Finset.mem_insert]
  refine ⟨?_, ?_, ?_, ?_, ?_⟩
  · intro q
    by_cases hq : q = p
    · rw [hq]
      exact hself.1
    · rw [hothers q hq]
      exact h.own q
  · rw [hfreeIds]
    exact hnodup.2
  · intro q hq hmem'
    rw [hfreeIds] at hq
    rcases (hmem q).1 hmem' with rfl | hmem'
    · exact hnodup.1 hq
    · exact h.disjoint q (hfree ▸ List.mem_cons_of_mem p hq) hmem'
  · intro q
    rw [hstart, hsize, hfreeIds, hmem, ← h.ids q, hfree, List.mem_cons]
    by_cases hq : q = p
    · simp [hq]
    · simp [hq]
  · intro q
    rw [hmem]
    by_cases hq : q = p
    · rw [hq]
      exact iff_of_true hself.2 (Or.inl rfl)
    · rw [hothers q hq, h.flags q]
      exact ⟨Or.inr, fun h' => h'.resolve_left hq⟩

end SlotsTidy

namespace Tidy

variable {m m' : ClientManager} {connState connState' : ℤ → Option JmyConnState} {connId p : ℤ} {account : Str}

theorem slots (h : Tidy m connState) : SlotsTidy m.clientArray := ⟨h.own, h.nodup, h.disjoint, h.ids, h.flags⟩

theorem consistent {g : Gate} (h : Tidy g.mgr g.connState) : TablesConsistent g := by
  refine ⟨h.nodup, h.disjoint, h.ids, h.flags, ?_, ?_, ?_, ?_⟩
  · intro p hp
    obtain ⟨account, haccount⟩ := h.account p hp
    exact ⟨account, haccount, fun a ha => h.paired.accounts.find1_inj ha haccount⟩
  · intro p hp
    exact ⟨⟨_, h.conn p hp, fun c hc => h.paired.connids.find1_inj hc (h.conn p hp)⟩, h.conn p hp, h.up p hp⟩
  · intro account p hfind hfree
    exact h.disjoint p hfree (h.accountUsed account p hfind)
  · intro connId p hfind hfree
    exact h.disjoint p hfree (h.connUsed connId p hfind)

theorem start (maxConn : ℕ) : Tidy (Gate.start maxConn).mgr (Gate.start maxConn).connState := by
  have hslots := SlotsTidy.init maxConn defaultClientStartId
  have hunused : ∀ p, p ∉ (Gate.start maxConn).mgr.clientArray.usedIds := fun p => Finset.notMem_empty p
  refine ⟨⟨fun _ => rfl, .empty, .empty⟩, hslots.own, hslots.nodup, hslots.disjoint, hslots.ids, hslots.flags,
    ?_, ?_, ?_, ?_, ?_, ?_, ?_⟩
  · exact fun p hp => absurd hp (hunused p)
  · intro account p hfind
    cases hfind
  · exact fun p hp => absurd hp (hunused p)
  · intro connId p hfind
    cases hfind
  · exact fun p hp => absurd hp (hunused p)
  · exact fun p hp => absurd hp (hunused p)
  · exact fun p hp => absurd hp (hunused p)

theorem get (h : Tidy m connState) (hp : p ∈ m.clientArray.usedIds) : m.clientArray.get p = some p := by
  obtain ⟨hlow, hhigh⟩ := (h.ids p).1 (Or.inr hp)
  unfold ClientArray.get
  rw [if_neg (by omega), if_neg (not_not.2 hp)]

theorem getByAccount (h : Tidy m connState) (hfind : m.accountIdBimap.find1 account = some p) :
    m.getClientInfoByAccount account = some p := by
  unfold ClientManager.getClientInfoByAccount
  rw [hfind, Option.bind_some, h.get (h.accountUsed account p hfind)]

theorem getByConnId (h : Tidy m connState) (hfind : m.connidIdBimap.find1 connId = some p) :
    m.getClientInfoByConnId connId = some p := by
  unfold ClientManager.getClientInfoByConnId
  rw [hfind, Option.bind_some, h.get (h.connUsed connId p hfind)]

theorem connId_eq (h : Tidy m connState) (hfind : m.connidIdBimap.find1 connId = some p) :
    (m.info p).connId = connId :=
  h.paired.connids.find1_inj (h.conn p (h.connUsed connId p hfind)) hfind

/-- A client in use can be kicked, and loses its slot by it. -/
theorem kicks {g : Gate} (h : Tidy g.mgr g.connState) (hp : p ∈ g.mgr.clientArray.usedIds) : g.Kicks p :=
  ⟨(h.flags p).2 hp, h.hasMgr p hp, h.known p hp, h.up p hp⟩

theorem frees {g : Gate} (h : Tidy g.mgr g.connState)
    (hfind : g.mgr.accountIdBimap.find1 account = some p) : Frees g account p := by
  have hp := h.accountUsed account p hfind
  exact ⟨p, h.getByAccount hfind, h.kicks hp, h.getByConnId (h.conn p hp), (h.flags p).2 hp, account,
    (h.paired.accounts account p).1 hfind, by rw [h.paired.reads]; rfl⟩

/-- The connections of the clients stay up. -/
theorem conns (h : Tidy m connState) (hkept : ∀ p ∈ m.clientArray.usedIds,
    connState' (m.info p).connId = connState (m.info p).connId ∨
      connState' (m.info p).connId = some .connected) : Tidy m connState' := by
  refine ⟨h.paired, h.own, h.nodup, h.disjoint, h.ids, h.flags, h.account, h.accountUsed, h.conn, h.connUsed,
    h.hasMgr, ?_, ?_⟩
  · intro p hp
    rcases hkept p hp with heq | heq
    · rw [heq]
      exact h.known p hp
    · rw [heq]
      exact Option.some_ne_none _
  · intro p hp
    rcases hkept p hp with heq | heq
    · rw [heq]
      exact h.up p hp
    · rw [heq]
      decide

/-- A connection without a client may change. -/
theorem setConn_of_unmapped (h : Tidy m connState) (hfind : m.connidIdBimap.find1 connId = none)
    (state : Option JmyConnState) : Tidy m (Function.update connState connId state) := by
  apply h.conns
  intro p hp
  refine Or.inl (Function.update_of_ne ?_ _ _)
  intro heq
  have hconn := h.conn p hp
  rw [heq, hfind] at hconn
  cases hconn

theorem setConn_connected (h : Tidy m connState) (connId : ℤ) :
    Tidy m (Function.update connState connId (some .connected)) := by
  apply h.conns
  intro p _
  by_cases hc : (m.info p).connId = connId
  · rw [hc]
    exact Or.inr (Function.update_self _ _ _)
  · exact Or.inl (Function.update_of_ne hc _ _)

/-- The client of a connection leaves all tables, whatever becomes of the connection. -/
theorem freed (h : Tidy m connState) (hfind : m.connidIdBimap.find1 connId = some p)
    (state : Option JmyConnState) : Tidy { m with
      clientArray := m.clientArray.freed p
      accountIdBimap := (m.accountIdBimap.remove2 (m.reads m.removals).account p).2
      connidIdBimap := (m.connidIdBimap.remove1 (m.reads m.removals).id connId).2
      removals := m.removals + 1 } (Function.update connState connId state) := by
  have hp := h.connUsed connId p hfind
  have hslots := h.slots.freed hp
  have husedIds : ∀ q, q ∈ (m.clientArray.freed p).usedIds ↔ q ≠ p ∧ q ∈ m.clientArray.usedIds :=
    fun q => h.slots.freed_usedIds
  have hothers : ∀ q, q ≠ p → (m.clientArray.freed p).infoArray q = m.info q := fun q => SlotsTidy.freed_other
  -- the connection of another client is another one
  have hne : ∀ q, q ≠ p ∧ q ∈ m.clientArray.usedIds → (m.info q).connId ≠ connId := by
    rintro q ⟨hq, hmem⟩ heq
    have hconn := h.conn q hmem
    rw [heq, hfind, Option.some.injEq] at hconn
    exact hq hconn.symm
  have haccounts : (m.accountIdBimap.remove2 (m.reads m.removals).account p).2 =
      (m.accountIdBimap.remove2 (fun a => a) p).2 := by
    rw [h.paired.reads]
    rfl
  have hconnids : (m.connidIdBimap.remove1 (m.reads m.removals).id connId).2 =
      (m.connidIdBimap.remove1 (fun q => q) connId).2 := by
    rw [h.paired.reads]
    rfl
  rw [haccounts, hconnids]
  refine ⟨⟨h.paired.reads, h.paired.accounts.remove2 p, h.paired.connids.remove1 connId⟩, hslots.own, hslots.nodup,
    hslots.disjoint, hslots.ids, hslots.flags, ?_, ?_, ?_, ?_, ?_, ?_, ?_⟩
  · intro q hmem
    obtain ⟨hq, hmem⟩ := (husedIds q).1 hmem
    obtain ⟨account, haccount⟩ := h.account q hmem
    exact ⟨account, h.paired.accounts.remove2_find1.2 ⟨haccount, hq⟩⟩
  · intro account q hq
    obtain ⟨hfind', hqp⟩ := h.paired.accounts.remove2_find1.1 hq
    exact (husedIds q).2 ⟨hqp, h.accountUsed account q hfind'⟩
  · intro q hmem
    have hq := (husedIds q).1 hmem
    change (m.connidIdBimap.remove1 _ connId).2.find1 ((m.clientArray.freed p).infoArray q).connId = some q
    rw [hothers q hq.1, FreedBiMap.remove1_find1]
    exact ⟨h.conn q hq.2, hne q hq⟩
  · intro c q hq
    obtain ⟨hfind', hc⟩ := FreedBiMap.remove1_find1.1 hq
    refine (husedIds q).2 ⟨?_, h.connUsed c q hfind'⟩
    rintro rfl
    exact hc (h.paired.connids.find1_inj hfind' hfind)
  · intro q hmem
    have hq := (husedIds q).1 hmem
    change ((m.clientArray.freed p).infoArray q).hasMgr = true
    rw [hothers q hq.1]
    exact h.hasMgr q hq.2
  · intro q hmem
    have hq := (husedIds q).1 hmem
    change Function.update connState connId state ((m.clientArray.freed p).infoArray q).connId ≠ none
    rw [hothers q hq.1, Function.update_of_ne (hne q hq)]
    exact h.known q hq.2
  · intro q hmem
    have hq := (husedIds q).1 hmem
    change Function.update connState connId state ((m.clientArray.freed p).infoArray q).connId ≠ _
    rw [hothers q hq.1, Function.update_of_ne (hne q hq)]
    exact h.up q hq.2

/-- `removeByConnId` when the connection is closed. -/
theorem removeByConnId (h : Tidy m connState) (connId : ℤ) :
    Tidy (m.removeByConnId connId).2 (Function.update connState connId (some .disconnected)) := by
  cases hfind : m.connidIdBimap.find1 connId with
  | none =>
      have hsame : (m.removeByConnId connId).2 = m := by
        unfold ClientManager.removeByConnId
        rw [hfind]
      rw [hsame]
      exact h.setConn_of_unmapped hfind _
  | some p =>
      have hp := h.connUsed connId p hfind
      obtain ⟨account, haccount⟩ := h.account p hp
      rw [removeByConnId_of_client (h.getByConnId hfind) ((h.flags p).2 hp)
        ((h.paired.accounts account p).1 haccount)]
      exact h.freed hfind _

theorem connForceClose {g : Gate} (h : Tidy g.mgr g.connState) (connId : ℤ) :
    Tidy (g.connForceClose connId).mgr (g.connForceClose connId).connState := by
  by_cases hopen : g.connState connId = none ∨ g.connState connId = some .disconnected
  · rw [Gate.connForceClose_of_closed hopen]
    exact h
  · rw [not_or] at hopen
    rw [Gate.connForceClose_of_open hopen.1 hopen.2]
    exact h.removeByConnId connId

theorem clientForceClose {g : Gate} (h : Tidy g.mgr g.connState) (p : ℤ) :
    Tidy (g.clientForceClose p).mgr (g.clientForceClose p).connState := by
  unfold Gate.clientForceClose
  split_ifs
  · exact h
  · split
    · exact h
    · exact h.connForceClose _

theorem kicked {g : Gate} (h : Tidy g.mgr g.connState) (account : Str) :
    Tidy (g.kicked account).mgr (g.kicked account).connState := by
  unfold Gate.kicked
  cases g.mgr.getClientInfoByAccount account with
  | none => exact h
  | some p => exact h.clientForceClose p

/-- The first free slot with a new account and a new connection. -/
structure Taken (m m' : ClientManager) (account : Str) (connId p : ℤ) (rest : List ℤ) : Prop where
  paired : Paired m → Paired m'
  freeIds : m'.clientArray.freeIds = rest
  usedIds : m'.clientArray.usedIds = insert p m.clientArray.usedIds
  startId : m'.clientArray.startId = m.clientArray.startId
  infoSize : m'.clientArray.infoSize = m.clientArray.infoSize
  self : (m'.info p).id = p ∧ (m'.info p).used = true ∧ (m'.info p).connId = connId ∧ (m'.info p).hasMgr = true
  others : ∀ q, q ≠ p → m'.info q = m.info q
  accounts : ∀ a, m'.accountIdBimap.find1 a = if a = account then some p else m.accountIdBimap.find1 a
  conns : ∀ c, m'.connidIdBimap.find1 c = if c = connId then some p else m.connidIdBimap.find1 c

theorem taken {rest : List ℤ} (h : Tidy m connState) (ht : Taken m m' account connId p rest)
    (hfree : m.clientArray.freeIds = p :: rest) (hunmapped : m.accountIdBimap.find1 account = none)
    (hconn : m.connidIdBimap.find1 connId = none) (hknown : connState connId ≠ none)
    (hup : connState connId ≠ some .disconnected) : Tidy m' connState := by
  have hunused : p ∉ m.clientArray.usedIds := h.disjoint p (hfree ▸ List.mem_cons_self)
  have hmem : ∀ q, q ∈ m'.clientArray.usedIds ↔ q = p ∨ q ∈ m.clientArray.usedIds := by
    intro q
    rw [ht.usedIds, Finset.mem_insert]
  have hne : ∀ q ∈ m.clientArray.usedIds, q ≠ p := by
    rintro q hq rfl
    exact hunused hq
  obtain ⟨hid, hused, hconnId, hmgr⟩ := ht.self
  have hslots := h.slots.taken hfree ht.freeIds ht.usedIds ht.startId ht.infoSize ⟨hid, hused⟩ ht.others
  refine ⟨ht.paired h.paired, hslots.own, hslots.nodup, hslots.disjoint, hslots.ids, hslots.flags,
    ?_, ?_, ?_, ?_, ?_, ?_, ?_⟩
  · intro q hq
    rcases (hmem q).1 hq with rfl | hq
    · exact ⟨account, by rw [ht.accounts, if_pos rfl]⟩
    · obtain ⟨a, ha⟩ := h.account q hq
      refine ⟨a, ?_⟩
      rw [ht.accounts, if_neg]
      · exact ha
      · rintro rfl
        rw [hunmapped] at ha
        cases ha
  · intro a q hq
    rw [ht.accounts] at hq
    rw [hmem]
    split_ifs at hq
    · cases hq
      exact Or.inl rfl
    · exact Or.inr (h.accountUsed a q hq)
  · intro q hq
    rcases (hmem q).1 hq with rfl | hq
    · rw [hconnId, ht.conns, if_pos rfl]
    · rw [ht.others q (hne q hq), ht.conns, if_neg]
      · exact h.conn q hq
      · intro heq
        have hq' := h.conn q hq
        rw [heq, hconn] at hq'
        cases hq'
  · intro c q hq
    rw [ht.conns] at hq
    rw [hmem]
    split_ifs at hq
    · cases hq
      exact Or.inl rfl
    · exact Or.inr (h.connUsed c q hq)
  · intro q hq
    rcases (hmem q).1 hq with rfl | hq
    · exact hmgr
    · rw [ht.others q (hne q hq)]
      exact h.hasMgr q hq
  · intro q hq
    rcases (hmem q).1 hq with rfl | hq
    · rw [hconnId]
      exact hknown
    · rw [ht.others q (hne q hq)]
      exact h.known q hq
  · intro q hq
    rcases (hmem q).1 hq with rfl | hq
    · rw [hconnId]
      exact hup
    · rw [ht.others q (hne q hq)]
      exact h.up q hq

/-- Nothing is found under a free id. -/
theorem find2_free (h : Tidy m connState) (hp : p ∈ m.clientArray.freeIds) :
    m.accountIdBimap.find2 p = none ∧ m.connidIdBimap.find2 p = none := by
  have hunused := h.disjoint p hp
  constructor
  · cases hfind : m.accountIdBimap.find2 p with
    | none => rfl
    | some a => exact absurd (h.accountUsed a p ((h.paired.accounts a p).2 hfind)) hunused
  · cases hfind : m.connidIdBimap.find2 p with
    | none => rfl
    | some c => exact absurd (h.connUsed c p ((h.paired.connids c p).2 hfind)) hunused

/-- A new client with its connection. -/
theorem newClient {g g' : Gate} {rest : List ℤ} (h : Tidy g.mgr g.connState)
    (hfree : g.mgr.clientArray.freeIds = p :: rest) (hunmapped : g.mgr.accountIdBimap.find1 account = none)
    (hconn : g.mgr.connidIdBimap.find1 connId = none) (hknown : g.connState connId ≠ none)
    (hup : g.connState connId ≠ some .disconnected) (hnew : g.newClient account = (some p, g')) :
    Tidy (ClientHandler.bindConn g' connId p).mgr (ClientHandler.bindConn g' connId p).connState := by
  obtain ⟨haccount2, hconn2⟩ := h.find2_free (hfree ▸ List.mem_cons_self : p ∈ g.mgr.clientArray.freeIds)
  unfold Gate.newClient ClientManager.takeFree ClientArray.getFree at hnew
  rw [hunmapped, hfree] at hnew
  obtain ⟨-, rfl⟩ := Prod.mk.inj hnew
  refine h.taken ⟨fun hm => ⟨hm.reads, hm.accounts.insert _ _, hm.connids.insert _ _⟩, rfl, rfl, rfl, rfl,
    ?_, ?_, ?_, ?_⟩ hfree hunmapped hconn hknown hup
  · simp [ClientHandler.bindConn, ClientManager.info, ClientManager.modifyInfo, ClientArray.modifyInfo,
      ClientManager.insertConnIdId]
  · intro q hq
    simp [ClientHandler.bindConn, ClientManager.info, ClientManager.modifyInfo, ClientArray.modifyInfo,
      ClientManager.insertConnIdId, hq]
  · exact (FreedBiMap.insert_of_absent hunmapped haccount2).2
  · intro c
    rw [← (FreedBiMap.insert_of_absent hconn hconn2).2 c]
    simp [ClientHandler.bindConn, ClientManager.info, ClientManager.modifyInfo, ClientArray.modifyInfo,
      ClientManager.insertConnIdId]

end Tidy

/-- The tables, the connections and what the tables say of the slots are the same. -/
structure Keeps (g g' : Gate) : Prop where
  conns : g'.connState = g.connState
  freeIds : g'.mgr.clientArray.freeIds = g.mgr.clientArray.freeIds
  usedIds : g'.mgr.clientArray.usedIds = g.mgr.clientArray.usedIds
  startId : g'.mgr.clientArray.startId = g.mgr.clientArray.startId
  infoSize : g'.mgr.clientArray.infoSize = g.mgr.clientArray.infoSize
  accounts : g'.mgr.accountIdBimap = g.mgr.accountIdBimap
  connids : g'.mgr.connidIdBimap = g.mgr.connidIdBimap
  reads : g'.mgr.reads = g.mgr.reads
  id : ∀ p, (g'.mgr.info p).id = (g.mgr.info p).id
  used : ∀ p, (g'.mgr.info p).used = (g.mgr.info p).used
  connId : ∀ p, (g'.mgr.info p).connId = (g.mgr.info p).connId
  hasMgr : ∀ p, (g'.mgr.info p).hasMgr = (g.mgr.info p).hasMgr

theorem Tidy.keeps {g g' : Gate} (h : Tidy g.mgr g.connState) (hk : Keeps g g') :
    Tidy g'.mgr g'.connState := by
  refine ⟨⟨fun k => hk.reads ▸ h.paired.reads k, hk.accounts ▸ h.paired.accounts, hk.connids ▸ h.paired.connids⟩,
    ?_, ?_, ?_, ?_, ?_, ?_, ?_, ?_, ?_, ?_, ?_, ?_⟩
  · intro p
    rw [hk.id]
    exact h.own p
  · rw [hk.freeIds]
    exact h.nodup
  · rw [hk.freeIds, hk.usedIds]
    exact h.disjoint
  · rw [hk.freeIds, hk.usedIds, hk.startId, hk.infoSize]
    exact h.ids
  · intro p
    rw [hk.used, hk.usedIds]
    exact h.flags p
  · rw [hk.usedIds, hk.accounts]
    exact h.account
  · rw [hk.usedIds, hk.accounts]
    exact h.accountUsed
  · intro p
    rw [hk.usedIds, hk.connids, hk.connId]
    exact h.conn p
  · rw [hk.usedIds, hk.connids]
    exact h.connUsed
  · intro p
    rw [hk.usedIds, hk.hasMgr]
    exact h.hasMgr p
  · intro p
    rw [hk.usedIds, hk.conns, hk.connId]
    exact h.known p
  · intro p
    rw [hk.usedIds, hk.conns, hk.connId]
    exact h.up p

namespace Keeps

variable {g g' g'' : Gate} {P : Protocol} {info : JmyMsgInfo} {session : Str}

theorem refl (g : Gate) : Keeps g g :=
  ⟨rfl, rfl, rfl, rfl, rfl, rfl, rfl, rfl, fun _ => rfl, fun _ => rfl, fun _ => rfl, fun _ => rfl⟩

theorem trans (h : Keeps g g') (h' : Keeps g' g'') : Keeps g g'' :=
  ⟨h'.conns.trans h.conns, h'.freeIds.trans h.freeIds, h'.usedIds.trans h.usedIds,
    h'.startId.trans h.startId, h'.infoSize.trans h.infoSize, h'.accounts.trans h.accounts,
    h'.connids.trans h.connids, h'.reads.trans h.reads, fun p => (h'.id p).trans (h.id p),
    fun p => (h'.used p).trans (h.used p), fun p => (h'.connId p).trans (h.connId p),
    fun p => (h'.hasMgr p).trans (h.hasMgr p)⟩

/-- The clients and the connections are the same. -/
theorem of_mgr (hmgr : g'.mgr = g.mgr) (hconns : g'.connState = g.connState) : Keeps g g' := by
  refine ⟨hconns, ?_, ?_, ?_, ?_, ?_, ?_, ?_, ?_, ?_, ?_, ?_⟩
  all_goals
    rw [hmgr]
  all_goals
    intro p
    rfl

theorem modifyInfo (g : Gate) (p : ℤ) {f : ClientInfo → ClientInfo}
    (hid : (f (g.mgr.info p)).id = (g.mgr.info p).id) (hused : (f (g.mgr.info p)).used = (g.mgr.info p).used)
    (hconnId : (f (g.mgr.info p)).connId = (g.mgr.info p).connId)
    (hhasMgr : (f (g.mgr.info p)).hasMgr = (g.mgr.info p).hasMgr) :
    Keeps g { g with mgr := g.mgr.modifyInfo p f } := by
  have hinfo : ∀ {β : Type} (field : ClientInfo → β), field (f (g.mgr.info p)) = field (g.mgr.info p) →
      ∀ q, field ((g.mgr.modifyInfo p f).info q) = field (g.mgr.info q) := by
    intro β field hfield q
    by_cases hq : q = p
    · rw [hq, info_modifyInfo_self]
      exact hfield
    · rw [info_modifyInfo_of_ne _ _ _ hq]
  exact ⟨rfl, rfl, rfl, rfl, rfl, rfl, rfl, rfl, hinfo ClientInfo.id hid, hinfo ClientInfo.used hused,
    hinfo ClientInfo.connId hconnId, hinfo ClientInfo.hasMgr hhasMgr⟩

theorem checkSession (g : Gate) (time : ℤ) (account session : Str) :
    Keeps g { g with mgr := (g.mgr.checkSessionByAccount time account session).2 } := by
  unfold ClientManager.checkSessionByAccount
  split
  · exact refl g
  · split_ifs
    · exact refl g
    · exact ⟨rfl, rfl, rfl, rfl, rfl, rfl, rfl, rfl, fun _ => rfl, fun _ => rfl, fun _ => rfl, fun _ => rfl⟩

theorem sendError (P : Protocol) (g : Gate) (connId : ℤ) (error : ProtoErrorType) :
    Keeps g (g.sendError P connId error) :=
  of_mgr (Gate.sendError_mgr _ _ _ _) (Gate.sendError_connState _ _ _ _)

theorem clientSend (g : Gate) (p : ℤ) (msgId : MsgId) (data : List Byte) :
    Keeps g (g.clientSend p msgId data).2 := by
  unfold Gate.clientSend
  split_ifs
  · exact refl g
  · split
    · exact refl g
    · exact of_mgr (Gate.connSend_mgr _ _ _ _) (Gate.connSend_connState _ _ _ _)

theorem sendGameMsg (g : Gate) (msgId : MsgId) (data : List Byte) : Keeps g (g.sendGameMsg msgId data).2 :=
  of_mgr (Gate.sendGameMsg_mgr _ _ _) (Gate.sendGameMsg_connState _ _ _)

theorem sendGameUserMsg (g : Gate) (userId : ℤ) (msgId : MsgId) (data : List Byte) :
    Keeps g (g.sendGameUserMsg userId msgId data).2 :=
  of_mgr (Gate.sendGameUserMsg_mgr _ _ _ _) (Gate.sendGameUserMsg_connState _ _ _ _)

theorem observe (g : Gate) (o : GateObs) : Keeps g (g.observe o) := of_mgr rfl rfl

/-- The end of a handler that looks at the result of a send. -/
theorem answer {c : Prop} [Decidable c] {a b : ℤ} (h : Keeps g g') :
    Keeps g (if c then (a, g') else (b, g') : ℤ × Gate).2 := by
  rw [apply_ite Prod.snd, ite_self]
  exact h

theorem processCreateRoleRequest : Keeps g (ClientHandler.processCreateRoleRequest P g info).2 := by
  unfold ClientHandler.processCreateRoleRequest
  repeat' split
  all_goals first | exact refl g | exact sendGameMsg g _ _

theorem processEnterGameRequest : Keeps g (ClientHandler.processEnterGameRequest P g info).2 := by
  unfold ClientHandler.processEnterGameRequest
  repeat' split
  all_goals first | exact refl g | exact sendError P g _ _ | exact sendGameUserMsg g _ _ _

theorem processDefault : Keeps g (ClientHandler.processDefault P g info).2 := by
  unfold ClientHandler.processDefault
  split
  · exact refl g
  · dsimp only
    split_ifs
    · exact sendError P g _ _
    · exact (sendGameUserMsg g _ _ _).trans (sendError P _ _ _)
    · exact sendGameUserMsg g _ _ _

theorem setRole (g : Gate) (p : ℤ) (roleId : BitVec 64) :
    Keeps g { g with mgr := g.mgr.modifyInfo p fun ci => ci.setRole roleId } :=
  modifyInfo g p (ClientInfo.setRole_id _ _) (ClientInfo.setRole_used _ _) (ClientInfo.setRole_connId _ _)
    (ClientInfo.setRole_hasMgr _ _)

theorem newGameAgent (g : Gate) (gameId : ℤ) : Keeps g (g.newGameAgent gameId).2 := by
  unfold Gate.newGameAgent
  split_ifs
  · exact refl g
  · exact refl g
  · exact of_mgr rfl rfl

theorem processConnectGateRequest : Keeps g (GateGameHandler.processConnectGateRequest P g info).2 := by
  unfold GateGameHandler.processConnectGateRequest
  split
  · exact refl g
  rename_i gameId _
  have hmade := newGameAgent g gameId
  dsimp only
  by_cases hagent : (g.newGameAgent gameId).1 = false
  · rw [if_pos hagent]
    exact hmade
  · rw [if_neg hagent]
    split
    · exact hmade
    · exact answer (hmade.trans (sendGameMsg _ _ _))

theorem processGetRoleResponse : Keeps g (GateGameHandler.processGetRoleResponse P session g info).2 := by
  unfold GateGameHandler.processGetRoleResponse
  split
  · exact refl g
  rename_i response _
  have hobserved := observe g (.role response.account response.roleData.roleId)
  dsimp only
  split
  · exact hobserved
  rename_i p _
  by_cases hnone : response.roleData.roleId = 0
  · rw [if_pos hnone]
    split
    · exact hobserved
    · exact answer (hobserved.trans (clientSend _ _ _ _))
  · rw [if_neg hnone]
    have hsession := hobserved.trans (modifyInfo _ p (f := fun ci => { ci with reconnSession := session })
      rfl rfl rfl rfl)
    split
    · exact hsession
    · split_ifs
      · exact hsession.trans (clientSend _ _ _ _)
      · exact (hsession.trans (clientSend _ _ _ _)).trans (setRole _ p _)

theorem processCreateRoleResponse : Keeps g (GateGameHandler.processCreateRoleResponse P g info).2 := by
  unfold GateGameHandler.processCreateRoleResponse
  split
  · exact refl g
  rename_i response _
  have hobserved := observe g (.role response.account response.roleData.roleId)
  dsimp only
  split
  · exact hobserved
  rename_i p _
  have hrole := hobserved.trans (setRole _ p response.roleData.roleId)
  split
  · exact hrole
  · exact answer (hrole.trans (clientSend _ _ _ _))

theorem processDefaultGame : Keeps g (GateGameHandler.processDefault g info).2 := by
  unfold GateGameHandler.processDefault
  split_ifs
  · exact refl g
  · exact refl g
  · split
    · exact refl g
    · exact answer (clientSend g _ _ _)

/-- The messages of the game server change the roles and the sessions of clients only. -/
theorem handleGame : Keeps g (GateGameHandler.handle P session g info).2 := by
  unfold GateGameHandler.handle
  split_ifs
  · exact processConnectGateRequest
  · exact processGetRoleResponse
  · exact processCreateRoleResponse
  · exact processDefaultGame

end Keeps

/-- What a message must not do to the tables: leave the game while it has a client; or get a slot that
fills the gate, or get it on a connection that is closed or has a client. -/
def TableSafe (P : Protocol) (g : Gate) : GateEvent → Prop
  | .client time _ connId msgId data =>
    (msgId = MsgId.c2sLeaveGameRequest → g.mgr.getClientInfoByConnId connId = none) ∧
    (msgId = MsgId.c2sGetRoleRequest → ∀ request ∈ P.c2sGetRoleRequest.parse data,
      (g.mgr.checkSessionByAccount time request.account request.enterSession).1 = true →
        g.connState connId ≠ some .disconnected ∧ g.mgr.getClientInfoByConnId connId = none ∧
          ¬TakesLast g request.account)
  | _ => True

instance (P : Protocol) (g : Gate) : ∀ e, Decidable (TableSafe P g e)
  | .client _ _ _ _ _ => inferInstanceAs (Decidable (_ ∧ _))
  | .connect | .drop _ | .revive _ | .release _ | .session _ _ _ | .game _ _ _ _ => inferInstanceAs (Decidable True)

namespace Tidy

variable {P : Protocol} {time : ℤ} {g : Gate} {info : JmyMsgInfo} {session : Str}

theorem checked (h : Tidy g.mgr g.connState) (time : ℤ) (account session : Str) :
    Tidy (g.checked time account session).mgr (g.checked time account session).connState :=
  (h.kicked account).keeps (Keeps.checkSession (g.kicked account) time account session)

/-- The kick leaves the account without a slot. -/
theorem kicked_unmapped (h : Tidy g.mgr g.connState) (account : Str) :
    (g.kicked account).mgr.accountIdBimap.find1 account = none := by
  cases hfind : g.mgr.accountIdBimap.find1 account with
  | none =>
      rw [kicked_of_unmapped hfind]
      exact hfind
  | some p => exact (kicked_of_frees (h.frees hfind)).1

/-- A connection without a client is left alone by the kick. -/
theorem kicked_conn {connId : ℤ} (h : Tidy g.mgr g.connState) (account : Str)
    (hconn : g.mgr.connidIdBimap.find1 connId = none) :
    (g.kicked account).mgr.connidIdBimap.find1 connId = none ∧
      (g.kicked account).connState connId = g.connState connId := by
  cases hfind : g.mgr.accountIdBimap.find1 account with
  | none =>
      rw [kicked_of_unmapped hfind]
      exact ⟨hconn, rfl⟩
  | some p =>
      have hp := h.conn p (h.accountUsed account p hfind)
      rw [kicked_of_kicks (h.getByAccount hfind) (h.kicks (h.accountUsed account p hfind))]
      constructor
      · rw [Option.eq_none_iff_forall_ne_some]
        intro q hq
        have hq' := removeByConnId_conn hq
        rw [hconn] at hq'
        cases hq'
      · refine Function.update_of_ne ?_ _ _
        rintro rfl
        rw [hconn] at hp
        cases hp

theorem processGetRoleRequest (h : Tidy g.mgr g.connState)
    (hsafe : ∀ request ∈ P.c2sGetRoleRequest.parse info.data,
      (g.mgr.checkSessionByAccount time request.account request.enterSession).1 = true →
        g.connState info.connId ≠ some .disconnected ∧ g.mgr.getClientInfoByConnId info.connId = none ∧
          ¬TakesLast g request.account) :
    Tidy (ClientHandler.processGetRoleRequest P time g info).2.mgr
      (ClientHandler.processGetRoleRequest P time g info).2.connState := by
  by_cases hconn : g.connState info.connId = none
  · unfold ClientHandler.processGetRoleRequest
    rw [hconn]
    exact h
  cases hparse : P.c2sGetRoleRequest.parse info.data with
  | none =>
      obtain ⟨state, hstate⟩ := Option.ne_none_iff_exists'.1 hconn
      unfold ClientHandler.processGetRoleRequest
      rw [hstate, hparse]
      exact h
  | some request =>
      obtain ⟨account, session⟩ := request
      have hchecked := h.checked time account session
      by_cases haccept : (g.mgr.checkSessionByAccount time account session).1 = false
      · rw [processGetRoleRequest_rejected hconn hparse haccept]
        exact hchecked.keeps (Keeps.sendError P _ _ _)
      rw [processGetRoleRequest_accepted hconn hparse haccept]
      obtain ⟨hup, hclient, hlast⟩ := hsafe ⟨account, session⟩ hparse (by simpa using haccept)
      have hcheck : Keeps (g.kicked account) (g.checked time account session) :=
        Keeps.checkSession (g.kicked account) time account session
      have hunmapped : (g.checked time account session).mgr.accountIdBimap.find1 account = none :=
        (congrArg (FreedBiMap.find1 · account) hcheck.accounts).trans (h.kicked_unmapped account)
      have hfree : g.mgr.connidIdBimap.find1 info.connId = none := by
        cases hfind : g.mgr.connidIdBimap.find1 info.connId with
        | none => rfl
        | some p =>
            rw [h.getByConnId hfind] at hclient
            cases hclient
      obtain ⟨hfree', hstate⟩ := h.kicked_conn account hfree
      dsimp only
      cases hids : (g.checked time account session).mgr.clientArray.freeIds with
      | nil =>
          rw [newClient_of_empty hunmapped hids]
          exact hchecked.keeps (Keeps.sendError P _ _ _)
      | cons p rest =>
          obtain ⟨g', hnew, hmax, -, hused'⟩ := newClient_of_free hunmapped hids
          -- the slot does not fill the gate, so that the client gets its connection
          have hroom : ¬g'.maxConn ≤ g'.mgr.clientArray.getUsedSize := by
            intro hfull
            apply hlast
            rw [takesLast_iff]
            refine ⟨h.kicked_unmapped account, p, rest, hcheck.freeIds.symm.trans hids, ?_⟩
            change g'.maxConn ≤ (g'.mgr.clientArray.usedIds.card : ℤ) at hfull
            rw [hmax, hused', hcheck.usedIds] at hfull
            exact (kicked_maxConn g account).symm.le.trans hfull
          have hbound := hchecked.newClient hids hunmapped
            ((congrArg (FreedBiMap.find1 · info.connId) hcheck.connids).trans hfree')
            (by rw [hcheck.conns, hstate]; exact hconn) (by rw [hcheck.conns, hstate]; exact hup) hnew
          rw [hnew]
          unfold Gate.enrol
          dsimp only
          rw [if_neg hroom]
          split
          · exact hbound
          · exact hbound.keeps (Keeps.answer (Keeps.sendGameMsg _ _ _))

theorem processReconnectRequest (h : Tidy g.mgr g.connState) :
    Tidy (ClientHandler.processReconnectRequest P session g info).2.mgr
      (ClientHandler.processReconnectRequest P session g info).2.connState := by
  cases hparse : P.c2sReconnectRequest.parse info.data with
  | none =>
      unfold ClientHandler.processReconnectRequest
      rw [hparse]
      exact h
  | some request =>
      by_cases hconn : g.connState info.connId = none
      · unfold ClientHandler.processReconnectRequest
        rw [hparse, hconn]
        exact h
      cases hp : g.mgr.getClientInfoByAccount request.account with
      | none =>
          obtain ⟨state, hstate⟩ := Option.ne_none_iff_exists'.1 hconn
          unfold ClientHandler.processReconnectRequest
          rw [hparse, hstate]
          dsimp only
          rw [hp]
          exact h.keeps (Keeps.sendError P g _ _)
      | some p =>
          have hreissued : Tidy (g.reissued p info.connId session).mgr
              (g.reissued p info.connId session).connState := by
            unfold Gate.reissued
            split_ifs
            · exact h.keeps (Keeps.modifyInfo g p rfl rfl rfl rfl)
            · exact (h.clientForceClose p).keeps (Keeps.modifyInfo _ p rfl rfl rfl rfl)
          rw [processReconnectRequest_found hconn hparse hp]
          refine hreissued.keeps ?_
          unfold Gate.answerReconnect
          split
          · exact Keeps.sendError P _ _ _
          · exact Keeps.answer (Keeps.of_mgr (Gate.connSend_mgr _ _ _ _) (Gate.connSend_connState _ _ _ _))

theorem handleClient {connId : ℤ} {msgId : MsgId} {data : List Byte} (h : Tidy g.mgr g.connState)
    (hsafe : TableSafe P g (.client time session connId msgId data)) :
    Tidy (g.onClient P time session connId msgId data).2.mgr
      (g.onClient P time session connId msgId data).2.connState := by
  obtain ⟨hleave, hget⟩ := hsafe
  unfold Gate.onClient ClientHandler.handle
  split_ifs with hgetRole hcreateRole henterGame hleaveGame hreconnect
  · exact h.processGetRoleRequest (hget hgetRole)
  · exact h.keeps Keeps.processCreateRoleRequest
  · exact h.keeps Keeps.processEnterGameRequest
  · unfold ClientHandler.processLeaveGameRequest
    rw [show g.mgr.getClientInfoByConnId connId = none from hleave hleaveGame]
    exact h
  · exact h.processReconnectRequest
  · exact h.keeps Keeps.processDefault

/-- Every safe event keeps the tables together. -/
theorem step {g' : Gate} {e : GateEvent} (h : Tidy g.mgr g.connState) (hsafe : TableSafe P g e)
    (hstep : g.step P e = some g') : Tidy g'.mgr g'.connState := by
  cases e with
  | connect =>
      cases hstep
      exact h.setConn_connected _
  | drop connId =>
      cases hstep
      exact h.connForceClose connId
  | revive connId =>
      unfold Gate.step at hstep
      dsimp only at hstep
      split_ifs at hstep
      cases hstep
      exact h.setConn_connected connId
  | release connId =>
      unfold Gate.step at hstep
      dsimp only at hstep
      split_ifs at hstep with hclosed
      cases hstep
      apply h.setConn_of_unmapped
      -- a closed connection has no client
      cases hfind : g.mgr.connidIdBimap.find1 connId with
      | none => rfl
      | some p =>
          have hup := h.up p (h.connUsed connId p hfind)
          rw [h.connId_eq hfind] at hup
          exact absurd hclosed hup
  | session time account session =>
      cases hstep
      exact h.keeps ⟨rfl, rfl, rfl, rfl, rfl, rfl, rfl, rfl, fun _ => rfl, fun _ => rfl, fun _ => rfl, fun _ => rfl⟩
  | client time session connId msgId data =>
      unfold Gate.step at hstep
      dsimp only at hstep
      split_ifs at hstep
      cases hstep
      unfold Gate.closeOnError
      split_ifs
      · exact (h.handleClient hsafe).connForceClose connId
      · exact h.handleClient hsafe
  | game session userId msgId data =>
      unfold Gate.step at hstep
      dsimp only at hstep
      split_ifs at hstep
      cases hstep
      unfold Gate.closeGameOnError
      split_ifs
      · exact (h.keeps Keeps.handleGame).keeps (Keeps.of_mgr rfl rfl)
      · exact h.keeps Keeps.handleGame

/-- A disconnect event gives the slot and the account of the client back. -/
theorem disconnect {connId p : ℤ} (h : Tidy g.mgr g.connState)
    (hclient : g.mgr.getClientInfoByConnId connId = some p) :
    p ∈ (g.connForceClose connId).mgr.clientArray.freeIds ∧
      ∀ account, g.mgr.accountIdBimap.find1 account = some p →
        (g.connForceClose connId).mgr.accountIdBimap.find1 account = none := by
  obtain ⟨id, hfind, hget⟩ := Option.bind_eq_some_iff.1 hclient
  obtain ⟨rfl, hused⟩ := ClientArray.get_eq_some hget
  have hconn := h.connId_eq hfind
  obtain ⟨a, ha⟩ := h.account id hused
  have hknown := h.known id hused
  have hup := h.up id hused
  rw [hconn] at hknown hup
  rw [Gate.connForceClose_of_open hknown hup]
  dsimp only
  rw [removeByConnId_of_client hclient ((h.flags id).2 hused) ((h.paired.accounts a id).1 ha)]
  constructor
  · change id ∈ (g.mgr.info id).id :: g.mgr.clientArray.freeIds
    rw [h.own id]
    exact List.mem_cons_self
  · intro account haccount
    dsimp only
    rw [h.paired.reads, (FreedBiMap.remove2_of_present ((h.paired.accounts account id).1 haccount)).2]
    exact if_pos rfl

end Tidy

/-- On every run of safe events whose removals read the values of the entries that they erase, the tables fit together,
and a connection that is closed gives its slot and its account back. -/
theorem gate_tables_consistent (P : Protocol) {maxConn : ℕ} {reads : ℕ → FreedReads}
    (hreads : ∀ k, reads k = .intact) {es : List GateEvent} {g : Gate}
    (hsafe : (gateMachine P).Along (TableSafe P) ((Gate.start maxConn).reading reads) es)
    (hrun : (gateMachine P).run ((Gate.start maxConn).reading reads) es = some g) :
    TablesConsistent g ∧ ∀ connId p, g.mgr.getClientInfoByConnId connId = some p →
      p ∈ (g.connForceClose connId).mgr.clientArray.freeIds ∧
        ∀ account, g.mgr.accountIdBimap.find1 account = some p →
          (g.connForceClose connId).mgr.accountIdBimap.find1 account = none := by
  obtain rfl : reads = fun _ => .intact := funext hreads
  have htidy : Tidy g.mgr g.connState := by
    refine Machine.invariant_along (I := fun g => Tidy g.mgr g.connState) ?_ (Tidy.start maxConn) hsafe hrun
    intro g e g' h hsafe hstep
    exact h.step hsafe hstep
  exact ⟨htidy.consistent, fun connId p hclient => htidy.disconnect hclient⟩

/-- Two clients, of which the first comes again on a third connection and the second is closed. -/
def tidyRun : List GateEvent := [
  .game [] 0 MsgId.gs2gtConnectGateRequest (wire.connectGateRequest.serialize 40001),
  .connect, .connect, .connect, .session 0 [97] [1], .session 0 [98] [2],
  .client 0 [] 1 MsgId.c2sGetRoleRequest (getRoleData [1]),
  .client 0 [] 2 MsgId.c2sGetRoleRequest (wire.c2sGetRoleRequest.serialize ⟨[98], [2]⟩),
  .session 1 [97] [3], .client 1 [] 3 MsgId.c2sGetRoleRequest (getRoleData [3]), .drop 2]

theorem gate_tables_tidyRun : ∃ g,
    (gateMachine wire).run ((Gate.start 3).reading fun _ => .intact) tidyRun = some g ∧
    TablesConsistent g ∧ ∀ connId p, g.mgr.getClientInfoByConnId connId = some p →
      p ∈ (g.connForceClose connId).mgr.clientArray.freeIds ∧
        ∀ account, g.mgr.accountIdBimap.find1 account = some p →
          (g.connForceClose connId).mgr.accountIdBimap.find1 account = none := by
  have hruns : ((gateMachine wire).run ((Gate.start 3).reading fun _ => .intact) tidyRun).isSome = true := by
    decide +kernel
  have hsafe : (gateMachine wire).Along (TableSafe wire) ((Gate.start 3).reading fun _ => .intact) tidyRun := by
    rw [← Machine.checkAlong_iff]
    decide +kernel
  obtain ⟨g, hrun⟩ := Option.isSome_iff_exists.1 hruns
  exact ⟨g, hrun, gate_tables_consistent wire (fun _ => rfl) hsafe hrun⟩

/-- After a leave game request the slot is not in use, and not free either. -/
theorem leaveGame_loses_slot : ∃ g, (gateMachine wire).run (.start 3) (loginRun ++
    [.client 0 [] 1 MsgId.c2sLeaveGameRequest [], .drop 1, .release 1]) = some g ∧ ¬TablesConsistent g := by
  have hsees : ((gateMachine wire).run (.start 3) (loginRun ++
      [.client 0 [] 1 MsgId.c2sLeaveGameRequest [], .drop 1, .release 1])).map (fun g =>
        ((g.mgr.info 100000).used, decide ((100000 : ℤ) ∈ g.mgr.clientArray.usedIds))) =
          some (false, true) := by decide +kernel
  obtain ⟨g, hg, hsees⟩ := Option.map_eq_some_iff.1 hsees
  obtain ⟨hflag, hused⟩ := Prod.mk.inj hsees
  refine ⟨g, hg, ?_⟩
  intro h
  have hflag' := (h.flags 100000).2 (of_decide_eq_true hused)
  rw [hflag] at hflag'
  cases hflag'

end JmyGame
