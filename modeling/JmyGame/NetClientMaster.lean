import Mathlib.Data.Int.ConditionallyCompleteOrder
import Mathlib.Data.Int.Interval
import JmyGame.LibMachine
import JmyGame.NetServer

/-! `JmyTcpConnectionMgr` and `JmyTcpClientMaster`, which takes connections from it for the clients that it generates.
`recycle` gives the connection back and leaves its id in `used_ids_`, which `generate` counts: the clients of the whole
run are counted, not those that live. -/

namespace JmyGame

/-- A generator without an upper bound counts up. -/
theorem JmyIdGenerator.get_new {n : ℤ} (hpos : 0 ≤ n) (hover : n ≠ 2 ^ 31 - 1) :
    ({ new with currId := n } : JmyIdGenerator).get = some (n + 1, { new with currId := n + 1 }) := by
  have hneg : ¬n + 1 ≤ 0 := by omega
  simp only [get, next, new, lt_irrefl, false_and, if_false, hover, hneg, Option.map_some, List.not_mem_nil]

/-- `JmyTcpConnectionMgr`. A connection is named by its place in the pool; `ids` has the `id_` of each. -/
structure JmyTcpConnectionMgr where
  usedMap : ℤ → Option ℕ
  freeList : List ℕ
  ids : ℕ → ℤ

namespace JmyTcpConnectionMgr

def init (size : ℤ) : JmyTcpConnectionMgr := ⟨fun _ => none, List.range size.toNat, fun _ => 0⟩

variable (m : JmyTcpConnectionMgr)

def getFree (id : ℤ) : Option (ℕ × JmyTcpConnectionMgr) :=
  match m.usedMap id with
  | some _ => none
  | none =>
    match m.freeList with
    | [] => none
    | conn :: rest => some (conn,
      ⟨Function.update m.usedMap id (some conn), rest, Function.update m.ids conn id⟩)

def get (id : ℤ) : Option ℕ := m.usedMap id

/-- `free`, of a connection of the pool. -/
def free (conn : ℕ) : Bool × JmyTcpConnectionMgr :=
  match m.usedMap (m.ids conn) with
  | none => (false, m)
  | some _ => (true, { m with
      usedMap := Function.update m.usedMap (m.ids conn) none
      freeList := conn :: m.freeList })

/-- A connection is free once, or used under its id. -/
structure Tidy : Prop where
  nodup : m.freeList.Nodup
  ids : ∀ id conn, m.usedMap id = some conn → m.ids conn = id
  free : ∀ id conn, m.usedMap id = some conn → conn ∉ m.freeList

variable {m} {m' : JmyTcpConnectionMgr} {id : ℤ} {conn : ℕ}

theorem tidy_init (size : ℤ) : (init size).Tidy := ⟨List.nodup_range, nofun, nofun⟩

theorem getFree_eq_some : m.getFree id = some (conn, m') ↔ m.usedMap id = none ∧ ∃ rest, m.freeList = conn :: rest ∧
    m' = ⟨Function.update m.usedMap id (some conn), rest, Function.update m.ids conn id⟩ := by
  unfold getFree
  cases m.usedMap id with
  | some conn' => exact ⟨nofun, fun h => nomatch h.1⟩
  | none =>
      cases m.freeList with
      | nil => exact ⟨nofun, fun ⟨_, _, h, _⟩ => nomatch h⟩
      | cons conn' rest =>
          simp only [Option.some.injEq, Prod.mk.injEq, List.cons.injEq, true_and]
          constructor
          · rintro ⟨rfl, rfl⟩
            exact ⟨rest, ⟨rfl, rfl⟩, rfl⟩
          · rintro ⟨_, ⟨rfl, rfl⟩, rfl⟩
            exact ⟨rfl, rfl⟩

theorem getFree_eq_none (h : m.usedMap id = none) : m.getFree id = none ↔ m.freeList = [] := by
  unfold getFree
  rw [h]
  cases m.freeList with
  | nil => exact iff_of_true rfl rfl
  | cons conn' rest => exact iff_of_false nofun nofun

/-- There is no connection under an id above all that were given. -/
theorem usedMap_succ {n : ℤ} (hkeys : ∀ id conn, m.usedMap id = some conn → id ≤ n) : m.usedMap (n + 1) = none := by
  cases hused : m.usedMap (n + 1) with
  | none => rfl
  | some conn =>
      have hkey := hkeys _ _ hused
      omega

theorem exists_getFree (h : m.usedMap id = none) (hfree : m.freeList ≠ []) :
    ∃ conn m', m.getFree id = some (conn, m') := by
  have hsome : m.getFree id ≠ none := fun hnone => hfree ((getFree_eq_none h).1 hnone)
  obtain ⟨r, hr⟩ := Option.ne_none_iff_exists'.1 hsome
  exact ⟨r.1, r.2, hr⟩

/-- An id with a connection had one before, or is the one that was asked for. -/
theorem getFree_keys {n : ℤ} (hkeys : ∀ id conn, m.usedMap id = some conn → id ≤ n)
    (hget : m.getFree (n + 1) = some (conn, m')) {id : ℤ} {conn' : ℕ} (hused : m'.usedMap id = some conn') :
    id ≤ n + 1 := by
  obtain ⟨-, rest, -, rfl⟩ := getFree_eq_some.1 hget
  by_cases heq : id = n + 1
  · exact heq.le
  · have hold := (Function.update_of_ne heq _ _).symm.trans hused
    exact Int.le_add_one (hkeys id conn' hold)

theorem getFree_self (hget : m.getFree id = some (conn, m')) : m'.usedMap id = some conn := by
  obtain ⟨-, rest, -, rfl⟩ := getFree_eq_some.1 hget
  exact Function.update_self _ _ _

theorem getFree_other (hget : m.getFree id = some (conn, m')) {id' : ℤ} (hid' : m.usedMap id' ≠ none) :
    m'.usedMap id' = m.usedMap id' := by
  obtain ⟨hunused, rest, -, rfl⟩ := getFree_eq_some.1 hget
  refine Function.update_of_ne ?_ _ _
  rintro rfl
  exact hid' hunused

/-- The used connections keep their ids, and the one that is taken is another one. -/
theorem Tidy.getFree (h : m.Tidy) (hget : m.getFree id = some (conn, m')) : m'.Tidy ∧
    (∀ id' conn', m.usedMap id' = some conn' → conn' ≠ conn ∧ m'.ids conn' = m.ids conn') ∧
      m'.ids conn = id ∧ m'.freeList.length + 1 = m.freeList.length := by
  obtain ⟨hid, rest, hfree, rfl⟩ := getFree_eq_some.1 hget
  have hnodup := h.nodup
  rw [hfree, List.nodup_cons] at hnodup
  have hne : ∀ id' conn', m.usedMap id' = some conn' → conn' ≠ conn := by
    rintro id' conn' hused rfl
    refine h.free id' conn' hused ?_
    rw [hfree]
    exact List.mem_cons_self
  have hused : ∀ id' conn', Function.update m.usedMap id (some conn) id' = some conn' →
      id' = id ∧ conn' = conn ∨ conn' ≠ conn ∧ m.usedMap id' = some conn' := by
    intro id' conn' hupdate
    by_cases heq : id' = id
    · rw [heq, Function.update_self, Option.some.injEq] at hupdate
      exact Or.inl ⟨heq, hupdate.symm⟩
    · rw [Function.update_of_ne heq] at hupdate
      exact Or.inr ⟨hne id' conn' hupdate, hupdate⟩
  refine ⟨⟨hnodup.2, fun id' conn' hupdate => ?_, fun id' conn' hupdate => ?_⟩, fun id' conn' hold => ?_, ?_, ?_⟩
  · rcases hused id' conn' hupdate with ⟨rfl, rfl⟩ | ⟨hneq, hold⟩
    · exact Function.update_self _ _ _
    · exact (Function.update_of_ne hneq _ _).trans (h.ids id' conn' hold)
  · rcases hused id' conn' hupdate with ⟨rfl, rfl⟩ | ⟨-, hold⟩
    · exact hnodup.1
    · intro hmem
      refine h.free id' conn' hold ?_
      rw [hfree]
      exact List.mem_cons_of_mem conn hmem
  · exact ⟨hne id' conn' hold, Function.update_of_ne (hne id' conn' hold) _ _⟩
  · exact Function.update_self _ _ _
  · rw [hfree]
    rfl

/-- A connection that is used under its id goes back to the front of the list. -/
theorem Tidy.free_eq (hused : m.usedMap (m.ids conn) = some conn) :
    m.free conn = (true, ⟨Function.update m.usedMap (m.ids conn) none, conn :: m.freeList, m.ids⟩) := by
  unfold JmyTcpConnectionMgr.free
  rw [hused]

theorem Tidy.free_tidy (h : m.Tidy) (hused : m.usedMap (m.ids conn) = some conn) : (m.free conn).2.Tidy := by
  rw [Tidy.free_eq hused]
  have hold : ∀ id' conn', Function.update m.usedMap (m.ids conn) none id' = some conn' →
      id' ≠ m.ids conn ∧ m.usedMap id' = some conn' := by
    intro id' conn' hupdate
    by_cases heq : id' = m.ids conn
    · rw [heq, Function.update_self] at hupdate
      cases hupdate
    · rw [Function.update_of_ne heq] at hupdate
      exact ⟨heq, hupdate⟩
  refine ⟨List.nodup_cons.2 ⟨h.free _ _ hused, h.nodup⟩, fun id' conn' hupdate => ?_, fun id' conn' hupdate => ?_⟩
  · exact h.ids id' conn' (hold id' conn' hupdate).2
  · obtain ⟨hne, hused'⟩ := hold id' conn' hupdate
    intro hmem
    rcases List.mem_cons.1 hmem with rfl | hmem
    · exact hne (h.ids id' conn' hused').symm
    · exact h.free id' conn' hused' hmem

end JmyTcpConnectionMgr

/-- `JmyTcpClientMaster`. A client is named by its address, and `conn` has the `conn_` of each. -/
structure JmyTcpClientMaster where
  connMgr : JmyTcpConnectionMgr
  geneClients : Finset ℕ
  conn : ℕ → ℕ
  idGen : JmyIdGenerator
  usedIds : Finset ℤ
  freeIds : List ℤ
  maxCount : ℤ

namespace JmyTcpClientMaster

def init (maxClientSize : ℤ) : JmyTcpClientMaster :=
  ⟨.init maxClientSize, ∅, fun _ => 0, .new, ∅, [], maxClientSize⟩

variable (s : JmyTcpClientMaster)

/-- The end of `generate`, with a client at an address where there is none. -/
def make (id : ℤ) (conn client : ℕ) : Option (Option ℕ × JmyTcpClientMaster) :=
  if client ∈ s.geneClients then none
  else some (some client, { s with
    usedIds := insert id s.usedIds
    geneClients := insert client s.geneClients
    conn := Function.update s.conn client conn })

/-- `generate`; `client` is the address that the allocation gives. -/
def generate (client : ℕ) : Option (Option ℕ × JmyTcpClientMaster) :=
  if s.maxCount ≤ s.usedIds.card then some (none, s)
  else match s.freeIds with
  | [] =>
    match s.idGen.get with
    | none => none
    | some (id, idGen) =>
      match s.connMgr.getFree id with
      | none => some (none, { s with idGen := idGen })
      | some (conn, connMgr) => { s with idGen := idGen, connMgr := connMgr }.make (connMgr.ids conn) conn client
  | id :: _ =>
    match s.connMgr.get id with
    | none => some (none, s)
    | some conn => s.make id conn client

def recycle (client : ℕ) : Bool × JmyTcpClientMaster :=
  if client ∈ s.geneClients then
    (true, { s with
      connMgr := (s.connMgr.free (s.conn client)).2
      geneClients := s.geneClients.erase client })
  else (false, s)

end JmyTcpClientMaster

/-- A master with the number of the clients that it has generated. -/
structure MasterRun where
  master : JmyTcpClientMaster
  generated : ℕ

inductive MasterCall where
  | generate (client : ℕ)
  | recycle (client : ℕ)
  deriving DecidableEq

def MasterRun.start (maxClientSize : ℤ) : MasterRun := ⟨.init maxClientSize, 0⟩

def masterMachine : Machine MasterRun MasterCall where
  step s
    | .generate client =>
      (s.master.generate client).map fun r => ⟨r.2, if r.1.isSome then s.generated + 1 else s.generated⟩
    | .recycle client => some ⟨(s.master.recycle client).2, s.generated⟩

/-- The clients that were generated and not recycled. -/
def MasterRun.live (s : MasterRun) : Finset ℕ := s.master.geneClients

/-- Live clients have connections of their own; a client is generated when fewer live than there may be, and only a live
client is recycled. -/
structure MasterCall.Pooled (maxClientSize : ℤ) (s : MasterRun) (e : MasterCall) (s' : MasterRun) : Prop where
  apart : ∀ c ∈ s'.live, ∀ c' ∈ s'.live, s'.master.conn c = s'.master.conn c' → c = c'
  room : ∀ client, e = .generate client →
    ((∃ master, s.master.generate client = some (some client, master)) ↔ (s.live.card : ℤ) < maxClientSize)
  once : ∀ client, e = .recycle client → client ∉ s.live → s.master.recycle client = (false, s.master)

/-- A client is asked for when fewer have been generated than there may be, or so many live. -/
def MasterCall.InTime (maxClientSize : ℤ) (s : MasterRun) : MasterCall → Prop
  | .generate _ => (s.generated : ℤ) < maxClientSize ∨ maxClientSize ≤ s.live.card
  | .recycle _ => True

instance (maxClientSize : ℤ) (s : MasterRun) : DecidablePred (MasterCall.InTime maxClientSize s)
  | .generate _ => inferInstanceAs (Decidable (_ ∨ _))
  | .recycle _ => inferInstanceAs (Decidable True)

/-- `used_ids_` has the ids of all clients that were generated, and each live client has a connection that is used under
its id. -/
structure MasterInv (maxClientSize : ℤ) (s : MasterRun) : Prop where
  tidy : s.master.connMgr.Tidy
  maxCount : s.master.maxCount = maxClientSize
  noFree : s.master.freeIds = []
  gen : s.master.idGen = { JmyIdGenerator.new with currId := s.generated }
  ids : s.master.usedIds = Finset.Icc 1 (s.generated : ℤ)
  keys : ∀ id conn, s.master.connMgr.usedMap id = some conn → id ≤ s.generated
  conns : ∀ c ∈ s.live, s.master.connMgr.usedMap (s.master.connMgr.ids (s.master.conn c)) = some (s.master.conn c)
  apart : ∀ c ∈ s.live, ∀ c' ∈ s.live, s.master.conn c = s.master.conn c' → c = c'
  count : s.master.connMgr.freeList.length + s.live.card = maxClientSize.toNat
  le : s.live.card ≤ s.generated

namespace MasterInv

variable {maxClientSize : ℤ} {s s' : MasterRun} {client : ℕ}

theorem start (maxClientSize : ℤ) : MasterInv maxClientSize (.start maxClientSize) where
  tidy := JmyTcpConnectionMgr.tidy_init maxClientSize
  maxCount := rfl
  noFree := rfl
  gen := rfl
  ids := rfl
  keys _ _ h := nomatch h
  conns _ h := absurd h (Finset.notMem_empty _)
  apart _ h := absurd h (Finset.notMem_empty _)
  count := List.length_range
  le := le_rfl

theorem card_usedIds (h : MasterInv maxClientSize s) : s.master.usedIds.card = s.generated := by
  rw [h.ids, Int.card_Icc]
  omega

/-- `generate` refuses when as many clients have been generated as there may be. -/
theorem generate_of_le (h : MasterInv maxClientSize s) (hle : maxClientSize ≤ s.generated) (client : ℕ) :
    s.master.generate client = some (none, s.master) := by
  unfold JmyTcpClientMaster.generate
  rw [if_pos]
  rw [h.maxCount, h.card_usedIds]
  exact hle

/-- Before that, there is a connection for the next id. -/
theorem generate_of_lt (h : MasterInv maxClientSize s) (hint : maxClientSize < 2 ^ 31)
    (hlt : (s.generated : ℤ) < maxClientSize) (client : ℕ) : ∃ conn connMgr,
      s.master.connMgr.getFree (s.generated + 1) = some (conn, connMgr) ∧
        s.master.generate client = if client ∈ s.live then none else some (some client, { s.master with
          connMgr := connMgr
          geneClients := insert client s.live
          conn := Function.update s.master.conn client conn
          idGen := { s.master.idGen with currId := s.generated + 1 }
          usedIds := insert ((s.generated : ℤ) + 1) s.master.usedIds
          freeIds := [] }) := by
  have hroom : ¬s.master.maxCount ≤ s.master.usedIds.card := by
    rw [h.maxCount, h.card_usedIds]
    omega
  have hget : s.master.idGen.get = some ((s.generated : ℤ) + 1, { s.master.idGen with currId := s.generated + 1 }) := by
    rw [h.gen]
    exact JmyIdGenerator.get_new (Int.natCast_nonneg _) (by omega)
  have hconns : s.master.connMgr.freeList ≠ [] := by
    intro hnil
    have hcount := h.count
    have hle := h.le
    rw [hnil, List.length_nil] at hcount
    omega
  obtain ⟨conn, connMgr, hfree⟩ := JmyTcpConnectionMgr.exists_getFree (JmyTcpConnectionMgr.usedMap_succ h.keys) hconns
  refine ⟨conn, connMgr, hfree, ?_⟩
  obtain ⟨-, -, hid, -⟩ := h.tidy.getFree hfree
  unfold JmyTcpClientMaster.generate
  rw [if_neg hroom, h.noFree]
  dsimp only
  rw [hget]
  dsimp only
  rw [hfree]
  dsimp only
  rw [hid, JmyTcpClientMaster.make]
  rfl

/-- The new client has another connection than those that live. -/
theorem update_apart {live : Finset ℕ} {conn : ℕ → ℕ} {free : ℕ}
    (h : ∀ c ∈ live, ∀ c' ∈ live, conn c = conn c' → c = c') (hfree : ∀ c ∈ live, conn c ≠ free) :
    ∀ c ∈ insert client live, ∀ c' ∈ insert client live,
      Function.update conn client free c = Function.update conn client free c' → c = c' := by
  intro c hc c' hc'
  rw [Finset.mem_insert] at hc hc'
  by_cases heq : c = client <;> by_cases heq' : c' = client
  · exact fun _ => heq.trans heq'.symm
  · rw [heq, Function.update_self, Function.update_of_ne heq']
    exact fun hsame => absurd hsame.symm (hfree c' (hc'.resolve_left heq'))
  · rw [heq', Function.update_self, Function.update_of_ne heq]
    exact fun hsame => absurd hsame (hfree c (hc.resolve_left heq))
  · rw [Function.update_of_ne heq, Function.update_of_ne heq']
    exact h c (hc.resolve_left heq) c' (hc'.resolve_left heq')

/-- What `generate` leaves. -/
theorem generate (h : MasterInv maxClientSize s) (hint : maxClientSize < 2 ^ 31)
    (hlt : (s.generated : ℤ) < maxClientSize) (hstep : masterMachine.step s (.generate client) = some s') :
    MasterInv maxClientSize s' ∧ ∃ master, s.master.generate client = some (some client, master) := by
  obtain ⟨conn, connMgr, hfree, hgenerate⟩ := h.generate_of_lt hint hlt client
  obtain ⟨htidy, hother, hid, hlength⟩ := h.tidy.getFree hfree
  obtain ⟨r, hr, rfl⟩ := Option.map_eq_some_iff.1 hstep
  have hr' := hr
  rw [hgenerate] at hr'
  obtain ⟨hnew, hr'⟩ := Option.ite_none_left_eq_some.1 hr'
  cases hr'
  have hcard : (insert client s.live).card = s.live.card + 1 := Finset.card_insert_of_notMem hnew
  have hne : ∀ c ∈ s.live, s.master.conn c ≠ conn := fun c hlive => (hother _ _ (h.conns c hlive)).1
  refine ⟨⟨htidy, h.maxCount, rfl, ?_, ?_, ?_, ?_, update_apart h.apart hne, ?_, ?_⟩, _, hr⟩
  · have hgen := h.gen
    simp only [Option.isSome_some, if_true, hgen]
    push_cast
    rfl
  · simp only [Option.isSome_some, if_true, h.ids]
    push_cast
    ext i
    simp only [Finset.mem_insert, Finset.mem_Icc]
    omega
  · intro id conn' hconn'
    simp only [Option.isSome_some, if_true]
    push_cast
    exact JmyTcpConnectionMgr.getFree_keys h.keys hfree hconn'
  · intro c hc
    simp only [MasterRun.live, Finset.mem_insert] at hc
    by_cases heq : c = client
    · simp only [heq, Function.update_self, hid]
      exact JmyTcpConnectionMgr.getFree_self hfree
    · have hlive := h.conns c (hc.resolve_left heq)
      simp only [Function.update_of_ne heq, (hother _ _ hlive).2]
      refine (JmyTcpConnectionMgr.getFree_other hfree ?_).trans hlive
      exact Option.ne_none_iff_exists'.2 ⟨_, hlive⟩
  · have hcount := h.count
    change connMgr.freeList.length + (insert client s.live).card = _
    omega
  · have hle := h.le
    change (insert client s.live).card ≤ s.generated + 1
    omega

theorem recycle (h : MasterInv maxClientSize s) (client : ℕ) :
    MasterInv maxClientSize ⟨(s.master.recycle client).2, s.generated⟩ := by
  unfold JmyTcpClientMaster.recycle
  split_ifs with hlive
  · have hused := h.conns client hlive
    have hfree := JmyTcpConnectionMgr.Tidy.free_eq hused
    refine ⟨h.tidy.free_tidy hused, h.maxCount, h.noFree, h.gen, h.ids, ?_, ?_, ?_, ?_, ?_⟩
    · intro id conn hconn
      simp only [hfree] at hconn
      by_cases heq : id = s.master.connMgr.ids (s.master.conn client)
      · rw [heq, Function.update_self] at hconn
        cases hconn
      · rw [Function.update_of_ne heq] at hconn
        exact h.keys id conn hconn
    · intro c hc
      obtain ⟨hne, hc⟩ := Finset.mem_erase.1 hc
      simp only [hfree]
      refine (Function.update_of_ne ?_ _ _).trans (h.conns c hc)
      -- two connections under one id are one
      intro hkey
      have hconn := h.conns c hc
      rw [hkey, hused] at hconn
      exact hne (h.apart c hc client hlive (Option.some.inj hconn).symm)
    · intro c hc c' hc'
      exact h.apart c (Finset.mem_of_mem_erase hc) c' (Finset.mem_of_mem_erase hc')
    · have hcount := h.count
      have hcard : 0 < s.live.card := Finset.card_pos.2 ⟨client, hlive⟩
      have herase : (s.live.erase client).card = s.live.card - 1 := Finset.card_erase_of_mem hlive
      simp only [hfree, List.length_cons]
      change _ + (s.live.erase client).card = _
      omega
    · have hle := h.le
      exact (Finset.card_le_card (Finset.erase_subset _ _)).trans hle
  · exact h

/-- A call keeps the invariant, and is as it should be exactly when it comes in time. -/
theorem step (h : MasterInv maxClientSize s) (hint : maxClientSize < 2 ^ 31) {e : MasterCall}
    (hstep : masterMachine.step s e = some s') :
    MasterInv maxClientSize s' ∧ (e.InTime maxClientSize s → e.Pooled maxClientSize s s') := by
  cases e with
  | recycle client =>
      cases hstep
      have hinv := h.recycle client
      refine ⟨hinv, fun _ => ⟨hinv.apart, fun _ heq => (nomatch heq), fun client' heq hdead => ?_⟩⟩
      cases heq
      exact if_neg hdead
  | generate client =>
      have hle := h.le
      rcases lt_or_ge (s.generated : ℤ) maxClientSize with hlt | hge
      · obtain ⟨hinv, hmade⟩ := h.generate hint hlt hstep
        refine ⟨hinv, fun _ => ⟨hinv.apart, fun client' heq => ?_, fun _ heq => nomatch heq⟩⟩
        cases heq
        exact iff_of_true hmade (by omega)
      · have hrefused := h.generate_of_le hge client
        have hsame : s' = s := by
          obtain ⟨r, hr, rfl⟩ := Option.map_eq_some_iff.1 hstep
          rw [hrefused] at hr
          cases hr
          rfl
        rw [hsame]
        refine ⟨h, fun hin => ⟨h.apart, fun client' heq => ?_, fun _ heq => nomatch heq⟩⟩
        cases heq
        have hfull : maxClientSize ≤ s.live.card := hin.resolve_left (by omega)
        rw [hrefused]
        exact iff_of_false (fun ⟨_, hmade⟩ => nomatch hmade) (by omega)

theorem inTime_of_pooled (h : MasterInv maxClientSize s) {e : MasterCall}
    (hpooled : ∀ s', masterMachine.step s e = some s' → e.Pooled maxClientSize s s') : e.InTime maxClientSize s := by
  cases e with
  | recycle client => trivial
  | generate client =>
      by_contra hlate
      obtain ⟨hgenerated, hlive⟩ := not_or.1 hlate
      have hrefused := h.generate_of_le (not_lt.1 hgenerated) client
      have hstep : masterMachine.step s (.generate client) = some ⟨s.master, s.generated⟩ := by
        change (s.master.generate client).map _ = _
        rw [hrefused]
        rfl
      obtain ⟨master, hmade⟩ := ((hpooled _ hstep).room client rfl).2 (by omega)
      rw [hrefused] at hmade
      cases hmade

end MasterInv

/-- The clients of a run are pooled exactly when each is asked for before as many have been generated as there may be,
or while so many live. -/
theorem clients_pooled_iff {maxClientSize : ℤ} (hint : maxClientSize < 2 ^ 31) (es : List MasterCall) :
    masterMachine.Along (fun s e => e.InTime maxClientSize s) (.start maxClientSize) es ↔
      masterMachine.EachStep (fun s e s' => e.Pooled maxClientSize s s') (.start maxClientSize) es := by
  refine Machine.along_iff_eachStep (I := MasterInv maxClientSize) ?_ ?_ (MasterInv.start maxClientSize) es
  · intro s e s' h hin hstep
    obtain ⟨hinv, hpooled⟩ := h.step hint hstep
    exact ⟨hinv, hpooled hin⟩
  · intro s e h hpooled
    exact h.inTime_of_pooled hpooled

/-- Two clients of two, and a third one that is refused. -/
theorem twoClients_pooled : masterMachine.EachStep (fun s e s' => e.Pooled 2 s s') (.start 2)
    [.generate 5, .generate 6, .generate 7, .recycle 5, .recycle 5] :=
  (clients_pooled_iff (by decide) [.generate 5, .generate 6, .generate 7, .recycle 5, .recycle 5]).1 (by decide)

/-- A client that was recycled takes the room of the next one. -/
theorem recycled_takes_room :
    ¬masterMachine.EachStep (fun s e s' => e.Pooled 1 s s') (.start 1) [.generate 5, .recycle 5, .generate 6] := by
  intro h
  have hpooled := h [.generate 5, .recycle 5] (.generate 6) [] _ _ rfl rfl rfl
  obtain ⟨master, hmade⟩ := (hpooled.room 6 rfl).2 (by decide)
  cases hmade

end JmyGame
