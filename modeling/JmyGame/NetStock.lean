import Mathlib.Data.Set.Card
import JmyGame.NetReuse

/-! The stock of a server: its connection objects and its buffers. `accept_new` takes one of each and
`run_conns` gives them back, in another order and with results that nobody looks at. This says that
nothing is lost or given out twice, and that `accept_new` finds what it takes without a check. -/

namespace JmyGame

open CArith

/-- Nothing is lost: `conns_` has the connections of `used_map_`, each once and under its own id, the
other objects are free, every connection has a buffer of its own, and the other buffers are free. -/
structure Conserved (m : ℕ) (s : JmyTcpServer) : Prop where
  used : ∀ id p, s.usedMap id = some p ↔ p ∈ s.conns ∧ (s.objs p).id = id
  nodup : s.conns.Nodup
  objects : s.freeList.length + {id | (s.usedMap id).isSome}.ncard = m
  free : s.freeList.Nodup ∧ ∀ p, p ∈ s.freeList ↔ p < m ∧ p ∉ s.conns
  holds : ∀ p ∈ s.conns, ∃ b, s.bufId p = some b
  apart : ∀ p ∈ s.conns, ∀ q ∈ s.conns, p ≠ q → s.bufId p ≠ s.bufId q
  queue : s.bufferMgr.freeQueue.Nodup ∧
    ∀ b, b ∈ s.bufferMgr.freeQueue ↔ b < 2 * m ∧ ∀ p ∈ s.conns, s.bufId p ≠ some b
  buffers : s.bufferMgr.freeQueue.length = 2 * m - s.conns.length

/-- `accept_new` gets an id, an object and a buffer. -/
def CanAccept (s : JmyTcpServer) : Prop :=
  ∃ id g p s₁ b mgr, s.idGene.get = some (id, g) ∧ id ≠ 0 ∧
    JmyTcpServer.getFree { s with idGene := g } id = some (p, s₁) ∧
    s₁.bufferMgr.getOneBuffer = some (b, mgr)

/-- No buffer is taken or given back; what the buffers hold may change. -/
structure SameBuffers (s s' : JmyTcpServer) : Prop where
  maxConn : s'.maxConn = s.maxConn
  bufId : s'.bufId = s.bufId
  maxSize : s'.bufferMgr.maxSize = s.bufferMgr.maxSize
  freeQueue : s'.bufferMgr.freeQueue = s.bufferMgr.freeQueue
  id : ∀ b, (s'.bufferMgr.connBuffVec b).id = (s.bufferMgr.connBuffVec b).id
  state : ∀ b, (s'.bufferMgr.connBuffVec b).state = (s.bufferMgr.connBuffVec b).state

/-- A new content leaves the rest of a buffer alone. -/
theorem setBuffer_slot (mgr : JmyConnectionBufferMgr) (b b' : ℕ) (buffer : JmyConnectionBuffer) :
    ((mgr.setBuffer b buffer).connBuffVec b').id = (mgr.connBuffVec b').id ∧
      ((mgr.setBuffer b buffer).connBuffVec b').state = (mgr.connBuffVec b').state := by
  unfold JmyConnectionBufferMgr.setBuffer
  dsimp only
  by_cases hb : b' = b
  · rw [hb, Function.update_self]
    exact ⟨rfl, rfl⟩
  · rw [Function.update_of_ne hb]
    exact ⟨rfl, rfl⟩

namespace SameBuffers

variable {s s' s'' : JmyTcpServer}

theorem refl (s : JmyTcpServer) : SameBuffers s s := ⟨rfl, rfl, rfl, rfl, fun _ => rfl, fun _ => rfl⟩

theorem trans (h : SameBuffers s s') (h' : SameBuffers s' s'') : SameBuffers s s'' :=
  ⟨h'.maxConn.trans h.maxConn, h'.bufId.trans h.bufId, h'.maxSize.trans h.maxSize,
    h'.freeQueue.trans h.freeQueue, fun b => (h'.id b).trans (h.id b), fun b => (h'.state b).trans (h.state b)⟩

theorem modify (s : JmyTcpServer) (p : ℕ) (f : JmyTcpConnection → JmyTcpConnection) :
    SameBuffers s (s.modify p f) := by
  unfold JmyTcpServer.modify
  split
  · exact ⟨rfl, rfl, rfl, rfl, fun _ => rfl, fun _ => rfl⟩
  · exact ⟨rfl, rfl, rfl, rfl, fun b' => (setBuffer_slot s.bufferMgr _ b' _).1,
      fun b' => (setBuffer_slot s.bufferMgr _ b' _).2⟩

theorem call {id : ℤ} {k : ConnCall} (h : s.call id k = some s') : SameBuffers s s' := by
  unfold JmyTcpServer.call at h
  split at h
  · cases h
    exact refl s
  · obtain ⟨c, -, rfl⟩ := Option.map_eq_some_iff.1 h
    exact modify s _ _

theorem calls {ks : List (ℤ × ConnCall)} (h : s.calls ks = some s') : SameBuffers s s' := by
  induction ks generalizing s with
  | nil =>
      cases h
      exact refl _
  | cons k ks ih =>
      obtain ⟨s₁, hcall, hrest⟩ := Option.bind_eq_some_iff.1 h
      exact (call hcall).trans (ih hrest)

theorem complete {p i : ℕ} {r : Completion} (h : s.complete p i r = some s') : SameBuffers s s' := by
  obtain ⟨c, -, rfl⟩ := Option.map_eq_some_iff.1 h
  exact modify s p _

theorem msgHandler {f : JmyMsgInfo → JmyTcpServer → ℤ × List (ℤ × ConnCall)} {info : JmyMsgInfo}
    {r : ℤ × JmyTcpServer} (h : ServerHandlers.msgHandler f info s = some r) : SameBuffers s r.2 := by
  obtain ⟨s', hcalls, rfl⟩ := Option.map_eq_some_iff.1 h
  exact calls hcalls

theorem tick {h : ServerHandlers} {p : ℕ} (hs : h.tick p s = some s') : SameBuffers s s' := by
  unfold ServerHandlers.tick at hs
  split at hs
  · cases hs
    exact refl s
  · exact (modify s p _).trans (calls hs)

theorem runConn {h : ServerHandlers} {now : ℤ} {past : ℕ → Byte} {p : ℕ} {data : JmyPacketUnpackData2}
    {r : ℤ × JmyPacketUnpackData2 × JmyTcpServer}
    (hr : runConn (JmyTcpServer.view · p) (fun f s => JmyTcpServer.modify s p f) h.dataHandler past now
      (h.tick p) data s = some r) : SameBuffers s r.2.2 := by
  refine runConn_within refl (fun _ _ _ => trans) ?_ (fun _ _ => tick) ?_ ?_ hr
  · intro f s _
    exact modify s p f
  · intro id f info s r hf
    obtain ⟨g, -, rfl⟩ := Option.map_eq_some_iff.1 hf
    exact msgHandler
  · intro f info s r hf
    obtain ⟨g, -, rfl⟩ := Option.map_eq_some_iff.1 hf
    exact msgHandler

end SameBuffers

/-- What every step keeps, when `k` connections were accepted at most: besides, ids are not handed out
twice, and a buffer that is held is not idle. -/
structure Stock (m k : ℕ) (s : JmyTcpServer) : Prop where
  maxConn : s.maxConn = m
  gene : s.idGene.freeList = [] ∧ s.idGene.usedSet = [] ∧ s.idGene.maxId = 0
  curr : 0 ≤ s.idGene.currId ∧ s.idGene.currId ≤ k
  used : ∀ id p, s.usedMap id = some p ↔ p ∈ s.conns ∧ (s.objs p).id = id
  old : ∀ p ∈ s.conns, (s.objs p).id ≤ s.idGene.currId
  nodup : s.conns.Nodup
  place : ∀ p ∈ s.conns, p < m
  freeNodup : s.freeList.Nodup
  free : ∀ p, p ∈ s.freeList ↔ p < m ∧ p ∉ s.conns
  total : s.freeList.length + s.conns.length = m
  holds : ∀ p ∈ s.conns, ∃ b, s.bufId p = some b ∧ b < 2 * m ∧ (s.bufferMgr.connBuffVec b).state ≠ .idle
  apart : ∀ p ∈ s.conns, ∀ q ∈ s.conns, p ≠ q → s.bufId p ≠ s.bufId q
  queueNodup : s.bufferMgr.freeQueue.Nodup
  queue : ∀ b, b ∈ s.bufferMgr.freeQueue ↔ b < 2 * m ∧ ∀ p ∈ s.conns, s.bufId p ≠ some b
  queueTotal : s.bufferMgr.freeQueue.length + s.conns.length = 2 * m
  slots : ∀ b, (s.bufferMgr.connBuffVec b).id = b + 1
  maxSize : s.bufferMgr.maxSize = 2 * m

namespace Stock

variable {m k : ℕ} {s s' : JmyTcpServer}

theorem start (m : ℕ) (useSendBuffList : Bool) : Stock m 0 (.start m useSendBuffList) where
  maxConn := rfl
  gene := ⟨rfl, rfl, rfl⟩
  curr := ⟨le_refl _, le_refl _⟩
  used := by
    intro id p
    exact iff_of_false (fun h => by cases h) fun h => List.not_mem_nil h.1
  old := fun p hp => absurd hp List.not_mem_nil
  nodup := List.nodup_nil
  place := fun p hp => absurd hp List.not_mem_nil
  freeNodup := List.nodup_range
  free := by
    intro p
    rw [show (JmyTcpServer.start m useSendBuffList).freeList = List.range m from rfl, List.mem_range]
    exact ⟨fun h => ⟨h, List.not_mem_nil⟩, And.left⟩
  total := List.length_range
  holds := fun p hp => absurd hp List.not_mem_nil
  apart := fun p hp => absurd hp List.not_mem_nil
  queueNodup := List.nodup_range
  queue := by
    intro b
    rw [show (JmyTcpServer.start m useSendBuffList).bufferMgr.freeQueue = List.range (2 * m) from rfl,
      List.mem_range]
    exact ⟨fun h => ⟨h, fun p hp => absurd hp List.not_mem_nil⟩, And.left⟩
  queueTotal := List.length_range
  slots := fun _ => rfl
  maxSize := by
    change ((2 * m : ℕ) : ℤ) = 2 * m
    rw [Nat.cast_mul]
    rfl

/-- A connection id is known by one object only. -/
theorem inj {p q : ℕ} (h : Stock m k s) (hp : p ∈ s.conns) (hq : q ∈ s.conns)
    (hid : (s.objs p).id = (s.objs q).id) : p = q := by
  have hp' := (h.used (s.objs p).id p).2 ⟨hp, rfl⟩
  have hq' := (h.used (s.objs p).id q).2 ⟨hq, hid.symm⟩
  rw [hp', Option.some.injEq] at hq'
  exact hq'

theorem conserved (h : Stock m k s) : Conserved m s := by
  refine ⟨h.used, h.nodup, ?_, ⟨h.freeNodup, h.free⟩, ?_, h.apart, ⟨h.queueNodup, h.queue⟩, ?_⟩
  · have hset : {id | (s.usedMap id).isSome} = ↑(s.conns.toFinset.image fun p => (s.objs p).id) := by
      ext id
      rw [Set.mem_ofPred_eq, Option.isSome_iff_exists, Finset.mem_coe, Finset.mem_image]
      constructor
      · rintro ⟨p, hp⟩
        obtain ⟨hmem, hid⟩ := (h.used id p).1 hp
        exact ⟨p, List.mem_toFinset.2 hmem, hid⟩
      · rintro ⟨p, hmem, hid⟩
        exact ⟨p, (h.used id p).2 ⟨List.mem_toFinset.1 hmem, hid⟩⟩
    have hcard : (s.conns.toFinset.image fun p => (s.objs p).id).card = s.conns.length := by
      rw [Finset.card_image_of_injOn, List.toFinset_card_of_nodup h.nodup]
      intro p hp q hq hid
      exact h.inj (List.mem_toFinset.1 hp) (List.mem_toFinset.1 hq) hid
    rw [hset, Set.ncard_coe_finset, hcard]
    exact h.total
  · intro p hp
    obtain ⟨b, hb, -⟩ := h.holds p hp
    exact ⟨b, hb⟩
  · have htotal := h.queueTotal
    omega

theorem mono {k' : ℕ} (h : Stock m k s) (hk : k ≤ k') : Stock m k' s :=
  ⟨h.maxConn, h.gene, ⟨h.curr.1, h.curr.2.trans (Nat.cast_le.2 hk)⟩, h.used, h.old, h.nodup, h.place, h.freeNodup,
    h.free, h.total, h.holds, h.apart, h.queueNodup, h.queue, h.queueTotal, h.slots, h.maxSize⟩

theorem same (h : Stock m k s) (ht : SameTables s s') (hb : SameBuffers s s') : Stock m k s' where
  maxConn := hb.maxConn.trans h.maxConn
  gene := by
    rw [ht.idGene]
    exact h.gene
  curr := by
    rw [ht.idGene]
    exact h.curr
  used := by
    intro id p
    rw [ht.usedMap, ht.conns, (ht.objs p).1]
    exact h.used id p
  old := by
    intro p hp
    rw [ht.conns] at hp
    rw [ht.idGene, (ht.objs p).1]
    exact h.old p hp
  nodup := ht.conns ▸ h.nodup
  place := ht.conns ▸ h.place
  freeNodup := ht.freeList ▸ h.freeNodup
  free := by
    rw [ht.freeList, ht.conns]
    exact h.free
  total := by
    rw [ht.freeList, ht.conns]
    exact h.total
  holds := by
    intro p hp
    rw [ht.conns] at hp
    obtain ⟨b, hbuf, hlt, hstate⟩ := h.holds p hp
    exact ⟨b, by rw [hb.bufId, hbuf], hlt, by rw [hb.state]; exact hstate⟩
  apart := by
    rw [ht.conns, hb.bufId]
    exact h.apart
  queueNodup := hb.freeQueue ▸ h.queueNodup
  queue := by
    rw [hb.freeQueue, ht.conns, hb.bufId]
    exact h.queue
  queueTotal := by
    rw [hb.freeQueue, ht.conns]
    exact h.queueTotal
  slots := by
    intro b
    rw [hb.id]
    exact h.slots b
  maxSize := hb.maxSize.trans h.maxSize

/-- A buffer that is held goes back to the queue. -/
theorem freeBuffer_of_held {mgr : JmyConnectionBufferMgr} {b : ℕ} (hid : (mgr.connBuffVec b).id = b + 1)
    (hsize : mgr.maxSize = 2 * m) (hlt : b < 2 * m) (hstate : (mgr.connBuffVec b).state ≠ .idle) :
    (mgr.freeBuffer (mgr.connBuffVec b).id).2 = { mgr with freeQueue := b :: mgr.freeQueue } := by
  have hplace : ((b : ℤ) + 1 - 1).toNat = b := by omega
  unfold JmyConnectionBufferMgr.freeBuffer
  rw [hid, hplace, if_neg (by omega), if_neg hstate]

/-- The server after a connection was released. -/
theorem release_eq {p b : ℕ} (h : Stock m k s) (hp : p ∈ s.conns) (hb : s.bufId p = some b) :
    ∃ mgr, s.release p = some { s with
        usedMap := Function.update s.usedMap (s.objs p).id none
        freeList := p :: s.freeList
        objs := Function.update s.objs p { s.objs p with state := .notConnect }
        bufferMgr := mgr
        conns := s.conns.erase p } ∧
      mgr.maxSize = s.bufferMgr.maxSize ∧ mgr.freeQueue = b :: s.bufferMgr.freeQueue ∧
      ∀ b', (mgr.connBuffVec b').id = (s.bufferMgr.connBuffVec b').id ∧
        (mgr.connBuffVec b').state = (s.bufferMgr.connBuffVec b').state := by
  have hused := (h.used (s.objs p).id p).2 ⟨hp, rfl⟩
  have hfreed : (s.free p).2 = { s with
      usedMap := Function.update s.usedMap (s.objs p).id none
      freeList := p :: s.freeList
      objs := Function.update s.objs p { s.objs p with state := .notConnect } } := by
    unfold JmyTcpServer.free
    rw [hused]
    rfl
  obtain ⟨b', hb', hlt, hstate⟩ := h.holds p hp
  rw [hb, Option.some.injEq] at hb'
  subst hb'
  have hslot := setBuffer_slot s.bufferMgr b b (s.bufferMgr.connBuffVec b).buffer.clear
  unfold JmyTcpServer.release
  rw [hb, Option.map_some, hfreed]
  refine ⟨_, rfl, ?_⟩
  dsimp only
  rw [freeBuffer_of_held (hslot.1.trans (h.slots b)) h.maxSize hlt (by rw [hslot.2]; exact hstate)]
  exact ⟨rfl, rfl, fun b' => setBuffer_slot s.bufferMgr b b' _⟩

theorem release {p : ℕ} (h : Stock m k s) (hp : p ∈ s.conns) (hs : s.release p = some s') :
    Stock m k s' ∧ s'.conns = s.conns.erase p := by
  obtain ⟨b, hb, hlt, -⟩ := h.holds p hp
  obtain ⟨mgr, hrelease, hsize, hqueue, hslots⟩ := h.release_eq hp hb
  rw [hrelease, Option.some.injEq] at hs
  subst hs
  have hmem : ∀ q, q ∈ s.conns.erase p ↔ q ≠ p ∧ q ∈ s.conns := fun q => h.nodup.mem_erase_iff
  have hlength := List.length_erase_of_mem hp
  have hpos := List.length_pos_of_mem hp
  have htotal := h.total
  have hqueueTotal := h.queueTotal
  -- the buffer is held by this connection only
  have hheld : ∀ q ∈ s.conns, s.bufId q = some b ↔ q = p := by
    intro q hq
    constructor
    · intro hq'
      by_contra hne
      exact h.apart q hq p hp hne (hq'.trans hb.symm)
    · rintro rfl
      exact hb
  refine ⟨⟨h.maxConn, h.gene, h.curr, ?_, ?_, h.nodup.erase p, ?_, ?_, ?_, ?_, ?_, ?_, ?_, ?_, ?_, ?_,
    hsize.trans h.maxSize⟩, rfl⟩
  · intro id q
    dsimp only
    rw [hmem]
    by_cases hid : id = (s.objs p).id
    · rw [hid, Function.update_self]
      refine iff_of_false (fun h' => by cases h') ?_
      rintro ⟨⟨hne, hq⟩, hid'⟩
      rw [Function.update_of_ne hne] at hid'
      exact hne (h.inj hq hp hid')
    · rw [Function.update_of_ne hid, h.used]
      by_cases hq : q = p
      · rw [hq]
        exact iff_of_false (fun h' => hid h'.2.symm) fun h' => h'.1.1 rfl
      · rw [Function.update_of_ne hq]
        exact ⟨fun h' => ⟨⟨hq, h'.1⟩, h'.2⟩, fun h' => ⟨h'.1.2, h'.2⟩⟩
  · intro q hq
    obtain ⟨hne, hq⟩ := (hmem q).1 hq
    dsimp only
    rw [Function.update_of_ne hne]
    exact h.old q hq
  · exact fun q hq => h.place q ((hmem q).1 hq).2
  · exact List.nodup_cons.2 ⟨fun hfree => ((h.free p).1 hfree).2 hp, h.freeNodup⟩
  · intro q
    dsimp only
    rw [List.mem_cons, h.free, hmem]
    by_cases hq : q = p
    · rw [hq]
      exact iff_of_true (Or.inl rfl) ⟨h.place p hp, fun h' => h'.1 rfl⟩
    · simp [hq]
  · dsimp only
    rw [List.length_cons, hlength]
    omega
  · intro q hq
    obtain ⟨hne, hq⟩ := (hmem q).1 hq
    obtain ⟨b', hb', hlt', hstate'⟩ := h.holds q hq
    exact ⟨b', hb', hlt', by rw [(hslots b').2]; exact hstate'⟩
  · intro q hq q' hq'
    exact h.apart q ((hmem q).1 hq).2 q' ((hmem q').1 hq').2
  · dsimp only
    rw [hqueue]
    exact List.nodup_cons.2 ⟨fun hfree => ((h.queue b).1 hfree).2 p hp hb, h.queueNodup⟩
  · intro b'
    dsimp only
    rw [hqueue, List.mem_cons, h.queue]
    constructor
    · rintro (rfl | ⟨hlt', hnot⟩)
      · refine ⟨hlt, ?_⟩
        intro q hq hq'
        obtain ⟨hne, hq⟩ := (hmem q).1 hq
        exact hne ((hheld q hq).1 hq')
      · exact ⟨hlt', fun q hq => hnot q ((hmem q).1 hq).2⟩
    · rintro ⟨hlt', hnot⟩
      by_cases hb' : b' = b
      · exact Or.inl hb'
      · refine Or.inr ⟨hlt', ?_⟩
        intro q hq hq'
        by_cases hqp : q = p
        · rw [hqp, hb, Option.some.injEq] at hq'
          exact hb' hq'.symm
        · exact hnot q ((hmem q).2 ⟨hqp, hq⟩) hq'
  · dsimp only
    rw [hqueue, List.length_cons, hlength]
    omega
  · intro b'
    exact (hslots b').1.trans (h.slots b')

theorem get_eq (h : Stock m k s) : s.idGene.get = if s.idGene.currId = 2 ^ 31 - 1 then none
    else some (s.idGene.currId + 1, { s.idGene with currId := s.idGene.currId + 1 }) := by
  obtain ⟨hfree, hused, hmax⟩ := h.gene
  have hcurr := h.curr.1
  unfold JmyIdGenerator.get JmyIdGenerator.next
  rw [hfree, hused, hmax]
  dsimp only
  rw [if_neg (by omega)]
  split_ifs with hlast hneg
  · rfl
  · omega
  · rw [Option.map_some, if_neg List.not_mem_nil, hfree, hused, hmax]

/-- The next id is new. -/
theorem usedMap_next (h : Stock m k s) : s.usedMap (s.idGene.currId + 1) = none := by
  cases hused : s.usedMap (s.idGene.currId + 1) with
  | none => rfl
  | some p =>
      obtain ⟨hp, hid⟩ := (h.used _ p).1 hused
      have hold := h.old p hp
      omega

/-- The server with an object handed out. -/
def handed (s : JmyTcpServer) (p : ℕ) (rest : List ℕ) : JmyTcpServer := { s with
  idGene := { s.idGene with currId := s.idGene.currId + 1 }
  objs := Function.update s.objs p { s.objs p with id := s.idGene.currId + 1 }
  freeList := rest
  usedMap := Function.update s.usedMap (s.idGene.currId + 1) (some p) }

theorem getFree_eq {p : ℕ} {rest : List ℕ} (h : Stock m k s) (hfree : s.freeList = p :: rest) :
    JmyTcpServer.getFree { s with idGene := { s.idGene with currId := s.idGene.currId + 1 } }
      (s.idGene.currId + 1) = some (p, handed s p rest) := by
  unfold JmyTcpServer.getFree
  dsimp only
  rw [h.usedMap_next, hfree]
  rfl

/-- The buffers with one handed out. -/
def lent (mgr : JmyConnectionBufferMgr) (b : ℕ) (queue : List ℕ) : JmyConnectionBufferMgr := { mgr with
  connBuffVec := Function.update mgr.connBuffVec b { mgr.connBuffVec b with state := .using }
  freeQueue := queue }

theorem getOneBuffer_eq {mgr : JmyConnectionBufferMgr} {b : ℕ} {queue : List ℕ}
    (h : mgr.freeQueue = b :: queue) : mgr.getOneBuffer = some (b, lent mgr b queue) := by
  unfold JmyConnectionBufferMgr.getOneBuffer
  rw [h]
  rfl

/-- There is an object and a buffer as long as there are fewer connections than objects. -/
theorem nonempty (h : Stock m k s) (hroom : s.conns.length < m) :
    (∃ p rest, s.freeList = p :: rest) ∧ ∃ b queue, s.bufferMgr.freeQueue = b :: queue := by
  have htotal := h.total
  have hqueueTotal := h.queueTotal
  constructor
  · exact List.exists_cons_of_length_pos (by omega)
  · exact List.exists_cons_of_length_pos (by omega)

theorem canAccept (h : Stock m k s) (hk : k < 2 ^ 31 - 1) (hroom : s.conns.length < m) : CanAccept s := by
  obtain ⟨⟨p, rest, hfree⟩, b, queue, hqueue⟩ := h.nonempty hroom
  have hcurr := h.curr
  refine ⟨_, _, p, _, b, _, ?_, ?_, h.getFree_eq hfree, getOneBuffer_eq hqueue⟩
  · rw [h.get_eq, if_neg (by omega)]
  · omega

/-- What `accept_new` does when there is room. -/
theorem acceptNew_eq {p b : ℕ} {rest queue : List ℕ} {block : JmyDoubleSessionBuffer}
    {onConnect : List (ℤ × ConnCall)} (h : Stock m k s) (hfree : s.freeList = p :: rest)
    (hqueue : s.bufferMgr.freeQueue = b :: queue) (hcurr : s.idGene.currId ≠ 2 ^ 31 - 1) :
    s.acceptNew block onConnect = (JmyTcpServer.calls (JmyTcpServer.modify
      { (handed s p rest).equipped p b (lent s.bufferMgr b queue) block with conns := s.conns ++ [p] } p
        JmyTcpConnection.startRecv) onConnect).map fun s' => (s.idGene.currId + 1, s') := by
  have hpos := h.curr.1
  have hbuffer : ((handed s p rest).setSock p).bufferMgr.getOneBuffer = some (b, lent s.bufferMgr b queue) :=
    getOneBuffer_eq hqueue
  unfold JmyTcpServer.acceptNew
  rw [h.get_eq, if_neg hcurr, Option.bind_some]
  dsimp only
  rw [if_neg (by omega), h.getFree_eq hfree, Option.bind_some]
  dsimp only
  rw [hbuffer]
  rfl

/-- A buffer that was handed out is not idle. -/
theorem lent_slot (mgr : JmyConnectionBufferMgr) (b b' : ℕ) (queue : List ℕ) :
    ((lent mgr b queue).connBuffVec b').id = (mgr.connBuffVec b').id ∧
      (b' = b ∨ (mgr.connBuffVec b').state ≠ .idle → ((lent mgr b queue).connBuffVec b').state ≠ .idle) := by
  unfold lent
  dsimp only
  by_cases hb : b' = b
  · rw [hb, Function.update_self]
    exact ⟨rfl, fun _ => JmyConnectionBufferState.noConfusion⟩
  · rw [Function.update_of_ne hb]
    exact ⟨rfl, fun h => h.resolve_left hb⟩

theorem equipped_slot (s : JmyTcpServer) (p b : ℕ) (mgr : JmyConnectionBufferMgr)
    (block : JmyDoubleSessionBuffer) (b' : ℕ) :
    ((s.equipped p b mgr block).bufferMgr.connBuffVec b').id = (mgr.connBuffVec b').id ∧
      ((s.equipped p b mgr block).bufferMgr.connBuffVec b').state = (mgr.connBuffVec b').state :=
  setBuffer_slot mgr b b' _

/-- `s'` is `s` with a new connection, which has got the object `p`, the buffer `b` and the next id. -/
structure Accepts (s s' : JmyTcpServer) (p b : ℕ) : Prop where
  maxConn : s'.maxConn = s.maxConn
  gene : s'.idGene = { s.idGene with currId := s.idGene.currId + 1 }
  usedMap : s'.usedMap = Function.update s.usedMap (s.idGene.currId + 1) (some p)
  conns : s'.conns = s.conns ++ [p]
  freeList : s.freeList = p :: s'.freeList
  newId : (s'.objs p).id = s.idGene.currId + 1
  oldId : ∀ q, q ≠ p → (s'.objs q).id = (s.objs q).id
  bufId : ∀ q, s'.bufId q = if q = p then some b else s.bufId q
  freeQueue : s.bufferMgr.freeQueue = b :: s'.bufferMgr.freeQueue
  slotId : ∀ b', (s'.bufferMgr.connBuffVec b').id = (s.bufferMgr.connBuffVec b').id
  busy : ∀ b', b' = b ∨ (s.bufferMgr.connBuffVec b').state ≠ .idle → (s'.bufferMgr.connBuffVec b').state ≠ .idle
  maxSize : s'.bufferMgr.maxSize = s.bufferMgr.maxSize

theorem accepts_handed {p b : ℕ} {rest queue : List ℕ} (block : JmyDoubleSessionBuffer)
    (hfree : s.freeList = p :: rest) (hqueue : s.bufferMgr.freeQueue = b :: queue) :
    Accepts s { (handed s p rest).equipped p b (lent s.bufferMgr b queue) block with conns := s.conns ++ [p] } p b where
  maxConn := rfl
  gene := rfl
  usedMap := rfl
  conns := rfl
  freeList := hfree
  newId := by simp [JmyTcpServer.equipped, JmyTcpServer.setBuffer, JmyTcpServer.setSock, handed]
  oldId := by
    intro q hq
    simp [JmyTcpServer.equipped, JmyTcpServer.setBuffer, JmyTcpServer.setSock, handed, hq]
  bufId := fun q => Function.update_apply s.bufId p (some b) q
  freeQueue := hqueue
  slotId := by
    intro b'
    exact (equipped_slot (handed s p rest) p b _ block b').1.trans (lent_slot s.bufferMgr b b' queue).1
  busy := by
    intro b' hbusy
    refine ((equipped_slot (handed s p rest) p b _ block b').2.trans_ne ?_)
    exact (lent_slot s.bufferMgr b b' queue).2 hbusy
  maxSize := rfl

section accepts

variable {p b : ℕ} (h : Stock m k s) (ha : Accepts s s' p b)

include ha

omit h in
theorem Accepts.mem_conns (q : ℕ) : q ∈ s'.conns ↔ q ∈ s.conns ∨ q = p := by
  rw [ha.conns, List.mem_append, List.mem_singleton]

include h

/-- The object was free. -/
theorem accepts_new : p < m ∧ p ∉ s.conns := (h.free p).1 (ha.freeList ▸ List.mem_cons_self)

/-- The buffer was free. -/
theorem accepts_newBuffer : b < 2 * m ∧ ∀ q ∈ s.conns, s.bufId q ≠ some b :=
  (h.queue b).1 (ha.freeQueue ▸ List.mem_cons_self)

theorem accepts_ne {q : ℕ} (hq : q ∈ s.conns) : q ≠ p := by
  rintro rfl
  exact (accepts_new h ha).2 hq

theorem accepts_used (id : ℤ) (q : ℕ) : s'.usedMap id = some q ↔ q ∈ s'.conns ∧ (s'.objs q).id = id := by
  rw [ha.mem_conns, ha.usedMap]
  by_cases hid : id = s.idGene.currId + 1
  · rw [hid, Function.update_self, Option.some.injEq]
    constructor
    · rintro rfl
      exact ⟨Or.inr rfl, ha.newId⟩
    · rintro ⟨hq | hq, hid'⟩
      · have hold := h.old q hq
        rw [ha.oldId q (accepts_ne h ha hq)] at hid'
        omega
      · exact hq.symm
  · rw [Function.update_of_ne hid, h.used]
    constructor
    · rintro ⟨hq, hid'⟩
      exact ⟨Or.inl hq, (ha.oldId q (accepts_ne h ha hq)).trans hid'⟩
    · rintro ⟨hq | rfl, hid'⟩
      · exact ⟨hq, (ha.oldId q (accepts_ne h ha hq)).symm.trans hid'⟩
      · exact absurd (hid'.symm.trans ha.newId) hid

theorem accepts_free (q : ℕ) : q ∈ s'.freeList ↔ q < m ∧ q ∉ s'.conns := by
  have hq := h.free q
  have hnotMem : p ∉ s'.freeList := (List.nodup_cons.1 (ha.freeList ▸ h.freeNodup)).1
  rw [ha.freeList, List.mem_cons] at hq
  rw [ha.mem_conns, not_or]
  constructor
  · intro hrest
    obtain ⟨hqm, hqc⟩ := hq.1 (Or.inr hrest)
    exact ⟨hqm, hqc, fun heq => hnotMem (heq ▸ hrest)⟩
  · rintro ⟨hqm, hqc, hqp⟩
    exact (hq.2 ⟨hqm, hqc⟩).resolve_left hqp

theorem accepts_holds {q : ℕ} (hq : q ∈ s'.conns) :
    ∃ b', s'.bufId q = some b' ∧ b' < 2 * m ∧ (s'.bufferMgr.connBuffVec b').state ≠ .idle := by
  rw [ha.bufId]
  obtain hq | rfl := (ha.mem_conns q).1 hq
  · obtain ⟨b', hb', hlt', hstate'⟩ := h.holds q hq
    rw [if_neg (accepts_ne h ha hq)]
    exact ⟨b', hb', hlt', ha.busy b' (Or.inr hstate')⟩
  · rw [if_pos rfl]
    exact ⟨b, rfl, (accepts_newBuffer h ha).1, ha.busy b (Or.inl rfl)⟩

theorem accepts_apart {q q' : ℕ} (hq : q ∈ s'.conns) (hq' : q' ∈ s'.conns) (hne : q ≠ q') :
    s'.bufId q ≠ s'.bufId q' := by
  rw [ha.bufId, ha.bufId]
  obtain hold | hnew := (ha.mem_conns q).1 hq
  · rw [if_neg (accepts_ne h ha hold)]
    obtain hold' | hnew' := (ha.mem_conns q').1 hq'
    · rw [if_neg (accepts_ne h ha hold')]
      exact h.apart q hold q' hold' hne
    · rw [if_pos hnew']
      exact (accepts_newBuffer h ha).2 q hold
  · obtain hold' | hnew' := (ha.mem_conns q').1 hq'
    · rw [if_pos hnew, if_neg (accepts_ne h ha hold')]
      exact ((accepts_newBuffer h ha).2 q' hold').symm
    · exact absurd (hnew.trans hnew'.symm) hne

theorem accepts_queue (b' : ℕ) :
    b' ∈ s'.bufferMgr.freeQueue ↔ b' < 2 * m ∧ ∀ q ∈ s'.conns, s'.bufId q ≠ some b' := by
  have hb' := h.queue b'
  have hnotMem : b ∉ s'.bufferMgr.freeQueue := (List.nodup_cons.1 (ha.freeQueue ▸ h.queueNodup)).1
  rw [ha.freeQueue, List.mem_cons] at hb'
  constructor
  · intro hmem
    obtain ⟨hlt', hnot'⟩ := hb'.1 (Or.inr hmem)
    refine ⟨hlt', fun q hq => ?_⟩
    rw [ha.bufId]
    obtain hq | rfl := (ha.mem_conns q).1 hq
    · rw [if_neg (accepts_ne h ha hq)]
      exact hnot' q hq
    · rw [if_pos rfl]
      rintro heq
      exact hnotMem (Option.some.inj heq ▸ hmem)
  · rintro ⟨hlt', hnot'⟩
    refine (hb'.2 ⟨hlt', fun q hq => ?_⟩).resolve_left ?_
    · have hq' := hnot' q ((ha.mem_conns q).2 (Or.inl hq))
      rw [ha.bufId, if_neg (accepts_ne h ha hq)] at hq'
      exact hq'
    · rintro rfl
      have hp := hnot' p ((ha.mem_conns p).2 (Or.inr rfl))
      rw [ha.bufId, if_pos rfl] at hp
      exact hp rfl

/-- The object and the buffer that were handed out belong to the new connection. -/
theorem accepted : Stock m (k + 1) s' := by
  have hcurr := h.curr
  have htotal := h.total
  have hqueueTotal := h.queueTotal
  rw [ha.freeList, List.length_cons] at htotal
  rw [ha.freeQueue, List.length_cons] at hqueueTotal
  have hlength : s'.conns.length = s.conns.length + 1 := by
    rw [ha.conns, List.length_append, List.length_singleton]
  refine ⟨ha.maxConn.trans h.maxConn, ?_, ?_, accepts_used h ha, ?_, ?_, ?_, (ha.freeList ▸ h.freeNodup).of_cons,
    accepts_free h ha, ?_, fun q hq => accepts_holds h ha hq, fun q hq q' hq' => accepts_apart h ha hq hq',
    (ha.freeQueue ▸ h.queueNodup).of_cons, accepts_queue h ha, ?_, fun b' => (ha.slotId b').trans (h.slots b'),
    ha.maxSize.trans h.maxSize⟩
  · rw [ha.gene]
    exact h.gene
  · rw [ha.gene]
    change 0 ≤ s.idGene.currId + 1 ∧ s.idGene.currId + 1 ≤ ((k + 1 : ℕ) : ℤ)
    omega
  · intro q hq
    rw [ha.gene]
    change _ ≤ s.idGene.currId + 1
    obtain hq | rfl := (ha.mem_conns q).1 hq
    · have hold := h.old q hq
      rw [ha.oldId q (accepts_ne h ha hq)]
      omega
    · exact ha.newId.le
  · rw [ha.conns]
    exact List.Nodup.append h.nodup (List.nodup_singleton p) (List.disjoint_singleton.2 (accepts_new h ha).2)
  · intro q hq
    obtain hq | rfl := (ha.mem_conns q).1 hq
    · exact h.place q hq
    · exact (accepts_new h ha).1
  · omega
  · omega

end accepts

theorem onAccept {block : JmyDoubleSessionBuffer} {onConnect : List (ℤ × ConnCall)} (h : Stock m k s)
    (hs : s.onAccept block onConnect = some s') : Stock m (k + 1) s' := by
  unfold JmyTcpServer.onAccept at hs
  split_ifs at hs with hfull
  · cases hs
    exact h.mono (Nat.le_succ k)
  obtain ⟨⟨p, rest, hfree⟩, b, queue, hqueue⟩ := h.nonempty (by rw [← h.maxConn]; exact not_le.1 hfull)
  obtain ⟨r, hr, rfl⟩ := Option.map_eq_some_iff.1 hs
  by_cases hcurr : s.idGene.currId = 2 ^ 31 - 1
  · -- the ids are used up, and the increment overflows
    unfold JmyTcpServer.acceptNew at hr
    rw [h.get_eq, if_pos hcurr] at hr
    cases hr
  rw [h.acceptNew_eq hfree hqueue hcurr] at hr
  obtain ⟨s₃, hcalls, rfl⟩ := Option.map_eq_some_iff.1 hr
  have hpos := h.curr.1
  dsimp only
  rw [if_neg (by omega)]
  have htaken := h.accepted (accepts_handed block hfree hqueue)
  have hstarted := htaken.same (SameTables.modify _ p (Owned.startRecv _)) (SameBuffers.modify _ p _)
  exact hstarted.same (SameTables.calls hcalls) (SameBuffers.calls hcalls)

theorem runOne {h : ServerHandlers} {now : ℤ} {past : ℕ → Byte} {p : ℕ} (hs : Stock m k s)
    (hp : p ∈ s.conns) (hrun : s.runOne h now past p = some s') :
    Stock m k s' ∧ ∀ p' ≠ p, p' ∈ s.conns → p' ∈ s'.conns := by
  unfold JmyTcpServer.runOne at hrun
  split_ifs at hrun
  · obtain ⟨hstock, hconns⟩ := hs.release hp hrun
    exact ⟨hstock, fun p' hne hp' => hconns ▸ (List.mem_erase_of_ne hne).2 hp'⟩
  · obtain ⟨r, hr, rfl⟩ := Option.map_eq_some_iff.1 hrun
    have htables := SameTables.runConn hr
    have hbuffers := SameBuffers.runConn hr
    have htables' : SameTables s { r.2.2 with data := r.2.1 } :=
      ⟨htables.idGene, htables.usedMap, htables.freeList, htables.conns, htables.objs⟩
    have hbuffers' : SameBuffers s { r.2.2 with data := r.2.1 } :=
      ⟨hbuffers.maxConn, hbuffers.bufId, hbuffers.maxSize, hbuffers.freeQueue, hbuffers.id, hbuffers.state⟩
    exact ⟨hs.same htables' hbuffers', fun p' _ hp' => htables.conns ▸ hp'⟩

/-- A sweep over the connections: those that it still comes to are there. -/
theorem sweep {h : ServerHandlers} {now : ℤ} {past : ℕ → Byte} {ps : List ℕ} (hs : Stock m k s)
    (hnodup : ps.Nodup) (hmem : ∀ p ∈ ps, p ∈ s.conns)
    (hfold : ps.foldlM (JmyTcpServer.runOne h now past) s = some s') : Stock m k s' := by
  induction ps generalizing s with
  | nil =>
      cases hfold
      exact hs
  | cons p ps ih =>
      obtain ⟨s₁, hone, hrest⟩ := Option.bind_eq_some_iff.1 hfold
      obtain ⟨hp, hps⟩ := List.nodup_cons.1 hnodup
      obtain ⟨hstock, hkeep⟩ := hs.runOne (hmem p List.mem_cons_self) hone
      refine ih hstock hps ?_ hrest
      intro p' hp'
      exact hkeep p' (fun heq => hp (heq ▸ hp')) (hmem p' (List.mem_cons_of_mem p hp'))

end Stock

/-- The event is a completed accept. -/
def ServerEvent.isAccept : ServerEvent → Bool
  | .accept _ _ => true
  | _ => false

theorem Stock.step {m k : ℕ} {s s' : JmyTcpServer} {e : ServerEvent} (hs : Stock m k s)
    (h : s.step e = some s') : Stock m (k + [e].countP ServerEvent.isAccept) s' := by
  cases e with
  | accept block onConnect =>
      simp only [JmyTcpServer.step] at h
      split_ifs at h
      exact hs.onAccept h
  | acceptError again =>
      simp only [JmyTcpServer.step] at h
      split_ifs at h
      cases h
      exact ⟨hs.maxConn, hs.gene, hs.curr, hs.used, hs.old, hs.nodup, hs.place, hs.freeNodup, hs.free, hs.total,
        hs.holds, hs.apart, hs.queueNodup, hs.queue, hs.queueTotal, hs.slots, hs.maxSize⟩
  | complete p i r => exact hs.same (SameTables.complete h) (SameBuffers.complete h)
  | call id c => exact hs.same (SameTables.call h) (SameBuffers.call h)
  | runConns handlers now past => exact hs.sweep hs.nodup (fun _ => id) h

theorem Stock.run {m k : ℕ} {s t : JmyTcpServer} {es : List ServerEvent} (hs : Stock m k s)
    (hrun : serverMachine.run s es = some t) : Stock m (k + es.countP ServerEvent.isAccept) t := by
  induction es generalizing s k with
  | nil =>
      cases hrun
      exact hs
  | cons e es ih =>
      obtain ⟨s', hstep, hrest⟩ := serverMachine.run_cons_eq_some.1 hrun
      have hstock := ih (hs.step hstep) hrest
      rw [Nat.add_assoc, ← List.countP_append] at hstock
      exact hstock

/-- In every run nothing of the stock is lost and, as long as the ids last, `accept_new` finds an object
and a buffer whenever there are fewer connections than the server may have. -/
theorem server_conserves {m : ℕ} {useSendBuffList : Bool} {es : List ServerEvent} {s : JmyTcpServer}
    (haccepts : es.countP ServerEvent.isAccept < 2 ^ 31 - 1)
    (hrun : serverMachine.run (.start m useSendBuffList) es = some s) :
    Conserved m s ∧ (s.conns.length < m → CanAccept s) := by
  have hstock := (Stock.start m useSendBuffList).run hrun
  rw [Nat.zero_add] at hstock
  exact ⟨hstock.conserved, hstock.canAccept haccepts⟩

/-- Two connections are accepted; the first is closed, freed and its object used again. -/
def stockRun : List ServerEvent := [.accept .empty [], .accept .empty [], .call 1 .forceClose,
  .runConns .none 0 (fun _ => 0), .accept .empty []]

theorem server_conserves_stockRun : ∃ s, serverMachine.run (.start 3 true) stockRun = some s ∧
    Conserved 3 s ∧ (s.conns.length < 3 → CanAccept s) := by
  have hdefined : (serverMachine.run (.start 3 true) stockRun).isSome = true := by decide +kernel
  obtain ⟨s, hs⟩ := Option.isSome_iff_exists.1 hdefined
  exact ⟨s, hs, server_conserves (by decide) hs⟩

end JmyGame
