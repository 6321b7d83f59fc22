import JmyGame.LibMachine
import JmyGame.LibPool

/-! `JmySessionBufferPool` and the connection buffers that share one, with `use_send_buff_list` off. Of a session
buffer the model has the pointer, the length and the type; the bytes behind the pointer are those of a
`JmySessionBuffer`, and no step here depends on them. -/

namespace JmyGame

namespace Pooled

inductive PoolKind where
  | send
  | recv
  | maxSend
  | maxRecv
  deriving DecidableEq, Repr

/-- What `new char[fixed_size]` returns: a block is named by the pool that allocates it and by its place there. -/
structure BufferPtr where
  kind : PoolKind
  index : ℕ
  deriving DecidableEq, Repr

structure FixedSizeBufferPool extends FreePool BufferPtr where
  fixedSize : ℕ

namespace FixedSizeBufferPool

/-- The blocks that `init` allocates. -/
def blocks (kind : PoolKind) (maxLength : ℤ) : List BufferPtr :=
  (List.range maxLength.toNat).map (BufferPtr.mk kind)

def init (kind : PoolKind) (maxLength : ℤ) (fixedSize : ℕ) : FixedSizeBufferPool :=
  ⟨⟨blocks kind maxLength, ∅⟩, fixedSize⟩

variable (p : FixedSizeBufferPool)

def malloc : Option (BufferPtr × FixedSizeBufferPool) :=
  p.take.map fun r => (r.1, { p with toFreePool := r.2 })

def free (b : BufferPtr) : FixedSizeBufferPool := { p with toFreePool := (p.give b).2 }

end FixedSizeBufferPool

def defaultSendBufferSize : ℕ := 4096
def maxSendBufferSize : ℕ := 640 * 1024
def defaultRecvBufferSize : ℕ := 4096
def maxRecvBufferSize : ℕ := 640 * 1024
def defaultMaxSendBufferCount : ℤ := 100
def defaultMaxRecvBufferCount : ℤ := 100

structure JmySessionBufferPool where
  sendBufferPool : FixedSizeBufferPool
  recvBufferPool : FixedSizeBufferPool
  maxSendBufferPool : FixedSizeBufferPool
  maxRecvBufferPool : FixedSizeBufferPool

namespace JmySessionBufferPool

/-- A size is raised to half of its limit or to the limit. -/
def roundSize (size limit : ℕ) : Option ℕ :=
  if size ≤ limit / 2 then some (limit / 2) else if size ≤ limit then some limit else none

def init (maxSessionSize : ℤ) (minSend minRecv maxSend maxRecv : ℕ) : Option JmySessionBufferPool := do
  let minSend ← roundSize minSend defaultSendBufferSize
  let minRecv ← roundSize minRecv defaultRecvBufferSize
  let maxSend ← roundSize maxSend maxSendBufferSize
  let maxRecv ← roundSize maxRecv maxRecvBufferSize
  return {
    sendBufferPool := .init .send maxSessionSize minSend
    recvBufferPool := .init .recv maxSessionSize minRecv
    maxSendBufferPool := .init .maxSend defaultMaxSendBufferCount maxSend
    maxRecvBufferPool := .init .maxRecv defaultMaxRecvBufferCount maxRecv }

variable (p : JmySessionBufferPool)

/-- A block with its length, and the pool behind. -/
def mallocSendBuffer : Option (BufferPtr × ℕ × JmySessionBufferPool) :=
  p.sendBufferPool.malloc.map fun r => (r.1, p.sendBufferPool.fixedSize, { p with sendBufferPool := r.2 })

def mallocRecvBuffer : Option (BufferPtr × ℕ × JmySessionBufferPool) :=
  p.recvBufferPool.malloc.map fun r => (r.1, p.recvBufferPool.fixedSize, { p with recvBufferPool := r.2 })

/-- The length is that of the large blocks to receive. -/
def mallocLargeSendBuffer : Option (BufferPtr × ℕ × JmySessionBufferPool) :=
  p.maxSendBufferPool.malloc.map fun r => (r.1, p.maxRecvBufferPool.fixedSize, { p with maxSendBufferPool := r.2 })

/-- The length is that of the large blocks to send. -/
def mallocLargeRecvBuffer : Option (BufferPtr × ℕ × JmySessionBufferPool) :=
  p.maxRecvBufferPool.malloc.map fun r => (r.1, p.maxSendBufferPool.fixedSize, { p with maxRecvBufferPool := r.2 })

def freeSendBuffer (b : BufferPtr) : JmySessionBufferPool := { p with sendBufferPool := p.sendBufferPool.free b }
def freeRecvBuffer (b : BufferPtr) : JmySessionBufferPool := { p with recvBufferPool := p.recvBufferPool.free b }
def freeLargeSendBuffer (b : BufferPtr) : JmySessionBufferPool :=
  { p with maxSendBufferPool := p.maxSendBufferPool.free b }
def freeLargeRecvBuffer (b : BufferPtr) : JmySessionBufferPool :=
  { p with maxRecvBufferPool := p.maxRecvBufferPool.free b }

/-- How often a block is in the free lists. -/
def freeCount (b : BufferPtr) : ℕ :=
  p.sendBufferPool.idle.count b + p.recvBufferPool.idle.count b +
    p.maxSendBufferPool.idle.count b + p.maxRecvBufferPool.idle.count b

end JmySessionBufferPool

inductive SessionBufferType where
  | none
  | recv
  | send
  deriving DecidableEq, Repr

structure JmySessionBuffer where
  buff : Option BufferPtr
  len : ℕ
  type : SessionBufferType
  deriving DecidableEq, Repr

namespace JmySessionBuffer

def empty : JmySessionBuffer := ⟨none, 0, .none⟩

def init (buff : BufferPtr) (size : ℕ) (type : SessionBufferType) : JmySessionBuffer := ⟨some buff, size, type⟩

def destroy (b : JmySessionBuffer) : JmySessionBuffer := { b with buff := none, len := 0 }

def isInited (b : JmySessionBuffer) : Bool := b.buff.isSome && decide (0 < b.len)

end JmySessionBuffer

/-- `buffPool` says whether `buff_pool_` points to the pool. -/
structure JmyDoubleSessionBuffer where
  useLarge : Bool
  buff : JmySessionBuffer
  largeBuff : JmySessionBuffer
  buffPool : Bool
  deriving DecidableEq, Repr

namespace JmyDoubleSessionBuffer

def empty : JmyDoubleSessionBuffer := ⟨false, .empty, .empty, false⟩

variable (d : JmyDoubleSessionBuffer) (pool : JmySessionBufferPool)

/-- `init`: its result, the buffer and the pool. Without a free block it stops at an assertion; this is what it does
where assertions are off. -/
def init (type : SessionBufferType) : Bool × JmyDoubleSessionBuffer × JmySessionBufferPool :=
  match if type = .recv then pool.mallocRecvBuffer else pool.mallocSendBuffer with
  | none => (false, d, pool)
  | some (b, size, pool') => (true, { d with buff := .init b size type, buffPool := true }, pool')

/-- `clear` gives the blocks back and leaves the buffer as it is. Without a pool it only resets offsets. -/
def clear : JmySessionBufferPool :=
  if d.buffPool then
    let pool₁ := match d.buff.buff with
      | none => pool
      | some b => if d.buff.type = .recv then pool.freeRecvBuffer b else pool.freeSendBuffer b
    match d.largeBuff.buff with
      | none => pool₁
      | some b => if d.largeBuff.type = .recv then pool₁.freeLargeRecvBuffer b else pool₁.freeLargeSendBuffer b
  else pool

/-- `switchToLarge`, undefined where a block is needed and there is no pool. -/
def switchToLarge : Option (Bool × JmyDoubleSessionBuffer × JmySessionBufferPool) :=
  if d.useLarge then some (true, d, pool)
  else if d.largeBuff.isInited then some (true, { d with useLarge := true }, pool)
  else if d.buffPool then
    match if d.buff.type = .send then pool.mallocLargeSendBuffer else pool.mallocLargeRecvBuffer with
    | none => some (false, d, pool)
    | some (b, size, pool') => some (true,
        { d with largeBuff := .init b size d.buff.type, useLarge := true }, pool')
  else none

/-- `backToNormal`, undefined where there is no pool. A null pointer is not in use. -/
def backToNormal : Option (Bool × JmyDoubleSessionBuffer × JmySessionBufferPool) :=
  if d.useLarge then
    if d.buffPool then
      let pool' := match d.largeBuff.buff with
        | none => pool
        | some b => if d.largeBuff.type = .send then pool.freeLargeSendBuffer b else pool.freeLargeRecvBuffer b
      some (true, { d with largeBuff := d.largeBuff.destroy, useLarge := false }, pool')
    else none
  else some (true, d, pool)

end JmyDoubleSessionBuffer

/-- The pool, the `send_buff` of every connection buffer, and what each of them holds: the block that its last `init`
got and the large block that its last `switchToLarge` got, as long as it has not given them back. -/
structure PoolRun where
  pool : JmySessionBufferPool
  conns : ℕ → JmyDoubleSessionBuffer
  held : ℕ → Option BufferPtr
  heldLarge : ℕ → Option BufferPtr

inductive BufferCall where
  | init (conn : ℕ)
  | clear (conn : ℕ)
  | switchToLarge (conn : ℕ)
  | backToNormal (conn : ℕ)
  deriving DecidableEq, Repr

namespace PoolRun

def start (pool : JmySessionBufferPool) : PoolRun := ⟨pool, fun _ => .empty, fun _ => none, fun _ => none⟩

def step (s : PoolRun) : BufferCall → Option PoolRun
  | .init i =>
    let r := (s.conns i).init s.pool .send
    some { s with
      pool := r.2.2
      conns := Function.update s.conns i r.2.1
      held := if r.1 then Function.update s.held i r.2.1.buff.buff else s.held }
  | .clear i => some { s with
      pool := (s.conns i).clear s.pool
      held := Function.update s.held i none
      heldLarge := Function.update s.heldLarge i none }
  | .switchToLarge i => ((s.conns i).switchToLarge s.pool).map fun r => { s with
      pool := r.2.2
      conns := Function.update s.conns i r.2.1
      heldLarge := if r.2.1.largeBuff.buff = (s.conns i).largeBuff.buff then s.heldLarge
        else Function.update s.heldLarge i r.2.1.largeBuff.buff }
  | .backToNormal i => ((s.conns i).backToNormal s.pool).map fun r => { s with
      pool := r.2.2
      conns := Function.update s.conns i r.2.1
      heldLarge := if (s.conns i).useLarge then Function.update s.heldLarge i none else s.heldLarge }

def Holds (s : PoolRun) (i : ℕ) (b : BufferPtr) : Prop := s.held i = some b ∨ s.heldLarge i = some b

/-- The blocks of the pool. -/
def blocks (maxSessionSize : ℤ) : PoolKind → List BufferPtr
  | .send => FixedSizeBufferPool.blocks .send maxSessionSize
  | .recv => FixedSizeBufferPool.blocks .recv maxSessionSize
  | .maxSend => FixedSizeBufferPool.blocks .maxSend defaultMaxSendBufferCount
  | .maxRecv => FixedSizeBufferPool.blocks .maxRecv defaultMaxRecvBufferCount

/-- Every block of the pool is in a free list once, or it is held by exactly one connection buffer. -/
def OneOwner (maxSessionSize : ℤ) (s : PoolRun) : Prop :=
  ∀ kind, ∀ b ∈ blocks maxSessionSize kind,
    s.pool.freeCount b = 1 ∧ (∀ i, ¬s.Holds i b) ∨ s.pool.freeCount b = 0 ∧ ∃! i, s.Holds i b

/-- The block behind a pointer is held, or it is not in use. -/
def Harmless (p : FixedSizeBufferPool) (ptr held : Option BufferPtr) : Prop := held = ptr ∨ ∀ b ∈ ptr, b ∉ p.used

/-- `init` comes to a connection buffer that holds no block, and none is given back that somebody else holds. -/
def Clean (s : PoolRun) : BufferCall → Prop
  | .init i => s.held i = none ∨ s.pool.sendBufferPool.idle = []
  | .clear i => Harmless s.pool.sendBufferPool (s.conns i).buff.buff (s.held i) ∧
      Harmless s.pool.maxSendBufferPool (s.conns i).largeBuff.buff (s.heldLarge i)
  | .switchToLarge _ => True
  | .backToNormal i => Harmless s.pool.maxSendBufferPool (s.conns i).largeBuff.buff (s.heldLarge i)

instance (p : FixedSizeBufferPool) (ptr held : Option BufferPtr) : Decidable (Harmless p ptr held) :=
  inferInstanceAs (Decidable (_ ∨ _))

instance : DecidableRel Clean
  | _, .init _ => inferInstanceAs (Decidable (_ ∨ _))
  | _, .clear _ => inferInstanceAs (Decidable (_ ∧ _))
  | _, .switchToLarge _ => inferInstanceAs (Decidable True)
  | _, .backToNormal _ => inferInstanceAs (Decidable (Harmless _ _ _))

end PoolRun

def poolMachine : Machine PoolRun BufferCall := ⟨PoolRun.step⟩

namespace JmyDoubleSessionBuffer

variable {d : JmyDoubleSessionBuffer} {pool : JmySessionBufferPool} {held heldLarge : Option BufferPtr}

/-- The buffer has pointers to what it holds, its blocks are blocks to send, and it has a large block exactly when it
uses it. -/
structure Shaped (d : JmyDoubleSessionBuffer) (held heldLarge : Option BufferPtr) : Prop where
  held : ∀ b, held = some b → d.buff.buff = some b
  heldLarge : ∀ b, heldLarge = some b → d.largeBuff.buff = some b
  pool : d.buff.buff ≠ none → d.buffPool = true
  type : d.buffPool = true → d.buff.type = .send
  large : d.largeBuff.buff ≠ none ↔ d.useLarge = true
  largePool : d.useLarge = true → d.buffPool = true
  largeType : d.useLarge = true → d.largeBuff.type = .send

theorem shaped_empty : Shaped empty none none :=
  ⟨nofun, nofun, fun h => absurd rfl h, nofun, iff_of_false (fun h => h rfl) nofun, nofun, nofun⟩

theorem Shaped.largeBuff_eq_none (h : Shaped d held heldLarge) (hlarge : d.useLarge = false) :
    d.largeBuff.buff = none := by
  by_contra hsome
  exact Bool.false_ne_true (hlarge.symm.trans (h.large.1 hsome))

/-- `init` finds no block, or it takes one. -/
theorem init_cases (d : JmyDoubleSessionBuffer) (pool : JmySessionBufferPool) :
    pool.sendBufferPool.idle = [] ∧ d.init pool .send = (false, d, pool) ∨
      ∃ b p, pool.sendBufferPool.take = some (b, p) ∧ d.init pool .send =
        (true, { d with buff := .init b pool.sendBufferPool.fixedSize .send, buffPool := true },
          { pool with sendBufferPool := ⟨p, pool.sendBufferPool.fixedSize⟩ }) := by
  unfold init JmySessionBufferPool.mallocSendBuffer FixedSizeBufferPool.malloc
  cases htake : pool.sendBufferPool.take with
  | none => exact Or.inl ⟨FreePool.take_eq_none.1 htake, rfl⟩
  | some r => exact Or.inr ⟨r.1, r.2, rfl, rfl⟩

/-- `clear` gives back the blocks to which there are pointers. -/
theorem Shaped.clear_eq (h : Shaped d held heldLarge) (pool : JmySessionBufferPool) : d.clear pool =
    { pool with
      sendBufferPool := d.buff.buff.elim pool.sendBufferPool pool.sendBufferPool.free
      maxSendBufferPool := d.largeBuff.buff.elim pool.maxSendBufferPool pool.maxSendBufferPool.free } := by
  unfold clear
  have hlarge : d.largeBuff.buff ≠ none → d.largeBuff.type ≠ .recv := by
    intro hsome htype
    exact nomatch (h.largeType (h.large.1 hsome)).symm.trans htype
  by_cases hpool : d.buffPool = true
  · have hsend : d.buff.type ≠ .recv := fun htype => nomatch (h.type hpool).symm.trans htype
    rw [if_pos hpool]
    cases hb : d.buff.buff <;> cases hl : d.largeBuff.buff
    · rfl
    · dsimp only
      rw [if_neg (hlarge (hl ▸ Option.some_ne_none _))]
      rfl
    · dsimp only
      rw [if_neg hsend]
      rfl
    · dsimp only
      rw [if_neg hsend, if_neg (hlarge (hl ▸ Option.some_ne_none _))]
      rfl
  · have hb : d.buff.buff = none := not_not.1 (mt h.pool hpool)
    have hl : d.largeBuff.buff = none := not_not.1 fun hsome => hpool (h.largePool (h.large.1 hsome))
    rw [if_neg hpool, hb, hl]
    rfl

/-- `switchToLarge` changes nothing, or it takes a block. -/
theorem Shaped.switchToLarge_cases (h : Shaped d held heldLarge)
    {r : Bool × JmyDoubleSessionBuffer × JmySessionBufferPool}
    (hr : d.switchToLarge pool = some r) : r.2 = (d, pool) ∨
      d.useLarge = false ∧ d.buffPool = true ∧ ∃ b p, pool.maxSendBufferPool.take = some (b, p) ∧
        r.2 = ({ d with largeBuff := .init b pool.maxRecvBufferPool.fixedSize .send, useLarge := true },
          { pool with maxSendBufferPool := ⟨p, pool.maxSendBufferPool.fixedSize⟩ }) := by
  unfold switchToLarge JmySessionBufferPool.mallocLargeSendBuffer FixedSizeBufferPool.malloc at hr
  by_cases hlarge : d.useLarge = true
  · rw [if_pos hlarge] at hr
    exact Or.inl (congrArg Prod.snd (Option.some.inj hr)).symm
  · have hnone := h.largeBuff_eq_none (Bool.not_eq_true _ ▸ hlarge)
    have hinited : ¬d.largeBuff.isInited = true := by
      rw [JmySessionBuffer.isInited, hnone]
      exact Bool.false_ne_true
    rw [if_neg hlarge, if_neg hinited] at hr
    by_cases hpool : d.buffPool = true
    · rw [if_pos hpool, if_pos (h.type hpool), h.type hpool] at hr
      cases htake : pool.maxSendBufferPool.take with
      | none =>
          rw [htake] at hr
          exact Or.inl (congrArg Prod.snd (Option.some.inj hr)).symm
      | some q =>
          rw [htake] at hr
          exact Or.inr ⟨Bool.not_eq_true _ ▸ hlarge, hpool, q.1, q.2, rfl,
            (congrArg Prod.snd (Option.some.inj hr)).symm⟩
    · rw [if_neg hpool] at hr
      cases hr

/-- `backToNormal` changes nothing, or it gives the large block back and forgets it. -/
theorem Shaped.backToNormal_cases (h : Shaped d held heldLarge)
    {r : Bool × JmyDoubleSessionBuffer × JmySessionBufferPool}
    (hr : d.backToNormal pool = some r) : d.useLarge = false ∧ r.2 = (d, pool) ∨
      d.useLarge = true ∧ r.2 = ({ d with largeBuff := d.largeBuff.destroy, useLarge := false }, { pool with
        maxSendBufferPool := d.largeBuff.buff.elim pool.maxSendBufferPool pool.maxSendBufferPool.free }) := by
  unfold backToNormal at hr
  by_cases hlarge : d.useLarge = true
  · rw [if_pos hlarge, if_pos (h.largePool hlarge), h.largeType hlarge] at hr
    refine Or.inr ⟨hlarge, (congrArg Prod.snd (Option.some.inj hr)).symm.trans ?_⟩
    cases d.largeBuff.buff with
    | none => rfl
    | some b => rfl
  · rw [if_neg hlarge] at hr
    exact Or.inl ⟨Bool.not_eq_true _ ▸ hlarge, (congrArg Prod.snd (Option.some.inj hr)).symm⟩

end JmyDoubleSessionBuffer

namespace PoolRun

open FreePool

variable {n : ℤ} {s s' : PoolRun} {i : ℕ}

/-- Each of the four pools has lent what the connection buffers hold of it. -/
structure Inv (n : ℤ) (s : PoolRun) : Prop where
  shaped : ∀ i, (s.conns i).Shaped (s.held i) (s.heldLarge i)
  send : Leased {b | b ∈ blocks n .send} s.pool.sendBufferPool.toFreePool s.held
  maxSend : Leased {b | b ∈ blocks n .maxSend} s.pool.maxSendBufferPool.toFreePool s.heldLarge
  recv : Leased {b | b ∈ blocks n .recv} s.pool.recvBufferPool.toFreePool fun _ : ℕ => none
  maxRecv : Leased {b | b ∈ blocks n .maxRecv} s.pool.maxRecvBufferPool.toFreePool fun _ : ℕ => none

theorem kind_of_mem_blocks {kind : PoolKind} {b : BufferPtr} (h : b ∈ blocks n kind) : b.kind = kind := by
  cases kind <;>
  · obtain ⟨k, -, rfl⟩ := List.mem_map.1 h
    rfl

theorem nodup_blocks (n : ℤ) (kind : PoolKind) : (blocks n kind).Nodup := by
  cases kind <;>
  · refine List.nodup_range.map fun k k' heq => ?_
    exact congrArg BufferPtr.index heq

/-- A pool has no block of another pool. -/
theorem count_of_kind_ne {kind : PoolKind} {p : FreePool BufferPtr} {lent : ℕ → Option BufferPtr}
    (h : Leased {b | b ∈ blocks n kind} p lent) {b : BufferPtr} (hne : b.kind ≠ kind) : p.idle.count b = 0 := by
  refine List.count_eq_zero.2 fun hmem => hne ?_
  exact kind_of_mem_blocks ((h.mem_idle b).1 hmem).1

/-- A block of another pool is not lent. -/
theorem lent_ne_of_kind_ne {kind : PoolKind} {p : FreePool BufferPtr} {lent : ℕ → Option BufferPtr}
    (h : Leased {b | b ∈ blocks n kind} p lent) {b : BufferPtr} (hne : b.kind ≠ kind) (i : ℕ) : lent i ≠ some b :=
  fun heq => hne (kind_of_mem_blocks (h.mem_all i b heq))

theorem inv_start {a b c d : ℕ} {pool : JmySessionBufferPool}
    (hinit : JmySessionBufferPool.init n a b c d = some pool) : Inv n (start pool) := by
  unfold JmySessionBufferPool.init at hinit
  obtain ⟨minSend, -, hinit⟩ := Option.bind_eq_some_iff.1 hinit
  obtain ⟨minRecv, -, hinit⟩ := Option.bind_eq_some_iff.1 hinit
  obtain ⟨maxSend, -, hinit⟩ := Option.bind_eq_some_iff.1 hinit
  obtain ⟨maxRecv, -, hinit⟩ := Option.bind_eq_some_iff.1 hinit
  obtain rfl := Option.some.inj hinit
  exact ⟨fun _ => JmyDoubleSessionBuffer.shaped_empty, leased_start (nodup_blocks n .send),
    leased_start (nodup_blocks n .maxSend), leased_start (nodup_blocks n .recv),
    leased_start (nodup_blocks n .maxRecv)⟩

/-- The blocks of one kind are free in the pool of that kind only. -/
theorem Inv.freeCount (h : Inv n s) (b : BufferPtr) : s.pool.freeCount b = match b.kind with
    | .send => s.pool.sendBufferPool.idle.count b
    | .recv => s.pool.recvBufferPool.idle.count b
    | .maxSend => s.pool.maxSendBufferPool.idle.count b
    | .maxRecv => s.pool.maxRecvBufferPool.idle.count b := by
  unfold JmySessionBufferPool.freeCount
  cases hkind : b.kind with
  | send =>
      rw [count_of_kind_ne h.recv (hkind ▸ nofun), count_of_kind_ne h.maxSend (hkind ▸ nofun),
        count_of_kind_ne h.maxRecv (hkind ▸ nofun)]
      rfl
  | recv =>
      rw [count_of_kind_ne h.send (hkind ▸ nofun), count_of_kind_ne h.maxSend (hkind ▸ nofun),
        count_of_kind_ne h.maxRecv (hkind ▸ nofun), Nat.zero_add]
      rfl
  | maxSend =>
      rw [count_of_kind_ne h.send (hkind ▸ nofun), count_of_kind_ne h.recv (hkind ▸ nofun),
        count_of_kind_ne h.maxRecv (hkind ▸ nofun), Nat.zero_add]
      rfl
  | maxRecv =>
      rw [count_of_kind_ne h.send (hkind ▸ nofun), count_of_kind_ne h.recv (hkind ▸ nofun),
        count_of_kind_ne h.maxSend (hkind ▸ nofun), Nat.zero_add]

/-- Of the blocks of one kind, a connection buffer holds what the pool of that kind has lent it. -/
theorem Inv.holds (h : Inv n s) (i : ℕ) (b : BufferPtr) : s.Holds i b ↔ match b.kind with
    | .send => s.held i = some b
    | .recv => False
    | .maxSend => s.heldLarge i = some b
    | .maxRecv => False := by
  unfold Holds
  cases hkind : b.kind with
  | send => exact or_iff_left (lent_ne_of_kind_ne h.maxSend (hkind ▸ nofun) i)
  | recv => exact iff_of_false (fun hor => hor.elim (lent_ne_of_kind_ne h.send (hkind ▸ nofun) i)
      (lent_ne_of_kind_ne h.maxSend (hkind ▸ nofun) i)) id
  | maxSend => exact or_iff_right (lent_ne_of_kind_ne h.send (hkind ▸ nofun) i)
  | maxRecv => exact iff_of_false (fun hor => hor.elim (lent_ne_of_kind_ne h.send (hkind ▸ nofun) i)
      (lent_ne_of_kind_ne h.maxSend (hkind ▸ nofun) i)) id

theorem Inv.oneOwner (h : Inv n s) : s.OneOwner n := by
  intro kind b hb
  have hkind := kind_of_mem_blocks hb
  simp only [h.freeCount, h.holds, hkind]
  cases kind with
  | send => exact h.send.count hb
  | recv =>
      obtain ⟨hcount, -⟩ | ⟨-, i, hi, -⟩ := h.recv.count hb
      · exact Or.inl ⟨hcount, fun _ => id⟩
      · cases hi
  | maxSend => exact h.maxSend.count hb
  | maxRecv =>
      obtain ⟨hcount, -⟩ | ⟨-, i, hi, -⟩ := h.maxRecv.count hb
      · exact Or.inl ⟨hcount, fun _ => id⟩
      · cases hi

/-- A holder gives back what is behind its pointer: what it was lent, or a block that is not in use. -/
theorem leased_giveBack {all : Set BufferPtr} {p : FixedSizeBufferPool} {lent : ℕ → Option BufferPtr}
    {ptr : Option BufferPtr} (h : Leased all p.toFreePool lent) (hptr : ∀ b, lent i = some b → ptr = some b)
    (hharmless : Harmless p ptr (lent i)) :
    Leased all (ptr.elim p p.free).toFreePool (Function.update lent i none) := by
  cases hi : lent i with
  | some b =>
      rw [hptr b hi]
      exact h.give hi
  | none =>
      rw [← hi, Function.update_eq_self]
      cases ptr with
      | none => exact h
      | some b =>
          rw [hi] at hharmless
          have hnot : b ∉ p.used := (hharmless.resolve_left nofun) b rfl
          change Leased all (p.give b).2 lent
          rw [give_of_notMem hnot]
          exact h

theorem shaped_update {d : JmyDoubleSessionBuffer} {x y : Option BufferPtr}
    (h : ∀ j, (s.conns j).Shaped (s.held j) (s.heldLarge j)) (hd : d.Shaped x y) (j : ℕ) :
    (Function.update s.conns i d j).Shaped (Function.update s.held i x j) (Function.update s.heldLarge i y j) := by
  by_cases hj : j = i
  · rw [hj, Function.update_self, Function.update_self, Function.update_self]
    exact hd
  · rw [Function.update_of_ne hj, Function.update_of_ne hj, Function.update_of_ne hj]
    exact h j

theorem Inv.init (h : Inv n s) (hclean : s.Clean (.init i)) (hstep : s.step (.init i) = some s') : Inv n s' := by
  obtain rfl := Option.some.inj hstep
  obtain ⟨-, heq⟩ | ⟨b, p, htake, heq⟩ := (s.conns i).init_cases s.pool
  · rw [heq, Function.update_eq_self]
    exact h
  · rw [heq]
    have hi : s.held i = none := by
      refine hclean.resolve_right fun hidle => ?_
      exact nomatch htake.symm.trans (take_eq_none.2 hidle)
    have hd := h.shaped i
    refine ⟨?_, h.send.take hi htake, h.maxSend, h.recv, h.maxRecv⟩
    have hd' : JmyDoubleSessionBuffer.Shaped { s.conns i with
        buff := .init b s.pool.sendBufferPool.fixedSize .send, buffPool := true } (some b) (s.heldLarge i) :=
      ⟨fun _ => id, hd.heldLarge, fun _ => rfl, fun _ => rfl, hd.large, fun _ => rfl, hd.largeType⟩
    have hall := fun j => shaped_update h.shaped hd' (i := i) j
    rw [Function.update_eq_self] at hall
    exact hall

theorem Inv.clear (h : Inv n s) (hclean : s.Clean (.clear i)) (hstep : s.step (.clear i) = some s') : Inv n s' := by
  obtain rfl := Option.some.inj hstep
  have hd := h.shaped i
  rw [hd.clear_eq]
  refine ⟨?_, leased_giveBack h.send hd.held hclean.1, leased_giveBack h.maxSend hd.heldLarge hclean.2, h.recv,
    h.maxRecv⟩
  have hd' : (s.conns i).Shaped none none :=
    ⟨nofun, nofun, hd.pool, hd.type, hd.large, hd.largePool, hd.largeType⟩
  have hall := fun j => shaped_update h.shaped hd' (i := i) j
  rw [Function.update_eq_self] at hall
  exact hall

theorem Inv.switchToLarge (h : Inv n s) (hstep : s.step (.switchToLarge i) = some s') : Inv n s' := by
  obtain ⟨⟨ok, d, pool⟩, hr, rfl⟩ := Option.map_eq_some_iff.1 hstep
  have hd := h.shaped i
  obtain heq | ⟨hlarge, hpool, b, p, htake, heq⟩ := hd.switchToLarge_cases hr
  · obtain ⟨rfl, rfl⟩ := Prod.mk.inj heq
    dsimp only
    rw [if_pos rfl, Function.update_eq_self]
    exact h
  · obtain ⟨rfl, rfl⟩ := Prod.mk.inj heq
    have hnone := hd.largeBuff_eq_none hlarge
    have hi : s.heldLarge i = none := by
      by_contra hsome
      obtain ⟨c, hc⟩ := Option.ne_none_iff_exists'.1 hsome
      exact nomatch hnone.symm.trans (hd.heldLarge c hc)
    have hne : (JmySessionBuffer.init b s.pool.maxRecvBufferPool.fixedSize .send).buff ≠
        (s.conns i).largeBuff.buff := by
      rw [hnone]
      exact Option.some_ne_none b
    dsimp only
    rw [if_neg hne]
    refine ⟨?_, h.send, h.maxSend.take hi htake, h.recv, h.maxRecv⟩
    have hd' : JmyDoubleSessionBuffer.Shaped { s.conns i with
        largeBuff := .init b s.pool.maxRecvBufferPool.fixedSize .send, useLarge := true } (s.held i) (some b) :=
      ⟨hd.held, fun _ => id, hd.pool, hd.type, iff_of_true (Option.some_ne_none b) rfl, fun _ => hpool, fun _ => rfl⟩
    have hall := fun j => shaped_update h.shaped hd' (i := i) j
    rw [Function.update_eq_self] at hall
    exact hall

theorem Inv.backToNormal (h : Inv n s) (hclean : s.Clean (.backToNormal i))
    (hstep : s.step (.backToNormal i) = some s') : Inv n s' := by
  obtain ⟨⟨ok, d, pool⟩, hr, rfl⟩ := Option.map_eq_some_iff.1 hstep
  have hd := h.shaped i
  obtain ⟨hlarge, heq⟩ | ⟨hlarge, heq⟩ := hd.backToNormal_cases hr
  · obtain ⟨rfl, rfl⟩ := Prod.mk.inj heq
    dsimp only
    rw [if_neg (hlarge ▸ Bool.false_ne_true), Function.update_eq_self]
    exact h
  · obtain ⟨rfl, rfl⟩ := Prod.mk.inj heq
    dsimp only
    rw [if_pos hlarge]
    refine ⟨?_, h.send, leased_giveBack h.maxSend hd.heldLarge hclean, h.recv, h.maxRecv⟩
    have hd' : JmyDoubleSessionBuffer.Shaped { s.conns i with
        largeBuff := (s.conns i).largeBuff.destroy, useLarge := false } (s.held i) none :=
      ⟨hd.held, nofun, hd.pool, hd.type, iff_of_false (fun hsome => hsome rfl) nofun, nofun, nofun⟩
    have hall := fun j => shaped_update h.shaped hd' (i := i) j
    rw [Function.update_eq_self] at hall
    exact hall

theorem Inv.step {e : BufferCall} (h : Inv n s) (hclean : s.Clean e) (hstep : poolMachine.step s e = some s') :
    Inv n s' := by
  cases e with
  | init i => exact h.init hclean hstep
  | clear i => exact h.clear hclean hstep
  | switchToLarge i => exact h.switchToLarge hstep
  | backToNormal i => exact h.backToNormal hclean hstep

/-- A pointer to a block that somebody else was lent: the block is free behind the call. -/
theorem exists_stolen {all : Set BufferPtr} {p : FixedSizeBufferPool} {lent : ℕ → Option BufferPtr}
    {ptr : Option BufferPtr} (h : Leased all p.toFreePool lent) (hnot : ¬Harmless p ptr (lent i)) :
    ∃ b j, b ∈ all ∧ j ≠ i ∧ lent j = some b ∧ b ∈ (ptr.elim p p.free).idle := by
  obtain ⟨hne, hused⟩ := not_or.1 hnot
  obtain ⟨b, himp⟩ := not_forall.1 hused
  obtain ⟨rfl, hnotnot⟩ := Classical.not_imp.1 himp
  have hused : b ∈ p.used := not_not.1 hnotnot
  obtain ⟨j, hj⟩ := (h.mem_used b).1 hused
  refine ⟨b, j, h.mem_all j b hj, ?_, hj, ?_⟩
  · rintro rfl
    exact hne hj
  · change b ∈ (p.give b).2.idle
    rw [give_of_mem hused]
    exact List.mem_append_right _ List.mem_cons_self

/-- A block that is free is not held. -/
theorem OneOwner.not_holds (h : s.OneOwner n) {kind : PoolKind} {b : BufferPtr} (hb : b ∈ blocks n kind)
    (hfree : s.pool.freeCount b ≠ 0) (i : ℕ) : ¬s.Holds i b := by
  obtain ⟨-, hnone⟩ | ⟨hcount, -⟩ := h kind b hb
  · exact hnone i
  · exact absurd hcount hfree

theorem freeCount_ne_zero {pool : JmySessionBufferPool} {b : BufferPtr}
    (h : b ∈ pool.sendBufferPool.idle ∨ b ∈ pool.maxSendBufferPool.idle) : pool.freeCount b ≠ 0 := by
  unfold JmySessionBufferPool.freeCount
  obtain h | h := h
  · have := List.count_pos_iff.2 h
    omega
  · have := List.count_pos_iff.2 h
    omega

/-- `init` on a buffer that holds a block loses the block. -/
theorem clean_init (h : Inv n s) (hafter : ∀ s', s.step (.init i) = some s' → s'.OneOwner n) :
    s.Clean (.init i) := by
  by_contra hnot
  obtain ⟨hheld, hidle⟩ := not_or.1 hnot
  obtain ⟨c, hc⟩ := Option.ne_none_iff_exists'.1 hheld
  obtain ⟨hnone, -⟩ | ⟨b, p, htake, heq⟩ := (s.conns i).init_cases s.pool
  · exact hidle hnone
  have hone := hafter _ rfl
  rw [heq] at hone
  have hcall := h.send.mem_all i c hc
  have hkind := kind_of_mem_blocks hcall
  have hlost : p.idle.count c = 0 := by
    obtain ⟨rest, hidle, rfl⟩ := take_eq_some.1 htake
    refine List.count_eq_zero.2 fun hmem => h.send.notMem_idle hc ?_
    rw [hidle]
    exact List.mem_cons_of_mem b hmem
  obtain ⟨hcount, -⟩ | ⟨-, j, hj, -⟩ := hone .send c hcall
  · unfold JmySessionBufferPool.freeCount at hcount
    rw [hlost, count_of_kind_ne h.recv (hkind ▸ nofun), count_of_kind_ne h.maxSend (hkind ▸ nofun),
      count_of_kind_ne h.maxRecv (hkind ▸ nofun)] at hcount
    cases hcount
  · obtain hj | hj := hj
    · by_cases hji : j = i
      · rw [hji] at hj
        refine h.send.lent_ne_of_take htake i (hc.trans ?_)
        exact (hj.symm.trans (Function.update_self i _ _)).trans rfl
      · refine hji (h.send.inj j i c ?_ hc)
        exact (Function.update_of_ne hji _ _).symm.trans hj
    · exact lent_ne_of_kind_ne h.maxSend (hkind ▸ nofun) j hj

theorem clean_clear (h : Inv n s) (hafter : ∀ s', s.step (.clear i) = some s' → s'.OneOwner n) :
    s.Clean (.clear i) := by
  have hone := hafter _ rfl
  rw [(h.shaped i).clear_eq] at hone
  constructor
  · by_contra hnot
    obtain ⟨b, j, hb, hji, hj, hfree⟩ := exists_stolen h.send hnot
    refine hone.not_holds hb (freeCount_ne_zero (Or.inl hfree)) j (Or.inl ?_)
    exact (Function.update_of_ne hji _ _).trans hj
  · by_contra hnot
    obtain ⟨b, j, hb, hji, hj, hfree⟩ := exists_stolen h.maxSend hnot
    refine hone.not_holds hb (freeCount_ne_zero (Or.inr hfree)) j (Or.inr ?_)
    exact (Function.update_of_ne hji _ _).trans hj

theorem clean_backToNormal (h : Inv n s) (hafter : ∀ s', s.step (.backToNormal i) = some s' → s'.OneOwner n) :
    s.Clean (.backToNormal i) := by
  have hd := h.shaped i
  by_contra hnot
  have hlarge : (s.conns i).useLarge = true := by
    by_contra hlarge
    have hnone := hd.largeBuff_eq_none (Bool.not_eq_true _ ▸ hlarge)
    refine hnot (Or.inr fun b hb => ?_)
    rw [hnone] at hb
    cases hb
  obtain ⟨r, hr⟩ : ∃ r, (s.conns i).backToNormal s.pool = some r := by
    rw [JmyDoubleSessionBuffer.backToNormal, if_pos hlarge, if_pos (hd.largePool hlarge)]
    exact ⟨_, rfl⟩
  have hone := hafter _ (Option.map_eq_some_iff.2 ⟨r, hr, rfl⟩)
  obtain ⟨hsmall, -⟩ | ⟨-, heq⟩ := hd.backToNormal_cases hr
  · exact Bool.false_ne_true (hsmall.symm.trans hlarge)
  · rw [heq, if_pos hlarge] at hone
    obtain ⟨b, j, hb, hji, hj, hfree⟩ := exists_stolen h.maxSend hnot
    refine hone.not_holds hb (freeCount_ne_zero (Or.inr hfree)) j (Or.inr ?_)
    exact (Function.update_of_ne hji _ _).trans hj

theorem clean_of_oneOwner {e : BufferCall} (h : Inv n s)
    (hafter : ∀ s', poolMachine.step s e = some s' → s'.OneOwner n) : s.Clean e := by
  cases e with
  | init i => exact clean_init h hafter
  | clear i => exact clean_clear h hafter
  | switchToLarge i => trivial
  | backToNormal i => exact clean_backToNormal h hafter

/-- A clean `clear` gives back no block that another connection buffer holds. -/
theorem Inv.clear_spares (h : Inv n s) (hclean : s.Clean (.clear i)) (hstep : poolMachine.step s (.clear i) = some s')
    {j : ℕ} (hj : j ≠ i) {b : BufferPtr} (hb : s.Holds j b) : s'.pool.freeCount b = 0 := by
  have hone := (h.step hclean hstep).oneOwner
  have hb' : s'.Holds j b := by
    obtain rfl := Option.some.inj hstep
    refine hb.imp (fun hheld => ?_) fun hheld => ?_
    · exact (Function.update_of_ne hj _ _).trans hheld
    · exact (Function.update_of_ne hj _ _).trans hheld
  by_contra hfree
  obtain hheld | hheld := hb
  · exact hone.not_holds (h.send.mem_all j b hheld) hfree j hb'
  · exact hone.not_holds (h.maxSend.mem_all j b hheld) hfree j hb'

/-- The blocks have one owner in every state of a run, and no `clear` of the run gives back a block of another
connection buffer, exactly when every call of the run is clean. -/
theorem oneOwner_iff {a b c d : ℕ} {pool : JmySessionBufferPool}
    (hinit : JmySessionBufferPool.init n a b c d = some pool) (es : List BufferCall) :
    ((∀ es₁ es₂ t, es = es₁ ++ es₂ → poolMachine.run (start pool) es₁ = some t → t.OneOwner n) ∧
      ∀ es₁ i es₂ t t', es = es₁ ++ .clear i :: es₂ → poolMachine.run (start pool) es₁ = some t →
        poolMachine.step t (.clear i) = some t' → ∀ j buffer, j ≠ i → t.Holds j buffer →
          t'.pool.freeCount buffer = 0) ↔
      poolMachine.Along Clean (start pool) es := by
  have hreached := Machine.along_iff_reached (fun _ _ _ h hclean hstep => Inv.step h hclean hstep)
    (fun _ => Inv.oneOwner) (fun _ _ => clean_of_oneOwner) (inv_start hinit) es
  constructor
  · intro h
    exact hreached.2 h.1
  · intro halong
    refine ⟨hreached.1 halong, fun es₁ i es₂ t t' hes hrun hstep j buffer hj hb => ?_⟩
    subst hes
    have hinv : Inv n t := Machine.invariant_along (fun _ _ _ h hclean hstep => Inv.step h hclean hstep)
      (inv_start hinit) halong.first hrun
    exact hinv.clear_spares (halong.rest hrun).1 hstep hj hb

/-- The pool of a server with two connections, with sizes of 0 in its configuration. -/
def twoBlocks : JmySessionBufferPool :=
  ⟨.init .send 2 2048, .init .recv 2 2048, .init .maxSend 100 (320 * 1024), .init .maxRecv 100 (320 * 1024)⟩

/-- A connection buffer is cleared twice before its block is handed out again. -/
def clearedTwice : List BufferCall :=
  [.init 0, .switchToLarge 0, .backToNormal 0, .clear 0, .clear 0, .init 1, .init 2, .clear 1]

theorem clearedTwice_oneOwner : ∃ t, poolMachine.run (start twoBlocks) clearedTwice = some t ∧ t.OneOwner 2 := by
  have hclean : poolMachine.Along Clean (start twoBlocks) clearedTwice := by decide
  obtain ⟨t, ht⟩ : ∃ t, poolMachine.run (start twoBlocks) clearedTwice = some t := ⟨_, rfl⟩
  have hinit : JmySessionBufferPool.init 2 0 0 0 0 = some twoBlocks := rfl
  exact ⟨t, ht, ((oneOwner_iff hinit clearedTwice).2 hclean).1 clearedTwice [] t (List.append_nil _).symm ht⟩

/-- The block of connection buffer 0 is given back, handed to connection buffer 1 and given back once more by
connection buffer 0. -/
def clearedLate : List BufferCall := [.init 0, .clear 0, .init 1, .clear 0]

theorem clearedLate_not_oneOwner : ∃ pool, JmySessionBufferPool.init 1 0 0 0 0 = some pool ∧
    ∃ t, poolMachine.run (start pool) clearedLate = some t ∧ ¬t.OneOwner 1 := by
  refine ⟨_, rfl, _, rfl, fun h => ?_⟩
  have hblock : ⟨.send, 0⟩ ∈ blocks 1 .send := by decide
  exact h.not_holds hblock (by decide) 1 (Or.inl (by decide))

end PoolRun

end Pooled

end JmyGame
