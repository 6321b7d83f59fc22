import JmyGame.NetBufferPool
import JmyGame.NetSessionBuffer

/-! `JmyDoubleSessionBuffer` over a pool, with the bytes of its blocks: writes, reads, and the switch between the normal
and the large block. The pool answers the length of one kind of large blocks for the blocks of the other kind, and
`assign` copies what stands behind the unread bytes. -/

namespace JmyGame

open CArith Block

namespace Sized

/-- `JmySessionBuffer`. `len` is the length that the buffer was given, which need not be that of the block. What is
copied into or out of the block beyond its end is not defined. -/
structure JmySessionBuffer where
  buff : Option (List Byte)
  len : ℕ
  writeOffset : ℕ
  readOffset : ℕ
  deriving DecidableEq

namespace JmySessionBuffer

def empty : JmySessionBuffer := ⟨none, 0, 0, 0⟩

def init (block : List Byte) (size : ℕ) : JmySessionBuffer := ⟨some block, size, 0, 0⟩

variable (b : JmySessionBuffer)

/-- The bytes of the block. -/
def mem : List Byte := b.buff.getD []

def isInited : Bool := b.buff.isSome && decide (0 < b.len)

def getWriteLen : ℕ := (b.len + 2 ^ 32 - b.writeOffset) % 2 ^ 32

def getReadLen : ℕ := (b.writeOffset + 2 ^ 32 - b.readOffset) % 2 ^ 32

def unread : List Byte := window b.mem b.readOffset b.writeOffset

/-- `memcpy` to the write offset. -/
def copyIn (data : List Byte) : Option JmySessionBuffer :=
  if b.writeOffset + data.length ≤ b.mem.length then
    some { b with
      buff := b.buff.map fun mem => write mem b.writeOffset data
      writeOffset := b.writeOffset + data.length }
  else none

def writeData (data : List Byte) : Option (Bool × JmySessionBuffer) :=
  if b.getWriteLen < data.length then some (false, b) else (b.copyIn data).map fun b' => (true, b')

def writeDatas (datas : List JmyData) : Option (Bool × JmySessionBuffer) :=
  if datas = [] then some (false, b)
  else if b.getWriteLen < (datas.map List.length).sum % 2 ^ 32 then some (false, b)
  else (datas.foldlM copyIn b).map fun b' => (true, b')

def readLen (len : ℕ) : Bool × JmySessionBuffer :=
  if b.getReadLen < len then (false, b) else (true, { b with readOffset := b.readOffset + len })

def moveDataToFront : Option JmySessionBuffer :=
  if b.readOffset + b.getReadLen ≤ b.mem.length then some { b with
    buff := b.buff.map fun mem => write mem 0 (window mem b.readOffset (b.readOffset + b.getReadLen))
    readOffset := 0
    writeOffset := b.getReadLen }
  else none

/-- `assign`, which copies from the write offset of the other buffer. -/
def assign (buffer : JmySessionBuffer) : Option JmySessionBuffer :=
  let n := buffer.getReadLen
  if n = 0 then some { b with writeOffset := 0, readOffset := 0 }
  else if n ≤ b.mem.length ∧ buffer.writeOffset + n ≤ buffer.mem.length then some { b with
    buff := b.buff.map fun mem => write mem 0 (window buffer.mem buffer.writeOffset (buffer.writeOffset + n))
    writeOffset := n
    readOffset := 0 }
  else none

/-- A block of `size` bytes with a length of `len`, and offsets within both. -/
structure Sound (size len : ℕ) : Prop where
  inited : b.buff.isSome = true
  length_mem : b.mem.length = size
  len_eq : b.len = len
  read_le : b.readOffset ≤ b.writeOffset
  write_le : b.writeOffset ≤ size
  within : b.writeOffset ≤ len

/-- The bytes behind the write offset are the unread bytes once more. -/
def Repeats : Prop :=
  b.writeOffset + b.unread.length ≤ b.mem.length ∧
    window b.mem b.writeOffset (b.writeOffset + b.unread.length) = b.unread

instance : Decidable b.Repeats := inferInstanceAs (Decidable (_ ∧ _))

variable {b} {b' src : JmySessionBuffer} {size len : ℕ}

theorem sound_init {block : List Byte} : (init block len).Sound block.length len :=
  ⟨rfl, rfl, rfl, le_rfl, Nat.zero_le _, Nat.zero_le _⟩

theorem Sound.length_unread (h : b.Sound size len) : b.unread.length = b.writeOffset - b.readOffset := by
  have hwrite := h.write_le
  rw [unread, length_window, h.length_mem, min_eq_left hwrite]

theorem Sound.unread_le (h : b.Sound size len) : b.unread.length ≤ size := by
  have hwrite := h.write_le
  rw [h.length_unread]
  omega

theorem Sound.getReadLen_eq (h : b.Sound size len) (hsize : size < 2 ^ 32) : b.getReadLen = b.unread.length := by
  have hread := h.read_le
  have hwrite := h.write_le
  rw [h.length_unread, getReadLen]
  omega

theorem Sound.getWriteLen_eq (h : b.Sound size len) (hlen : len < 2 ^ 32) :
    b.getWriteLen = len - b.writeOffset := by
  have hwithin := h.within
  rw [getWriteLen, h.len_eq]
  omega

/-- The bytes of a block that is written to. -/
theorem mem_map (hinited : b.buff.isSome = true) (f : List Byte → List Byte) (len wr rd : ℕ) :
    (JmySessionBuffer.mk (b.buff.map f) len wr rd).mem = f b.mem := by
  obtain ⟨mem, hmem⟩ := Option.isSome_iff_exists.1 hinited
  rw [JmySessionBuffer.mem, JmySessionBuffer.mem, hmem]
  rfl

/-- `b'` is `b` with `n` bytes more. -/
structure Grown (b b' : JmySessionBuffer) (n : ℕ) : Prop where
  inited : b'.buff.isSome = true
  size : b'.mem.length = b.mem.length
  len : b'.len = b.len
  readOffset : b'.readOffset = b.readOffset
  writeOffset : b'.writeOffset = b.writeOffset + n
  write_le : b'.writeOffset ≤ b.mem.length

theorem copyIn_grown {data : List Byte} (hinited : b.buff.isSome = true) (h : b.copyIn data = some b') :
    Grown b b' data.length := by
  unfold copyIn at h
  split at h
  · rename_i hfit
    obtain rfl := Option.some.inj h
    refine ⟨?_, ?_, rfl, rfl, rfl, hfit⟩
    · rw [Option.isSome_map]
      exact hinited
    · rw [mem_map hinited]
      exact length_write hfit
  · cases h

theorem foldlM_copyIn_grown {datas : List JmyData} (hinited : b.buff.isSome = true)
    (hwrite : b.writeOffset ≤ b.mem.length) (h : datas.foldlM copyIn b = some b') :
    Grown b b' (datas.map List.length).sum := by
  induction datas generalizing b with
  | nil =>
      obtain rfl := Option.some.inj h
      exact ⟨hinited, rfl, rfl, rfl, rfl, hwrite⟩
  | cons data datas ih =>
      obtain ⟨b₁, hcopy, hrest⟩ := Option.bind_eq_some_iff.1 h
      have hfirst := copyIn_grown hinited hcopy
      have hthen := ih hfirst.inited (hfirst.size.symm ▸ hfirst.write_le) hrest
      refine ⟨hthen.inited, hthen.size.trans hfirst.size, hthen.len.trans hfirst.len,
        hthen.readOffset.trans hfirst.readOffset, ?_, hfirst.size ▸ hthen.write_le⟩
      rw [hthen.writeOffset, hfirst.writeOffset, List.map_cons, List.sum_cons, Nat.add_assoc]

/-- Bytes for which there was room. -/
theorem Sound.grown {n : ℕ} (h : b.Sound size len) (hgrown : Grown b b' n) (hroom : b.writeOffset + n ≤ len) :
    b'.Sound size len where
  inited := hgrown.inited
  length_mem := hgrown.size.trans h.length_mem
  len_eq := hgrown.len.trans h.len_eq
  read_le := by
    have hread := h.read_le
    rw [hgrown.readOffset, hgrown.writeOffset]
    omega
  write_le := h.length_mem ▸ hgrown.write_le
  within := by
    rw [hgrown.writeOffset]
    exact hroom

theorem Sound.writeData (h : b.Sound size len) (hlen : len < 2 ^ 32) {data : List Byte}
    {r : Bool × JmySessionBuffer} (hr : b.writeData data = some r) : r.2.Sound size len := by
  unfold JmySessionBuffer.writeData at hr
  split at hr
  · obtain rfl := Option.some.inj hr
    exact h
  · rename_i hroom
    obtain ⟨b', hcopy, rfl⟩ := Option.map_eq_some_iff.1 hr
    have hwithin := h.within
    refine h.grown (copyIn_grown h.inited hcopy) ?_
    rw [h.getWriteLen_eq hlen] at hroom
    omega

/-- The sum of the lengths wraps only where the pieces do not fit the block. -/
theorem Sound.writeDatas (h : b.Sound size len) (hsize : size < 2 ^ 32) (hlen : len < 2 ^ 32)
    {datas : List JmyData} {r : Bool × JmySessionBuffer} (hr : b.writeDatas datas = some r) :
    r.2.Sound size len := by
  unfold JmySessionBuffer.writeDatas at hr
  split at hr
  · obtain rfl := Option.some.inj hr
    exact h
  split at hr
  · obtain rfl := Option.some.inj hr
    exact h
  · rename_i hroom
    obtain ⟨b', hcopy, rfl⟩ := Option.map_eq_some_iff.1 hr
    have hgrown := foldlM_copyIn_grown h.inited (h.length_mem.symm ▸ h.write_le) hcopy
    have hwithin := h.within
    refine h.grown hgrown ?_
    have hbound := hgrown.write_le
    rw [hgrown.writeOffset, h.length_mem] at hbound
    rw [h.getWriteLen_eq hlen, Nat.mod_eq_of_lt (by omega)] at hroom
    omega

theorem Sound.readLen (h : b.Sound size len) (hsize : size < 2 ^ 32) (n : ℕ) : (b.readLen n).2.Sound size len := by
  unfold JmySessionBuffer.readLen
  split
  · exact h
  · rename_i hroom
    refine ⟨h.inited, h.length_mem, h.len_eq, ?_, h.write_le, h.within⟩
    have hread := h.read_le
    rw [h.getReadLen_eq hsize, h.length_unread] at hroom
    change b.readOffset + n ≤ b.writeOffset
    omega

theorem Sound.moveDataToFront (h : b.Sound size len) (hsize : size < 2 ^ 32) (hr : b.moveDataToFront = some b') :
    b'.Sound size len := by
  unfold JmySessionBuffer.moveDataToFront at hr
  have hread := h.read_le
  have hwrite := h.write_le
  have hwithin := h.within
  rw [h.getReadLen_eq hsize, h.length_unread] at hr
  split at hr
  · rename_i hfit
    obtain rfl := Option.some.inj hr
    refine ⟨?_, ?_, h.len_eq, Nat.zero_le _, ?_, ?_⟩
    · rw [Option.isSome_map]
      exact h.inited
    · rw [mem_map h.inited, length_write]
      · exact h.length_mem
      · rw [length_window]
        omega
    · change b.writeOffset - b.readOffset ≤ size
      omega
    · change b.writeOffset - b.readOffset ≤ len
      omega
  · cases hr

theorem moveDataToFront_empty : empty.moveDataToFront = some empty := by decide

/-- `assign` copies as many bytes as are unread from behind them, where both blocks have room for that. -/
theorem Sound.assign_cases {size' len' : ℕ} (h : b.Sound size len) (hsrc : src.Sound size' len')
    (hsize : size' < 2 ^ 32) (hlen : src.unread.length ≤ size → src.unread.length ≤ len) :
    (src.unread.length ≤ size ∧ src.writeOffset + src.unread.length ≤ src.mem.length ∧ ∃ b',
      b.assign src = some b' ∧ b'.Sound size len ∧
        b'.unread = window src.mem src.writeOffset (src.writeOffset + src.unread.length)) ∨
      ¬(src.unread.length ≤ size ∧ src.writeOffset + src.unread.length ≤ src.mem.length) ∧ b.assign src = none := by
  have hwrite : src.writeOffset ≤ src.mem.length := hsrc.length_mem.symm ▸ hsrc.write_le
  unfold assign
  rw [hsrc.getReadLen_eq hsize, h.length_mem]
  dsimp only
  by_cases hzero : src.unread.length = 0
  · rw [if_pos hzero, hzero]
    refine Or.inl ⟨Nat.zero_le _, hwrite, _, rfl, ?_, ?_⟩
    · exact ⟨h.inited, h.length_mem, h.len_eq, le_rfl, Nat.zero_le _, Nat.zero_le _⟩
    · rw [window, List.drop_take, Nat.add_zero, Nat.sub_self, List.take_zero]
      rfl
  rw [if_neg hzero]
  by_cases hfit : src.unread.length ≤ size ∧ src.writeOffset + src.unread.length ≤ src.mem.length
  · rw [if_pos hfit]
    generalize hpiece : window src.mem src.writeOffset (src.writeOffset + src.unread.length) = piece
    have hlength : piece.length = src.unread.length := by
      rw [← hpiece, length_window, min_eq_left hfit.2, Nat.add_sub_cancel_left]
    have hroom : 0 + piece.length ≤ b.mem.length := by
      rw [Nat.zero_add, hlength, h.length_mem]
      exact hfit.1
    refine Or.inl ⟨hfit.1, hfit.2, _, rfl, ⟨?_, ?_, h.len_eq, Nat.zero_le _, hfit.1, hlen hfit.1⟩, ?_⟩
    · rw [Option.isSome_map]
      exact h.inited
    · rw [mem_map h.inited, length_write hroom]
      exact h.length_mem
    · rw [unread, mem_map h.inited, ← hlength, ← Nat.zero_add piece.length,
        window_write le_rfl (Nat.zero_le _)]
      rfl
  · rw [if_neg hfit]
    exact Or.inr ⟨hfit, rfl⟩

end JmySessionBuffer

open Pooled (SessionBufferType JmySessionBufferPool)

structure JmyDoubleSessionBuffer where
  useLarge : Bool
  buff : JmySessionBuffer
  largeBuff : JmySessionBuffer
  deriving DecidableEq

/-- Bytes from a socket, which stand behind the write offset before `writeLen` counts them, are a `writeData`. -/
inductive BufferEvent where
  | writeData (data : List Byte)
  | writeDatas (datas : List JmyData)
  | readLen (n : ℕ)
  | moveDataToFront
  | switchToLarge (block : Option (List Byte))
  | backToNormal
  deriving DecidableEq

/-- The size of the normal blocks. -/
def normalSize (pool : JmySessionBufferPool) (type : SessionBufferType) : ℕ :=
  if type = .recv then pool.recvBufferPool.fixedSize else pool.sendBufferPool.fixedSize

/-- The size of the large blocks. -/
def largeSize (pool : JmySessionBufferPool) (type : SessionBufferType) : ℕ :=
  if type = .send then pool.maxSendBufferPool.fixedSize else pool.maxRecvBufferPool.fixedSize

/-- The length that the pool answers for a large block. -/
def largeLen (pool : JmySessionBufferPool) (type : SessionBufferType) : ℕ :=
  if type = .send then pool.maxRecvBufferPool.fixedSize else pool.maxSendBufferPool.fixedSize

theorem malloc_largeLen (pool : JmySessionBufferPool) (type : SessionBufferType) :
    ∀ r ∈ if type = .send then pool.mallocLargeSendBuffer else pool.mallocLargeRecvBuffer,
      r.2.1 = largeLen pool type := by
  intro r hr
  unfold largeLen
  split_ifs at hr ⊢ with htype
  · obtain ⟨p, -, rfl⟩ := Option.map_eq_some_iff.1 hr
    rfl
  · obtain ⟨p, -, rfl⟩ := Option.map_eq_some_iff.1 hr
    rfl

namespace JmyDoubleSessionBuffer

/-- `init` with a block of the pool. -/
def init (pool : JmySessionBufferPool) (type : SessionBufferType) (block : List Byte) : JmyDoubleSessionBuffer :=
  ⟨false, .init block (normalSize pool type), .empty⟩

variable (d : JmyDoubleSessionBuffer)

/-- `getSessionBuffer`. -/
def getSessionBuffer : JmySessionBuffer := if d.useLarge then d.largeBuff else d.buff

def setSessionBuffer (b : JmySessionBuffer) : JmyDoubleSessionBuffer :=
  if d.useLarge then { d with largeBuff := b } else { d with buff := b }

def unread : List Byte := d.getSessionBuffer.unread

/-- `moveDataToFront`. Behind the data of the normal block, that of the large one is moved, too. -/
def moveDataToFront : Option JmyDoubleSessionBuffer :=
  (if d.useLarge then some d.buff else d.buff.moveDataToFront).bind fun b =>
    d.largeBuff.moveDataToFront.map fun large => { d with buff := b, largeBuff := large }

/-- `switchToLarge`, with the block that the pool has for it and the length that the pool answers. -/
def switchToLarge (len : ℕ) (block : Option (List Byte)) : Option (Bool × JmyDoubleSessionBuffer) :=
  if d.useLarge then some (true, d)
  else
    match if d.largeBuff.isInited then some d.largeBuff else block.map (JmySessionBuffer.init · len) with
    | none => some (false, d)
    | some large => (large.assign d.buff).map fun large' => (true, { d with largeBuff := large', useLarge := true })

/-- `backToNormal`. -/
def backToNormal : Option (Bool × JmyDoubleSessionBuffer) :=
  if d.useLarge then
    (d.buff.assign d.largeBuff).map fun b => (true, { d with buff := b, largeBuff := .empty, useLarge := false })
  else some (true, d)

/-- One call. The pool has large blocks of its size only. -/
def call (pool : JmySessionBufferPool) (type : SessionBufferType) : BufferEvent → Option (Bool × JmyDoubleSessionBuffer)
  | .writeData data => (d.getSessionBuffer.writeData data).map fun r => (r.1, d.setSessionBuffer r.2)
  | .writeDatas datas => (d.getSessionBuffer.writeDatas datas).map fun r => (r.1, d.setSessionBuffer r.2)
  | .readLen n => some ((d.getSessionBuffer.readLen n).1, d.setSessionBuffer (d.getSessionBuffer.readLen n).2)
  | .moveDataToFront => d.moveDataToFront.map fun d' => (true, d')
  | .switchToLarge block =>
    if ∀ b ∈ block, b.length = largeSize pool type then d.switchToLarge (largeLen pool type) block else none
  | .backToNormal => d.backToNormal

end JmyDoubleSessionBuffer

def bufferMachine (pool : JmySessionBufferPool) (type : SessionBufferType) :
    Machine JmyDoubleSessionBuffer BufferEvent :=
  ⟨fun d e => (d.call pool type e).map Prod.snd⟩

namespace JmyDoubleSessionBuffer

/-- The result of a switch to a block of `target` bytes. Unread bytes that do not fit are refused; behind a successful
switch they are the same, the length is that of the block, and the offsets are within it. -/
def SwitchKeeps (d : JmyDoubleSessionBuffer) (target : ℕ) (r : Option (Bool × JmyDoubleSessionBuffer)) : Prop :=
  ∃ ok d', r = some (ok, d') ∧ (target < d.unread.length → ok = false ∧ d' = d) ∧
    (ok = true → d'.unread = d.unread ∧ d'.getSessionBuffer.len = d'.getSessionBuffer.mem.length ∧
      d'.getSessionBuffer.readOffset ≤ d'.getSessionBuffer.writeOffset ∧
      d'.getSessionBuffer.writeOffset ≤ d'.getSessionBuffer.len)

variable (pool : JmySessionBufferPool) (type : SessionBufferType) (d : JmyDoubleSessionBuffer)

/-- The switches keep the data. -/
def Keeps : BufferEvent → Prop
  | .switchToLarge block =>
    d.SwitchKeeps (if d.useLarge then d.largeBuff.mem.length else largeSize pool type)
      (d.call pool type (.switchToLarge block))
  | .backToNormal => d.SwitchKeeps d.buff.mem.length (d.call pool type .backToNormal)
  | _ => True

/-- A call that comes to use the large block, or to use it still, needs the two kinds of large blocks to have the same
size. What is copied has to fit, and the bytes behind it have to repeat it. -/
def Careful : BufferEvent → Prop
  | .switchToLarge block =>
    if d.useLarge then pool.maxSendBufferPool.fixedSize = pool.maxRecvBufferPool.fixedSize
    else block = none ∨ pool.maxSendBufferPool.fixedSize = pool.maxRecvBufferPool.fixedSize ∧ d.buff.Repeats
  | .backToNormal =>
    d.useLarge = true → d.largeBuff.unread.length ≤ d.buff.mem.length ∧ d.largeBuff.Repeats
  | _ => True

end JmyDoubleSessionBuffer

/-- The pool has large blocks of its size only. -/
def FromPool (pool : JmySessionBufferPool) (type : SessionBufferType) : BufferEvent → Prop
  | .switchToLarge block => ∀ b ∈ block, b.length = largeSize pool type
  | _ => True

/-- The sizes of a pool that was initialised. -/
structure Bounds (pool : JmySessionBufferPool) (type : SessionBufferType) : Prop where
  normal_le : normalSize pool type ≤ 4096
  le_large : 4096 ≤ largeSize pool type
  large_lt : largeSize pool type < 2 ^ 32
  le_largeLen : 4096 ≤ largeLen pool type
  largeLen_lt : largeLen pool type < 2 ^ 32

theorem roundSize_bounds {size limit r : ℕ} (h : JmySessionBufferPool.roundSize size limit = some r) :
    limit / 2 ≤ r ∧ r ≤ limit := by
  unfold JmySessionBufferPool.roundSize at h
  split at h
  · obtain rfl := Option.some.inj h
    omega
  · split at h
    · obtain rfl := Option.some.inj h
      omega
    · cases h

theorem bounds_of_init {n : ℤ} {a b c d : ℕ} {pool : JmySessionBufferPool}
    (hinit : JmySessionBufferPool.init n a b c d = some pool) (type : SessionBufferType) : Bounds pool type := by
  obtain ⟨minSend, hminSend, hinit⟩ := Option.bind_eq_some_iff.1 hinit
  obtain ⟨minRecv, hminRecv, hinit⟩ := Option.bind_eq_some_iff.1 hinit
  obtain ⟨maxSend, hmaxSend, hinit⟩ := Option.bind_eq_some_iff.1 hinit
  obtain ⟨maxRecv, hmaxRecv, hinit⟩ := Option.bind_eq_some_iff.1 hinit
  obtain rfl := Option.some.inj hinit
  have hsend : minSend ≤ 4096 := (roundSize_bounds hminSend).2
  have hrecv : minRecv ≤ 4096 := (roundSize_bounds hminRecv).2
  have hlargeSend : 327680 ≤ maxSend ∧ maxSend ≤ 655360 := roundSize_bounds hmaxSend
  have hlargeRecv : 327680 ≤ maxRecv ∧ maxRecv ≤ 655360 := roundSize_bounds hmaxRecv
  refine ⟨?_, ?_, ?_, ?_, ?_⟩
  · unfold normalSize
    split_ifs
    · exact hrecv
    · exact hsend
  all_goals
    simp only [largeSize, largeLen, Pooled.FixedSizeBufferPool.init]
    split_ifs <;> omega

theorem largeLen_eq_iff (pool : JmySessionBufferPool) (type : SessionBufferType) :
    largeLen pool type = largeSize pool type ↔
      pool.maxSendBufferPool.fixedSize = pool.maxRecvBufferPool.fixedSize := by
  unfold largeLen largeSize
  split_ifs
  · exact eq_comm
  · rfl

namespace JmyDoubleSessionBuffer

variable {pool : JmySessionBufferPool} {type : SessionBufferType} {d d' : JmyDoubleSessionBuffer} {e : BufferEvent}

/-- Both blocks are sound, and there is a large one only while it is in use. -/
structure Inv (pool : JmySessionBufferPool) (type : SessionBufferType) (d : JmyDoubleSessionBuffer) : Prop where
  normal : d.buff.Sound (normalSize pool type) (normalSize pool type)
  large : d.useLarge = true → d.largeBuff.Sound (largeSize pool type) (largeLen pool type)
  unused : d.useLarge = false → d.largeBuff = .empty

theorem inv_init {block : List Byte} (hblock : block.length = normalSize pool type) :
    Inv pool type (init pool type block) where
  normal := ⟨rfl, hblock, rfl, le_rfl, Nat.zero_le _, Nat.zero_le _⟩
  large := nofun
  unused := fun _ => rfl

/-- A call that works on the block in use. -/
theorem Inv.setSessionBuffer (h : Inv pool type d) {b : JmySessionBuffer}
    (hb : ∀ size len, size < 2 ^ 32 → len < 2 ^ 32 → d.getSessionBuffer.Sound size len → b.Sound size len)
    (hbounds : Bounds pool type) : Inv pool type (d.setSessionBuffer b) := by
  have hnormal := hbounds.normal_le
  have hlt : normalSize pool type < 2 ^ 32 := by omega
  unfold getSessionBuffer at hb
  unfold JmyDoubleSessionBuffer.setSessionBuffer
  by_cases hlarge : d.useLarge = true
  · rw [if_pos hlarge] at hb ⊢
    refine ⟨h.normal, fun _ => hb _ _ hbounds.large_lt hbounds.largeLen_lt (h.large hlarge), fun hnot => ?_⟩
    exact absurd hlarge (Bool.eq_false_iff.1 hnot)
  · rw [if_neg hlarge] at hb ⊢
    exact ⟨hb _ _ hlt hlt h.normal, h.large, h.unused⟩

theorem Inv.moveDataToFront (h : Inv pool type d) (hbounds : Bounds pool type) (hd : d.moveDataToFront = some d') :
    Inv pool type d' := by
  have hnormal := hbounds.normal_le
  unfold JmyDoubleSessionBuffer.moveDataToFront at hd
  obtain ⟨b, hb, hrest⟩ := Option.bind_eq_some_iff.1 hd
  obtain ⟨large, hlarge, rfl⟩ := Option.map_eq_some_iff.1 hrest
  refine ⟨?_, fun huse => (h.large huse).moveDataToFront hbounds.large_lt hlarge, fun huse => ?_⟩
  · split at hb
    · obtain rfl := Option.some.inj hb
      exact h.normal
    · exact h.normal.moveDataToFront (by omega) hb
  · rw [h.unused huse, JmySessionBuffer.moveDataToFront_empty] at hlarge
    exact (Option.some.inj hlarge).symm

/-- What `switchToLarge` does with a block, or without one. -/
theorem Inv.switchToLarge_cases (h : Inv pool type d) (hbounds : Bounds pool type) {block : Option (List Byte)}
    (hblock : ∀ b ∈ block, b.length = largeSize pool type) :
    (d.useLarge = true ∨ block = none) ∧ d.switchToLarge (largeLen pool type) block = some (d.useLarge, d) ∨
      d.useLarge = false ∧ block ≠ none ∧
        (d.buff.writeOffset + d.buff.unread.length ≤ d.buff.mem.length ∧ (∃ large,
          d.switchToLarge (largeLen pool type) block = some (true, { d with largeBuff := large, useLarge := true }) ∧
            large.Sound (largeSize pool type) (largeLen pool type) ∧ large.unread =
              window d.buff.mem d.buff.writeOffset (d.buff.writeOffset + d.buff.unread.length)) ∨
          ¬d.buff.writeOffset + d.buff.unread.length ≤ d.buff.mem.length ∧
            d.switchToLarge (largeLen pool type) block = none) := by
  obtain ⟨hnormal, hlarge, hlt, hlen, -⟩ := hbounds
  unfold switchToLarge
  cases huse : d.useLarge with
  | true => exact Or.inl ⟨Or.inl rfl, rfl⟩
  | false =>
      rw [if_neg Bool.false_ne_true, h.unused huse, if_neg (show ¬JmySessionBuffer.empty.isInited = true by decide)]
      cases block with
      | none => exact Or.inl ⟨Or.inr rfl, rfl⟩
      | some mem =>
          refine Or.inr ⟨rfl, nofun, ?_⟩
          have hsound : (JmySessionBuffer.init mem (largeLen pool type)).Sound (largeSize pool type)
              (largeLen pool type) := hblock mem rfl ▸ JmySessionBuffer.sound_init
          have hunread := h.normal.unread_le
          dsimp only [Option.map_some]
          obtain ⟨-, hfit, large, heq, hafter, hbytes⟩ | ⟨hnot, heq⟩ :=
            hsound.assign_cases h.normal (by omega) (fun _ => by omega)
          · rw [heq]
            exact Or.inl ⟨hfit, large, rfl, hafter, hbytes⟩
          · rw [heq]
            exact Or.inr ⟨fun hfit => hnot ⟨by omega, hfit⟩, rfl⟩

/-- What `backToNormal` does. -/
theorem Inv.backToNormal_cases (h : Inv pool type d) (hbounds : Bounds pool type) :
    d.useLarge = false ∧ d.backToNormal = some (true, d) ∨
      d.useLarge = true ∧
        ((d.largeBuff.unread.length ≤ d.buff.mem.length ∧
            d.largeBuff.writeOffset + d.largeBuff.unread.length ≤ d.largeBuff.mem.length) ∧ (∃ b,
          d.backToNormal = some (true, { d with buff := b, largeBuff := .empty, useLarge := false }) ∧
            b.Sound (normalSize pool type) (normalSize pool type) ∧ b.unread =
              window d.largeBuff.mem d.largeBuff.writeOffset (d.largeBuff.writeOffset + d.largeBuff.unread.length)) ∨
          ¬(d.largeBuff.unread.length ≤ d.buff.mem.length ∧
            d.largeBuff.writeOffset + d.largeBuff.unread.length ≤ d.largeBuff.mem.length) ∧
            d.backToNormal = none) := by
  unfold backToNormal
  cases huse : d.useLarge with
  | false => exact Or.inl ⟨rfl, rfl⟩
  | true =>
      refine Or.inr ⟨rfl, ?_⟩
      rw [if_pos rfl, h.normal.length_mem]
      obtain ⟨hsize, hfit, b, heq, hafter, hbytes⟩ | ⟨hnot, heq⟩ :=
        h.normal.assign_cases (h.large huse) hbounds.large_lt id
      · rw [heq]
        exact Or.inl ⟨⟨hsize, hfit⟩, b, rfl, hafter, hbytes⟩
      · rw [heq]
        exact Or.inr ⟨hnot, rfl⟩

theorem Inv.call (h : Inv pool type d) (hbounds : Bounds pool type) {r : Bool × JmyDoubleSessionBuffer}
    (hr : d.call pool type e = some r) : Inv pool type r.2 := by
  cases e with
  | writeData data =>
      obtain ⟨r, hwrite, rfl⟩ := Option.map_eq_some_iff.1 hr
      exact h.setSessionBuffer (fun _ _ _ hlen hb => hb.writeData hlen hwrite) hbounds
  | writeDatas datas =>
      obtain ⟨r, hwrite, rfl⟩ := Option.map_eq_some_iff.1 hr
      exact h.setSessionBuffer (fun _ _ hsize hlen hb => hb.writeDatas hsize hlen hwrite) hbounds
  | readLen n =>
      obtain rfl := Option.some.inj hr
      exact h.setSessionBuffer (fun _ _ hsize _ hb => hb.readLen hsize n) hbounds
  | moveDataToFront =>
      obtain ⟨d', hmove, rfl⟩ := Option.map_eq_some_iff.1 hr
      exact h.moveDataToFront hbounds hmove
  | switchToLarge block =>
      by_cases hblock : ∀ b ∈ block, b.length = largeSize pool type
      · rw [JmyDoubleSessionBuffer.call, if_pos hblock] at hr
        obtain ⟨-, heq⟩ | ⟨-, -, ⟨-, large, heq, hlarge, -⟩ | ⟨-, heq⟩⟩ := h.switchToLarge_cases hbounds hblock
        · obtain rfl := Option.some.inj (heq.symm.trans hr)
          exact h
        · obtain rfl := Option.some.inj (heq.symm.trans hr)
          exact ⟨h.normal, fun _ => hlarge, nofun⟩
        · cases heq.symm.trans hr
      · rw [JmyDoubleSessionBuffer.call, if_neg hblock] at hr
        cases hr
  | backToNormal =>
      obtain ⟨-, heq⟩ | ⟨-, ⟨-, b, heq, hb, -⟩ | ⟨-, heq⟩⟩ := h.backToNormal_cases hbounds
      · obtain rfl := Option.some.inj (heq.symm.trans hr)
        exact h
      · obtain rfl := Option.some.inj (heq.symm.trans hr)
        exact ⟨hb, nofun, fun _ => rfl⟩
      · cases heq.symm.trans hr

/-- The invariant holds in every state that a run reaches. -/
theorem Inv.run {es : List BufferEvent} (h : Inv pool type d) (hbounds : Bounds pool type)
    (hrun : (bufferMachine pool type).run d es = some d') : Inv pool type d' := by
  refine Machine.invariant_run (fun s e s' hs hstep => ?_) h hrun
  obtain ⟨r, hr, rfl⟩ := Option.map_eq_some_iff.1 hstep
  exact hs.call hbounds hr

/-- A switch that is done, with a sound block in use behind it. -/
theorem switchKeeps_done {size len target : ℕ} (hsound : d'.getSessionBuffer.Sound size len)
    (hfit : d.unread.length ≤ target) :
    d.SwitchKeeps target (some (true, d')) ↔ len = size ∧ d'.unread = d.unread := by
  constructor
  · rintro ⟨ok, d'', heq, -, hkeeps⟩
    obtain ⟨rfl, rfl⟩ := Prod.mk.inj (Option.some.inj heq)
    obtain ⟨hunread, hlen, -⟩ := hkeeps rfl
    rw [hsound.len_eq, hsound.length_mem] at hlen
    exact ⟨hlen, hunread⟩
  · rintro ⟨hlen, hunread⟩
    refine ⟨true, d', rfl, fun hlt => absurd hfit (not_le.2 hlt), fun _ => ⟨hunread, ?_, hsound.read_le, ?_⟩⟩
    · rw [hsound.len_eq, hsound.length_mem, hlen]
    · rw [hsound.len_eq]
      exact hsound.within

theorem not_switchKeeps_none {target : ℕ} : ¬d.SwitchKeeps target none := by
  rintro ⟨ok, d', heq, -⟩
  cases heq

theorem Inv.switchToLarge_keeps_iff (h : Inv pool type d) (hbounds : Bounds pool type) {block : Option (List Byte)}
    (hblock : ∀ b ∈ block, b.length = largeSize pool type) :
    d.Keeps pool type (.switchToLarge block) ↔ d.Careful pool (.switchToLarge block) := by
  unfold Keeps Careful
  dsimp only
  rw [JmyDoubleSessionBuffer.call, if_pos hblock, ← largeLen_eq_iff pool type]
  cases huse : d.useLarge with
  | true =>
      have hget : d.getSessionBuffer = d.largeBuff := if_pos huse
      have hsound := h.large huse
      obtain ⟨-, heq⟩ | ⟨hnot, -⟩ := h.switchToLarge_cases hbounds hblock
      · have hfits : d.unread.length ≤ largeSize pool type := by
          rw [unread, hget]
          exact hsound.unread_le
        rw [heq, huse, if_pos rfl, if_pos rfl, hsound.length_mem, switchKeeps_done (hget.symm ▸ hsound) hfits]
        exact and_iff_left rfl
      · exact absurd (huse.symm.trans hnot) Bool.true_eq_false.mp
  | false =>
      have hget : d.getSessionBuffer = d.buff := if_neg (huse ▸ Bool.false_ne_true)
      rw [if_neg Bool.false_ne_true, if_neg Bool.false_ne_true]
      obtain ⟨hor, heq⟩ | ⟨-, hsome, ⟨hfit, large, heq, hsound, hbytes⟩ | ⟨hnot, heq⟩⟩ :=
        h.switchToLarge_cases hbounds hblock
      · rw [heq, huse]
        refine iff_of_true ⟨false, d, rfl, fun _ => ⟨rfl, rfl⟩, nofun⟩ (Or.inl ?_)
        exact hor.resolve_left (huse ▸ Bool.false_ne_true)
      · have hafter : JmyDoubleSessionBuffer.getSessionBuffer { d with largeBuff := large, useLarge := true } = large :=
          rfl
        have hfits : d.unread.length ≤ largeSize pool type := by
          rw [unread, hget]
          exact (h.normal.unread_le.trans hbounds.normal_le).trans hbounds.le_large
        rw [heq, switchKeeps_done (hafter.symm ▸ hsound) hfits, or_iff_right hsome, unread, unread, hafter, hget,
          hbytes]
        exact and_congr_right fun _ => (and_iff_right hfit).symm
      · rw [heq, or_iff_right hsome]
        exact iff_of_false not_switchKeeps_none fun hcareful => hnot hcareful.2.1

theorem Inv.backToNormal_keeps_iff (h : Inv pool type d) (hbounds : Bounds pool type) :
    d.Keeps pool type .backToNormal ↔ d.Careful pool .backToNormal := by
  change d.SwitchKeeps d.buff.mem.length d.backToNormal ↔ (d.useLarge = true → _)
  obtain ⟨huse, heq⟩ | ⟨huse, ⟨⟨hroom, hfit⟩, b, heq, hsound, hbytes⟩ | ⟨hnot, heq⟩⟩ := h.backToNormal_cases hbounds
  · have hget : d.getSessionBuffer = d.buff := if_neg (huse ▸ Bool.false_ne_true)
    have hfits : d.unread.length ≤ d.buff.mem.length := by
      rw [unread, hget, h.normal.length_mem]
      exact h.normal.unread_le
    rw [heq, switchKeeps_done (hget.symm ▸ h.normal) hfits]
    exact iff_of_true ⟨rfl, rfl⟩ fun hlarge => absurd (huse.symm.trans hlarge) Bool.false_ne_true
  · have hget : d.getSessionBuffer = d.largeBuff := if_pos huse
    have hafter : JmyDoubleSessionBuffer.getSessionBuffer { d with buff := b, largeBuff := .empty, useLarge := false } =
        b := rfl
    have hfits : d.unread.length ≤ d.buff.mem.length := by
      rw [unread, hget]
      exact hroom
    rw [heq, switchKeeps_done (hafter.symm ▸ hsound) hfits, unread, unread, hafter, hget, hbytes]
    constructor
    · rintro ⟨-, hsame⟩ -
      exact ⟨hroom, hfit, hsame⟩
    · intro hcareful
      exact ⟨rfl, (hcareful huse).2.2⟩
  · rw [heq]
    refine iff_of_false not_switchKeeps_none fun hcareful => hnot ?_
    exact ⟨(hcareful huse).1, (hcareful huse).2.1⟩

theorem Inv.keeps_iff (h : Inv pool type d) (hbounds : Bounds pool type) (he : FromPool pool type e) :
    d.Keeps pool type e ↔ d.Careful pool e := by
  cases e with
  | switchToLarge block => exact h.switchToLarge_keeps_iff hbounds he
  | backToNormal => exact h.backToNormal_keeps_iff hbounds
  | writeData | writeDatas | readLen | moveDataToFront => exact Iff.rfl

end JmyDoubleSessionBuffer

/-- In every state that a run reaches, over every pool that `init` accepts, a switch keeps the data exactly when it is a
careful one. -/
theorem switch_keeps_iff {n : ℤ} {a b c d : ℕ} {pool : JmySessionBufferPool}
    (hinit : JmySessionBufferPool.init n a b c d = some pool) {type : SessionBufferType} {block : List Byte}
    (hblock : block.length = normalSize pool type) {es : List BufferEvent} {t : JmyDoubleSessionBuffer}
    (hrun : (bufferMachine pool type).run (.init pool type block) es = some t) {e : BufferEvent}
    (he : FromPool pool type e) : t.Keeps pool type e ↔ t.Careful pool e := by
  have hbounds := bounds_of_init hinit type
  exact ((JmyDoubleSessionBuffer.inv_init hblock).run hbounds hrun).keeps_iff hbounds he

open Pooled.PoolRun (twoBlocks)

/-- A block of the send buffer, whose second byte is given. -/
def blockWith (next : Byte) : List Byte := 0 :: next :: List.replicate 2046 0

/-- The buffer to send with one byte written to the block. -/
def oneByte (next : Byte) : JmyDoubleSessionBuffer :=
  ⟨false, ⟨some (7 :: next :: List.replicate 2046 0), 2048, 1, 0⟩, .empty⟩

theorem length_blockWith (next : Byte) : (blockWith next).length = 2048 := by
  simp only [blockWith, List.length_cons, List.length_replicate]

theorem run_oneByte (next : Byte) :
    (bufferMachine twoBlocks .send).run (.init twoBlocks .send (blockWith next)) [.writeData [7]] =
      some (oneByte next) := by
  have hroom : 0 + [(7 : Byte)].length ≤ (JmySessionBuffer.init (blockWith next) 2048).mem.length := by
    change 1 ≤ (blockWith next).length
    rw [length_blockWith]
    decide
  have hcopy : (JmySessionBuffer.init (blockWith next) 2048).copyIn [7] = some (oneByte next).buff := if_pos hroom
  have hlen : (JmySessionBuffer.init (blockWith next) 2048).getWriteLen = 2048 := by
    simp only [JmySessionBuffer.getWriteLen, JmySessionBuffer.init]
    norm_num
  have hwritable : ¬(JmySessionBuffer.init (blockWith next) 2048).getWriteLen < [(7 : Byte)].length := by
    rw [hlen]
    decide
  have hwrite : (JmySessionBuffer.init (blockWith next) 2048).writeData [7] = some (true, (oneByte next).buff) := by
    rw [JmySessionBuffer.writeData, if_neg hwritable, hcopy, Option.map_some]
  have hget : (JmyDoubleSessionBuffer.init twoBlocks .send (blockWith next)).getSessionBuffer =
      .init (blockWith next) 2048 := rfl
  have hstep : (bufferMachine twoBlocks .send).step (.init twoBlocks .send (blockWith next)) (.writeData [7]) =
      some (oneByte next) := by
    simp only [bufferMachine, JmyDoubleSessionBuffer.call, hget, hwrite]
    rfl
  exact (Machine.run_cons_eq_some _).2 ⟨_, hstep, rfl⟩

/-- A large block of the pool. -/
theorem fromPool_zeros : FromPool twoBlocks .send (.switchToLarge (some (List.replicate (320 * 1024) 0))) := by
  intro b hb
  obtain rfl := Option.some.inj hb
  exact List.length_replicate

/-- The unread byte is there a second time behind the write offset. -/
theorem oneByte_repeated_keeps : ∃ t,
    (bufferMachine twoBlocks .send).run (.init twoBlocks .send (blockWith 7)) [.writeData [7]] = some t ∧
      t.unread = [7] ∧ t.Keeps twoBlocks .send (.switchToLarge (some (List.replicate (320 * 1024) 0))) := by
  have hinit : JmySessionBufferPool.init 2 0 0 0 0 = some twoBlocks := rfl
  have hrun := run_oneByte 7
  refine ⟨oneByte 7, hrun, rfl, (switch_keeps_iff hinit (length_blockWith 7) hrun fromPool_zeros).2 ?_⟩
  refine Or.inr ⟨rfl, ?_, rfl⟩
  change 2 ≤ (7 :: 7 :: List.replicate 2046 (0 : Byte)).length
  exact Nat.le_add_left 2 _

/-- The unread byte is replaced by the one behind it. -/
theorem oneByte_lost : ∃ pool, JmySessionBufferPool.init 2 0 0 0 0 = some pool ∧ ∃ t,
    (bufferMachine pool .send).run (.init pool .send (List.replicate 2048 0)) [.writeData [7]] = some t ∧
      FromPool pool .send (.switchToLarge (some (List.replicate (320 * 1024) 0))) ∧
      ¬t.Keeps pool .send (.switchToLarge (some (List.replicate (320 * 1024) 0))) := by
  have hbounds : Bounds twoBlocks .send := bounds_of_init (n := 2) (a := 0) (b := 0) (c := 0) (d := 0) rfl .send
  have hrun : (bufferMachine twoBlocks .send).run (.init twoBlocks .send (List.replicate 2048 0)) [.writeData [7]] =
      some (oneByte 0) := run_oneByte 0
  have hinv := (JmyDoubleSessionBuffer.inv_init List.length_replicate).run hbounds hrun
  refine ⟨twoBlocks, rfl, oneByte 0, hrun, fromPool_zeros, fun hkeeps => ?_⟩
  obtain hnone | ⟨-, -, hbytes⟩ := (hinv.keeps_iff hbounds fromPool_zeros).1 hkeeps
  · cases hnone
  · cases hbytes

end Sized

end JmyGame
