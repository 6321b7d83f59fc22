import JmyGame.NetProto2
import JmyGame.LibBlock

/-! The send and receive buffers of a connection: the fixed block `JmySessionBuffer`, the pair of a
normal and a large block `JmyDoubleSessionBuffer`, and the list of allocated packets
`JmySessionBufferList`. Lengths are natural numbers with the wrap of the C type written out where a
length is narrowed. -/

namespace JmyGame

open CArith Block

/-- `JmyData`: a pointer and its length. -/
abbrev JmyData := List Byte

/-- `JmySessionBuffer`: a block of `len_` bytes with a read and a write offset. -/
structure JmySessionBuffer where
  buff : List Byte
  writeOffset : ℕ
  readOffset : ℕ
  read_le : readOffset ≤ writeOffset
  write_le : writeOffset ≤ buff.length
  len_lt : buff.length < 2 ^ 32
  deriving DecidableEq

namespace JmySessionBuffer

/-- A block that was never initialised. -/
def empty : JmySessionBuffer := ⟨[], 0, 0, le_rfl, le_rfl, by decide⟩

/-- `init(size)`: a block of its own, whose bytes are not read before they are written. -/
def init (size : ℕ) (h : size < 2 ^ 32) : JmySessionBuffer :=
  ⟨List.replicate size 0, 0, 0, le_rfl, Nat.zero_le _, by rwa [List.length_replicate]⟩

def getWriteLen (b : JmySessionBuffer) : ℕ := b.buff.length - b.writeOffset

def getReadLen (b : JmySessionBuffer) : ℕ := b.writeOffset - b.readOffset

/-- The bytes between the offsets, which `getReadBuff` and `getReadLen` expose. -/
def unread (b : JmySessionBuffer) : List Byte := window b.buff b.readOffset b.writeOffset

def clear (b : JmySessionBuffer) : JmySessionBuffer :=
  ⟨b.buff, 0, 0, le_rfl, Nat.zero_le _, b.len_lt⟩

/-- `memcpy(buff_ + write_offset_, data, len)` and the advance of the offset; undefined when the
copy leaves the block. -/
def copyIn (b : JmySessionBuffer) (data : List Byte) : Option JmySessionBuffer :=
  if h : b.writeOffset + data.length ≤ b.buff.length then
    some ⟨write b.buff b.writeOffset data, b.writeOffset + data.length, b.readOffset,
      b.read_le.trans (Nat.le_add_right _ _), by rwa [length_write h], by
        rw [length_write h]
        exact b.len_lt⟩
  else none

def readLen (b : JmySessionBuffer) (len : ℕ) : Bool × JmySessionBuffer :=
  if h : b.getReadLen < len then (false, b)
  else (true, ⟨b.buff, b.writeOffset, b.readOffset + len, by
    have := b.read_le
    simp only [getReadLen] at h
    omega, b.write_le, b.len_lt⟩)

/-- `writeData(const char*, unsigned int)`. The check makes the copy defined. -/
def writeData (b : JmySessionBuffer) (data : List Byte) : Bool × JmySessionBuffer :=
  if b.getWriteLen < data.length then (false, b)
  else match b.copyIn data with
  | some b' => (true, b')
  | none => (false, b)

/-- `writeData(JmyData*, int)`. The check is made on a sum that wraps at `2 ^ 32`, and the copies are
not checked again. -/
def writeDatas (b : JmySessionBuffer) (datas : List JmyData) : Option (Bool × JmySessionBuffer) :=
  if datas = [] then some (false, b)
  else if b.getWriteLen < (datas.map List.length).sum % 2 ^ 32 then some (false, b)
  else (datas.foldlM copyIn b).map fun b' => (true, b')

theorem copyIn_eq_none {b : JmySessionBuffer} {data : List Byte} :
    b.copyIn data = none ↔ b.getWriteLen < data.length := by
  have := b.write_le
  simp only [copyIn, dite_eq_right_iff, reduceCtorEq, imp_false, getWriteLen]
  omega

/-- A defined copy appends to the unread bytes and takes room. -/
theorem copyIn_spec {b b' : JmySessionBuffer} {data : List Byte} (h : b.copyIn data = some b') :
    b'.unread = b.unread ++ data ∧ b'.getWriteLen = b.getWriteLen - data.length := by
  rw [copyIn] at h
  split at h
  · rename_i hfit
    cases h
    refine ⟨window_write b.read_le b.write_le, ?_⟩
    simp only [getWriteLen, length_write hfit]
    omega
  · cases h

theorem writeData_spec (b : JmySessionBuffer) (data : List Byte) :
    (b.getWriteLen < data.length ∧ b.writeData data = (false, b)) ∨
    (data.length ≤ b.getWriteLen ∧ ∃ b', b.writeData data = (true, b') ∧
      b'.unread = b.unread ++ data) := by
  by_cases h : b.getWriteLen < data.length
  · exact Or.inl ⟨h, if_pos h⟩
  · refine Or.inr ⟨not_lt.1 h, ?_⟩
    obtain ⟨b', hb'⟩ := Option.ne_none_iff_exists'.1 (mt copyIn_eq_none.1 h)
    refine ⟨b', ?_, (copyIn_spec hb').1⟩
    rw [writeData, if_neg h, hb']

/-- Two pieces that fit are both copied. -/
theorem foldlM_copyIn_pair (b : JmySessionBuffer) (x y : List Byte) :
    (x.length + y.length ≤ b.getWriteLen ∧ ∃ b', [x, y].foldlM copyIn b = some b' ∧
      b'.unread = b.unread ++ x ++ y) ∨
    (b.getWriteLen < x.length + y.length ∧ [x, y].foldlM copyIn b = none) := by
  simp only [List.foldlM_cons, List.foldlM_nil, bind_pure]
  cases hx : b.copyIn x with
  | none =>
      refine Or.inr ⟨?_, rfl⟩
      have := copyIn_eq_none.1 hx
      omega
  | some b₁ =>
      obtain ⟨hunread, hroom⟩ := copyIn_spec hx
      have hxroom : x.length ≤ b.getWriteLen :=
        not_lt.1 fun hlt => by rw [copyIn_eq_none.2 hlt] at hx; cases hx
      cases hy : b₁.copyIn y with
      | none =>
          refine Or.inr ⟨?_, hy⟩
          have := copyIn_eq_none.1 hy
          omega
      | some b₂ =>
          refine Or.inl ⟨?_, b₂, hy, ?_⟩
          · have : y.length ≤ b₁.getWriteLen :=
              not_lt.1 fun hlt => by rw [copyIn_eq_none.2 hlt] at hy; cases hy
            omega
          · rw [(copyIn_spec hy).1, hunread]

end JmySessionBuffer

/-- `JmyDoubleSessionBuffer`. `fromPool` says that the blocks belong to a `JmySessionBufferPool`. -/
structure JmyDoubleSessionBuffer where
  useLarge : Bool
  buff : JmySessionBuffer
  largeBuff : JmySessionBuffer
  fromPool : Bool
  deriving DecidableEq

namespace JmyDoubleSessionBuffer

/-- The pair as it is constructed, before `init`. -/
def empty : JmyDoubleSessionBuffer := ⟨false, .empty, .empty, false⟩

def init (size : ℕ) (h : size < 2 ^ 32) : JmyDoubleSessionBuffer :=
  { empty with buff := .init size h }

/-- `getSessionBuffer`: the block in use. -/
def getSessionBuffer (d : JmyDoubleSessionBuffer) : JmySessionBuffer :=
  if d.useLarge then d.largeBuff else d.buff

/-- The block in use replaced by what an operation left of it. -/
def setSessionBuffer (d : JmyDoubleSessionBuffer) (b : JmySessionBuffer) : JmyDoubleSessionBuffer :=
  if d.useLarge then { d with largeBuff := b } else { d with buff := b }

/-- `clear` gives pool blocks back to the pool and leaves their offsets as they are; only blocks of
its own are emptied. -/
def clear (d : JmyDoubleSessionBuffer) : JmyDoubleSessionBuffer :=
  if d.fromPool then d else { d with buff := d.buff.clear, largeBuff := d.largeBuff.clear }

def getWriteLen (d : JmyDoubleSessionBuffer) : ℕ := d.getSessionBuffer.getWriteLen

def getReadLen (d : JmyDoubleSessionBuffer) : ℕ := d.getSessionBuffer.getReadLen

def unread (d : JmyDoubleSessionBuffer) : List Byte := d.getSessionBuffer.unread

def readLen (d : JmyDoubleSessionBuffer) (len : ℕ) : Bool × JmyDoubleSessionBuffer :=
  let r := d.getSessionBuffer.readLen len
  (r.1, d.setSessionBuffer r.2)

def writeData (d : JmyDoubleSessionBuffer) (data : List Byte) : Bool × JmyDoubleSessionBuffer :=
  let r := d.getSessionBuffer.writeData data
  (r.1, d.setSessionBuffer r.2)

def writeDatas (d : JmyDoubleSessionBuffer) (datas : List JmyData) :
    Option (Bool × JmyDoubleSessionBuffer) :=
  (d.getSessionBuffer.writeDatas datas).map fun r => (r.1, d.setSessionBuffer r.2)

@[simp] theorem getSessionBuffer_set (d : JmyDoubleSessionBuffer) (b : JmySessionBuffer) :
    (d.setSessionBuffer b).getSessionBuffer = b := by
  by_cases h : d.useLarge <;> simp [setSessionBuffer, getSessionBuffer, h]

@[simp] theorem getWriteLen_init (size : ℕ) (h : size < 2 ^ 32) : (init size h).getWriteLen = size := by
  simp [getWriteLen, getSessionBuffer, init, empty, JmySessionBuffer.getWriteLen, JmySessionBuffer.init]

end JmyDoubleSessionBuffer

/-- `JmySessionBufferList::buffer`: an allocated packet with `unsigned short` offsets. -/
structure Buffer where
  data : List Byte
  len : ℕ
  roffset : ℕ
  woffset : ℕ
  deriving DecidableEq, Repr

namespace Buffer

/-- `init(data, len)`: a copy of the data; refused when it is empty. -/
def initData (data : List Byte) (len : ℕ) : Option Buffer :=
  if len = 0 then none else some ⟨data.take len, len, 0, len⟩

/-- `init(len)`: an allocation to be filled by `write`. Its bytes are not read before. -/
def initLen (len : ℕ) : Option Buffer :=
  if len = 0 then none else some ⟨List.replicate len 0, len, 0, 0⟩

/-- `write(data, len)` with an `unsigned short` length. -/
def write (b : Buffer) (data : List Byte) (len : ℕ) : Option Buffer :=
  if len = 0 then none
  else if b.len - b.woffset < len then none
  else some { b with
    data := Block.write b.data b.woffset (data.take len)
    woffset := b.woffset + len }

/-- The bytes that `read_buff` and `read_len` expose. -/
def unread (b : Buffer) : List Byte := window b.data b.roffset b.woffset

def readLen (b : Buffer) : ℕ := b.woffset - b.roffset

def read (b : Buffer) (len : ℕ) : Option Buffer :=
  if b.woffset < b.roffset + len then none else some { b with roffset := b.roffset + len }

def isReadOut (b : Buffer) : Bool := b.woffset ≤ b.roffset

theorem write_eq_none {b : Buffer} {data : List Byte} {len : ℕ} :
    b.write data len = none ↔ len = 0 ∨ b.len - b.woffset < len := by
  rw [write]
  split_ifs with h0 h1
  · simp only [h0, true_or]
  · simp only [h1, or_true]
  · simp only [h0, h1, or_self]

theorem write_eq_some {b : Buffer} {data : List Byte} {len : ℕ} (h0 : len ≠ 0)
    (hroom : len ≤ b.len - b.woffset) :
    b.write data len = some ⟨Block.write b.data b.woffset (data.take len), b.len, b.roffset,
      b.woffset + len⟩ := by
  rw [write, if_neg h0, if_neg (not_lt.2 hroom)]

/-- What a write that is not refused does to the counters. -/
theorem write_spec {b b' : Buffer} {data : List Byte} {len : ℕ} (h : b.write data len = some b') :
    b'.len = b.len ∧ b'.woffset = b.woffset + len ∧ len ≤ b.len - b.woffset := by
  rw [write] at h
  split_ifs at h with h0 h1
  cases h
  exact ⟨rfl, rfl, not_lt.1 h1⟩

end Buffer

/-- `JmySessionBufferList`. A limit of zero is no limit. -/
structure JmySessionBufferList where
  usingList : List Buffer
  maxBytes : ℕ
  currUsedBytes : ℕ
  maxCount : ℕ
  currCount : ℕ
  deriving DecidableEq, Repr

namespace JmySessionBufferList

def init (maxBytes maxCount : ℕ) : JmySessionBufferList := ⟨[], maxBytes, 0, maxCount, 0⟩

def clear (l : JmySessionBufferList) : JmySessionBufferList :=
  { l with usingList := [], currUsedBytes := 0, currCount := 0 }

/-- The limits refuse a packet of `len` bytes. The sums are `unsigned int`. -/
def overLimit (l : JmySessionBufferList) (len : ℕ) : Bool :=
  (0 < l.maxCount && l.maxCount < (l.currCount + 1) % 2 ^ 32) ||
    (0 < l.maxBytes && l.maxBytes < (l.currUsedBytes + len) % 2 ^ 32)

/-- `push_back` and the account of the new packet. -/
def pushBack (l : JmySessionBufferList) (b : Buffer) (len : ℕ) : JmySessionBufferList :=
  { l with
    usingList := l.usingList ++ [b]
    currCount := if 0 < l.maxCount then (l.currCount + 1) % 2 ^ 32 else l.currCount
    currUsedBytes :=
      if 0 < l.maxBytes then (l.currUsedBytes + len) % 2 ^ 32 else l.currUsedBytes }

/-- `writeData(data, len)`, which takes the length as an `unsigned short`. -/
def writeData (l : JmySessionBufferList) (data : List Byte) : Bool × JmySessionBufferList :=
  let len := data.length % 2 ^ 16
  if l.overLimit len then (false, l)
  else match Buffer.initData data len with
  | none => (false, l)
  | some b => (true, l.pushBack b len)

/-- Fill a new packet piece by piece. Each length is narrowed to an `unsigned short`. -/
def fill (b : Buffer) (datas : List JmyData) : Option Buffer :=
  datas.foldlM (fun b data => b.write data (data.length % 2 ^ 16)) b

/-- `writeData(datas, count)`: the total is an `unsigned int`, the allocation an `unsigned short`. -/
def writeDatas (l : JmySessionBufferList) (datas : List JmyData) : Bool × JmySessionBufferList :=
  let totalLen := (datas.map List.length).sum % 2 ^ 32
  if datas = [] then (false, l)
  else if l.overLimit totalLen then (false, l)
  else match (Buffer.initLen (totalLen % 2 ^ 16)).bind fun b => fill b datas with
  | none => (false, l)
  | some b => (true, l.pushBack b totalLen)

/-- `writeData(param, data, len)` of the receive list: the parameter takes the place of the write
offset. -/
def writeParam (l : JmySessionBufferList) (param : ℕ) (data : List Byte) (len : ℕ) :
    Bool × JmySessionBufferList :=
  match Buffer.initData data len with
  | none => (false, l)
  | some b => (true, { l with usingList := l.usingList ++ [{ b with woffset := param }] })

/-- The bytes that `getReadBuff` and `getReadLen` expose: the unread bytes of the first packet. -/
def front (l : JmySessionBufferList) : List Byte :=
  match l.usingList with
  | [] => []
  | b :: _ => b.unread

def getReadLen (l : JmySessionBufferList) : ℕ :=
  match l.usingList with
  | [] => 0
  | b :: _ => b.readLen

/-- `readLen`, whose argument `buffer::read` takes as an `unsigned short`. -/
def readLen (l : JmySessionBufferList) (len : ℕ) : JmySessionBufferList :=
  match l.usingList with
  | [] => l
  | b :: rest =>
    match b.read (len % 2 ^ 16) with
    | none => l
    | some b' => if b'.isReadOut then { l with usingList := rest }
        else { l with usingList := b' :: rest }

def getUsingSize (l : JmySessionBufferList) : ℕ := l.usingList.length

/-- The bytes that are still to be read, over all packets. -/
def unread (l : JmySessionBufferList) : List Byte := l.usingList.flatMap Buffer.unread

/-- The packet that a list holds after a head and a payload were written in one call. -/
def packetOf (bytes : List Byte) : Buffer := ⟨bytes, bytes.length, 0, bytes.length⟩

@[simp] theorem unread_packetOf (bytes : List Byte) : (packetOf bytes).unread = bytes :=
  window_all bytes

theorem initData_packet {data : List Byte} (h0 : data ≠ []) (h : data.length < 2 ^ 16) :
    Buffer.initData data (data.length % 2 ^ 16) = some (packetOf data) := by
  rw [Nat.mod_eq_of_lt h, Buffer.initData, if_neg (mt List.length_eq_zero_iff.1 h0),
    List.take_length, packetOf]

/-- A packet that the limits allow is queued whole. -/
theorem writeData_packet (l : JmySessionBufferList) {data : List Byte} (h0 : data ≠ [])
    (h : data.length < 2 ^ 16) :
    l.writeData data = if l.overLimit data.length then (false, l)
      else (true, l.pushBack (packetOf data) data.length) := by
  have hinit := initData_packet h0 h
  rw [Nat.mod_eq_of_lt h] at hinit
  simp only [writeData, Nat.mod_eq_of_lt h, hinit]

/-- Two pieces fill a packet that was allocated for exactly their narrowed lengths. -/
theorem fill_pair {head data : List Byte} {len : ℕ} (hhead : head ≠ [])
    (hdata : data.length % 2 ^ 16 ≠ 0)
    (hfit : head.length + data.length % 2 ^ 16 < 2 ^ 16)
    (hlen : len = head.length + data.length % 2 ^ 16) :
    ((Buffer.initLen len).bind fun b => fill b [head, data]) =
      some (packetOf (head ++ data.take (data.length % 2 ^ 16))) := by
  have hh : head.length ≠ 0 := mt List.length_eq_zero_iff.1 hhead
  have hmod : head.length % 2 ^ 16 = head.length := Nat.mod_eq_of_lt (by omega)
  have htake : (data.take (data.length % 2 ^ 16)).length = data.length % 2 ^ 16 := by
    rw [List.length_take]
    have := Nat.mod_le data.length (2 ^ 16)
    omega
  have hinit : Buffer.initLen len = some ⟨List.replicate len 0, len, 0, 0⟩ := if_neg (by omega)
  rw [hinit, Option.bind_some, fill, List.foldlM_cons, hmod,
    Buffer.write_eq_some hh (by simp only; omega), Option.bind_eq_bind, Option.bind_some,
    List.foldlM_cons, Buffer.write_eq_some hdata (by simp only; omega), Option.bind_eq_bind,
    Option.bind_some, List.foldlM_nil, List.take_length, Nat.zero_add, packetOf]
  have h := write_write_replicate (0 : Byte) head (data.take (data.length % 2 ^ 16))
  rw [htake, ← hlen] at h
  rw [h, List.length_append, htake, ← hlen]
  rfl

/-- A packet allocated too small, or for a payload that narrows to nothing, is not filled. -/
theorem fill_pair_eq_none {head data : List Byte} {len : ℕ}
    (hhead : head.length < 2 ^ 16)
    (h : data.length % 2 ^ 16 = 0 ∨ len < head.length + data.length % 2 ^ 16) :
    ((Buffer.initLen len).bind fun b => fill b [head, data]) = none := by
  rw [Option.bind_eq_none_iff]
  intro b hb
  simp only [fill, List.foldlM_cons, List.foldlM_nil, bind_pure, Option.bind_eq_bind,
    Option.bind_eq_none_iff]
  intro b' hb'
  have hlen : b.len = len ∧ b.woffset = 0 := by
    rw [Buffer.initLen] at hb
    split at hb
    · cases hb
    · cases hb
      exact ⟨rfl, rfl⟩
  obtain ⟨hlen', hwoffset', hroom⟩ := Buffer.write_spec hb'
  rw [Nat.mod_eq_of_lt hhead] at hwoffset' hroom
  rw [Buffer.write_eq_none]
  omega

/-- One call with a head and a payload: refused by the limits or by the narrowed lengths, or a packet
of the head and as many payload bytes as the narrowed length says. -/
theorem writeDatas_pair (l : JmySessionBufferList) {head : List Byte} (data : List Byte)
    (hhead : head ≠ []) (hlen : head.length < 2 ^ 16) :
    l.writeDatas [head, data] =
      if l.overLimit ((head.length + data.length) % 2 ^ 32) then (false, l)
      else if 1 ≤ data.length % 2 ^ 16 ∧ head.length + data.length % 2 ^ 16 < 2 ^ 16 then
        (true, l.pushBack (packetOf (head ++ data.take (data.length % 2 ^ 16)))
          ((head.length + data.length) % 2 ^ 32))
      else (false, l) := by
  simp only [writeDatas, reduceCtorEq, if_false, List.map_cons, List.map_nil, List.sum_cons,
    List.sum_nil, Nat.add_zero]
  split_ifs with hover hfit
  · rfl
  · rw [fill_pair hhead (by omega) hfit.2 (by omega)]
  · rw [fill_pair_eq_none hlen (by omega)]

@[simp] theorem unread_pushBack (l : JmySessionBufferList) (b : Buffer) (len : ℕ) :
    (l.pushBack b len).unread = l.unread ++ b.unread := by
  simp [pushBack, unread]

/-- A packet as a list without a read error holds it: filled, and not read out. -/
structure Queued (b : Buffer) : Prop where
  woffset : b.woffset = b.data.length
  roffset : b.roffset < b.data.length
  small : b.data.length < 2 ^ 16

/-- All packets of the list are so, and the list has no limits. -/
structure Sound (l : JmySessionBufferList) : Prop where
  queued : ∀ b ∈ l.usingList, Queued b
  maxBytes : l.maxBytes = 0
  maxCount : l.maxCount = 0

theorem Queued.length_unread {b : Buffer} (h : Queued b) :
    b.unread.length = b.data.length - b.roffset := by
  rw [Buffer.unread, length_window, h.woffset, Nat.min_self]

theorem queued_packetOf {bytes : List Byte} (h0 : bytes ≠ []) (h : bytes.length < 2 ^ 16) :
    Queued (packetOf bytes) :=
  ⟨rfl, List.length_pos_iff.2 h0, h⟩

theorem sound_init : (init 0 0).Sound := ⟨by simp [init], rfl, rfl⟩

theorem Sound.overLimit {l : JmySessionBufferList} (h : l.Sound) (len : ℕ) : l.overLimit len = false := by
  simp [JmySessionBufferList.overLimit, h.maxBytes, h.maxCount]

/-- The first packet of a sound list, as a send offers it. -/
theorem front_unread (l : JmySessionBufferList) : ∃ tail, l.unread = l.front ++ tail := by
  unfold front unread
  split
  · rename_i h
    exact ⟨[], by rw [h]; rfl⟩
  · rename_i b rest h
    exact ⟨rest.flatMap Buffer.unread, by rw [h]; rfl⟩

/-- Reading bytes off a packet that is not read out. -/
theorem readLen_cons {l : JmySessionBufferList} {b : Buffer} {rest : List Buffer}
    (hl : l.usingList = b :: rest) (hb : Queued b) {n : ℕ} (hn : n ≤ b.unread.length) :
    l.readLen n = if n = b.unread.length then { l with usingList := rest }
      else { l with usingList := { b with roffset := b.roffset + n } :: rest } := by
  have hroffset := hb.roffset
  have hsmall := hb.small
  rw [hb.length_unread] at hn ⊢
  have hmod : n % 2 ^ 16 = n := Nat.mod_eq_of_lt (by omega)
  have hread : b.read n = some { b with roffset := b.roffset + n } := if_neg (by rw [hb.woffset]; omega)
  simp only [readLen, hl, hmod, hread, Buffer.isReadOut, hb.woffset, decide_eq_true_eq]
  by_cases hout : n = b.data.length - b.roffset
  · rw [if_pos hout, if_pos (by omega)]
  · rw [if_neg hout, if_neg (by omega)]

theorem readLen_queued {l : JmySessionBufferList} (h : ∀ b ∈ l.usingList, Queued b) {n : ℕ}
    (hn : n ≤ l.front.length) : ∀ b ∈ (l.readLen n).usingList, Queued b := by
  cases hl : l.usingList with
  | nil =>
      rw [readLen, hl]
      exact h
  | cons b rest =>
      rw [hl] at h
      have hb := h b List.mem_cons_self
      rw [front, hl] at hn
      rw [readLen_cons hl hb hn]
      split_ifs with hout
      · exact fun b' hb' => h b' (List.mem_cons_of_mem b hb')
      · intro b' hb'
        rcases List.mem_cons.1 hb' with rfl | hb'
        · rw [hb.length_unread] at hn hout
          refine ⟨hb.woffset, ?_, hb.small⟩
          have := hb.roffset
          simp only
          omega
        · exact h b' (List.mem_cons_of_mem b hb')

/-- Reading off the first packet drops bytes from the front of the queue. -/
theorem Sound.readLen {l : JmySessionBufferList} (h : l.Sound) {n : ℕ} (hn : n ≤ l.front.length) :
    (l.readLen n).unread = l.unread.drop n ∧ (l.readLen n).Sound := by
  have hqueued := readLen_queued h.queued hn
  cases hl : l.usingList with
  | nil =>
      have hzero : n = 0 := by
        rw [front, hl] at hn
        exact Nat.le_zero.1 hn
      rw [JmySessionBufferList.readLen, hl, hzero, List.drop_zero]
      exact ⟨rfl, h⟩
  | cons b rest =>
      have hb := h.queued b (by rw [hl]; exact List.mem_cons_self)
      rw [front, hl] at hn
      have hdrop : l.unread.drop n = b.unread.drop n ++ rest.flatMap Buffer.unread := by
        rw [unread, hl, List.flatMap_cons, List.drop_append_of_le_length hn]
      rw [readLen_cons hl hb hn] at hqueued ⊢
      rw [hdrop]
      split_ifs at hqueued ⊢ with hout
      · rw [hout, List.drop_length]
        exact ⟨rfl, hqueued, h.maxBytes, h.maxCount⟩
      · refine ⟨?_, hqueued, h.maxBytes, h.maxCount⟩
        rw [show b.unread.drop n = Buffer.unread { b with roffset := b.roffset + n } from
          (window_add b.data b.roffset n b.woffset).symm]
        rfl

end JmySessionBufferList

end JmyGame
