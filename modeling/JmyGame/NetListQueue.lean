import JmyGame.LibQueue
import JmyGame.NetSessionBuffer

/-! `JmySessionBufferList` as a queue of bytes: packets of any number of pieces are queued whole, and they are read in
pieces of any size, of which none goes beyond a packet. -/

namespace JmyGame

open CArith Block

namespace JmySessionBufferList

inductive ListCall where
  | writeData (data : List Byte)
  | writeDatas (datas : List JmyData)
  | readLen (n : ℕ)
  deriving DecidableEq, Repr

def call (l : JmySessionBufferList) : ListCall → JmySessionBufferList
  | .writeData data => (l.writeData data).2
  | .writeDatas datas => (l.writeDatas datas).2
  | .readLen n => l.readLen n

def listMachine : Machine JmySessionBufferList ListCall := ⟨fun l c => some (l.call c)⟩

/-- The bytes that a call queues or reads. Nothing is queued by a write that returns false. -/
def move (l : JmySessionBufferList) : ListCall → QueueMove Byte
  | .writeData data => if (l.writeData data).1 then .put data else .keep
  | .writeDatas datas => if (l.writeDatas datas).1 then .put datas.flatten else .keep
  | .readLen n => .take n

/-- The pieces are not empty and have no more than 65535 bytes together, and no more is read than is exposed. -/
def Fits (l : JmySessionBufferList) : ListCall → Prop
  | .writeData data => data ≠ [] ∧ data.length < 2 ^ 16
  | .writeDatas datas => datas ≠ [] ∧ (∀ data ∈ datas, data ≠ []) ∧ datas.flatten.length < 2 ^ 16
  | .readLen n => 0 < n ∧ n ≤ l.getReadLen

instance (l : JmySessionBufferList) : DecidablePred l.Fits
  | .writeData _ => inferInstanceAs (Decidable (_ ∧ _))
  | .writeDatas _ => inferInstanceAs (Decidable (_ ∧ _ ∧ _))
  | .readLen _ => inferInstanceAs (Decidable (_ ∧ _))

/-- The list is a queue: what was read, what is exposed and what the other packets hold is what was written, and what a
call reads is the beginning of what is exposed. -/
structure IsQueue (l : JmySessionBufferList) (log : QueueLog Byte) : Prop where
  bytes : log.taken ++ (l.front ++ l.usingList.tail.flatMap Buffer.unread) = log.written
  exposed : l.front.length = l.getReadLen
  read : ∀ n ≤ l.getReadLen, l.unread.take n = l.front.take n
  empty : l.getReadLen = 0 ↔ l.usingList = []
  entries : ∀ b ∈ l.usingList, b.roffset ≤ b.woffset ∧ b.woffset = b.len

/-- A packet that has been filled so far. -/
def filling (bytes : List Byte) (room : ℕ) : Buffer :=
  ⟨bytes ++ List.replicate room 0, bytes.length + room, 0, bytes.length⟩

theorem write_filling {bytes data : List Byte} {room : ℕ} (h0 : data ≠ []) (h : data.length ≤ room)
    (hlt : room < 2 ^ 16) :
    (filling bytes room).write data (data.length % 2 ^ 16) = some (filling (bytes ++ data) (room - data.length)) := by
  have hlen : data.length % 2 ^ 16 = data.length := Nat.mod_eq_of_lt (by omega)
  have hroom : data.length ≤ (filling bytes room).len - (filling bytes room).woffset := by
    change data.length ≤ bytes.length + room - bytes.length
    omega
  rw [hlen, Buffer.write_eq_some (mt List.length_eq_zero_iff.1 h0) hroom, List.take_length]
  have hdata : Block.write (filling bytes room).data (filling bytes room).woffset data =
      bytes ++ data ++ List.replicate (room - data.length) 0 := by
    rw [← List.drop_replicate]
    exact write_append bytes (List.replicate room 0) data
  have hsum : bytes.length + room = (bytes ++ data).length + (room - data.length) := by
    rw [List.length_append]
    omega
  have hoffset : bytes.length + data.length = (bytes ++ data).length := List.length_append.symm
  rw [hdata]
  unfold filling
  rw [← hsum, ← hoffset]

/-- Pieces for which there is room are all written. -/
theorem fill_filling {bytes : List Byte} {datas : List JmyData} {room : ℕ} (h0 : ∀ data ∈ datas, data ≠ [])
    (h : datas.flatten.length ≤ room) (hlt : room < 2 ^ 16) :
    fill (filling bytes room) datas = some (filling (bytes ++ datas.flatten) (room - datas.flatten.length)) := by
  induction datas generalizing bytes room with
  | nil =>
      rw [List.flatten_nil, List.append_nil]
      rfl
  | cons data datas ih =>
      obtain ⟨hdata, hdatas⟩ := List.forall_mem_cons.1 h0
      rw [List.flatten_cons, List.length_append] at h
      have hfirst : (filling bytes room).write data (data.length % 2 ^ 16) =
          some (filling (bytes ++ data) (room - data.length)) := write_filling hdata (by omega) hlt
      have hrest : fill (filling (bytes ++ data) (room - data.length)) datas =
          some (filling (bytes ++ data ++ datas.flatten) (room - data.length - datas.flatten.length)) :=
        ih hdatas (by omega) (by omega)
      calc fill (filling bytes room) (data :: datas)
          = fill (filling (bytes ++ data) (room - data.length)) datas := by
            rw [fill, List.foldlM_cons, hfirst]
            rfl
        _ = some (filling (bytes ++ (data :: datas).flatten) (room - (data :: datas).flatten.length)) := by
            rw [hrest, List.flatten_cons, List.length_append, List.append_assoc, Nat.sub_sub]

/-- A packet of many pieces that the limits allow is queued whole. -/
theorem writeDatas_packet (l : JmySessionBufferList) {datas : List JmyData} (hne : datas ≠ [])
    (h0 : ∀ data ∈ datas, data ≠ []) (h : datas.flatten.length < 2 ^ 16) :
    l.writeDatas datas = if l.overLimit datas.flatten.length then (false, l)
      else (true, l.pushBack (packetOf datas.flatten) datas.flatten.length) := by
  have hsum : (datas.map List.length).sum = datas.flatten.length := List.length_flatten.symm
  have hpos : datas.flatten.length ≠ 0 := by
    obtain ⟨data, hdata⟩ := List.exists_mem_of_ne_nil datas hne
    intro hzero
    exact h0 data hdata (List.flatten_eq_nil_iff.1 (List.length_eq_zero_iff.1 hzero) data hdata)
  have hfill : ((Buffer.initLen datas.flatten.length).bind fun b => fill b datas) =
      some (packetOf datas.flatten) := by
    have hinit : Buffer.initLen datas.flatten.length = some (filling [] datas.flatten.length) := by
      rw [Buffer.initLen, if_neg hpos, filling, List.nil_append, List.length_nil, Nat.zero_add]
    rw [hinit, Option.bind_some, fill_filling h0 le_rfl h, Nat.sub_self, List.nil_append]
    simp only [filling, packetOf, List.replicate_zero, List.append_nil, Nat.add_zero]
  simp only [writeDatas, hsum, if_neg hne, Nat.mod_eq_of_lt h,
    Nat.mod_eq_of_lt (h.trans (by decide : 2 ^ 16 < 2 ^ 32)), hfill]

/-- Every packet is as long as it was allocated, and a list without a limit holds it until it is read out. -/
structure Whole (l : JmySessionBufferList) : Prop where
  sound : l.Sound
  lens : ∀ b ∈ l.usingList, b.len = b.data.length

theorem whole_init : (init 0 0).Whole := ⟨sound_init, by simp [init]⟩

theorem Whole.pushBack {l : JmySessionBufferList} (h : l.Whole) {bytes : List Byte} (h0 : bytes ≠ [])
    (hlt : bytes.length < 2 ^ 16) (len : ℕ) : (l.pushBack (packetOf bytes) len).Whole := by
  refine ⟨⟨?_, h.sound.maxBytes, h.sound.maxCount⟩, ?_⟩
  · exact List.forall_mem_append.2 ⟨h.sound.queued, List.forall_mem_singleton.2 (queued_packetOf h0 hlt)⟩
  · exact List.forall_mem_append.2 ⟨h.lens, List.forall_mem_singleton.2 rfl⟩

theorem Whole.length_front {l : JmySessionBufferList} (h : l.Whole) : l.front.length = l.getReadLen := by
  unfold front getReadLen
  cases hl : l.usingList with
  | nil => rfl
  | cons b rest =>
      have hb : Queued b := h.sound.queued b (by rw [hl]; exact List.mem_cons_self)
      change b.unread.length = b.woffset - b.roffset
      rw [hb.length_unread, hb.woffset]

theorem Whole.readLen {l : JmySessionBufferList} (h : l.Whole) {n : ℕ} (hn : n ≤ l.getReadLen) :
    (l.readLen n).Whole ∧ (l.readLen n).unread = l.unread.drop n := by
  have hfront : n ≤ l.front.length := h.length_front ▸ hn
  obtain ⟨hunread, hsound⟩ := h.sound.readLen hfront
  refine ⟨⟨hsound, ?_⟩, hunread⟩
  cases hl : l.usingList with
  | nil =>
      rw [JmySessionBufferList.readLen, hl, hl]
      exact List.forall_mem_nil _
  | cons b rest =>
      have hlens := h.lens
      rw [hl] at hlens
      obtain ⟨hb, hrest⟩ := List.forall_mem_cons.1 hlens
      rw [front, hl] at hfront
      rw [readLen_cons hl (h.sound.queued b (by rw [hl]; exact List.mem_cons_self)) hfront]
      split_ifs
      · exact hrest
      · exact List.forall_mem_cons.2 ⟨hb, hrest⟩

/-- A fitting call keeps the packets whole and moves the queue of the unread bytes. -/
theorem Whole.call {l : JmySessionBufferList} (h : l.Whole) {c : ListCall} (hc : l.Fits c) :
    (l.call c).Whole ∧ (l.call c).unread = (l.move c).apply l.unread := by
  cases c with
  | writeData data =>
      obtain ⟨h0, hlt⟩ := hc
      have hwrite : l.writeData data = (true, l.pushBack (packetOf data) data.length) := by
        rw [writeData_packet l h0 hlt, h.sound.overLimit, if_neg Bool.false_ne_true]
      have hmove : l.move (.writeData data) = .put data := if_pos (congrArg Prod.fst hwrite)
      rw [JmySessionBufferList.call, hmove, hwrite]
      refine ⟨h.pushBack h0 hlt _, ?_⟩
      rw [unread_pushBack, unread_packetOf]
      rfl
  | writeDatas datas =>
      obtain ⟨hne, h0, hlt⟩ := hc
      have hwrite : l.writeDatas datas =
          (true, l.pushBack (packetOf datas.flatten) datas.flatten.length) := by
        rw [writeDatas_packet l hne h0 hlt, h.sound.overLimit, if_neg Bool.false_ne_true]
      have hmove : l.move (.writeDatas datas) = .put datas.flatten := if_pos (congrArg Prod.fst hwrite)
      have hflatten : datas.flatten ≠ [] := by
        obtain ⟨data, hdata⟩ := List.exists_mem_of_ne_nil datas hne
        exact fun hnil => h0 data hdata (List.flatten_eq_nil_iff.1 hnil data hdata)
      rw [JmySessionBufferList.call, hmove, hwrite]
      refine ⟨h.pushBack hflatten hlt _, ?_⟩
      rw [unread_pushBack, unread_packetOf]
      rfl
  | readLen n => exact h.readLen hc.2

/-- What holds of every list that the fitting calls reach. -/
theorem Whole.isQueue {l : JmySessionBufferList} (h : l.Whole) {log : QueueLog Byte}
    (hlog : log.Balanced l.unread) : l.IsQueue log where
  bytes := by
    have hunread : l.unread = l.front ++ l.usingList.tail.flatMap Buffer.unread := by
      unfold unread front
      cases l.usingList with
      | nil => rfl
      | cons b rest => exact List.flatMap_cons
    rw [← hunread]
    exact hlog
  exposed := h.length_front
  read := fun n hn => by
    obtain ⟨tail, htail⟩ := l.front_unread
    rw [htail, List.take_append_of_le_length (h.length_front.symm ▸ hn)]
  empty := by
    unfold getReadLen
    cases hl : l.usingList with
    | nil => exact iff_of_true rfl rfl
    | cons b rest =>
        have hb : Queued b := h.sound.queued b (by rw [hl]; exact List.mem_cons_self)
        have hroffset := hb.roffset
        refine iff_of_false ?_ (List.cons_ne_nil b rest)
        change b.woffset - b.roffset ≠ 0
        rw [hb.woffset]
        omega
  entries := fun b hb => by
    have hqueued := h.sound.queued b hb
    refine ⟨?_, ?_⟩
    · rw [hqueued.woffset]
      exact hqueued.roffset.le
    · rw [hqueued.woffset, h.lens b hb]

/-- The list is a queue behind every run of fitting calls, and no such call is refused. -/
theorem fifo_run {es : List ListCall} (h : listMachine.Along Fits (init 0 0) es) :
    ∃ t, (listMachine.logged unread move).run (init 0 0, .empty) es = some t ∧ t.1.IsQueue t.2 := by
  have hstep : ∀ l c, Whole l → Fits l c →
      ∃ l', listMachine.step l c = some l' ∧ l'.Whole ∧ l'.unread = (l.move c).apply l.unread :=
    fun l c hl hc => ⟨l.call c, rfl, hl.call hc⟩
  obtain ⟨t, hrun, -, hwhole, hlog⟩ := Machine.logged_balanced hstep whole_init QueueLog.balanced_empty h
  exact ⟨t, hrun, hwhole.isQueue hlog⟩

/-- The first packet is read in two pieces, and the second one is of two pieces. -/
theorem twoPackets_fifo :
    ∃ t, (listMachine.logged unread move).run (init 0 0, .empty)
      [.writeData [1, 2], .writeDatas [[3], [4, 5]], .readLen 1, .readLen 1, .readLen 3] = some t ∧ t.1.IsQueue t.2 :=
  fifo_run (by decide)

end JmySessionBufferList

end JmyGame
