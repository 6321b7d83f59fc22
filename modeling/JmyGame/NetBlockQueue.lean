import JmyGame.LibQueue
import JmyGame.NetUserWrites

/-! `JmySessionBuffer` as a bounded queue of bytes: whatever calls are made of a block that was initialised, its offsets
stay within it, and the bytes between them are those that were written and not read yet. -/

namespace JmyGame

open CArith Block

namespace Sized.JmySessionBuffer

variable (b : JmySessionBuffer)

def clear : JmySessionBuffer := { b with writeOffset := 0, readOffset := 0 }

/-- Bytes that are put to `getWriteBuff`. They are not counted. -/
def fillWriteBuff (data : List Byte) : Option JmySessionBuffer :=
  if b.writeOffset + data.length ≤ b.mem.length then
    some { b with buff := b.buff.map fun mem => write mem b.writeOffset data }
  else none

def writeLen (len : ℕ) : Bool × JmySessionBuffer :=
  if b.getWriteLen < len then (false, b) else (true, { b with writeOffset := b.writeOffset + len })

inductive BlockCall where
  | writeData (data : List Byte)
  | writeDatas (datas : List JmyData)
  /-- `writeLen` after `getWriteBuff` was filled. -/
  | writeLen (data : List Byte) (n : ℕ)
  | readLen (n : ℕ)
  | moveDataToFront
  | checkWriteLen (n : ℕ)
  | clear
  deriving DecidableEq, Repr

/-- One call with what it returns; a call that returns nothing is not refused. -/
def call : BlockCall → Option (Bool × JmySessionBuffer)
  | .writeData data => b.writeData data
  | .writeDatas datas => b.writeDatas datas
  | .writeLen data n => (b.fillWriteBuff data).map fun filled => filled.writeLen n
  | .readLen n => some (b.readLen n)
  | .moveDataToFront => b.moveDataToFront.map fun b' => (true, b')
  | .checkWriteLen n => b.checkWriteLen n
  | .clear => some (true, b.clear)

def blockMachine : Machine JmySessionBuffer BlockCall := ⟨fun b c => (b.call c).map Prod.snd⟩

/-- What a call that is not refused does to the queue. -/
def BlockCall.move : BlockCall → QueueMove Byte
  | .writeData data => .put data
  | .writeDatas datas => .put datas.flatten
  | .writeLen data n => .put (data.take n)
  | .readLen n => .take n
  | .moveDataToFront => .keep
  | .checkWriteLen _ => .keep
  | .clear => .clear

def move (c : BlockCall) : QueueMove Byte :=
  (b.call c).elim .keep fun r => if r.1 then c.move else .keep

/-- What is written has a length of 32 bits. No more is put to `getWriteBuff` than there is room for, and no more of it
is counted, unless that is refused. -/
def Allowed : BlockCall → Prop
  | .writeData data => data.length < 2 ^ 32
  | .writeDatas datas => datas.flatten.length < 2 ^ 32
  | .writeLen data n => data.length ≤ b.getWriteLen ∧ (n ≤ data.length ∨ b.getWriteLen < n)
  | _ => True

instance : DecidablePred b.Allowed
  | .writeData _ => inferInstanceAs (Decidable (_ < _))
  | .writeDatas _ => inferInstanceAs (Decidable (_ < _))
  | .writeLen _ _ => inferInstanceAs (Decidable (_ ∧ (_ ∨ _)))
  | .readLen _ => instDecidableTrue
  | .moveDataToFront => instDecidableTrue
  | .checkWriteLen _ => instDecidableTrue
  | .clear => instDecidableTrue

/-- A call that was refused left the block as it was, or moved the unread bytes to the front and nothing else. What was
put to `getWriteBuff` before is not taken back. -/
def Untouched (b' : JmySessionBuffer) : BlockCall → Prop
  | .writeLen data _ => b.fillWriteBuff data = some b' ∧ b'.unread = b.unread
  | .checkWriteLen _ => b' = b.front ∧ b'.unread = b.unread
  | _ => b' = b

/-- The block is a queue of at most `c` bytes. -/
structure IsQueue (c : ℕ) (log : QueueLog Byte) : Prop where
  read_le : b.readOffset ≤ b.writeOffset
  write_le : b.writeOffset ≤ c
  bytes : log.taken ++ b.unread = log.written
  exposed : b.getReadLen = b.unread.length
  calls : ∀ e, b.Allowed e → ∃ ok b', b.call e = some (ok, b') ∧ (ok = false → b.Untouched b' e)
  check : ∀ n, ∃ b', b.checkWriteLen n = some (decide (n ≤ c - b.unread.length), b')

variable {b} {b' : JmySessionBuffer} {size len c : ℕ}

/-- A call and its answer: the block stays one of `c` bytes, and the queue moves as it should. -/
def Spec (b : JmySessionBuffer) (c : ℕ) (e : BlockCall) (r : Option (Bool × JmySessionBuffer)) : Prop :=
  ∃ ok b', r = some (ok, b') ∧ b'.Sound c c ∧ (ok = true → b'.unread = e.move.apply b.unread) ∧
    (ok = false → b'.unread = b.unread ∧ b.Untouched b' e)

theorem spec_done {e : BlockCall} (h : b'.Sound c c) (hunread : b'.unread = e.move.apply b.unread) :
    b.Spec c e (some (true, b')) :=
  ⟨true, b', rfl, h, fun _ => hunread, nofun⟩

theorem spec_refused {e : BlockCall} (h : b'.Sound c c) (hunread : b'.unread = b.unread)
    (huntouched : b.Untouched b' e) : b.Spec c e (some (false, b')) :=
  ⟨false, b', rfl, h, nofun, fun _ => ⟨hunread, huntouched⟩⟩

theorem Sound.writeData_spec (h : b.Sound c c) (hc : c < 2 ^ 32) (data : List Byte) :
    b.Spec c (.writeData data) (b.writeData data) := by
  have hwithin := h.within
  rw [JmySessionBuffer.writeData, h.getWriteLen_eq hc]
  split_ifs with hroom
  · exact spec_refused h rfl rfl
  · obtain ⟨b', hcopy, hunread⟩ : ∃ b', b.copyIn data = some b' ∧ b'.unread = b.unread ++ data :=
      h.copyIn_unread (by omega)
    rw [hcopy, Option.map_some]
    exact spec_done (h.grown (copyIn_grown h.inited hcopy) (by omega)) hunread

/-- Pieces that fit are all copied, one behind the other. -/
theorem Sound.copyIn_all (h : b.Sound size len) {datas : List JmyData}
    (hsize : b.writeOffset + datas.flatten.length ≤ size) (hlen : b.writeOffset + datas.flatten.length ≤ len) :
    ∃ b', datas.foldlM copyIn b = some b' ∧ b'.Sound size len ∧ b'.unread = b.unread ++ datas.flatten := by
  induction datas generalizing b with
  | nil => exact ⟨b, rfl, h, (List.append_nil _).symm⟩
  | cons data datas ih =>
      rw [List.flatten_cons, List.length_append] at hsize hlen
      obtain ⟨b₁, hcopy, hunread⟩ := h.copyIn_unread (show b.writeOffset + data.length ≤ size by omega)
      have hgrown := copyIn_grown h.inited hcopy
      have hoffset := hgrown.writeOffset
      obtain ⟨b', hrest, hsound, hunread'⟩ := ih (h.grown hgrown (by omega)) (by omega) (by omega)
      refine ⟨b', ?_, hsound, ?_⟩
      · rw [List.foldlM_cons, hcopy]
        exact hrest
      · rw [hunread', hunread, List.flatten_cons, List.append_assoc]

theorem Sound.writeDatas_spec (h : b.Sound c c) (hc : c < 2 ^ 32) {datas : List JmyData}
    (hdatas : datas.flatten.length < 2 ^ 32) : b.Spec c (.writeDatas datas) (b.writeDatas datas) := by
  have hwithin := h.within
  have hsum : (datas.map List.length).sum % 2 ^ 32 = datas.flatten.length := by
    rw [← List.length_flatten, Nat.mod_eq_of_lt hdatas]
  rw [JmySessionBuffer.writeDatas, hsum, h.getWriteLen_eq hc]
  split_ifs with hnil hroom
  · exact spec_refused h rfl rfl
  · exact spec_refused h rfl rfl
  · obtain ⟨b', hcopy, hsound, hunread⟩ :=
      h.copyIn_all (show b.writeOffset + datas.flatten.length ≤ c by omega) (by omega)
    rw [hcopy, Option.map_some]
    exact spec_done hsound hunread

/-- What was put behind the write offset is behind the unread bytes as soon as it is counted. -/
theorem Sound.fillWriteBuff (h : b.Sound c c) {data : List Byte} (hroom : b.writeOffset + data.length ≤ c) :
    ∃ filled, b.fillWriteBuff data = some filled ∧ filled.Sound c c ∧ filled.writeOffset = b.writeOffset ∧
      ∀ n ≤ data.length, window filled.mem filled.readOffset (b.writeOffset + n) = b.unread ++ data.take n := by
  have hfit : b.writeOffset + data.length ≤ b.mem.length := h.length_mem.symm ▸ hroom
  refine ⟨_, if_pos hfit, ⟨?_, ?_, h.len_eq, h.read_le, h.write_le, h.within⟩, rfl, fun n hn => ?_⟩
  · rw [Option.isSome_map]
    exact h.inited
  · rw [mem_map h.inited, length_write hfit]
    exact h.length_mem
  · rw [mem_map h.inited]
    exact window_write_take h.read_le (h.length_mem.symm ▸ h.write_le) hn

theorem Sound.writeLen_spec (h : b.Sound c c) (hc : c < 2 ^ 32) {data : List Byte} {n : ℕ}
    (hdata : data.length ≤ b.getWriteLen) (hn : n ≤ data.length ∨ b.getWriteLen < n) :
    b.Spec c (.writeLen data n) ((b.fillWriteBuff data).map fun filled => filled.writeLen n) := by
  have hwithin := h.within
  rw [h.getWriteLen_eq hc] at hdata hn
  obtain ⟨filled, hfill, hsound, hoffset, hwindow⟩ := h.fillWriteBuff (show b.writeOffset + data.length ≤ c by omega)
  have hread := hsound.read_le
  rw [hfill, Option.map_some, JmySessionBuffer.writeLen, hsound.getWriteLen_eq hc, hoffset]
  split_ifs with hroom
  · have hunread : filled.unread = b.unread := by
      rw [unread, hoffset]
      exact (hwindow 0 (Nat.zero_le _)).trans (List.append_nil _)
    exact spec_refused hsound hunread ⟨hfill, hunread⟩
  · refine spec_done ⟨hsound.inited, hsound.length_mem, hsound.len_eq, ?_, ?_, ?_⟩ (hwindow n (by omega))
    · exact hread.trans (hoffset ▸ Nat.le_add_right _ _)
    · change b.writeOffset + n ≤ c
      omega
    · change b.writeOffset + n ≤ c
      omega

theorem Sound.readLen_spec (h : b.Sound c c) (hc : c < 2 ^ 32) (n : ℕ) :
    b.Spec c (.readLen n) (some (b.readLen n)) := by
  have hsound := h.readLen hc n
  unfold JmySessionBuffer.readLen at hsound ⊢
  split_ifs at hsound ⊢
  · exact spec_refused h rfl rfl
  · exact spec_done hsound (window_add b.mem b.readOffset n b.writeOffset)

theorem Sound.moveDataToFront_spec (h : b.Sound c c) (hc : c < 2 ^ 32) :
    b.Spec c .moveDataToFront (b.moveDataToFront.map fun b' => (true, b')) := by
  rw [h.moveDataToFront_eq hc, Option.map_some]
  exact spec_done (h.front hc) h.unread_front

/-- There is room for as many bytes as the block has beside the unread ones. -/
theorem Sound.checkWriteLen_room (h : b.Sound c c) (hc : c < 2 ^ 32) (n : ℕ) :
    b.checkWriteLen n = some (decide (n ≤ c - b.unread.length), b.settled n) := by
  have hle := h.unread_le
  rw [h.checkWriteLen_eq hc hc]
  exact congrArg (fun ok => some (ok, b.settled n)) (decide_eq_decide.2 (by omega))

theorem Sound.checkWriteLen_spec (h : b.Sound c c) (hc : c < 2 ^ 32) (n : ℕ) :
    b.Spec c (.checkWriteLen n) (b.checkWriteLen n) := by
  obtain ⟨hsound, hunread⟩ := h.settled hc n
  have hlength := h.length_unread
  have hwithin := h.within
  rw [h.checkWriteLen_eq hc hc]
  by_cases hfit : b.unread.length + n ≤ c
  · rw [decide_eq_true hfit]
    exact spec_done hsound hunread
  · have hfront : b.settled n = b.front := if_pos (by rw [h.getWriteLen_eq hc]; omega)
    rw [decide_eq_false hfit]
    exact spec_refused hsound hunread ⟨hfront, hunread⟩

theorem Sound.clear_spec (h : b.Sound c c) : b.Spec c .clear (some (true, b.clear)) :=
  spec_done ⟨h.inited, h.length_mem, h.len_eq, le_rfl, Nat.zero_le _, Nat.zero_le _⟩ rfl

theorem Sound.call_spec (h : b.Sound c c) (hc : c < 2 ^ 32) {e : BlockCall} (he : b.Allowed e) :
    b.Spec c e (b.call e) := by
  cases e with
  | writeData data => exact h.writeData_spec hc data
  | writeDatas datas => exact h.writeDatas_spec hc he
  | writeLen data n => exact h.writeLen_spec hc he.1 he.2
  | readLen n => exact h.readLen_spec hc n
  | moveDataToFront => exact h.moveDataToFront_spec hc
  | checkWriteLen n => exact h.checkWriteLen_spec hc n
  | clear => exact h.clear_spec

theorem Sound.step (h : b.Sound c c) (hc : c < 2 ^ 32) {e : BlockCall} (he : b.Allowed e) :
    ∃ b', blockMachine.step b e = some b' ∧ b'.Sound c c ∧ b'.unread = (b.move e).apply b.unread := by
  obtain ⟨ok, b', hcall, hsound, hdone, hrefused⟩ := h.call_spec hc he
  refine ⟨b', ?_, hsound, ?_⟩
  · change (b.call e).map Prod.snd = some b'
    rw [hcall, Option.map_some]
  · rw [JmySessionBuffer.move, hcall]
    cases ok with
    | true => exact hdone rfl
    | false => exact (hrefused rfl).1

theorem Sound.isQueue (h : b.Sound c c) (hc : c < 2 ^ 32) {log : QueueLog Byte} (hlog : log.Balanced b.unread) :
    b.IsQueue c log where
  read_le := h.read_le
  write_le := h.write_le
  bytes := hlog
  exposed := h.getReadLen_eq hc
  calls := fun e he => by
    obtain ⟨ok, b', hcall, -, -, hrefused⟩ := h.call_spec hc he
    exact ⟨ok, b', hcall, fun hok => (hrefused hok).2⟩
  check := fun n => ⟨b.settled n, h.checkWriteLen_room hc n⟩

/-- A block is a bounded queue behind every run from its initialisation. -/
theorem boundedFifo_run {block : List Byte} (hc : block.length < 2 ^ 32) {es : List BlockCall}
    (h : blockMachine.Along Allowed (init block block.length) es) :
    ∃ t, (blockMachine.logged unread move).run (init block block.length, .empty) es = some t ∧
      t.1.IsQueue block.length t.2 := by
  have hstep : ∀ b e, Sound b block.length block.length → Allowed b e → ∃ b', blockMachine.step b e = some b' ∧
      b'.Sound block.length block.length ∧ b'.unread = (b.move e).apply b.unread :=
    fun _ _ hsound he => hsound.step hc he
  have hempty : QueueLog.empty.Balanced (init block block.length).unread := QueueLog.balanced_empty
  obtain ⟨t, hrun, -, hsound, hlog⟩ := Machine.logged_balanced hstep sound_init hempty h
  exact ⟨t, hrun, hsound.isQueue hc hlog⟩

/-- Four bytes: the second piece is refused, and fits as soon as a byte was read. -/
theorem fourBytes_boundedFifo :
    ∃ t, (blockMachine.logged unread move).run (init [0, 0, 0, 0] 4, .empty)
      [.writeData [1, 2], .writeLen [3, 4] 1, .writeData [5, 6], .readLen 1, .checkWriteLen 2, .writeDatas [[5], [6]],
        .readLen 9, .clear, .writeData [7]] = some t ∧ t.1.IsQueue 4 t.2 :=
  boundedFifo_run (by decide) (by decide)

end Sized.JmySessionBuffer

end JmyGame
