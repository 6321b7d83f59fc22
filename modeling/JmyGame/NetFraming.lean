import Mathlib.Order.Monotone.Basic
import JmyGame.NetLifeCycle

/-! The receive loop on a byte stream. A stream is cut into frames of a two byte length and as many
bytes as the length says, the first of which is the packet type. The loop reads a head of three bytes
and then a body only for the two user packets; it stays on the frame boundaries exactly when every
other frame consists of its type byte alone and no frame is empty. -/

namespace JmyGame

open CArith Block

/-- The length field at an offset. -/
def frameLen (bs : List Byte) (h : ℕ) : ℕ := (bs.getD h 0).toNat * 256 + (bs.getD (h + 1) 0).toNat

/-- The packet type at an offset. -/
def frameType (bs : List Byte) (h : ℕ) : JmyPacketType2 := .ofChar (bs.getD (h + 2) 0)

/-- The offset of the `n`-th frame. -/
def frameOffset (bs : List Byte) : ℕ → ℕ
  | 0 => 0
  | n + 1 => frameOffset bs n + 2 + frameLen bs (frameOffset bs n)

/-- A frame starts at the offset. -/
def FrameStart (bs : List Byte) (h : ℕ) : Prop := ∃ n, frameOffset bs n = h

/-- The frame is read to its end: it has a type byte, and more only if a body is read for it. -/
def FrameRead (bs : List Byte) (h : ℕ) : Prop :=
  1 ≤ frameLen bs h ∧ ((frameType bs h).IsUser ∨ frameLen bs h = 1)

instance (bs : List Byte) (h : ℕ) : Decidable (FrameRead bs h) :=
  inferInstanceAs (Decidable (_ ∧ _))

theorem FrameStart.zero (bs : List Byte) : FrameStart bs 0 := ⟨0, rfl⟩

theorem FrameStart.next {bs : List Byte} {h : ℕ} (hs : FrameStart bs h) :
    FrameStart bs (h + 2 + frameLen bs h) := by
  obtain ⟨n, rfl⟩ := hs
  exact ⟨n + 1, rfl⟩

/-- No frame starts inside another one. -/
theorem FrameStart.le_of_lt {bs : List Byte} {h h' : ℕ} (hs : FrameStart bs h)
    (hs' : FrameStart bs h') (hlt : h < h') : h + 2 + frameLen bs h ≤ h' := by
  obtain ⟨n, rfl⟩ := hs
  obtain ⟨n', rfl⟩ := hs'
  have hmono : StrictMono (frameOffset bs) :=
    strictMono_nat_of_lt_succ fun n => by simp only [frameOffset]; omega
  have hn : n + 1 ≤ n' := hmono.lt_iff_lt.1 hlt
  exact hmono.monotone hn

/-- A connection, all bytes that its peer sends, and how many of them were read. -/
structure Receiver where
  conn : JmyTcpConnection
  stream : List Byte
  offset : ℕ

/-- A read takes its bytes from the stream; everything else happens to the connection alone. -/
inductive ReceiverEvent where
  | conn (e : ConnEvent)
  | read (i : ℕ)

/-- The number of bytes that a read asks for. -/
def AsyncOp.wanted : AsyncOp → Option ℕ
  | .readHead => some (lenHead + lenType)
  | .readBody _ packLen => some packLen
  | _ => none

namespace Receiver

def step (s : Receiver) : ReceiverEvent → Option Receiver
  | .conn (.complete _ (.read _)) => none
  | .conn e => (s.conn.step e).map fun c => { s with conn := c }
  | .read i => (s.conn.pending[i]?).bind fun p => p.op.wanted.bind fun n =>
    if s.offset + n ≤ s.stream.length then
      (s.conn.step (.complete i (.read (window s.stream s.offset (s.offset + n))))).map fun c =>
        { s with conn := c, offset := s.offset + n }
    else none

/-- The read starts where it should: a head at a frame boundary, a body behind the head of its frame
and up to the end of the frame. -/
def AlignedOp (bs : List Byte) (offset : ℕ) : AsyncOp → Prop
  | .readHead => FrameStart bs offset
  | .readBody _ packLen => ∃ h, FrameStart bs h ∧ offset = h + lenHead + lenType ∧
      offset + packLen = h + lenHead + frameLen bs h
  | _ => True

/-- The connection is closed, or its reads start where they should. -/
def Aligned (s : Receiver) : Prop :=
  s.conn.sockOpen = false ∨ ∀ p ∈ s.conn.reads, AlignedOp s.stream s.offset p.op

end Receiver

def receiverMachine : Machine Receiver ReceiverEvent := ⟨Receiver.step⟩

theorem getPacketLenType_window {bs : List Byte} {lo : ℕ} (h : lo + 3 ≤ bs.length) :
    ∃ len : BitVec 32, getPacketLenType (window bs lo (lo + 3)) = some (frameType bs lo, len) ∧
      len.toNat = frameLen bs lo := by
  rw [window_three h 0]
  exact ⟨_, rfl, toNat_unpackInt16 _ _⟩

theorem frameLen_lt (bs : List Byte) (h : ℕ) : frameLen bs h < 2 ^ 16 := by
  have h0 := (bs.getD h 0).isLt
  have h1 := (bs.getD (h + 1) 0).isLt
  rw [frameLen]
  omega

/-- The body length that `recv_packet` gets: one less than the length field, in an `unsigned short`. -/
theorem bodyLen_eq {bs : List Byte} {h : ℕ} {len : BitVec 32} (hlen : len.toNat = frameLen bs h) :
    (len - BitVec.ofNat 32 lenType).toNat % 2 ^ 16 = (frameLen bs h + 65535) % 65536 := by
  have := frameLen_lt bs h
  rw [BitVec.toNat_sub, hlen]
  simp only [lenType, BitVec.toNat_ofNat]
  omega

/-- Taking an operation out of the pending ones, seen through a filter. -/
theorem filter_popped (f : Pending → Bool) {c : JmyTcpConnection} {i : ℕ} {p : Pending}
    (hp : c.pending[i]? = some p) :
    ∃ xs ys, c.pending.filter f = xs ++ (if f p then [p] else []) ++ ys ∧
      (c.popped i).pending.filter f = xs ++ ys := by
  obtain ⟨hi, rfl⟩ := List.getElem?_eq_some_iff.1 hp
  refine ⟨(c.pending.take i).filter f, (c.pending.drop (i + 1)).filter f, ?_, ?_⟩
  · have hsplit : c.pending = c.pending.take i ++ ([c.pending[i]] ++ c.pending.drop (i + 1)) := by
      rw [List.singleton_append, ← List.drop_eq_getElem_cons hi, List.take_append_drop]
    conv_lhs => rw [hsplit]
    rw [List.filter_append, List.filter_append, List.append_assoc, List.filter_singleton]
    cases f c.pending[i] <;> rfl
  · rw [JmyTcpConnection.popped, List.eraseIdx_eq_take_drop_succ, List.filter_append]

/-- The only pending operation of a kind is gone when it completes. -/
theorem filter_popped_one {f : Pending → Bool} {c : JmyTcpConnection} {i : ℕ} {p : Pending}
    (hone : (c.pending.filter f).length ≤ 1) (hp : c.pending[i]? = some p) (hf : f p = true) :
    (c.popped i).pending.filter f = [] := by
  obtain ⟨xs, ys, hall, hpop⟩ := filter_popped f hp
  rw [hall, if_pos hf] at hone
  simp only [List.length_append, List.length_singleton] at hone
  rw [hpop, List.append_eq_nil_iff]
  exact ⟨List.length_eq_zero_iff.1 (by omega), List.length_eq_zero_iff.1 (by omega)⟩

/-- Operations of another kind stay. -/
theorem filter_popped_other {f : Pending → Bool} {c : JmyTcpConnection} {i : ℕ} {p : Pending}
    (hp : c.pending[i]? = some p) (hf : f p = false) :
    (c.popped i).pending.filter f = c.pending.filter f := by
  obtain ⟨xs, ys, hall, hpop⟩ := filter_popped f hp
  rw [hall, hpop, hf, if_neg Bool.false_ne_true, List.append_nil]

theorem reads_popped_read {c : JmyTcpConnection} {i : ℕ} {p : Pending}
    (hone : c.reads.length ≤ 1) (hp : c.pending[i]? = some p) (hread : p.op.isRead = true) :
    (c.popped i).reads = [] := filter_popped_one hone hp hread

theorem reads_popped_sublist {c : JmyTcpConnection} {i : ℕ} {p : Pending}
    (hp : c.pending[i]? = some p) : (c.popped i).reads.Sublist c.reads := by
  obtain ⟨xs, ys, hall, hpop⟩ := filter_popped (·.op.isRead) hp
  rw [JmyTcpConnection.reads, JmyTcpConnection.reads, hall, hpop]
  exact (List.sublist_append_left xs _).append (List.Sublist.refl ys)

/-- After the head of a frame the connection reads the body of a user packet; behind any other packet
it reads the next head, or nothing. -/
theorem head_spec {c c' : JmyTcpConnection} {i : ℕ} {p : Pending} {bs : List Byte} {lo : ℕ}
    (hone : c.reads.length ≤ 1) (hp : c.pending[i]? = some p) (hop : p.op = .readHead)
    (hlen : lo + 3 ≤ bs.length)
    (hstep : c.step (.complete i (.read (window bs lo (lo + 3)))) = some c') :
    ((frameType bs lo).IsUser ∧ c'.sockOpen = c.sockOpen ∧ c'.reads =
      [⟨.readBody (frameType bs lo) ((frameLen bs lo + 65535) % 65536), c.id, c.sockOpen⟩]) ∨
    (¬(frameType bs lo).IsUser ∧ c'.reads.length ≤ 1 ∧ ∀ q ∈ c'.reads, q.op = .readHead) := by
  obtain ⟨len, hget, hval⟩ := getPacketLenType_window hlen
  have hnone := reads_popped_read hone hp (by rw [hop]; rfl)
  have hwin : (window bs lo (lo + 3)).length = lenHead + lenType := by
    rw [length_window, lenHead, lenType]
    omega
  obtain ⟨p', hp', -, rfl⟩ := complete_eq_some hstep
  rw [hp, Option.some.injEq] at hp'
  subst hp'
  rw [hop, JmyTcpConnection.onComplete]
  by_cases huser : (frameType bs lo).IsUser
  · refine Or.inl ⟨huser, ?_⟩
    rw [onReadHead_user hwin hget huser, recvPacket_reads, hnone, bodyLen_eq hval]
    exact ⟨rfl, rfl⟩
  · refine Or.inr ⟨huser, ?_⟩
    rw [onReadHead_control hwin hget huser]
    obtain ⟨hreads, -⟩ := (Quiet.handlePacketType (c.popped i) (frameType bs lo)).reads
    obtain ⟨hstart, -⟩ := startRecv_reads ((c.popped i).handlePacketType (frameType bs lo)).2
    rw [hreads, hnone] at hstart
    rcases hstart with h | h <;> rw [h] <;> simp

/-- Behind a body the connection reads the next head, or nothing. -/
theorem body_spec {c c' : JmyTcpConnection} {i : ℕ} {p : Pending} {bs : List Byte} {lo n : ℕ}
    {type : JmyPacketType2} (hone : c.reads.length ≤ 1) (hp : c.pending[i]? = some p)
    (hop : p.op = .readBody type n) (hlen : lo + n ≤ bs.length)
    (hstep : c.step (.complete i (.read (window bs lo (lo + n)))) = some c') :
    c'.reads.length ≤ 1 ∧ ∀ q ∈ c'.reads, q.op = .readHead := by
  have hnone := reads_popped_read hone hp (by rw [hop]; rfl)
  have hwin : (window bs lo (lo + n)).length = n := by
    rw [length_window]
    omega
  obtain ⟨p', hp', -, rfl⟩ := complete_eq_some hstep
  rw [hp, Option.some.injEq] at hp'
  subst hp'
  rw [hop, onComplete_reenters (by exact hwin)]
  obtain ⟨hreads, -⟩ := (Quiet.beforeRecv (c.popped i) (.readBody type n)
    (.read (window bs lo (lo + n)))).reads
  obtain ⟨hstart, -⟩ := startRecv_reads ((c.popped i).beforeRecv (.readBody type n)
    (.read (window bs lo (lo + n))))
  rw [hreads, hnone] at hstart
  rcases hstart with h | h <;> rw [h] <;> simp

/-- A closed socket is never opened by a step. -/
theorem step_sockOpen {c c' : JmyTcpConnection} {e : ConnEvent} (h : c.step e = some c') :
    c'.sockOpen = c.sockOpen ∨ c'.sockOpen = false := by
  rcases step_cases h with ⟨-, hq⟩ | ⟨i, r, p, rfl, -, -, rfl⟩
  · exact hq.reads.2
  · rcases onComplete_cases (c.popped i) p.op r with ⟨-, hq⟩ | ⟨_, type, len, -, -, -, -, -, heq⟩ | ⟨-, heq⟩
    · exact hq.reads.2
    · rw [heq]
      exact Or.inl rfl
    · rw [heq, (startRecv_reads _).2]
      exact (Quiet.beforeRecv (c.popped i) p.op r).reads.2

/-- What is not the completion of a read starts no read. -/
theorem step_reads {c c' : JmyTcpConnection} {e : ConnEvent}
    (hnot : ∀ i bytes, e ≠ .complete i (.read bytes)) (h : c.step e = some c') :
    c'.reads.Sublist c.reads := by
  rcases step_cases h with ⟨-, hq⟩ | ⟨i, r, p, rfl, hp, -, rfl⟩
  · rw [hq.reads.1]
  · rcases onComplete_cases (c.popped i) p.op r with
      ⟨-, hq⟩ | ⟨bytes, type, len, -, rfl, -⟩ | ⟨hre, -⟩
    · rw [hq.reads.1]
      exact reads_popped_sublist hp
    · exact absurd rfl (hnot i bytes)
    · cases r with
      | read bytes => exact absurd rfl (hnot i bytes)
      | _ => cases hop : p.op <;> simp [AsyncOp.Reenters, hop] at hre

namespace Receiver

theorem step_read {s s' : Receiver} {i : ℕ} (h : s.step (.read i) = some s') :
    ∃ p n c', s.conn.pending[i]? = some p ∧ p.op.wanted = some n ∧ s.offset + n ≤ s.stream.length ∧
      s.conn.step (.complete i (.read (window s.stream s.offset (s.offset + n)))) = some c' ∧
      s' = ⟨c', s.stream, s.offset + n⟩ := by
  obtain ⟨p, hp, hrest⟩ := Option.bind_eq_some_iff.1 h
  obtain ⟨n, hn, hrest⟩ := Option.bind_eq_some_iff.1 hrest
  split_ifs at hrest with hlen
  obtain ⟨c', hc', rfl⟩ := Option.map_eq_some_iff.1 hrest
  exact ⟨p, n, c', hp, hn, hlen, hc', rfl⟩

theorem step_conn {s s' : Receiver} {e : ConnEvent} (h : s.step (.conn e) = some s') :
    (∀ i bytes, e ≠ .complete i (.read bytes)) ∧
      ∃ c', s.conn.step e = some c' ∧ s' = { s with conn := c' } := by
  have hmap : ∀ e', (s.conn.step e').map (fun c => { s with conn := c }) = some s' →
      ∃ c', s.conn.step e' = some c' ∧ s' = { s with conn := c' } := by
    intro e' h
    obtain ⟨c', hc', rfl⟩ := Option.map_eq_some_iff.1 h
    exact ⟨c', hc', rfl⟩
  cases e with
  | call k => exact ⟨fun _ _ => ConnEvent.noConfusion, hmap _ h⟩
  | run handlers now data past => exact ⟨fun _ _ => ConnEvent.noConfusion, hmap _ h⟩
  | complete i r =>
      cases r with
      | read bytes => cases h
      | sent n => exact ⟨fun _ _ => by simp, hmap _ h⟩
      | failed => exact ⟨fun _ _ => by simp, hmap _ h⟩

/-- At most one read is pending, and it starts where it should. -/
def OneAligned (s : Receiver) : Prop :=
  s.conn.sockOpen = false ∨
    s.conn.reads.length ≤ 1 ∧ ∀ p ∈ s.conn.reads, AlignedOp s.stream s.offset p.op

/-- On a stream all of whose frames are read to their end, every step keeps the reads aligned. -/
theorem step_oneAligned {s s' : Receiver} {e : ReceiverEvent}
    (hframes : ∀ h, FrameStart s.stream h → h + 3 ≤ s.stream.length → FrameRead s.stream h)
    (hs : OneAligned s) (hstep : s.step e = some s') : OneAligned s' ∧ s'.stream = s.stream := by
  cases e with
  | conn e =>
      obtain ⟨hnot, c', hc', rfl⟩ := step_conn hstep
      refine ⟨?_, rfl⟩
      rcases step_sockOpen hc' with hsock | hsock
      · rcases hs with hclosed | ⟨hone, hal⟩
        · exact Or.inl (hsock.trans hclosed)
        · have hsub := step_reads hnot hc'
          exact Or.inr ⟨hsub.length_le.trans hone, fun p hp => hal p (hsub.subset hp)⟩
      · exact Or.inl hsock
  | read i =>
      obtain ⟨p, n, c', hp, hn, hlen, hc', rfl⟩ := step_read hstep
      refine ⟨?_, rfl⟩
      rcases hs with hclosed | ⟨hone, hal⟩
      · rcases step_sockOpen hc' with hsock | hsock
        · exact Or.inl (hsock.trans hclosed)
        · exact Or.inl hsock
      · have hmem : p.op.isRead = true → p ∈ s.conn.reads := fun hread =>
          List.mem_filter.2 ⟨List.mem_of_getElem? hp, hread⟩
        refine Or.inr ?_
        cases hop : p.op with
        | bufferSend offered =>
            rw [hop] at hn
            cases hn
        | bufferListSend offered =>
            rw [hop] at hn
            cases hn
        | readHead =>
            rw [hop] at hn
            cases hn
            have hstart : FrameStart s.stream s.offset := by
              have := hal p (hmem (by rw [hop]; rfl))
              rwa [hop] at this
            obtain ⟨hpos, hkind⟩ := hframes s.offset hstart hlen
            have hbound := frameLen_lt s.stream s.offset
            rcases head_spec hone hp hop hlen hc' with ⟨-, -, hreads⟩ | ⟨hctl, hone', hheads⟩
            · rw [hreads]
              refine ⟨Nat.le_refl 1, ?_⟩
              intro q hq
              rw [List.mem_singleton.1 hq]
              refine ⟨s.offset, hstart, rfl, ?_⟩
              simp only [lenHead, lenType]
              omega
            · refine ⟨hone', fun q hq => ?_⟩
              have hnext := hstart.next
              rw [hkind.resolve_left hctl] at hnext
              rw [hheads q hq]
              exact hnext
        | readBody type packLen =>
            rw [hop] at hn
            cases hn
            obtain ⟨h, hstart, -, hend⟩ : AlignedOp s.stream s.offset (.readBody type n) := by
              have := hal p (hmem (by rw [hop]; rfl))
              rwa [hop] at this
            obtain ⟨hone', hheads⟩ := body_spec hone hp hop hlen hc'
            refine ⟨hone', fun q hq => ?_⟩
            rw [hheads q hq]
            have hnext := hstart.next
            rw [lenHead] at hend
            rwa [← hend] at hnext

end Receiver

/-- A connection that receives: it is open and its one pending read is on the open socket. -/
structure Reading (op : AsyncOp) (c : JmyTcpConnection) : Prop where
  state : c.state = .connected
  hasHandler : c.hasHandler = true
  hasBuffer : c.hasBuffer = true
  sockOpen : c.sockOpen = true
  reads : ∃ owner, c.reads = [⟨op, owner, true⟩]

theorem startRecv_connected {c : JmyTcpConnection} (hstate : c.state = .connected)
    (hhandler : c.hasHandler = true) (hbuffer : c.hasBuffer = true) :
    c.startRecv = c.startOp .readHead := by
  rw [JmyTcpConnection.startRecv, if_neg (by simp [hstate]), if_neg (by simp [hhandler, hbuffer])]
  exact if_neg (by simp [JmyTcpConnection.startOp, hstate])

/-- On a connected connection a control packet changes nothing but the buffers. -/
theorem Minor.handlePacketType {c : JmyTcpConnection} (h : c.state = .connected)
    (type : JmyPacketType2) : Minor c (c.handlePacketType type).2 := by
  cases type with
  | disconnect => exact Minor.handleDisconnect c
  | disconnectAck =>
      rw [JmyTcpConnection.handlePacketType, JmyTcpConnection.handleDisconnectAck,
        if_pos (by simp [h])]
      exact Minor.refl c
  | _ => exact Minor.refl c

/-- `start_recv` behind a completed read. -/
theorem Reading.startRecv {c c' : JmyTcpConnection} {op : AsyncOp} {i : ℕ} (hc : Reading op c)
    (hnone : (c.popped i).reads = []) (hm : Minor (c.popped i) c') : Reading .readHead c'.startRecv := by
  have hstate : c'.state = .connected := hm.state.trans hc.state
  have hhandler : c'.hasHandler = true := hm.hasHandler.trans hc.hasHandler
  have hbuffer : c'.hasBuffer = true := hm.hasBuffer.trans hc.hasBuffer
  have hsock : c'.sockOpen = true := hm.sockOpen.trans hc.sockOpen
  rw [startRecv_connected hstate hhandler hbuffer]
  refine ⟨hstate, hhandler, hbuffer, hsock, c'.id, ?_⟩
  have hreads : (c'.startOp .readHead).reads = c'.reads ++ [⟨.readHead, c'.id, c'.sockOpen⟩] :=
    List.filter_append _ _
  rw [hreads, hm.reads, hnone, hsock]
  rfl

/-- The place of the one pending read. -/
theorem Reading.pending {c : JmyTcpConnection} {op : AsyncOp} (hc : Reading op c) :
    ∃ (i : ℕ) (p : Pending), c.pending[i]? = some p ∧ p.op = op ∧ p.sockOpen = true ∧ op.isRead = true := by
  obtain ⟨owner, hreads⟩ := hc.reads
  have hmem : (⟨op, owner, true⟩ : Pending) ∈ c.reads := by
    rw [hreads]
    exact List.mem_singleton_self _
  obtain ⟨hin, hread⟩ := List.mem_filter.1 hmem
  obtain ⟨i, hi⟩ := List.mem_iff_getElem?.1 hin
  exact ⟨i, _, hi, rfl, rfl, hread⟩

theorem Reading.popped {c : JmyTcpConnection} {op : AsyncOp} {i : ℕ} {p : Pending}
    (hc : Reading op c) (hp : c.pending[i]? = some p) (hread : p.op.isRead = true) :
    (c.popped i).reads = [] := by
  obtain ⟨owner, hreads⟩ := hc.reads
  exact reads_popped_read (by rw [hreads]; exact Nat.le_refl 1) hp hread

/-- The head of a user packet leads to its body. -/
theorem Reading.userHead {c : JmyTcpConnection} (hc : Reading .readHead c) {i : ℕ} {p : Pending}
    (hp : c.pending[i]? = some p) (hread : p.op.isRead = true) {bytes : List Byte}
    {type : JmyPacketType2} {len : BitVec 32} (hlen : bytes.length = lenHead + lenType)
    (hget : getPacketLenType bytes = some (type, len)) (huser : type.IsUser) :
    Reading (.readBody type ((len - BitVec.ofNat 32 lenType).toNat % 2 ^ 16))
      ((c.popped i).onReadHead bytes) := by
  rw [onReadHead_user hlen hget huser]
  refine ⟨hc.state, hc.hasHandler, hc.hasBuffer, hc.sockOpen, c.id, ?_⟩
  rw [recvPacket_reads, hc.popped hp hread]
  simp only [JmyTcpConnection.popped, hc.sockOpen, List.nil_append]

/-- A body leads to the next head. -/
theorem Reading.wholeBody {c : JmyTcpConnection} {type : JmyPacketType2} {n : ℕ}
    (hc : Reading (.readBody type n) c) {i : ℕ} {p : Pending} (hp : c.pending[i]? = some p)
    (hread : p.op.isRead = true) {bytes : List Byte} (hlen : bytes.length = n) :
    Reading .readHead ((c.popped i).onReadBody type n bytes) := by
  rw [JmyTcpConnection.onReadBody, if_neg (not_not.2 hlen)]
  exact hc.startRecv (hc.popped hp hread) (Minor.setRecvBuffList _ _)

/-- The head of a frame can be read, and leads to the body of a user packet or to the next head. -/
theorem Reading.head {c : JmyTcpConnection} (hc : Reading .readHead c) {bs : List Byte} {lo : ℕ}
    (hlen : lo + 3 ≤ bs.length) :
    ∃ i c', Receiver.step ⟨c, bs, lo⟩ (.read i) = some ⟨c', bs, lo + 3⟩ ∧
      if (frameType bs lo).IsUser
      then Reading (.readBody (frameType bs lo) ((frameLen bs lo + 65535) % 65536)) c'
      else Reading .readHead c' := by
  obtain ⟨i, p, hp, hop, hsock, hread⟩ := hc.pending
  obtain ⟨len, hget, hval⟩ := getPacketLenType_window hlen
  have hwin : (window bs lo (lo + 3)).length = lenHead + lenType := by
    rw [length_window, lenHead, lenType]
    omega
  have hposs : (Completion.read (window bs lo (lo + 3))).possible p = true := by
    simp [Completion.possible, hsock, hop, hwin]
  refine ⟨i, (c.popped i).onReadHead (window bs lo (lo + 3)), ?_, ?_⟩
  · simp only [Receiver.step, hp, Option.bind_some, hop, AsyncOp.wanted, lenHead, lenType,
      Nat.reduceAdd, hlen, if_true, complete_of_possible hp hposs, JmyTcpConnection.onComplete,
      Option.map_some]
  · split_ifs with huser
    · rw [← bodyLen_eq hval]
      exact hc.userHead hp (by rw [hop]; rfl) hwin hget huser
    · have hstate : (c.popped i).state = .connected := hc.state
      rw [onReadHead_control hwin hget huser]
      exact hc.startRecv (hc.popped hp (by rw [hop]; rfl)) (Minor.handlePacketType hstate _)

/-- The body of a frame can be read, and leads to the next head. -/
theorem Reading.body {c : JmyTcpConnection} {type : JmyPacketType2} {n : ℕ}
    (hc : Reading (.readBody type n) c) {bs : List Byte} {lo : ℕ} (hlen : lo + n ≤ bs.length) :
    ∃ i c', Receiver.step ⟨c, bs, lo⟩ (.read i) = some ⟨c', bs, lo + n⟩ ∧ Reading .readHead c' := by
  obtain ⟨i, p, hp, hop, hsock, hread⟩ := hc.pending
  have hwin : (window bs lo (lo + n)).length = n := by
    rw [length_window]
    omega
  have hposs : (Completion.read (window bs lo (lo + n))).possible p = true := by
    simp [Completion.possible, hsock, hop, hwin]
  refine ⟨i, (c.popped i).onReadBody type n (window bs lo (lo + n)), ?_, ?_⟩
  · simp only [Receiver.step, hp, Option.bind_some, hop, AsyncOp.wanted, hlen, if_true,
      complete_of_possible hp hposs, JmyTcpConnection.onComplete, Option.map_some]
  · exact hc.wholeBody hp (by rw [hop]; rfl) hwin

/-- The run reaches the head of the frame at an offset. -/
def Reaches (c : JmyTcpConnection) (bs : List Byte) (h : ℕ) : Prop :=
  ∃ es c', receiverMachine.run ⟨c, bs, 0⟩ es = some ⟨c', bs, h⟩ ∧ Reading .readHead c'

theorem run_concat {s t u : Receiver} {es : List ReceiverEvent} {e : ReceiverEvent}
    (hrun : receiverMachine.run s es = some t) (hstep : t.step e = some u) :
    receiverMachine.run s (es ++ [e]) = some u := by
  rw [Machine.run_append, hrun, Option.bind_some, Machine.run, show receiverMachine.step t e = some u
    from hstep]
  rfl

/-- A head that is read at a frame boundary leaves the reads aligned only if the frame is read to its
end. -/
theorem frameRead_of_reaches {c : JmyTcpConnection} {bs : List Byte} {h : ℕ}
    (hall : ∀ es t, receiverMachine.run ⟨c, bs, 0⟩ es = some t → t.Aligned)
    (hstart : FrameStart bs h) (hreach : Reaches c bs h) (hlen : h + 3 ≤ bs.length) :
    FrameRead bs h := by
  obtain ⟨es, c', hrun, hreading⟩ := hreach
  obtain ⟨i, c'', hstep, hnext⟩ := hreading.head hlen
  have hbound := frameLen_lt bs h
  have haligned := hall _ _ (run_concat hrun hstep)
  by_cases huser : (frameType bs h).IsUser
  · rw [if_pos huser] at hnext
    obtain ⟨owner, hreads⟩ := hnext.reads
    rcases haligned with hclosed | hal
    · rw [hnext.sockOpen] at hclosed
      cases hclosed
    · obtain ⟨h', -, hbegin, hend⟩ := hal _ (by rw [hreads]; exact List.mem_singleton_self _)
      simp only [lenHead, lenType] at hbegin hend
      have hsame : h' = h := by omega
      subst hsame
      exact ⟨by omega, Or.inl huser⟩
  · rw [if_neg huser] at hnext
    obtain ⟨owner, hreads⟩ := hnext.reads
    rcases haligned with hclosed | hal
    · rw [hnext.sockOpen] at hclosed
      cases hclosed
    · have hstart' : FrameStart bs (h + 3) :=
        hal ⟨.readHead, owner, true⟩ (by rw [hreads]; exact List.mem_singleton_self _)
      have hle := hstart.le_of_lt hstart' (by omega)
      -- an empty frame would put the next boundary one byte before the head that is read
      have hpos : frameLen bs h ≠ 0 := by
        intro hzero
        have hnext' := hstart.next
        rw [hzero] at hnext'
        have := hnext'.le_of_lt hstart' (by omega)
        omega
      exact ⟨by omega, Or.inr (by omega)⟩

/-- When every run is aligned, the frames are reached one after the other. -/
theorem reaches_frameOffset {c : JmyTcpConnection} {bs : List Byte} (hc : Reading .readHead c)
    (hall : ∀ es t, receiverMachine.run ⟨c, bs, 0⟩ es = some t → t.Aligned) (n : ℕ)
    (hlen : frameOffset bs n + 3 ≤ bs.length) : Reaches c bs (frameOffset bs n) := by
  induction n with
  | zero => exact ⟨[], c, rfl, hc⟩
  | succ n ih =>
      have hoff : frameOffset bs (n + 1) = frameOffset bs n + 2 + frameLen bs (frameOffset bs n) := rfl
      have hlen' : frameOffset bs n + 3 ≤ bs.length := by omega
      have hreach := ih hlen'
      obtain ⟨hpos, hkind⟩ := frameRead_of_reaches hall ⟨n, rfl⟩ hreach hlen'
      obtain ⟨es, c₁, hrun, hreading⟩ := hreach
      obtain ⟨i, c₂, hstep, hnext⟩ := hreading.head hlen'
      have hrun₁ := run_concat hrun hstep
      by_cases huser : (frameType bs (frameOffset bs n)).IsUser
      · rw [if_pos huser] at hnext
        have hbound := frameLen_lt bs (frameOffset bs n)
        have hend : frameOffset bs n + 3 + (frameLen bs (frameOffset bs n) + 65535) % 65536 =
            frameOffset bs (n + 1) := by omega
        obtain ⟨j, c₃, hstep₂, hnext₂⟩ := hnext.body (show _ ≤ bs.length by rw [hend]; omega)
        have hrun₂ := run_concat hrun₁ hstep₂
        rw [hend] at hrun₂
        exact ⟨_, c₃, hrun₂, hnext₂⟩
      · rw [if_neg huser] at hnext
        rw [hoff, hkind.resolve_left huser]
        exact ⟨_, c₂, hrun₁, hnext⟩

/-- A connection that starts to receive stays on the frame boundaries of a stream, or closes, in every
run exactly when every frame whose head arrives has a type byte and, unless it is a user packet, nothing
behind it. -/
theorem framing_aligned_iff {c : JmyTcpConnection} (hc : Reading .readHead c) (bs : List Byte) :
    (∀ es t, receiverMachine.run ⟨c, bs, 0⟩ es = some t → t.Aligned) ↔
      ∀ h, FrameStart bs h → h + 3 ≤ bs.length → FrameRead bs h := by
  constructor
  · rintro hall h ⟨n, rfl⟩ hlen
    exact frameRead_of_reaches hall ⟨n, rfl⟩ (reaches_frameOffset hc hall n hlen) hlen
  · intro hframes es t hrun
    obtain ⟨owner, hreads⟩ := hc.reads
    have hinit : Receiver.OneAligned ⟨c, bs, 0⟩ := by
      refine Or.inr ⟨by rw [hreads]; exact Nat.le_refl 1, fun p hp => ?_⟩
      rw [hreads, List.mem_singleton] at hp
      rw [hp]
      exact FrameStart.zero bs
    have hinv : t.OneAligned ∧ t.stream = bs := by
      refine Machine.invariant_run (I := fun s => Receiver.OneAligned s ∧ s.stream = bs) ?_
        ⟨hinit, rfl⟩ hrun
      rintro s e s' ⟨hs, rfl⟩ hstep
      exact Receiver.step_oneAligned hframes hs hstep
    exact hinv.1.imp id And.right

/-- A connection that was just accepted. -/
theorem reading_accepted (id : ℤ) : Reading .readHead (accepted id) :=
  ⟨rfl, rfl, rfl, rfl, id, rfl⟩

/-- A stream of one disconnect packet. -/
theorem framing_aligned_disconnect :
    FrameRead [0, 1, 8] 0 ∧
      ∀ es t, receiverMachine.run ⟨accepted 1, [0, 1, 8], 0⟩ es = some t → t.Aligned := by
  have hread : FrameRead [0, 1, 8] 0 := by decide
  refine ⟨hread, (framing_aligned_iff (reading_accepted 1) [0, 1, 8]).2 ?_⟩
  intro h _ hlen
  obtain rfl : h = 0 := by
    simp only [List.length_cons, List.length_nil] at hlen
    omega
  exact hread

/-- The heartbeat that `pack_heartbeat` writes: the next head is read at offset 3, inside the packet. -/
theorem heartbeat_slips :
    ∃ bs t, packHeartbeat heartbeatPackLen 0 = some bs ∧
      receiverMachine.run ⟨accepted 1, bs, 0⟩ [.read 0] = some t ∧ ¬t.Aligned := by
  refine ⟨[0, 5, 7, 0, 0, 0, 0], _, by decide, rfl, ?_⟩
  rintro (hclosed | hal)
  · cases hclosed
  · have hstart : FrameStart [0, 5, 7, 0, 0, 0, 0] 3 := hal ⟨.readHead, 1, true⟩ (by decide)
    have hle := (FrameStart.zero _).le_of_lt hstart (by decide)
    exact absurd hle (by decide)

end JmyGame
