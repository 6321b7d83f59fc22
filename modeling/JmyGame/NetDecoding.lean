import JmyGame.LibMachine
import JmyGame.NetDataHandler

/-! A stream of packets that arrives in pieces: each piece is read into the receive buffer and the data handler goes
over it. The handlers are called as for the whole stream at once as long as the buffer is never filled to its end
outside of a user packet, since only a user packet is moved to the front. -/

namespace JmyGame

open CArith Block NetProto

/-- The bytes of some packets. -/
def streamBytes (packets : List WirePacket) : List Byte := packets.flatMap WirePacket.bytes

@[simp] theorem streamBytes_nil : streamBytes [] = [] := rfl

theorem streamBytes_cons (p : WirePacket) (ps : List WirePacket) :
    streamBytes (p :: ps) = p.bytes ++ streamBytes ps := rfl

/-- Handlers are called one after the other, up to the first that fails. -/
def deliverAll (accepts : List Delivery → Delivery → Bool) : List Delivery → List Delivery → List Delivery × Bool
  | delivered, [] => (delivered, true)
  | delivered, d :: ds =>
      if accepts delivered d then deliverAll accepts (delivered ++ [d]) ds else (delivered ++ [d], false)

/-- The handlers that are to be called for a stream. A heartbeat at its end is never read. -/
def wholeDeliveries (connId : ℤ) : List WirePacket → List Delivery
  | [] => []
  | p :: ps => if p.isHeartbeat ∧ ps = [] then [] else p.delivery connId :: wholeDeliveries connId ps

/-- With `left` bytes to come the stream stands inside of a user packet. -/
def InsideUser (packets : List WirePacket) (left : ℕ) : Prop :=
  ∃ p ps, p :: ps <:+ packets ∧ p.type.IsUser ∧ (streamBytes ps).length < left ∧
    left < (streamBytes (p :: ps)).length

/-- A receive buffer with its data handler and the bytes of the stream that are to come. -/
structure Decoding where
  buffer : JmySessionBuffer
  handler : JmyDataHandler
  rest : List Byte
  failed : Bool

namespace Decoding

open JmyDataHandler

def start (size : ℕ) (hsize : size < 2 ^ 32) (packets : List WirePacket) : Decoding :=
  ⟨.init size hsize, .init, streamBytes packets, false⟩

variable (accepts : List Delivery → Delivery → Bool) (connId : ℤ)

/-- Some bytes are read, and `processData` is called. Without room nothing is read. Behind a failure, and behind the
end of the stream, there is no more reading. -/
def read (s : Decoding) (k : ℕ) : Option Decoding :=
  if s.failed = true ∨ s.rest = [] ∨ s.buffer.getWriteLen < k ∨ s.rest.length < k ∨
      k = 0 ∧ s.buffer.getWriteLen ≠ 0 then none
  else (s.buffer.copyIn (s.rest.take k)).bind fun b => (processData accepts connId b s.handler).map fun r =>
    ⟨r.2.1, r.2.2, s.rest.drop k, r.1 < 0⟩

def machine : Machine Decoding ℕ := ⟨read accepts connId⟩

/-- The bytes in the buffer are less than `2 ^ 31`, and a read to its end ends the stream or ends inside of a user
packet. -/
def Safe (packets : List WirePacket) (s : Decoding) (k : ℕ) : Prop :=
  s.buffer.getReadLen + k < 2 ^ 31 ∧
    (s.buffer.getWriteLen = k → s.rest.length ≠ k → InsideUser packets (s.rest.length - k))

/-- The handlers are called as for the whole stream at once, a read is defined, and a full buffer has room behind one
more call of `processData`. -/
structure Decodes (packets : List WirePacket) (s : Decoding) : Prop where
  delivers : s.failed = true ∨ s.rest = [] →
    deliverAll accepts [] (wholeDeliveries connId packets) = (s.handler.delivered, !s.failed)
  reads : s.failed = false → ∀ k, 0 < k → k ≤ s.buffer.getWriteLen → k ≤ s.rest.length →
    s.buffer.getReadLen + k < 2 ^ 31 → s.read accepts connId k ≠ none
  goesOn : s.failed = false → s.rest ≠ [] → s.buffer.getWriteLen = 0 →
    ∃ s', s.read accepts connId 0 = some s' ∧ s'.failed = false ∧ 0 < s'.buffer.getWriteLen

end Decoding

namespace JmyDataHandler

variable {accepts : List Delivery → Delivery → Bool} {connId : ℤ} {b : JmySessionBuffer} {h : JmyDataHandler}
  {rest : List Byte} {todo : List WirePacket}

/-- The bytes in the buffer are too few for the packet they begin with. -/
def Short (unread : List Byte) (todo : List WirePacket) : Prop :=
  unread = [] ∨ ∃ p ps, todo = p :: ps ∧ unread.length < p.wanted

/-- A handler failed, and the whole stream stops there, too. -/
structure Refuses (accepts : List Delivery → Delivery → Bool) (connId : ℤ) (todo : List WirePacket) (h : JmyDataHandler)
    (r : ℤ × JmySessionBuffer × JmyDataHandler) : Prop where
  result : r.1 < 0
  delivered : deliverAll accepts h.delivered (wholeDeliveries connId todo) = (r.2.2.delivered, false)

/-- The packets of the buffer are handled up to the first that is not there; the first `n` bytes of the buffer are
taken off, and it may have been moved to the front before. -/
structure Settles (accepts : List Delivery → Delivery → Bool) (connId : ℤ) (rest : List Byte)
    (todo todo' : List WirePacket) (n : ℕ) (b : JmySessionBuffer) (h : JmyDataHandler)
    (r : ℤ × JmySessionBuffer × JmyDataHandler) : Prop where
  result : ¬ r.1 < 0
  suffix : todo' <:+ todo
  le : n ≤ b.getReadLen
  bytes : b.unread.drop n ++ rest = streamBytes todo'
  short : Short (b.unread.drop n) todo'
  delivered : deliverAll accepts h.delivered (wholeDeliveries connId todo) =
    deliverAll accepts r.2.2.delivered (wholeDeliveries connId todo')
  buffer : r.2.1 = (b.readLen n).2 ∨ r.2.1 = (b.moveDataToFront.readLen n).2

theorem length_le_wanted (p : WirePacket) : p.bytes.length ≤ p.wanted := by
  unfold WirePacket.wanted
  split_ifs <;> omega

/-- A packet that is handled is no heartbeat at the end. -/
theorem wholeDeliveries_cons {buf : List Byte} {p : WirePacket} {ps : List WirePacket} (connId : ℤ)
    (hbytes : buf ++ rest = p.bytes ++ streamBytes ps) (hle : p.wanted ≤ buf.length) :
    wholeDeliveries connId (p :: ps) = p.delivery connId :: wholeDeliveries connId ps := by
  rw [wholeDeliveries, if_neg]
  rintro ⟨hheartbeat, rfl⟩
  have hlength := congrArg List.length hbytes
  rw [WirePacket.wanted, if_pos hheartbeat] at hle
  rw [streamBytes_nil, List.append_nil, List.length_append] at hlength
  omega

section

variable {p : WirePacket} {ps : List WirePacket} {h' : JmyDataHandler} {r : ℤ × JmySessionBuffer × JmyDataHandler}
  (hdelivered : deliverAll accepts h.delivered (wholeDeliveries connId (p :: ps)) =
    deliverAll accepts h'.delivered (wholeDeliveries connId ps))

include hdelivered

theorem Refuses.cons (hrefuse : Refuses accepts connId ps h' r) : Refuses accepts connId (p :: ps) h r :=
  ⟨hrefuse.result, hdelivered.trans hrefuse.delivered⟩

theorem Settles.cons {todo' : List WirePacket} {n : ℕ} (hsettle : Settles accepts connId rest ps todo' n b h' r) :
    Settles accepts connId rest (p :: ps) todo' n b h r where
  result := hsettle.result
  suffix := hsettle.suffix.trans (List.suffix_cons p ps)
  le := hsettle.le
  bytes := hsettle.bytes
  short := hsettle.short
  delivered := hdelivered.trans hsettle.delivered
  buffer := hsettle.buffer

end

theorem processLoop_spec (hstreamed : ∀ p ∈ todo, p.Streamed) (hlen : b.getReadLen < 2 ^ 31) {nhandled fuel : ℕ}
    (hbytes : b.unread.drop nhandled ++ rest = streamBytes todo) (hlt : nhandled < b.getReadLen)
    (hfuel : b.getReadLen - nhandled < fuel) (count : ℕ) (h : JmyDataHandler) :
    ∃ r, processLoop accepts connId b.getReadLen fuel nhandled count b h = some r ∧
      (Refuses accepts connId todo h r ∨ ∃ todo' n, Settles accepts connId rest todo todo' n b h r) := by
  induction todo generalizing nhandled fuel count h with
  | nil =>
      have hnil := (List.append_eq_nil_iff.1 hbytes).1
      have hlength := b.length_unread
      rw [List.drop_eq_nil_iff] at hnil
      omega
  | cons p ps ih =>
      obtain ⟨fuel, rfl⟩ : ∃ f, fuel = f + 1 := ⟨fuel - 1, by omega⟩
      rw [streamBytes_cons] at hbytes
      have hbegins : b.unread.drop nhandled <+: p.bytes ++ streamBytes ps := ⟨rest, hbytes⟩
      have hlength : (b.unread.drop nhandled).length = b.getReadLen - nhandled := by
        rw [List.length_drop, b.length_unread]
      have hne : b.unread.drop nhandled ≠ [] := List.ne_nil_of_length_pos (by omega)
      rw [processLoop]
      dsimp only
      rcases handleOne_spec accepts connId (hstreamed p List.mem_cons_self) hbegins hne hlen h with
        ⟨hle, hone⟩ | ⟨hlt', hone⟩
      · have hpos := p.length_bytes_pos
        have hwhole := wholeDeliveries_cons connId hbytes hle
        have hlt' : p.bytes.length ≤ (b.unread.drop nhandled).length := (length_le_wanted p).trans hle
        have hhandled := hone.handled
        by_cases haccept : accepts h.delivered (p.delivery connId) = true
        · rw [if_pos haccept] at hhandled
          rw [hhandled, if_neg (by omega), if_neg (by omega), Int.toNat_natCast, hone.buffer]
          have hbytes' : b.unread.drop (nhandled + p.bytes.length) ++ rest = streamBytes ps := by
            rw [← List.drop_drop, ← List.drop_append_of_le_length hlt', hbytes, List.drop_left]
          have hdelivered : deliverAll accepts h.delivered (wholeDeliveries connId (p :: ps)) =
              deliverAll accepts (handleOne accepts connId b nhandled h).2.2.delivered
                (wholeDeliveries connId ps) := by
            rw [hwhole, deliverAll, if_pos haccept, hone.delivered]
          by_cases hend : b.getReadLen - (nhandled + p.bytes.length) = 0
          · rw [if_pos hend]
            have hnil : b.unread.drop (nhandled + p.bytes.length) = [] := by
              rw [List.drop_eq_nil_iff, b.length_unread]
              omega
            refine ⟨_, rfl, Or.inr ⟨ps, nhandled + p.bytes.length, ?_, List.suffix_cons p ps, by omega, hbytes',
              Or.inl hnil, hdelivered, Or.inl rfl⟩⟩
            exact not_lt.2 (Int.natCast_nonneg _)
          · rw [if_neg hend]
            have hfuel' : b.getReadLen - (nhandled + p.bytes.length) < fuel := by omega
            obtain ⟨r, hr, hcases⟩ := ih (fun q hq => hstreamed q (List.mem_cons_of_mem p hq)) hbytes' (by omega)
              hfuel' _ (handleOne accepts connId b nhandled h).2.2
            refine ⟨r, hr, hcases.imp (Refuses.cons hdelivered) ?_⟩
            rintro ⟨todo', n, hsettle⟩
            exact ⟨todo', n, hsettle.cons hdelivered⟩
        · rw [if_neg haccept] at hhandled
          have hneg : (-1 : ℤ) < 0 := by decide
          rw [hhandled, if_pos hneg]
          refine ⟨_, rfl, Or.inl ⟨hneg, ?_⟩⟩
          rw [hwhole, deliverAll, if_neg haccept, hone.delivered]
      · rw [hone.handled, if_neg (lt_irrefl (0 : ℤ)), if_pos rfl]
        refine ⟨_, rfl, Or.inr ⟨p :: ps, nhandled, not_lt.2 (Int.natCast_nonneg _), List.suffix_rfl, by omega, hbytes,
          Or.inr ⟨p, ps, rfl, hlt'⟩, by rw [hone.delivered], ?_⟩⟩
        rcases hone.buffer with hsame | hmoved
        · rw [hsame]
          exact Or.inl rfl
        · rw [hmoved]
          exact Or.inr rfl

theorem processData_spec (hstreamed : ∀ p ∈ todo, p.Streamed) (hlen : b.getReadLen < 2 ^ 31)
    (hbytes : b.unread ++ rest = streamBytes todo) (hne : b.unread ≠ []) (h : JmyDataHandler) :
    ∃ r, processData accepts connId b h = some r ∧
      (Refuses accepts connId todo h r ∨ ∃ todo' n, Settles accepts connId rest todo todo' n b h r) := by
  have hpos := List.length_pos_iff.2 hne
  rw [b.length_unread] at hpos
  exact processLoop_spec hstreamed hlen hbytes hpos (Nat.lt_succ_self _) 0 h

/-- The beginning of a user packet in a full buffer is moved to the front. -/
theorem processData_full {p : WirePacket} {more : List Byte} (hp : p.type.IsUser) (hlen : b.getReadLen < 2 ^ 31)
    (hbegins : b.unread <+: p.bytes ++ more) (hne : b.unread ≠ []) (hshort : b.unread.length < p.bytes.length)
    (hfull : b.getWriteLen = 0) (h : JmyDataHandler) :
    ∃ r, processData accepts connId b h = some r ∧ ¬ r.1 < 0 ∧ r.2.1 = (b.moveDataToFront.readLen 0).2 := by
  rw [← List.drop_zero (l := b.unread)] at hbegins hne hshort
  have hone : LeavesOne p b h (handleOne accepts connId b 0 h) := by
    rcases handleOne_user hp hbegins hne hlen h with ⟨hle, -⟩ | ⟨-, hone⟩
    · exact absurd hshort (not_lt.2 hle)
    · exact hone
  rw [processData, processLoop]
  dsimp only
  rw [hone.handled, if_neg (lt_irrefl (0 : ℤ)), if_pos rfl, hone.moved hp hfull]
  exact ⟨_, rfl, lt_irrefl _, rfl⟩

end JmyDataHandler

theorem length_streamBytes_of_suffix {ps qs : List WirePacket} (h : ps <:+ qs) :
    (streamBytes ps).length ≤ (streamBytes qs).length := by
  obtain ⟨rs, rfl⟩ := h
  rw [streamBytes, streamBytes, List.flatMap_append, List.length_append]
  omega

/-- When the stream stands inside of a user packet, the bytes in the buffer are the beginning of it. -/
theorem InsideUser.short {packets todo : List WirePacket} {unread rest : List Byte}
    (hinside : InsideUser packets rest.length) (hsuffix : todo <:+ packets)
    (hbytes : unread ++ rest = streamBytes todo) (hshort : JmyDataHandler.Short unread todo) :
    ∃ p ps, todo = p :: ps ∧ p.type.IsUser ∧ unread ≠ [] ∧ unread.length < p.bytes.length := by
  obtain ⟨p, ps, hps, huser, hlow, hhigh⟩ := hinside
  have hlength := congrArg List.length hbytes
  rw [List.length_append] at hlength
  have hsame : todo = p :: ps := by
    cases todo with
    | nil =>
        rw [streamBytes_nil, List.length_nil] at hlength
        omega
    | cons q qs =>
        rw [streamBytes_cons, List.length_append] at hlength
        have hfew : unread.length ≤ q.bytes.length := by
          rcases hshort with rfl | ⟨q', qs', hcons, hlt⟩
          · exact Nat.zero_le _
          · rw [← (List.cons.inj hcons).1] at hlt
            unfold WirePacket.wanted at hlt
            split_ifs at hlt <;> omega
        rcases List.suffix_or_suffix_of_suffix hsuffix hps with hle | hle
        · rcases List.suffix_cons_iff.1 hle with heq | hle
          · exact heq
          · have := length_streamBytes_of_suffix hle
            rw [streamBytes_cons, List.length_append] at this
            omega
        · rcases List.suffix_cons_iff.1 hle with heq | hle
          · exact heq.symm
          · have := length_streamBytes_of_suffix hle
            omega
  refine ⟨p, ps, hsame, huser, ?_⟩
  rw [hsame] at hlength
  rw [streamBytes_cons, List.length_append] at hlength hhigh
  exact ⟨List.ne_nil_of_length_pos (by omega), by omega⟩

namespace Decoding

open JmyDataHandler

variable {accepts : List Delivery → Delivery → Bool} {connId : ℤ} {size : ℕ} {packets : List WirePacket}
  {s s' : Decoding}

/-- Where a receiver that has not failed stands: the packets `todo` are to be handled, of which the first is not all
in the buffer. -/
structure Standing (accepts : List Delivery → Delivery → Bool) (connId : ℤ) (size : ℕ) (packets todo : List WirePacket)
    (s : Decoding) : Prop where
  size : s.buffer.buff.length = size
  suffix : todo <:+ packets
  bytes : s.buffer.unread ++ s.rest = streamBytes todo
  short : Short s.buffer.unread todo
  delivered : deliverAll accepts [] (wholeDeliveries connId packets) =
    deliverAll accepts s.handler.delivered (wholeDeliveries connId todo)
  small : s.buffer.getReadLen < 2 ^ 31
  full : s.buffer.getWriteLen = 0 → s.rest ≠ [] →
    ∃ p ps, todo = p :: ps ∧ p.type.IsUser ∧ s.buffer.unread ≠ [] ∧ s.buffer.unread.length < p.bytes.length

structure Inv (accepts : List Delivery → Delivery → Bool) (connId : ℤ) (size : ℕ) (packets : List WirePacket)
    (s : Decoding) : Prop where
  failed : s.failed = true →
    deliverAll accepts [] (wholeDeliveries connId packets) = (s.handler.delivered, false)
  standing : s.failed = false → ∃ todo, Standing accepts connId size packets todo s

/-- A read that has something to process. -/
theorem Standing.read {todo : List WirePacket} (h : Standing accepts connId size packets todo s)
    (hstreamed : ∀ p ∈ packets, p.Streamed) (hok : s.failed = false) {k : ℕ} (hroom : k ≤ s.buffer.getWriteLen)
    (hrest : k ≤ s.rest.length) (hrest0 : s.rest ≠ []) (hk : 0 < k ∨ s.buffer.getWriteLen = 0)
    (hsmall : s.buffer.getReadLen + k < 2 ^ 31) :
    ∃ b r, s.buffer.copyIn (s.rest.take k) = some b ∧ b.unread = s.buffer.unread ++ s.rest.take k ∧
      b.getWriteLen = s.buffer.getWriteLen - k ∧ b.getReadLen = s.buffer.getReadLen + k ∧
      processData accepts connId b s.handler = some r ∧
      s.read accepts connId k = some ⟨r.2.1, r.2.2, s.rest.drop k, r.1 < 0⟩ ∧
      (Refuses accepts connId todo s.handler r ∨
        ∃ todo' n, Settles accepts connId (s.rest.drop k) todo todo' n b s.handler r) := by
  have htake : (s.rest.take k).length = k := by
    rw [List.length_take]
    omega
  obtain ⟨b, hb⟩ : ∃ b, s.buffer.copyIn (s.rest.take k) = some b := by
    refine Option.ne_none_iff_exists'.1 fun hnone => ?_
    have := JmySessionBuffer.copyIn_eq_none.1 hnone
    omega
  obtain ⟨hunread, hwrite⟩ := JmySessionBuffer.copyIn_spec hb
  have hread : b.getReadLen = s.buffer.getReadLen + k := by
    rw [← b.length_unread, hunread, List.length_append, htake, s.buffer.length_unread]
  have hne : b.unread ≠ [] := by
    rcases hk with hk | hfull
    · refine List.ne_nil_of_length_pos ?_
      rw [b.length_unread]
      omega
    · obtain ⟨p, ps, -, -, hne, -⟩ := h.full hfull hrest0
      rw [hunread]
      exact List.append_ne_nil_of_left_ne_nil hne _
  have hbytes : b.unread ++ s.rest.drop k = streamBytes todo := by
    rw [hunread, List.append_assoc, List.take_append_drop, h.bytes]
  have hstreamed' : ∀ p ∈ todo, p.Streamed := fun p hp => hstreamed p (h.suffix.subset hp)
  obtain ⟨r, hr, hcases⟩ := processData_spec hstreamed' (by omega) hbytes hne s.handler
  refine ⟨b, r, hb, hunread, by rw [hwrite, htake], hread, hr, ?_, hcases⟩
  unfold Decoding.read
  rw [if_neg, hb, Option.bind_some, hr]
  · rfl
  · rintro (hfailed | hnil | hlt | hlt | ⟨rfl, hroom⟩)
    · rw [hok] at hfailed
      exact nomatch hfailed
    · exact hrest0 hnil
    · omega
    · omega
    · omega

theorem length_copyIn {b b' : JmySessionBuffer} {data : List Byte} (h : b.copyIn data = some b') :
    b'.buff.length = b.buff.length := by
  rw [JmySessionBuffer.copyIn] at h
  split at h
  · rename_i hfit
    cases h
    exact length_write hfit
  · cases h

theorem getWriteLen_moveDataToFront (b : JmySessionBuffer) :
    b.moveDataToFront.getWriteLen = b.buff.length - b.getReadLen := by
  rw [JmySessionBuffer.getWriteLen, b.length_moveDataToFront]
  rfl

theorem getWriteLen_readLen {b : JmySessionBuffer} {n : ℕ} (h : n ≤ b.getReadLen) :
    (b.readLen n).2.getWriteLen = b.getWriteLen := by
  obtain ⟨-, hbuff, hoffset⟩ := b.unread_readLen h
  rw [JmySessionBuffer.getWriteLen, JmySessionBuffer.getWriteLen, hbuff, hoffset]

/-- What is left in the buffer behind `processData`. -/
theorem settled_buffer {rest : List Byte} {todo todo' : List WirePacket} {n : ℕ} {b : JmySessionBuffer}
    {h : JmyDataHandler}
    {r : ℤ × JmySessionBuffer × JmyDataHandler} (hsettle : Settles accepts connId rest todo todo' n b h r) :
    r.2.1.unread = b.unread.drop n ∧ r.2.1.buff.length = b.buff.length ∧ b.getWriteLen ≤ r.2.1.getWriteLen := by
  have hle := hsettle.le
  have := b.read_le
  have := b.write_le
  rcases hsettle.buffer with hr | hr
  · obtain ⟨hunread, hbuff, -⟩ := b.unread_readLen hle
    rw [hr]
    exact ⟨hunread, by rw [hbuff], (getWriteLen_readLen hle).ge⟩
  · have hle' : n ≤ b.moveDataToFront.getReadLen := hle
    obtain ⟨hunread, hbuff, -⟩ := b.moveDataToFront.unread_readLen hle'
    rw [hr]
    refine ⟨by rw [hunread, b.unread_moveDataToFront], by rw [hbuff, b.length_moveDataToFront], ?_⟩
    rw [getWriteLen_readLen hle', getWriteLen_moveDataToFront, JmySessionBuffer.getWriteLen,
      JmySessionBuffer.getReadLen]
    omega

/-- The beginning of `start`. -/
theorem Inv.start (hsize : size < 2 ^ 32) (hfit : ∀ p ∈ packets, p.bytes.length ≤ size) :
    Inv accepts connId size packets (Decoding.start size hsize packets) := by
  have hunread : (JmySessionBuffer.init size hsize).unread = [] := by
    refine List.eq_nil_of_length_eq_zero ?_
    rw [JmySessionBuffer.length_unread]
    rfl
  refine ⟨(fun h => nomatch h), fun _ => ⟨packets, List.length_replicate, List.suffix_rfl, ?_, Or.inl hunread, rfl,
    Nat.two_pow_pos 31, fun hfull hrest => ?_⟩⟩
  · show (JmySessionBuffer.init size hsize).unread ++ streamBytes packets = streamBytes packets
    rw [hunread, List.nil_append]
  · -- a buffer of no bytes has no packet that fits
    have hzero : size = 0 := by
      have hlength : (JmySessionBuffer.init size hsize).buff.length = size := List.length_replicate
      have hfull : (JmySessionBuffer.init size hsize).buff.length - 0 = 0 := hfull
      omega
    cases packets with
    | nil => exact absurd rfl hrest
    | cons p ps =>
        have := hfit p List.mem_cons_self
        have := p.length_bytes_pos
        omega

/-- When a read can be made. -/
theorem read_allowed {k : ℕ} (hread : s.read accepts connId k = some s') :
    s.failed = false ∧ s.rest ≠ [] ∧ k ≤ s.buffer.getWriteLen ∧ k ≤ s.rest.length ∧
      (0 < k ∨ s.buffer.getWriteLen = 0) := by
  unfold Decoding.read at hread
  split_ifs at hread with hnot
  simp only [not_or, not_and, not_not, not_lt] at hnot
  obtain ⟨hfailed, hrest, hroom, hlen, hzero⟩ := hnot
  refine ⟨Bool.eq_false_iff.2 hfailed, hrest, hroom, hlen, ?_⟩
  rcases Nat.eq_zero_or_pos k with hk | hk
  · exact Or.inr (hzero hk)
  · exact Or.inl hk

/-- A safe read keeps the invariant. -/
theorem Inv.read (h : Inv accepts connId size packets s) (hstreamed : ∀ p ∈ packets, p.Streamed) {k : ℕ}
    (hsafe : Safe packets s k) (hread : s.read accepts connId k = some s') : Inv accepts connId size packets s' := by
  obtain ⟨hok, hrest0, hroom, hrest, hk⟩ := read_allowed hread
  obtain ⟨todo, hstand⟩ := h.standing hok
  obtain ⟨b, r, hcopy, hunread, hwrite, hlen, -, hsome, hcases⟩ :=
    hstand.read hstreamed hok hroom hrest hrest0 hk hsafe.1
  rw [hread, Option.some.injEq] at hsome
  subst hsome
  have hblock : b.buff.length = size := (length_copyIn hcopy).trans hstand.size
  rcases hcases with hrefuse | ⟨todo', n, hsettle⟩
  · refine ⟨fun _ => hstand.delivered.trans hrefuse.delivered, fun hfailed => ?_⟩
    exact absurd hrefuse.result (of_decide_eq_false hfailed)
  · obtain ⟨hunread', hlength, hroom'⟩ := settled_buffer hsettle
    have hsuffix := hsettle.suffix.trans hstand.suffix
    have hbytes := hsettle.bytes
    have hshort := hsettle.short
    rw [← hunread'] at hbytes hshort
    refine ⟨fun hfailed => absurd (of_decide_eq_true hfailed) hsettle.result, fun _ =>
      ⟨todo', hlength.trans hblock, hsuffix, hbytes, hshort, hstand.delivered.trans hsettle.delivered, ?_,
        fun hfull hleft => ?_⟩⟩
    · have hle : r.2.1.unread.length ≤ b.unread.length := by
        rw [hunread', List.length_drop]
        omega
      rw [JmySessionBuffer.length_unread, JmySessionBuffer.length_unread] at hle
      have := hsafe.1
      show r.2.1.getReadLen < 2 ^ 31
      omega
    · -- the buffer was full before `processData`, so that the read went to its end
      have hfull : r.2.1.getWriteLen = 0 := hfull
      have hleft : s.rest.drop k ≠ [] := hleft
      have hlength' : (s.rest.drop k).length = s.rest.length - k := List.length_drop
      have hpos := List.length_pos_iff.2 hleft
      have hinside := hsafe.2 (by omega) (by omega)
      rw [← hlength'] at hinside
      exact hinside.short hsuffix hbytes hshort

/-- Behind the end of the stream there is nothing but a heartbeat left in the buffer. -/
theorem nothing_left (connId : ℤ) {unread : List Byte} {todo : List WirePacket} (hbytes : unread = streamBytes todo)
    (hshort : Short unread todo) : wholeDeliveries connId todo = [] := by
  cases todo with
  | nil => rfl
  | cons p ps =>
      have hlength := congrArg List.length hbytes
      have hpos := p.length_bytes_pos
      rw [streamBytes_cons, List.length_append] at hlength
      rcases hshort with rfl | ⟨p', ps', hcons, hlt⟩
      · rw [List.length_nil] at hlength
        omega
      · rw [← (List.cons.inj hcons).1] at hlt
        unfold WirePacket.wanted at hlt
        split_ifs at hlt with hheartbeat
        · refine if_pos ⟨hheartbeat, ?_⟩
          cases ps with
          | nil => rfl
          | cons q qs =>
              have := q.length_bytes_pos
              rw [streamBytes_cons, List.length_append] at hlength
              omega
        · omega

/-- What the property asks for, from the invariant. -/
theorem Inv.decodes (h : Inv accepts connId size packets s) (hstreamed : ∀ p ∈ packets, p.Streamed)
    (hfit : ∀ p ∈ packets, p.bytes.length ≤ size) : Decodes accepts connId packets s := by
  refine ⟨fun hend => ?_, fun hok k hk hroom hrest hsmall => ?_, fun hok hrest hfull => ?_⟩
  · cases hfailed : s.failed with
    | true => exact h.failed hfailed
    | false =>
        obtain ⟨todo, hstand⟩ := h.standing hfailed
        have hnil : s.rest = [] := hend.resolve_left (by rw [hfailed]; decide)
        have hbytes := hstand.bytes
        rw [hnil, List.append_nil] at hbytes
        rw [hstand.delivered, nothing_left connId hbytes hstand.short]
        rfl
  · obtain ⟨todo, hstand⟩ := h.standing hok
    have hrest0 : s.rest ≠ [] := List.ne_nil_of_length_pos (by omega)
    obtain ⟨b, r, -, -, -, -, -, hsome, -⟩ := hstand.read hstreamed hok hroom hrest hrest0 (Or.inl hk) hsmall
    rw [hsome]
    exact Option.some_ne_none _
  · obtain ⟨todo, hstand⟩ := h.standing hok
    obtain ⟨p, ps, htodo, huser, hne, hshort⟩ := hstand.full hfull hrest
    obtain ⟨b, r, hcopy, hunread, hwrite, hlen, hprocess, hsome, -⟩ :=
      hstand.read hstreamed hok (Nat.zero_le _) (Nat.zero_le _) hrest (Or.inr hfull) hstand.small
    rw [List.take_zero, List.append_nil] at hunread
    have hbegins : b.unread <+: p.bytes ++ streamBytes ps := by
      rw [hunread]
      exact ⟨s.rest, hstand.bytes.trans (by rw [htodo, streamBytes_cons])⟩
    have hsmall := hstand.small
    have hpos := List.length_pos_iff.2 hne
    have hroom := hfit p (hstand.suffix.subset (by rw [htodo]; exact List.mem_cons_self))
    obtain ⟨r', hr', hresult, hbuffer⟩ : ∃ r, JmyDataHandler.processData accepts connId b s.handler = some r ∧
        ¬r.1 < 0 ∧ r.2.1 = (b.moveDataToFront.readLen 0).2 :=
      processData_full huser (by omega) hbegins (hunread ▸ hne) (hunread ▸ hshort) (by omega) s.handler
    cases hprocess.symm.trans hr'
    refine ⟨_, hsome, decide_eq_false hresult, ?_⟩
    dsimp only
    have hunreadLen := s.buffer.length_unread
    rw [hbuffer, getWriteLen_readLen (Nat.zero_le _), getWriteLen_moveDataToFront, length_copyIn hcopy, hstand.size]
    omega

theorem length_bytes_le {p : WirePacket} (hp : p ∈ packets) : p.bytes.length ≤ (streamBytes packets).length := by
  obtain ⟨qs, ps, rfl⟩ := List.append_of_mem hp
  have hle := length_streamBytes_of_suffix (List.suffix_append qs (p :: ps))
  rw [streamBytes_cons, List.length_append] at hle
  omega

/-- One read of the whole stream into a buffer that it fits. -/
theorem read_whole (hsize : size < 2 ^ 32) (hstreamed : ∀ p ∈ packets, p.Streamed) (hpackets : packets ≠ [])
    (hfit : (streamBytes packets).length ≤ size) (hsmall : (streamBytes packets).length < 2 ^ 31) :
    ∃ s, (start size hsize packets).read accepts connId (streamBytes packets).length = some s ∧
      deliverAll accepts [] (wholeDeliveries connId packets) = (s.handler.delivered, !s.failed) := by
  obtain ⟨p, ps, hcons⟩ := List.exists_cons_of_ne_nil hpackets
  have hpos : 0 < (streamBytes packets).length :=
    p.length_bytes_pos.trans_le (length_bytes_le (hcons ▸ List.mem_cons_self))
  have hroom : (JmySessionBuffer.init size hsize).getWriteLen = size := List.length_replicate
  have hfitOne : ∀ p ∈ packets, p.bytes.length ≤ size := fun p hp => (length_bytes_le hp).trans hfit
  have hstart : Inv accepts connId size packets (start size hsize packets) := Inv.start hsize hfitOne
  obtain ⟨todo, hstand⟩ := hstart.standing rfl
  have hunread : (start size hsize packets).buffer.getReadLen = 0 := rfl
  have hsafe : Safe packets (start size hsize packets) (streamBytes packets).length :=
    ⟨by omega, fun _ hmore => absurd rfl hmore⟩
  obtain ⟨b, r, -, -, -, -, -, hsome, -⟩ := hstand.read hstreamed rfl (hfit.trans hroom.ge) le_rfl
    (List.ne_nil_of_length_pos hpos) (Or.inl hpos) hsafe.1
  refine ⟨_, hsome, ((hstart.read hstreamed hsafe hsome).decodes hstreamed hfitOne).delivers (Or.inr ?_)⟩
  exact List.drop_length

/-- Along a run of safe reads the stream is decoded, and the handlers are called as for one read of the whole stream. -/
theorem decodes_along (hsize : size < 2 ^ 32) (hstreamed : ∀ p ∈ packets, p.Streamed)
    (hfit : ∀ p ∈ packets, p.bytes.length ≤ size) {reads : List ℕ}
    (halong : (machine accepts connId).Along (Safe packets) (start size hsize packets) reads)
    (hrun : (machine accepts connId).run (start size hsize packets) reads = some s) :
    Decodes accepts connId packets s ∧
      ∀ (whole : ℕ) (hwhole : whole < 2 ^ 32), packets ≠ [] → (streamBytes packets).length ≤ whole →
        (streamBytes packets).length < 2 ^ 31 →
        ∃ s₀, (start whole hwhole packets).read accepts connId (streamBytes packets).length = some s₀ ∧
          (s.failed = true ∨ s.rest = [] →
            s.handler.delivered = s₀.handler.delivered ∧ s.failed = s₀.failed) := by
  have hinv : Inv accepts connId size packets s :=
    Machine.invariant_along (fun _ _ _ h hsafe hread => h.read hstreamed hsafe hread) (Inv.start hsize hfit) halong hrun
  have hdecodes := hinv.decodes hstreamed hfit
  refine ⟨hdecodes, fun whole hwhole hpackets hle hsmall => ?_⟩
  obtain ⟨s₀, hread, hwholeEq⟩ : ∃ s₀, (start whole hwhole packets).read accepts connId (streamBytes packets).length =
      some s₀ ∧ deliverAll accepts [] (wholeDeliveries connId packets) = (s₀.handler.delivered, !s₀.failed) :=
    read_whole hwhole hstreamed hpackets hle hsmall
  refine ⟨s₀, hread, fun hend => ?_⟩
  have hboth := (hdecodes.delivers hend).symm.trans hwholeEq
  rw [Prod.mk.injEq] at hboth
  exact ⟨hboth.1, Bool.not_inj hboth.2⟩

/-- A user packet with the message id 1 and no data. -/
def shortMsg : WirePacket := .userData 1 [] (by decide)

theorem inside_shortMsg : InsideUser [shortMsg, shortMsg] 3 :=
  ⟨shortMsg, [], ⟨[shortMsg], rfl⟩, Or.inl rfl, by decide, by decide⟩

/-- Two packets in a buffer of seven bytes, with a read that fills it inside of the second packet. -/
theorem decodes_shortMsgs : ∃ s, 7 < 2 ^ 32 ∧
    (machine (fun _ _ => true) 0).run (start 7 (by decide) [shortMsg, shortMsg]) [7, 0, 3] = some s ∧
      s.rest = [] ∧ Decodes (fun _ _ => true) 0 [shortMsg, shortMsg] s := by
  have halong : (machine (fun _ _ => true) 0).Along (Safe [shortMsg, shortMsg])
      (start 7 (by decide) [shortMsg, shortMsg]) [7, 0, 3] := by
    refine ⟨⟨by decide, fun _ _ => inside_shortMsg⟩, fun s hs => ?_⟩
    cases hs
    refine ⟨⟨by decide, fun _ _ => inside_shortMsg⟩, fun s hs => ?_⟩
    cases hs
    exact ⟨⟨by decide, fun _ hmore => absurd rfl hmore⟩, fun _ _ => trivial⟩
  refine ⟨_, by decide, rfl, rfl, (decodes_along (by decide) ?_ ?_ halong rfl).1⟩
  · intro p hp
    rcases List.mem_cons.1 hp with rfl | hp
    · trivial
    · rw [List.mem_singleton.1 hp]
      trivial
  · decide

/-- A buffer that is read to its end exactly has no room again, and the last message is handled once more. -/
theorem decodes_fails : ∃ s, (machine (fun _ _ => true) 0).run (start 5 (by decide) [shortMsg, shortMsg]) [5] = some s ∧
    ¬ Decodes (fun _ _ => true) 0 [shortMsg, shortMsg] s := by
  refine ⟨_, rfl, fun h => ?_⟩
  obtain ⟨s', hread, -, hpos⟩ := h.goesOn rfl (by decide) rfl
  cases hread
  exact absurd hpos (by decide)

end Decoding

end JmyGame
