import Mathlib.Data.BitVec
import JmyGame.NetFlow

/-! Delivery over a pair of connections. Two connections with send lists are joined by two byte
streams; the socket of one side takes the bytes of a send in pieces, and reads of the other side take
them off the stream. In every interleaving the messages that a side hands to its handlers are the
packets that the other side sent, in order, up to those that are still on the way. -/

namespace JmyGame

open CArith Block JmySessionBufferList

inductive Side where
  | left
  | right
  deriving DecidableEq, Repr

def Side.other : Side → Side
  | left => right
  | right => left

/-- Two connections and the bytes that each side has sent and the other one not yet read. `moved` is the
number of bytes that the socket of a side has taken of its pending send. -/
structure Link where
  conn : Side → JmyTcpConnection
  moved : Side → Option ℕ
  stream : Side → List Byte

/-- What happens on a link whose streams are reliable: nothing fails, and a read completes with the
bytes it asked for. -/
inductive LinkEvent where
  | call (a : Side) (k : ConnCall)
  | transfer (a : Side) (i k : ℕ)
  | sendDone (a : Side) (i : ℕ)
  | readDone (a : Side) (i : ℕ)
  | run (a : Side) (handlers : ConnHandlers) (now : ℤ) (data : JmyPacketUnpackData2) (past : ℕ → Byte)

namespace Link

def setConn (l : Link) (a : Side) (c : JmyTcpConnection) : Link :=
  { l with conn := Function.update l.conn a c }

def step (l : Link) : LinkEvent → Option Link
  | .call a k => ((l.conn a).step (.call k)).map (l.setConn a)
  | .run a h now data past => ((l.conn a).step (.run h now data past)).map (l.setConn a)
  | .transfer a i k => ((l.conn a).pending[i]?).bind fun p => p.op.offered.bind fun offered =>
    if l.moved a = none ∧ 1 ≤ k ∧ k ≤ offered.length then
      some { l with
        moved := Function.update l.moved a (some k)
        stream := Function.update l.stream a (l.stream a ++ offered.take k) }
    else none
  | .sendDone a i => (l.moved a).bind fun k =>
    ((l.conn a).step (.complete i (.sent k))).map fun c =>
      { l.setConn a c with moved := Function.update l.moved a none }
  | .readDone a i => ((l.conn a).pending[i]?).bind fun p => p.op.wanted.bind fun n =>
    if n ≤ (l.stream a.other).length then
      ((l.conn a).step (.complete i (.read ((l.stream a.other).take n)))).map fun c =>
        { l.setConn a c with stream := Function.update l.stream a.other ((l.stream a.other).drop n) }
    else none

end Link

def linkMachine : Machine Link LinkEvent := ⟨Link.step⟩

/-- Both directions of the link flow. -/
def Link.Flows (l : Link) : Prop :=
  ∀ a, ∃ q rest, Flow (l.conn a) (l.moved a) (l.stream a) (l.conn a.other) q rest

/-- The calls of the program on the link are sends that fit, and its handlers answer no error. -/
def LinkEvent.Ok : LinkEvent → Prop
  | .call _ k => k.Ok
  | .run _ h _ _ _ => h.Ok
  | _ => True

theorem Side.other_ne (a : Side) : a.other ≠ a := by cases a <;> decide

theorem Side.eq_or (a b : Side) : b = a ∨ b = a.other := by cases a <;> cases b <;> decide

theorem Side.other_other (a : Side) : a.other.other = a := by cases a <;> rfl

/-- A step of one side: the flow from it and the flow to it. -/
theorem Link.flows_of {l : Link} (a : Side)
    (hout : ∃ q rest, Flow (l.conn a) (l.moved a) (l.stream a) (l.conn a.other) q rest)
    (hin : ∃ q rest, Flow (l.conn a.other) (l.moved a.other) (l.stream a.other) (l.conn a) q rest) :
    l.Flows := by
  intro b
  rcases a.eq_or b with rfl | rfl
  · exact hout
  · rw [a.other_other]
    exact hin

/-- The flow from a side and the flow to it. -/
theorem Link.Flows.both {l : Link} (hl : l.Flows) (a : Side) :
    (∃ q rest, Flow (l.conn a) (l.moved a) (l.stream a) (l.conn a.other) q rest) ∧
      ∃ q rest, Flow (l.conn a.other) (l.moved a.other) (l.stream a.other) (l.conn a) q rest := by
  have hin := hl a.other
  rw [a.other_other] at hin
  exact ⟨hl a, hin⟩

namespace Link.Flows

variable {l l' : Link} {a : Side}

/-- A send appends its packet to the flow from its side. -/
theorem call (hl : l.Flows) {k : ConnCall} (hk : k.Ok) (hstep : l.step (.call a k) = some l') : l'.Flows := by
  obtain ⟨⟨q, rest, hout⟩, q', rest', hin⟩ := hl.both a
  obtain ⟨c, hc, rfl⟩ := Option.map_eq_some_iff.1 hstep
  obtain ⟨c', hcall, p, hg⟩ := call_grew hout.sending.can hk
  obtain rfl : c' = c := Option.some.inj (hcall.symm.trans hc)
  refine Link.flows_of a ⟨q, rest ++ [p], ?_⟩ ⟨q', rest', ?_⟩
  · simp only [Link.setConn, Function.update_self, Function.update_of_ne a.other_ne]
    exact hg.flow_sender hout
  · simp only [Link.setConn, Function.update_self, Function.update_of_ne a.other_ne]
    exact hg.sameIn.flow hin

/-- A run handles what was received, appends the answers and starts to send. -/
theorem run (hl : l.Flows) {h : ConnHandlers} (hh : h.Ok) {now : ℤ} {data : JmyPacketUnpackData2} {past : ℕ → Byte}
    (hstep : l.step (.run a h now data past) = some l') : l'.Flows := by
  obtain ⟨⟨q, rest, hout⟩, q', rest', hin⟩ := hl.both a
  obtain ⟨c, hc, rfl⟩ := Option.map_eq_some_iff.1 hstep
  obtain ⟨ps, c₁, hg, hrun⟩ := run_grew hh hout.sending.can
    (fun p hp => hin.ok p (List.mem_append_left rest' hp)) hin.recv now data past
  rw [hrun, Option.some.injEq] at hc
  subst hc
  have hclear : SameOut c₁ (c₁.setRecvBuffList c₁.buffer.recvBuffList.clear) :=
    ⟨rfl, rfl, rfl, rfl, rfl, rfl⟩
  have hout₁ := hclear.flow (hg.flow_sender hout)
  obtain ⟨hsend, hbuffer, htrace⟩ := startSend_sending hout₁.sending
  refine Link.flows_of a ⟨q, rest ++ ps, ?_⟩ ⟨[], rest', ?_⟩
  · simp only [Link.setConn, Function.update_self, Function.update_of_ne a.other_ne]
    refine ⟨hsend, hout₁.ok, by rw [htrace]; exact hout₁.messages, hout₁.recv, ?_⟩
    rw [unsent, hbuffer]
    exact hout₁.awaits
  · simp only [Link.setConn, Function.update_self, Function.update_of_ne a.other_ne]
    exact (SameIn.startSend hout₁.sending).flow (hg.flow_receiver hin)

/-- Bytes that the system takes are behind those on their way. -/
theorem transfer (hl : l.Flows) {i k : ℕ} (hstep : l.step (.transfer a i k) = some l') : l'.Flows := by
  obtain ⟨⟨q, rest, hout⟩, q', rest', hin⟩ := hl.both a
  obtain ⟨p, hp, hstep⟩ := Option.bind_eq_some_iff.1 hstep
  obtain ⟨offered, hoffered, hstep⟩ := Option.bind_eq_some_iff.1 hstep
  split_ifs at hstep with hk
  cases hstep
  rw [hk.1] at hout
  obtain ⟨hsend, hbytes⟩ := transfer_sending hout.sending hp hoffered hk.2.2
  refine Link.flows_of a ⟨q, rest, ?_⟩ ⟨q', rest', ?_⟩
  · simp only [Function.update_self]
    refine ⟨hsend, hout.ok, hout.messages, hout.recv, ?_⟩
    rw [List.append_assoc, hbytes]
    exact hout.awaits
  · simp only [Function.update_of_ne a.other_ne]
    exact hin

theorem sendDone (hl : l.Flows) {i : ℕ} (hstep : l.step (.sendDone a i) = some l') : l'.Flows := by
  obtain ⟨⟨q, rest, hout⟩, q', rest', hin⟩ := hl.both a
  obtain ⟨k, hk, hstep⟩ := Option.bind_eq_some_iff.1 hstep
  obtain ⟨c, hc, rfl⟩ := Option.map_eq_some_iff.1 hstep
  obtain ⟨p, hp, hposs, rfl⟩ := complete_eq_some hc
  rw [hk] at hout
  have hsend : p.op.isRead = false := by
    cases hop : p.op <;> simp [Completion.possible, hop] at hposs <;> rfl
  obtain ⟨-, hop⟩ := hout.sending.op hp hsend
  obtain ⟨hsending, hbytes, htrace⟩ := sendDone_sending hout.sending hp hsend
  refine Link.flows_of a ⟨q, rest, ?_⟩ ⟨q', rest', ?_⟩
  · simp only [Link.setConn, Function.update_self, Function.update_of_ne a.other_ne, hop,
      JmyTcpConnection.onComplete]
    refine ⟨hsending, hout.ok, ?_, hout.recv, ?_⟩
    · rw [htrace]
      exact hout.messages
    · have hawaits := hout.awaits
      rw [← hbytes] at hawaits
      exact hawaits
  · simp only [Link.setConn, Function.update_self, Function.update_of_ne a.other_ne, hop]
    exact (sendDone_sameIn hp hsend).flow hin

/-- A read takes the front of the bytes on their way. -/
theorem readDone (hl : l.Flows) {i : ℕ} (hstep : l.step (.readDone a i) = some l') : l'.Flows := by
  obtain ⟨⟨q, rest, hout⟩, q', rest', hin⟩ := hl.both a
  obtain ⟨p, hp, hstep⟩ := Option.bind_eq_some_iff.1 hstep
  obtain ⟨n, hn, hstep⟩ := Option.bind_eq_some_iff.1 hstep
  split_ifs at hstep with hlen
  obtain ⟨c, hc, rfl⟩ := Option.map_eq_some_iff.1 hstep
  have hboth : (∃ q rest, Flow (l.conn a.other) (l.moved a.other) ((l.stream a.other).drop n) c q rest) ∧
      SameOut (l.conn a) c := by
    rcases hin.awaits with ⟨hread, hbytes⟩ | ⟨m, ps, rfl, hread, hbytes⟩
    · obtain ⟨hflow, hsame⟩ := readHead_flow hin hread hbytes hp hn hlen hc
      exact ⟨⟨_, _, hflow⟩, hsame⟩
    · obtain ⟨hflow, hsame⟩ := readBody_flow hin hread hbytes hp hn hlen hc
      exact ⟨⟨_, _, hflow⟩, hsame⟩
  obtain ⟨⟨q₂, rest₂, hflow⟩, hsame⟩ := hboth
  refine Link.flows_of a ⟨q, rest, ?_⟩ ⟨q₂, rest₂, ?_⟩
  · simp only [Link.setConn, Function.update_self, Function.update_of_ne a.other_ne,
      Function.update_of_ne a.other_ne.symm]
    exact hsame.flow hout
  · simp only [Link.setConn, Function.update_self, Function.update_of_ne a.other_ne]
    exact hflow

/-- Every step of the link keeps both directions flowing. -/
theorem step (hl : l.Flows) {e : LinkEvent} (he : e.Ok) (hstep : l.step e = some l') : l'.Flows := by
  cases e with
  | call a k => exact hl.call he hstep
  | run a h now data past => exact hl.run he hstep
  | transfer a i k => exact hl.transfer hstep
  | sendDone a i => exact hl.sendDone hstep
  | readDone a i => exact hl.readDone hstep

end Link.Flows

/-- A connection that is CONNECTED, waits for a head, and has sent and received nothing. -/
structure Fresh (c : JmyTcpConnection) : Prop where
  reading : Reading .readHead c
  useSendList : c.buffer.useSendList = true
  sendBuffList : c.buffer.sendBuffList = .init 0 0
  recvBuffList : c.buffer.recvBuffList.usingList = []
  sendingData : c.sendingData = false
  sends : c.sends = []
  sent : sentPackets c.trace = []
  handled : handledMessages c.trace = []

/-- Two such connections with nothing on the way. -/
structure Link.Fresh (l : Link) : Prop where
  conn : ∀ a, JmyGame.Fresh (l.conn a)
  moved : ∀ a, l.moved a = none
  stream : ∀ a, l.stream a = []

theorem Link.Fresh.flows {l : Link} (hl : l.Fresh) : l.Flows := by
  intro a
  have hc := hl.conn a
  have hr := hl.conn a.other
  refine ⟨[], [], ⟨⟨hc.reading.state, hc.useSendList, ?_⟩, fun _ => ⟨hc.sends, hl.moved a⟩, ?_, ?_⟩,
    by simp, ?_, hr.recvBuffList, Or.inl ⟨hr.reading, ?_⟩⟩
  · rw [hc.sendBuffList]
    exact sound_init
  · intro hbusy
    rw [hc.sendingData] at hbusy
    cases hbusy
  · intro k hk
    rw [hl.moved a] at hk
    cases hk
  · rw [hc.sent, hr.handled]
    rfl
  · rw [hl.stream a, unsent, hc.sendBuffList]
    exact List.drop_nil

/-- On a fresh link whose program sends packets that fit and has a handler without errors for every
message, the messages that one side hands to its handlers are a prefix of those that the other side
sent, whatever the order of calls, transfers, completions and runs is; and they are all of them once
the send list, the stream and the receive list are empty. -/
theorem delivery_in_order {l t : Link} {es : List LinkEvent} (hl : l.Fresh) (hes : ∀ e ∈ es, e.Ok)
    (hrun : linkMachine.run l es = some t) (a : Side) :
    handledMessages (t.conn a.other).trace <+: (sentPackets (t.conn a).trace).map UserPacket.message ∧
    ((t.conn a).buffer.sendBuffList.usingList = [] → t.stream a = [] →
      (t.conn a.other).buffer.recvBuffList.usingList = [] →
      handledMessages (t.conn a.other).trace =
        (sentPackets (t.conn a).trace).map UserPacket.message) := by
  have halong : linkMachine.Along (fun _ e => e.Ok) l es := Machine.along_of_forall hes
  have hflows : t.Flows :=
    Machine.invariant_along (I := Link.Flows) (fun _ _ _ hl he hs => hl.step he hs)
      hl.flows halong hrun
  obtain ⟨q, rest, hf⟩ := hflows a
  rw [hf.messages]
  refine ⟨List.prefix_append _ _, fun hlist hstream hrecv => ?_⟩
  have hq : q = [] := List.map_eq_nil_iff.1 (hf.recv.symm.trans hrecv)
  have hnone : t.stream a ++ unsent (t.conn a) (t.moved a) = [] := by
    rw [hstream, unsent, JmySessionBufferList.unread, hlist, List.flatMap_nil, List.drop_nil]
    rfl
  have hrest : rest = [] := by
    rcases hf.awaits with ⟨-, hbytes⟩ | ⟨p, ps, rfl, -, hbytes⟩
    · rw [hnone] at hbytes
      cases rest with
      | nil => rfl
      | cons p ps => exact absurd hbytes.symm (List.append_ne_nil_of_left_ne_nil p.wire_ne_nil _)
    · have hlen := (hf.ok p (List.mem_append_right q List.mem_cons_self)).length_body
      rw [hnone] at hbytes
      have := congrArg List.length hbytes
      simp only [List.length_nil, List.length_append] at this
      omega
  rw [hq, hrest]
  exact (List.append_nil _).symm

/-- A message of one byte, sent in two transfers. -/
def oneMessage : List LinkEvent :=
  [.call .left (.send 1 [9]), .run .left ⟨fun _ => none, some fun _ _ => (0, []), none⟩ 0 .init 0,
    .transfer .left 1 4, .sendDone .left 1, .readDone .right 0, .transfer .left 1 2, .sendDone .left 1,
    .readDone .right 0, .run .right ⟨fun _ => none, some fun _ _ => (0, []), none⟩ 0 .init 0]

theorem delivery_in_order_run :
    ∃ t, linkMachine.run ⟨fun _ => accepted 1, fun _ => none, fun _ => []⟩ oneMessage = some t ∧
      handledMessages (t.conn .right).trace = [(0, 1, [9])] ∧
      handledMessages (t.conn .right).trace =
        (sentPackets (t.conn .left).trace).map UserPacket.message := by
  have hfresh : Link.Fresh ⟨fun _ => accepted 1, fun _ => none, fun _ => []⟩ :=
    ⟨fun _ => ⟨reading_accepted 1, rfl, rfl, rfl, rfl, rfl, rfl, rfl⟩, fun _ => rfl, fun _ => rfl⟩
  have hhandlers : ConnHandlers.Ok ⟨fun _ => none, some fun _ _ => (0, []), none⟩ :=
    ⟨by simp, by simp, by simp, by simp⟩
  have hok : ∀ e ∈ oneMessage, e.Ok := by
    simp only [oneMessage, List.forall_mem_cons, LinkEvent.Ok, hhandlers, ConnCall.Ok, UserPacket.Ok]
    simp
  obtain ⟨t, hrun, hhandled, hlist, hstream, hrecv⟩ :
      ∃ t, linkMachine.run ⟨fun _ => accepted 1, fun _ => none, fun _ => []⟩ oneMessage = some t ∧
        handledMessages (t.conn .right).trace = [(0, 1, [9])] ∧
        (t.conn .left).buffer.sendBuffList.usingList = [] ∧ t.stream .left = [] ∧
        (t.conn .right).buffer.recvBuffList.usingList = [] := ⟨_, rfl, rfl, rfl, rfl, rfl⟩
  exact ⟨t, hrun, hhandled, (delivery_in_order hfresh hok hrun .left).2 hlist hstream hrecv⟩

end JmyGame
