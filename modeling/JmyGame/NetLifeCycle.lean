import JmyGame.NetConnectionSteps

/-! The life of a connection: `close` leads to DISCONNECTING, `force_close` to DISCONNECTED, and both
are meant to be final. The tail of `start_recv` breaks this on a passive connection: it marks the
connection CONNECTED on every entry, and completion handlers enter it again whatever the state is. -/

namespace JmyGame

open CArith

/-- A connection that is closing stays so until it is closed, and a closed one stays closed. -/
def OneWay (a b : JmyConnState) : Prop :=
  (a = .disconnecting → b = .disconnecting ∨ b = .disconnected) ∧
    (a = .disconnected → b = .disconnected)

theorem OneWay.refl (a : JmyConnState) : OneWay a a := ⟨Or.inl, id⟩

theorem OneWay.trans {a b d : JmyConnState} (h : OneWay a b) (h' : OneWay b d) : OneWay a d := by
  refine ⟨fun ha => ?_, fun ha => h'.2 (h.2 ha)⟩
  rcases h.1 ha with hb | hb
  · exact h'.1 hb
  · exact Or.inr (h'.2 hb)

theorem forceClose_state (c : JmyTcpConnection) : c.forceClose.state = .disconnected := by
  rw [JmyTcpConnection.forceClose]
  split_ifs with h
  · exact h
  · rfl

theorem Quiet.oneWay {c c' : JmyTcpConnection} (h : Quiet c c') : OneWay c.state c'.state := by
  induction h with
  | minor hm =>
      rw [hm.state]
      exact OneWay.refl _
  | forceClose c =>
      rw [forceClose_state]
      exact ⟨fun _ => Or.inr rfl, fun _ => rfl⟩
  | closing now hc =>
      rw [hc]
      exact ⟨fun h => JmyConnState.noConfusion h, fun h => JmyConnState.noConfusion h⟩
  | trans _ _ ih ih' => exact ih.trans ih'

/-- The kind of the connection, its id and its handlers never change. -/
theorem Quiet.fixed {c c' : JmyTcpConnection} (h : Quiet c c') :
    c'.id = c.id ∧ c'.connType = c.connType ∧ c'.hasHandler = c.hasHandler ∧
      c'.hasBuffer = c.hasBuffer := by
  induction h with
  | minor hm => exact ⟨hm.id, hm.connType, hm.hasHandler, hm.hasBuffer⟩
  | forceClose c =>
      rw [JmyTcpConnection.forceClose]
      split_ifs <;> exact ⟨rfl, rfl, rfl, rfl⟩
  | closing => exact ⟨rfl, rfl, rfl, rfl⟩
  | trans _ _ ih ih' =>
      exact ⟨ih'.1.trans ih.1, ih'.2.1.trans ih.2.1, ih'.2.2.1.trans ih.2.2.1,
        ih'.2.2.2.trans ih.2.2.2⟩

/-- A passive connection that can receive: the one that `start_recv` marks as connected. -/
def JmyTcpConnection.Receptive (c : JmyTcpConnection) : Prop :=
  c.connType = .passive ∧ c.hasHandler = true ∧ c.hasBuffer = true

theorem Quiet.receptive {c c' : JmyTcpConnection} (h : Quiet c c') : c'.Receptive ↔ c.Receptive := by
  obtain ⟨-, htype, hhandler, hbuffer⟩ := h.fixed
  rw [JmyTcpConnection.Receptive, JmyTcpConnection.Receptive, htype, hhandler, hbuffer]

theorem startRecv_receptive {c : JmyTcpConnection} (h : c.Receptive) :
    c.startRecv = { c.startOp .readHead with state := .connected } := by
  obtain ⟨htype, hhandler, hbuffer⟩ := h
  rw [JmyTcpConnection.startRecv, if_neg (by simp [htype]), if_neg (by simp [hhandler, hbuffer])]
  by_cases hstate : c.state = .connected
  · simp [JmyTcpConnection.startOp, hstate]
  · simp [JmyTcpConnection.startOp, hstate, htype]

theorem startRecv_not_receptive {c : JmyTcpConnection} (h : ¬c.Receptive) :
    c.startRecv = c ∨ c.startRecv = c.startOp .readHead := by
  rw [JmyTcpConnection.startRecv]
  by_cases hactive : c.connType = .active ∧ c.state ≠ .connected
  · exact Or.inl (if_pos hactive)
  · rw [if_neg hactive]
    by_cases hset : c.hasHandler = false ∨ c.hasBuffer = false
    · exact Or.inl (if_pos hset)
    · rw [if_neg hset]
      rw [not_or, Bool.not_eq_false, Bool.not_eq_false] at hset
      exact Or.inr (if_neg fun hpassive => h ⟨hpassive.1, hset⟩)

/-- The step is a completion that leads a passive connection back into `start_recv` after it was
closed. -/
def Resurrects (c : JmyTcpConnection) (e : ConnEvent) : Prop :=
  c.Receptive ∧ (c.state = .disconnecting ∨ c.state = .disconnected) ∧
    ∃ i r p, e = .complete i r ∧ c.pending[i]? = some p ∧ r.possible p = true ∧ p.op.Reenters r

/-- A step breaks the one-way order exactly when it resurrects the connection. -/
theorem step_oneWay_iff (c : JmyTcpConnection) (e : ConnEvent) :
    (∀ c', c.step e = some c' → OneWay c.state c'.state) ↔ ¬Resurrects c e := by
  constructor
  · rintro h ⟨hrec, hclosed, i, r, p, rfl, hp, hposs, hre⟩
    have hstep := complete_of_possible hp hposs
    have hrec' : ((c.popped i).beforeRecv p.op r).Receptive :=
      (Quiet.beforeRecv (c.popped i) p.op r).receptive.2 hrec
    have hway := h _ hstep
    rw [onComplete_reenters hre, startRecv_receptive hrec'] at hway
    rcases hclosed with hstate | hstate
    · rcases hway.1 hstate with h' | h' <;> cases h'
    · cases hway.2 hstate
  · intro h c' hstep
    rcases step_cases hstep with ⟨-, hq⟩ | ⟨i, r, p, rfl, hp, hposs, rfl⟩
    · exact hq.oneWay
    · rcases onComplete_cases (c.popped i) p.op r with ⟨-, hq⟩ | ⟨_, type, len, -, -, -, -, -, heq⟩ | ⟨hre, heq⟩
      · exact hq.oneWay
      · rw [heq]
        exact OneWay.refl _
      · have hq := Quiet.beforeRecv (c.popped i) p.op r
        rw [heq]
        by_cases hrec : c.Receptive
        · -- the state is none of the two that matter, or this step would resurrect
          have hopen : ¬(c.state = .disconnecting ∨ c.state = .disconnected) := fun hclosed =>
            h ⟨hrec, hclosed, i, r, p, rfl, hp, hposs, hre⟩
          exact ⟨fun h' => absurd (Or.inl h') hopen, fun h' => absurd (Or.inr h') hopen⟩
        · rcases startRecv_not_receptive (mt hq.receptive.1 hrec) with h' | h' <;> rw [h']
          · exact hq.oneWay
          · exact hq.oneWay

/-- In a run the states of a connection are ordered one way exactly when no step is the completion of
a control packet's head, or of a body, on a passive connection that is closing or closed. -/
theorem lifeCycle_oneWay_iff (c : JmyTcpConnection) (es : List ConnEvent) :
    connMachine.Ordered (fun a b => OneWay a.state b.state) c es ↔
      connMachine.Along (fun a e => ¬Resurrects a e) c es := by
  have h := Machine.ordered_iff_along (m := connMachine) (R := fun a b => OneWay a.state b.state)
    (fun a => OneWay.refl a.state) (fun _ _ _ => OneWay.trans) c es
  exact h.trans (Machine.Along.congr step_oneWay_iff)

/-- A connection as `accept_new` leaves it. -/
def accepted (id : ℤ) : JmyTcpConnection :=
  JmyTcpConnection.startRecv ⟨id, .passive, .notConnect, false, 0, 0, true, true, .list, true, [], []⟩

/-- A heartbeat that arrives after `close` makes the connection CONNECTED again. -/
theorem heartbeat_resurrects_closing :
    ¬connMachine.Ordered (fun a b => OneWay a.state b.state) (accepted 1)
      [.call (.close 0), .complete 0 (.read [0, 5, 7])] := by
  intro h
  have hway := h [.call (.close 0)] [.complete 0 (.read [0, 5, 7])] [] _ _ rfl rfl rfl
  rcases hway.1 rfl with h' | h' <;> cases h'

/-- How often the disconnection of the connection was notified under its id. -/
def JmyTcpConnection.notified (c : JmyTcpConnection) : ℕ := (disconnects c.trace).count c.id

/-- A closed connection was notified once, an open one not yet. -/
def NotifiedOnce (c : JmyTcpConnection) : Prop :=
  c.notified = if c.state = .disconnected then 1 else 0

theorem Quiet.notifiedOnce {c c' : JmyTcpConnection} (h : Quiet c c') (hc : NotifiedOnce c) :
    NotifiedOnce c' := by
  induction h with
  | minor hm => rwa [NotifiedOnce, JmyTcpConnection.notified, hm.disconnects, hm.id, hm.state]
  | forceClose c =>
      rw [JmyTcpConnection.forceClose]
      split_ifs with hstate
      · exact hc
      · rw [NotifiedOnce, if_neg hstate, JmyTcpConnection.notified] at hc
        have hnew : (disconnects (c.trace ++ [.disconnect c.id])).count c.id = 1 := by
          rw [disconnects_append, List.count_append, hc]
          exact (Nat.zero_add _).trans List.count_singleton_self
        exact hnew
  | closing now hstate =>
      rw [NotifiedOnce, hstate, if_neg (by decide)] at hc
      exact hc
  | trans _ _ ih ih' => exact ih' (ih hc)

/-- The step is a completion that leads into `start_recv` in the state DISCONNECTED: the connection was
closed before, or the packet is the ack that closes it. -/
def Revives (c : JmyTcpConnection) (e : ConnEvent) : Prop :=
  c.Receptive ∧ ∃ i r p, e = .complete i r ∧ c.pending[i]? = some p ∧ r.possible p = true ∧
    p.op.Reenters r ∧
    (c.state = .disconnected ∨ c.state = .disconnecting ∧ p.op = .readHead ∧
      ∃ bytes len, r = .read bytes ∧ getPacketLenType bytes = some (.disconnectAck, len))

/-- `start_recv` is entered in the state DISCONNECTED only as `Revives` says. -/
theorem beforeRecv_disconnected {c : JmyTcpConnection} {op : AsyncOp} {r : Completion}
    (h : (c.beforeRecv op r).state = .disconnected) :
    c.state = .disconnected ∨ c.state = .disconnecting ∧ op = .readHead ∧
      ∃ bytes len, r = .read bytes ∧ getPacketLenType bytes = some (.disconnectAck, len) := by
  by_cases hc : c.state = .disconnected
  · exact Or.inl hc
  unfold JmyTcpConnection.beforeRecv at h
  split at h
  · rename_i bytes
    split at h
    · rename_i type len hget
      cases type with
      | disconnect => exact absurd ((Minor.handleDisconnect c).state.symm.trans h) hc
      | disconnectAck =>
          by_cases hclosing : c.state = .disconnecting
          · exact Or.inr ⟨hclosing, rfl, bytes, len, rfl, hget⟩
          · rw [JmyTcpConnection.handlePacketType, JmyTcpConnection.handleDisconnectAck,
              if_pos hclosing] at h
            exact absurd h hc
      | _ => exact absurd h hc
    · exact absurd h hc
  · exact absurd h hc
  · exact absurd h hc

theorem startRecv_notified (c : JmyTcpConnection) :
    c.startRecv.notified = c.notified ∧ c.startRecv.id = c.id := by
  by_cases hrec : c.Receptive
  · rw [startRecv_receptive hrec]
    exact ⟨rfl, rfl⟩
  · rcases startRecv_not_receptive hrec with h | h <;> rw [h] <;> exact ⟨rfl, rfl⟩

/-- A step that does not revive the connection keeps the count of its notifications. -/
theorem step_notifiedOnce {c c' : JmyTcpConnection} {e : ConnEvent} (hc : NotifiedOnce c)
    (hnot : ¬Revives c e) (hstep : c.step e = some c') : NotifiedOnce c' ∧ c'.id = c.id := by
  rcases step_cases hstep with ⟨-, hq⟩ | ⟨i, r, p, rfl, hp, hposs, rfl⟩
  · exact ⟨hq.notifiedOnce hc, hq.fixed.1⟩
  · have hpop : NotifiedOnce (c.popped i) := hc
    rcases onComplete_cases (c.popped i) p.op r with ⟨-, hq⟩ | ⟨_, type, len, -, -, -, -, -, heq⟩ | ⟨hre, heq⟩
    · exact ⟨hq.notifiedOnce hpop, hq.fixed.1⟩
    · rw [heq]
      exact ⟨hc, rfl⟩
    · have hq := Quiet.beforeRecv (c.popped i) p.op r
      have hbefore := hq.notifiedOnce hpop
      obtain ⟨hcount, hid⟩ := startRecv_notified ((c.popped i).beforeRecv p.op r)
      rw [heq]
      refine ⟨?_, hid.trans hq.fixed.1⟩
      by_cases hrec : c.Receptive
      · have hstate : ((c.popped i).beforeRecv p.op r).state ≠ .disconnected := by
          intro h
          have hwhy := beforeRecv_disconnected h
          exact hnot ⟨hrec, i, r, p, rfl, hp, hposs, hre, hwhy⟩
        rw [NotifiedOnce, if_neg hstate] at hbefore
        rw [NotifiedOnce, hcount, hbefore, startRecv_receptive (hq.receptive.2 hrec)]
        rfl
      · rcases startRecv_not_receptive (mt hq.receptive.1 hrec) with h | h <;> rw [h] <;> exact hbefore

/-- A connection that `accept_new` handed out, and that was not notified yet. -/
structure Accepted (c : JmyTcpConnection) : Prop where
  receptive : c.Receptive
  state : c.state = .connected
  notified : c.notified = 0

/-- In a run of an accepted connection in which `start_recv` is never entered in the state
DISCONNECTED, its disconnection is notified at most once. -/
theorem disconnect_notified_once {c t : JmyTcpConnection} {es : List ConnEvent} (hc : Accepted c)
    (halong : connMachine.Along (fun a e => ¬Revives a e) c es)
    (hrun : connMachine.run c es = some t) : (disconnects t.trace).count c.id ≤ 1 := by
  have hstart : NotifiedOnce c := by
    rw [NotifiedOnce, hc.notified, hc.state]
    rfl
  have hinv : NotifiedOnce t ∧ t.id = c.id := by
    refine Machine.invariant_along (I := fun a => NotifiedOnce a ∧ a.id = c.id) ?_
      ⟨hstart, rfl⟩ halong hrun
    rintro a e a' ⟨ha, hid⟩ hnot hstep
    obtain ⟨ha', hid'⟩ := step_notifiedOnce ha hnot hstep
    exact ⟨ha', hid'.trans hid⟩
  obtain ⟨honce, hid⟩ := hinv
  rw [← hid]
  rw [NotifiedOnce, JmyTcpConnection.notified] at honce
  split_ifs at honce <;> omega

/-- A connection that sends, is closed, and is then hit by a read error. -/
theorem disconnect_notified_once_run : ∃ t, connMachine.run (accepted 7)
    [.call (.send 1 []), .call (.close 0), .complete 0 .failed] = some t ∧ t.id = 7 ∧ t.state = .disconnected ∧
      (disconnects t.trace).count 7 ≤ 1 := by
  have halong : connMachine.Along (fun a e => ¬Revives a e) (accepted 7)
      [.call (.send 1 []), .call (.close 0), .complete 0 .failed] := by
    refine ⟨?_, fun s hs => ⟨?_, fun s' hs' => ⟨?_, fun _ _ => trivial⟩⟩⟩
    · rintro ⟨-, i, r, p, h, -⟩
      cases h
    · rintro ⟨-, i, r, p, h, -⟩
      cases h
    · rintro ⟨-, i, r, p, h, -, -, hre, -⟩
      cases h
      cases hop : p.op <;> simp [AsyncOp.Reenters, hop] at hre
  exact ⟨_, rfl, rfl, rfl, disconnect_notified_once (c := accepted 7) ⟨⟨rfl, rfl, rfl⟩, rfl, rfl⟩ halong rfl⟩

/-- Reviving does enter `start_recv` in the state DISCONNECTED. -/
theorem beforeRecv_revives {c : JmyTcpConnection} {op : AsyncOp} {r : Completion}
    (h : c.state = .disconnected ∨ c.state = .disconnecting ∧ op = .readHead ∧
      ∃ bytes len, r = .read bytes ∧ getPacketLenType bytes = some (.disconnectAck, len)) :
    (c.beforeRecv op r).state = .disconnected := by
  rcases h with h | ⟨hstate, rfl, bytes, len, rfl, hget⟩
  · exact (Quiet.beforeRecv c op r).oneWay.2 h
  · simp only [JmyTcpConnection.beforeRecv, hget, JmyTcpConnection.handlePacketType,
      JmyTcpConnection.handleDisconnectAck, hstate, ne_eq, not_true_eq_false, if_false]
    exact forceClose_state c

/-- What reviving leads to: when the read that was started fails, the disconnection is notified a
second time. -/
theorem revived_notified_twice {c c' : JmyTcpConnection} {e : ConnEvent} (hc : NotifiedOnce c)
    (hrev : Revives c e) (hstep : c.step e = some c') :
    ∃ i c'', c'.step (.complete i .failed) = some c'' ∧ c''.notified = 2 := by
  obtain ⟨hrec, i, r, p, rfl, hp, hposs, hre, hwhy⟩ := hrev
  rw [complete_of_possible hp hposs, Option.some.injEq, onComplete_reenters hre] at hstep
  subst hstep
  have hq := Quiet.beforeRecv (c.popped i) p.op r
  have hone : ((c.popped i).beforeRecv p.op r).notified = 1 := by
    have hdown : ((c.popped i).beforeRecv p.op r).state = .disconnected := beforeRecv_revives hwhy
    rw [hq.notifiedOnce hc, if_pos hdown]
  rw [startRecv_receptive (hq.receptive.2 hrec)]
  generalize (c.popped i).beforeRecv p.op r = b at hone
  refine ⟨b.pending.length, _, complete_of_possible List.getElem?_concat_length rfl, ?_⟩
  rw [JmyTcpConnection.notified] at hone
  simp only [JmyTcpConnection.onComplete, JmyTcpConnection.forceClose, JmyTcpConnection.popped,
    reduceCtorEq, if_false, JmyTcpConnection.closed, JmyTcpConnection.notified, disconnects_append,
    List.count_append, JmyTcpConnection.startOp, hone]
  rw [show disconnects [Obs.disconnect b.id] = [b.id] from rfl, List.count_singleton_self]

/-- An ack makes a closing connection CONNECTED again behind its first notification; the error of the
next read notifies its disconnection a second time. -/
theorem ack_notifies_twice :
    Accepted (accepted 7) ∧ ∃ t, connMachine.run (accepted 7)
      [.call (.close 0), .complete 0 (.read [0, 1, 9]), .complete 0 .failed] = some t ∧
        ¬(disconnects t.trace).count 7 ≤ 1 :=
  ⟨⟨⟨rfl, rfl, rfl⟩, rfl, rfl⟩, _, rfl, by decide⟩

end JmyGame
