import Mathlib.Data.BitVec
import JmyGame.NetLifeCycle

/-! The clients of a `JmyTcpClientSet`, which connect again when their connection is closed or a connect fails. The
main loop of a server polls the handlers of the sockets before it runs the set again, so that a closed connection is
reset when nothing of its session is left to happen. -/

namespace JmyGame

open CArith

/-- The connects of a client: that of `start`, which reads no clock, and those of the set, which notes in `last_point`
when it connects again and when it found a closed connection. -/
inductive Mark where
  | started
  | found (now : ℤ)
  | attempt (now : ℤ)
  deriving DecidableEq, Repr

/-- What `last_point` is behind it. `start` leaves it at the epoch. -/
def Mark.lastPoint : Mark → ℤ
  | .started => 0
  | .found now => now
  | .attempt now => now

/-- `JmyTcpClient` with its `last_point` in the set and the number of connects that are under way on its socket. The
connect events are counted in `connects` and the connects are kept in `marks`; no method reads these. -/
structure JmyTcpClient where
  conn : JmyTcpConnection
  underWay : ℕ
  lastPoint : ℤ
  connects : ℕ
  marks : List Mark
  deriving DecidableEq

/-- `JmyClientConfig` as the set reads it, with the interval in seconds. -/
structure JmyClientConfig where
  isReconnect : Bool
  reconnectInterval : ℤ

/-- What the socket answers to a connect. -/
inductive ConnectResult where
  | connected
  | inProgress
  | failed
  deriving DecidableEq, Repr

namespace JmyTcpClient

variable (c : JmyTcpClient)

def setConn (conn : JmyTcpConnection) : JmyTcpClient := { c with conn := conn }

/-- `asynConnect` of the connection. A socket that is closed is opened for the connect. -/
def asynConnect : JmyTcpClient :=
  if c.conn.connType ≠ .active then c
  else if c.conn.state = .connected then c
  else { c with conn := { c.conn with state := .connecting, sockOpen := true }, underWay := c.underWay + 1 }

/-- The connection as a connect leaves it for the connect handler of the program. -/
def established : JmyTcpConnection := { c.conn with state := .connected }.startRecv

/-- The completion handler of the connect, with the calls that the connect handler of the program makes. -/
def onConnect (calls : List ConnCall) : ConnectResult → Option JmyTcpClient
  | .connected => (c.established.calls calls).map fun conn => { c with conn := conn, connects := c.connects + 1 }
  | .inProgress => some c
  | .failed => some (c.setConn { c.conn with state := .notConnect })

/-- `reset`. -/
def reset : JmyTcpClient := c.setConn { c.conn with state := .notConnect }

/-- `reconnect`. -/
def reconnect : JmyTcpClient := if c.conn.state ≠ .notConnect then c else c.asynConnect

/-- `run` of the client. -/
def run (h : ConnHandlers) (now : ℤ) (data : JmyPacketUnpackData2) (past : ℕ → Byte) : Option JmyTcpClient :=
  if c.conn.state = .connecting then some c
  else if c.conn.state = .disconnected then some c
  else (c.conn.run h now data past).map fun r => c.setConn r.2.2

/-- What the loop of `JmyTcpClientSet::run` does with a client before it runs it, at the time `now`. -/
def check (conf : JmyClientConfig) (now : ℤ) : JmyTcpClient :=
  if conf.isReconnect = false then c
  else if c.conn.state = .disconnected then { c.reset with lastPoint := now, marks := c.marks ++ [.found now] }
  else if c.conn.state = .notConnect ∧ conf.reconnectInterval ≤ (now - c.lastPoint).tdiv 1000000000 then
    { c.reconnect with lastPoint := now, marks := c.marks ++ [.attempt now] }
  else c

/-- A client behind `start`, with a connection that was not used before. -/
def start (id : ℤ) : JmyTcpClient :=
  asynConnect ⟨⟨id, .active, .notUse, false, 0, 0, true, true, .list, false, [], []⟩, 0, 0, 0, [.started]⟩

end JmyTcpClient

/-- What happens to a client of a set. A run of the set brings what a run of the connection brings, and the time that
the set reads before. -/
inductive ClientSetEvent where
  | connected (result : ConnectResult) (calls : List ConnCall)
  | call (call : ConnCall)
  | complete (i : ℕ) (result : Completion)
  | run (now : ℤ) (handlers : ConnHandlers) (connNow : ℤ) (data : JmyPacketUnpackData2) (past : ℕ → Byte)

def JmyTcpClient.step (conf : JmyClientConfig) (c : JmyTcpClient) : ClientSetEvent → Option JmyTcpClient
  | .connected result calls =>
    if c.underWay = 0 then none else { c with underWay := c.underWay - 1 }.onConnect calls result
  | .call k => (c.conn.call k).map c.setConn
  | .complete i r => (c.conn.complete i r).map c.setConn
  | .run now h connNow data past => (c.check conf now).run h connNow data past

def clientSetMachine (conf : JmyClientConfig) : Machine JmyTcpClient ClientSetEvent := ⟨JmyTcpClient.step conf⟩

namespace JmyTcpConnection

/-- A session goes on. -/
def IsOpen (c : JmyTcpConnection) : Prop := c.state = .connected ∨ c.state = .disconnecting

instance (c : JmyTcpConnection) : Decidable c.IsOpen := inferInstanceAs (Decidable (_ ∨ _))

/-- A session goes on or has ended. -/
def Begun (c : JmyTcpConnection) : Prop := c.IsOpen ∨ c.state = .disconnected

instance (c : JmyTcpConnection) : Decidable c.Begun := inferInstanceAs (Decidable (_ ∨ _))

/-- The sessions that have ended, and the one that goes on. -/
def sessions (c : JmyTcpConnection) : ℕ := (disconnects c.trace).length + if c.IsOpen then 1 else 0

end JmyTcpConnection

section sessions

variable {c c' : JmyTcpConnection}

theorem not_isOpen_of_state (hstate : c.state = .notConnect ∨ c.state = .connecting ∨ c.state = .disconnected) :
    ¬c.IsOpen := by
  rintro (hopen | hopen)
  · rw [hopen] at hstate
    simp at hstate
  · rw [hopen] at hstate
    simp at hstate

theorem not_begun_of_state (hstate : c.state = .notConnect ∨ c.state = .connecting) : ¬c.Begun := by
  rintro (hopen | hopen)
  · exact not_isOpen_of_state (hstate.imp_right Or.inl) hopen
  · rw [hopen] at hstate
    simp at hstate

/-- Between two sessions the state changes without a notice. -/
theorem sessions_between (hclosed : ¬c.IsOpen) {state : JmyConnState}
    (hstate : state = .notConnect ∨ state = .connecting) (sockOpen : Bool) :
    ({ c with state := state, sockOpen := sockOpen } : JmyTcpConnection).sessions = c.sessions := by
  have hclosed' : ¬({ c with state := state, sockOpen := sockOpen } : JmyTcpConnection).IsOpen :=
    not_isOpen_of_state (hstate.imp_right Or.inl)
  rw [JmyTcpConnection.sessions, JmyTcpConnection.sessions, if_neg hclosed, if_neg hclosed']

theorem sessions_congr (hstate : c'.state = c.state) (htrace : disconnects c'.trace = disconnects c.trace) :
    (c'.Begun ↔ c.Begun) ∧ c'.sessions = c.sessions := by
  have hopen : c'.IsOpen ↔ c.IsOpen := by rw [JmyTcpConnection.IsOpen, JmyTcpConnection.IsOpen, hstate]
  refine ⟨or_congr hopen (by rw [hstate]), ?_⟩
  rw [JmyTcpConnection.sessions, JmyTcpConnection.sessions, htrace]
  exact congrArg _ (if_congr hopen rfl rfl)

/-- A close ends the session that goes on, and notifies it. -/
theorem sessions_forceClose (hc : c.Begun) : c.forceClose.Begun ∧ c.forceClose.sessions = c.sessions := by
  unfold JmyTcpConnection.forceClose
  split_ifs with hstate
  · exact ⟨hc, rfl⟩
  · have hopen : c.IsOpen := hc.resolve_right hstate
    refine ⟨Or.inr rfl, ?_⟩
    have hclosed : ¬c.closed.IsOpen := not_isOpen_of_state (Or.inr (Or.inr rfl))
    have hnew : (disconnects (c.trace ++ [.disconnect c.id])).length = (disconnects c.trace).length + 1 := by
      rw [disconnects_append, List.length_append]
      rfl
    rw [JmyTcpConnection.sessions, JmyTcpConnection.sessions, if_neg hclosed, if_pos hopen]
    exact hnew

theorem Quiet.sessions (h : Quiet c c') (hc : c.Begun) : c'.Begun ∧ c'.sessions = c.sessions := by
  induction h with
  | minor hm =>
      obtain ⟨hbegun, hsame⟩ := sessions_congr hm.state hm.disconnects
      exact ⟨hbegun.2 hc, hsame⟩
  | forceClose c => exact sessions_forceClose hc
  | @closing c now hstate =>
      have hopen : c.IsOpen := Or.inl hstate
      have hopen' : (c.closing now).IsOpen := Or.inr rfl
      refine ⟨Or.inl hopen', ?_⟩
      rw [JmyTcpConnection.sessions, JmyTcpConnection.sessions, if_pos hopen, if_pos hopen']
      rfl
  | trans _ _ ih ih' =>
      obtain ⟨hmid, hsame⟩ := ih hc
      obtain ⟨hend, hsame'⟩ := ih' hmid
      exact ⟨hend, hsame'.trans hsame⟩

theorem Quiet.calls {ks : List ConnCall} (h : c.calls ks = some c') : Quiet c c' := by
  induction ks generalizing c with
  | nil =>
      cases h
      exact Quiet.refl _
  | cons k ks ih =>
      obtain ⟨c₁, hk, hrest⟩ := Option.bind_eq_some_iff.1 h
      exact (Quiet.call hk).trans (ih hrest)

/-- A connection that is not connected refuses every call but `force_close`. -/
theorem refused_call {k : ConnCall} (hc : c.state ≠ .connected) (hk : k ≠ .forceClose) (h : c.call k = some c') :
    ∃ trace, c' = { c with trace := trace } ∧ disconnects trace = disconnects c.trace := by
  cases k with
  | send msgId data =>
      obtain ⟨r, hr, rfl⟩ := Option.map_eq_some_iff.1 h
      unfold JmyTcpConnection.send JmyTcpConnection.writeUser at hr
      rw [if_pos (show (c.observe _).state ≠ .connected from hc)] at hr
      cases hr
      exact ⟨_, rfl, (Minor.observe c _ rfl).disconnects⟩
  | sendUser userId msgId data =>
      obtain ⟨r, hr, rfl⟩ := Option.map_eq_some_iff.1 h
      unfold JmyTcpConnection.sendUser JmyTcpConnection.writeUser at hr
      rw [if_pos (show (c.observe _).state ≠ .connected from hc)] at hr
      cases hr
      exact ⟨_, rfl, (Minor.observe c _ rfl).disconnects⟩
  | close now =>
      cases h
      rw [JmyTcpConnection.close, if_pos hc]
      exact ⟨c.trace, rfl, rfl⟩
  | forceClose => exact absurd rfl hk

theorem refused_calls {ks : List ConnCall} (hc : c.state ≠ .connected) (hks : .forceClose ∉ ks)
    (h : c.calls ks = some c') :
    ∃ trace, c' = { c with trace := trace } ∧ disconnects trace = disconnects c.trace := by
  induction ks generalizing c with
  | nil =>
      cases h
      exact ⟨_, rfl, rfl⟩
  | cons k ks ih =>
      obtain ⟨c₁, hk, hrest⟩ := Option.bind_eq_some_iff.1 h
      obtain ⟨trace, rfl, htrace⟩ := refused_call hc (fun hk => hks (hk ▸ List.mem_cons_self)) hk
      obtain ⟨trace', rfl, htrace'⟩ :=
        ih (c := { c with trace := trace }) hc (fun hmem => hks (List.mem_cons_of_mem k hmem)) hrest
      exact ⟨trace', rfl, htrace'.trans htrace⟩

/-- The tick handler does not close the connection by force. -/
def ConnHandlers.TickKeeps (h : ConnHandlers) : Prop := ∀ f, h.tickHandler = some f → ∀ c, .forceClose ∉ f c

/-- A run between two sessions does nothing but to call the tick handler. -/
theorem run_between {h : ConnHandlers} {now : ℤ} {data : JmyPacketUnpackData2} {past : ℕ → Byte}
    {r : ℤ × JmyPacketUnpackData2 × JmyTcpConnection} (hc : ¬c.IsOpen) (htick : h.TickKeeps)
    (hr : c.run h now data past = some r) :
    ∃ trace, r.2.2 = { c with trace := trace } ∧ disconnects trace = disconnects c.trace := by
  obtain ⟨hconn, hclosing⟩ := not_or.1 hc
  obtain ⟨c₁, hticked, hrest⟩ := Option.bind_eq_some_iff.1 hr
  have hfirst : ∃ trace, c₁ = { c with trace := trace } ∧ disconnects trace = disconnects c.trace := by
    unfold ConnHandlers.tick at hticked
    split at hticked
    · cases hticked
      exact ⟨c.trace, rfl, rfl⟩
    · rename_i f hf
      obtain ⟨trace, rfl, htrace⟩ := refused_calls (c := c.observe _) hconn (htick f hf _) hticked
      exact ⟨trace, rfl, htrace.trans (Minor.observe c (.tick c.id) rfl).disconnects⟩
  obtain ⟨trace, rfl, htrace⟩ := hfirst
  rw [if_neg fun hwaits => hclosing hwaits.1, if_pos hconn] at hrest
  cases hrest
  exact ⟨trace, rfl, htrace⟩

/-- On an active connection a completion handler ends no session without a notice, and begins none. -/
theorem sessions_onComplete (hactive : c.connType = .active) (hc : c.Begun) (op : AsyncOp) (r : Completion) :
    (c.onComplete op r).Begun ∧ (c.onComplete op r).connType = .active ∧
      (c.onComplete op r).sessions = c.sessions := by
  rcases onComplete_cases c op r with ⟨-, hq⟩ | ⟨_, type, len, -, -, -, -, -, heq⟩ | ⟨-, heq⟩
  · obtain ⟨hbegun, hsame⟩ := hq.sessions hc
    exact ⟨hbegun, hq.fixed.2.1.trans hactive, hsame⟩
  · rw [heq]
    exact ⟨hc, hactive, rfl⟩
  · have hq := Quiet.beforeRecv c op r
    obtain ⟨hbegun, hsame⟩ := hq.sessions hc
    have htype : (c.beforeRecv op r).connType = .active := hq.fixed.2.1.trans hactive
    have hnot : ¬(c.beforeRecv op r).Receptive := by
      rintro ⟨hpassive, -⟩
      cases htype.symm.trans hpassive
    rw [heq]
    rcases startRecv_not_receptive hnot with h | h <;> rw [h]
    · exact ⟨hbegun, htype, hsame⟩
    · exact ⟨hbegun, htype, hsame⟩

end sessions

/-- The steps of a program that calls `force_close` only on a connection that was connected, and whose main loop polls
before it runs the set, so that a run finds no operation of a closed socket; and of a clock that is not set back. -/
def Orderly (c : JmyTcpClient) : ClientSetEvent → Prop
  | .call k => k = .forceClose → c.conn.Begun
  | .run now _ _ _ _ => (c.conn.state = .disconnected → c.conn.pending = []) ∧ c.lastPoint ≤ now
  | _ => True

instance (c : JmyTcpClient) : ∀ e, Decidable (Orderly c e)
  | .call k => inferInstanceAs (Decidable (k = .forceClose → c.conn.Begun))
  | .run now _ _ _ _ =>
    inferInstanceAs (Decidable ((c.conn.state = .disconnected → c.conn.pending = []) ∧ c.lastPoint ≤ now))
  | .connected _ _ => isTrue trivial
  | .complete _ _ => isTrue trivial

/-- The tick handler of the run does not close the connection by force. -/
def ClientSetEvent.TickKeeps : ClientSetEvent → Prop
  | .run _ h _ _ _ => h.TickKeeps
  | _ => True

/-- The set connects again no sooner than the interval after what `last_point` was before. -/
def KeepsInterval (conf : JmyClientConfig) (m m' : Mark) : Prop :=
  ∀ now, m' = .attempt now → m.lastPoint + 1000000000 * conf.reconnectInterval ≤ now

/-- The state of a client between two steps. -/
structure InTurn (conf : JmyClientConfig) (c : JmyTcpClient) : Prop where
  active : c.conn.connType = .active
  idle : ¬c.conn.Begun → c.conn.pending = []
  underWay : c.underWay ≠ 0 → c.underWay = 1 ∧ c.conn.state = .connecting
  turns : c.connects = c.conn.sessions
  past : ∀ m ∈ c.marks, m.lastPoint ≤ c.lastPoint
  spaced : c.marks.Pairwise (KeepsInterval conf)

namespace InTurn

variable {conf : JmyClientConfig} {c c' : JmyTcpClient}

theorem start (id : ℤ) : InTurn conf (.start id) where
  active := rfl
  idle _ := rfl
  underWay _ := ⟨rfl, rfl⟩
  turns := rfl
  past m hm := by
    rw [List.mem_singleton.1 hm]
    exact le_refl 0
  spaced := List.pairwise_singleton _ _

/-- What happens within a session, and at its end. -/
theorem within (h : InTurn conf c) {conn : JmyTcpConnection} (hc : c.conn.Begun) (hbegun : conn.Begun)
    (htype : conn.connType = c.conn.connType) (hsame : conn.sessions = c.conn.sessions) :
    InTurn conf (c.setConn conn) where
  active := htype.trans h.active
  idle hnot := absurd hbegun hnot
  underWay hne := by
    obtain ⟨-, hstate⟩ := h.underWay hne
    exact absurd hc (not_begun_of_state (Or.inr hstate))
  turns := h.turns.trans hsame.symm
  past := h.past
  spaced := h.spaced

theorem quiet (h : InTurn conf c) {conn : JmyTcpConnection} (hc : c.conn.Begun) (hq : Quiet c.conn conn) :
    InTurn conf (c.setConn conn) := by
  obtain ⟨hbegun, hsame⟩ := hq.sessions hc
  exact h.within hc hbegun hq.fixed.2.1 hsame

/-- An entry in the trace. -/
theorem observed (h : InTurn conf c) {trace : List Obs} (htrace : disconnects trace = disconnects c.conn.trace) :
    InTurn conf (c.setConn { c.conn with trace := trace }) := by
  have hconn : ({ c.conn with trace := trace } : JmyTcpConnection).state = c.conn.state := rfl
  obtain ⟨hbegun, hsame⟩ := sessions_congr hconn htrace
  exact ⟨h.active, fun hnot => h.idle (mt hbegun.2 hnot), h.underWay, h.turns.trans hsame.symm, h.past, h.spaced⟩

theorem not_begun (h : InTurn conf c) (hne : c.underWay ≠ 0) : ¬c.conn.Begun := by
  obtain ⟨-, hstate⟩ := h.underWay hne
  exact not_begun_of_state (Or.inr hstate)

/-- A connect that succeeds begins a session. -/
theorem established (h : InTurn conf c) (hne : c.underWay ≠ 0) :
    c.established.Begun ∧ c.established.connType = .active ∧ c.established.sessions = c.conn.sessions + 1 := by
  have hsessions : ({ c.conn with state := .connected } : JmyTcpConnection).sessions = c.conn.sessions + 1 := by
    have hclosed : ¬c.conn.IsOpen := fun hopen => h.not_begun hne (Or.inl hopen)
    have hopen : ({ c.conn with state := .connected } : JmyTcpConnection).IsOpen := Or.inl rfl
    rw [JmyTcpConnection.sessions, JmyTcpConnection.sessions, if_pos hopen, if_neg hclosed]
  have hnot : ¬({ c.conn with state := .connected } : JmyTcpConnection).Receptive := by
    rintro ⟨htype, -⟩
    cases htype.symm.trans h.active
  unfold JmyTcpClient.established
  rcases startRecv_not_receptive hnot with heq | heq <;> rw [heq]
  · exact ⟨Or.inl (Or.inl rfl), h.active, hsessions⟩
  · exact ⟨Or.inl (Or.inl rfl), h.active, hsessions⟩

theorem connected (h : InTurn conf c) {result : ConnectResult} {calls : List ConnCall}
    (hstep : c.step conf (.connected result calls) = some c') : InTurn conf c' := by
  unfold JmyTcpClient.step at hstep
  split_ifs at hstep with hne
  obtain ⟨hone, hstate⟩ := h.underWay hne
  have hidle := h.idle (h.not_begun hne)
  have hzero : ¬c.underWay - 1 ≠ 0 := by rw [hone]; simp
  cases result with
  | connected =>
      obtain ⟨hbegun, htype, hmore⟩ := h.established hne
      obtain ⟨conn, hcalls, rfl⟩ := Option.map_eq_some_iff.1 hstep
      have hq : Quiet c.established conn := Quiet.calls hcalls
      obtain ⟨hbegun', hsame⟩ := hq.sessions hbegun
      exact ⟨hq.fixed.2.1.trans htype, fun hnot => absurd hbegun' hnot, fun hpos => absurd hpos hzero,
        (congrArg (· + 1) h.turns).trans (hmore.symm.trans hsame.symm), h.past, h.spaced⟩
  | inProgress =>
      cases hstep
      exact ⟨h.active, h.idle, fun hpos => absurd hpos hzero, h.turns, h.past, h.spaced⟩
  | failed =>
      cases hstep
      refine ⟨h.active, fun _ => hidle, fun hpos => absurd hpos hzero, ?_, h.past, h.spaced⟩
      have hclosed : ¬c.conn.IsOpen := fun hopen => h.not_begun hne (Or.inl hopen)
      exact h.turns.trans (sessions_between hclosed (Or.inl rfl) c.conn.sockOpen).symm

theorem call (h : InTurn conf c) {k : ConnCall} (hk : k = .forceClose → c.conn.Begun)
    (hstep : c.step conf (.call k) = some c') : InTurn conf c' := by
  obtain ⟨conn, hcall, rfl⟩ := Option.map_eq_some_iff.1 hstep
  by_cases hc : c.conn.Begun
  · exact h.quiet hc (Quiet.call hcall)
  · have hstate : c.conn.state ≠ .connected := fun hopen => hc (Or.inl (Or.inl hopen))
    obtain ⟨trace, rfl, htrace⟩ := refused_call hstate (mt hk hc) hcall
    exact h.observed htrace

theorem complete (h : InTurn conf c) {i : ℕ} {r : Completion} (hstep : c.step conf (.complete i r) = some c') :
    InTurn conf c' := by
  obtain ⟨conn, hcomplete, rfl⟩ := Option.map_eq_some_iff.1 hstep
  obtain ⟨p, hp, -, rfl⟩ := complete_eq_some hcomplete
  have hc : c.conn.Begun := by
    by_contra hnot
    rw [h.idle hnot] at hp
    cases hp
  obtain ⟨hbegun, htype, hsame⟩ := sessions_onComplete (c := c.conn.popped i) h.active hc p.op r
  exact h.within hc hbegun (htype.trans h.active.symm) hsame

/-- The check of the set resets a closed connection and connects again when the time has come. -/
theorem check (h : InTurn conf c) {now : ℤ} (hpolled : c.conn.state = .disconnected → c.conn.pending = [])
    (hclock : c.lastPoint ≤ now) : InTurn conf (c.check conf now) := by
  have hpast : ∀ m ∈ c.marks, m.lastPoint ≤ now := fun m hm => (h.past m hm).trans hclock
  have hpast' : ∀ (m' : Mark), m'.lastPoint = now → ∀ m ∈ c.marks ++ [m'], m.lastPoint ≤ now := by
    intro m' htime m hm
    rcases List.mem_append.1 hm with hm | hm
    · exact hpast m hm
    · rw [List.mem_singleton.1 hm, htime]
  unfold JmyTcpClient.check
  split_ifs with hset hstate hattempt
  · exact h
  · have hclosed : ¬c.conn.IsOpen := not_isOpen_of_state (Or.inr (Or.inr hstate))
    have hturns := h.turns.trans (sessions_between hclosed (Or.inl rfl) c.conn.sockOpen).symm
    refine ⟨h.active, fun _ => hpolled hstate, fun hne => ?_, hturns, hpast' _ rfl,
      List.pairwise_append.2 ⟨h.spaced, List.pairwise_singleton _ _, ?_⟩⟩
    · cases (h.underWay hne).2.symm.trans hstate
    · rintro m - m' hm' t rfl
      cases List.mem_singleton.1 hm'
  · obtain ⟨hstate, helapsed⟩ := hattempt
    have hclosed : ¬c.conn.IsOpen := not_isOpen_of_state (Or.inl hstate)
    have hbegun : ¬c.conn.Begun := not_begun_of_state (Or.inl hstate)
    have hturns := h.turns.trans (sessions_between hclosed (Or.inr rfl) true).symm
    have hzero : c.underWay = 0 := by
      by_contra hne
      cases (h.underWay hne).2.symm.trans hstate
    have hconnect : c.reconnect = { c with
        conn := { c.conn with state := .connecting, sockOpen := true }, underWay := c.underWay + 1 } := by
      rw [JmyTcpClient.reconnect, if_neg (not_not.2 hstate), JmyTcpClient.asynConnect, if_neg (not_not.2 h.active),
        if_neg (by rw [hstate]; decide)]
    rw [hconnect]
    refine ⟨h.active, fun _ => h.idle hbegun, fun _ => ⟨by rw [hzero], rfl⟩, hturns, hpast' _ rfl,
      List.pairwise_append.2 ⟨h.spaced, List.pairwise_singleton _ _, ?_⟩⟩
    rintro m hm m' hm' t rfl
    cases List.mem_singleton.1 hm'
    have hm := h.past m hm
    rw [Int.tdiv_eq_ediv_of_nonneg (by omega)] at helapsed
    omega
  · exact h

theorem run (h : InTurn conf c) {now connNow : ℤ} {handlers : ConnHandlers} {data : JmyPacketUnpackData2}
    {past : ℕ → Byte} (he : Orderly c (.run now handlers connNow data past)) (htick : handlers.TickKeeps)
    (hstep : c.step conf (.run now handlers connNow data past) = some c') : InTurn conf c' := by
  obtain ⟨hpolled, hclock⟩ := he
  have hchecked := h.check hpolled hclock
  unfold JmyTcpClient.step JmyTcpClient.run at hstep
  dsimp only at hstep
  split_ifs at hstep with hconnecting hclosed
  · cases hstep
    exact hchecked
  · cases hstep
    exact hchecked
  · obtain ⟨r, hr, rfl⟩ := Option.map_eq_some_iff.1 hstep
    by_cases hopen : (c.check conf now).conn.IsOpen
    · exact hchecked.quiet (Or.inl hopen) (Quiet.run hr)
    · obtain ⟨trace, hconn, htrace⟩ := run_between hopen htick hr
      rw [hconn]
      exact hchecked.observed htrace

theorem step (h : InTurn conf c) {e : ClientSetEvent} (he : Orderly c e) (htick : e.TickKeeps)
    (hstep : c.step conf e = some c') : InTurn conf c' := by
  cases e with
  | connected result calls => exact h.connected hstep
  | call k => exact h.call he hstep
  | complete i r => exact h.complete hstep
  | run now handlers connNow data past => exact h.run he htick hstep

end InTurn

/-- When the connect of `start` fails, the set connects again the next time that it runs, however soon that is. -/
theorem reconnects_at_once {conf : JmyClientConfig} (hset : conf.isReconnect = true) (id : ℤ) {now : ℤ}
    (hepoch : 0 ≤ now) (hnow : 1000000000 * conf.reconnectInterval ≤ now) (handlers : ConnHandlers) (connNow : ℤ)
    (data : JmyPacketUnpackData2) (past : ℕ → Byte) :
    ∃ c, (clientSetMachine conf).run (.start id)
        [.connected .failed [], .run now handlers connNow data past] = some c ∧
      c.marks = [.started, .attempt now] ∧ c.conn.state = .connecting := by
  have helapsed : conf.reconnectInterval ≤ (now - 0).tdiv 1000000000 := by
    rw [sub_zero, Int.tdiv_eq_ediv_of_nonneg hepoch]
    omega
  let failed : JmyTcpClient := { JmyTcpClient.start id with
    conn := { (JmyTcpClient.start id).conn with state := .notConnect }, underWay := 0 }
  have hcheck : failed.check conf now =
      { failed.reconnect with lastPoint := now, marks := [.started, .attempt now] } := by
    unfold JmyTcpClient.check
    rw [if_neg (by rw [hset]; decide), if_neg (show ¬failed.conn.state = .disconnected from nofun),
      if_pos ⟨rfl, helapsed⟩]
    rfl
  refine ⟨{ failed.reconnect with lastPoint := now, marks := [.started, .attempt now] }, ?_, rfl, rfl⟩
  have hrun : (clientSetMachine conf).step failed (.run now handlers connNow data past) =
      some { failed.reconnect with lastPoint := now, marks := [.started, .attempt now] } := by
    change (failed.check conf now).run handlers connNow data past = _
    rw [hcheck]
    rfl
  exact ((clientSetMachine conf).run_cons_eq_some).2 ⟨failed, rfl, ((clientSetMachine conf).run_cons_eq_some).2
    ⟨_, hrun, rfl⟩⟩

/-- The interval of the clients of the servers, `CLIENT_RECONNECT_INTERVAL_SECS`. -/
def everyThreeSecs : JmyClientConfig := ⟨true, 3⟩

/-- No handlers. -/
def noHandlers : ConnHandlers := ⟨fun _ => none, none, none⟩

/-- A connect fails and the next one, at once, succeeds. The server closes the connection; the set finds it closed after
ten seconds, waits for three seconds and connects again. -/
def secondSession : List ClientSetEvent := [
  .connected .failed [], .run 5000000000 noHandlers 0 .init 0, .connected .connected [.send 1 [9]],
  .run 6000000000 noHandlers 0 .init 0, .complete 1 (.sent 6), .complete 0 .failed,
  .run 15000000000 noHandlers 0 .init 0, .run 17999999999 noHandlers 0 .init 0,
  .run 18000000000 noHandlers 0 .init 0]

theorem secondSession_ticks : ∀ e ∈ secondSession, e.TickKeeps := by
  have hquiet : noHandlers.TickKeeps := fun _ hf => nomatch hf
  simp [secondSession, ClientSetEvent.TickKeeps, hquiet]

end JmyGame
