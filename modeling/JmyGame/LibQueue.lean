import JmyGame.LibMachine

/-! Queues and the log of what went through them. A step puts a piece to the end of the queue, takes cells from its
front, empties it or leaves it as it is. What was taken out since the queue was last emptied, followed by what is in
it, is what was put in. -/

/-- What a step does to a queue. -/
inductive QueueMove (α : Type) where
  | put (l : List α)
  | take (n : ℕ)
  | clear
  | keep
  deriving DecidableEq

/-- What was put in and what was taken out since the queue was last emptied. -/
structure QueueLog (α : Type) where
  written : List α
  taken : List α

variable {α : Type}

/-- The queue behind a step. -/
def QueueMove.apply (q : List α) : QueueMove α → List α
  | put l => q ++ l
  | take n => q.drop n
  | clear => []
  | keep => q

namespace QueueLog

def empty : QueueLog α := ⟨[], []⟩

/-- The log behind a step; `q` is the queue before it. -/
def record (log : QueueLog α) (q : List α) : QueueMove α → QueueLog α
  | .put l => ⟨log.written ++ l, log.taken⟩
  | .take n => ⟨log.written, log.taken ++ q.take n⟩
  | .clear => empty
  | .keep => log

/-- Nothing was lost or repeated, and the order was kept. -/
def Balanced (log : QueueLog α) (q : List α) : Prop := log.taken ++ q = log.written

theorem balanced_empty : (empty : QueueLog α).Balanced [] := rfl

theorem Balanced.record {log : QueueLog α} {q : List α} (h : log.Balanced q) (move : QueueMove α) :
    (log.record q move).Balanced (move.apply q) := by
  unfold Balanced at h ⊢
  cases move with
  | put l =>
      change log.taken ++ (q ++ l) = log.written ++ l
      rw [← List.append_assoc, h]
  | take n =>
      change log.taken ++ q.take n ++ q.drop n = log.written
      rw [List.append_assoc, List.take_append_drop, h]
  | clear => rfl
  | keep => exact h

end QueueLog

namespace Machine

variable {σ ε : Type} (m : Machine σ ε) (queue : σ → List α) (move : σ → ε → QueueMove α)

/-- The machine together with the log of the queue in its states. -/
def logged : Machine (σ × QueueLog α) ε :=
  ⟨fun s e => (m.step s.1 e).map fun s' => (s', s.2.record (queue s.1) (move s.1 e))⟩

variable {m queue move}

/-- Where every step moves the queue as it says, the log is balanced behind every run, and every run is possible. -/
theorem logged_balanced {condition : σ → ε → Prop} {I : σ → Prop}
    (hstep : ∀ s e, I s → condition s e → ∃ s', m.step s e = some s' ∧ I s' ∧ queue s' = (move s e).apply (queue s))
    {s : σ} {log : QueueLog α} (hs : I s) (hlog : log.Balanced (queue s)) {es : List ε}
    (halong : m.Along condition s es) :
    ∃ t, (m.logged queue move).run (s, log) es = some t ∧ m.run s es = some t.1 ∧ I t.1 ∧
      t.2.Balanced (queue t.1) := by
  induction es generalizing s log with
  | nil => exact ⟨(s, log), rfl, rfl, hs, hlog⟩
  | cons e es ih =>
      obtain ⟨s', hs', hI, hqueue⟩ := hstep s e hs halong.1
      obtain ⟨t, hlogged, hrun, ht⟩ := ih hI (hqueue ▸ hlog.record (move s e)) (halong.2 s' hs')
      refine ⟨t, ?_, ?_, ht⟩
      · have hone : (m.logged queue move).step (s, log) e = some (s', log.record (queue s) (move s e)) :=
          Option.map_eq_some_iff.2 ⟨s', hs', rfl⟩
        rw [run, hone]
        exact hlogged
      · rw [run, hs']
        exact hrun

end Machine
