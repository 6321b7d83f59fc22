import Mathlib.Data.Fintype.Basic
import Mathlib.Data.List.Count
import Mathlib.Logic.Function.Basic
import JmyGame.LibMachine

/-! `ThreadPool`: the workers of a pool take functions from a queue, one after the other, under a mutex, and wait at a
condition variable when the queue is empty. `submit` puts a function into the queue and wakes one of those that wait,
both without the mutex. The steps of the workers and of the callers come in any order, and a wait can end without a
notification. -/

namespace JmyGame

/-- Where a worker is in its loop. -/
inductive WorkerState (τ : Type) where
  | test
  | lock
  | locked
  | wait
  | waiting
  | woken
  | dequeue
  | dequeued (func : Option τ)
  | running (func : τ)
  | exited
  deriving DecidableEq, Repr

namespace WorkerState

variable {τ : Type}

/-- The worker has `m_conditional_mutex`. -/
def holds : WorkerState τ → Bool
  | locked | wait | dequeue | dequeued _ => true
  | _ => false

def waits : WorkerState τ → Bool
  | waiting => true
  | _ => false

/-- The function that the worker has taken and not run to its end. -/
def current : WorkerState τ → Option τ
  | dequeued func => func
  | running func => some func
  | _ => none

end WorkerState

/-- Where the caller of `shutdown` is. -/
inductive ShutdownState where
  | open
  | flagged
  | joining
  deriving DecidableEq, Repr

/-- A pool, with the number of calls of `submit` that still have to notify, and what was submitted, taken and run to
its end so far. -/
structure ThreadPool (n : ℕ) (τ : Type) where
  queue : List τ
  workers : Fin n → WorkerState τ
  notifies : ℕ
  closing : ShutdownState
  submitted : List τ
  taken : List (Fin n × τ)
  done : List (Fin n × τ)

inductive ThreadPoolEvent (n : ℕ) (τ : Type) where
  | enqueue (func : τ)
  | notifyOne (worker : Option (Fin n))
  | shutdown
  | notifyAll
  | worker (i : Fin n)
  | wakeUp (i : Fin n)
  deriving DecidableEq, Repr

namespace ThreadPool

variable {n : ℕ} {τ : Type}

/-- The pool behind `init`. A worker that is not started yet is one that has not made a step. -/
def start : ThreadPool n τ := ⟨[], fun _ => .test, 0, .open, [], [], []⟩

variable (s : ThreadPool n τ)

/-- `m_shutdown`. -/
def shutdown : Bool := s.closing ≠ .open

/-- No worker has the mutex. -/
def free : Prop := ∀ i, (s.workers i).holds = false

instance : Decidable s.free := inferInstanceAs (Decidable (∀ _, _))

def setWorker (i : Fin n) (w : WorkerState τ) : ThreadPool n τ :=
  { s with workers := Function.update s.workers i w }

/-- The next step of a worker. -/
def workerStep (i : Fin n) : Option (ThreadPool n τ) :=
  match s.workers i with
  | .test => some (s.setWorker i (if s.shutdown then .exited else .lock))
  | .lock => if s.free then some (s.setWorker i .locked) else none
  | .locked => some (s.setWorker i (if s.queue.isEmpty then .wait else .dequeue))
  | .wait => some (s.setWorker i .waiting)
  | .waiting => none
  | .woken => if s.free then some (s.setWorker i .dequeue) else none
  | .dequeue =>
    match s.queue with
    | [] => some (s.setWorker i (.dequeued none))
    | func :: queue => some { s.setWorker i (.dequeued (some func)) with
        queue := queue
        taken := s.taken ++ [(i, func)] }
  | .dequeued none => some (s.setWorker i .test)
  | .dequeued (some func) => some (s.setWorker i (.running func))
  | .running func => some { s.setWorker i .test with done := s.done ++ [(i, func)] }
  | .exited => none

/-- `notify_one` wakes a worker that waits, if there is one. -/
def step : ThreadPoolEvent n τ → Option (ThreadPool n τ)
  | .enqueue func => some { s with
      queue := s.queue ++ [func]
      notifies := s.notifies + 1
      submitted := s.submitted ++ [func] }
  | .notifyOne (some i) =>
    if s.notifies ≠ 0 ∧ (s.workers i).waits = true then
      some { s.setWorker i .woken with notifies := s.notifies - 1 }
    else none
  | .notifyOne none =>
    if s.notifies ≠ 0 ∧ ∀ i, (s.workers i).waits = false then some { s with notifies := s.notifies - 1 } else none
  | .shutdown => if s.closing = .open then some { s with closing := .flagged } else none
  | .notifyAll =>
    if s.closing = .flagged then
      some { s with
        closing := .joining
        workers := fun i => if (s.workers i).waits = true then .woken else s.workers i }
    else none
  | .worker i => s.workerStep i
  | .wakeUp i => if (s.workers i).waits = true then some (s.setWorker i .woken) else none

end ThreadPool

def threadPoolMachine (n : ℕ) (τ : Type) : Machine (ThreadPool n τ) (ThreadPoolEvent n τ) := ⟨ThreadPool.step⟩

namespace ThreadPool

variable {n : ℕ} {τ : Type} {s s' : ThreadPool n τ} {i : Fin n}

/-- The steps of a worker that leave the queue and the logs as they are. -/
inductive Goes (s : ThreadPool n τ) : WorkerState τ → WorkerState τ → Prop where
  | leave : s.shutdown = true → s.Goes .test .exited
  | stay : s.shutdown = false → s.Goes .test .lock
  | lock : s.free → s.Goes .lock .locked
  | empty : s.queue = [] → s.Goes .locked .wait
  | found : s.queue ≠ [] → s.Goes .locked .dequeue
  | wait : s.Goes .wait .waiting
  | relock : s.free → s.Goes .woken .dequeue
  | miss : s.queue = [] → s.Goes .dequeue (.dequeued none)
  | again : s.Goes (.dequeued none) .test
  | run (func : τ) : s.Goes (.dequeued (some func)) (.running func)

/-- What a step of a worker does: it goes on, takes the first function of the queue, or ends one. -/
theorem workerStep_cases (h : s.workerStep i = some s') :
    (∃ w, s.Goes (s.workers i) w ∧ s' = s.setWorker i w) ∨
      (∃ func queue, s.workers i = .dequeue ∧ s.queue = func :: queue ∧
        s' = { s.setWorker i (.dequeued (some func)) with queue := queue, taken := s.taken ++ [(i, func)] }) ∨
      ∃ func, s.workers i = .running func ∧ s' = { s.setWorker i .test with done := s.done ++ [(i, func)] } := by
  unfold workerStep at h
  cases hw : s.workers i with
  | test =>
      rw [hw, Option.some.injEq] at h
      refine Or.inl ⟨_, ?_, h.symm⟩
      split_ifs with hshutdown
      · exact .leave hshutdown
      · exact .stay (Bool.not_eq_true _ ▸ hshutdown)
  | lock =>
      rw [hw, Option.ite_none_right_eq_some] at h
      exact Or.inl ⟨_, .lock h.1, (Option.some.inj h.2).symm⟩
  | locked =>
      rw [hw, Option.some.injEq] at h
      refine Or.inl ⟨_, ?_, h.symm⟩
      split_ifs with hempty
      · exact .empty (List.isEmpty_iff.1 hempty)
      · exact .found fun hnil => hempty (List.isEmpty_iff.2 hnil)
  | wait =>
      rw [hw, Option.some.injEq] at h
      exact Or.inl ⟨_, .wait, h.symm⟩
  | waiting =>
      rw [hw] at h
      cases h
  | woken =>
      rw [hw, Option.ite_none_right_eq_some] at h
      exact Or.inl ⟨_, .relock h.1, (Option.some.inj h.2).symm⟩
  | dequeue =>
      rw [hw] at h
      dsimp only at h
      split at h
      · rename_i hqueue
        exact Or.inl ⟨_, .miss hqueue, (Option.some.inj h).symm⟩
      · rename_i func queue hqueue
        exact Or.inr (Or.inl ⟨func, queue, rfl, hqueue, (Option.some.inj h).symm⟩)
  | dequeued func =>
      rw [hw] at h
      cases func with
      | none => exact Or.inl ⟨_, .again, (Option.some.inj h).symm⟩
      | some func => exact Or.inl ⟨_, .run func, (Option.some.inj h).symm⟩
  | running func =>
      rw [hw] at h
      exact Or.inr (Or.inr ⟨func, rfl, (Option.some.inj h).symm⟩)
  | exited =>
      rw [hw] at h
      cases h

theorem Goes.current {w w' : WorkerState τ} (h : s.Goes w w') : w'.current = w.current := by
  cases h <;> rfl

@[simp] theorem setWorker_self (w : WorkerState τ) : (s.setWorker i w).workers i = w := Function.update_self ..

theorem setWorker_of_ne {j : Fin n} (h : j ≠ i) (w : WorkerState τ) : (s.setWorker i w).workers j = s.workers j :=
  Function.update_of_ne h ..

/-- A property of each worker after one of them has changed. -/
theorem forall_setWorker {p : Fin n → WorkerState τ → Prop} {w : WorkerState τ} (hi : p i w)
    (h : ∀ j ≠ i, p j (s.workers j)) (j : Fin n) : p j ((s.setWorker i w).workers j) := by
  by_cases hj : j = i
  · subst hj
    rwa [setWorker_self]
  · rw [setWorker_of_ne hj]
    exact h j hj

/-- The functions of a worker in a log. -/
def ofWorker (i : Fin n) (log : List (Fin n × τ)) : List τ := (log.filter fun entry => entry.1 = i).map Prod.snd

theorem ofWorker_concat (log : List (Fin n × τ)) (i j : Fin n) (func : τ) :
    ofWorker j (log ++ [(i, func)]) = ofWorker j log ++ if j = i then [func] else [] := by
  unfold ofWorker
  rw [List.filter_append, List.map_append]
  congr 1
  by_cases hj : j = i
  · subst hj
    simp
  · simp [hj, Ne.symm hj]

/-- What was submitted is what was taken, in the order of the submits, and what is in the queue; and a worker has run
what it has taken, in the order in which it took it, but for the function that it has now. -/
structure Tracked (s : ThreadPool n τ) : Prop where
  order : s.submitted = s.taken.map Prod.snd ++ s.queue
  own : ∀ i, ofWorker i s.taken = ofWorker i s.done ++ (s.workers i).current.toList

theorem tracked_start : Tracked (start : ThreadPool n τ) := ⟨rfl, fun _ => rfl⟩

/-- A worker changes and keeps its function. -/
theorem Tracked.setWorker (h : s.Tracked) {w : WorkerState τ} (hw : w.current = (s.workers i).current) :
    (s.setWorker i w).Tracked where
  order := h.order
  own j := by
    refine forall_setWorker (p := fun j w => ofWorker j s.taken = ofWorker j s.done ++ w.current.toList) ?_
      (fun j _ => h.own j) j
    rw [hw]
    exact h.own i

theorem Tracked.workerStep (h : s.Tracked) (hstep : s.workerStep i = some s') : s'.Tracked := by
  obtain ⟨w, hgoes, rfl⟩ | ⟨func, queue, hw, hqueue, rfl⟩ | ⟨func, hw, rfl⟩ := workerStep_cases hstep
  · exact h.setWorker hgoes.current
  · have hown := h.own i
    rw [hw] at hown
    refine ⟨?_, fun j => ?_⟩
    · change s.submitted = (s.taken ++ [(i, func)]).map Prod.snd ++ queue
      rw [h.order, hqueue, List.map_append, List.append_assoc]
      rfl
    · change ofWorker j (s.taken ++ [(i, func)]) = ofWorker j s.done ++ _
      rw [ofWorker_concat]
      refine forall_setWorker (p := fun j w => ofWorker j s.taken ++ (if j = i then [func] else []) =
        ofWorker j s.done ++ w.current.toList) ?_ (fun j hj => ?_) j
      · rw [if_pos rfl, hown]
        exact congrArg (· ++ [func]) (List.append_nil _)
      · rw [if_neg hj, List.append_nil]
        exact h.own j
  · have hown := h.own i
    rw [hw] at hown
    refine ⟨h.order, fun j => ?_⟩
    change ofWorker j s.taken = ofWorker j (s.done ++ [(i, func)]) ++ _
    rw [ofWorker_concat]
    refine forall_setWorker (p := fun j w => ofWorker j s.taken =
      ofWorker j s.done ++ (if j = i then [func] else []) ++ w.current.toList) ?_ (fun j hj => ?_) j
    · rw [if_pos rfl, hown]
      exact (List.append_nil _).symm
    · rw [if_neg hj, List.append_nil]
      exact h.own j

theorem current_of_waits {w : WorkerState τ} (h : w.waits = true) : w.current = none := by
  cases w with
  | waiting => rfl
  | _ => cases h

theorem Tracked.step (h : s.Tracked) {e : ThreadPoolEvent n τ} (hstep : (threadPoolMachine n τ).step s e = some s') :
    s'.Tracked := by
  cases e with
  | enqueue func =>
      obtain rfl := Option.some.inj hstep
      refine ⟨?_, h.own⟩
      change s.submitted ++ [func] = s.taken.map Prod.snd ++ (s.queue ++ [func])
      rw [h.order, List.append_assoc]
  | notifyOne worker =>
      cases worker with
      | none =>
          obtain ⟨-, hstep⟩ := Option.ite_none_right_eq_some.1 hstep
          obtain rfl := Option.some.inj hstep
          exact ⟨h.order, h.own⟩
      | some i =>
          obtain ⟨⟨-, hwaits⟩, hstep⟩ := Option.ite_none_right_eq_some.1 hstep
          obtain rfl := Option.some.inj hstep
          obtain ⟨horder, hown⟩ := h.setWorker (w := .woken) (current_of_waits hwaits).symm
          exact ⟨horder, hown⟩
  | shutdown =>
      obtain ⟨-, hstep⟩ := Option.ite_none_right_eq_some.1 hstep
      obtain rfl := Option.some.inj hstep
      exact ⟨h.order, h.own⟩
  | notifyAll =>
      obtain ⟨-, hstep⟩ := Option.ite_none_right_eq_some.1 hstep
      obtain rfl := Option.some.inj hstep
      refine ⟨h.order, fun i => ?_⟩
      dsimp only
      split_ifs with hwaits
      · rw [h.own i, current_of_waits hwaits]
        rfl
      · exact h.own i
  | worker i => exact h.workerStep hstep
  | wakeUp i =>
      obtain ⟨hwaits, hstep⟩ := Option.ite_none_right_eq_some.1 hstep
      obtain rfl := Option.some.inj hstep
      exact h.setWorker (current_of_waits hwaits).symm

/-- In every run, whatever the interleaving, the functions are taken in the order in which they were submitted, each
one by one worker, and a worker runs each function that it takes once before it takes the next. -/
theorem taken_in_order {es : List (ThreadPoolEvent n τ)} (hrun : (threadPoolMachine n τ).run start es = some s) :
    s.submitted = s.taken.map Prod.snd ++ s.queue ∧
      ∀ i, ofWorker i s.taken = ofWorker i s.done ++ (s.workers i).current.toList :=
  have htracked : s.Tracked := Machine.invariant_run (fun _ _ _ h => h.step) tracked_start hrun
  ⟨htracked.order, htracked.own⟩

end ThreadPool

end JmyGame
