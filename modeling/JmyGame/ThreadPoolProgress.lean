import Mathlib.Algebra.BigOperators.Fin
import Mathlib.Data.Prod.Lex
import Mathlib.Order.WellFounded
import JmyGame.ThreadPool

/-! A function that is in the queue of a `ThreadPool` is run: a worker is on its way to it, or a notification is. A
worker that has seen the empty queue and does not wait yet misses a notification, so a pool with one worker can leave
a function in the queue. A second worker is enough: when the notification comes, it waits and is woken, or it does not
wait and gets to the queue by itself. -/

namespace JmyGame

/-- The worker gets to the queue without a notification. -/
def WorkerState.active {τ : Type} : WorkerState τ → Bool
  | waiting | exited => false
  | _ => true

/-- The steps of the workers, and of the calls of `submit` that have put their function into the queue. -/
def ThreadPoolEvent.OfPool {n : ℕ} {τ : Type} : ThreadPoolEvent n τ → Prop
  | .notifyOne _ | .worker _ => True
  | _ => False

namespace ThreadPool

variable {n : ℕ} {τ : Type} {s s' : ThreadPool n τ} {i : Fin n}

/-- Neither a worker nor a call of `submit` can make a step. -/
def Quiescent (s : ThreadPool n τ) : Prop := ∀ e, e.OfPool → s.step e = none

/-- At most one worker has the mutex, and a worker leaves only when the pool is shut down. -/
structure Exclusive (s : ThreadPool n τ) : Prop where
  held : ∀ i j, (s.workers i).holds = true → (s.workers j).holds = true → i = j
  left : ∀ i, s.workers i = .exited → s.shutdown = true

theorem exclusive_start : Exclusive (start : ThreadPool n τ) where
  held _ _ hi := by cases hi
  left _ hi := by cases hi

theorem Goes.holds {w w' : WorkerState τ} (h : s.Goes w w') (hw : w'.holds = true) : w.holds = true ∨ s.free := by
  cases h with
  | lock hfree => exact Or.inr hfree
  | relock hfree => exact Or.inr hfree
  | empty => exact Or.inl rfl
  | found => exact Or.inl rfl
  | miss => exact Or.inl rfl
  | leave => cases hw
  | stay => cases hw
  | wait => cases hw
  | again => cases hw
  | run => cases hw

theorem Goes.exited {w : WorkerState τ} (h : s.Goes w .exited) : s.shutdown = true := by
  cases h with
  | leave hshutdown => exact hshutdown

/-- A worker changes, and has the mutex then only if it had it before or no other worker has it. -/
theorem Exclusive.setWorker (h : s.Exclusive) {w : WorkerState τ}
    (hw : w.holds = true → (s.workers i).holds = true ∨ s.free) (hexited : w = .exited → s.shutdown = true) :
    (s.setWorker i w).Exclusive where
  held j k hj hk := by
    have hother : ∀ l, l ≠ i → w.holds = true → (s.workers l).holds = true → False := by
      intro l hl hholds hother
      rcases hw hholds with hi | hfree
      · exact hl (h.held l i hother hi)
      · rw [hfree l] at hother
        cases hother
    by_cases hji : j = i
    · by_cases hki : k = i
      · rw [hji, hki]
      · subst hji
        rw [setWorker_self] at hj
        rw [setWorker_of_ne hki] at hk
        exact (hother k hki hj hk).elim
    · rw [setWorker_of_ne hji] at hj
      by_cases hki : k = i
      · subst hki
        rw [setWorker_self] at hk
        exact (hother j hji hk hj).elim
      · rw [setWorker_of_ne hki] at hk
        exact h.held j k hj hk
  left := forall_setWorker (p := fun _ w => w = .exited → s.shutdown = true) hexited fun j _ => h.left j

theorem Exclusive.workerStep (h : s.Exclusive) (hstep : s.workerStep i = some s') : s'.Exclusive := by
  obtain ⟨w, hgoes, rfl⟩ | ⟨func, queue, hw, hqueue, rfl⟩ | ⟨func, hw, rfl⟩ := workerStep_cases hstep
  · refine h.setWorker hgoes.holds fun hexited => ?_
    subst hexited
    exact hgoes.exited
  · have hset : (s.setWorker i (.dequeued (some func))).Exclusive :=
      h.setWorker (fun _ => Or.inl (by rw [hw]; rfl)) fun hexited => by cases hexited
    exact ⟨hset.held, hset.left⟩
  · have hset : (s.setWorker i .test).Exclusive :=
      h.setWorker (fun hholds => by cases hholds) fun hexited => by cases hexited
    exact ⟨hset.held, hset.left⟩

theorem Exclusive.wake (h : s.Exclusive) (i : Fin n) : (s.setWorker i .woken).Exclusive :=
  h.setWorker (fun hholds => by cases hholds) fun hexited => by cases hexited

theorem Exclusive.step (h : s.Exclusive) {e : ThreadPoolEvent n τ} (hstep : s.step e = some s') : s'.Exclusive := by
  cases e with
  | enqueue func =>
      obtain rfl := Option.some.inj hstep
      exact ⟨h.held, h.left⟩
  | notifyOne worker =>
      cases worker with
      | none =>
          obtain ⟨-, hstep⟩ := Option.ite_none_right_eq_some.1 hstep
          obtain rfl := Option.some.inj hstep
          exact ⟨h.held, h.left⟩
      | some i =>
          obtain ⟨-, hstep⟩ := Option.ite_none_right_eq_some.1 hstep
          obtain rfl := Option.some.inj hstep
          exact ⟨(h.wake i).held, (h.wake i).left⟩
  | shutdown =>
      obtain ⟨-, hstep⟩ := Option.ite_none_right_eq_some.1 hstep
      obtain rfl := Option.some.inj hstep
      exact ⟨h.held, fun _ _ => rfl⟩
  | notifyAll =>
      obtain ⟨-, hstep⟩ := Option.ite_none_right_eq_some.1 hstep
      obtain rfl := Option.some.inj hstep
      refine ⟨fun j k hj hk => h.held j k ?_ ?_, fun _ _ => rfl⟩
      · dsimp only at hj
        split_ifs at hj
        · cases hj
        · exact hj
      · dsimp only at hk
        split_ifs at hk
        · cases hk
        · exact hk
  | worker i => exact h.workerStep hstep
  | wakeUp i =>
      obtain ⟨-, hstep⟩ := Option.ite_none_right_eq_some.1 hstep
      obtain rfl := Option.some.inj hstep
      exact h.wake i

/-- A function in the queue of a pool that is open has a worker or a notification on its way; and so it has beside a
worker that is about to wait. -/
structure Served (s : ThreadPool n τ) : Prop where
  exclusive : s.Exclusive
  served : s.shutdown = false → s.queue ≠ [] → s.notifies ≠ 0 ∨ ∃ i, (s.workers i).active = true
  gap : s.shutdown = false → s.queue ≠ [] → ∀ i, s.workers i = .wait →
    s.notifies ≠ 0 ∨ ∃ j ≠ i, (s.workers j).active = true

theorem served_start : Served (start : ThreadPool n τ) where
  exclusive := exclusive_start
  served _ hqueue := absurd rfl hqueue
  gap _ hqueue := absurd rfl hqueue

theorem Goes.active {w w' : WorkerState τ} (h : s.Goes w w') (hopen : s.shutdown = false) :
    w'.active = true ∨ w = .wait := by
  cases h with
  | leave hshutdown =>
      rw [hopen] at hshutdown
      cases hshutdown
  | wait => exact Or.inr rfl
  | _ => exact Or.inl rfl

theorem Goes.queue {w : WorkerState τ} (h : s.Goes w .wait) : s.queue = [] := by
  cases h with
  | empty hqueue => exact hqueue

/-- An active worker serves the pool, where it is not about to wait at a queue that is not empty. -/
theorem served_of_active (hexclusive : s.Exclusive) (hactive : (s.workers i).active = true)
    (hwait : s.queue ≠ [] → s.workers i ≠ .wait) : s.Served := by
  refine ⟨hexclusive, fun _ _ => Or.inr ⟨i, hactive⟩, fun _ hqueue k hk => Or.inr ⟨i, ?_, hactive⟩⟩
  rintro rfl
  exact hwait hqueue hk

theorem Served.workerStep (h : s.Served) (hstep : s.workerStep i = some s') : s'.Served := by
  have hexclusive := h.exclusive.workerStep hstep
  obtain ⟨w, hgoes, rfl⟩ | ⟨func, queue, hw, hqueue, rfl⟩ | ⟨func, hw, rfl⟩ := workerStep_cases hstep
  · by_cases hactive : w.active = true
    · refine served_of_active (i := i) hexclusive (by rwa [setWorker_self]) fun hqueue hwait => ?_
      rw [setWorker_self] at hwait
      subst hwait
      exact hqueue hgoes.queue
    · -- the worker goes to wait, where the gap had somebody else
      have hwait : s.shutdown = false → s.workers i = .wait := fun hopen =>
        (hgoes.active hopen).resolve_left hactive
      have hothers : ∀ j, j ≠ i → (s.workers j).active = true →
          ((s.setWorker i w).workers j).active = true := by
        intro j hj hjactive
        rwa [setWorker_of_ne hj]
      refine ⟨hexclusive, fun hopen hqueue => ?_, fun hopen hqueue k hk => ?_⟩
      · exact (h.gap hopen hqueue i (hwait hopen)).imp id fun ⟨j, hj, hjactive⟩ => ⟨j, hothers j hj hjactive⟩
      · have hki : k ≠ i := by
          rintro rfl
          rw [setWorker_self] at hk
          subst hk
          exact hactive rfl
        rw [setWorker_of_ne hki] at hk
        have hsame := h.exclusive.held k i (by rw [hk]; rfl) (by rw [hwait hopen]; rfl)
        exact absurd hsame hki
  · have hself : (s.setWorker i (.dequeued (some func))).workers i = .dequeued (some func) := setWorker_self _
    exact served_of_active (i := i) hexclusive (by rw [hself]; rfl) fun _ hwait => by rw [hself] at hwait; cases hwait
  · have hself : (s.setWorker i .test).workers i = .test := setWorker_self _
    exact served_of_active (i := i) hexclusive (by rw [hself]; rfl) fun _ hwait => by rw [hself] at hwait; cases hwait

/-- A worker that is woken comes for what is in the queue. -/
theorem served_of_woken (hexclusive : s.Exclusive) (hw : s.workers i = .woken) : s.Served :=
  served_of_active (i := i) hexclusive (by rw [hw]; rfl) fun _ hwait => by rw [hw] at hwait; cases hwait

theorem active_of_not_waits (h : s.Exclusive) (hopen : s.shutdown = false) (hwaits : (s.workers i).waits = false) :
    (s.workers i).active = true := by
  cases hw : s.workers i with
  | waiting =>
      rw [hw] at hwaits
      cases hwaits
  | exited =>
      have hshutdown := h.left i hw
      rw [hopen] at hshutdown
      cases hshutdown
  | _ => rfl

/-- There are two workers, so that a notification that finds nobody waiting finds somebody beside each worker. -/
theorem Served.step (hn : 2 ≤ n) (h : s.Served) {e : ThreadPoolEvent n τ} (hstep : s.step e = some s') : s'.Served := by
  have hexclusive := h.exclusive.step hstep
  cases e with
  | enqueue func =>
      obtain rfl := Option.some.inj hstep
      exact ⟨hexclusive, fun _ _ => Or.inl (Nat.succ_ne_zero _), fun _ _ _ _ => Or.inl (Nat.succ_ne_zero _)⟩
  | notifyOne worker =>
      cases worker with
      | none =>
          obtain ⟨⟨-, hnobody⟩, hstep⟩ := Option.ite_none_right_eq_some.1 hstep
          obtain rfl := Option.some.inj hstep
          have hall : s.shutdown = false → ∀ j, (s.workers j).active = true := fun hopen j =>
            active_of_not_waits h.exclusive hopen (hnobody j)
          have : Nontrivial (Fin n) := Fin.nontrivial_iff_two_le.2 hn
          refine ⟨hexclusive, fun hopen _ => Or.inr ⟨⟨0, by omega⟩, hall hopen _⟩, fun hopen _ k _ => ?_⟩
          obtain ⟨j, hj⟩ := exists_ne k
          exact Or.inr ⟨j, hj, hall hopen j⟩
      | some i =>
          obtain ⟨-, hstep⟩ := Option.ite_none_right_eq_some.1 hstep
          obtain rfl := Option.some.inj hstep
          exact served_of_woken hexclusive (setWorker_self _)
  | shutdown =>
      obtain ⟨-, hstep⟩ := Option.ite_none_right_eq_some.1 hstep
      obtain rfl := Option.some.inj hstep
      exact ⟨hexclusive, (fun hopen => by cases hopen), (fun hopen => by cases hopen)⟩
  | notifyAll =>
      obtain ⟨-, hstep⟩ := Option.ite_none_right_eq_some.1 hstep
      obtain rfl := Option.some.inj hstep
      exact ⟨hexclusive, (fun hopen => by cases hopen), (fun hopen => by cases hopen)⟩
  | worker i => exact h.workerStep hstep
  | wakeUp i =>
      obtain ⟨-, hstep⟩ := Option.ite_none_right_eq_some.1 hstep
      obtain rfl := Option.some.inj hstep
      exact served_of_woken hexclusive (setWorker_self _)

/-- How far the worker is from its wait, or from the queue when there is something in it. -/
def weight (empty : Bool) : WorkerState τ → ℕ
  | .waiting | .exited => 0
  | .wait => 1
  | .locked => 2
  | .lock => 3
  | .test => 4
  | .dequeued none | .running _ => 5
  | .dequeued (some _) => 6
  | .dequeue => if empty then 6 else 1
  | .woken => if empty then 7 else 2

def work (s : ThreadPool n τ) : ℕ := ∑ i, weight s.queue.isEmpty (s.workers i) + 8 * s.notifies

theorem sum_setWorker (g : WorkerState τ → ℕ) (i : Fin n) (w : WorkerState τ) :
    ∑ j, g ((s.setWorker i w).workers j) + g (s.workers i) = ∑ j, g (s.workers j) + g w := by
  have hset : (fun j => g ((s.setWorker i w).workers j)) = Function.update (fun j => g (s.workers j)) i (g w) :=
    Function.comp_update g s.workers i w
  have hsum := Finset.sum_update_of_mem (Finset.mem_univ i) (fun j => g (s.workers j)) (g w)
  have hsplit := Finset.sum_eq_add_sum_sdiff_singleton_of_mem (Finset.mem_univ i) fun j => g (s.workers j)
  rw [hset, hsum, hsplit]
  omega

theorem Goes.weight_lt {w w' : WorkerState τ} (h : s.Goes w w') :
    weight s.queue.isEmpty w' < weight s.queue.isEmpty w := by
  cases h with
  | found hqueue =>
      rw [List.isEmpty_eq_false_iff.2 hqueue]
      exact Nat.lt_succ_self 1
  | miss hqueue =>
      rw [hqueue]
      exact Nat.lt_succ_self 5
  | relock =>
      cases s.queue.isEmpty
      · exact Nat.lt_succ_self 1
      · exact Nat.lt_succ_self 6
  | leave => exact Nat.zero_lt_succ _
  | _ => exact Nat.lt_succ_self _

/-- A step of the pool. -/
def PoolStep (s' s : ThreadPool n τ) : Prop := ∃ e : ThreadPoolEvent n τ, e.OfPool ∧ s.step e = some s'

/-- A step of the pool takes a function from the queue or leaves less work. -/
theorem PoolStep.lt (h : PoolStep s' s) :
    s'.queue.length < s.queue.length ∨ s'.queue.length = s.queue.length ∧ s'.work < s.work := by
  obtain ⟨e, he, hstep⟩ := h
  cases e with
  | enqueue func => exact he.elim
  | shutdown => exact he.elim
  | notifyAll => exact he.elim
  | wakeUp i => exact he.elim
  | notifyOne worker =>
      refine Or.inr ?_
      cases worker with
      | none =>
          obtain ⟨⟨hpos, -⟩, hstep⟩ := Option.ite_none_right_eq_some.1 hstep
          obtain rfl := Option.some.inj hstep
          refine ⟨rfl, ?_⟩
          unfold work
          dsimp only
          omega
      | some i =>
          obtain ⟨⟨hpos, hwaits⟩, hstep⟩ := Option.ite_none_right_eq_some.1 hstep
          obtain rfl := Option.some.inj hstep
          refine ⟨rfl, ?_⟩
          have hsum := sum_setWorker (s := s) (weight s.queue.isEmpty) i .woken
          have hwoken : weight s.queue.isEmpty (.woken : WorkerState τ) ≤ 7 := by
            cases s.queue.isEmpty
            · exact (by decide : 2 ≤ 7)
            · exact le_refl 7
          change ∑ j, weight s.queue.isEmpty ((s.setWorker i .woken).workers j) + 8 * (s.notifies - 1) < s.work
          unfold work
          omega
  | worker i =>
      obtain ⟨w, hgoes, rfl⟩ | ⟨func, queue, hw, hqueue, rfl⟩ | ⟨func, hw, rfl⟩ := workerStep_cases hstep
      · refine Or.inr ⟨rfl, ?_⟩
        have hsum := sum_setWorker (s := s) (weight s.queue.isEmpty) i w
        have hlt := hgoes.weight_lt
        change ∑ j, weight s.queue.isEmpty ((s.setWorker i w).workers j) + 8 * s.notifies < s.work
        unfold work
        omega
      · refine Or.inl ?_
        rw [hqueue]
        exact Nat.lt_succ_self _
      · refine Or.inr ⟨rfl, ?_⟩
        have hsum := sum_setWorker (s := s) (weight s.queue.isEmpty) i .test
        have hrunning : weight s.queue.isEmpty (s.workers i) = 5 := by rw [hw]; rfl
        have htest : weight s.queue.isEmpty (.test : WorkerState τ) = 4 := rfl
        change ∑ j, weight s.queue.isEmpty ((s.setWorker i .test).workers j) + 8 * s.notifies < s.work
        unfold work
        omega

/-- The workers and the calls of `submit` cannot go on for ever by themselves. -/
theorem poolStep_wellFounded : WellFounded (PoolStep : ThreadPool n τ → ThreadPool n τ → Prop) := by
  refine Subrelation.wf ?_ (InvImage.wf (fun s : ThreadPool n τ => toLex (s.queue.length, s.work)) wellFounded_lt)
  intro s' s h
  refine Prod.Lex.toLex_lt_toLex.2 ?_
  exact h.lt

theorem workerStep_ne_none_of_holds (h : (s.workers i).holds = true) : s.workerStep i ≠ none := by
  unfold workerStep
  cases hw : s.workers i with
  | locked => exact Option.some_ne_none _
  | wait => exact Option.some_ne_none _
  | dequeue =>
      dsimp only
      split
      · exact Option.some_ne_none _
      · exact Option.some_ne_none _
  | dequeued func =>
      cases func with
      | none => exact Option.some_ne_none _
      | some func => exact Option.some_ne_none _
  | _ =>
      rw [hw] at h
      cases h

/-- At rest nobody has the mutex, every worker waits or has left, and every call of `submit` has returned. -/
theorem Quiescent.idle (h : s.Quiescent) :
    s.notifies = 0 ∧ ∀ i, (s.workers i).waits = true ∨ s.workers i = .exited := by
  have hfree : s.free := by
    intro i
    refine Bool.eq_false_iff.2 fun hholds => ?_
    exact workerStep_ne_none_of_holds hholds (h (.worker i) trivial)
  constructor
  · by_contra hpos
    by_cases hwaits : ∃ i, (s.workers i).waits = true
    · obtain ⟨i, hi⟩ := hwaits
      have hnone := h (.notifyOne (some i)) trivial
      rw [step, if_pos ⟨hpos, hi⟩] at hnone
      cases hnone
    · have hnone := h (.notifyOne none) trivial
      rw [step, if_pos ⟨hpos, fun i => Bool.eq_false_iff.2 fun hi => hwaits ⟨i, hi⟩⟩] at hnone
      cases hnone
  · intro i
    have hnone : s.workerStep i = none := h (.worker i) trivial
    have hholds := hfree i
    unfold workerStep at hnone
    cases hw : s.workers i with
    | waiting => exact Or.inl rfl
    | exited => exact Or.inr rfl
    | test =>
        rw [hw] at hnone
        cases hnone
    | lock =>
        rw [hw] at hnone
        dsimp only at hnone
        rw [if_pos hfree] at hnone
        cases hnone
    | woken =>
        rw [hw] at hnone
        dsimp only at hnone
        rw [if_pos hfree] at hnone
        cases hnone
    | running func =>
        rw [hw] at hnone
        cases hnone
    | _ =>
        rw [hw] at hholds
        cases hholds

theorem Served.queue_of_quiescent (h : s.Served) (hopen : s.shutdown = false) (hquiet : s.Quiescent) :
    s.queue = [] := by
  by_contra hqueue
  obtain ⟨hnotifies, hworkers⟩ := hquiet.idle
  rcases h.served hopen hqueue with hpos | ⟨i, hactive⟩
  · exact hpos hnotifies
  · rcases hworkers i with hwaits | hexited
    · cases hw : s.workers i with
      | waiting =>
          rw [hw] at hactive
          cases hactive
      | _ =>
          rw [hw] at hwaits
          cases hwaits
    · rw [hexited] at hactive
      cases hactive

theorem count_ofWorker [DecidableEq τ] (log : List (Fin n × τ)) (i : Fin n) (func : τ) :
    (ofWorker i log).count func = log.count (i, func) := by
  induction log using List.reverseRecOn with
  | nil => rfl
  | append_singleton log entry ih =>
      obtain ⟨j, other⟩ := entry
      rw [ofWorker_concat, List.count_append, List.count_append, ih]
      congr 1
      by_cases hi : i = j
      · subst hi
        rw [if_pos rfl, List.count_singleton, List.count_singleton]
        simp
      · rw [if_neg hi, List.count_nil, List.count_singleton, if_neg]
        simp [Ne.symm hi]

/-- Workers that have nothing in their hands have run what was taken. -/
theorem Tracked.done_perm (h : s.Tracked) (hcurrent : ∀ i, (s.workers i).current = none) : s.done.Perm s.taken := by
  classical
  refine List.perm_iff_count.2 fun ⟨i, func⟩ => ?_
  have hown := h.own i
  rw [hcurrent i, Option.toList_none, List.append_nil] at hown
  rw [← count_ofWorker, ← count_ofWorker, hown]

theorem PoolStep.kept {e : ThreadPoolEvent n τ} (he : e.OfPool) (hstep : s.step e = some s') :
    s'.closing = s.closing ∧ s'.submitted = s.submitted := by
  cases e with
  | enqueue func => exact he.elim
  | shutdown => exact he.elim
  | notifyAll => exact he.elim
  | wakeUp i => exact he.elim
  | notifyOne worker =>
      cases worker with
      | none =>
          obtain ⟨-, hstep⟩ := Option.ite_none_right_eq_some.1 hstep
          obtain rfl := Option.some.inj hstep
          exact ⟨rfl, rfl⟩
      | some i =>
          obtain ⟨-, hstep⟩ := Option.ite_none_right_eq_some.1 hstep
          obtain rfl := Option.some.inj hstep
          exact ⟨rfl, rfl⟩
  | worker i =>
      obtain ⟨w, -, rfl⟩ | ⟨func, queue, -, -, rfl⟩ | ⟨func, -, rfl⟩ := workerStep_cases hstep
      · exact ⟨rfl, rfl⟩
      · exact ⟨rfl, rfl⟩
      · exact ⟨rfl, rfl⟩

theorem kept_run {es : List (ThreadPoolEvent n τ)} (hes : ∀ e ∈ es, e.OfPool)
    (hrun : (threadPoolMachine n τ).run s es = some s') :
    s'.closing = s.closing ∧ s'.submitted = s.submitted := by
  have hpool : (threadPoolMachine n τ).Along (fun _ e => e.OfPool) s es := Machine.along_of_forall hes
  refine Machine.invariant_along (I := fun t => t.closing = s.closing ∧ t.submitted = s.submitted) ?_ ⟨rfl, rfl⟩
    hpool hrun
  intro t e t' h he hstep
  obtain ⟨hclosing, hsubmitted⟩ := PoolStep.kept he hstep
  rw [hclosing, hsubmitted]
  exact h

/-- In every run of an open pool with two workers or more, whatever the interleaving: the workers come to rest when
nothing more is submitted, and when they are at rest, every function that was submitted has been run exactly once. -/
theorem every_function_run (hn : 2 ≤ n) {es : List (ThreadPoolEvent n τ)}
    (hrun : (threadPoolMachine n τ).run start es = some s) (hopen : s.shutdown = false) :
    Acc PoolStep s ∧ ∀ es' t, (∀ e ∈ es', e.OfPool) → (threadPoolMachine n τ).run s es' = some t → t.Quiescent →
      t.queue = [] ∧ (t.done.map Prod.snd).Perm s.submitted := by
  refine ⟨poolStep_wellFounded.apply s, fun es' t hes' hrun' hquiet => ?_⟩
  have hwhole : (threadPoolMachine n τ).run start (es ++ es') = some t := by
    rw [Machine.run_append, hrun]
    exact hrun'
  have hserved : t.Served := Machine.invariant_run (fun _ _ _ h => h.step hn) served_start hwhole
  have htracked : t.Tracked := Machine.invariant_run (fun _ _ _ h => h.step) tracked_start hwhole
  obtain ⟨hclosing, hsubmitted⟩ := kept_run hes' hrun'
  have hopen' : t.shutdown = false := by
    rw [shutdown, hclosing]
    exact hopen
  have hqueue : t.queue = [] := hserved.queue_of_quiescent hopen' hquiet
  have hcurrent : ∀ i, (t.workers i).current = none := by
    intro i
    rcases hquiet.idle.2 i with hwaits | hexited
    · exact current_of_waits hwaits
    · rw [hexited]
      rfl
  have horder := htracked.order
  rw [hqueue, List.append_nil, hsubmitted] at horder
  rw [horder]
  exact ⟨hqueue, (htracked.done_perm hcurrent).map Prod.snd⟩

/-- The first worker waits and the second one is about to when a function is submitted; the first one runs it. -/
def oneSubmit : List (ThreadPoolEvent 2 ℕ) := [
  .worker 0, .worker 0, .worker 0, .worker 0, .worker 1, .worker 1, .worker 1,
  .enqueue 7, .notifyOne (some 0), .worker 1]

def oneSubmitRest : List (ThreadPoolEvent 2 ℕ) := [
  .worker 0, .worker 0, .worker 0, .worker 0, .worker 0, .worker 0, .worker 0, .worker 0]

instance (e : ThreadPoolEvent n τ) : Decidable e.OfPool :=
  match e with
  | .notifyOne _ | .worker _ => isTrue trivial
  | .enqueue _ | .shutdown | .notifyAll | .wakeUp _ => isFalse id

/-- The steps that are left at rest are none of the pool. -/
theorem quiescent_of_idle (hnotifies : s.notifies = 0) (hworkers : ∀ i, s.workerStep i = none) : s.Quiescent := by
  intro e he
  cases e with
  | notifyOne worker =>
      cases worker with
      | none => exact if_neg fun h => h.1 hnotifies
      | some i => exact if_neg fun h => h.1 hnotifies
  | worker i => exact hworkers i
  | _ => exact he.elim

theorem oneSubmit_taken : ∃ s, (threadPoolMachine 2 ℕ).run start oneSubmit = some s ∧
    s.submitted = s.taken.map Prod.snd ++ s.queue := by
  obtain ⟨s, hs⟩ : ∃ s, (threadPoolMachine 2 ℕ).run start oneSubmit = some s := ⟨_, rfl⟩
  exact ⟨s, hs, (taken_in_order hs).1⟩

theorem oneSubmit_run : ∃ s t, (threadPoolMachine 2 ℕ).run start oneSubmit = some s ∧
    (threadPoolMachine 2 ℕ).run s oneSubmitRest = some t ∧ (t.done.map Prod.snd).Perm s.submitted := by
  obtain ⟨s, hs⟩ : ∃ s, (threadPoolMachine 2 ℕ).run start oneSubmit = some s := ⟨_, rfl⟩
  have hopen : s.shutdown = false := by
    obtain rfl := Option.some.inj hs
    rfl
  obtain ⟨t, ht⟩ : ∃ t, (threadPoolMachine 2 ℕ).run s oneSubmitRest = some t := by
    obtain rfl := Option.some.inj hs
    exact ⟨_, rfl⟩
  have hquiet : t.Quiescent := by
    obtain rfl := Option.some.inj hs
    obtain rfl := Option.some.inj ht
    exact quiescent_of_idle rfl (Fin.forall_fin_two.2 ⟨rfl, rfl⟩)
  exact ⟨s, t, hs, ht, ((every_function_run (le_refl 2) hs hopen).2 oneSubmitRest t (by decide) ht hquiet).2⟩

/-- With one worker, a function that is submitted between its look at the queue and its wait stays in the queue. -/
theorem oneWorker_misses : ∃ t, (threadPoolMachine 1 ℕ).run start
      [.worker 0, .worker 0, .worker 0, .enqueue 7, .notifyOne none, .worker 0] = some t ∧
    t.Quiescent ∧ t.shutdown = false ∧ t.queue = [7] :=
  ⟨_, rfl, quiescent_of_idle rfl (Fin.forall_fin_one.2 rfl), rfl, rfl⟩

/-- The worker has seen that the pool is open and does not wait yet. -/
def late : WorkerState τ → Bool
  | .lock | .locked | .wait => true
  | _ => false

/-- When all are notified, nobody is between its look at `m_shutdown` and its wait. -/
def NotifiedInTime (s : ThreadPool n τ) (e : ThreadPoolEvent n τ) : Prop :=
  e = .notifyAll → ∀ i, late (s.workers i) = false

/-- Every worker of a pool that was notified gets to its look at `m_shutdown`. -/
def Leaving (s : ThreadPool n τ) : Prop :=
  s.closing = .joining → ∀ i, late (s.workers i) = false ∧ (s.workers i).waits = false

theorem Goes.leaving {w w' : WorkerState τ} (h : s.Goes w w') (hshutdown : s.shutdown = true)
    (hw : late w = false ∧ w.waits = false) : late w' = false ∧ w'.waits = false := by
  cases h with
  | stay hopen =>
      rw [hshutdown] at hopen
      cases hopen
  | lock => exact absurd hw.1 Bool.noConfusion
  | empty => exact absurd hw.1 Bool.noConfusion
  | found => exact ⟨rfl, rfl⟩
  | wait => exact absurd hw.1 Bool.noConfusion
  | _ => exact ⟨rfl, rfl⟩

theorem Leaving.setWorker (h : s.Leaving) {w : WorkerState τ}
    (hw : s.closing = .joining → late w = false ∧ w.waits = false) : (s.setWorker i w).Leaving :=
  fun hclosing => forall_setWorker (p := fun _ w => late w = false ∧ w.waits = false) (hw hclosing)
    fun j _ => h hclosing j

theorem Leaving.step (h : s.Leaving) {e : ThreadPoolEvent n τ} (htime : s.NotifiedInTime e)
    (hstep : s.step e = some s') : s'.Leaving := by
  cases e with
  | enqueue func =>
      obtain rfl := Option.some.inj hstep
      exact h
  | notifyOne worker =>
      cases worker with
      | none =>
          obtain ⟨-, hstep⟩ := Option.ite_none_right_eq_some.1 hstep
          obtain rfl := Option.some.inj hstep
          exact h
      | some i =>
          obtain ⟨-, hstep⟩ := Option.ite_none_right_eq_some.1 hstep
          obtain rfl := Option.some.inj hstep
          exact h.setWorker (w := .woken) fun _ => ⟨rfl, rfl⟩
  | shutdown =>
      obtain ⟨-, hstep⟩ := Option.ite_none_right_eq_some.1 hstep
      obtain rfl := Option.some.inj hstep
      exact fun hclosing => by cases hclosing
  | notifyAll =>
      obtain ⟨-, hstep⟩ := Option.ite_none_right_eq_some.1 hstep
      obtain rfl := Option.some.inj hstep
      intro _ i
      dsimp only
      split_ifs with hwaits
      · exact ⟨rfl, rfl⟩
      · exact ⟨htime rfl i, Bool.not_eq_true _ ▸ hwaits⟩
  | worker i =>
      obtain ⟨w, hgoes, rfl⟩ | ⟨func, queue, hw, hqueue, rfl⟩ | ⟨func, hw, rfl⟩ := workerStep_cases hstep
      · refine h.setWorker fun hclosing => hgoes.leaving ?_ (h hclosing i)
        rw [shutdown, hclosing]
        rfl
      · exact h.setWorker (w := .dequeued (some func)) fun _ => ⟨rfl, rfl⟩
      · exact h.setWorker (w := .test) fun _ => ⟨rfl, rfl⟩
  | wakeUp i =>
      obtain ⟨-, hstep⟩ := Option.ite_none_right_eq_some.1 hstep
      obtain rfl := Option.some.inj hstep
      exact h.setWorker (w := .woken) fun _ => ⟨rfl, rfl⟩

/-- In every run in which nobody is between its look at `m_shutdown` and its wait when all are notified, the workers
of the pool that is shut down come to rest, and then they have all left, so that `shutdown` has joined them. -/
theorem shutdown_joins {es : List (ThreadPoolEvent n τ)}
    (htime : (threadPoolMachine n τ).Along NotifiedInTime start es)
    (hrun : (threadPoolMachine n τ).run start es = some s) (hclosing : s.closing = .joining) :
    Acc PoolStep s ∧ ∀ es' t, (∀ e ∈ es', e.OfPool) → (threadPoolMachine n τ).run s es' = some t → t.Quiescent →
      ∀ i, t.workers i = .exited := by
  refine ⟨poolStep_wellFounded.apply s, fun es' t hes' hrun' hquiet i => ?_⟩
  have hstart : (start : ThreadPool n τ).Leaving := fun hclosing => by cases hclosing
  have hleaving : s.Leaving := Machine.invariant_along (fun _ _ _ h htime => h.step htime) hstart htime hrun
  have hpool : (threadPoolMachine n τ).Along (fun _ e => e.OfPool) s es' := Machine.along_of_forall hes'
  have hleaving' : t.Leaving := by
    refine Machine.invariant_along (fun u e u' h he hstep => h.step ?_ hstep) hleaving hpool hrun'
    rintro rfl
    exact he.elim
  obtain ⟨hkept, -⟩ := kept_run hes' hrun'
  rcases hquiet.idle.2 i with hwaits | hexited
  · have hnot := (hleaving' (hkept.trans hclosing) i).2
    rw [hwaits] at hnot
    cases hnot
  · exact hexited

/-- One worker has run a function and waits, the other one is about to look at `m_shutdown`. -/
def shutOneDown : List (ThreadPoolEvent 2 ℕ) := [
  .enqueue 7, .notifyOne none, .worker 0, .worker 0, .worker 0, .worker 0, .worker 0, .worker 0, .worker 0, .worker 0,
  .worker 0, .worker 0, .shutdown, .notifyAll]

def shutOneDownRest : List (ThreadPoolEvent 2 ℕ) := [.worker 0, .worker 0, .worker 0, .worker 0, .worker 1]

instance : DecidableRel (NotifiedInTime : ThreadPool n ℕ → ThreadPoolEvent n ℕ → Prop) :=
  fun _ _ => inferInstanceAs (Decidable (_ → _))

theorem shutOneDown_joins : ∃ s t, (threadPoolMachine 2 ℕ).run start shutOneDown = some s ∧
    (threadPoolMachine 2 ℕ).run s shutOneDownRest = some t ∧ ∀ i, t.workers i = .exited := by
  have htime : (threadPoolMachine 2 ℕ).Along NotifiedInTime start shutOneDown := by decide
  obtain ⟨s, hs⟩ : ∃ s, (threadPoolMachine 2 ℕ).run start shutOneDown = some s := ⟨_, rfl⟩
  have hclosing : s.closing = .joining := by
    obtain rfl := Option.some.inj hs
    rfl
  obtain ⟨t, ht⟩ : ∃ t, (threadPoolMachine 2 ℕ).run s shutOneDownRest = some t := by
    obtain rfl := Option.some.inj hs
    exact ⟨_, rfl⟩
  have hquiet : t.Quiescent := by
    obtain rfl := Option.some.inj hs
    obtain rfl := Option.some.inj ht
    exact quiescent_of_idle rfl (Fin.forall_fin_two.2 ⟨rfl, rfl⟩)
  exact ⟨s, t, hs, ht, (shutdown_joins htime hs hclosing).2 shutOneDownRest t (by decide) ht hquiet⟩

/-- A worker that is about to wait when all are notified waits for ever, and `shutdown` with it. -/
theorem late_never_joined : ∃ t, (threadPoolMachine 1 ℕ).run start
      [.worker 0, .worker 0, .worker 0, .shutdown, .notifyAll, .worker 0] = some t ∧
    t.Quiescent ∧ t.closing = .joining ∧ t.workers 0 = .waiting :=
  ⟨_, rfl, quiescent_of_idle rfl (Fin.forall_fin_one.2 rfl), rfl, rfl⟩

end ThreadPool

end JmyGame
