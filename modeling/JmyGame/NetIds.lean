import Mathlib.Order.Interval.Finset.Basic
import Mathlib.Data.Int.ConditionallyCompleteOrder
import Mathlib.Data.Int.Interval
import JmyGame.LibMachine
import JmyGame.NetServer

/-! `JmyIdGenerator` over runs of `get` and `free`. `get` hands out the values of a counter and does not put them into
`used_set_`, so that `free` finds no id, and the counter gives ids a second time once it has come to its end. -/

namespace JmyGame

namespace JmyIdGenerator

variable (g : JmyIdGenerator)

/-- `init` of a new generator. -/
def init (maxId minId : ℤ) : JmyIdGenerator := { new with minId := minId, maxId := maxId }

/-- `free`. -/
def free (id : ℤ) : Bool × JmyIdGenerator :=
  if id ∈ g.usedSet then (true, { g with usedSet := g.usedSet.filter (· ≠ id), freeList := g.freeList ++ [id] })
  else (false, g)

end JmyIdGenerator

/-- A generator with the ids that it has given out and not got back, and the number of calls of `get`. -/
structure IdRun where
  gen : JmyIdGenerator
  outstanding : Finset ℤ
  gets : ℕ

inductive IdCall where
  | get
  | free (id : ℤ)
  deriving DecidableEq

def IdRun.start (maxId minId : ℤ) : IdRun := ⟨.init maxId minId, ∅, 0⟩

def idMachine : Machine IdRun IdCall where
  step s
    | .get => s.gen.get.map fun r =>
      ⟨r.2, if r.1 = 0 then s.outstanding else insert r.1 s.outstanding, s.gets + 1⟩
    | .free id => some ⟨(s.gen.free id).2, s.outstanding.erase id, s.gets⟩

/-- What a call should do: an id is given out that is not in use, and none only when all are; an id in use can be given
back and is there for another `get`. -/
def IdCall.Unique (s : IdRun) : IdCall → IdRun → Prop
  | .get, _ => ∀ id gen, s.gen.get = some (id, gen) →
      (id ≠ 0 → id ∉ s.outstanding) ∧ (id = 0 → ∀ i, s.gen.minId ≤ i → i ≤ s.gen.maxId → i ∈ s.outstanding)
  | .free id, s' => id ∈ s.outstanding → (s.gen.free id).1 = true ∧ id ∈ s'.gen.freeList

/-- The counter has not come to its end, or it goes on with an id below 1 or above the last one for the first time; an
id that is given back is not in use. -/
def IdCall.Early (maxId minId : ℤ) (s : IdRun) : IdCall → Prop
  | .get => (s.gets : ℤ) < maxId ∨ (s.gets : ℤ) = maxId ∧ (minId < 0 ∨ maxId < minId)
  | .free id => id ∉ s.outstanding

instance (maxId minId : ℤ) (s : IdRun) : DecidablePred (IdCall.Early maxId minId s)
  | .get => inferInstanceAs (Decidable (_ ∨ _))
  | .free _ => inferInstanceAs (Decidable (_ ∉ _))

/-- Nothing has come back, and the counter has given the ids from 1 on, and the lowest one behind the last. -/
structure Counted (maxId minId : ℤ) (s : IdRun) : Prop where
  gen : s.gen = { JmyIdGenerator.init maxId minId with currId := s.gen.currId }
  ids : (s.gets : ℤ) ≤ maxId ∧ s.gen.currId = s.gets ∧ s.outstanding = Finset.Icc 1 (s.gets : ℤ) ∨
    (s.gets : ℤ) = maxId + 1 ∧ (minId < 0 ∨ maxId < minId) ∧ s.gen.currId = minId ∧ minId ∈ s.outstanding

namespace Counted

variable {maxId minId : ℤ} {s s' : IdRun}

theorem start (h : 0 < maxId) : Counted maxId minId (.start maxId minId) where
  gen := rfl
  ids := Or.inl ⟨h.le, rfl, rfl⟩

/-- The used set and the free list are empty. -/
theorem get_eq (h : Counted maxId minId s) :
    s.gen.get = s.gen.next.map fun id => (id, { s.gen with currId := id }) := by
  have hfree : s.gen.freeList = [] := by rw [h.gen]; rfl
  have hused : s.gen.usedSet = [] := by rw [h.gen]; rfl
  simp only [JmyIdGenerator.get, hfree, hused, List.not_mem_nil, if_false]

theorem free_eq (h : Counted maxId minId s) (id : ℤ) : s.gen.free id = (false, s.gen) := by
  have hused : s.gen.usedSet = [] := by rw [h.gen]; rfl
  unfold JmyIdGenerator.free
  rw [hused, if_neg List.not_mem_nil]

theorem minId_eq (h : Counted maxId minId s) : s.gen.minId = minId := by rw [h.gen]; rfl

theorem maxId_eq (h : Counted maxId minId s) : s.gen.maxId = maxId := by rw [h.gen]; rfl

/-- The counter goes on. -/
theorem next_of_lt (h : Counted maxId minId s) (hmax : maxId < 2 ^ 31) (hlt : (s.gets : ℤ) < maxId) :
    s.gen.next = some ((s.gets : ℤ) + 1) ∧ s.outstanding = Finset.Icc 1 (s.gets : ℤ) := by
  rcases h.ids with ⟨-, hcurr, hout⟩ | ⟨hgets, -⟩
  · refine ⟨?_, hout⟩
    have hend : ¬(0 < maxId ∧ maxId ≤ (s.gets : ℤ)) := by omega
    have hover : ¬(s.gets : ℤ) = 2 ^ 31 - 1 := by omega
    have hpos : ¬(s.gets : ℤ) + 1 ≤ 0 := by omega
    rw [JmyIdGenerator.next, h.maxId_eq, hcurr, if_neg hend, if_neg hover, if_neg hpos]
  · omega

/-- The counter begins again. -/
theorem next_of_eq (h : Counted maxId minId s) (hpos : 0 < maxId) (heq : (s.gets : ℤ) = maxId) :
    s.gen.next = some minId ∧ s.outstanding = Finset.Icc 1 maxId := by
  rcases h.ids with ⟨-, hcurr, hout⟩ | ⟨hgets, -⟩
  · have hend : 0 < maxId ∧ maxId ≤ maxId := ⟨hpos, le_rfl⟩
    rw [JmyIdGenerator.next, h.maxId_eq, h.minId_eq, hcurr, heq, if_pos hend, hout, heq]
    exact ⟨rfl, rfl⟩
  · omega

/-- The counter does not get away from an id below 1 or above the last one. -/
theorem next_of_gt (h : Counted maxId minId s) (hpos : 0 < maxId) (hgt : maxId < (s.gets : ℤ)) :
    s.gen.next = some minId ∧ minId ∈ s.outstanding ∧ minId ≠ 0 := by
  rcases h.ids with ⟨hle, -⟩ | ⟨-, hmin, hcurr, hmem⟩
  · omega
  · refine ⟨?_, hmem, by omega⟩
    rw [JmyIdGenerator.next, h.maxId_eq, h.minId_eq, hcurr]
    rcases hmin with hneg | habove
    · have hend : ¬(0 < maxId ∧ maxId ≤ minId) := by omega
      have hover : ¬minId = 2 ^ 31 - 1 := by omega
      have hzero : minId + 1 ≤ 0 := by omega
      rw [if_neg hend, if_neg hover, if_pos hzero]
    · have hend : 0 < maxId ∧ maxId ≤ minId := ⟨hpos, habove.le⟩
      rw [if_pos hend]

/-- A call of `get` whose counter value is known. -/
theorem step_get (h : Counted maxId minId s) {id : ℤ} (hnext : s.gen.next = some id) :
    idMachine.step s .get = some ⟨{ s.gen with currId := id },
      if id = 0 then s.outstanding else insert id s.outstanding, s.gets + 1⟩ := by
  change s.gen.get.map _ = _
  rw [h.get_eq, hnext]
  rfl

theorem unique_get (h : Counted maxId minId s) {id : ℤ} (hnext : s.gen.next = some id) :
    IdCall.Unique s .get s' ↔
      (id ≠ 0 → id ∉ s.outstanding) ∧ (id = 0 → ∀ i, minId ≤ i → i ≤ maxId → i ∈ s.outstanding) := by
  have hget : s.gen.get = some (id, { s.gen with currId := id }) := by rw [h.get_eq, hnext]; rfl
  unfold IdCall.Unique
  rw [hget, h.minId_eq, h.maxId_eq]
  constructor
  · intro hall
    exact hall id _ rfl
  · intro hid id' gen heq
    cases heq
    exact hid

theorem free_step (h : Counted maxId minId s) {id : ℤ} (hstep : idMachine.step s (.free id) = some s') :
    s' = ⟨s.gen, s.outstanding.erase id, s.gets⟩ := by
  cases hstep
  rw [h.free_eq]

/-- A call that comes early is as it should be. -/
theorem step (h : Counted maxId minId s) (hpos : 0 < maxId) (hmax : maxId < 2 ^ 31) {e : IdCall}
    (he : e.Early maxId minId s) (hstep : idMachine.step s e = some s') : Counted maxId minId s' ∧ e.Unique s s' := by
  cases e with
  | get =>
      rcases he with hlt | ⟨heq, hmin⟩
      · obtain ⟨hnext, hout⟩ := h.next_of_lt hmax hlt
        have hne : (s.gets : ℤ) + 1 ≠ 0 := by omega
        rw [h.step_get hnext, if_neg hne] at hstep
        rw [h.unique_get hnext]
        cases hstep
        refine ⟨⟨?_, Or.inl ⟨?_, ?_, ?_⟩⟩, fun _ => ?_, fun hzero => absurd hzero hne⟩
        · rw [h.gen]
        · push_cast
          omega
        · push_cast
          rfl
        · push_cast
          rw [hout]
          ext i
          simp only [Finset.mem_insert, Finset.mem_Icc]
          omega
        · rw [hout, Finset.mem_Icc]
          omega
      · obtain ⟨hnext, hout⟩ := h.next_of_eq hpos heq
        have hne : minId ≠ 0 := by omega
        rw [h.step_get hnext, if_neg hne] at hstep
        rw [h.unique_get hnext]
        cases hstep
        refine ⟨⟨?_, Or.inr ⟨?_, hmin, rfl, Finset.mem_insert_self _ _⟩⟩, fun _ => ?_, fun hzero => absurd hzero hne⟩
        · rw [h.gen]
        · push_cast
          omega
        · rw [hout, Finset.mem_Icc]
          omega
  | free id =>
      have hgone : s.outstanding.erase id = s.outstanding := Finset.erase_eq_of_notMem he
      obtain rfl := h.free_step hstep
      rw [hgone]
      exact ⟨⟨h.gen, h.ids⟩, fun hmem => absurd hmem he⟩

/-- A call that comes later is not. -/
theorem early_of_unique (h : Counted maxId minId s) (hpos : 0 < maxId) {e : IdCall}
    (hunique : ∀ s', idMachine.step s e = some s' → e.Unique s s') : e.Early maxId minId s := by
  cases e with
  | get =>
      rcases lt_trichotomy (s.gets : ℤ) maxId with hlt | heq | hgt
      · exact Or.inl hlt
      · obtain ⟨hnext, hout⟩ := h.next_of_eq hpos heq
        obtain ⟨hnew, hnone⟩ := (h.unique_get hnext).1 (hunique _ (h.step_get hnext))
        refine Or.inr ⟨heq, ?_⟩
        by_contra hmin
        by_cases hzero : minId = 0
        · have hmem := hnone hzero 0 (by omega) hpos.le
          rw [hout, Finset.mem_Icc] at hmem
          omega
        · refine hnew hzero ?_
          rw [hout, Finset.mem_Icc]
          omega
      · obtain ⟨hnext, hmem, hne⟩ := h.next_of_gt hpos hgt
        obtain ⟨hnew, -⟩ := (h.unique_get hnext).1 (hunique _ (h.step_get hnext))
        exact absurd hmem (hnew hne)
  | free id =>
      intro hmem
      have hfreed := (hunique _ rfl hmem).1
      rw [h.free_eq] at hfreed
      cases hfreed

end Counted

/-- The calls of a run give out ids that are not in use, and take them back, exactly when no id comes back and `get` is
not called after the end of the counter. -/
theorem ids_unique_iff {maxId : ℤ} (hpos : 0 < maxId) (hmax : maxId < 2 ^ 31) (minId : ℤ) (es : List IdCall) :
    idMachine.Along (fun s e => e.Early maxId minId s) (.start maxId minId) es ↔
      idMachine.EachStep (fun s e s' => e.Unique s s') (.start maxId minId) es := by
  refine Machine.along_iff_eachStep (I := Counted maxId minId) ?_ ?_ (Counted.start hpos) es
  · intro s e s' h he hstep
    exact h.step hpos hmax he hstep
  · intro s e h hunique
    exact h.early_of_unique hpos hunique

/-- Three ids of three. -/
theorem threeIds_unique : idMachine.EachStep (fun s e s' => e.Unique s s') (.start 3 1) [.get, .get, .free 7, .get] :=
  (ids_unique_iff (by decide) (by decide) 1 [.get, .get, .free 7, .get]).1 (by decide)

/-- The first id comes a second time, behind the last one. -/
theorem firstId_again : ¬idMachine.EachStep (fun s e s' => e.Unique s s') (.start 2 1) [.get, .get, .get] := by
  intro h
  have hunique := h [.get, .get] .get [] _ _ rfl rfl rfl
  exact (hunique 1 _ rfl).1 (by decide) (by decide)

end JmyGame
