import JmyGame.CommonBiMap
import JmyGame.LibMachine
import JmyGame.LibUnorderedMap

/-! `BiMap` as it is written: two hash maps, of which nothing but the calls keeps the one inverse to the other. Behind
all calls they hold the pairs of a `BiMap` that has this as an invariant. -/

namespace JmyGame

inductive BiMapCall (α β : Type) where
  | insert (a : α) (b : β)
  | remove1 (a : α)
  | remove2 (b : β)
  | clear
  deriving DecidableEq, Repr

variable {α β : Type}

/-- What a call returns, and what it does to the pairs: one is added that shares no side with another, or exactly one
is taken away. -/
def BiMapCall.Answers (pairs : Set (α × β)) (ok : Bool) (pairs' : Set (α × β)) : BiMapCall α β → Prop
  | .insert a b =>
    if ok then ((∀ b', (a, b') ∉ pairs) ∧ ∀ a', (a', b) ∉ pairs) ∧ pairs' = Insert.insert (a, b) pairs
    else ¬((∀ b', (a, b') ∉ pairs) ∧ ∀ a', (a', b) ∉ pairs)
  | .remove1 a => if ok then ∃ b, (a, b) ∈ pairs ∧ pairs' = pairs \ {(a, b)} else ∀ b, (a, b) ∉ pairs
  | .remove2 b => if ok then ∃ a, (a, b) ∈ pairs ∧ pairs' = pairs \ {(a, b)} else ∀ a, (a, b) ∉ pairs
  | .clear => ok = true ∧ pairs' = ∅

namespace Hashed

/-- `BiMap`. Nothing says how the two maps belong together. -/
structure BiMap (α β : Type) where
  oneMap : UnorderedMap α β
  twoMap : UnorderedMap β α

variable [DecidableEq α] [DecidableEq β]

namespace BiMap

def empty : BiMap α β := ⟨∅, ∅⟩

/-- `insert`. -/
def insert (m : BiMap α β) (a : α) (b : β) : Bool × BiMap α β :=
  if m.oneMap.find a ≠ none then (false, m)
  else if m.twoMap.find b ≠ none then (false, m)
  else (true, ⟨m.oneMap.emplace a b, m.twoMap.emplace b a⟩)

/-- `remove_1`. The source reads `it->second` behind the erase of its entry; here it is read before. -/
def remove1 (m : BiMap α β) (a : α) : Bool × BiMap α β :=
  match m.oneMap.find a with
  | none => (false, m)
  | some b => (true, ⟨m.oneMap.remove a, m.twoMap.remove b⟩)

/-- `remove_2`, with `it->second` read before the erase, too. -/
def remove2 (m : BiMap α β) (b : β) : Bool × BiMap α β :=
  match m.twoMap.find b with
  | none => (false, m)
  | some a => (true, ⟨m.oneMap.remove a, m.twoMap.remove b⟩)

/-- One call; `clear` returns nothing. -/
def call (m : BiMap α β) : BiMapCall α β → Bool × BiMap α β
  | .insert a b => m.insert a b
  | .remove1 a => m.remove1 a
  | .remove2 b => m.remove2 b
  | .clear => (true, empty)

/-- The pairs of the first map. -/
def pairs (m : BiMap α β) : Set (α × β) := {p | m.oneMap.find p.1 = some p.2}

/-- The map is a partial bijection: the two maps hold the same pairs, and every call answers as it should. -/
structure IsBijection (m : BiMap α β) : Prop where
  inverse : ∀ a b, m.oneMap.find a = some b ↔ m.twoMap.find b = some a
  answers : ∀ c : BiMapCall α β, c.Answers m.pairs (m.call c).1 (m.call c).2.pairs
  unchanged : ∀ c, (m.call c).1 = false → (m.call c).2 = m

end BiMap

def biMapMachine (α β : Type) [DecidableEq α] [DecidableEq β] : Machine (BiMap α β) (BiMapCall α β) :=
  ⟨fun m c => some (m.call c).2⟩

end Hashed

namespace BiMap

variable [DecidableEq α] [DecidableEq β]

def call (m : BiMap α β) : BiMapCall α β → Bool × BiMap α β
  | .insert a b => m.insert a b
  | .remove1 a => m.remove1 a
  | .remove2 b => m.remove2 b
  | .clear => (true, empty)

def pairs (m : BiMap α β) : Set (α × β) := {p | m.find1 p.1 = some p.2}

variable {m : BiMap α β} {a : α} {b : β}

omit [DecidableEq α] [DecidableEq β] in
theorem forall_notMem_left : (∀ b, (a, b) ∉ m.pairs) ↔ m.find1 a = none :=
  (Option.eq_none_iff_forall_ne_some (o := m.find1 a)).symm

omit [DecidableEq α] [DecidableEq β] in
theorem forall_notMem_right : (∀ a, (a, b) ∉ m.pairs) ↔ m.find2 b = none :=
  (forall_congr' fun a => not_congr (m.inverse a b)).trans
    (Option.eq_none_iff_forall_ne_some (o := m.find2 b)).symm

theorem insert_answers (m : BiMap α β) (a : α) (b : β) :
    (BiMapCall.insert a b).Answers m.pairs (m.insert a b).1 (m.insert a b).2.pairs := by
  have habsent : ((∀ b', (a, b') ∉ m.pairs) ∧ ∀ a', (a', b) ∉ m.pairs) ↔ m.find1 a = none ∧ m.find2 b = none :=
    and_congr forall_notMem_left forall_notMem_right
  by_cases habs : m.find1 a = none ∧ m.find2 b = none
  · obtain ⟨hok, hfind⟩ := insert_of_absent habs.1 habs.2
    rw [hok]
    refine ⟨habsent.2 habs, ?_⟩
    ext ⟨a', b'⟩
    change (m.insert a b).2.find1 a' = some b' ↔ (a', b') = (a, b) ∨ m.find1 a' = some b'
    rw [hfind, Prod.mk.injEq]
    split_ifs with ha
    · rw [ha, habs.1, Option.some.injEq]
      simp only [true_and, reduceCtorEq, or_false, eq_comm]
    · simp only [ha, false_and, false_or]
  · rw [insert_of_present (not_and_or.1 habs)]
    exact mt habsent.1 habs

/-- Without what has one side of a pair, the pair is the only one that is missing. -/
theorem remove1_answers (m : BiMap α β) (a : α) :
    (BiMapCall.remove1 a : BiMapCall α β).Answers m.pairs (m.remove1 a).1 (m.remove1 a).2.pairs := by
  cases hfind : m.find1 a with
  | none =>
      rw [remove1_of_absent hfind]
      exact forall_notMem_left.2 hfind
  | some b =>
      have hok : (m.remove1 a).1 = true := by rw [remove1_eq_erase hfind]
      rw [hok]
      refine ⟨b, hfind, Set.ext fun ⟨a', b'⟩ => remove1_find1.trans (and_congr_right fun hfound => not_congr ?_)⟩
      refine ⟨?_, congrArg Prod.fst⟩
      rintro rfl
      exact congrArg (Prod.mk a') (Option.some.inj (hfound.symm.trans hfind))

theorem remove2_answers (m : BiMap α β) (b : β) :
    (BiMapCall.remove2 b : BiMapCall α β).Answers m.pairs (m.remove2 b).1 (m.remove2 b).2.pairs := by
  cases hfind : m.find2 b with
  | none =>
      rw [remove2_of_absent hfind]
      exact forall_notMem_right.2 hfind
  | some a =>
      rw [(remove2_of_present hfind).1]
      have hpair : m.find1 a = some b := (m.inverse a b).2 hfind
      refine ⟨a, hpair, Set.ext fun ⟨a', b'⟩ => remove2_find1.trans (and_congr_right fun hfound => not_congr ?_)⟩
      refine ⟨?_, congrArg Prod.snd⟩
      rintro rfl
      exact congrArg (Prod.mk · b') (find1_inj hfound hpair)

theorem call_answers (m : BiMap α β) (c : BiMapCall α β) : c.Answers m.pairs (m.call c).1 (m.call c).2.pairs := by
  cases c with
  | insert a b => exact m.insert_answers a b
  | remove1 a => exact m.remove1_answers a
  | remove2 b => exact m.remove2_answers b
  | clear => exact ⟨rfl, Set.eq_empty_of_forall_notMem fun p hp => Option.some_ne_none p.2 hp.symm⟩

end BiMap

namespace Hashed.BiMap

variable [DecidableEq α] [DecidableEq β]

/-- The two maps hold what `p` holds. -/
structure Holds (m : BiMap α β) (p : JmyGame.BiMap α β) : Prop where
  one : m.oneMap.find = p.oneMap
  two : m.twoMap.find = p.twoMap

variable {m : BiMap α β} {p : JmyGame.BiMap α β}

theorem holds_empty : (empty : BiMap α β).Holds .empty :=
  ⟨funext fun _ => UnorderedMap.find_empty, funext fun _ => UnorderedMap.find_empty⟩

theorem Holds.remove (h : m.Holds p) {a : α} {b : β} (hab : p.oneMap a = some b) :
    (BiMap.mk (m.oneMap.remove a) (m.twoMap.remove b)).Holds (p.erase a b hab) where
  one := by rw [UnorderedMap.find_remove_eq, h.one]; rfl
  two := by rw [UnorderedMap.find_remove_eq, h.two]; rfl

theorem Holds.insert (h : m.Holds p) (a : α) (b : β) :
    (m.insert a b).1 = (p.insert a b).1 ∧ (m.insert a b).2.Holds (p.insert a b).2 := by
  unfold BiMap.insert
  rw [h.one, h.two]
  by_cases ha : p.oneMap a = none
  · by_cases hb : p.twoMap b = none
    · have hpair : p.insert a b = (true, _) := dif_pos ⟨ha, hb⟩
      rw [if_neg (not_not.2 ha), if_neg (not_not.2 hb), hpair]
      refine ⟨rfl, ?_, ?_⟩
      · rw [UnorderedMap.find_emplace_eq ((congrFun h.one a).trans ha), h.one]
      · rw [UnorderedMap.find_emplace_eq ((congrFun h.two b).trans hb), h.two]
    · rw [if_neg (not_not.2 ha), if_pos hb, JmyGame.BiMap.insert_of_present (Or.inr hb)]
      exact ⟨rfl, h⟩
  · rw [if_pos ha, JmyGame.BiMap.insert_of_present (Or.inl ha)]
    exact ⟨rfl, h⟩

theorem Holds.remove1 (h : m.Holds p) (a : α) :
    (m.remove1 a).1 = (p.remove1 a).1 ∧ (m.remove1 a).2.Holds (p.remove1 a).2 := by
  cases hfind : p.oneMap a with
  | none =>
      rw [BiMap.remove1, h.one, hfind, JmyGame.BiMap.remove1_of_absent hfind]
      exact ⟨rfl, h⟩
  | some b =>
      rw [BiMap.remove1, h.one, hfind, JmyGame.BiMap.remove1_eq_erase hfind]
      exact ⟨rfl, h.remove hfind⟩

theorem Holds.remove2 (h : m.Holds p) (b : β) :
    (m.remove2 b).1 = (p.remove2 b).1 ∧ (m.remove2 b).2.Holds (p.remove2 b).2 := by
  cases hfind : p.twoMap b with
  | none =>
      rw [BiMap.remove2, h.two, hfind, JmyGame.BiMap.remove2_of_absent hfind]
      exact ⟨rfl, h⟩
  | some a =>
      rw [BiMap.remove2, h.two, hfind, JmyGame.BiMap.remove2_eq_erase hfind]
      exact ⟨rfl, h.remove ((p.inverse a b).2 hfind)⟩

/-- What a call makes of the maps is what it makes of the pairs. -/
theorem Holds.call (h : m.Holds p) (c : BiMapCall α β) :
    (m.call c).1 = (p.call c).1 ∧ (m.call c).2.Holds (p.call c).2 := by
  cases c with
  | insert a b => exact h.insert a b
  | remove1 a => exact h.remove1 a
  | remove2 b => exact h.remove2 b
  | clear => exact ⟨rfl, holds_empty⟩

theorem Holds.pairs_eq (h : m.Holds p) : m.pairs = p.pairs :=
  Set.ext fun x => iff_of_eq (congrArg (· = some x.2) (congrFun h.one x.1))

/-- A call that is refused leaves the maps as they are. -/
theorem call_unchanged {c : BiMapCall α β} (h : (m.call c).1 = false) : (m.call c).2 = m := by
  cases c with
  | insert a b =>
      change (m.insert a b).1 = false at h
      change (m.insert a b).2 = m
      unfold BiMap.insert at h ⊢
      split_ifs at h ⊢ <;> rfl
  | remove1 a =>
      change (m.remove1 a).1 = false at h
      change (m.remove1 a).2 = m
      unfold BiMap.remove1 at h ⊢
      cases hfind : m.oneMap.find a with
      | none => rfl
      | some b =>
          rw [hfind] at h
          cases h
  | remove2 b =>
      change (m.remove2 b).1 = false at h
      change (m.remove2 b).2 = m
      unfold BiMap.remove2 at h ⊢
      cases hfind : m.twoMap.find b with
      | none => rfl
      | some a =>
          rw [hfind] at h
          cases h
  | clear => cases h

theorem Holds.isBijection (h : m.Holds p) : m.IsBijection where
  inverse := fun a b => by
    rw [h.one, h.two]
    exact p.inverse a b
  answers := fun c => by
    obtain ⟨hok, hholds⟩ := h.call c
    rw [h.pairs_eq, hok, hholds.pairs_eq]
    exact p.call_answers c
  unchanged := fun c => call_unchanged

/-- Whatever calls are made, the map is a partial bijection behind them. -/
theorem isBijection_run (es : List (BiMapCall α β)) :
    ∃ m, (biMapMachine α β).run empty es = some m ∧ m.IsBijection := by
  have hstep : ∀ (m : BiMap α β) (c : BiMapCall α β), True → (∃ p, m.Holds p) →
      ∃ m', (biMapMachine α β).step m c = some m' ∧ ∃ p, m'.Holds p :=
    fun m c _ ⟨p, hp⟩ => ⟨(m.call c).2, rfl, (p.call c).2, (hp.call c).2⟩
  obtain ⟨m, hrun, p, hp⟩ := Machine.exists_run hstep ⟨_, holds_empty⟩ fun _ _ => trivial
  exact ⟨m, hrun, hp.isBijection⟩

end Hashed.BiMap

end JmyGame
