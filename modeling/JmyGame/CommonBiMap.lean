import Mathlib.Logic.Function.Basic
import Mathlib.Tactic.SplitIfs

/-! `BiMap`: two hash maps that hold the same pairs, one in each direction. Its removals erase an entry and read the
value of the erased node afterwards. The servers are linked with jemalloc, which leaves a freed node as it is, so that
the value is the one of the entry; `FreedBiMap` makes no such assumption. -/

namespace JmyGame

/-- `BiMap` with the values that erased nodes keep. The two maps are inverse to each other. -/
structure BiMap (α β : Type) where
  oneMap : α → Option β
  twoMap : β → Option α
  inverse : ∀ a b, oneMap a = some b ↔ twoMap b = some a

namespace BiMap

variable {α β : Type}

def empty : BiMap α β := ⟨fun _ => none, fun _ => none, by simp⟩

def find1 (m : BiMap α β) (a : α) : Option β := m.oneMap a

def find2 (m : BiMap α β) (b : β) : Option α := m.twoMap b

variable [DecidableEq α] [DecidableEq β]

/-- `insert`, which refuses a pair when one of its sides is present. -/
def insert (m : BiMap α β) (a : α) (b : β) : Bool × BiMap α β :=
  if h : m.oneMap a = none ∧ m.twoMap b = none then
    (true, ⟨Function.update m.oneMap a (some b), Function.update m.twoMap b (some a), by
      intro a' b'
      have hinv := m.inverse
      grind [Function.update_apply]⟩)
  else (false, m)

/-- The maps without the pair of `a` and `b`. -/
def erase (m : BiMap α β) (a : α) (b : β) (h : m.oneMap a = some b) : BiMap α β :=
  ⟨Function.update m.oneMap a none, Function.update m.twoMap b none, by
    intro a' b'
    have hinv := m.inverse
    grind [Function.update_apply]⟩

/-- `remove_1`. The value that is read of the erased node is the one of the entry. -/
def remove1 (m : BiMap α β) (a : α) : Bool × BiMap α β :=
  match h : m.oneMap a with
  | none => (false, m)
  | some b => (true, m.erase a b h)

/-- `remove_2`. The value that is read of the erased node is the one of the entry. -/
def remove2 (m : BiMap α β) (b : β) : Bool × BiMap α β :=
  match h : m.twoMap b with
  | none => (false, m)
  | some a => (true, m.erase a b ((m.inverse a b).2 h))

variable {m : BiMap α β} {a : α} {b : β}

theorem insert_of_absent (ha : m.find1 a = none) (hb : m.find2 b = none) :
    (m.insert a b).1 = true ∧
      ∀ a', (m.insert a b).2.find1 a' = if a' = a then some b else m.find1 a' := by
  have h : m.oneMap a = none ∧ m.twoMap b = none := ⟨ha, hb⟩
  rw [insert, dif_pos h]
  exact ⟨rfl, fun a' => Function.update_apply m.oneMap a (some b) a'⟩

theorem insert_of_present (h : m.find1 a ≠ none ∨ m.find2 b ≠ none) : m.insert a b = (false, m) := by
  rw [insert, dif_neg]
  intro habs
  rcases h with h | h
  · exact h habs.1
  · exact h habs.2

theorem remove1_of_absent (h : m.find1 a = none) : m.remove1 a = (false, m) := by
  unfold remove1
  split
  · rfl
  · rename_i h'
    rw [find1, h'] at h
    cases h

theorem remove1_eq_erase (h : m.oneMap a = some b) : m.remove1 a = (true, m.erase a b h) := by
  unfold remove1
  split
  · rename_i h'
    rw [h'] at h
    cases h
  · rename_i b' h'
    obtain rfl := Option.some.inj (h'.symm.trans h)
    rfl

theorem remove2_of_absent (h : m.find2 b = none) : m.remove2 b = (false, m) := by
  unfold remove2
  split
  · rfl
  · rename_i h'
    rw [find2, h'] at h
    cases h

theorem remove2_eq_erase (h : m.twoMap b = some a) : m.remove2 b = (true, m.erase a b ((m.inverse a b).2 h)) := by
  unfold remove2
  split
  · rename_i h'
    rw [h'] at h
    cases h
  · rename_i a' h'
    obtain rfl := Option.some.inj (h'.symm.trans h)
    rfl

theorem remove2_of_present (h : m.find2 b = some a) :
    (m.remove2 b).1 = true ∧ ∀ a', (m.remove2 b).2.find1 a' = if a' = a then none else m.find1 a' := by
  rw [remove2_eq_erase h]
  exact ⟨rfl, fun a' => Function.update_apply m.oneMap a none a'⟩

/-- After `remove_2` nothing is found under `b`, and the other pairs stay. -/
theorem remove2_find1 {a' : α} {b' : β} :
    (m.remove2 b).2.find1 a' = some b' ↔ m.find1 a' = some b' ∧ b' ≠ b := by
  cases h : m.find2 b with
  | none =>
      rw [remove2_of_absent h]
      refine ⟨fun h' => ⟨h', fun heq => ?_⟩, And.left⟩
      rw [heq, find1, m.inverse, ← find2, h] at h'
      cases h'
  | some a =>
      rw [(remove2_of_present h).2]
      have ha : m.find1 a = some b := (m.inverse a b).2 h
      split_ifs with heq
      · rw [heq, ha, Option.some.injEq]
        exact ⟨False.elim, fun h' => absurd h'.1.symm h'.2⟩
      · refine ⟨fun h' => ⟨h', fun hb => heq ?_⟩, And.left⟩
        rw [hb, find1, m.inverse, ← find2, h, Option.some.injEq] at h'
        exact h'.symm

theorem insert_find1 {a' : α} {b' : β} (h : (m.insert a b).2.find1 a' = some b') :
    m.find1 a' = some b' ∨ (m.insert a b).1 = true ∧ a' = a ∧ b' = b := by
  rw [insert] at h ⊢
  split at h
  · rename_i habs
    rw [dif_pos habs]
    simp only [find1, Function.update_apply] at h
    split_ifs at h with ha
    · cases h
      exact Or.inr ⟨rfl, ha, rfl⟩
    · exact Or.inl h
  · exact Or.inl h

/-- After `remove_1` nothing is found under `a`, and the other pairs stay. -/
theorem remove1_find1 {a' : α} {b' : β} :
    (m.remove1 a).2.find1 a' = some b' ↔ m.find1 a' = some b' ∧ a' ≠ a := by
  unfold remove1
  split
  · rename_i h
    refine ⟨fun h' => ⟨h', ?_⟩, And.left⟩
    rintro rfl
    rw [find1, h] at h'
    cases h'
  · simp only [find1, erase, Function.update_apply]
    split_ifs with ha
    · exact iff_of_false (fun h => by cases h) fun h => h.2 ha
    · exact ⟨fun h => ⟨h, ha⟩, And.left⟩

/-- An entry stays when a pair is inserted. -/
theorem find1_insert_of_some {a' : α} {b' : β} (h : m.find1 a' = some b') : (m.insert a b).2.find1 a' = some b' := by
  by_cases habs : m.find1 a = none ∧ m.find2 b = none
  · rw [(insert_of_absent habs.1 habs.2).2, if_neg]
    · exact h
    · rintro rfl
      rw [h] at habs
      cases habs.1
  · rw [insert_of_present (not_and_or.1 habs), h]

omit [DecidableEq α] [DecidableEq β] in
theorem find1_inj {a' : α} (h : m.find1 a = some b) (h' : m.find1 a' = some b) : a = a' :=
  Option.some.inj (((m.inverse a b).1 h).symm.trans ((m.inverse a' b).1 h'))

end BiMap

/-- `BiMap` where the value of an erased node is a parameter of its removals, given for the value of the entry. A wrong
value leaves an entry in the other map. -/
structure FreedBiMap (α β : Type) where
  oneMap : α → Option β
  twoMap : β → Option α

namespace FreedBiMap

variable {α β : Type}

def empty : FreedBiMap α β := ⟨fun _ => none, fun _ => none⟩

def find1 (m : FreedBiMap α β) (a : α) : Option β := m.oneMap a

def find2 (m : FreedBiMap α β) (b : β) : Option α := m.twoMap b

/-- The two maps hold the same pairs. -/
def Inverse (m : FreedBiMap α β) : Prop := ∀ a b, m.find1 a = some b ↔ m.find2 b = some a

variable [DecidableEq α] [DecidableEq β]

/-- `insert`, which refuses a pair when one of its sides is present. -/
def insert (m : FreedBiMap α β) (a : α) (b : β) : Bool × FreedBiMap α β :=
  if m.oneMap a = none ∧ m.twoMap b = none then
    (true, ⟨Function.update m.oneMap a (some b), Function.update m.twoMap b (some a)⟩)
  else (false, m)

/-- `remove_1`. -/
def remove1 (m : FreedBiMap α β) (read : β → β) (a : α) : Bool × FreedBiMap α β :=
  match m.oneMap a with
  | none => (false, m)
  | some b => (true, ⟨Function.update m.oneMap a none, Function.update m.twoMap (read b) none⟩)

/-- `remove_2`. -/
def remove2 (m : FreedBiMap α β) (read : α → α) (b : β) : Bool × FreedBiMap α β :=
  match m.twoMap b with
  | none => (false, m)
  | some a => (true, ⟨Function.update m.oneMap (read a) none, Function.update m.twoMap b none⟩)

variable {m : FreedBiMap α β} {a a' : α} {b b' : β} {read₁ : β → β} {read₂ : α → α}

theorem insert_of_absent (ha : m.find1 a = none) (hb : m.find2 b = none) :
    (m.insert a b).1 = true ∧
      ∀ a', (m.insert a b).2.find1 a' = if a' = a then some b else m.find1 a' := by
  rw [insert, if_pos ⟨ha, hb⟩]
  exact ⟨rfl, fun a' => Function.update_apply m.oneMap a (some b) a'⟩

theorem insert_of_present (h : m.find1 a ≠ none ∨ m.find2 b ≠ none) : m.insert a b = (false, m) :=
  if_neg (not_and_or.2 h)

theorem insert_find1 (h : (m.insert a b).2.find1 a' = some b') :
    m.find1 a' = some b' ∨ (m.insert a b).1 = true ∧ a' = a ∧ b' = b := by
  by_cases habs : m.find1 a = none ∧ m.find2 b = none
  · obtain ⟨htrue, hfind⟩ := insert_of_absent habs.1 habs.2
    rw [hfind] at h
    split_ifs at h with ha
    · exact Or.inr ⟨htrue, ha, (Option.some.inj h).symm⟩
    · exact Or.inl h
  · rw [insert_of_present (not_and_or.1 habs)] at h
    exact Or.inl h

/-- An entry stays when a pair is inserted. -/
theorem find1_insert_of_some (h : m.find1 a' = some b') : (m.insert a b).2.find1 a' = some b' := by
  by_cases habs : m.find1 a = none ∧ m.find2 b = none
  · rw [(insert_of_absent habs.1 habs.2).2, if_neg]
    · exact h
    · rintro rfl
      rw [h] at habs
      cases habs.1
  · rw [insert_of_present (not_and_or.1 habs), h]

theorem remove2_of_present (h : m.find2 b = some a) : (m.remove2 read₂ b).1 = true ∧
    ∀ a', (m.remove2 read₂ b).2.find1 a' = if a' = read₂ a then none else m.find1 a' := by
  rw [find2] at h
  rw [remove2, h]
  exact ⟨rfl, fun a' => Function.update_apply m.oneMap (read₂ a) none a'⟩

theorem remove2_of_absent (h : m.find2 b = none) : m.remove2 read₂ b = (false, m) := by
  rw [find2] at h
  rw [remove2, h]

/-- After `remove_1` nothing is found under `a`, and the other entries of the first map stay. -/
theorem remove1_find1 : (m.remove1 read₁ a).2.find1 a' = some b' ↔ m.find1 a' = some b' ∧ a' ≠ a := by
  unfold remove1
  split
  · rename_i h
    refine ⟨fun h' => ⟨h', ?_⟩, And.left⟩
    rintro rfl
    rw [find1, h] at h'
    cases h'
  · simp only [find1, Function.update_apply]
    split_ifs with ha
    · exact iff_of_false (fun h => by cases h) fun h => h.2 ha
    · exact ⟨fun h => ⟨h, ha⟩, And.left⟩

/-- `remove_2` adds no entry. -/
theorem find1_of_remove2 (h : (m.remove2 read₂ b).2.find1 a' = some b') : m.find1 a' = some b' := by
  unfold remove2 at h
  split at h
  · exact h
  · simp only [find1, Function.update_apply] at h
    split_ifs at h
    exact h

namespace Inverse

omit [DecidableEq α] [DecidableEq β] in
theorem empty : (empty : FreedBiMap α β).Inverse := fun _ _ => iff_of_false nofun nofun

omit [DecidableEq α] [DecidableEq β] in
theorem find1_inj (hm : m.Inverse) (h : m.find1 a = some b) (h' : m.find1 a' = some b) : a = a' :=
  Option.some.inj (((hm a b).1 h).symm.trans ((hm a' b).1 h'))

theorem insert (hm : m.Inverse) (a : α) (b : β) : (m.insert a b).2.Inverse := by
  unfold FreedBiMap.insert
  split_ifs with habs
  · intro a' b'
    have hpair := hm a' b'
    have ha := hm a b'
    have hb := hm a' b
    simp only [find1, find2] at hpair ha hb ⊢
    grind [Function.update_apply]
  · exact hm

/-- The pairs of the other keys stay when the value that is read is the one of the entry. -/
theorem remove1 (hm : m.Inverse) (a : α) : (m.remove1 (fun b => b) a).2.Inverse := by
  unfold FreedBiMap.remove1
  split
  · exact hm
  · rename_i b hb
    intro a' b'
    have hpair := hm a' b'
    have ha := hm a b'
    have hb' := hm a' b
    have hself := hm a b
    simp only [find1, find2] at hpair ha hb' hself ⊢
    grind [Function.update_apply]

theorem remove2 (hm : m.Inverse) (b : β) : (m.remove2 (fun a => a) b).2.Inverse := by
  unfold FreedBiMap.remove2
  split
  · exact hm
  · rename_i a ha
    intro a' b'
    have hpair := hm a' b'
    have ha' := hm a b'
    have hb := hm a' b
    have hself := hm a b
    simp only [find1, find2] at hpair ha' hb hself ⊢
    grind [Function.update_apply]

/-- After `remove_2` nothing is found under `b`, and the other pairs stay. -/
theorem remove2_find1 (hm : m.Inverse) :
    (m.remove2 (fun a => a) b).2.find1 a' = some b' ↔ m.find1 a' = some b' ∧ b' ≠ b := by
  cases h : m.find2 b with
  | none =>
      rw [remove2_of_absent h]
      refine ⟨fun h' => ⟨h', fun heq => ?_⟩, And.left⟩
      rw [heq, hm, h] at h'
      cases h'
  | some a =>
      rw [(remove2_of_present h).2]
      have ha : m.find1 a = some b := (hm a b).2 h
      split_ifs with heq
      · rw [heq, ha, Option.some.injEq]
        exact ⟨False.elim, fun h' => absurd h'.1.symm h'.2⟩
      · refine ⟨fun h' => ⟨h', fun hb => heq ?_⟩, And.left⟩
        exact hm.find1_inj (hb ▸ h') ha

end Inverse

end FreedBiMap

end JmyGame
