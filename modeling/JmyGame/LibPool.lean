import Mathlib.Data.Finset.Basic
import Mathlib.Data.List.Nodup

/-! A pool with a list of free elements and a set of those in use, and what it has lent to whom. An element is taken
from the front of the list and goes back to its end; only what is in use can be given back. -/

structure FreePool (α : Type) where
  idle : List α
  used : Finset α

namespace FreePool

variable {α ι : Type}

/-- The elements of `all` are free, each once, or lent to exactly one holder, and what is lent is in use. -/
structure Leased (all : Set α) (p : FreePool α) (lent : ι → Option α) : Prop where
  nodup : p.idle.Nodup
  mem_idle : ∀ a, a ∈ p.idle ↔ a ∈ all ∧ ∀ i, lent i ≠ some a
  mem_used : ∀ a, a ∈ p.used ↔ ∃ i, lent i = some a
  mem_all : ∀ i a, lent i = some a → a ∈ all
  inj : ∀ i j a, lent i = some a → lent j = some a → i = j

/-- A pool that has lent nothing. -/
theorem leased_start {l : List α} (hl : l.Nodup) : Leased {a | a ∈ l} ⟨l, ∅⟩ fun _ : ι => none where
  nodup := hl
  mem_idle _ := ⟨fun h => ⟨h, fun _ => nofun⟩, And.left⟩
  mem_used a := iff_of_false (Finset.notMem_empty a) fun ⟨_, h⟩ => nomatch h
  mem_all _ _ := nofun
  inj _ _ _ := nofun

/-- What is lent is not free. -/
theorem Leased.notMem_idle {all : Set α} {p : FreePool α} {lent : ι → Option α} (h : Leased all p lent) {i : ι} {a : α}
    (hi : lent i = some a) : a ∉ p.idle := fun hmem => ((h.mem_idle a).1 hmem).2 i hi

variable [DecidableEq α]

def take (p : FreePool α) : Option (α × FreePool α) :=
  match p.idle with
  | [] => none
  | a :: rest => some (a, ⟨rest, insert a p.used⟩)

def give (p : FreePool α) (a : α) : Bool × FreePool α :=
  if a ∈ p.used then (true, ⟨p.idle ++ [a], p.used.erase a⟩) else (false, p)

variable {all : Set α} {p p' : FreePool α} {lent : ι → Option α} {i : ι} {a : α}

theorem take_eq_some : p.take = some (a, p') ↔ ∃ rest, p.idle = a :: rest ∧ p' = ⟨rest, insert a p.used⟩ := by
  unfold take
  cases hidle : p.idle with
  | nil => exact ⟨nofun, fun ⟨_, h, _⟩ => nomatch h⟩
  | cons b rest =>
      rw [Option.some.injEq, Prod.mk.injEq]
      constructor
      · rintro ⟨rfl, rfl⟩
        exact ⟨rest, rfl, rfl⟩
      · rintro ⟨rest', heq, rfl⟩
        obtain ⟨rfl, rfl⟩ := List.cons.inj heq
        exact ⟨rfl, rfl⟩

theorem take_eq_none : p.take = none ↔ p.idle = [] := by
  unfold take
  cases p.idle with
  | nil => exact iff_of_true rfl rfl
  | cons b rest => exact iff_of_false nofun nofun

theorem give_of_notMem (h : a ∉ p.used) : p.give a = (false, p) := if_neg h

theorem give_of_mem (h : a ∈ p.used) : p.give a = (true, ⟨p.idle ++ [a], p.used.erase a⟩) := if_pos h

namespace Leased

/-- An element is free once or lent to exactly one holder. -/
theorem count (h : Leased all p lent) (ha : a ∈ all) :
    p.idle.count a = 1 ∧ (∀ i, lent i ≠ some a) ∨ p.idle.count a = 0 ∧ ∃! i, lent i = some a := by
  by_cases hidle : a ∈ p.idle
  · exact Or.inl ⟨List.count_eq_one_of_mem h.nodup hidle, ((h.mem_idle a).1 hidle).2⟩
  · obtain ⟨i, hi⟩ : ∃ i, lent i = some a := by
      by_contra hnone
      exact hidle ((h.mem_idle a).2 ⟨ha, not_exists.1 hnone⟩)
    exact Or.inr ⟨List.count_eq_zero.2 hidle, i, hi, fun j hj => h.inj j i a hj hi⟩

/-- What is taken was lent to nobody. -/
theorem lent_ne_of_take (h : Leased all p lent) (htake : p.take = some (a, p')) (i : ι) : lent i ≠ some a := by
  obtain ⟨rest, hidle, -⟩ := take_eq_some.1 htake
  refine ((h.mem_idle a).1 ?_).2 i
  rw [hidle]
  exact List.mem_cons_self

variable [DecidableEq ι]

/-- A holder that has nothing takes an element. -/
theorem take (h : Leased all p lent) (hi : lent i = none) (htake : p.take = some (a, p')) :
    Leased all p' (Function.update lent i (some a)) := by
  have hnew := h.lent_ne_of_take htake
  obtain ⟨rest, hidle, rfl⟩ := take_eq_some.1 htake
  have hnodup := h.nodup
  rw [hidle] at hnodup
  obtain ⟨hnot, hrest⟩ := List.nodup_cons.1 hnodup
  have hlent : ∀ {j b}, Function.update lent i (some a) j = some b ↔ j = i ∧ a = b ∨ j ≠ i ∧ lent j = some b := by
    intro j b
    by_cases hj : j = i
    · rw [hj, Function.update_self, Option.some.injEq]
      exact ⟨fun heq => Or.inl ⟨rfl, heq⟩, fun hor => (hor.resolve_right fun hne => hne.1 rfl).2⟩
    · rw [Function.update_of_ne hj]
      exact ⟨fun heq => Or.inr ⟨hj, heq⟩, fun hor => (hor.resolve_left fun heq => hj heq.1).2⟩
  refine ⟨hrest, fun b => ?_, fun b => ?_, fun j b hb => ?_, fun j k b hj hk => ?_⟩
  · have hmem := h.mem_idle b
    rw [hidle, List.mem_cons] at hmem
    constructor
    · intro hb
      obtain ⟨hall, hnone⟩ := hmem.1 (Or.inr hb)
      refine ⟨hall, fun j hj => ?_⟩
      obtain ⟨-, rfl⟩ | ⟨-, hj⟩ := hlent.1 hj
      · exact hnot hb
      · exact hnone j hj
    · rintro ⟨hall, hnone⟩
      have hne : b ≠ a := by
        rintro rfl
        exact hnone i (hlent.2 (Or.inl ⟨rfl, rfl⟩))
      refine (hmem.2 ⟨hall, fun j hj => hnone j (hlent.2 (Or.inr ⟨?_, hj⟩))⟩).resolve_left hne
      rintro rfl
      exact nomatch hi.symm.trans hj
  · rw [Finset.mem_insert, h.mem_used]
    constructor
    · rintro (rfl | ⟨j, hj⟩)
      · exact ⟨i, hlent.2 (Or.inl ⟨rfl, rfl⟩)⟩
      · refine ⟨j, hlent.2 (Or.inr ⟨?_, hj⟩)⟩
        rintro rfl
        exact nomatch hi.symm.trans hj
    · rintro ⟨j, hj⟩
      obtain ⟨-, rfl⟩ | ⟨-, hj⟩ := hlent.1 hj
      · exact Or.inl rfl
      · exact Or.inr ⟨j, hj⟩
  · obtain ⟨-, rfl⟩ | ⟨-, hj⟩ := hlent.1 hb
    · refine ((h.mem_idle a).1 ?_).1
      rw [hidle]
      exact List.mem_cons_self
    · exact h.mem_all j b hj
  · obtain ⟨rfl, rfl⟩ | ⟨-, hold⟩ := hlent.1 hj
    · obtain ⟨rfl, -⟩ | ⟨-, hold⟩ := hlent.1 hk
      · rfl
      · exact absurd hold (hnew k)
    · obtain ⟨rfl, rfl⟩ | ⟨-, hold'⟩ := hlent.1 hk
      · exact absurd hold (hnew j)
      · exact h.inj j k b hold hold'

/-- A holder gives back what it was lent. -/
theorem give (h : Leased all p lent) (hi : lent i = some a) :
    Leased all (p.give a).2 (Function.update lent i none) := by
  rw [give_of_mem ((h.mem_used a).2 ⟨i, hi⟩)]
  have hlent : ∀ {j b}, Function.update lent i none j = some b ↔ b ≠ a ∧ lent j = some b := by
    intro j b
    by_cases hj : j = i
    · rw [hj, Function.update_self, hi]
      exact iff_of_false nofun fun ⟨hne, heq⟩ => hne (Option.some.inj heq).symm
    · rw [Function.update_of_ne hj]
      refine ⟨fun hb => ⟨?_, hb⟩, And.right⟩
      rintro rfl
      exact hj (h.inj j i b hb hi)
  have hnot : a ∉ p.idle := h.notMem_idle hi
  refine ⟨?_, fun b => ?_, fun b => ?_, fun j b hb => h.mem_all j b (hlent.1 hb).2,
    fun j k b hj hk => h.inj j k b (hlent.1 hj).2 (hlent.1 hk).2⟩
  · exact List.nodup_append'.2 ⟨h.nodup, List.nodup_singleton a, List.disjoint_singleton.2 hnot⟩
  · rw [List.mem_append, List.mem_singleton, h.mem_idle]
    by_cases hb : b = a
    · rw [hb]
      exact iff_of_true (Or.inr rfl) ⟨h.mem_all i a hi, fun j hj => (hlent.1 hj).1 rfl⟩
    · rw [or_iff_left hb]
      exact and_congr_right fun _ => forall_congr' fun j => not_congr
        ⟨fun hj => hlent.2 ⟨hb, hj⟩, fun hj => (hlent.1 hj).2⟩
  · rw [Finset.mem_erase, h.mem_used]
    constructor
    · rintro ⟨hne, j, hj⟩
      exact ⟨j, hlent.2 ⟨hne, hj⟩⟩
    · rintro ⟨j, hj⟩
      exact ⟨(hlent.1 hj).1, j, (hlent.1 hj).2⟩

end Leased

end FreePool
