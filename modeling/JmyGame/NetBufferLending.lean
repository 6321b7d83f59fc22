import Mathlib.Data.Finset.Card
import JmyGame.LibMachine
import JmyGame.NetServer

/-! `JmyConnectionBufferMgr` with the buffers that its callers hold. `freeBuffer` goes by the state of a buffer, which
says that it was lent once, and does not set it back. The ids of the buffers begin at 1, and `getBuffer` takes an id
for a place in the vector. -/

namespace JmyGame

namespace JmyConnectionBufferMgr

variable (m : JmyConnectionBufferMgr)

/-- `getBuffer`: the place of a buffer, or none when it is refused; undefined for a place before the vector. -/
def getBuffer (id : ℤ) : Option (Option ℕ) :=
  if m.maxSize - 1 ≤ id then some none
  else if id < 0 then none
  else some (some id.toNat)

/-- The ids from 1 to `max_size` lead to their buffers, and no others do. -/
structure GetsById : Prop where
  found : ∀ id, 1 ≤ id → id ≤ m.maxSize → ∃ b, m.getBuffer id = some (some b) ∧ (m.connBuffVec b).id = id
  refused : ∀ id, id < 1 ∨ m.maxSize < id → m.getBuffer id = some none

/-- The last buffer is not found, and without buffers an id below 0 reads before the vector. -/
theorem not_getsById : ¬m.GetsById := by
  intro h
  rcases lt_or_ge 0 m.maxSize with hpos | hnone
  · obtain ⟨b, hb, -⟩ := h.found m.maxSize hpos le_rfl
    rw [getBuffer, if_pos (Int.sub_le_self _ Int.one_nonneg)] at hb
    cases hb
  · have hb := h.refused (m.maxSize - 2) (Or.inl (by omega))
    rw [getBuffer, if_neg (by omega), if_pos (by omega)] at hb
    cases hb

end JmyConnectionBufferMgr

/-- A manager with the places of the buffers that callers hold. -/
structure BufferRun where
  mgr : JmyConnectionBufferMgr
  held : Finset ℕ

inductive BufferCall where
  | getOneBuffer
  | freeBuffer (id : ℤ)
  deriving DecidableEq

namespace BufferRun

def start (maxSize : ℕ) : BufferRun := ⟨.init maxSize, ∅⟩

/-- A buffer with this id is held. -/
def Holds (s : BufferRun) (id : ℤ) : Prop := ∃ b ∈ s.held, (s.mgr.connBuffVec b).id = id

instance (s : BufferRun) (id : ℤ) : Decidable (s.Holds id) :=
  inferInstanceAs (Decidable (∃ b ∈ s.held, (s.mgr.connBuffVec b).id = id))

/-- One call; a buffer that is given back is not held any more. -/
def call (s : BufferRun) : BufferCall → BufferRun
  | .getOneBuffer =>
    match s.mgr.getOneBuffer with
    | none => s
    | some (b, mgr) => ⟨mgr, insert b s.held⟩
  | .freeBuffer id => ⟨(s.mgr.freeBuffer id).2, s.held.filter fun b => (s.mgr.connBuffVec b).id ≠ id⟩

end BufferRun

def bufferMachine : Machine BufferRun BufferCall := ⟨fun s e => some (s.call e)⟩

/-- No buffer is free twice, or free and held, and one that is not held is not given back. -/
structure BufferCall.Lends (s : BufferRun) (e : BufferCall) (s' : BufferRun) : Prop where
  nodup : s'.mgr.freeQueue.Nodup
  apart : ∀ b ∈ s'.mgr.freeQueue, b ∉ s'.held
  once : ∀ id, e = .freeBuffer id → ¬s.Holds id → s.mgr.freeBuffer id = (false, s.mgr)

/-- A buffer that is given back is held, or was never lent, or there is none with this id. -/
def BufferCall.Owned (s : BufferRun) : BufferCall → Prop
  | .getOneBuffer => True
  | .freeBuffer id => id < 1 ∨ s.mgr.maxSize < id ∨ (s.mgr.connBuffVec (id - 1).toNat).state = .idle ∨ s.Holds id

instance (s : BufferRun) : DecidablePred (BufferCall.Owned s)
  | .getOneBuffer => inferInstanceAs (Decidable True)
  | .freeBuffer _ => inferInstanceAs (Decidable (_ ∨ _))

/-- The buffers that are not free are held, or were given back. -/
structure LendInv (s : BufferRun) : Prop where
  nodup : s.mgr.freeQueue.Nodup
  apart : ∀ b ∈ s.mgr.freeQueue, b ∉ s.held
  ids : ∀ b, (s.mgr.connBuffVec b).id = b + 1
  used : ∀ b ∈ s.held, (s.mgr.connBuffVec b).state ≠ .idle
  bound : ∀ b, b ∈ s.mgr.freeQueue ∨ b ∈ s.held → (b : ℤ) < s.mgr.maxSize

namespace LendInv

variable {s : BufferRun} {id : ℤ} {b : ℕ}

theorem start (maxSize : ℕ) : LendInv (.start maxSize) where
  nodup := List.nodup_range
  apart _ _ := Finset.notMem_empty _
  ids _ := rfl
  used _ h := absurd h (Finset.notMem_empty _)
  bound b h := by
    have hb := List.mem_range.1 (h.resolve_right (Finset.notMem_empty b))
    exact Int.ofNat_lt.2 hb

/-- What is held under an id is in the place before it. -/
theorem holds_iff (h : LendInv s) : s.Holds id ↔ 1 ≤ id ∧ (id - 1).toNat ∈ s.held := by
  constructor
  · rintro ⟨b, hb, hid⟩
    rw [h.ids] at hid
    have hplace : (id - 1).toNat = b := by omega
    rw [hplace]
    exact ⟨by omega, hb⟩
  · rintro ⟨hpos, hb⟩
    refine ⟨_, hb, ?_⟩
    rw [h.ids]
    omega

theorem getOneBuffer (h : LendInv s) : LendInv (s.call .getOneBuffer) := by
  unfold BufferRun.call JmyConnectionBufferMgr.getOneBuffer
  cases hqueue : s.mgr.freeQueue with
  | nil => exact h
  | cons b rest =>
      have hnodup := h.nodup
      rw [hqueue, List.nodup_cons] at hnodup
      have hmem : ∀ b' ∈ rest, b' ∈ s.mgr.freeQueue := by
        rw [hqueue]
        exact fun b' => List.mem_cons_of_mem b
      have hfront : b ∈ s.mgr.freeQueue := by
        rw [hqueue]
        exact List.mem_cons_self
      refine ⟨hnodup.2, fun b' hb' hheld => ?_, fun b' => ?_, fun b' hheld => ?_, fun b' hb' => ?_⟩
      · rcases Finset.mem_insert.1 hheld with rfl | hheld
        · exact hnodup.1 hb'
        · exact h.apart b' (hmem b' hb') hheld
      · by_cases heq : b' = b
        · simp only [heq, Function.update_self]
          exact h.ids b
        · simp only [Function.update_of_ne heq]
          exact h.ids b'
      · by_cases heq : b' = b
        · simp only [heq, Function.update_self]
          exact nofun
        · simp only [Function.update_of_ne heq]
          exact h.used b' ((Finset.mem_insert.1 hheld).resolve_left heq)
      · rcases hb' with hb' | hheld
        · exact h.bound b' (Or.inl (hmem b' hb'))
        · rcases Finset.mem_insert.1 hheld with rfl | hheld
          · exact h.bound b' (Or.inl hfront)
          · exact h.bound b' (Or.inr hheld)

/-- `freeBuffer` refuses an id without a buffer, and a buffer that was never lent. -/
theorem freeBuffer_refused
    (hrefused : id < 1 ∨ s.mgr.maxSize < id ∨ (s.mgr.connBuffVec (id - 1).toNat).state = .idle) :
    s.mgr.freeBuffer id = (false, s.mgr) := by
  unfold JmyConnectionBufferMgr.freeBuffer
  split_ifs with hrange hidle
  · rfl
  · rfl
  · rcases hrefused with hlow | hhigh | hstate
    · exact absurd (Or.inl hlow) hrange
    · exact absurd (Or.inr hhigh) hrange
    · exact absurd hstate hidle

theorem freeBuffer_accepted
    (haccepted : ¬(id < 1 ∨ s.mgr.maxSize < id ∨ (s.mgr.connBuffVec (id - 1).toNat).state = .idle)) :
    s.mgr.freeBuffer id = (true, { s.mgr with freeQueue := (id - 1).toNat :: s.mgr.freeQueue }) := by
  have hrange : ¬(id < 1 ∨ s.mgr.maxSize < id) := fun h => haccepted (h.imp_right Or.inl)
  unfold JmyConnectionBufferMgr.freeBuffer
  rw [if_neg hrange, if_neg fun hidle => haccepted (Or.inr (Or.inr hidle))]

/-- The buffer that is held under an id is accepted. -/
theorem freeBuffer_held (h : LendInv s) (hheld : s.Holds id) :
    s.mgr.freeBuffer id = (true, { s.mgr with freeQueue := (id - 1).toNat :: s.mgr.freeQueue }) := by
  obtain ⟨hpos, hb⟩ := h.holds_iff.1 hheld
  apply freeBuffer_accepted
  rintro (hlow | hhigh | hidle)
  · omega
  · have hbound := h.bound _ (Or.inr hb)
    omega
  · exact h.used _ hb hidle

/-- The caller does not hold it any more. -/
theorem freeBuffer (h : LendInv s) (hheld : s.Holds id) : LendInv (s.call (.freeBuffer id)) := by
  obtain ⟨hpos, hb⟩ := h.holds_iff.1 hheld
  unfold BufferRun.call
  dsimp only
  rw [h.freeBuffer_held hheld]
  refine ⟨?_, fun b' hb' hmem => ?_, h.ids, fun b' hmem => ?_, fun b' hb' => ?_⟩
  · exact List.nodup_cons.2 ⟨fun hmem => h.apart _ hmem hb, h.nodup⟩
  · obtain ⟨hmem, hid⟩ := Finset.mem_filter.1 hmem
    rcases List.mem_cons.1 hb' with rfl | hb'
    · rw [h.ids] at hid
      omega
    · exact h.apart b' hb' hmem
  · exact h.used b' (Finset.mem_filter.1 hmem).1
  · rcases hb' with hb' | hmem
    · rcases List.mem_cons.1 hb' with rfl | hb'
      · exact h.bound _ (Or.inr hb)
      · exact h.bound b' (Or.inl hb')
    · exact h.bound b' (Or.inr (Finset.mem_filter.1 hmem).1)

/-- A buffer that is not held and is refused changes nothing. -/
theorem freeBuffer_same (hnot : ¬s.Holds id) (hrefused : s.mgr.freeBuffer id = (false, s.mgr)) :
    s.call (.freeBuffer id) = s := by
  have hheld : (s.held.filter fun b => (s.mgr.connBuffVec b).id ≠ id) = s.held :=
    Finset.filter_true_of_mem fun b hb hid => hnot ⟨b, hb, hid⟩
  unfold BufferRun.call
  dsimp only
  rw [hrefused, hheld]

theorem step (h : LendInv s) {e : BufferCall} (howned : e.Owned s) : LendInv (s.call e) ∧ e.Lends s (s.call e) := by
  cases e with
  | getOneBuffer =>
      have hinv := h.getOneBuffer
      exact ⟨hinv, hinv.nodup, hinv.apart, fun _ heq => nomatch heq⟩
  | freeBuffer id =>
      by_cases hheld : s.Holds id
      · have hinv := h.freeBuffer hheld
        refine ⟨hinv, hinv.nodup, hinv.apart, fun id' heq hnot => ?_⟩
        cases heq
        exact absurd hheld hnot
      · have hrefused : s.mgr.freeBuffer id = (false, s.mgr) := by
          apply freeBuffer_refused
          rcases howned with hlow | hhigh | hidle | hyes
          · exact Or.inl hlow
          · exact Or.inr (Or.inl hhigh)
          · exact Or.inr (Or.inr hidle)
          · exact absurd hyes hheld
        rw [freeBuffer_same hheld hrefused]
        refine ⟨h, h.nodup, h.apart, fun id' heq _ => ?_⟩
        cases heq
        exact hrefused

theorem owned_of_lends {e : BufferCall} (hlends : e.Lends s (s.call e)) : e.Owned s := by
  cases e with
  | getOneBuffer => trivial
  | freeBuffer id =>
      by_contra hnot
      obtain ⟨hlow, hnot⟩ := not_or.1 hnot
      obtain ⟨hhigh, hnot⟩ := not_or.1 hnot
      obtain ⟨hidle, hheld⟩ := not_or.1 hnot
      have hrefused := hlends.once id rfl hheld
      rw [freeBuffer_accepted (fun h => h.elim hlow fun h => h.elim hhigh hidle)] at hrefused
      cases hrefused

end LendInv

/-- The buffers of a run are lent once exactly when no buffer is given back that was given back before and is not held;
the ids never lead to the buffers, whatever the number of buffers. -/
theorem buffers_lent_iff (maxSize : ℕ) (es : List BufferCall) :
    (bufferMachine.Along (fun s e => e.Owned s) (.start maxSize) es ↔
      bufferMachine.EachStep (fun s e s' => e.Lends s s') (.start maxSize) es) ∧
    ∀ es₁ es₂ s, es = es₁ ++ es₂ → bufferMachine.run (.start maxSize) es₁ = some s → ¬s.mgr.GetsById := by
  refine ⟨?_, fun _ _ s _ _ => s.mgr.not_getsById⟩
  refine Machine.along_iff_eachStep (I := LendInv) ?_ ?_ (LendInv.start maxSize) es
  · intro s e s' h howned hstep
    cases hstep
    exact h.step howned
  · intro s e _ hlends
    exact LendInv.owned_of_lends (hlends _ rfl)

/-- A buffer that is given back twice is in the queue twice, and the last buffer is not found by its id. -/
theorem buffer_given_twice : ¬(bufferMachine.EachStep (fun s e s' => e.Lends s s') (.start 2)
      [.getOneBuffer, .freeBuffer 1, .freeBuffer 1]) ∧ ¬(BufferRun.start 2).mgr.GetsById := by
  constructor
  · intro h
    have hlends := h [.getOneBuffer, .freeBuffer 1] (.freeBuffer 1) [] _ _ rfl rfl rfl
    exact absurd hlends.nodup (by decide)
  · intro h
    obtain ⟨b, hb, -⟩ := h.found 2 (by decide) (by decide)
    cases hb

end JmyGame
