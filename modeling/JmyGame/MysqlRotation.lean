import JmyGame.MysqlPool

/-! The connectors that `push_read_cmd` and `push_write_cmd` of `MysqlConnectorPool` choose over a run of calls.
`push_write_cmd` tests the index of the writing connectors and moves the index of the reading ones. -/

namespace JmyGame

open CArith

/-- A call of `push_read_cmd` or of `push_write_cmd`. -/
inductive PoolPush (γ : Type) where
  | read (text : List Byte) (info : CmdInfo γ)
  | write (text : List Byte) (info : CmdInfo γ)

def PoolPush.side {γ : Type} : PoolPush γ → PoolSide
  | .read _ _ => .read
  | .write _ _ => .write

/-- The calls of one kind. -/
def pushesOf {γ : Type} (side : PoolSide) (es : List (PoolPush γ)) : List (PoolPush γ) :=
  es.filter fun e => e.side = side

section

variable {γ : Type} (text : List Byte) (info : CmdInfo γ) (es : List (PoolPush γ))

@[simp] theorem pushesOf_read_read :
    pushesOf .read (.read text info :: es) = .read text info :: pushesOf .read es := rfl

@[simp] theorem pushesOf_read_write : pushesOf .read (.write text info :: es) = pushesOf .read es := rfl

@[simp] theorem pushesOf_write_read : pushesOf .write (.read text info :: es) = pushesOf .write es := rfl

@[simp] theorem pushesOf_write_write :
    pushesOf .write (.write text info :: es) = .write text info :: pushesOf .write es := rfl

end

namespace MysqlConnectorPool

variable {γ ρ : Type}

def push (p : MysqlConnectorPool γ ρ) : PoolPush γ → Option (MysqlConnectorPool γ ρ)
  | .read text info => p.pushReadCmd text info
  | .write text info => p.pushWriteCmd text info

def pushMachine (γ ρ : Type) : Machine (MysqlConnectorPool γ ρ) (PoolPush γ) := ⟨push⟩

/-- The index with which a connector of the side is taken. -/
def currIndex (p : MysqlConnectorPool γ ρ) : PoolSide → ℤ
  | .read => p.currReadIndex
  | .write => p.currWriteIndex

/-- The connectors of a side that the calls of a run choose, one after the other. -/
def chosen (side : PoolSide) : MysqlConnectorPool γ ρ → List (PoolPush γ) → List ℤ
  | _, [] => []
  | p, e :: es => match p.push e with
      | none => []
      | some p' => if e.side = side then p'.currIndex side :: chosen side p' es else chosen side p' es

/-- Reading and writing commands rotate, each kind over its own connectors: every index is in range, the writes go
round from some connector on, and the reads go where they go without the writes. -/
structure Rotates (p : MysqlConnectorPool γ ρ) (es : List (PoolPush γ)) : Prop where
  inRange : (pushMachine γ ρ).run p es ≠ none
  writes : ∃ s : ℕ, ∀ (k : ℕ) (i : ℤ), (chosen .write p es)[k]? = some i → i = ((s + k) % p.size .write : ℕ)
  reads : chosen .read p es = chosen .read p (pushesOf .read es)

/-- The writes leave the reading connectors where they should be, `k` reads before them. With one writing connector
a write takes the reads back to the beginning; with more it makes them skip a connector, and there is one write at
most. -/
def WritesInStep (r w : ℕ) : ℕ → List (PoolPush γ) → Prop
  | _, [] => True
  | k, .read _ _ :: es => WritesInStep r w (k + 1) es
  | k, .write _ _ :: es =>
      (if w = 1 then pushesOf .read es ≠ [] → r ∣ k
        else pushesOf .write es = [] ∧ (pushesOf .read es ≠ [] → r ∣ k + 1)) ∧ WritesInStep r w k es

/-- The reads go round: the next index is that of one read more. -/
theorem nextIndex_mod {r k : ℕ} (hr : 0 < r) : nextIndex ((k % r : ℕ) : ℤ) r = ((k + 1) % r : ℕ) := by
  have hlt := Nat.mod_lt k hr
  rw [← Nat.mod_add_mod k r 1]
  unfold nextIndex
  rcases Nat.lt_or_ge (k % r + 1) r with h | h
  · rw [Nat.mod_eq_of_lt h, if_neg (by omega)]
    push_cast
    rfl
  · have hlast : k % r + 1 = r := by omega
    rw [hlast, Nat.mod_self, if_pos (by omega)]
    rfl

theorem nextIndex_inRange {r : ℕ} (hr : 0 < r) {c : ℤ} (hc : 0 ≤ c) : 0 ≤ nextIndex c r ∧ nextIndex c r < r := by
  unfold nextIndex
  split_ifs <;> omega

/-- After `k` reads the index 0 leads to the next connector exactly when the reads are at the beginning. -/
theorem nextIndex_zero_iff {r k : ℕ} (hr : 0 < r) : nextIndex 0 r = ((k + 1) % r : ℕ) ↔ r ∣ k := by
  have hlt := Nat.mod_lt k hr
  rw [← nextIndex_mod hr, Nat.dvd_iff_mod_eq_zero]
  unfold nextIndex
  split_ifs <;> omega

/-- After `k` reads an index that is one too large leads to the next connector exactly when that is the first one. -/
theorem nextIndex_skip_iff {r k : ℕ} (hr : 0 < r) :
    nextIndex ((k % r : ℕ) + 1) r = ((k + 1) % r : ℕ) ↔ r ∣ k + 1 := by
  have hlt := Nat.mod_lt k hr
  rw [← nextIndex_mod hr, Nat.dvd_iff_mod_eq_zero, ← Nat.mod_add_mod k r 1]
  generalize k % r = m at hlt ⊢
  rcases Nat.lt_or_ge (m + 1) r with h | h
  · rw [Nat.mod_eq_of_lt h]
    refine iff_of_false ?_ (Nat.succ_ne_zero m)
    unfold nextIndex
    split_ifs <;> omega
  · have hlast : m + 1 = r := by omega
    rw [hlast, Nat.mod_self]
    refine iff_of_true ?_ rfl
    unfold nextIndex
    rw [if_pos (by omega), if_pos (by omega)]

/-- A pool whose indices can be used: there are connectors of both kinds, and the writes stand at the first one. -/
structure Indexed (r w : ℕ) (p : MysqlConnectorPool γ ρ) : Prop where
  readSize : p.size .read = r
  writeSize : p.size .write = w
  readPos : 0 < r
  writePos : 0 < w
  read : 0 ≤ p.currReadIndex
  write : p.currWriteIndex = 0

variable {p : MysqlConnectorPool γ ρ} {r w : ℕ}

theorem Indexed.push_read (h : p.Indexed r w) (text : List Byte) (info : CmdInfo γ) :
    ∃ p', p.push (.read text info) = some p' ∧ p'.Indexed r w ∧ p'.currReadIndex = nextIndex p.currReadIndex r := by
  obtain ⟨hr, hw, hr0, hw0, hread, hwrite⟩ := h
  have hin := nextIndex_inRange hr0 hread
  subst hr
  refine ⟨_, if_pos hin, ⟨rfl, hw, hr0, hw0, hin.1, hwrite⟩, rfl⟩

theorem Indexed.push_write (h : p.Indexed r w) (text : List Byte) (info : CmdInfo γ) :
    ∃ p', p.push (.write text info) = some p' ∧ p'.Indexed r w ∧
      p'.currReadIndex = if w = 1 then 0 else p.currReadIndex + 1 := by
  obtain ⟨hr, hw, hr0, hw0, hread, hwrite⟩ := h
  subst hw
  have hin : 0 ≤ p.currWriteIndex ∧ p.currWriteIndex < p.size .write := by omega
  have hif : (if (p.size .write : ℤ) - 1 ≤ p.currWriteIndex then 0 else p.currReadIndex + 1) =
      if p.size .write = 1 then 0 else p.currReadIndex + 1 :=
    if_congr (by omega) rfl rfl
  refine ⟨_, if_pos hin, ⟨hr, rfl, hr0, hw0, ?_, hwrite⟩, hif⟩
  show 0 ≤ if (p.size .write : ℤ) - 1 ≤ p.currWriteIndex then 0 else p.currReadIndex + 1
  split_ifs <;> omega

section

variable {text : List Byte} {info : CmdInfo γ} {p' : MysqlConnectorPool γ ρ}

theorem chosen_read_read (hpush : p.push (.read text info) = some p') (es : List (PoolPush γ)) :
    chosen .read p (.read text info :: es) = p'.currReadIndex :: chosen .read p' es := by
  rw [chosen, hpush]
  rfl

theorem chosen_read_write (hpush : p.push (.write text info) = some p') (es : List (PoolPush γ)) :
    chosen .read p (.write text info :: es) = chosen .read p' es := by
  rw [chosen, hpush]
  rfl

theorem chosen_write_read (hpush : p.push (.read text info) = some p') (es : List (PoolPush γ)) :
    chosen .write p (.read text info :: es) = chosen .write p' es := by
  rw [chosen, hpush]
  rfl

theorem chosen_write_write (hpush : p.push (.write text info) = some p') (es : List (PoolPush γ)) :
    chosen .write p (.write text info :: es) = p'.currWriteIndex :: chosen .write p' es := by
  rw [chosen, hpush]
  rfl

end

theorem Indexed.run_ne_none (h : p.Indexed r w) (es : List (PoolPush γ)) : (pushMachine γ ρ).run p es ≠ none := by
  induction es generalizing p with
  | nil => exact Option.some_ne_none p
  | cons e es ih =>
      have hpush : ∃ p', p.push e = some p' ∧ p'.Indexed r w := by
        cases e with
        | read text info =>
            obtain ⟨p', hp', h', -⟩ := h.push_read text info
            exact ⟨p', hp', h'⟩
        | write text info =>
            obtain ⟨p', hp', h', -⟩ := h.push_write text info
            exact ⟨p', hp', h'⟩
      obtain ⟨p', hp', h'⟩ := hpush
      show ((pushMachine γ ρ).step p e).bind _ ≠ none
      rw [show (pushMachine γ ρ).step p e = some p' from hp']
      exact ih h'

/-- Every write goes to the first writing connector. -/
theorem Indexed.chosen_write (h : p.Indexed r w) (es : List (PoolPush γ)) :
    chosen .write p es = List.replicate (pushesOf .write es).length 0 := by
  induction es generalizing p with
  | nil => rfl
  | cons e es ih =>
      cases e with
      | read text info =>
          obtain ⟨p', hp', h', -⟩ := h.push_read text info
          rw [chosen_write_read hp', pushesOf_write_read]
          exact ih h'
      | write text info =>
          obtain ⟨p', hp', h', -⟩ := h.push_write text info
          rw [chosen_write_write hp', pushesOf_write_write, ih h', h'.write]
          rfl

/-- Where the reads should go, `k` of them done. -/
def readTurns (r : ℕ) : ℕ → List (PoolPush γ) → List ℤ
  | _, [] => []
  | k, _ :: es => ((k + 1) % r : ℕ) :: readTurns r (k + 1) es

/-- Without writes the reads take their turns. -/
theorem Indexed.chosen_pushesOf_read {k : ℕ} (h : p.Indexed r w) (hk : p.currReadIndex = (k % r : ℕ))
    (es : List (PoolPush γ)) : chosen .read p (pushesOf .read es) = readTurns r k (pushesOf .read es) := by
  induction es generalizing p k with
  | nil => rfl
  | cons e es ih =>
      cases e with
      | write text info => exact ih h hk
      | read text info =>
          obtain ⟨p', hp', h', hindex⟩ := h.push_read text info
          rw [hk, nextIndex_mod h.readPos] at hindex
          rw [pushesOf_read_read, chosen_read_read hp', ih h' hindex, hindex]
          rfl

/-- A read first: it goes where it should, and the others do. -/
theorem Indexed.reads_cons_read_iff {k : ℕ} (h : p.Indexed r w) (text : List Byte) (info : CmdInfo γ)
    (es : List (PoolPush γ)) :
    ∃ p', p.push (.read text info) = some p' ∧ p'.Indexed r w ∧
      p'.currReadIndex = nextIndex p.currReadIndex r ∧
      (chosen .read p (.read text info :: es) = readTurns r k (pushesOf .read (.read text info :: es)) ↔
        nextIndex p.currReadIndex r = ((k + 1) % r : ℕ) ∧
          chosen .read p' es = readTurns r (k + 1) (pushesOf .read es)) := by
  obtain ⟨p', hp', h', hindex⟩ := h.push_read text info
  refine ⟨p', hp', h', hindex, ?_⟩
  rw [pushesOf_read_read, chosen_read_read hp', readTurns, List.cons.injEq, hindex]

/-- With one writing connector a write takes the reads back to the beginning. -/
theorem Indexed.reads_iff_of_one {k : ℕ} (h : p.Indexed r 1) (es : List (PoolPush γ)) :
    chosen .read p es = readTurns r k (pushesOf .read es) ↔
      (es.head?.map PoolPush.side = some .read → nextIndex p.currReadIndex r = ((k + 1) % r : ℕ)) ∧
        WritesInStep r 1 k es := by
  induction es generalizing p k with
  | nil => exact iff_of_true rfl ⟨fun hread => (nomatch hread), trivial⟩
  | cons e es ih =>
      cases e with
      | read text info =>
          obtain ⟨p', hp', h', hindex, hiff⟩ := h.reads_cons_read_iff (k := k) text info es
          rw [hiff, ih h']
          refine ⟨fun ⟨hnext, hrest⟩ => ⟨fun _ => hnext, hrest.2⟩, fun ⟨hnext, hrest⟩ => ?_⟩
          have hnext := hnext rfl
          refine ⟨hnext, fun _ => ?_, hrest⟩
          rw [hindex, hnext, nextIndex_mod h.readPos]
      | write text info =>
          obtain ⟨p', hp', h', hindex⟩ := h.push_write text info
          rw [if_pos rfl] at hindex
          rw [chosen_read_write hp', pushesOf_read_write, ih h', hindex,
            nextIndex_zero_iff h.readPos, WritesInStep, if_pos rfl]
          refine ⟨fun ⟨hnext, hrest⟩ => ⟨fun hread => (nomatch hread), fun hne => ?_, hrest⟩,
            fun ⟨_, hne, hrest⟩ => ⟨fun hread => hne ?_, hrest⟩⟩
          · -- the write that comes next, if there is one, says the same of the reads before it
            cases es with
            | nil => exact absurd rfl hne
            | cons e es =>
                cases e with
                | read text info => exact hnext rfl
                | write text info =>
                    rw [WritesInStep, if_pos rfl] at hrest
                    exact hrest.1 hne
          · cases es with
            | nil => exact nomatch hread
            | cons e es =>
                cases e with
                | read text info => exact List.cons_ne_nil _ _
                | write text info => exact nomatch hread

/-- Without writes the reads go round from where the index is. -/
theorem Indexed.reads_iff_of_none {k : ℕ} (h : p.Indexed r w) {es : List (PoolPush γ)}
    (hes : pushesOf .write es = []) :
    chosen .read p es = readTurns r k (pushesOf .read es) ↔
      (pushesOf .read es ≠ [] → nextIndex p.currReadIndex r = ((k + 1) % r : ℕ)) := by
  induction es generalizing p k with
  | nil => exact iff_of_true rfl fun hne => absurd rfl hne
  | cons e es ih =>
      cases e with
      | write text info => exact nomatch hes
      | read text info =>
          obtain ⟨p', hp', h', hindex, hiff⟩ := h.reads_cons_read_iff (k := k) text info es
          rw [hiff, ih h' hes, hindex]
          refine ⟨fun hboth _ => hboth.1, fun hnext => ?_⟩
          have hnext := hnext (List.cons_ne_nil _ _)
          refine ⟨hnext, fun _ => ?_⟩
          rw [hnext, nextIndex_mod h.readPos]

theorem writesInStep_of_none {k : ℕ} {es : List (PoolPush γ)} (hes : pushesOf .write es = []) :
    WritesInStep r w k es := by
  induction es generalizing k with
  | nil => trivial
  | cons e es ih =>
      cases e with
      | read text info => exact ih hes
      | write text info => exact nomatch hes

/-- With more writing connectors a write makes the reads skip a connector. -/
theorem Indexed.reads_iff_of_more {k : ℕ} (h : p.Indexed r w) (hw : w ≠ 1) (hk : p.currReadIndex = (k % r : ℕ))
    (es : List (PoolPush γ)) :
    (pushesOf .write es).length ≤ 1 ∧ chosen .read p es = readTurns r k (pushesOf .read es) ↔
      WritesInStep r w k es := by
  induction es generalizing p k with
  | nil => exact iff_of_true ⟨Nat.zero_le 1, rfl⟩ trivial
  | cons e es ih =>
      cases e with
      | read text info =>
          obtain ⟨p', hp', h', hindex, hiff⟩ := h.reads_cons_read_iff (k := k) text info es
          rw [hk, nextIndex_mod h.readPos] at hindex hiff
          rw [hiff, eq_self_iff_true, true_and, pushesOf_write_read]
          exact ih h' hindex
      | write text info =>
          obtain ⟨p', hp', h', hindex⟩ := h.push_write text info
          rw [if_neg hw, hk] at hindex
          rw [chosen_read_write hp', pushesOf_read_write, pushesOf_write_write,
            WritesInStep, if_neg hw, List.length_cons]
          constructor
          · intro ⟨hlen, hreads⟩
            have hnone : pushesOf .write es = [] := List.length_eq_zero_iff.1 (by omega)
            rw [h'.reads_iff_of_none hnone, hindex, nextIndex_skip_iff h.readPos] at hreads
            exact ⟨⟨hnone, hreads⟩, writesInStep_of_none hnone⟩
          · intro ⟨⟨hnone, hreads⟩, _⟩
            refine ⟨by rw [hnone]; exact le_rfl, ?_⟩
            rw [h'.reads_iff_of_none hnone, hindex, nextIndex_skip_iff h.readPos]
            exact hreads

/-- The writes of a run go to the first connector; they go round exactly when there is one connector or there is one
write at most. -/
theorem Indexed.writes_iff (h : p.Indexed r w) (es : List (PoolPush γ)) :
    (∃ s : ℕ, ∀ (k : ℕ) (i : ℤ), (chosen .write p es)[k]? = some i → i = ((s + k) % p.size .write : ℕ)) ↔
      w = 1 ∨ (pushesOf .write es).length ≤ 1 := by
  simp only [h.chosen_write, h.writeSize, List.getElem?_replicate, Option.ite_none_right_eq_some,
    Option.some.injEq]
  constructor
  · intro ⟨s, hs⟩
    by_contra hcon
    obtain ⟨hw, hlen⟩ := not_or.1 hcon
    have hfirst := hs 0 0 ⟨by omega, rfl⟩
    have hsecond := hs 1 0 ⟨by omega, rfl⟩
    have hdvd : w ∣ s := Nat.dvd_of_mod_eq_zero (Int.natCast_eq_zero.1 hfirst.symm)
    have hdvd' : w ∣ s + 1 := Nat.dvd_of_mod_eq_zero (Int.natCast_eq_zero.1 hsecond.symm)
    exact hw (Nat.dvd_one.1 ((Nat.dvd_add_right hdvd).1 hdvd'))
  · intro hor
    refine ⟨0, fun k i ⟨hk, hi⟩ => ?_⟩
    rw [← hi]
    rcases hor with hw | hlen
    · rw [hw, Nat.mod_one]
      rfl
    · rw [show k = 0 by omega, Nat.zero_mod]
      rfl

/-- `push_write_cmd` never moves its own index and moves that of the reads: both kinds rotate exactly in the runs
whose writes leave the reads in step. -/
theorem rotates_iff (size : PoolSide → ℕ) (hr : 0 < size .read) (hw : 0 < size .write) (es : List (PoolPush γ)) :
    Rotates (start size : MysqlConnectorPool γ ρ) es ↔ WritesInStep (size .read) (size .write) 0 es := by
  have h : (start size : MysqlConnectorPool γ ρ).Indexed (size .read) (size .write) :=
    ⟨rfl, rfl, hr, hw, le_rfl, rfl⟩
  have hzero : (start size : MysqlConnectorPool γ ρ).currReadIndex = (0 % size .read : ℕ) := by
    rw [Nat.zero_mod]
    rfl
  have hparts : Rotates (start size : MysqlConnectorPool γ ρ) es ↔
      (size .write = 1 ∨ (pushesOf .write es).length ≤ 1) ∧
        chosen .read (start size : MysqlConnectorPool γ ρ) es = readTurns (size .read) 0 (pushesOf .read es) := by
    rw [← h.writes_iff es, ← h.chosen_pushesOf_read hzero]
    exact ⟨fun hrot => ⟨hrot.writes, hrot.reads⟩, fun hboth => ⟨h.run_ne_none es, hboth.1, hboth.2⟩⟩
  rw [hparts]
  by_cases hone : size .write = 1
  · rw [hone] at h ⊢
    rw [h.reads_iff_of_one, hzero, nextIndex_mod hr]
    exact ⟨fun hall => hall.2.2, fun hsafe => ⟨Or.inl rfl, fun _ => rfl, hsafe⟩⟩
  · rw [← h.reads_iff_of_more hone hzero]
    exact and_congr_left fun _ => or_iff_right hone

/-- Two connectors for reading and some for writing. -/
def twoReaders (writers : ℕ) : PoolSide → ℕ
  | .read => 2
  | .write => writers

/-- With one writing connector a write after two reads, which is the end of a round, disturbs nothing. -/
theorem rotates_after_round : 0 < 2 ∧ 0 < 1 ∧ Rotates (start (twoReaders 1) : MysqlConnectorPool ℕ ℕ)
    [.read [] (.make [] 0), .read [] (.make [] 0), .write [] (.make [] 0), .read [] (.make [] 0)] :=
  ⟨by decide, by decide, (rotates_iff (twoReaders 1) (by decide) (by decide) _).2 ⟨fun _ => ⟨1, rfl⟩, trivial⟩⟩

/-- Two writes go to the first of two connectors, and a write between two reads sends both to one connector. -/
theorem rotates_fails :
    ¬ Rotates (start (twoReaders 2) : MysqlConnectorPool ℕ ℕ) [.write [] (.make [] 0), .write [] (.make [] 0)] ∧
      ¬ Rotates (start (twoReaders 1) : MysqlConnectorPool ℕ ℕ)
        [.read [] (.make [] 0), .write [] (.make [] 0), .read [] (.make [] 0)] := by
  constructor
  · intro h
    obtain ⟨s, hs⟩ := h.writes
    have hfirst : (0 : ℤ) = ((s + 0) % 2 : ℕ) := hs 0 0 rfl
    have hsecond : (0 : ℤ) = ((s + 1) % 2 : ℕ) := hs 1 0 rfl
    omega
  · intro h
    exact absurd h.reads (by decide)

end MysqlConnectorPool

end JmyGame
