import Mathlib.Data.List.Basic

/-! Blocks of memory as lists of cells: writing a piece at an offset and reading the window between
two offsets. A piece written right behind a window extends the window by the piece. -/

namespace Block

variable {α : Type}

/-- The block after a piece is copied to an offset. -/
def write (mem : List α) (offset : ℕ) (src : List α) : List α :=
  mem.take offset ++ src ++ mem.drop (offset + src.length)

/-- The cells between two offsets. -/
def window (mem : List α) (lo hi : ℕ) : List α := (mem.take hi).drop lo

theorem length_write {mem : List α} {offset : ℕ} {src : List α}
    (h : offset + src.length ≤ mem.length) : (write mem offset src).length = mem.length := by
  simp only [write, List.length_append, List.length_take, List.length_drop]
  omega

/-- The beginning of a block in which a piece was written, up to somewhere in the piece. -/
theorem take_write_take {mem : List α} {offset n : ℕ} {src : List α} (h : offset ≤ mem.length)
    (hn : n ≤ src.length) :
    (write mem offset src).take (offset + n) = mem.take offset ++ src.take n := by
  have hlength : (mem.take offset).length = offset := by rw [List.length_take, Nat.min_eq_left h]
  calc (write mem offset src).take (offset + n)
      = (mem.take offset ++ (src ++ mem.drop (offset + src.length))).take ((mem.take offset).length + n) := by
        rw [write, List.append_assoc, hlength]
    _ = mem.take offset ++ (src ++ mem.drop (offset + src.length)).take n := List.take_length_add_append n
    _ = mem.take offset ++ src.take n := by rw [List.take_append_of_le_length hn]

theorem take_write {mem : List α} {offset : ℕ} {src : List α} (h : offset ≤ mem.length) :
    (write mem offset src).take (offset + src.length) = mem.take offset ++ src := by
  rw [take_write_take h (Nat.le_refl _), List.take_length]

/-- Writing behind a window extends it by what the window then takes in. -/
theorem window_write_take {mem : List α} {lo offset n : ℕ} {src : List α} (hlo : lo ≤ offset)
    (h : offset ≤ mem.length) (hn : n ≤ src.length) :
    window (write mem offset src) lo (offset + n) = window mem lo offset ++ src.take n := by
  rw [window, take_write_take h hn, List.drop_append_of_le_length, window]
  rw [List.length_take]
  omega

/-- Writing behind a window extends it. -/
theorem window_write {mem : List α} {lo offset : ℕ} {src : List α} (hlo : lo ≤ offset)
    (h : offset ≤ mem.length) :
    window (write mem offset src) lo (offset + src.length) = window mem lo offset ++ src := by
  rw [window_write_take hlo h (Nat.le_refl _), List.take_length]

@[simp] theorem length_window (mem : List α) (lo hi : ℕ) :
    (window mem lo hi).length = min hi mem.length - lo := by
  simp only [window, List.length_drop, List.length_take]

/-- A piece that is copied behind what fills the beginning of the block. -/
theorem write_append (x y z : List α) : write (x ++ y) x.length z = x ++ z ++ y.drop z.length := by
  rw [write, List.take_left, ← List.drop_drop, List.drop_left]

/-- A block filled by two pieces, one behind the other. -/
theorem write_write_replicate (a : α) (x y : List α) :
    write (write (List.replicate (x.length + y.length) a) 0 x) x.length y = x ++ y := by
  have hx : write (List.replicate (x.length + y.length) a) 0 x = x ++ List.replicate y.length a := by
    simp only [write, List.take_zero, List.nil_append, Nat.zero_add, List.drop_replicate]
    rw [Nat.add_sub_cancel_left]
  rw [hx, write, List.take_left, List.drop_eq_nil_of_le, List.append_nil]
  simp only [List.length_append, List.length_replicate, Nat.le_refl]

/-- Moving the lower offset up drops the front of the window. -/
theorem window_add (mem : List α) (lo n hi : ℕ) :
    window mem (lo + n) hi = (window mem lo hi).drop n := by
  rw [window, window, List.drop_drop]

theorem window_all (mem : List α) : window mem 0 mem.length = mem := by
  rw [window, List.take_length, List.drop_zero]

/-- Three cells from an offset on. -/
theorem window_three {mem : List α} {lo : ℕ} (h : lo + 3 ≤ mem.length) (a : α) :
    window mem lo (lo + 3) = [mem.getD lo a, mem.getD (lo + 1) a, mem.getD (lo + 2) a] := by
  have hcell : ∀ k (hk : k < mem.length), mem[k] = mem.getD k a := fun k hk => by
    rw [List.getD_eq_getElem?_getD, List.getElem?_eq_getElem hk, Option.getD_some]
  rw [window, List.drop_take, Nat.add_sub_cancel_left, List.drop_eq_getElem_cons (by omega),
    List.drop_eq_getElem_cons (by omega), List.drop_eq_getElem_cons (by omega), hcell, hcell, hcell]
  rfl

end Block
