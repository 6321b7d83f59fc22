import Mathlib.Data.Nat.Notation
import Mathlib.Tactic.IntervalCases

/-! Bytes of C integers. A `char` is a signed byte that is promoted to a 32-bit `int` before it is
shifted; a byte of an integer is cut out with an arithmetic shift and a mask. The lemmas read both
directions as arithmetic on natural numbers, where `omega` decides them. -/

namespace CArith

/-- A `char`. -/
abbrev Byte := BitVec 8

instance : LawfulBEq Byte := inferInstance

/-- The byte `(x >> 8 * k) & 0xff` of an integer, stored in a `char`. -/
def byteOf {w : ℕ} (k : ℕ) (x : BitVec w) : Byte :=
  (x.sshiftRight (8 * k) &&& 0xff#w).setWidth 8

/-- The promoted byte `(b << 8 * k) & (0xff << 8 * k)` of a `char`. -/
def placed (k : ℕ) (b : Byte) : BitVec 32 :=
  (b.signExtend 32 <<< (8 * k)) &&& (0xff#32 <<< (8 * k))

theorem getLsbD_mask {w : ℕ} (i : ℕ) (hi : i < w) :
    (0xff#w).getLsbD i = decide (i < 8) := by
  rw [BitVec.getLsbD_ofNat, decide_eq_true hi, Bool.true_and]
  by_cases h : i < 8
  · rw [decide_eq_true h]
    interval_cases i <;> rfl
  · rw [decide_eq_false h]
    exact Nat.testBit_lt_two_pow (lt_of_lt_of_le (by decide) (Nat.pow_le_pow_right (by decide)
      (not_lt.1 h)))

theorem byteOf_eq_extract {w : ℕ} (k : ℕ) (x : BitVec w) (h : 8 * k + 8 ≤ w) :
    byteOf k x = x.extractLsb' (8 * k) 8 := by
  apply BitVec.eq_of_getLsbD_eq
  intro i hi
  have hw : i < w := by omega
  have hin : 8 * k + i < w := by omega
  simp only [byteOf, BitVec.getLsbD_setWidth, BitVec.getLsbD_and, BitVec.getLsbD_sshiftRight,
    getLsbD_mask i hw, BitVec.getLsbD_extractLsb', hi, hin, decide_true, Bool.true_and,
    Bool.and_true, if_true]
  rw [decide_eq_false (by omega : ¬w ≤ i), Bool.not_false, Bool.true_and]

/-- A byte of an integer, as a number. -/
theorem toNat_byteOf {w : ℕ} (k : ℕ) (x : BitVec w) (h : 8 * k + 8 ≤ w) :
    (byteOf k x).toNat = x.toNat / 2 ^ (8 * k) % 256 := by
  rw [byteOf_eq_extract k x h, BitVec.extractLsb'_toNat, Nat.shiftRight_eq_div_pow]

theorem placed_eq_shift (k : ℕ) (b : Byte) : placed k b = b.setWidth 32 <<< (8 * k) := by
  rw [placed, ← BitVec.shiftLeft_and_distrib]
  congr 1
  apply BitVec.eq_of_getLsbD_eq
  intro i hi
  simp only [BitVec.getLsbD_and, BitVec.getLsbD_signExtend, getLsbD_mask i hi,
    BitVec.getLsbD_setWidth, hi, decide_true, Bool.true_and]
  by_cases h : i < 8
  · simp [h]
  · simp [h, BitVec.getLsbD_of_ge b i (by omega)]

/-- A promoted, shifted and masked byte, as a number: the mask undoes the sign extension. -/
theorem toNat_placed (k : ℕ) (hk : k < 4) (b : Byte) : (placed k b).toNat = b.toNat * 2 ^ (8 * k) := by
  have hb := b.isLt
  rw [placed_eq_shift, BitVec.toNat_shiftLeft, BitVec.toNat_setWidth, Nat.shiftLeft_eq,
    Nat.mod_eq_of_lt (show b.toNat < 2 ^ 32 by omega)]
  apply Nat.mod_eq_of_lt
  interval_cases k <;> omega

end CArith
