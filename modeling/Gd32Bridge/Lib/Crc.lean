import Mathlib.Data.Nat.Bits

/-!
# Reflected CRCs, bit by bit and byte by byte

A reflected CRC shifts its register right one bit at a time and adds the polynomial when a one falls
out.  The register is linear under `xor`, so that `n` shifts split into those of its low `n` bits,
which a table can hold, and a plain shift of the rest.
-/

namespace Crc

variable {w : ℕ} (poly : BitVec w)

/-- One shift of the register. -/
def shift (c : BitVec w) : BitVec w :=
  (c >>> 1) ^^^ if c.getLsbD 0 then poly else 0

/-- Several shifts. -/
def shifts : ℕ → BitVec w → BitVec w
  | 0, c => c
  | n + 1, c => shifts n (shift poly c)

/-- The low `n` bits of a register. -/
def low (n : ℕ) (c : BitVec w) : BitVec w :=
  (c.setWidth n).setWidth w

lemma getLsbD_low (n : ℕ) (c : BitVec w) (i : ℕ) :
    (low n c).getLsbD i = (decide (i < n) && c.getLsbD i) := by
  by_cases hi : i < w
  · simp [low, hi]
  · simp [low, BitVec.getLsbD_of_ge _ i (Nat.le_of_not_lt hi)]

/-- The register is linear. -/
lemma shift_xor (x y : BitVec w) : shift poly (x ^^^ y) = shift poly x ^^^ shift poly y := by
  refine BitVec.eq_of_getLsbD_eq fun i hi => ?_
  simp only [shift, BitVec.getLsbD_xor, BitVec.getLsbD_ushiftRight]
  cases x.getLsbD 0 <;> cases y.getLsbD 0 <;>
    cases x.getLsbD (1 + i) <;> cases y.getLsbD (1 + i) <;> simp

lemma shifts_xor (n : ℕ) (x y : BitVec w) :
    shifts poly n (x ^^^ y) = shifts poly n x ^^^ shifts poly n y := by
  induction n generalizing x y with
  | zero => rfl
  | succ n ih => rw [shifts, shift_xor, ih, shifts, shifts]

/-- As long as only zeros fall out, the polynomial stays out of it. -/
lemma shifts_of_low_zero (n : ℕ) (c : BitVec w) (h : ∀ i < n, c.getLsbD i = false) :
    shifts poly n c = c >>> n := by
  induction n generalizing c with
  | zero => rfl
  | succ n ih =>
    have hstep : shift poly c = c >>> 1 := by
      simp [shift, h 0 (Nat.succ_pos n)]
    have hrest : ∀ i < n, (c >>> 1).getLsbD i = false := by
      intro i hi
      rw [BitVec.getLsbD_ushiftRight]
      exact h (1 + i) (by omega)
    rw [shifts, hstep, ih _ hrest, ← BitVec.shiftRight_add, Nat.add_comm]

/-- The shifts of a register, from those of its low bits. -/
theorem shifts_eq (n : ℕ) (c : BitVec w) :
    shifts poly n c = shifts poly n (low n c) ^^^ (c >>> n) := by
  have hsplit : c = low n c ^^^ (low n c ^^^ c) := by
    rw [← BitVec.xor_assoc, BitVec.xor_self, BitVec.zero_xor]
  have hhigh : ∀ i < n, (low n c ^^^ c).getLsbD i = false := by
    intro i hi
    simp [getLsbD_low, hi]
  have hsame : (low n c ^^^ c) >>> n = c >>> n := by
    refine BitVec.eq_of_getLsbD_eq fun i hi => ?_
    have hge : ¬ n + i < n := by omega
    simp [BitVec.getLsbD_ushiftRight, getLsbD_low, hge]
  calc shifts poly n c = shifts poly n (low n c ^^^ (low n c ^^^ c)) := by rw [← hsplit]
    _ = shifts poly n (low n c) ^^^ (c >>> n) := by
      rw [shifts_xor, shifts_of_low_zero poly n _ hhigh, hsame]

end Crc
