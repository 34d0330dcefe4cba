import Mathlib.Data.List.GetD
import Mathlib.Tactic.IntervalCases

/-!
# Little-endian words

Byte-wise loads and stores of 32-bit words, as C code writes them: four shifts and an `or`
one way, four shifts and a truncation the other way.
-/

namespace Endian

/-- The four bytes of a word, least significant first. -/
def le32 (v : UInt32) : List UInt8 :=
  [v.toUInt8, (v >>> 8).toUInt8, (v >>> 16).toUInt8, (v >>> 24).toUInt8]

/-- The word made of four bytes, least significant first. -/
def word (b₀ b₁ b₂ b₃ : UInt8) : UInt32 :=
  b₀.toUInt32 ||| (b₁.toUInt32 <<< 8) ||| (b₂.toUInt32 <<< 16) ||| (b₃.toUInt32 <<< 24)

/-- The word at offset `i` of a byte string (bytes past its end read as zero). -/
def getLe32 (p : List UInt8) (i : ℕ) : UInt32 :=
  word (p.getD i 0) (p.getD (i + 1) 0) (p.getD (i + 2) 0) (p.getD (i + 3) 0)

/-- The half-word at offset `i` of a byte string. -/
def getLe16 (p : List UInt8) (i : ℕ) : UInt16 :=
  (p.getD i 0).toUInt16 ||| ((p.getD (i + 1) 0).toUInt16 <<< 8)

@[simp]
lemma le32_length (v : UInt32) : (le32 v).length = 4 := rfl

/-- Loading what was stored gives the word back. -/
@[simp]
lemma word_le32 (v : UInt32) :
    word v.toUInt8 (v >>> 8).toUInt8 (v >>> 16).toUInt8 (v >>> 24).toUInt8 = v := by
  apply UInt32.toBitVec_inj.mp
  refine BitVec.eq_of_getLsbD_eq fun i hi => ?_
  simp only [word, UInt32.toBitVec_or, UInt32.toBitVec_shiftLeft, UInt8.toBitVec_toUInt32,
    UInt32.toBitVec_toUInt8, UInt32.toBitVec_shiftRight]
  interval_cases i <;> simp

lemma getLe32_append_left (p q : List UInt8) (i : ℕ) (h : i + 4 ≤ p.length) :
    getLe32 (p ++ q) i = getLe32 p i := by
  simp only [getLe32]
  rw [List.getD_append _ _ _ _ (by omega), List.getD_append _ _ _ _ (by omega),
    List.getD_append _ _ _ _ (by omega), List.getD_append _ _ _ _ (by omega)]

lemma getLe32_append_right (p q : List UInt8) (i : ℕ) :
    getLe32 (p ++ q) (p.length + i) = getLe32 q i := by
  simp only [getLe32, Nat.add_assoc]
  rw [List.getD_append_right _ _ _ _ (by omega), List.getD_append_right _ _ _ _ (by omega),
    List.getD_append_right _ _ _ _ (by omega), List.getD_append_right _ _ _ _ (by omega)]
  simp

@[simp]
lemma getLe32_le32 (v : UInt32) (q : List UInt8) : getLe32 (le32 v ++ q) 0 = v := by
  simp [getLe32, le32]

end Endian
