import Mathlib.Algebra.Order.Field.Basic
import Mathlib.Algebra.Order.Group.Abs
import Mathlib.Data.List.Forall2
import Mathlib.Tactic.Linarith
import Mathlib.Tactic.Ring

/-!
# Linear recurrences

A linear filter as a difference equation: the next output is a combination of the inputs up to now
and of the outputs before.  Two equations with close coefficients have close next outputs, whatever
bounded signals they are given.
-/

/-- A difference equation: the coefficients of the inputs and of the earlier outputs, the most
recent first. -/
structure Recurrence (K : Type*) where
  forward : List K
  feedback : List K
deriving DecidableEq

namespace Recurrence

variable {K : Type*} [Field K]

/-- The combination of a signal with a list of coefficients. -/
def combine : List K → (ℕ → K) → K
  | [], _ => 0
  | c :: cs, f => c * f 0 + combine cs fun k => f (k + 1)

/-- The next output, from the inputs up to now and the outputs up to the one before. -/
def next (r : Recurrence K) (xs ys : ℕ → K) : K :=
  combine r.forward xs + combine r.feedback ys

variable [LinearOrder K] [IsStrictOrderedRing K] {ε M : K}

/-- As many coefficients of each kind, and none further than `ε` from its counterpart. -/
structure Near (ε : K) (r s : Recurrence K) : Prop where
  forward : List.Forall₂ (fun c d => |c - d| ≤ ε) r.forward s.forward
  feedback : List.Forall₂ (fun c d => |c - d| ≤ ε) r.feedback s.feedback

/-- Combinations of a bounded signal with close coefficients. -/
lemma abs_combine_sub_le {cs ds : List K} (h : List.Forall₂ (fun c d => |c - d| ≤ ε) cs ds)
    {f : ℕ → K} (hf : ∀ k, |f k| ≤ M) :
    |combine cs f - combine ds f| ≤ cs.length * (ε * M) := by
  induction h generalizing f with
  | nil => simp [combine]
  | @cons c d cs ds hcd _ ih =>
    have hhead : |(c - d) * f 0| ≤ ε * M := by
      rw [abs_mul]
      exact mul_le_mul hcd (hf 0) (abs_nonneg _) ((abs_nonneg _).trans hcd)
    have htail := ih fun k => hf (k + 1)
    have hsplit : combine (c :: cs) f - combine (d :: ds) f =
        (c - d) * f 0 + (combine cs (fun k => f (k + 1)) - combine ds fun k => f (k + 1)) := by
      simp only [combine]
      ring
    rw [hsplit]
    calc |(c - d) * f 0 + (combine cs (fun k => f (k + 1)) - combine ds fun k => f (k + 1))|
        ≤ |(c - d) * f 0| + |combine cs (fun k => f (k + 1)) - combine ds fun k => f (k + 1)| :=
          abs_add_le _ _
      _ ≤ ε * M + cs.length * (ε * M) := add_le_add hhead htail
      _ = (c :: cs).length * (ε * M) := by
        rw [List.length_cons]
        push_cast
        ring

/-- The next outputs of two close equations on the same bounded history. -/
lemma Near.next {r s : Recurrence K} (h : Near ε r s) {xs ys : ℕ → K} (hx : ∀ k, |xs k| ≤ M)
    (hy : ∀ k, |ys k| ≤ M) :
    |r.next xs ys - s.next xs ys| ≤ (r.forward.length + r.feedback.length : ℕ) * (ε * M) := by
  have hsplit : r.next xs ys - s.next xs ys =
      (combine r.forward xs - combine s.forward xs) +
        (combine r.feedback ys - combine s.feedback ys) := by
    simp only [Recurrence.next]
    ring
  rw [hsplit]
  calc |(combine r.forward xs - combine s.forward xs) +
        (combine r.feedback ys - combine s.feedback ys)|
      ≤ |combine r.forward xs - combine s.forward xs| +
        |combine r.feedback ys - combine s.feedback ys| := abs_add_le _ _
    _ ≤ r.forward.length * (ε * M) + r.feedback.length * (ε * M) :=
      add_le_add (abs_combine_sub_le h.forward hx) (abs_combine_sub_le h.feedback hy)
    _ = (r.forward.length + r.feedback.length : ℕ) * (ε * M) := by
      push_cast
      ring

end Recurrence
