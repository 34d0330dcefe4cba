import Mathlib.Data.List.TakeDrop

/-!
# Reading a list out, padded at the end

`List.takeD` one element at a time, as a cursor runs over a list and past its end.
-/

namespace List

variable {α : Type*}

lemma takeD_succ_append (l : List α) (n : ℕ) (a : α) :
    l.takeD (n + 1) a = l.takeD n a ++ [(l.drop n).headD a] := by
  induction n generalizing l with
  | zero => cases l <;> rfl
  | succ n ih =>
    rw [List.takeD, ih l.tail]
    cases l <;> simp [List.takeD]

/-- What has been read first is a shorter reading. -/
lemma eq_takeD_of_append_eq {l xs ys : List α} {n : ℕ} {a : α} (h : xs ++ ys = l.takeD n a) :
    xs = l.takeD xs.length a := by
  induction xs generalizing l n with
  | nil => rfl
  | cons x xs ih =>
    cases n with
    | zero => cases h
    | succ n =>
      rw [List.cons_append, List.takeD, List.cons.injEq] at h
      rw [List.length_cons, List.takeD, ← h.1, ← ih h.2]

end List
