import Mathlib.Algebra.Group.Nat.Defs
import Mathlib.Data.Nat.Notation
import Mathlib.Tactic.Common

/-!
# Checked machine arithmetic

Operations on natural numbers that are defined only where the machine operation of a given width
gives the mathematical result.  A computation written in them and shown to be defined has neither
overflowed nor divided by zero.
-/

namespace Checked

variable {w a b : ℕ}

/-- A value of width `w`. -/
def fit (w a : ℕ) : Option ℕ := if a < 2 ^ w then some a else none

def add (w a b : ℕ) : Option ℕ := fit w (a + b)

def mul (w a b : ℕ) : Option ℕ := fit w (a * b)

def sub (a b : ℕ) : Option ℕ := if b ≤ a then some (a - b) else none

def div (a b : ℕ) : Option ℕ := if b = 0 then none else some (a / b)

lemma fit_of_lt (h : a < 2 ^ w) : fit w a = some a := if_pos h

lemma add_of_lt (h : a + b < 2 ^ w) : add w a b = some (a + b) := if_pos h

lemma mul_of_lt (h : a * b < 2 ^ w) : mul w a b = some (a * b) := if_pos h

lemma sub_of_le (h : b ≤ a) : sub a b = some (a - b) := if_pos h

lemma div_of_pos (h : 0 < b) : div a b = some (a / b) := if_neg (Nat.ne_of_gt h)

end Checked
