import Mathlib.Data.Set.Function
import Mathlib.Data.Set.Lattice
import Mathlib.Order.CompletePartialOrder
import Mathlib.Order.Interval.Set.Basic

/-!
# Memories as functions on addresses

A memory is a total function from addresses to cells.  The only way to change one is `overlay`,
which replaces a window of addresses, and the only way to look at a stretch of it is `read`.
What a piece of code leaves alone is said with `Unchanged R m m'`: the memories `m` and `m'`
agree outside the region `R`.
-/

namespace Memory

variable {α β : Type*}

/-- The memory `m` with the window `[lo, lo + n)` taken from `c`. -/
def overlay (m : ℕ → α) (lo n : ℕ) (c : ℕ → α) : ℕ → α :=
  fun a => if lo ≤ a ∧ a < lo + n then c a else m a

/-- The `n` cells from `lo` on, in address order. -/
def read (m : ℕ → α) (lo n : ℕ) : List α :=
  (List.range n).map fun i => m (lo + i)

/-- `m` and `m'` differ at most inside `R`. -/
def Unchanged (R : Set ℕ) (m m' : ℕ → α) : Prop :=
  Set.EqOn m' m Rᶜ

/-! ### Overlays -/

lemma overlay_of_mem {m c : ℕ → α} {lo n a : ℕ} (h : a ∈ Set.Ico lo (lo + n)) :
    overlay m lo n c a = c a :=
  if_pos h

lemma overlay_of_not_mem {m c : ℕ → α} {lo n a : ℕ} (h : a ∉ Set.Ico lo (lo + n)) :
    overlay m lo n c a = m a :=
  if_neg h

/-- An overlay with the memory's own content changes nothing. -/
@[simp]
lemma overlay_self (m : ℕ → α) (lo n : ℕ) : overlay m lo n m = m := by
  ext a
  simp [overlay]

lemma overlay_unchanged (m c : ℕ → α) (lo n : ℕ) :
    Unchanged (Set.Ico lo (lo + n)) m (overlay m lo n c) :=
  fun _ ha => overlay_of_not_mem ha

/-! ### Frames -/

@[refl]
lemma Unchanged.refl (R : Set ℕ) (m : ℕ → α) : Unchanged R m m :=
  fun _ _ => rfl

lemma Unchanged.trans {R : Set ℕ} {m₁ m₂ m₃ : ℕ → α}
    (h₁ : Unchanged R m₁ m₂) (h₂ : Unchanged R m₂ m₃) : Unchanged R m₁ m₃ :=
  fun _ ha => (h₂ ha).trans (h₁ ha)

lemma Unchanged.mono {R S : Set ℕ} {m m' : ℕ → α} (hRS : R ⊆ S) (h : Unchanged R m m') :
    Unchanged S m m' :=
  fun _ ha => h fun haR => ha (hRS haR)

lemma Unchanged.apply {R : Set ℕ} {m m' : ℕ → α} (h : Unchanged R m m') {a : ℕ} (ha : a ∉ R) :
    m' a = m a :=
  h ha

/-! ### Reads -/

@[simp]
lemma read_length (m : ℕ → α) (lo n : ℕ) : (read m lo n).length = n := by
  simp [read]

@[simp]
lemma read_zero (m : ℕ → α) (lo : ℕ) : read m lo 0 = [] := by
  simp [read]

lemma read_getElem (m : ℕ → α) (lo n i : ℕ) (h : i < (read m lo n).length) :
    (read m lo n)[i] = m (lo + i) := by
  simp [read]

lemma read_add (m : ℕ → α) (lo n k : ℕ) :
    read m lo (n + k) = read m lo n ++ read m (lo + n) k := by
  simp only [read, List.range_add, List.map_append, List.map_map]
  congr 1
  refine List.map_congr_left fun i _ => ?_
  simp [Nat.add_assoc]

/-- A read only looks at its own window. -/
lemma read_congr {m m' : ℕ → α} {lo n : ℕ} (h : ∀ a, lo ≤ a → a < lo + n → m' a = m a) :
    read m' lo n = read m lo n := by
  refine List.map_congr_left fun i hi => ?_
  have hi : i < n := List.mem_range.mp hi
  exact h _ (by omega) (by omega)

/-- A read of a window that lies outside the changed region gives what it gave before. -/
lemma Unchanged.read_eq {R : Set ℕ} {m m' : ℕ → α} (h : Unchanged R m m') {lo n : ℕ}
    (hd : Disjoint (Set.Ico lo (lo + n)) R) : read m' lo n = read m lo n :=
  read_congr fun _ hlo hhi => h (Set.disjoint_left.mp hd ⟨hlo, hhi⟩)

end Memory
