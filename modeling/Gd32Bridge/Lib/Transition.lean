import Mathlib.Data.List.Basic

/-!
# Labelled transition systems with a partial step function

A system is given by a partial function `step : σ → ι → Option σ`: the label says what happens
(an event, an environment choice), `none` that it cannot happen here.  A run may be restricted
by a side condition `ok` on its steps, and watched by a history variable that is updated from
each step but never looked at by it.
-/

namespace Transition

variable {σ ι η : Type*} {step : σ → ι → Option σ} {init init' : σ → Prop}
  {ok ok' : σ → ι → σ → Prop}

/-- The states reached from `init` by runs all of whose steps satisfy `ok`. -/
inductive Reach (step : σ → ι → Option σ) (init : σ → Prop) (ok : σ → ι → σ → Prop) : σ → Prop
  | start {s : σ} (h : init s) : Reach step init ok s
  | next {s s' : σ} (l : ι) (hr : Reach step init ok s) (hs : step s l = some s')
      (hok : ok s l s') : Reach step init ok s'

/-! ### The invariant rule -/

/-- What holds initially and is preserved by every allowed step holds of every reachable state.
The step case may use that the state before is itself reachable. -/
theorem Reach.invariant {I : σ → Prop} (h₀ : ∀ s, init s → I s)
    (hstep : ∀ s l s', Reach step init ok s → I s → step s l = some s' → ok s l s' → I s')
    {s : σ} (h : Reach step init ok s) : I s := by
  induction h with
  | start h => exact h₀ _ h
  | next l hr hs hok ih => exact hstep _ l _ hr ih hs hok

/-- More initial states and a weaker side condition reach at least as much. -/
lemma Reach.mono (hinit : ∀ s, init s → init' s) (himp : ∀ s l s', ok s l s' → ok' s l s') {s : σ}
    (h : Reach step init ok s) : Reach step init' ok' s := by
  induction h with
  | start h => exact .start (hinit _ h)
  | next l _ hs hok ih => exact .next l ih hs (himp _ _ _ hok)

/-! ### Running a list of labels -/

/-- Take the labels one after the other, stopping at the first step that is impossible or that
the test `chk` refuses. -/
def run (step : σ → ι → Option σ) (chk : σ → ι → σ → Bool) (s : σ) : List ι → Option σ
  | [] => some s
  | l :: ls =>
    match step s l with
    | none => none
    | some s' => if chk s l s' then run step chk s' ls else none

@[simp]
lemma run_nil (chk : σ → ι → σ → Bool) (s : σ) : run step chk s [] = some s := rfl

lemma run_cons_eq_some {chk : σ → ι → σ → Bool} {s t : σ} {l : ι} {ls : List ι}
    (h : run step chk s (l :: ls) = some t) :
    ∃ s', step s l = some s' ∧ chk s l s' = true ∧ run step chk s' ls = some t := by
  simp only [run] at h
  split at h
  · cases h
  · next s' hs =>
    split_ifs at h with hc
    exact ⟨s', hs, hc, h⟩

lemma run_append (chk : σ → ι → σ → Bool) (s : σ) (ls ls' : List ι) :
    run step chk s (ls ++ ls') = (run step chk s ls).bind fun t => run step chk t ls' := by
  induction ls generalizing s with
  | nil => rfl
  | cons l ls ih =>
    simp only [List.cons_append, run]
    cases step s l with
    | none => rfl
    | some s' =>
      simp only
      split_ifs
      · exact ih s'
      · rfl

/-- One run after the other. -/
lemma run_trans {chk : σ → ι → σ → Bool} {s t u : σ} {ls ls' : List ι}
    (h : run step chk s ls = some t) (h' : run step chk t ls' = some u) :
    run step chk s (ls ++ ls') = some u := by
  rw [run_append, h]
  exact h'

/-- A run starts with a step. -/
lemma run_cons {chk : σ → ι → σ → Bool} {s s' u : σ} {l : ι} {ls : List ι}
    (hs : step s l = some s') (hc : chk s l s' = true) (h : run step chk s' ls = some u) :
    run step chk s (l :: ls) = some u := by
  simp only [run, hs, hc, if_true]
  exact h

/-- A completed run ends in a reachable state. -/
theorem Reach.of_run {chk : σ → ι → σ → Bool} (hchk : ∀ s l s', chk s l s' = true → ok s l s')
    {s t : σ} {ls : List ι} (hs : Reach step init ok s) (h : run step chk s ls = some t) :
    Reach step init ok t := by
  induction ls generalizing s with
  | nil =>
    cases h
    exact hs
  | cons l ls ih =>
    obtain ⟨s', hstep, hc, hrest⟩ := run_cons_eq_some h
    exact ih (.next l hs hstep (hchk _ _ _ hc)) hrest

/-- A completed run that ends in a state with `q` reaches such a state. -/
lemma Reach.exists_of_run {s : σ} (hs : Reach step init ok s) (chk : σ → ι → σ → Bool)
    (q : σ → Bool) (ls : List ι) (hchk : ∀ s l s', chk s l s' = true → ok s l s')
    (h : (run step chk s ls).any q = true) : ∃ t, Reach step init ok t ∧ q t = true := by
  obtain ⟨t, ht, hq⟩ := (Option.any_eq_true _ _).mp h
  exact ⟨t, .of_run hchk hs ht, hq⟩

/-! ### History variables -/

/-- The system that also carries a history `η`, updated by `upd` at each step. -/
def withHistory (step : σ → ι → Option σ) (upd : η → σ → ι → σ → η) :
    σ × η → ι → Option (σ × η) :=
  fun p l => (step p.1 l).map fun s' => (s', upd p.2 p.1 l s')

lemma withHistory_eq_some {upd : η → σ → ι → σ → η} {p q : σ × η} {l : ι} :
    withHistory step upd p l = some q ↔ step p.1 l = some q.1 ∧ q.2 = upd p.2 p.1 l q.1 := by
  constructor
  · intro h
    obtain ⟨s', hs, rfl⟩ := Option.map_eq_some_iff.mp h
    exact ⟨hs, rfl⟩
  · rintro ⟨hs, hq⟩
    simp only [withHistory, hs, Option.map_some, ← hq]

/-- Forgetting the history gives a run of the plain system. -/
lemma Reach.forget {upd : η → σ → ι → σ → η} {init' : σ × η → Prop}
    (hinit : ∀ p, init' p → init p.1) {p : σ × η}
    (h : Reach (withHistory step upd) init' (fun p l q => ok p.1 l q.1) p) :
    Reach step init ok p.1 := by
  induction h with
  | start h => exact .start (hinit _ h)
  | next l _ hs hok ih => exact .next l ih (withHistory_eq_some.mp hs).1 hok

/-- Every plain run carries some history. -/
lemma Reach.remember {s : σ} (h : Reach step init ok s) (upd : η → σ → ι → σ → η)
    (init' : σ × η → Prop) (hinit : ∀ s, init s → ∃ x, init' (s, x)) :
    ∃ x, Reach (withHistory step upd) init' (fun p l q => ok p.1 l q.1) (s, x) := by
  induction h with
  | start h =>
    obtain ⟨x, hx⟩ := hinit _ h
    exact ⟨x, .start hx⟩
  | next l _ hs hok ih =>
    obtain ⟨x, hx⟩ := ih
    exact ⟨upd x _ l _, .next l hx (withHistory_eq_some.mpr ⟨hs, rfl⟩) hok⟩

end Transition
