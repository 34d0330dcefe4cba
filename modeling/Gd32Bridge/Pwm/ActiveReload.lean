import Gd32Bridge.Lib.Transition
import Gd32Bridge.Pwm.Reload
import Mathlib.Data.Nat.ModEq

/-!
# The mirror of the reload

The update flag and the one pending write are enough to know the reload in use: whatever the order
of update events and calls, a call that has settled the mirror leaves it equal to it.  What a drain
computes with it is the time between two edges as long as the counter was not disturbed from the
first edge up to the drain of the second.
-/

namespace Gd32Bridge

open Transition

variable {s s' : ReloadTimer}

/-! ### The mirror and the pending write -/

/-- The reload that the next update event brings. -/
def ReloadTimer.expected (s : ReloadTimer) : ℕ :=
  if s.pendingValid then s.pendingCar else s.activeCar

/-- The reload in use, as far as the flag and the variables tell. -/
def ReloadTimer.inferred (s : ReloadTimer) : ℕ := if s.upif then s.expected else s.activeCar

/-- What is known at each point of a call. -/
def ReloadTimer.Tracked (s : ReloadTimer) : Prop :=
  match s.pc with
  | .setMask _ saved => s.updis = false ∧ s.car = s.expected ∧ s.carActive = s.inferred ∧
      saved = false
  | .setCar _ saved | .setRestore saved => s.updis = true ∧ s.car = s.expected ∧
      s.carActive = s.inferred ∧ saved = false
  | .setSample arr saved => s.updis = true ∧ s.car = arr ∧ s.carActive = s.inferred ∧ saved = false
  | .setClear arr saved => s.updis = true ∧ s.car = arr ∧ s.carActive = s.expected ∧ saved = false
  | .setCommit arr saved => s.updis = true ∧ s.car = arr ∧ s.carActive = s.expected ∧
      s.upif = false ∧ saved = false
  | .setPending arr saved => s.updis = true ∧ s.car = arr ∧ s.carActive = s.activeCar ∧
      s.upif = false ∧ saved = false
  | .forceUpg _ arr => s.updis = false ∧ s.car = arr
  | .forceClear _ arr | .forceCommit _ arr => s.updis = false ∧ s.car = arr ∧ s.carActive = arr
  | .drainClearUp _ _ | .drainCommit _ _ => s.updis = false ∧ s.car = s.expected ∧
      s.carActive = s.expected
  | _ => s.updis = false ∧ s.car = s.expected ∧ s.carActive = s.inferred

/-- What a tick can do. -/
lemma ReloadTimer.tick_cases (s : ReloadTimer) :
    (s.cen = false ∧ s.tick = s) ∨
      (s.cen = true ∧ s.cnt = s.carActive ∧ s.updis = true ∧ s.tick = { s with cnt := 0 }) ∨
      (s.cen = true ∧ s.cnt = s.carActive ∧ s.updis = false ∧
        s.tick = { s.update with cen := !s.spm }) ∨
      (s.cen = true ∧ s.cnt ≠ s.carActive ∧ s.tick = { s with cnt := s.cnt + 1 }) := by
  rw [tick]
  cases hcen : s.cen with
  | false => exact .inl ⟨rfl, if_pos (by simp)⟩
  | true =>
    rw [if_neg (by simp)]
    by_cases hcnt : s.cnt = s.carActive
    · rw [if_pos hcnt]
      cases hu : s.updis with
      | true => exact .inr (.inl ⟨rfl, hcnt, rfl, rfl⟩)
      | false => exact .inr (.inr (.inl ⟨rfl, hcnt, rfl, rfl⟩))
    · rw [if_neg hcnt]
      exact .inr (.inr (.inr ⟨rfl, hcnt, rfl⟩))

/-- The counter has no part in it. -/
lemma ReloadTimer.Tracked.count (h : s.Tracked) (cnt : ℕ) : ReloadTimer.Tracked { s with cnt } := h

lemma ReloadTimer.Tracked.tick (h : s.Tracked) : s.tick.Tracked := by
  rcases s.tick_cases with ⟨-, heq⟩ | ⟨-, -, -, heq⟩ | ⟨-, -, hu, heq⟩ | ⟨-, -, heq⟩
  · rw [heq]
    exact h
  · rw [heq]
    exact h.count 0
  · -- an update event brings what is expected, outside of a transaction
    rw [heq]
    simp only [ReloadTimer.Tracked] at h ⊢
    simp only [ReloadTimer.update, ReloadTimer.inferred, ReloadTimer.expected, if_true] at h ⊢
    cases hpc : s.pc <;> rw [hpc] at h <;> simp only [hu, true_and] at h ⊢
    all_goals first
      | exact absurd h.1 (by decide)
      | exact ⟨h.1, h.1, h.2.2⟩
      | exact ⟨h.1, h.1⟩
      | exact h
  · rw [heq]
    exact h.count _

lemma ReloadTimer.Tracked.edge (h : s.Tracked) (ch : ℕ) : (s.edge ch).Tracked := h

/-- Settling the pending write. -/
lemma ReloadTimer.consumed_expected (s : ReloadTimer) :
    s.consumed.activeCar = s.expected ∧ s.consumed.expected = s.expected := by
  cases hv : s.pendingValid with
  | true => simp [consumed, expected, hv]
  | false => simp [consumed, expected, hv]

lemma ReloadTimer.consumed_regs (s : ReloadTimer) : s.consumed.updis = s.updis ∧
    s.consumed.car = s.car ∧ s.consumed.carActive = s.carActive ∧ s.consumed.upif = s.upif ∧
    s.consumed.cnt = s.cnt ∧ s.consumed.capture = s.capture ∧ s.consumed.pc = s.pc := by
  simp only [consumed]
  split_ifs
  · exact ⟨rfl, rfl, rfl, rfl, rfl, rfl, rfl⟩
  · exact ⟨rfl, rfl, rfl, rfl, rfl, rfl, rfl⟩

/-- One access of a call. -/
lemma ReloadTimer.Tracked.go (h : s.Tracked) (hs : s.go = some s') : s'.Tracked := by
  simp only [ReloadTimer.Tracked] at h
  simp only [ReloadTimer.go] at hs
  cases hpc : s.pc <;> rw [hpc] at h hs <;> simp only [Option.some.injEq, reduceCtorEq] at h hs <;>
    subst hs
  case setMode w arr =>
    cases w
    · exact h
    · exact h
  case setSave arr => exact ⟨h.1, h.2.1, h.2.2, h.1⟩
  case setMask arr saved => exact ⟨rfl, h.2.1, h.2.2.1, h.2.2.2⟩
  case setCar arr saved => exact ⟨h.1, rfl, h.2.2.1, h.2.2.2⟩
  case setSample arr saved =>
    obtain ⟨hu, hcar, hact, hsaved⟩ := h
    cases hf : s.upif with
    | true =>
      rw [ReloadTimer.inferred, hf] at hact
      exact ⟨hu, hcar, hact, hsaved⟩
    | false =>
      rw [ReloadTimer.inferred, hf] at hact
      exact ⟨hu, hcar, hact, hf, hsaved⟩
  case setClear arr saved => exact ⟨h.1, h.2.1, h.2.2.1, rfl, h.2.2.2⟩
  case setCommit arr saved =>
    obtain ⟨hu, hcar, hact, hf, hsaved⟩ := h
    obtain ⟨cu, ccar, cact, cf, -, -, -⟩ := s.consumed_regs
    exact ⟨cu.trans hu, ccar.trans hcar, (cact.trans hact).trans s.consumed_expected.1.symm,
      cf.trans hf, hsaved⟩
  case setPending arr saved =>
    obtain ⟨hu, hcar, hact, hf, hsaved⟩ := h
    refine ⟨hu, hcar, ?_, hsaved⟩
    simp only [ReloadTimer.goto, ReloadTimer.inferred, hf, Bool.false_eq_true, if_false]
    exact hact
  case setRestore saved => exact ⟨h.2.2.2, h.2.1, h.2.2.1⟩
  case pulseDisable arr => exact h
  case pulseCount arr => exact h
  case forceCar pulse arr => exact ⟨h.1, rfl⟩
  case forceUpg pulse arr => exact ⟨h.1, h.2, h.2⟩
  case forceClear pulse arr => exact h
  case forceCommit pulse arr =>
    obtain ⟨hu, hcar, hact⟩ := h
    have hsettled (f : Bool) : s.carActive = if f then arr else arr := by
      cases f
      · exact hact
      · exact hact
    cases pulse
    · exact ⟨hu, hcar, hsettled s.upif⟩
    · exact ⟨hu, hcar, hsettled s.upif⟩
  case pulseMode => exact h
  case enable => exact h
  case drainFlag ch =>
    cases (s.capture ch).flag
    · exact h
    · exact h
  case drainRead ch => exact h
  case drainClear ch now => exact h
  case drainSample ch now =>
    cases hf : s.upif with
    | true =>
      obtain ⟨hu, hcar, hact⟩ := h
      rw [ReloadTimer.inferred, hf] at hact
      exact ⟨hu, hcar, hact⟩
    | false => exact h
  case drainClearUp ch now => exact h
  case drainCommit ch now =>
    obtain ⟨hu, hcar, hact⟩ := h
    obtain ⟨cu, ccar, cact, cf, -, -, -⟩ := s.consumed_regs
    obtain ⟨cactive, cexpected⟩ := s.consumed_expected
    refine ⟨cu.trans hu, (ccar.trans hcar).trans cexpected.symm, ?_⟩
    have hboth : s.consumed.carActive = s.consumed.inferred := by
      rw [cact, hact, ReloadTimer.inferred, cexpected, cactive]
      exact (ite_self _).symm
    exact hboth

/-! ### What is remembered -/

/-- An edge: its time in ticks, the count and the period at it; whether the reload in use has stayed
the `same` since, whether also no counter reset came in between (`clean`), and the same of the time
from the edge drained before it. -/
structure Stamp where
  time : ℕ
  value : ℕ
  period : ℕ
  same : Bool
  clean : Bool
  between : Bool
deriving DecidableEq, Repr

/-- A difference computed by a drain, beside the ticks of the running counter between the two edges;
whether the counter was left alone between the edges, and what became of it from the first edge to
the drain of the second. -/
structure Span where
  delta : ℕ
  ticks : ℕ
  period : ℕ
  between : Bool
  same : Bool
  clean : Bool
deriving DecidableEq, Repr

/-- The ticks the counter has run; for each channel the latest edge, the one that was read and the
one drained last; the differences, and the mirror beside the reload in use each time it was
settled. -/
structure ReloadHistory where
  now : ℕ
  edge : ℕ → Stamp
  read : ℕ → Stamp
  last : ℕ → Stamp
  spans : List Span
  samples : List (ℕ × ℕ)

def ReloadHistory.boot : ReloadHistory :=
  ⟨0, fun _ => ⟨0, 0, 0, false, false, false⟩, fun _ => ⟨0, 0, 0, false, false, false⟩,
    fun _ => ⟨0, 0, 0, false, false, false⟩, [], []⟩

def Stamp.soil (t : Stamp) (same : Bool) : Stamp :=
  { t with same := t.same && same, clean := false }

/-- The counter has been reset or its reload changed. -/
def ReloadHistory.soil (h : ReloadHistory) (same : Bool) : ReloadHistory :=
  { h with
    edge := fun ch => (h.edge ch).soil same
    read := fun ch => (h.read ch).soil same
    last := fun ch => (h.last ch).soil same }

/-- The mirror is settled. -/
def ReloadHistory.sample (h : ReloadHistory) (s : ReloadTimer) : ReloadHistory :=
  { h with samples := (s.activeCar, s.carActive) :: h.samples }

/-- A drain has settled the mirror and computes its difference. -/
def ReloadHistory.drained (h : ReloadHistory) (s : ReloadTimer) (ch now : ℕ) : ReloadHistory :=
  { h.sample s with
    last := Function.update h.last ch (h.read ch)
    spans :=
      if (s.capture ch).state ≠ 0 then
        ⟨s.delta ch now, (h.read ch).time - (h.last ch).time, (h.read ch).period,
          (h.read ch).between, (h.last ch).same, (h.last ch).clean⟩ :: h.spans
      else h.spans }

/-- What one access adds. -/
def ReloadHistory.go (h : ReloadHistory) (s : ReloadTimer) : ReloadHistory :=
  match s.pc with
  | .setSample _ _ => if s.upif then h else h.sample s
  | .setCommit _ _ => h.sample s.consumed
  | .forceCommit _ arr => h.sample { s with activeCar := arr, pendingValid := false }
  | .drainRead ch => { h with read := Function.update h.read ch (h.edge ch) }
  | .drainSample ch now => if s.upif then h else h.drained s ch now
  | .drainCommit ch now => h.drained s.consumed ch now
  | .pulseCount _ => h.soil true
  | .forceUpg _ _ => h.soil (s.car = s.carActive)
  | _ => h

/-- What a step adds.  The time is that of the counter: while `CEN` is off it stands still, so that
the ticks of a span leave out every stretch in which the counter was disabled. -/
def ReloadHistory.note (h : ReloadHistory) (s : ReloadTimer) (op : ReloadOp) (s' : ReloadTimer) :
    ReloadHistory :=
  match op with
  | .tick =>
    let h := { h with now := if s.cen then h.now + 1 else h.now }
    if s'.carActive = s.carActive then h else h.soil false
  | .edge ch =>
    { h with
      edge := Function.update h.edge ch
        ⟨h.now, s.cnt, s.carActive + 1, true, true, (h.last ch).clean⟩ }
  | .go => h.go s
  | _ => h

/-! ### Edges and the counter -/

/-- The count is as many ticks past that of the edge as there were since. -/
structure Stamp.Tracks (t : Stamp) (s : ReloadTimer) (now : ℕ) : Prop where
  past : t.time ≤ now
  value : t.clean = true → t.value ≤ s.carActive
  period : t.clean = true → t.period = s.carActive + 1
  count : t.clean = true → s.cnt ≡ t.value + (now - t.time) [MOD s.carActive + 1]

variable {t : Stamp} {now : ℕ}

lemma Stamp.Tracks.of_eq (h : t.Tracks s now) (hcnt : s'.cnt = s.cnt)
    (hact : s'.carActive = s.carActive) : t.Tracks s' now := by
  refine ⟨h.past, fun hc => ?_, fun hc => ?_, fun hc => ?_⟩
  · rw [hact]
    exact h.value hc
  · rw [hact]
    exact h.period hc
  · rw [hact, hcnt]
    exact h.count hc

lemma Stamp.tracks_soil (hpast : t.time ≤ now) (same : Bool) : (t.soil same).Tracks s now :=
  ⟨hpast, fun hc => absurd hc Bool.false_ne_true, fun hc => absurd hc Bool.false_ne_true,
    fun hc => absurd hc Bool.false_ne_true⟩

/-- A tick that leaves the reload alone. -/
lemma Stamp.Tracks.tick (h : t.Tracks s now) (hact : s.tick.carActive = s.carActive) :
    t.Tracks s.tick (if s.cen then now + 1 else now) := by
  rcases s.tick_cases with ⟨hcen, heq⟩ | hrest
  · rw [heq, hcen]
    exact h
  have hcen : s.cen = true := by
    rcases hrest with ⟨hc, -⟩ | ⟨hc, -⟩ | ⟨hc, -⟩
    · exact hc
    · exact hc
    · exact hc
  have hcnt : s.tick.cnt ≡ s.cnt + 1 [MOD s.carActive + 1] := by
    have hwrap (hc : s.cnt = s.carActive) : 0 ≡ s.cnt + 1 [MOD s.carActive + 1] := by
      rw [hc]
      exact (Nat.modEq_zero_iff_dvd.mpr (dvd_refl _)).symm
    rcases hrest with ⟨-, hc, -, heq⟩ | ⟨-, hc, -, heq⟩ | ⟨-, -, heq⟩
    · rw [heq]
      exact hwrap hc
    · rw [heq]
      exact hwrap hc
    · rw [heq]
  rw [hcen]
  refine ⟨Nat.le_succ_of_le h.past, fun hc => ?_, fun hc => ?_, fun hc => ?_⟩
  · rw [hact]
    exact h.value hc
  · rw [hact]
    exact h.period hc
  · rw [hact]
    have hadd : t.value + (now + 1 - t.time) = t.value + (now - t.time) + 1 := by
      have := h.past
      omega
    show s.tick.cnt ≡ t.value + (now + 1 - t.time) [MOD s.carActive + 1]
    rw [hadd]
    exact hcnt.trans ((h.count hc).add_right 1)

/-- The difference of a drain, when the mirror is right. -/
lemma span_eq {a last v span : ℕ} (hlast : last ≤ a) (hv : v ≤ a) (hspan : span < a + 1)
    (hmod : v ≡ last + span [MOD a + 1]) : (v + (a + 1) - last % (a + 1)) % (a + 1) = span := by
  rw [Nat.mod_eq_of_lt (Nat.lt_succ_of_le hlast)]
  have hveq : v = (last + span) % (a + 1) := by
    rw [← hmod, Nat.mod_eq_of_lt (Nat.lt_succ_of_le hv)]
  by_cases hlt : last + span < a + 1
  · rw [Nat.mod_eq_of_lt hlt] at hveq
    have heq : v + (a + 1) - last = span + (a + 1) := by omega
    rw [heq, Nat.add_mod_right, Nat.mod_eq_of_lt hspan]
  · rw [Nat.mod_eq_sub_mod (Nat.not_lt.mp hlt),
      Nat.mod_eq_of_lt (by omega : last + span - (a + 1) < a + 1)] at hveq
    have heq : v + (a + 1) - last = span := by omega
    rw [heq, Nat.mod_eq_of_lt hspan]

/-! ### Runs -/

/-- The value a drain in progress has read. -/
def ReloadPc.reads : ReloadPc → Option (ℕ × ℕ)
  | .drainClear ch now | .drainSample ch now | .drainClearUp ch now | .drainCommit ch now =>
    some (ch, now)
  | _ => none

/-- The edges are in order, and each is clean if an earlier one is. -/
structure ReloadHistory.Ordered (h : ReloadHistory) (ch : ℕ) : Prop where
  last_le : (h.last ch).time ≤ (h.read ch).time
  read_le : (h.read ch).time ≤ (h.edge ch).time
  last_clean : (h.last ch).clean = true → (h.read ch).clean = true
  read_clean : (h.read ch).clean = true → (h.edge ch).clean = true

/-- The edges against the counter and against the capture units. -/
structure EdgesTracked (s : ReloadTimer) (h : ReloadHistory) : Prop where
  edge : ∀ ch, (h.edge ch).Tracks s h.now
  read : ∀ ch, (h.read ch).Tracks s h.now
  last : ∀ ch, (h.last ch).Tracks s h.now
  ordered : ∀ ch, h.Ordered ch
  value : ∀ ch, (s.capture ch).value = (h.edge ch).value
  reads : ∀ ch now, s.pc.reads = some (ch, now) → now = (h.read ch).value
  lastTick : ∀ ch, (s.capture ch).state ≠ 0 → (s.capture ch).lastTick = (h.last ch).value

/-- What the claim of a run comes to. -/
structure ReloadRight (h : ReloadHistory) : Prop where
  samples : ∀ p ∈ h.samples, p.1 = p.2
  spans : ∀ x ∈ h.spans, x.clean = true → x.ticks < x.period → x.delta = x.ticks

structure ReloadInv (x : ReloadTimer × ReloadHistory) : Prop where
  tracked : x.1.Tracked
  bound : x.1.cnt ≤ x.1.carActive
  edges : EdgesTracked x.1 x.2
  right : ReloadRight x.2

variable {h : ReloadHistory}

/-- An access that touches neither the counter nor the edges. -/
lemma EdgesTracked.of_eq (he : EdgesTracked s h) (hcnt : s'.cnt = s.cnt)
    (hact : s'.carActive = s.carActive) (hcap : s'.capture = s.capture)
    (hreads : ∀ ch now, s'.pc.reads = some (ch, now) → now = (h.read ch).value) :
    EdgesTracked s' h := by
  refine ⟨fun ch => (he.edge ch).of_eq hcnt hact, fun ch => (he.read ch).of_eq hcnt hact,
    fun ch => (he.last ch).of_eq hcnt hact, he.ordered, fun ch => ?_, hreads, fun ch => ?_⟩
  · rw [hcap]
    exact he.value ch
  · rw [hcap]
    exact he.lastTick ch

/-- A reset of the counter or a change of its reload. -/
lemma EdgesTracked.soil (he : EdgesTracked s h) (same : Bool) {now : ℕ} (hnow : h.now ≤ now)
    (hcap : s'.capture = s.capture)
    (hreads : ∀ ch now, s'.pc.reads = some (ch, now) → now = (h.read ch).value) :
    EdgesTracked s' (ReloadHistory.soil { h with now } same) := by
  have hpast {t : Stamp} (ht : t.Tracks s h.now) : (t.soil same).Tracks s' now :=
    Stamp.tracks_soil (Nat.le_trans ht.past hnow) same
  refine ⟨fun ch => hpast (he.edge ch), fun ch => hpast (he.read ch), fun ch => hpast (he.last ch),
    fun ch => ?_, fun ch => ?_, hreads, fun ch => ?_⟩
  · exact ⟨(he.ordered ch).last_le, (he.ordered ch).read_le,
      fun hc => absurd hc Bool.false_ne_true, fun hc => absurd hc Bool.false_ne_true⟩
  · rw [hcap]
    exact he.value ch
  · rw [hcap]
    exact he.lastTick ch

lemma ReloadTimer.tick_frame (s : ReloadTimer) :
    s.tick.capture = s.capture ∧ s.tick.pc = s.pc := by
  rcases s.tick_cases with ⟨-, heq⟩ | ⟨-, -, -, heq⟩ | ⟨-, -, -, heq⟩ | ⟨-, -, heq⟩
  all_goals
    rw [heq]
    exact ⟨rfl, rfl⟩

lemma ReloadTimer.tick_bound (hb : s.cnt ≤ s.carActive) : s.tick.cnt ≤ s.tick.carActive := by
  rcases s.tick_cases with ⟨-, heq⟩ | ⟨-, -, -, heq⟩ | ⟨-, -, -, heq⟩ | ⟨-, hne, heq⟩
  · rw [heq]
    exact hb
  · rw [heq]
    exact Nat.zero_le _
  · rw [heq]
    exact Nat.zero_le _
  · rw [heq]
    exact Nat.lt_of_le_of_ne hb hne

lemma ReloadInv.tick (hi : ReloadInv (s, h)) : ReloadInv (s.tick, h.note s .tick s.tick) := by
  obtain ⟨hcap, hpc⟩ := s.tick_frame
  have he := hi.edges
  have hreads : ∀ ch now, s.tick.pc.reads = some (ch, now) → now = (h.read ch).value := by
    rw [hpc]
    exact he.reads
  by_cases hact : s.tick.carActive = s.carActive
  · have hnote : h.note s .tick s.tick = { h with now := if s.cen then h.now + 1 else h.now } :=
      if_pos hact
    rw [hnote]
    refine ⟨hi.tracked.tick, ReloadTimer.tick_bound hi.bound, ?_, hi.right.samples, hi.right.spans⟩
    refine ⟨fun ch => (he.edge ch).tick hact, fun ch => (he.read ch).tick hact,
      fun ch => (he.last ch).tick hact, fun ch => ?_, fun ch => ?_, hreads, fun ch => ?_⟩
    · exact ⟨(he.ordered ch).last_le, (he.ordered ch).read_le, (he.ordered ch).last_clean,
        (he.ordered ch).read_clean⟩
    · rw [hcap]
      exact he.value ch
    · rw [hcap]
      exact he.lastTick ch
  · have hnote : h.note s .tick s.tick =
        ReloadHistory.soil { h with now := if s.cen then h.now + 1 else h.now } false := if_neg hact
    rw [hnote]
    refine ⟨hi.tracked.tick, ReloadTimer.tick_bound hi.bound, ?_, hi.right.samples, hi.right.spans⟩
    refine he.soil false ?_ hcap hreads
    show h.now ≤ if s.cen then h.now + 1 else h.now
    split_ifs
    · exact Nat.le_succ _
    · exact Nat.le_refl _

lemma ReloadInv.edge (hi : ReloadInv (s, h)) (ch : ℕ) :
    ReloadInv (s.edge ch, h.note s (.edge ch) (s.edge ch)) := by
  have he := hi.edges
  have hnew : Stamp.Tracks ⟨h.now, s.cnt, s.carActive + 1, true, true, (h.last ch).clean⟩ s
      h.now := by
    refine ⟨Nat.le_refl _, fun _ => hi.bound, fun _ => rfl, fun _ => ?_⟩
    show s.cnt ≡ s.cnt + (h.now - h.now) [MOD s.carActive + 1]
    rw [Nat.sub_self]
    exact Nat.ModEq.refl _
  refine ⟨hi.tracked.edge ch, hi.bound, ?_, hi.right.samples, hi.right.spans⟩
  simp only [ReloadHistory.note]
  refine ⟨fun c => ?_, fun c => (he.read c).of_eq rfl rfl, fun c => (he.last c).of_eq rfl rfl,
    fun c => ?_, fun c => ?_, he.reads, fun c => ?_⟩
  · by_cases hc : c = ch
    · simp only [hc, Function.update_self]
      exact hnew.of_eq rfl rfl
    · simp only [Function.update_of_ne hc]
      exact (he.edge c).of_eq rfl rfl
  · by_cases hc : c = ch
    · subst hc
      have ho := he.ordered c
      refine ⟨ho.last_le, ?_, ho.last_clean, fun _ => ?_⟩
      · simp only [Function.update_self]
        exact (he.read c).past
      · simp only [Function.update_self]
    · have ho := he.ordered c
      refine ⟨ho.last_le, ?_, ho.last_clean, fun hclean => ?_⟩
      · simp only [Function.update_of_ne hc]
        exact ho.read_le
      · simp only [Function.update_of_ne hc]
        exact ho.read_clean hclean
  · by_cases hc : c = ch
    · subst hc
      simp only [ReloadTimer.edge, ReloadTimer.setCapture, Function.update_self]
    · simp only [ReloadTimer.edge, ReloadTimer.setCapture, Function.update_of_ne hc]
      exact he.value c
  · by_cases hc : c = ch
    · subst hc
      simp only [ReloadTimer.edge, ReloadTimer.setCapture, Function.update_self]
      exact he.lastTick c
    · simp only [ReloadTimer.edge, ReloadTimer.setCapture, Function.update_of_ne hc]
      exact he.lastTick c

lemma ReloadRight.sample (hr : ReloadRight h) (hm : s.activeCar = s.carActive) :
    ReloadRight (h.sample s) := by
  refine ⟨fun p hp => ?_, hr.spans⟩
  rcases List.mem_cons.mp hp with rfl | hp
  · exact hm
  · exact hr.samples p hp

/-- The difference is right if the counter has been left alone since the first edge. -/
lemma EdgesTracked.delta_eq (he : EdgesTracked s h) {ch now : ℕ} (hnow : now = (h.read ch).value)
    (hm : s.activeCar = s.carActive) (hstate : (s.capture ch).state ≠ 0)
    (hclean : (h.last ch).clean = true)
    (hlt : (h.read ch).time - (h.last ch).time < (h.read ch).period) :
    s.delta ch now = (h.read ch).time - (h.last ch).time := by
  have ho := he.ordered ch
  have hread := ho.last_clean hclean
  rw [ReloadTimer.delta, hm, he.lastTick ch hstate, hnow]
  rw [(he.read ch).period hread] at hlt
  refine span_eq ((he.last ch).value hclean) ((he.read ch).value hread) hlt ?_
  -- both edges are congruent to the count now
  have hcount := ((he.read ch).count hread).symm.trans ((he.last ch).count hclean)
  have hsplit : (h.last ch).value + (h.now - (h.last ch).time) = (h.last ch).value +
      ((h.read ch).time - (h.last ch).time) + (h.now - (h.read ch).time) := by
    have := ho.last_le
    have := (he.read ch).past
    omega
  rw [hsplit] at hcount
  exact Nat.ModEq.add_right_cancel' _ hcount

lemma ReloadRight.drained (hr : ReloadRight h) (he : EdgesTracked s h) {ch now : ℕ}
    (hnow : now = (h.read ch).value) (hm : s.activeCar = s.carActive) :
    ReloadRight (h.drained s ch now) := by
  refine ⟨(hr.sample hm).samples, fun x hx hclean hlt => ?_⟩
  simp only [ReloadHistory.drained] at hx
  split_ifs at hx with hstate
  · rcases List.mem_cons.mp hx with rfl | hx
    · exact he.delta_eq hnow hm hstate hclean hlt
    · exact hr.spans x hx hclean hlt
  · exact hr.spans x hx hclean hlt

/-- Every way through a drain remembers the value read. -/
lemma PwmCapture.fold_spec (c : PwmCapture) (now delta : ℕ) :
    (c.fold now delta).lastTick = now ∧ (c.fold now delta).value = c.value := by
  simp only [PwmCapture.fold]
  split_ifs
  · split
    · exact ⟨rfl, rfl⟩
    · exact ⟨rfl, rfl⟩
    · exact ⟨rfl, rfl⟩
  · exact ⟨rfl, rfl⟩
  · exact ⟨rfl, rfl⟩

lemma EdgesTracked.drained (he : EdgesTracked s h) {ch now : ℕ} (hnow : now = (h.read ch).value) :
    EdgesTracked (s.drained ch now) (h.drained s ch now) := by
  obtain ⟨hlast, hvalue⟩ := (s.capture ch).fold_spec now (s.delta ch now)
  refine ⟨fun c => (he.edge c).of_eq rfl rfl, fun c => (he.read c).of_eq rfl rfl, fun c => ?_,
    fun c => ?_, fun c => ?_, fun c n hc => ?_, fun c => ?_⟩
  · simp only [ReloadHistory.drained]
    by_cases hc : c = ch
    · simp only [hc, Function.update_self]
      exact (he.read ch).of_eq rfl rfl
    · simp only [Function.update_of_ne hc]
      exact (he.last c).of_eq rfl rfl
  · have ho := he.ordered c
    by_cases hc : c = ch
    · subst hc
      refine ⟨?_, ho.read_le, ?_, ho.read_clean⟩
      · simp only [ReloadHistory.drained, Function.update_self]
        exact Nat.le_refl _
      · simp only [ReloadHistory.drained, Function.update_self]
        exact id
    · refine ⟨?_, ho.read_le, ?_, ho.read_clean⟩
      · simp only [ReloadHistory.drained, Function.update_of_ne hc]
        exact ho.last_le
      · simp only [ReloadHistory.drained, Function.update_of_ne hc]
        exact ho.last_clean
  · simp only [ReloadTimer.drained, ReloadTimer.goto, ReloadTimer.setCapture]
    by_cases hc : c = ch
    · subst hc
      simp only [Function.update_self]
      rw [hvalue]
      exact he.value c
    · simp only [Function.update_of_ne hc]
      exact he.value c
  · cases hc
  · simp only [ReloadTimer.drained, ReloadTimer.goto, ReloadTimer.setCapture, ReloadHistory.drained]
    by_cases hc : c = ch
    · subst hc
      simp only [Function.update_self]
      rw [hlast]
      exact fun _ => hnow
    · simp only [Function.update_of_ne hc]
      exact he.lastTick c

/-- An access that touches neither the counter, nor the edges, nor the mirror. -/
lemma ReloadInv.plain (hi : ReloadInv (s, h)) (ht : s'.Tracked) (hcnt : s'.cnt = s.cnt)
    (hact : s'.carActive = s.carActive) (hcap : s'.capture = s.capture)
    (hreads : ∀ ch now, s'.pc.reads = some (ch, now) → now = (h.read ch).value) :
    ReloadInv (s', h) := by
  refine ⟨ht, ?_, hi.edges.of_eq hcnt hact hcap hreads, hi.right⟩
  show s'.cnt ≤ s'.carActive
  rw [hcnt, hact]
  exact hi.bound

/-- And one that settles the mirror. -/
lemma ReloadInv.sampled (hi : ReloadInv (s, h)) {q : ReloadTimer} (hm : q.activeCar = q.carActive) :
    ReloadInv (s, h.sample q) := by
  have he := hi.edges
  refine ⟨hi.tracked, hi.bound, ⟨he.edge, he.read, he.last, fun ch => ?_, he.value, he.reads,
    he.lastTick⟩, hi.right.sample hm⟩
  have ho := he.ordered ch
  exact ⟨ho.last_le, ho.read_le, ho.last_clean, ho.read_clean⟩

lemma ReloadInv.go (hi : ReloadInv (s, h)) (hs : s.go = some s') : ReloadInv (s', h.go s) := by
  have ht : s'.Tracked := hi.tracked.go hs
  have htr : s.Tracked := hi.tracked
  have he : EdgesTracked s h := hi.edges
  have hnone {pc : ReloadPc} (hpc : pc.reads = none) (ch now : ℕ)
      (hc : pc.reads = some (ch, now)) : now = (h.read ch).value := by
    rw [hpc] at hc
    cases hc
  have hkeep {pc : ReloadPc} (hpc : pc.reads = s.pc.reads) (ch now : ℕ)
      (hc : pc.reads = some (ch, now)) : now = (h.read ch).value := he.reads ch now (hpc ▸ hc)
  obtain ⟨-, -, cact, -, ccnt, ccap, cpc⟩ := s.consumed_regs
  simp only [ReloadTimer.Tracked] at htr
  simp only [ReloadTimer.go] at hs
  simp only [ReloadHistory.go]
  cases hpc : s.pc <;> rw [hpc] at hs htr hkeep <;>
    simp only [Option.some.injEq, reduceCtorEq] at hs htr ⊢ <;> subst hs
  case setMode w arr =>
    cases w
    · exact hi.plain ht rfl rfl rfl (hnone rfl)
    · exact hi.plain ht rfl rfl rfl (hnone rfl)
  case setSample arr saved =>
    cases hf : s.upif with
    | true =>
      simp only [hf, if_true] at ht ⊢
      exact hi.plain ht rfl rfl rfl (hnone rfl)
    | false =>
      simp only [hf, Bool.false_eq_true, if_false] at ht ⊢
      refine (hi.plain ht rfl rfl rfl (hnone rfl)).sampled ?_
      rw [htr.2.2.1, ReloadTimer.inferred, hf]
      rfl
  case setCommit arr saved =>
    refine (hi.plain ht ccnt cact ccap (hnone rfl)).sampled ?_
    rw [cact, htr.2.2.1, s.consumed_expected.1]
  case forceCommit pulse arr =>
    have hp : ∀ pc, pc = (if pulse then ReloadPc.pulseMode else .enable) → pc.reads = none := by
      rintro pc rfl
      cases pulse
      · rfl
      · rfl
    exact (hi.plain ht rfl rfl rfl (hnone (hp _ rfl))).sampled htr.2.2.symm
  case pulseCount arr =>
    refine ⟨ht, Nat.zero_le _, he.soil true (Nat.le_refl _) rfl (hnone rfl), ?_⟩
    exact ⟨hi.right.samples, hi.right.spans⟩
  case forceUpg pulse arr =>
    refine ⟨ht, Nat.zero_le _, he.soil _ (Nat.le_refl _) rfl (hnone rfl), ?_⟩
    exact ⟨hi.right.samples, hi.right.spans⟩
  case drainFlag ch =>
    cases hf : (s.capture ch).flag with
    | true =>
      simp only [hf, if_true] at ht ⊢
      exact hi.plain ht rfl rfl rfl (hnone rfl)
    | false =>
      simp only [hf, Bool.false_eq_true, if_false] at ht ⊢
      exact hi.plain ht rfl rfl rfl (hnone rfl)
  case drainRead ch =>
    refine ⟨ht, hi.bound, ⟨fun c => (he.edge c).of_eq rfl rfl, fun c => ?_, fun c =>
      (he.last c).of_eq rfl rfl, fun c => ?_, he.value, fun c n hc => ?_, he.lastTick⟩,
      hi.right.samples, hi.right.spans⟩
    · by_cases hc : c = ch
      · simp only [hc, Function.update_self]
        exact (he.edge ch).of_eq rfl rfl
      · simp only [Function.update_of_ne hc]
        exact (he.read c).of_eq rfl rfl
    · have ho := he.ordered c
      by_cases hc : c = ch
      · subst hc
        refine ⟨?_, ?_, ?_, ?_⟩
        all_goals simp only [Function.update_self]
        · exact Nat.le_trans ho.last_le ho.read_le
        · exact Nat.le_refl _
        · exact fun hl => ho.read_clean (ho.last_clean hl)
        · exact id
      · refine ⟨?_, ?_, ?_, ?_⟩
        all_goals simp only [Function.update_of_ne hc]
        · exact ho.last_le
        · exact ho.read_le
        · exact ho.last_clean
        · exact ho.read_clean
    · cases hc
      simp only [Function.update_self]
      exact he.value ch
  case drainClear ch now =>
    refine ⟨ht, hi.bound, ⟨fun c => (he.edge c).of_eq rfl rfl, fun c => (he.read c).of_eq rfl rfl,
      fun c => (he.last c).of_eq rfl rfl, he.ordered, fun c => ?_, hkeep rfl, fun c => ?_⟩,
      hi.right⟩
    · simp only [ReloadTimer.goto, ReloadTimer.setCapture]
      by_cases hc : c = ch
      · subst hc
        simp only [Function.update_self]
        exact he.value c
      · simp only [Function.update_of_ne hc]
        exact he.value c
    · simp only [ReloadTimer.goto, ReloadTimer.setCapture]
      by_cases hc : c = ch
      · subst hc
        simp only [Function.update_self]
        exact he.lastTick c
      · simp only [Function.update_of_ne hc]
        exact he.lastTick c
  case drainSample ch now =>
    have hnow : now = (h.read ch).value := he.reads ch now (by rw [hpc]; rfl)
    cases hf : s.upif with
    | true =>
      simp only [hf, if_true] at ht ⊢
      exact hi.plain ht rfl rfl rfl (hkeep rfl)
    | false =>
      simp only [hf, Bool.false_eq_true, if_false] at ht ⊢
      have hm : s.activeCar = s.carActive := by
        rw [htr.2.2, ReloadTimer.inferred, hf]
        rfl
      exact ⟨ht, hi.bound, he.drained hnow, hi.right.drained he hnow hm⟩
  case drainClearUp ch now => exact hi.plain ht rfl rfl rfl (hkeep rfl)
  case drainCommit ch now =>
    have hc : EdgesTracked s.consumed h := he.of_eq ccnt cact ccap (cpc ▸ he.reads)
    have hnow : now = (h.read ch).value := he.reads ch now (by rw [hpc]; rfl)
    have hm : s.consumed.activeCar = s.consumed.carActive := by
      rw [s.consumed_expected.1, cact, htr.2.2]
    refine ⟨ht, ?_, hc.drained hnow, hi.right.drained hc hnow hm⟩
    show s.consumed.cnt ≤ s.consumed.carActive
    rw [ccnt, cact]
    exact hi.bound
  all_goals exact hi.plain ht rfl rfl rfl (hnone rfl)

/-- A call begins; a capture begins with nothing drained. -/
lemma ReloadInv.call (hi : ReloadInv (s, h)) {op : ReloadOp} (hs : reloadStep s op = some s')
    (htick : op ≠ .tick) (hedge : ∀ ch, op ≠ .edge ch) (hgo : op ≠ .go) : ReloadInv (s', h) := by
  have he : EdgesTracked s h := hi.edges
  have htr : s.Tracked := hi.tracked
  cases op with
  | tick => exact absurd rfl htick
  | edge ch => exact absurd rfl (hedge ch)
  | go => exact absurd rfl hgo
  | set arr =>
    simp only [reloadStep] at hs
    split_ifs at hs with hidle
    cases hs
    simp only [ReloadTimer.Tracked, hidle] at htr
    exact hi.plain htr rfl rfl rfl fun _ _ hc => nomatch hc
  | singlePulse arr =>
    simp only [reloadStep] at hs
    split_ifs at hs with hidle
    cases hs
    simp only [ReloadTimer.Tracked, hidle] at htr
    exact hi.plain htr rfl rfl rfl fun _ _ hc => nomatch hc
  | drain ch =>
    simp only [reloadStep] at hs
    split_ifs at hs with hidle
    cases hs
    simp only [ReloadTimer.Tracked, hidle] at htr
    exact hi.plain htr rfl rfl rfl fun _ _ hc => nomatch hc
  | captureBegin ch edge =>
    simp only [reloadStep] at hs
    split_ifs at hs with hidle
    cases hs
    refine ⟨htr, hi.bound, ⟨fun c => (he.edge c).of_eq rfl rfl, fun c => (he.read c).of_eq rfl rfl,
      fun c => (he.last c).of_eq rfl rfl, he.ordered, fun c => ?_, he.reads, fun c => ?_⟩, hi.right⟩
    · simp only [ReloadTimer.begin, ReloadTimer.setCapture]
      by_cases hc : c = ch
      · subst hc
        simp only [Function.update_self]
        exact he.value c
      · simp only [Function.update_of_ne hc]
        exact he.value c
    · simp only [ReloadTimer.begin, ReloadTimer.setCapture]
      by_cases hc : c = ch
      · subst hc
        simp only [Function.update_self]
        exact fun hne => absurd rfl hne
      · simp only [Function.update_of_ne hc]
        exact he.lastTick c

/-- After `pwm_timer_init`. -/
def ReloadInit (x : ReloadTimer × ReloadHistory) : Prop :=
  ∃ upif, x = (ReloadTimer.boot upif, ReloadHistory.boot)

lemma ReloadInit.inv {x : ReloadTimer × ReloadHistory} (hx : ReloadInit x) : ReloadInv x := by
  obtain ⟨upif, rfl⟩ := hx
  have hstamp : Stamp.Tracks ⟨0, 0, 0, false, false, false⟩ (ReloadTimer.boot upif) 0 :=
    Stamp.tracks_soil (t := ⟨0, 0, 0, false, false, false⟩) (Nat.le_refl 0) false
  refine ⟨⟨rfl, rfl, ?_⟩, Nat.zero_le _, ⟨fun _ => hstamp, fun _ => hstamp, fun _ => hstamp,
    fun _ => ⟨Nat.le_refl _, Nat.le_refl _, id, id⟩, fun _ => rfl,
    (fun _ _ hc => nomatch hc), fun _ hc => absurd rfl hc⟩, fun p hp => ?_, fun p hp => ?_⟩
  · cases upif
    · rfl
    · rfl
  · exact absurd hp List.not_mem_nil
  · exact absurd hp List.not_mem_nil

/-- Whatever the order of update events and calls, each call that settles the mirror leaves it equal
to the reload in use; and a drain finds the ticks between two edges less than a period apart if the
counter is neither reset nor given another reload from the first edge to the drain of the second. -/
theorem reload_mirror_tracks (x : ReloadTimer × ReloadHistory)
    (hx : Reach (withHistory reloadStep ReloadHistory.note) ReloadInit (fun _ _ _ => True) x) :
    (∀ p ∈ x.2.samples, p.1 = p.2) ∧
      ∀ sp ∈ x.2.spans, sp.clean = true → sp.ticks < sp.period → sp.delta = sp.ticks := by
  have hinv : ReloadInv x := by
    refine hx.invariant (fun s hs => hs.inv) ?_
    rintro ⟨s, h⟩ op ⟨s', h'⟩ _ hi hs _
    obtain ⟨hstep, hnote⟩ := withHistory_eq_some.mp hs
    simp only at hstep hnote
    subst hnote
    cases op with
    | tick =>
      cases hstep
      exact hi.tick
    | edge ch =>
      cases hstep
      exact hi.edge ch
    | go => exact hi.go hstep
    | set arr => exact hi.call hstep (by simp) (by simp) (by simp)
    | singlePulse arr => exact hi.call hstep (by simp) (by simp) (by simp)
    | drain ch => exact hi.call hstep (by simp) (by simp) (by simp)
    | captureBegin ch edge => exact hi.call hstep (by simp) (by simp) (by simp)
  exact ⟨hinv.right.samples, hinv.right.spans⟩

/-- A reload of 9 in use, and an edge drained at the count 8. -/
def firstEdge : List ReloadOp :=
  .singlePulse 9 :: .replicate 8 .go ++ .set 9 :: .replicate 8 .go ++
    .captureBegin 0 0 :: .replicate 8 .tick ++ .edge 0 :: .drain 0 :: .replicate 4 .go

/-- Another edge four ticks later, over the end of the period, drained at once. -/
theorem reload_mirror_tracks_wrap : ∃ x,
    Reach (withHistory reloadStep ReloadHistory.note) ReloadInit (fun _ _ _ => True) x ∧
      (∃ sp ∈ x.2.spans, sp.clean = true ∧ sp.ticks = 4 ∧ sp.period = 10 ∧ sp.delta = 4) ∧
      ∀ p ∈ x.2.samples, p.1 = p.2 := by
  have hinit : Reach (withHistory reloadStep ReloadHistory.note) ReloadInit (fun _ _ _ => True)
      (ReloadTimer.boot false, ReloadHistory.boot) := .start ⟨false, rfl⟩
  obtain ⟨x, hx, hq⟩ := hinit.exists_of_run (fun _ _ _ => true)
    (fun x => x.2.spans.any fun sp => sp.clean && sp.ticks == 4 && sp.period == 10)
    (firstEdge ++ .replicate 4 .tick ++ .edge 0 :: .drain 0 :: .replicate 6 .go)
    (fun _ _ _ _ => trivial) (by decide +kernel)
  obtain ⟨hsamples, hspans⟩ := reload_mirror_tracks x hx
  obtain ⟨sp, hsp, hq⟩ := List.any_eq_true.mp hq
  simp only [Bool.and_eq_true, beq_iff_eq] at hq
  obtain ⟨⟨hclean, hticks⟩, hperiod⟩ := hq
  refine ⟨x, hx, ⟨sp, hsp, hclean, hticks, hperiod, ?_⟩, hsamples⟩
  rw [hspans sp hsp hclean (by rw [hticks, hperiod]; decide), hticks]

/-- The second edge is drained after the next reload has come into use: the difference is wrong
although the counter was left alone between the edges.  It is wrong, too, when a pulse of the length
of the period in use restarts the counter between them. -/
theorem reload_after_second_edge :
    (¬ ∀ x, Reach (withHistory reloadStep ReloadHistory.note) ReloadInit (fun _ _ _ => True) x →
      ∀ sp ∈ x.2.spans, sp.between = true → sp.ticks < sp.period → sp.delta = sp.ticks) ∧
    ¬ ∀ x, Reach (withHistory reloadStep ReloadHistory.note) ReloadInit (fun _ _ _ => True) x →
      ∀ sp ∈ x.2.spans, sp.same = true → sp.ticks < sp.period → sp.delta = sp.ticks := by
  have hinit : Reach (withHistory reloadStep ReloadHistory.note) ReloadInit (fun _ _ _ => True)
      (ReloadTimer.boot false, ReloadHistory.boot) := .start ⟨false, rfl⟩
  constructor
  · intro h
    obtain ⟨x, hx, hq⟩ := hinit.exists_of_run (fun _ _ _ => true)
      (fun x => x.2.spans.any fun sp => sp.between && sp.ticks == 4 && sp.period == 10 &&
        sp.delta == 0)
      (firstEdge ++ .replicate 4 .tick ++ .edge 0 :: .set 5 :: .replicate 10 .go ++
        .replicate 8 .tick ++ .drain 0 :: .replicate 6 .go)
      (fun _ _ _ _ => trivial) (by decide +kernel)
    obtain ⟨sp, hsp, hq⟩ := List.any_eq_true.mp hq
    simp only [Bool.and_eq_true, beq_iff_eq] at hq
    obtain ⟨⟨⟨hb, hticks⟩, hperiod⟩, hdelta⟩ := hq
    have := h x hx sp hsp hb (by omega)
    omega
  · intro h
    obtain ⟨x, hx, hq⟩ := hinit.exists_of_run (fun _ _ _ => true)
      (fun x => x.2.spans.any fun sp => sp.same && sp.ticks == 2 && sp.period == 65536 &&
        sp.delta == 65533)
      (.captureBegin 0 0 :: .replicate 5 .tick ++ .edge 0 :: .drain 0 :: .replicate 4 .go ++
        .singlePulse 65535 :: .replicate 8 .go ++ .replicate 2 .tick ++
        .edge 0 :: .drain 0 :: .replicate 4 .go)
      (fun _ _ _ _ => trivial) (by decide +kernel)
    obtain ⟨sp, hsp, hq⟩ := List.any_eq_true.mp hq
    simp only [Bool.and_eq_true, beq_iff_eq] at hq
    obtain ⟨⟨⟨hs, hticks⟩, hperiod⟩, hdelta⟩ := hq
    have := h x hx sp hsp hs (by omega)
    omega

end Gd32Bridge
