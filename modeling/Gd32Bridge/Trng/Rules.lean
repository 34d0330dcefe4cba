import Gd32Bridge.Lib.Transition
import Gd32Bridge.Trng.Basic
import Mathlib.Data.List.TakeDrop

/-!
# What a call of `bridge_hw_trng_read` can do

The remembered word is always the last output of the unit since it was started.  A call keeps some
fresh words and then ends well, out of budget, or with the unit demoted; one path of
`trng_poll_ready` sees a fault and does not demote it.
-/

namespace Gd32Bridge

open Endian Transition

/-! ### The output of the unit -/

/-- The word put out last since the unit was last started. -/
def lastOutput (log : List TrngAccess) : Option UInt32 :=
  log.foldl (fun prev a => match a with
    | .restart | .demote => none
    | .fault => prev
    | .data word => some word) none

variable {log : List TrngAccess}

@[simp]
lemma lastOutput_restart : lastOutput (log ++ [.restart]) = none := by
  simp [lastOutput]

@[simp]
lemma lastOutput_demote : lastOutput (log ++ [.demote]) = none := by
  simp [lastOutput]

@[simp]
lemma lastOutput_fault : lastOutput (log ++ [.fault]) = lastOutput log := by
  simp [lastOutput]

@[simp]
lemma lastOutput_data (w : UInt32) : lastOutput (log ++ [.data w]) = some w := by
  simp [lastOutput]

/-- The words are put out one after the other, and none is the first since a start or equal to the
one before it. -/
def FreshRun : List TrngAccess → List UInt32 → Prop
  | _, [] => True
  | log, w :: ws => (∃ v, lastOutput log = some v ∧ v ≠ w) ∧ FreshRun (log ++ [.data w]) ws

/-- The access after `log` shows a fault, or a word that repeats the one before it. -/
def alarming (log : List TrngAccess) : TrngAccess → Bool
  | .fault => true
  | .data word => lastOutput log == some word
  | _ => false

/-- Some access of `new` does. -/
def observes : List TrngAccess → List TrngAccess → Bool
  | _, [] => false
  | log, a :: new => alarming log a || observes (log ++ [a]) new

lemma observes_append (new new' : List TrngAccess) :
    observes log (new ++ new') = (observes log new || observes (log ++ new) new') := by
  induction new generalizing log with
  | nil => simp [observes]
  | cons a new ih =>
    rw [List.cons_append, observes, ih, observes, List.append_cons log a new, Bool.or_assoc]

lemma FreshRun.observes_eq_false {ws : List UInt32} (h : FreshRun log ws) :
    observes log (ws.map .data) = false := by
  induction ws generalizing log with
  | nil => rfl
  | cons w ws ih =>
    obtain ⟨⟨v, hv, hne⟩, hrest⟩ := h
    rw [List.map_cons, observes, ih hrest, alarming, hv]
    simp [hne]

/-! ### The invariant of the variables -/

/-- The remembered word is the last output, and there is one exactly when the unit is ready. -/
structure Trng.Sound (u : Trng) : Prop where
  last : lastOutput u.log = if u.prevValid then some u.prevWord else none
  ready : u.ready = u.prevValid
  started : u.ready = true → u.started = true

/-- The unit has been demoted. -/
def Trng.Demoted (u : Trng) : Prop := u.started = false ∧ u.ready = false ∧ u.prevValid = false

variable {u u' : Trng}

lemma Trng.sound_boot : Trng.boot.Sound := ⟨rfl, rfl, fun h => absurd h (by decide)⟩

lemma trngDemote_demoted (u : Trng) : (trngDemote u).Demoted := ⟨rfl, rfl, rfl⟩

lemma Trng.Sound.demote (u : Trng) : (trngDemote u).Sound :=
  ⟨lastOutput_demote, rfl, fun h => absurd h (by simp [trngDemote])⟩

/-- Starting a unit that is not running. -/
lemma Trng.Sound.start (h : u.Sound) (hoff : u.started = false) (pll : Bool) :
    (trngStart u pll).Sound := by
  have hready : u.ready = false := by
    cases hr : u.ready with
    | false => rfl
    | true => exact absurd (h.started hr) (by simp [hoff])
  cases pll with
  | false =>
    refine ⟨h.last, h.ready, fun hr => ?_⟩
    simp only [trngStart, Bool.false_eq_true, if_false] at hr
    exact absurd hr (by simp [hready])
  | true =>
    have hvalid : u.prevValid = false := h.ready ▸ hready
    refine ⟨?_, h.ready, fun _ => rfl⟩
    simp only [trngStart, if_true, Trng.note, lastOutput_restart, hvalid, Bool.false_eq_true,
      if_false]

/-- The unit after it has put out a word that was kept. -/
def Trng.keep (u : Trng) (w : UInt32) : Trng :=
  { u.note (.data w) with prevWord := w, prevValid := true }

/-- And after several. -/
def Trng.keepAll (u : Trng) (ws : List UInt32) : Trng := ws.foldl Trng.keep u

@[simp]
lemma Trng.keepAll_log (u : Trng) (ws : List UInt32) :
    (u.keepAll ws).log = u.log ++ ws.map .data := by
  induction ws generalizing u with
  | nil => simp [keepAll]
  | cons w ws ih =>
    rw [keepAll, List.foldl_cons, ← keepAll, ih]
    simp [keep, note]

@[simp]
lemma Trng.keepAll_ready (u : Trng) (ws : List UInt32) : (u.keepAll ws).ready = u.ready := by
  induction ws generalizing u with
  | nil => rfl
  | cons w ws ih => exact ih (u.keep w)

@[simp]
lemma Trng.keepAll_started (u : Trng) (ws : List UInt32) : (u.keepAll ws).started = u.started := by
  induction ws generalizing u with
  | nil => rfl
  | cons w ws ih => exact ih (u.keep w)

lemma Trng.Sound.keep (h : u.Sound) (hready : u.ready = true) (w : UInt32) : (u.keep w).Sound := by
  refine ⟨?_, hready, h.started⟩
  simp [Trng.keep, Trng.note]

lemma Trng.Sound.keepAll (h : u.Sound) (hready : u.ready = true) (ws : List UInt32) :
    (u.keepAll ws).Sound := by
  induction ws generalizing u with
  | nil => exact h
  | cons w ws ih => exact ih (h.keep hready w) hready

/-! ### What a call can do -/

/-- How the loop ends, after the words `ws` have been kept. -/
inductive FillRule (u : Trng) (len : ℕ) (dest : List UInt8) : Trng × HwRv × List UInt8 → Prop
  | done (ws : List UInt32) (hfresh : FreshRun u.log ws)
      (hcount : ws.length = (len - dest.length + 3) / 4) :
      FillRule u len dest
        (u.keepAll ws, .ok, dest ++ (ws.flatMap le32).take (len - dest.length))
  | busy (ws : List UInt32) {dest' : List UInt8} (hfresh : FreshRun u.log ws) :
      FillRule u len dest (u.keepAll ws, .busy, dest')
  | fault (ws : List UInt32) {dest' : List UInt8} (hfresh : FreshRun u.log ws) :
      FillRule u len dest (trngDemote ((u.keepAll ws).note .fault), .io, dest')
  | repeated (ws : List UInt32) {w : UInt32} {dest' : List UInt8} (hfresh : FreshRun u.log ws) :
      FillRule u len dest (trngDemote ((u.keepAll ws).note (.data w)), .io, dest')

/-- One more word in front. -/
lemma FillRule.cons {len : ℕ} {dest : List UInt8} {w : UInt32} {x : Trng × HwRv × List UInt8}
    (hw : ∃ v, lastOutput u.log = some v ∧ v ≠ w) (hlen : dest.length < len)
    (h : FillRule (u.keep w) len
      (dest ++ (le32 w).take (if len - dest.length ≥ 4 then 4 else len - dest.length)) x) :
    FillRule u len dest x := by
  have hchunk : ((le32 w).take (if len - dest.length ≥ 4 then 4 else len - dest.length)).length =
      min 4 (len - dest.length) := by
    rw [List.length_take, le32_length]
    split_ifs <;> omega
  cases h with
  | done ws hfresh hcount =>
    rw [List.length_append, hchunk] at hcount ⊢
    have hbytes :
        (dest ++ (le32 w).take (if len - dest.length ≥ 4 then 4 else len - dest.length)) ++
        (ws.flatMap le32).take (len - (dest.length + min 4 (len - dest.length))) =
        dest ++ ((w :: ws).flatMap le32).take (len - dest.length) := by
      rw [List.append_assoc, List.flatMap_cons, List.take_append, le32_length]
      congr 2
      · split_ifs with h4
        · rw [List.take_of_length_le (Nat.le_of_eq (le32_length w)), List.take_of_length_le]
          rw [le32_length]
          exact h4
        · rfl
      · congr 1
        omega
    rw [hbytes]
    exact .done (w :: ws) ⟨hw, hfresh⟩ (by rw [List.length_cons, hcount]; omega)
  | busy ws hfresh => exact .busy (w :: ws) ⟨hw, hfresh⟩
  | fault ws hfresh => exact .fault (w :: ws) ⟨hw, hfresh⟩
  | repeated ws hfresh => exact .repeated (w :: ws) ⟨hw, hfresh⟩

/-- Nothing is left to do. -/
lemma FillRule.full {len : ℕ} {dest : List UInt8} (hle : len ≤ dest.length) :
    FillRule u len dest (u, .ok, dest) := by
  have hzero : len - dest.length = 0 := Nat.sub_eq_zero_of_le hle
  have hnil : FillRule u len dest (u, .ok, dest ++ [].take (len - dest.length)) :=
    .done [] trivial (by rw [hzero]; rfl)
  rwa [List.take_nil, List.append_nil] at hnil

/-- The loop on a ready unit. -/
lemma FillRule.of_fill {env : ℕ → PullEnv} {len : ℕ} (fuel i budget : ℕ) (dest : List UInt8)
    (h : u.Sound) (hready : u.ready = true) (hfuel : len - dest.length ≤ fuel) :
    FillRule u len dest (trngFill env len fuel i budget u dest) := by
  induction fuel generalizing u dest i budget with
  | zero => exact .full (by omega)
  | succ fuel ih =>
    rw [trngFill]
    by_cases hlen : dest.length < len
    swap
    · rw [if_neg hlen]
      exact .full (Nat.not_lt.mp hlen)
    rw [if_pos hlen]
    by_cases hf₀ : (env i).fault₀.faulted = true
    · rw [if_pos hf₀]
      exact .fault [] trivial
    rw [if_neg hf₀]
    by_cases hdrdy : (env i).drdyAfter = true
    swap
    · simp only [if_pos hdrdy]
      by_cases hf₁ : (env i).fault₁.faulted = true
      · rw [if_pos hf₁]
        exact .fault [] trivial
      · rw [if_neg hf₁]
        exact .busy [] trivial
    simp only [hdrdy, not_true_eq_false, if_false]
    have hvalid : u.prevValid = true := h.ready ▸ hready
    by_cases hrep : (env i).word = u.prevWord
    · rw [if_pos ⟨hvalid, hrep⟩]
      exact .repeated [] trivial
    · rw [if_neg fun hc => hrep hc.2]
      refine .cons ⟨u.prevWord, by simp [h.last, hvalid], Ne.symm hrep⟩ hlen ?_
      refine ih (i + 1) _ _ (h.keep hready (env i).word) hready ?_
      rw [List.length_append, List.length_take, le32_length]
      split_ifs <;> omega

/-- The unit runs: it has been running, or the call has started it. -/
def TrngBegun (u u₁ : Trng) : Prop :=
  (u.started = true ∧ u₁ = u) ∨ (u.started = false ∧ u₁ = trngStart u true)

/-- The unit is ready: it has been, or its first word has been discarded. -/
def TrngPrimed (u₁ u₂ : Trng) : Prop :=
  (u₁.ready = true ∧ u₂ = u₁) ∨
    (u₁.ready = false ∧ ∃ w, u₂ = { u₁.keep w with ready := true })

/-- The call sees a fault after the ready flag, and does not see it again at the second look. -/
def TrngSlip (u : Trng) (c : TrngCall) : Prop :=
  ¬ (c.len = 0 ∨ c.len > 32) ∧ (u.started = true ∨ c.env.pll = true) ∧ u.ready = false ∧
    c.env.poll.fault₀.faulted = false ∧ drdyWithin c.env.poll.drdy trngReadyTimeout 0 = true ∧
    c.env.poll.fault₁.faulted = true ∧ c.env.poll.fault₂.faulted = false

/-- Everything a call can do. -/
inductive TrngRule (u : Trng) (c : TrngCall) : Trng × HwRv × List UInt8 → Prop
  | same {rv : HwRv} (hrv : rv ≠ .ok) : TrngRule u c (u, rv, [])
  | unready {u₁ : Trng} (hbegun : TrngBegun u u₁) (hready : u₁.ready = false) :
      TrngRule u c (u₁, .io, [])
  | slipped {u₁ : Trng} (hbegun : TrngBegun u u₁) (hready : u₁.ready = false) (hslip : TrngSlip u c) :
      TrngRule u c (u₁.note .fault, .io, [])
  | dead {u₁ v : Trng} {new : List TrngAccess} (hbegun : TrngBegun u u₁) (hv : v.log = u₁.log ++ new) :
      TrngRule u c (trngDemote v, .io, [])
  | filled {u₁ u₂ : Trng} {x : Trng × HwRv × List UInt8} (hbegun : TrngBegun u u₁)
      (hprimed : TrngPrimed u₁ u₂) (hfill : FillRule u₂ c.len [] x) : TrngRule u c x

lemma TrngBegun.sound {u₁ : Trng} (h : u.Sound) (hb : TrngBegun u u₁) : u₁.Sound := by
  rcases hb with ⟨-, rfl⟩ | ⟨hoff, rfl⟩
  · exact h
  · exact h.start hoff true

lemma TrngBegun.ready_eq {u₁ : Trng} (hb : TrngBegun u u₁) : u₁.ready = u.ready := by
  rcases hb with ⟨-, rfl⟩ | ⟨-, rfl⟩
  · rfl
  · rfl

lemma TrngBegun.started {u₁ : Trng} (hb : TrngBegun u u₁) : u₁.started = true := by
  rcases hb with ⟨hs, rfl⟩ | ⟨-, rfl⟩
  · exact hs
  · rfl

lemma TrngPrimed.ready {u₁ u₂ : Trng} (hp : TrngPrimed u₁ u₂) : u₂.ready = true := by
  rcases hp with ⟨hr, rfl⟩ | ⟨-, w, rfl⟩
  · exact hr
  · rfl

lemma TrngPrimed.sound {u₁ u₂ : Trng} (h : u₁.Sound) (hs : u₁.started = true) (hp : TrngPrimed u₁ u₂) :
    u₂.Sound := by
  rcases hp with ⟨-, rfl⟩ | ⟨-, w, rfl⟩
  · exact h
  · exact ⟨by simp [Trng.keep, Trng.note], rfl, fun _ => hs⟩

theorem TrngRule.of_read {c : TrngCall} (h : u.Sound) :
    TrngRule u c (bridgeHwTrngRead u c.env c.len) := by
  rw [bridgeHwTrngRead]
  by_cases hlen : c.len = 0 ∨ c.len > 32
  · rw [if_pos hlen]
    exact .same (by decide)
  rw [if_neg hlen]
  by_cases hrun : u.started = true ∨ c.env.pll = true
  swap
  · -- the unit does not run and does not start
    obtain ⟨hoff, hpll⟩ := not_or.mp hrun
    simp only [Bool.not_eq_true] at hoff hpll
    have hsame : trngStart u false = u := by
      cases u with
      | mk s r w v l =>
        cases hoff
        rfl
    simp only [hoff, hpll, Bool.false_eq_true, if_false, hsame, not_false_eq_true, if_true]
    exact .same (by decide)
  obtain ⟨u₁, hu₁, hbegun⟩ : ∃ u₁, (if u.started then u else trngStart u c.env.pll) = u₁ ∧
      TrngBegun u u₁ := by
    by_cases hs : u.started = true
    · exact ⟨u, if_pos hs, .inl ⟨hs, rfl⟩⟩
    · refine ⟨trngStart u true, ?_, .inr ⟨by simpa using hs, rfl⟩⟩
      rw [if_neg hs, hrun.resolve_left hs]
  have h₁ := hbegun.sound h
  simp only [hu₁, hbegun.started, not_true_eq_false, if_false]
  cases hready : u₁.ready with
  | true =>
    simp only [if_true]
    exact .filled hbegun (.inl ⟨hready, rfl⟩)
      (.of_fill _ _ _ _ h₁ hready (by rw [List.length_nil]; omega))
  | false =>
    simp only [Bool.false_eq_true, if_false, trngPollReady]
    by_cases hf₀ : c.env.poll.fault₀.faulted = true
    · simp only [hf₀, if_true]
      exact .dead hbegun rfl
    by_cases hdrdy : drdyWithin c.env.poll.drdy trngReadyTimeout 0 = true
    · by_cases hf₁ : c.env.poll.fault₁.faulted = true
      · by_cases hf₂ : c.env.poll.fault₂.faulted = true
        · simp only [hf₀, hdrdy, hf₁, hf₂, Bool.false_eq_true, if_true, if_false]
          exact .dead hbegun (List.append_assoc _ _ _)
        · simp only [hf₀, hdrdy, hf₁, hf₂, Bool.false_eq_true, if_true, if_false]
          refine .slipped hbegun hready ⟨hlen, hrun, hbegun.ready_eq ▸ hready, ?_, hdrdy, hf₁, ?_⟩
          · simpa using hf₀
          · simpa using hf₂
      · simp only [hf₀, hdrdy, hf₁, Bool.false_eq_true, if_true, if_false]
        have hprimed : TrngPrimed u₁ { u₁.keep c.env.poll.word with ready := true } :=
          .inr ⟨hready, _, rfl⟩
        exact .filled hbegun hprimed (.of_fill _ _ _ _ (hprimed.sound h₁ hbegun.started)
          hprimed.ready (by rw [List.length_nil]; omega))
    · by_cases hf₂ : c.env.poll.fault₂.faulted = true
      · simp only [hf₀, hdrdy, hf₂, Bool.false_eq_true, if_true, if_false]
        exact .dead hbegun rfl
      · simp only [hf₀, hdrdy, hf₂, Bool.false_eq_true, if_false]
        exact .unready hbegun hready

/-! ### What follows about one call -/

/-- Nothing alarming has happened between the two. -/
def TrngQuiet (u v : Trng) : Prop := ∃ new, v.log = u.log ++ new ∧ observes u.log new = false

lemma TrngQuiet.refl (u : Trng) : TrngQuiet u u := ⟨[], (List.append_nil _).symm, rfl⟩

lemma TrngQuiet.trans {v w : Trng} (h : TrngQuiet u v) (h' : TrngQuiet v w) : TrngQuiet u w := by
  obtain ⟨new, hlog, hq⟩ := h
  obtain ⟨new', hlog', hq'⟩ := h'
  refine ⟨new ++ new', ?_, ?_⟩
  · rw [hlog', hlog, List.append_assoc]
  · rw [observes_append, hq, ← hlog, hq']
    rfl

lemma TrngQuiet.grows {v : Trng} (h : TrngQuiet u v) : u.log <+: v.log := by
  obtain ⟨new, hlog, -⟩ := h
  exact ⟨new, hlog.symm⟩

lemma TrngBegun.quiet {u₁ : Trng} (hb : TrngBegun u u₁) : TrngQuiet u u₁ := by
  rcases hb with ⟨-, rfl⟩ | ⟨-, rfl⟩
  · exact .refl _
  · exact ⟨[.restart], rfl, rfl⟩

lemma TrngPrimed.quiet {u₁ u₂ : Trng} (h : u₁.Sound) (hp : TrngPrimed u₁ u₂) : TrngQuiet u₁ u₂ := by
  rcases hp with ⟨-, rfl⟩ | ⟨hready, w, rfl⟩
  · exact .refl _
  · -- the discarded word has no word before it
    have hvalid : u₁.prevValid = false := h.ready ▸ hready
    refine ⟨[.data w], rfl, ?_⟩
    simp [observes, alarming, h.last, hvalid]

lemma FreshRun.quiet {ws : List UInt32} (h : FreshRun u.log ws) : TrngQuiet u (u.keepAll ws) :=
  ⟨ws.map .data, u.keepAll_log ws, h.observes_eq_false⟩

/-- A call that does not slip is quiet or leaves the unit demoted. -/
lemma TrngRule.quiet_or_demoted {c : TrngCall} {x : Trng × HwRv × List UInt8} (h : u.Sound)
    (hrule : TrngRule u c x) (hslip : ¬ TrngSlip u c) : TrngQuiet u x.1 ∨ x.1.Demoted := by
  cases hrule with
  | same => exact .inl (.refl u)
  | unready hbegun => exact .inl hbegun.quiet
  | slipped _ _ hs => exact absurd hs hslip
  | @dead u₁ v new => exact .inr (trngDemote_demoted v)
  | filled hbegun hprimed hfill =>
    have hquiet := hbegun.quiet.trans (hprimed.quiet (hbegun.sound h))
    cases hfill with
    | done ws hfresh => exact .inl (hquiet.trans hfresh.quiet)
    | busy ws hfresh => exact .inl (hquiet.trans hfresh.quiet)
    | fault ws hfresh => exact .inr (trngDemote_demoted _)
    | repeated ws hfresh => exact .inr (trngDemote_demoted _)

lemma TrngRule.sound {c : TrngCall} {x : Trng × HwRv × List UInt8} (h : u.Sound)
    (hrule : TrngRule u c x) : x.1.Sound := by
  cases hrule with
  | same => exact h
  | unready hbegun => exact hbegun.sound h
  | slipped hbegun hready =>
    have h₁ := hbegun.sound h
    exact ⟨lastOutput_fault.trans h₁.last, h₁.ready, h₁.started⟩
  | @dead u₁ v => exact .demote v
  | filled hbegun hprimed hfill =>
    have h₂ := hprimed.sound (hbegun.sound h) hbegun.started
    cases hfill with
    | done ws => exact h₂.keepAll hprimed.ready ws
    | busy ws => exact h₂.keepAll hprimed.ready ws
    | fault ws => exact .demote _
    | repeated ws => exact .demote _

lemma TrngRule.grows {c : TrngCall} {x : Trng × HwRv × List UInt8} (h : u.Sound)
    (hrule : TrngRule u c x) : u.log <+: x.1.log := by
  cases hrule with
  | same => exact List.prefix_rfl
  | unready hbegun => exact hbegun.quiet.grows
  | slipped hbegun => exact hbegun.quiet.grows.trans (List.prefix_append _ _)
  | dead hbegun hv =>
    refine hbegun.quiet.grows.trans ?_
    rw [trngDemote, Trng.note, hv, List.append_assoc]
    exact List.prefix_append _ _
  | filled hbegun hprimed hfill =>
    refine (hbegun.quiet.trans (hprimed.quiet (hbegun.sound h))).grows.trans ?_
    cases hfill with
    | done ws hfresh => exact hfresh.quiet.grows
    | busy ws hfresh => exact hfresh.quiet.grows
    | fault ws hfresh =>
      refine hfresh.quiet.grows.trans ?_
      rw [trngDemote, Trng.note, Trng.note, List.append_assoc]
      exact List.prefix_append _ _
    | repeated ws hfresh =>
      refine hfresh.quiet.grows.trans ?_
      rw [trngDemote, Trng.note, Trng.note, List.append_assoc]
      exact List.prefix_append _ _

/-! ### Restarts -/

/-- The unit has been started at or after position `e`. -/
def Restarted (log : List TrngAccess) (e : ℕ) : Prop := ∃ i, e ≤ i ∧ log[i]? = some .restart

/-- It has been started there and has put out a word after that. -/
def Renewed (log : List TrngAccess) (e : ℕ) : Prop :=
  ∃ i j w, e ≤ i ∧ i < j ∧ log[i]? = some .restart ∧ log[j]? = some (.data w)

lemma getElem?_of_prefix {log log' : List TrngAccess} {i : ℕ} {a : TrngAccess}
    (h : log <+: log') (ha : log[i]? = some a) : log'[i]? = some a := by
  obtain ⟨new, rfl⟩ := h
  obtain ⟨hi, -⟩ := List.getElem?_eq_some_iff.mp ha
  rw [List.getElem?_append_left hi, ha]

lemma Restarted.mono {log' : List TrngAccess} {e : ℕ} (h : Restarted log e) (hp : log <+: log') :
    Restarted log' e := by
  obtain ⟨i, hi, ha⟩ := h
  exact ⟨i, hi, getElem?_of_prefix hp ha⟩

lemma Renewed.mono {log' : List TrngAccess} {e : ℕ} (h : Renewed log e) (hp : log <+: log') :
    Renewed log' e := by
  obtain ⟨i, j, w, hi, hj, ha, hb⟩ := h
  exact ⟨i, j, w, hi, hj, getElem?_of_prefix hp ha, getElem?_of_prefix hp hb⟩

/-- The unit runs, or is ready, only by a restart since `e`. -/
structure Trng.Since (u : Trng) (e : ℕ) : Prop where
  restarted : u.started = true → Restarted u.log e
  renewed : u.ready = true → Renewed u.log e

lemma Trng.Demoted.since (h : u.Demoted) (e : ℕ) : u.Since e :=
  ⟨fun hs => absurd hs (by simp [h.1]), fun hr => absurd hr (by simp [h.2.1])⟩

lemma TrngBegun.since {u₁ : Trng} {e : ℕ} (hb : TrngBegun u u₁) (hs : u.Sound) (h : u.Since e)
    (he : e ≤ u.log.length) : u₁.Since e := by
  rcases hb with ⟨-, rfl⟩ | ⟨hoff, rfl⟩
  · exact h
  · refine ⟨fun _ => ⟨u.log.length, he, ?_⟩, fun hr => ?_⟩
    · simp [trngStart, Trng.note]
    · exact absurd (hs.started hr) (by simp [hoff])

lemma TrngPrimed.since {u₁ u₂ : Trng} {e : ℕ} (hp : TrngPrimed u₁ u₂) (hs : u₁.started = true)
    (h : u₁.Since e) : u₂.Since e := by
  rcases hp with ⟨-, rfl⟩ | ⟨-, w, rfl⟩
  · exact h
  · have hlog : u₁.log <+: u₁.log ++ [.data w] := List.prefix_append _ _
    obtain ⟨i, hi, ha⟩ := h.restarted hs
    refine ⟨fun _ => ⟨i, hi, getElem?_of_prefix hlog ha⟩, fun _ => ?_⟩
    obtain ⟨hlt, -⟩ := List.getElem?_eq_some_iff.mp ha
    exact ⟨i, u₁.log.length, w, hi, hlt, getElem?_of_prefix hlog ha, by simp [Trng.keep, Trng.note]⟩

lemma Trng.Since.keepAll {e : ℕ} (h : u.Since e) (ws : List UInt32) : (u.keepAll ws).Since e := by
  have hlog : u.log <+: (u.keepAll ws).log := by
    rw [Trng.keepAll_log]
    exact List.prefix_append _ _
  refine ⟨fun hs => ?_, fun hr => ?_⟩
  · rw [Trng.keepAll_started] at hs
    exact (h.restarted hs).mono hlog
  · rw [Trng.keepAll_ready] at hr
    exact (h.renewed hr).mono hlog

lemma TrngRule.since {c : TrngCall} {x : Trng × HwRv × List UInt8} {e : ℕ} (hs : u.Sound)
    (hrule : TrngRule u c x) (h : u.Since e) (he : e ≤ u.log.length) : x.1.Since e := by
  cases hrule with
  | same => exact h
  | unready hbegun => exact hbegun.since hs h he
  | slipped hbegun hready =>
    have h₁ := hbegun.since hs h he
    refine ⟨fun hr => (h₁.restarted hr).mono (List.prefix_append _ _), fun hr => ?_⟩
    exact absurd hr (by simp [Trng.note, hready])
  | @dead u₁ v => exact (trngDemote_demoted v).since e
  | filled hbegun hprimed hfill =>
    have h₂ := hprimed.since hbegun.started (hbegun.since hs h he)
    cases hfill with
    | done ws => exact h₂.keepAll ws
    | busy ws => exact h₂.keepAll ws
    | fault ws => exact (trngDemote_demoted _).since e
    | repeated ws => exact (trngDemote_demoted _).since e

end Gd32Bridge
