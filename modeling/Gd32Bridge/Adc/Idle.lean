import Gd32Bridge.Adc.Laps
import Gd32Bridge.Adc.Filtered

/-!
# A reader that stays away

Both planes of `adc_stream_read` take the difference of two 32-bit totals for the backlog.  Here
every reload is counted at once and nothing goes wrong with the DMA, so that the totals are exact
modulo `2 ^ 32`; what is left is how far the difference can be trusted.
-/

namespace Gd32Bridge

open Transition

/-- A backlog the two planes recognise for what it is. -/
def Recognised (backlog : ℕ) : Prop :=
  backlog < adcRingSamples ∨ adcRingSamples ≤ backlog % 2 ^ 32 ∧ backlog % 2 ^ 32 < 2 ^ 31

instance (backlog : ℕ) : Decidable (Recognised backlog) := inferInstanceAs (Decidable (_ ∨ _))

/-- The answer with some raw samples, if `k` are there. -/
def AdcStream.rawAnswer (s : AdcStream) (env : ReadEnv) (maxSamples k : ℕ) :
    HwResult AdcStream (List UInt16) :=
  ⟨s.consumed env (min k maxSamples), .ok,
    (copyRaw env s.fullScale (min k maxSamples) 0 s.readIdx).1⟩

/-! ### A session whose reloads are all counted -/

/-- A running stream, the deposits of its DMA, and the outputs committed since a filter was bound
to it, oldest first. -/
structure Plane where
  stream : AdcStream
  deposits : ℕ
  outputs : List UInt16

/-- How many samples the plane that is served has been given. -/
def Plane.produced (x : Plane) : ℕ :=
  if x.stream.dspBound then x.outputs.length else x.deposits

/-- The `m`-th of them; `v` are the samples of the converter. -/
def Plane.sample (v : ℕ → UInt16) (x : Plane) (m : ℕ) : UInt16 :=
  if x.stream.dspBound then x.outputs.getD m 0 else v m

/-- A call during which the DMA stands still and has no error to report. -/
def stillCall (maxSamples : ℕ) (reloading : Bool) (vrefMv : ℕ) : ReadCall :=
  ⟨maxSamples, false, reloading, vrefMv, fun _ => 0, 0⟩

inductive PlaneEvent
  /-- the DMA deposits some samples, and the lap interrupt counts every reload -/
  | deposit (n : ℕ)
  /-- the pump commits a batch of outputs -/
  | commit (rawRead : ℕ) (out : List UInt16)
  | read (maxSamples : ℕ) (reloading : Bool) (vrefMv : ℕ)

/-- The answer to a read. -/
def Plane.read (v old : ℕ → UInt16) (x : Plane) (c : ReadCall) :
    HwResult AdcStream (List UInt16) :=
  x.stream.read (c.env v old x.deposits) c.maxSamples

/-- The lap interrupt, once for each reload. -/
def AdcStream.lapTimes (s : AdcStream) : ℕ → AdcStream
  | 0 => s
  | k + 1 => (s.lapTimes k).lapped true false

def Plane.deposit (x : Plane) (n : ℕ) : Plane :=
  { x with
    stream := x.stream.lapTimes
      ((x.deposits + n) / adcRingSamples - x.deposits / adcRingSamples)
    deposits := x.deposits + n }

def planeStep (v old : ℕ → UInt16) (x : Plane) : PlaneEvent → Option Plane
  | .deposit n => some (x.deposit n)
  | .commit rawRead out =>
    if x.stream.dspBound = true ∧ out.length ≤ adcDspPumpLockBatch then
      some { x with stream := x.stream.published rawRead out false, outputs := x.outputs ++ out }
    else none
  | .read maxSamples reloading vrefMv =>
    some { x with stream := (x.read v old (stillCall maxSamples reloading vrefMv)).hw }

/-- The history: the number of the oldest unread sample. -/
def oldestUnread (v old : ℕ → UInt16) (next : ℕ) (x : Plane) (e : PlaneEvent) (_ : Plane) : ℕ :=
  match e with
  | .read maxSamples reloading vrefMv =>
    match x.read v old (stillCall maxSamples reloading vrefMv) with
    | ⟨_, .busy, _⟩ => x.produced
    | ⟨_, _, out⟩ => next + out.length
  | _ => next

/-- A stream just begun, or a filter just bound to one. -/
def PlaneInit (p : Plane × ℕ) : Prop :=
  p.2 = 0 ∧ ((∃ s channel bits, p.1 = ⟨AdcStream.started s channel bits, 0, []⟩) ∨
    ∃ s chain terminal d, p.1 = ⟨AdcStream.attached s chain terminal, d, []⟩ ∧ s.inUse = true ∧
      s.dmaErrorCount = 0 ∧ s.dspCfgBad = false ∧ s.dspSat = false ∧ terminal ≠ 3)

/-! ### What a read should answer -/

/-- The reader starts over at the live position. -/
def Plane.Resynced (x : Plane) (s : AdcStream) : Prop :=
  if x.stream.dspBound then s.procRead = x.outputs.length % 2 ^ 32
  else s.totalRead = x.deposits % 2 ^ 32 ∧ s.readIdx = x.deposits % adcRingSamples

/-- BUSY and a fresh start from a ring behind, else the oldest unread samples. -/
def ReadExact (v : ℕ → UInt16) (x : Plane) (next maxSamples vrefMv : ℕ)
    (r : HwResult AdcStream (List UInt16)) : Prop :=
  if adcRingSamples ≤ x.produced - next then r.rv = .busy ∧ r.out = [] ∧ x.Resynced r.hw
  else r.rv = .ok ∧
    r.out = (List.range' next (min (x.produced - next) maxSamples)).map fun m =>
      codeMv x.stream.fullScale vrefMv (x.sample v m)

/-- The tracker of the raw plane takes the position for one reload short. -/
def Plane.Regressed (x : Plane) : Prop :=
  x.stream.dspBound = false ∧ x.stream.rdPos.valid = true ∧
    x.stream.lapCount = x.stream.rdPos.laps ∧
    x.deposits % adcRingSamples < x.stream.rdPos.w

/-- The condition on a read. -/
def Plane.Readable (x : Plane) (next : ℕ) : Prop :=
  Recognised (x.produced - next) ∧ ¬ x.Regressed

/-- The condition on a run. -/
def ReadsReadable (p : Plane × ℕ) (e : PlaneEvent) (_ : Plane × ℕ) : Prop :=
  match e with
  | .read _ _ _ => p.1.Readable p.2
  | _ => True

/-! ### The invariant -/

/-- The raw plane: its counters, and what the tracker remembers of an earlier read. -/
structure Plane.Raw (x : Plane) (next : ℕ) : Prop where
  lapCount : x.stream.lapCount = x.deposits / adcRingSamples % 2 ^ 32
  slot : x.stream.readIdx = next % adcRingSamples
  total : x.stream.totalRead = next % 2 ^ 32
  le : next ≤ x.deposits
  tracker : x.stream.rdPos.valid = true → ∃ d, next ≤ d ∧ d ≤ x.deposits ∧
    x.stream.rdPos.laps = d / adcRingSamples % 2 ^ 32 ∧ x.stream.rdPos.w = d % adcRingSamples

structure PlaneInv (x : Plane) (next : ℕ) : Prop where
  run : x.stream.inUse = true
  noError : x.stream.dmaErrorCount = 0
  raw : x.stream.dspBound = false → x.Raw next
  filtered : x.stream.dspBound = true → x.stream.Filtered x.outputs next ∧ x.stream.Sound

variable {v old : ℕ → UInt16} {x : Plane} {next : ℕ}

/-- It touches nothing but the count. -/
lemma AdcStream.lapTimes_eq (s : AdcStream) (k : ℕ) :
    s.lapTimes k = { s with lapCount := (s.lapTimes k).lapCount } := by
  induction k with
  | zero => rfl
  | succ k ih =>
    rw [lapTimes, ih]
    rfl

lemma AdcStream.lapTimes_lapCount {s : AdcStream} {laps : ℕ} (h : s.lapCount = laps % 2 ^ 32)
    (k : ℕ) : (s.lapTimes k).lapCount = (laps + k) % 2 ^ 32 := by
  induction k with
  | zero => exact h
  | succ k ih =>
    show ((s.lapTimes k).lapCount + 1) % 2 ^ 32 = _
    rw [ih, Nat.mod_add_mod]
    rfl

lemma PlaneInv.of_init {p : Plane × ℕ} (h : PlaneInit p) : PlaneInv p.1 p.2 := by
  obtain ⟨x, next⟩ := p
  obtain ⟨hnext, hx⟩ := h
  simp only at hnext hx
  subst hnext
  rcases hx with ⟨s, channel, bits, rfl⟩ |
    ⟨s, chain, terminal, d, rfl, hrun, herr, hcfg, hsat, hterm⟩
  · refine ⟨rfl, rfl, fun _ => ?_, nofun⟩
    exact ⟨(by decide : 0 = 0 / adcRingSamples % 2 ^ 32), rfl, rfl, Nat.le_refl 0, nofun⟩
  · refine ⟨hrun, herr, nofun, fun _ => ?_⟩
    exact ⟨⟨rfl, rfl, Nat.le_refl 0, .nil _⟩, hterm, hcfg, hsat, rfl⟩

lemma PlaneInv.deposit (h : PlaneInv x next) (n : ℕ) : PlaneInv (x.deposit n) next := by
  have hsame := x.stream.lapTimes_eq
    ((x.deposits + n) / adcRingSamples - x.deposits / adcRingSamples)
  obtain ⟨s, hs⟩ : ∃ s, s = x.stream.lapTimes
    ((x.deposits + n) / adcRingSamples - x.deposits / adcRingSamples) := ⟨_, rfl⟩
  simp only [Plane.deposit]
  rw [← hs] at hsame ⊢
  refine ⟨?_, ?_, fun hraw => ?_, fun hbound => ?_⟩
  · rw [hsame]
    exact h.run
  · rw [hsame]
    exact h.noError
  · have hraw' : x.stream.dspBound = false := by
      rw [hsame] at hraw
      exact hraw
    have hr := h.raw hraw'
    refine ⟨?_, ?_, ?_, Nat.le_trans hr.le (Nat.le_add_right _ _), fun hv => ?_⟩
    · have hmono : x.deposits / adcRingSamples ≤ (x.deposits + n) / adcRingSamples :=
        Nat.div_le_div_right (Nat.le_add_right _ _)
      rw [hs, AdcStream.lapTimes_lapCount hr.lapCount, Nat.add_sub_cancel' hmono]
    · rw [hsame]
      exact hr.slot
    · rw [hsame]
      exact hr.total
    · rw [hsame] at hv ⊢
      obtain ⟨d, hd, hd', ht⟩ := hr.tracker hv
      exact ⟨d, hd, Nat.le_trans hd' (Nat.le_add_right _ _), ht⟩
  · have hbound' : x.stream.dspBound = true := by
      rw [hsame] at hbound
      exact hbound
    obtain ⟨hf, hsound⟩ := h.filtered hbound'
    rw [hsame]
    exact ⟨⟨hf.write, hf.read, hf.le, hf.ring⟩, hsound.terminal, hsound.cfgBad, hsound.sat,
      hsound.gap⟩

lemma PlaneInv.commit (h : PlaneInv x next) (hbound : x.stream.dspBound = true) (rawRead : ℕ)
    (out : List UInt16) :
    PlaneInv { x with
      stream := x.stream.published rawRead out false, outputs := x.outputs ++ out } next := by
  obtain ⟨hf, hsound⟩ := h.filtered hbound
  refine ⟨h.run, h.noError, fun hraw => ?_, fun _ => ⟨hf.published rawRead out false, ?_⟩⟩
  · exact absurd (hbound.symm.trans hraw) Bool.noConfusion
  · exact ⟨hsound.terminal, hsound.cfgBad, by simp only [AdcStream.published, hsound.sat,
      Bool.or_false], hsound.gap⟩

/-! ### A read -/

/-- The plane that a read of a sound stream is served from. -/
lemma PlaneInv.read_eq (h : PlaneInv x next) (v old : ℕ → UInt16) (maxSamples : ℕ)
    (reloading : Bool) (vrefMv : ℕ) :
    x.read v old (stillCall maxSamples reloading vrefMv) =
      if x.stream.dspBound then
        x.stream.readProc ((stillCall maxSamples reloading vrefMv).env v old x.deposits) maxSamples
      else
        x.stream.readRaw ((stillCall maxSamples reloading vrefMv).env v old x.deposits)
          maxSamples := by
  have hnot : ¬ ¬ x.stream.inUse = true := not_not.mpr h.run
  have herr : ¬ x.stream.dmaErrorCount ≠ 0 := not_not.mpr h.noError
  simp only [Plane.read, AdcStream.read, if_neg hnot]
  simp only [AdcStream.serve, stillCall, ReadCall.env, AdcStream.latchDmaError, if_neg herr,
    Bool.false_eq_true, if_false]

/-- Without a regression the total is exact. -/
lemma Plane.Raw.total_written (h : x.Raw next) (hraw : x.stream.dspBound = false)
    (hreg : ¬ x.Regressed) (reloading : Bool) :
    (adcStreamTotalWritten x.stream.lapCount (remainingAt x.deposits reloading)
      x.stream.rdPos).1 = x.deposits % 2 ^ 32 := by
  have hno : ¬ (x.stream.rdPos.valid = true ∧ x.stream.lapCount = x.stream.rdPos.laps ∧
      x.deposits % adcRingSamples < x.stream.rdPos.w) := fun hr => hreg ⟨hraw, hr⟩
  simp only [adcStreamTotalWritten, adcStreamWriteIndex_remainingAt]
  rw [if_neg hno, h.lapCount]
  simp only [adcRingSamples]
  omega

/-- A regression means that the lap count has gone all the way round since the last read. -/
lemma Plane.Raw.regressed (h : x.Raw next) (hreg : x.Regressed) (reloading : Bool) :
    adcRingSamples ≤ x.deposits - next ∧
      (adcStreamTotalWritten x.stream.lapCount (remainingAt x.deposits reloading)
        x.stream.rdPos).1 ≠ x.deposits % 2 ^ 32 := by
  obtain ⟨-, hvalid, hlaps, hw⟩ := hreg
  obtain ⟨d, hd, hd', htl, htw⟩ := h.tracker hvalid
  have hyes : x.stream.rdPos.valid = true ∧ x.stream.lapCount = x.stream.rdPos.laps ∧
      x.deposits % adcRingSamples < x.stream.rdPos.w := ⟨hvalid, hlaps, hw⟩
  constructor
  · rw [h.lapCount, htl] at hlaps
    rw [htw] at hw
    simp only [adcRingSamples] at hlaps hw ⊢
    omega
  · simp only [adcStreamTotalWritten, adcStreamWriteIndex_remainingAt]
    rw [if_pos hyes, h.lapCount]
    simp only [adcRingSamples]
    omega

/-- How the raw plane answers when the tracker sees no regression. -/
lemma Plane.Raw.readRaw_eq (h : x.Raw next) (hraw : x.stream.dspBound = false)
    (hreg : ¬ x.Regressed) {env : ReadEnv} {reloading : Bool}
    (henv : env.remaining 0 = remainingAt x.deposits reloading) (maxSamples : ℕ) :
    x.stream.readRaw env maxSamples =
      if (x.deposits - next) % 2 ^ 32 = 0 ∨ 2 ^ 31 ≤ (x.deposits - next) % 2 ^ 32 then
        ⟨x.stream.observed env, .ok, []⟩
      else if adcRingSamples ≤ (x.deposits - next) % 2 ^ 32 then
        ⟨x.stream.resync env, .busy, []⟩
      else x.stream.rawAnswer env maxSamples ((x.deposits - next) % 2 ^ 32) := by
  have hback : x.stream.backlog env = int32Sub (x.deposits % 2 ^ 32) (next % 2 ^ 32) := by
    rw [AdcStream.backlog, henv, h.total_written hraw hreg, h.total]
  simp only [AdcStream.readRaw, hback]
  exact backlog_ladder h.le _ _ (x.stream.rawAnswer env maxSamples)

/-- The same for both planes: where the backlog goes, and what decides whether it is right. -/
lemma recognised_iff {backlog : ℕ} (h : adcRingSamples ≤ backlog) :
    Recognised backlog ↔ ¬ (backlog % 2 ^ 32 = 0 ∨ 2 ^ 31 ≤ backlog % 2 ^ 32) ∧
      adcRingSamples ≤ backlog % 2 ^ 32 := by
  simp only [Recognised]
  simp only [adcRingSamples] at h ⊢
  omega

/-- The answer of a plane is exact when its backlog is recognised. -/
lemma ladder_exact_iff {B maxSamples vrefMv : ℕ} {empty behind : AdcStream}
    {serve : ℕ → HwResult AdcStream (List UInt16)} (hB : x.produced - next = B)
    (hover : x.Resynced behind) (hok : ∀ k, (serve k).rv = .ok)
    (hserve : B < adcRingSamples →
      (serve B).out = (List.range' next (min B maxSamples)).map fun m =>
        codeMv x.stream.fullScale vrefMv (x.sample v m)) :
    ReadExact v x next maxSamples vrefMv
      (if B % 2 ^ 32 = 0 ∨ 2 ^ 31 ≤ B % 2 ^ 32 then ⟨empty, .ok, []⟩
      else if adcRingSamples ≤ B % 2 ^ 32 then ⟨behind, .busy, []⟩
      else serve (B % 2 ^ 32)) ↔ Recognised (x.produced - next) := by
  simp only [ReadExact, hB]
  by_cases hring : adcRingSamples ≤ B
  · rw [if_pos hring, recognised_iff hring]
    split_ifs with hempty hfull
    · exact iff_of_false (fun h => absurd h.1 nofun) fun h => h.1 hempty
    · exact iff_of_true ⟨rfl, rfl, hover⟩ ⟨hempty, hfull⟩
    · refine iff_of_false (fun h => ?_) fun h => hfull h.2
      exact absurd ((hok _).symm.trans h.1) nofun
  · have hmod : B % 2 ^ 32 = B := by
      refine Nat.mod_eq_of_lt ?_
      simp only [adcRingSamples] at hring
      omega
    rw [if_neg hring, hmod]
    refine iff_of_true ?_ (.inl (Nat.lt_of_not_le hring))
    by_cases hzero : B = 0
    · rw [if_pos (.inl hzero), hzero]
      exact ⟨rfl, rfl⟩
    · have hno : ¬ (B = 0 ∨ 2 ^ 31 ≤ B) := by
        simp only [adcRingSamples] at hring
        omega
      rw [if_neg hno, if_neg hring]
      exact ⟨hok B, hserve (Nat.lt_of_not_le hring)⟩

/-- With a regression the raw plane never starts over where the DMA is. -/
lemma Plane.Raw.not_exact (h : x.Raw next) (hreg : x.Regressed) {env : ReadEnv} {reloading : Bool}
    (henv : env.remaining 0 = remainingAt x.deposits reloading) (maxSamples vrefMv : ℕ) :
    ¬ ReadExact v x next maxSamples vrefMv (x.stream.readRaw env maxSamples) := by
  obtain ⟨hring, htotal⟩ := h.regressed hreg reloading
  have hunbound : ¬ x.stream.dspBound = true := by simp [hreg.1]
  simp only [ReadExact, Plane.produced, Plane.Resynced, if_neg hunbound, if_pos hring,
    AdcStream.readRaw]
  split_ifs with hempty hover
  · exact fun hex => absurd hex.1 (by rintro ⟨⟩)
  · rintro ⟨-, -, hsync, -⟩
    simp only [AdcStream.resync, henv] at hsync
    exact htotal hsync
  · exact fun hex => absurd hex.1 (by rintro ⟨⟩)

/-- A read meets its purpose exactly when it meets the condition. -/
lemma PlaneInv.exact_iff (h : PlaneInv x next) (maxSamples : ℕ) (reloading : Bool) (vrefMv : ℕ) :
    ReadExact v x next maxSamples vrefMv
      (x.read v old (stillCall maxSamples reloading vrefMv)) ↔ x.Readable next := by
  rw [h.read_eq]
  cases hb : x.stream.dspBound with
  | true =>
    obtain ⟨hf, hsound⟩ := h.filtered hb
    have hprod : x.produced = x.outputs.length := if_pos hb
    have hle := hf.le
    have hread : x.Readable next ↔ Recognised (x.produced - next) := by
      refine and_iff_left fun hreg => ?_
      exact absurd (hb.symm.trans hreg.1) Bool.noConfusion
    rw [if_pos rfl, hread, hf.readProc_eq hsound]
    refine ladder_exact_iff (by rw [hprod]) ?_ (fun _ => rfl) fun hring => ?_
    · simp only [Plane.Resynced, if_pos hb]
      exact hf.write
    · simp only [Plane.sample, if_pos hb]
      exact hf.ring.served _ _ (by omega) (by omega)
  | false =>
    have hr := h.raw hb
    have hunbound : ¬ x.stream.dspBound = true := by simp [hb]
    have hprod : x.produced = x.deposits := if_neg hunbound
    have hle := hr.le
    rw [if_neg Bool.false_ne_true]
    by_cases hreg : x.Regressed
    · exact iff_of_false (hr.not_exact hreg rfl _ _) fun hread => hread.2 hreg
    · have hread : x.Readable next ↔ Recognised (x.produced - next) := and_iff_left hreg
      rw [hread, hr.readRaw_eq hb hreg rfl]
      refine ladder_exact_iff (by rw [hprod]) ?_ (fun _ => rfl) fun hring => ?_
      · simp only [Plane.Resynced, if_neg hunbound, AdcStream.resync]
        refine ⟨hr.total_written hb hreg reloading, ?_⟩
        simp only [ReadCall.env, stillCall, adcStreamWriteIndex_remainingAt, Nat.mod_mod]
      · have hin : InRing x.deposits (stillCall maxSamples reloading vrefMv).adv
            (min (x.deposits - next) maxSamples) 0 next := by
          intro j hj
          simp only [stillCall]
          omega
        simp only [Plane.sample, if_neg hunbound, AdcStream.rawAnswer, hr.slot]
        exact copyRaw_eq hin

/-! ### Runs -/

/-- A filtered read that meets the condition. -/
lemma PlaneInv.read_filtered (h : PlaneInv x next) (hb : x.stream.dspBound = true)
    (hread : x.Readable next) (maxSamples : ℕ) (reloading : Bool) (vrefMv : ℕ) (y : Plane) :
    PlaneInv { x with stream := (x.read v old (stillCall maxSamples reloading vrefMv)).hw }
      (oldestUnread v old next x (.read maxSamples reloading vrefMv) y) := by
  obtain ⟨hf, hsound⟩ := h.filtered hb
  have hprod : x.produced = x.outputs.length := if_pos hb
  have hle := hf.le
  have hrec := hread.1
  have heq := h.read_eq v old maxSamples reloading vrefMv
  rw [if_pos hb, hf.readProc_eq hsound] at heq
  -- what the answer leaves is a filtered plane again
  have hkeep {s : AdcStream} {n : ℕ} (hs : x.stream.SameBinding s)
      (herr : s.dmaErrorCount = x.stream.dmaErrorCount) (hs' : s.Filtered x.outputs n)
      (hsound' : s.Sound) : PlaneInv { x with stream := s } n :=
    ⟨hs.inUse.trans h.run, herr.trans h.noError,
      fun hraw => absurd ((hs.dspBound.trans hb).symm.trans hraw) Bool.noConfusion,
      fun _ => ⟨hs', hsound'⟩⟩
  by_cases hring : adcRingSamples ≤ x.outputs.length - next
  · rw [hprod, recognised_iff hring] at hrec
    rw [if_neg hrec.1, if_pos hrec.2] at heq
    simp only [oldestUnread, heq, hprod]
    exact hkeep ⟨rfl, rfl, rfl, rfl⟩ rfl hf.resync
      ⟨hsound.terminal, hsound.cfgBad, hsound.sat, hsound.gap⟩
  · have hmod : (x.outputs.length - next) % 2 ^ 32 = x.outputs.length - next := by
      refine Nat.mod_eq_of_lt ?_
      simp only [adcRingSamples] at hring
      omega
    rw [hmod, if_neg hring] at heq
    by_cases hempty : x.outputs.length - next = 0 ∨ 2 ^ 31 ≤ x.outputs.length - next
    · rw [if_pos hempty] at heq
      simp only [oldestUnread, heq, List.length_nil, Nat.add_zero]
      exact h
    · rw [if_neg hempty] at heq
      have hk : next + min (x.outputs.length - next) maxSamples ≤ x.outputs.length := by omega
      simp only [oldestUnread, heq, AdcStream.procAnswer, List.length_map, List.length_range]
      exact hkeep ⟨rfl, rfl, rfl, rfl⟩ rfl (hf.procServed hk)
        ⟨hsound.terminal, hsound.cfgBad, hsound.sat, hsound.gap⟩

/-- A raw read that meets the condition. -/
lemma PlaneInv.read_raw (h : PlaneInv x next) (hb : x.stream.dspBound = false)
    (hread : x.Readable next) (maxSamples : ℕ) (reloading : Bool) (vrefMv : ℕ) (y : Plane) :
    PlaneInv { x with stream := (x.read v old (stillCall maxSamples reloading vrefMv)).hw }
      (oldestUnread v old next x (.read maxSamples reloading vrefMv) y) := by
  have hr := h.raw hb
  have hunbound : ¬ x.stream.dspBound = true := by simp [hb]
  have hprod : x.produced = x.deposits := if_neg hunbound
  have hle := hr.le
  obtain ⟨hrec, hreg⟩ := hread
  have heq := h.read_eq v old maxSamples reloading vrefMv
  rw [if_neg hunbound, hr.readRaw_eq hb hreg rfl] at heq
  generalize henv : (stillCall maxSamples reloading vrefMv).env v old x.deposits = env at heq
  have hremaining : env.remaining = fun _ => remainingAt x.deposits reloading := by
    rw [← henv]
    rfl
  -- every answer has looked at the counter
  have hkeep {s : AdcStream} {n : ℕ} (hs : x.stream.SameBinding s)
      (herr : s.dmaErrorCount = x.stream.dmaErrorCount)
      (hlap : s.lapCount = x.stream.lapCount)
      (htrk : s.rdPos = (x.stream.observed env).rdPos) (hslot : s.readIdx = n % adcRingSamples)
      (htotal : s.totalRead = n % 2 ^ 32) (hn : n ≤ x.deposits) :
      PlaneInv { x with stream := s } n := by
    refine ⟨hs.inUse.trans h.run, herr.trans h.noError, fun _ => ?_, fun hbound => ?_⟩
    · refine ⟨hlap.trans hr.lapCount, hslot, htotal, hn, fun _ => ⟨x.deposits, hn, ?_⟩⟩
      rw [htrk]
      refine ⟨Nat.le_refl _, hr.lapCount, ?_⟩
      simp only [AdcStream.observed, adcStreamTotalWritten, hremaining,
        adcStreamWriteIndex_remainingAt]
    · exact absurd ((hs.dspBound.trans hb).symm.trans hbound) Bool.noConfusion
  by_cases hring : adcRingSamples ≤ x.deposits - next
  · rw [hprod, recognised_iff hring] at hrec
    rw [if_neg hrec.1, if_pos hrec.2] at heq
    simp only [oldestUnread, heq, hprod]
    refine hkeep ⟨rfl, rfl, rfl, rfl⟩ rfl rfl rfl ?_ ?_ (Nat.le_refl _)
    · simp only [AdcStream.resync, hremaining, adcStreamWriteIndex_remainingAt, Nat.mod_mod]
    · simp only [AdcStream.resync, hremaining]
      exact hr.total_written hb hreg reloading
  · have hmod : (x.deposits - next) % 2 ^ 32 = x.deposits - next := by
      refine Nat.mod_eq_of_lt ?_
      simp only [adcRingSamples] at hring
      omega
    rw [hmod, if_neg hring] at heq
    by_cases hempty : x.deposits - next = 0 ∨ 2 ^ 31 ≤ x.deposits - next
    · rw [if_pos hempty] at heq
      simp only [oldestUnread, heq, List.length_nil, Nat.add_zero]
      exact hkeep ⟨rfl, rfl, rfl, rfl⟩ rfl rfl rfl hr.slot hr.total hr.le
    · rw [if_neg hempty] at heq
      have hidx : x.stream.readIdx < adcRingSamples := by
        rw [hr.slot]
        exact Nat.mod_lt _ (by decide)
      simp only [oldestUnread, heq, AdcStream.rawAnswer, copyRaw_length]
      refine hkeep ⟨rfl, rfl, rfl, rfl⟩ rfl rfl rfl ?_ ?_ (by omega)
      · simp only [AdcStream.consumed]
        rw [copyRaw_snd _ _ _ _ hidx, hr.slot, Nat.mod_add_mod]
      · simp only [AdcStream.consumed, hr.total, Nat.mod_add_mod]

lemma PlaneInv.step {p q : Plane × ℕ} {e : PlaneEvent} (h : PlaneInv p.1 p.2)
    (hs : withHistory (planeStep v old) (oldestUnread v old) p e = some q)
    (hok : ReadsReadable p e q) : PlaneInv q.1 q.2 := by
  obtain ⟨hstep, hhist⟩ := withHistory_eq_some.mp hs
  obtain ⟨y, n⟩ := q
  simp only at hstep hhist
  subst hhist
  cases e with
  | deposit n =>
    simp only [planeStep, Option.some.injEq] at hstep
    subst hstep
    exact h.deposit n
  | commit rawRead out =>
    simp only [planeStep] at hstep
    split_ifs at hstep with hb
    cases hstep
    exact h.commit hb.1 rawRead out
  | read maxSamples reloading vrefMv =>
    simp only [planeStep, Option.some.injEq] at hstep
    subst hstep
    cases hb : p.1.stream.dspBound with
    | true => exact h.read_filtered hb hok maxSamples reloading vrefMv p.1
    | false => exact h.read_raw hb hok maxSamples reloading vrefMv p.1

lemma PlaneInv.of_reach {p : Plane × ℕ}
    (hp : Reach (withHistory (planeStep v old) (oldestUnread v old)) PlaneInit ReadsReadable p) :
    PlaneInv p.1 p.2 := by
  refine Reach.invariant (I := fun p => PlaneInv p.1 p.2) ?_ ?_ hp
  · exact fun _ h₀ => .of_init h₀
  · exact fun _ _ _ _ hI hs hok => hI.step hs hok

/-- In a run whose reads all meet the condition, whatever has been deposited or committed since
the last of them, the next read is exact if and only if it meets the condition too. -/
theorem overrun_detection_exact_iff (v old : ℕ → UInt16) {p : Plane × ℕ}
    (hp : Reach (withHistory (planeStep v old) (oldestUnread v old)) PlaneInit ReadsReadable p)
    (maxSamples : ℕ) (reloading : Bool) (vrefMv : ℕ) :
    ReadExact v p.1 p.2 maxSamples vrefMv
      (p.1.read v old (stillCall maxSamples reloading vrefMv)) ↔ p.1.Readable p.2 :=
  (PlaneInv.of_reach hp).exact_iff maxSamples reloading vrefMv

instance (x : Plane) : Decidable x.Regressed := inferInstanceAs (Decidable (_ ∧ _))

instance (x : Plane) (next : ℕ) : Decidable (x.Readable next) := inferInstanceAs (Decidable (_ ∧ _))

/-- A test for `ReadsReadable`. -/
def readableCheck (p : Plane × ℕ) (e : PlaneEvent) : Bool :=
  match e with
  | .read _ _ _ => decide (p.1.Readable p.2)
  | _ => true

lemma ReadsReadable.of_check {p q : Plane × ℕ} {e : PlaneEvent} (h : readableCheck p e = true) :
    ReadsReadable p e q := by
  cases e with
  | read maxSamples reloading vrefMv =>
    simp only [readableCheck, decide_eq_true_eq] at h
    exact h
  | _ => trivial

/-- Stream 0 at the start of a session, and with a filter bound to it. -/
def freshPlane : Plane × ℕ := (⟨AdcStream.zero.started 0 12, 0, []⟩, 0)

def filterPlane : Plane × ℕ := (⟨(AdcStream.zero.started 0 12).attached 0 0, 0, []⟩, 0)

lemma freshPlane_init : PlaneInit freshPlane := ⟨rfl, .inl ⟨_, _, _, rfl⟩⟩

lemma filterPlane_init : PlaneInit filterPlane :=
  ⟨rfl, .inr ⟨_, _, _, _, rfl, rfl, rfl, rfl, rfl, by decide⟩⟩

/-- An overrun of two thousand samples is answered BUSY, and five more are served. -/
theorem overrun_detection_exact_overrun :
    ∃ p, Reach (withHistory (planeStep (fun n => .ofNat n) fun _ => 0)
        (oldestUnread (fun n => .ofNat n) fun _ => 0)) PlaneInit ReadsReadable p ∧
      p.2 = 2000 ∧ p.1.deposits = 2005 ∧ p.1.Readable p.2 ∧
      ReadExact (fun n => .ofNat n) p.1 p.2 16 3300
        (p.1.read (fun n => .ofNat n) (fun _ => 0) (stillCall 16 false 3300)) := by
  have hinit : Reach (withHistory (planeStep (fun n => .ofNat n) fun _ => 0)
      (oldestUnread (fun n => .ofNat n) fun _ => 0)) PlaneInit ReadsReadable freshPlane :=
    .start freshPlane_init
  obtain ⟨p, hp, hq⟩ := hinit.exists_of_run (fun p e _ => readableCheck p e)
    (fun p => p.2 == 2000 && (p.1.deposits == 2005 && decide (p.1.Readable p.2)))
    [.deposit 2000, .read 16 false 3300, .deposit 5]
    (fun _ _ _ h => .of_check h) (by decide)
  simp only [Bool.and_eq_true, beq_iff_eq, decide_eq_true_eq] at hq
  obtain ⟨hnext, hdep, hread⟩ := hq
  exact ⟨p, hp, hnext, hdep, hread,
    (overrun_detection_exact_iff _ _ hp 16 false 3300).mpr hread⟩

/-- A session that deposits any number of samples before its first read. -/
lemma exists_idle_raw (n : ℕ) :
    ∃ p, Reach (withHistory (planeStep v old) (oldestUnread v old)) PlaneInit ReadsReadable p ∧
      p.1.stream.dspBound = false ∧ p.1.produced - p.2 = n := by
  have hbound : (freshPlane.1.deposit n).stream.dspBound = false := by
    simp only [Plane.deposit]
    rw [AdcStream.lapTimes_eq]
    rfl
  refine ⟨(freshPlane.1.deposit n, 0), ?_, hbound, ?_⟩
  · exact .next (.deposit n) (.start freshPlane_init) rfl trivial
  · simp only [Plane.produced, hbound, Bool.false_eq_true, if_false, Nat.sub_zero]
    exact Nat.zero_add n

/-- A session that commits any number of outputs before its first read. -/
lemma exists_idle_filtered (n : ℕ) :
    ∃ p, Reach (withHistory (planeStep v old) (oldestUnread v old)) PlaneInit ReadsReadable p ∧
      p.1.stream.dspBound = true ∧ p.1.produced - p.2 = n := by
  suffices h : ∃ x : Plane, Reach (withHistory (planeStep v old) (oldestUnread v old)) PlaneInit
      ReadsReadable (x, 0) ∧ x.stream.dspBound = true ∧ x.outputs.length = n by
    obtain ⟨x, hx, hb, hn⟩ := h
    exact ⟨(x, 0), hx, hb, (if_pos hb).trans hn⟩
  induction n with
  | zero => exact ⟨filterPlane.1, .start filterPlane_init, rfl, rfl⟩
  | succ n ih =>
    obtain ⟨x, hx, hb, hn⟩ := ih
    refine ⟨{ x with stream := x.stream.published 0 [0] false, outputs := x.outputs ++ [0] }, ?_,
      hb, ?_⟩
    · have hcommit : ReadsReadable (x, 0) (.commit 0 [0])
          ({ x with stream := x.stream.published 0 [0] false, outputs := x.outputs ++ [0] }, 0) :=
        trivial
      refine .next (.commit 0 [0]) hx (withHistory_eq_some.mpr ⟨?_, rfl⟩) hcommit
      exact if_pos ⟨hb, by decide⟩
    · rw [List.length_append, hn]
      rfl

/-- The first read after `2 ^ 31` deposits is answered as if there were none; on the filtered plane
the first read after `2 ^ 32 + 5` outputs serves the last five, and answers OK. -/
theorem overrun_detection_wraps :
    (∃ p, Reach (withHistory (planeStep (fun _ => 0) fun _ => 0)
        (oldestUnread (fun _ => 0) fun _ => 0)) PlaneInit ReadsReadable p ∧
      p.1.stream.dspBound = false ∧ p.1.produced - p.2 = 2 ^ 31 ∧
      ¬ ReadExact (fun _ => 0) p.1 p.2 16 3300
        (p.1.read (fun _ => 0) (fun _ => 0) (stillCall 16 false 3300))) ∧
    (∃ p, Reach (withHistory (planeStep (fun _ => 0) fun _ => 0)
        (oldestUnread (fun _ => 0) fun _ => 0)) PlaneInit ReadsReadable p ∧
      p.1.stream.dspBound = true ∧ p.1.produced - p.2 = 2 ^ 32 + 5 ∧
      ¬ ReadExact (fun _ => 0) p.1 p.2 16 3300
        (p.1.read (fun _ => 0) (fun _ => 0) (stillCall 16 false 3300))) := by
  have hmissed : ¬ Recognised (2 ^ 31) := by decide
  have hmixed : ¬ Recognised (2 ^ 32 + 5) := by decide
  constructor
  · obtain ⟨p, hp, hb, hn⟩ := exists_idle_raw (2 ^ 31)
    refine ⟨p, hp, hb, hn, fun hex => hmissed ?_⟩
    rw [← hn]
    exact (((PlaneInv.of_reach hp).exact_iff 16 false 3300).mp hex).1
  · obtain ⟨p, hp, hb, hn⟩ := exists_idle_filtered (2 ^ 32 + 5)
    refine ⟨p, hp, hb, hn, fun hex => hmixed ?_⟩
    rw [← hn]
    exact (((PlaneInv.of_reach hp).exact_iff 16 false 3300).mp hex).1

end Gd32Bridge
