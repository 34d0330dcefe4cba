import Gd32Bridge.Adc.Cursor
import Gd32Bridge.Adc.Filtered

/-!
# The raw stream and the DMA behind it

The DMA deposits samples one by one into the ring; the lap interrupt counts the reloads, at most
one reload late.  Samples are numbered by their deposit.  The history of a run keeps the number of
the sample served next and the numbers served since the last BUSY.
-/

namespace Gd32Bridge

open Transition

/-! ### The ring -/

/-- The number of the deposit that slot `k` holds after `d` deposits. -/
def lastDeposit (k d : ℕ) : ℕ := k + adcRingSamples * ((d - 1 - k) / adcRingSamples)

/-- A deposit stays in its slot for one lap. -/
lemma lastDeposit_eq {n d : ℕ} (hlt : n < d) (hle : d ≤ n + adcRingSamples) :
    lastDeposit (n % adcRingSamples) d = n := by
  simp only [lastDeposit, adcRingSamples] at hle ⊢
  omega

/-- The DMA counter after `d` deposits; at a reload it may still read zero. -/
def remainingAt (d : ℕ) (reloading : Bool) : ℕ :=
  if reloading = true ∧ d % adcRingSamples = 0 then 0 else adcRingSamples - d % adcRingSamples

lemma adcStreamWriteIndex_remainingAt (d : ℕ) (reloading : Bool) :
    adcStreamWriteIndex (remainingAt d reloading) = d % adcRingSamples := by
  have hlt : d % adcRingSamples < adcRingSamples := Nat.mod_lt _ (by decide)
  simp only [remainingAt]
  split
  · next h => exact h.2.symm
  · simp only [adcStreamWriteIndex]
    rw [if_neg (by omega)]
    omega

/-- A stream, the deposits so far, and the reloads its lap interrupt has counted. -/
structure AdcRing where
  stream : AdcStream
  deposits : ℕ
  laps : ℕ

/-- How one call of `adc_stream_read` meets the hardware: what it is asked for, the error flag, the
counter at a reload, the reference, the deposits that have landed since its counter reads when it
copies each sample, and when it returns. -/
structure ReadCall where
  maxSamples : ℕ
  dmaErr : Bool
  reloading : Bool
  vrefMv : ℕ
  adv : ℕ → ℕ
  total : ℕ

/-- The environment of a call after `d` deposits of the samples `v`; `old` was in the ring
before. -/
def ReadCall.env (c : ReadCall) (v old : ℕ → UInt16) (d : ℕ) : ReadEnv where
  dmaErr := c.dmaErr
  rovf := false
  recovered := true
  remaining _ := remainingAt d c.reloading
  ring i k := if k < d + c.adv i then v (lastDeposit k (d + c.adv i)) else old k
  vrefMv := c.vrefMv

inductive RingEvent
  /-- the DMA deposits some samples -/
  | deposit (n : ℕ)
  | lapIsr (dmaErr : Bool)
  | read (c : ReadCall)

/-- The lap interrupt comes before the next reload: no two reloads make one tick. -/
def ringStep (v old : ℕ → UInt16) (x : AdcRing) : RingEvent → Option AdcRing
  | .deposit n =>
    if (x.deposits + n) / adcRingSamples ≤ x.laps + 1 then
      some { x with deposits := x.deposits + n }
    else none
  | .lapIsr dmaErr =>
    if x.laps < x.deposits / adcRingSamples then
      some { x with stream := x.stream.lapped true dmaErr, laps := x.laps + 1 }
    else none
  | .read c =>
    if (x.deposits + c.total) / adcRingSamples ≤ x.laps + 1 then
      some ⟨(x.stream.read (c.env v old x.deposits) c.maxSamples).hw, x.deposits + c.total, x.laps⟩
    else none

/-! ### What has been served -/

/-- A reload is pending that the reader's tracker does not show. -/
def AdcRing.uncounted (x : AdcRing) : Bool :=
  decide (x.laps < x.deposits / adcRingSamples) &&
    !(x.stream.rdPos.valid && x.stream.lapCount == x.stream.rdPos.laps &&
      decide (x.deposits % adcRingSamples < x.stream.rdPos.w))

/-- The history: the sample served next, whether `total_read` is a lap short of it, and the samples
returned since the last BUSY. -/
structure Served where
  next : ℕ
  short : Bool
  delivered : List ℕ

/-- One lap if asked for. -/
def lapIf (b : Bool) : ℕ := if b then adcRingSamples else 0

/-- The backlog as the reader reckons it. -/
def AdcRing.unread (x : AdcRing) (h : Served) : ℕ :=
  x.deposits - lapIf x.uncounted + lapIf h.short - h.next

/-- The numbers of the deposits that the copy loop finds in the ring. -/
def copiedDeposits (d : ℕ) (adv : ℕ → ℕ) : ℕ → ℕ → ℕ → List ℕ
  | 0, _, _ => []
  | n + 1, i, readIdx =>
    lastDeposit readIdx (d + adv i) ::
      copiedDeposits d adv n (i + 1) ((readIdx + 1) % adcRingSamples)

/-- The deposits a call returns. -/
def AdcRing.returned (v old : ℕ → UInt16) (x : AdcRing) (c : ReadCall) : List ℕ :=
  copiedDeposits x.deposits c.adv
    (x.stream.read (c.env v old x.deposits) c.maxSamples).out.length 0 x.stream.readIdx

/-- What a step adds to the history. -/
def Served.update (v old : ℕ → UInt16) (h : Served) (x : AdcRing) (e : RingEvent) (_ : AdcRing) :
    Served :=
  match e with
  | .read c =>
    match (x.stream.read (c.env v old x.deposits) c.maxSamples).rv with
    | .busy => ⟨x.deposits, x.uncounted, []⟩
    | .ok =>
      if x.returned v old c = [] then h
      else ⟨x.deposits - x.unread h + (x.returned v old c).length, x.uncounted,
        h.delivered ++ x.returned v old c⟩
    | _ => h
  | _ => h

/-- The samples served since the last BUSY are consecutive deposits. -/
def InOrder (x : AdcRing) (h : Served) : Prop :=
  ∃ n, h.delivered = List.range' n h.delivered.length ∧ n + h.delivered.length ≤ x.deposits

/-! ### The condition -/

/-- The call serves samples a lap further on than the last one it returned: a reload is pending
that the tracker does not show, `total_read` is not itself a lap short, and more than one ring but
less than two is unread. -/
def AdcRing.Skips (x : AdcRing) (h : Served) (c : ReadCall) : Prop :=
  x.uncounted = true ∧ h.short = false ∧ h.next + adcRingSamples < x.deposits ∧
    x.deposits < h.next + 2 * adcRingSamples ∧ h.delivered ≠ [] ∧ 0 < c.maxSamples

/-- The DMA does not reach the slot of a sample before it is copied. -/
def AdcRing.KeepsAhead (x : AdcRing) (h : Served) (c : ReadCall) : Prop :=
  x.unread h < adcRingSamples → ∀ i < min (x.unread h) c.maxSamples,
    x.deposits + c.adv i ≤ x.deposits - x.unread h + i + adcRingSamples

/-- The tracker shows a regression: the write index is below the one it remembers from the same
lap count. -/
def AdcRing.Regressed (x : AdcRing) : Prop :=
  x.stream.rdPos.valid = true ∧ x.stream.lapCount = x.stream.rdPos.laps ∧
    x.deposits % adcRingSamples < x.stream.rdPos.w

instance (x : AdcRing) : Decidable x.Regressed := inferInstanceAs (Decidable (_ ∧ _))

/-- A call that looks at the backlog finds it right. -/
structure AdcRing.Reckoned (x : AdcRing) (h : Served) (c : ReadCall) : Prop where
  /-- the tracker shows a regression only when a reload is pending -/
  regress : x.Regressed → x.laps < x.deposits / adcRingSamples
  told : BacklogTold (x.unread h) c.maxSamples
  skips : ¬ x.Skips h c
  ahead : x.KeepsAhead h c

/-- The condition on the reads of a run. -/
def ReadOk (p : AdcRing × Served) (e : RingEvent) (_ : AdcRing × Served) : Prop :=
  match e with
  | .read c =>
    (p.1.stream.latchDmaError c.dmaErr).dmaErrorCount = 0 → p.1.Reckoned p.2 c
  | _ => True

/-- A running stream just begun. -/
def RingInit (p : AdcRing × Served) : Prop :=
  (∃ s channel bits, p.1 = ⟨AdcStream.started s channel bits, 0, 0⟩) ∧ p.2 = ⟨0, false, []⟩

/-! ### The invariant -/

/-- What the tracker of the reader remembers: the counter at an earlier moment. -/
structure Tracked (x : AdcRing) (h : Served) (d l : ℕ) : Prop where
  laps : x.stream.rdPos.laps = l % 2 ^ 32
  w : x.stream.rdPos.w = d % adcRingSamples
  behind : l ≤ d / adcRingSamples
  ahead : d / adcRingSamples ≤ l + 1
  past : d ≤ x.deposits
  pastLaps : l ≤ x.laps
  next : h.next ≤ d

structure RingInv (x : AdcRing) (h : Served) : Prop where
  run : x.stream.inUse = true
  raw : x.stream.dspBound = false
  behind : x.laps ≤ x.deposits / adcRingSamples
  ahead : x.deposits / adcRingSamples ≤ x.laps + 1
  lapCount : x.stream.lapCount = x.laps % 2 ^ 32
  slot : x.stream.readIdx = h.next % adcRingSamples
  small : x.stream.totalRead < 2 ^ 32
  total : (x.stream.totalRead + lapIf h.short) % 2 ^ 32 = h.next % 2 ^ 32
  next : h.next ≤ x.deposits
  tracker : x.stream.rdPos.valid = true → ∃ d l, Tracked x h d l
  order : ∃ n, h.delivered = List.range' n h.delivered.length ∧
    (h.delivered ≠ [] → n + h.delivered.length = h.next)

@[simp]
lemma lapIf_true : lapIf true = adcRingSamples := rfl

@[simp]
lemma lapIf_false : lapIf false = 0 := rfl

lemma lapIf_le (b : Bool) : lapIf b ≤ adcRingSamples := by
  cases b
  · exact Nat.zero_le _
  · exact Nat.le_refl _

variable {v old : ℕ → UInt16} {x : AdcRing} {h : Served}

lemma AdcRing.uncounted_le (hx : x.uncounted = true) : adcRingSamples ≤ x.deposits := by
  simp only [uncounted, Bool.and_eq_true, decide_eq_true_eq] at hx
  have hlap := hx.1
  simp only [adcRingSamples] at hlap ⊢
  omega

lemma AdcRing.lapIf_uncounted_le (x : AdcRing) : lapIf x.uncounted ≤ x.deposits := by
  cases hx : x.uncounted
  · exact Nat.zero_le _
  · exact x.uncounted_le hx

/-- The corrected total counts every deposit but those of an uncounted lap. -/
lemma RingInv.total_written (hi : RingInv x h)
    (hpend : x.Regressed → x.laps < x.deposits / adcRingSamples) (reloading : Bool) :
    (adcStreamTotalWritten x.stream.lapCount (remainingAt x.deposits reloading)
      x.stream.rdPos).1 = (x.deposits - lapIf x.uncounted) % 2 ^ 32 := by
  have hb := hi.behind
  have ha := hi.ahead
  have hlap := hi.lapCount
  simp only [adcStreamTotalWritten, adcStreamWriteIndex_remainingAt]
  by_cases hreg : x.stream.rdPos.valid = true ∧ x.stream.lapCount = x.stream.rdPos.laps ∧
      x.deposits % adcRingSamples < x.stream.rdPos.w
  · have hp := hpend hreg
    have hunc : x.uncounted = false := by
      simp only [AdcRing.uncounted, hreg.1, hreg.2.1, hreg.2.2, beq_self_eq_true, decide_true,
        Bool.and_self, Bool.not_true, Bool.and_false]
    rw [if_pos hreg, hunc, hlap, lapIf_false]
    simp only [adcRingSamples] at hb ha hp ⊢
    omega
  · have hunc : x.uncounted = decide (x.laps < x.deposits / adcRingSamples) := by
      simp only [AdcRing.uncounted, Bool.and_eq_left_iff_imp]
      intro _
      simp only [Bool.not_eq_true', Bool.and_eq_false_imp, Bool.and_eq_true, beq_iff_eq,
        decide_eq_false_iff_not]
      exact fun hv hw => hreg ⟨hv.1, hv.2, hw⟩
    rw [if_neg hreg, hunc, hlap]
    by_cases hp : x.laps < x.deposits / adcRingSamples
    · rw [decide_eq_true hp, lapIf_true]
      simp only [adcRingSamples] at hb ha hp ⊢
      omega
    · rw [decide_eq_false hp, lapIf_false]
      simp only [adcRingSamples] at hb ha hp ⊢
      omega

/-- The difference of the two counters is what is unread, once around, or no more than nothing. -/
lemma int32Sub_cases {a r lag n : ℕ} (hn : (r + lag) % 2 ^ 32 = n % 2 ^ 32)
    (hlag : lag ≤ adcRingSamples) (hlow : n ≤ a + adcRingSamples) :
    int32Sub (a % 2 ^ 32) r ≤ 0 ∨
      (a + lag - n) % 2 ^ 32 ≠ 0 ∧
        int32Sub (a % 2 ^ 32) r = (((a + lag - n) % 2 ^ 32 : ℕ) : ℤ) := by
  simp only [adcRingSamples] at hlag hlow
  simp only [int32Sub]
  split <;> omega

/-- The backlog is what is unread, once around, or no more than nothing. -/
lemma RingInv.backlog_cases (hi : RingInv x h) {env : ReadEnv} {reloading : Bool}
    (henv : env.remaining 0 = remainingAt x.deposits reloading)
    (hpend : x.Regressed → x.laps < x.deposits / adcRingSamples) :
    x.stream.backlog env ≤ 0 ∨
      x.unread h % 2 ^ 32 ≠ 0 ∧ x.stream.backlog env = ((x.unread h % 2 ^ 32 : ℕ) : ℤ) := by
  have hunc := x.lapIf_uncounted_le
  have hlap := lapIf_le x.uncounted
  have hnext := hi.next
  rw [AdcStream.backlog, henv, hi.total_written hpend]
  exact int32Sub_cases hi.total (lapIf_le _) (by omega)

/-! ### The copy loop -/

lemma copyRaw_length (env : ReadEnv) (fullScale n i readIdx : ℕ) :
    (copyRaw env fullScale n i readIdx).1.length = n := by
  induction n generalizing i readIdx with
  | zero => rfl
  | succ n ih => rw [copyRaw, List.length_cons, ih]

/-- The `n` samples from `base` on are in the ring when the loop comes to them. -/
def InRing (d : ℕ) (adv : ℕ → ℕ) (n i base : ℕ) : Prop :=
  ∀ j < n, base + j < d + adv (i + j) ∧ d + adv (i + j) ≤ base + j + adcRingSamples

lemma InRing.head {d n i base : ℕ} {adv : ℕ → ℕ} (hr : InRing d adv (n + 1) i base) :
    base < d + adv i ∧ lastDeposit (base % adcRingSamples) (d + adv i) = base := by
  have h₀ := hr 0 (Nat.succ_pos n)
  exact ⟨h₀.1, lastDeposit_eq h₀.1 h₀.2⟩

lemma InRing.tail {d n i base : ℕ} {adv : ℕ → ℕ} (hr : InRing d adv (n + 1) i base) :
    InRing d adv n (i + 1) (base + 1) := by
  intro j hj
  have hj₁ := hr (j + 1) (Nat.succ_lt_succ hj)
  rw [Nat.add_right_comm i, Nat.add_right_comm base]
  exact hj₁

/-- As long as the DMA does not overtake it, the loop finds consecutive deposits. -/
lemma copiedDeposits_eq {d : ℕ} {adv : ℕ → ℕ} {n i base : ℕ} (hr : InRing d adv n i base) :
    copiedDeposits d adv n i (base % adcRingSamples) = List.range' base n := by
  induction n generalizing i base with
  | zero => rfl
  | succ n ih => rw [copiedDeposits, hr.head.2, Nat.mod_add_mod, ih hr.tail, List.range'_succ]

/-- ... and returns their values. -/
lemma copyRaw_eq {c : ReadCall} {d fullScale n i base : ℕ} (hr : InRing d c.adv n i base) :
    (copyRaw (c.env v old d) fullScale n i (base % adcRingSamples)).1 =
      (List.range' base n).map fun m => codeMv fullScale c.vrefMv (v m) := by
  induction n generalizing i base with
  | zero => rfl
  | succ n ih =>
    have hhead : (c.env v old d).ring i (base % adcRingSamples) = v base := by
      have hin : base % adcRingSamples < d + c.adv i :=
        Nat.lt_of_le_of_lt (Nat.mod_le _ _) hr.head.1
      simp only [ReadCall.env, if_pos hin, hr.head.2]
    rw [copyRaw, hhead, Nat.mod_add_mod, ih hr.tail, List.range'_succ]
    rfl

/-! ### One call -/

lemma AdcStream.consumed_zero {s : AdcStream} (hs : s.totalRead < 2 ^ 32) (env : ReadEnv) :
    s.consumed env 0 = s.observed env := by
  have hsame : (s.totalRead + 0) % 2 ^ 32 = s.totalRead := Nat.mod_eq_of_lt hs
  simp only [consumed, copyRaw, hsame]
  rfl

/-- The four ways a call without an overflow can go. -/
lemma RingInv.serve_cases (hi : RingInv x h) {env : ReadEnv} {reloading : Bool} {maxSamples : ℕ}
    (henv : env.remaining 0 = remainingAt x.deposits reloading) (hrovf : env.rovf = false)
    (hpend : x.Regressed → x.laps < x.deposits / adcRingSamples)
    (htold : BacklogTold (x.unread h) maxSamples) (herr : x.stream.dmaErrorCount = 0) :
    x.stream.serve env maxSamples = ⟨x.stream.observed env, .ok, []⟩ ∨
      x.stream.serve env maxSamples = ⟨x.stream.resync env, .busy, []⟩ ∨
      0 < maxSamples ∧ 0 < x.unread h ∧ x.unread h < adcRingSamples ∧
        x.stream.serve env maxSamples =
          ⟨x.stream.consumed env (min (x.unread h) maxSamples), .ok,
            (copyRaw env x.stream.fullScale (min (x.unread h) maxSamples) 0
              x.stream.readIdx).1⟩ := by
  have hraw : x.stream.serve env maxSamples = x.stream.readRaw env maxSamples := by
    simp only [AdcStream.serve, if_neg (not_not.mpr herr), hrovf, hi.raw, Bool.false_eq_true,
      if_false]
  rw [hraw]
  rcases hi.backlog_cases henv hpend with hle | ⟨hpos, hback⟩
  · exact .inl (if_pos hle)
  have hle : ¬ x.stream.backlog env ≤ 0 := by omega
  by_cases hover : x.stream.backlog env ≥ adcRingSamples
  · refine .inr (.inl ?_)
    simp only [AdcStream.readRaw, if_neg hle, if_pos hover]
  by_cases hask : maxSamples = 0
  · -- nothing is asked for, so nothing is copied whatever the backlog is
    refine .inl ?_
    simp only [AdcStream.readRaw, if_neg hle, if_neg hover, hask, Nat.min_zero,
      AdcStream.consumed_zero hi.small, copyRaw]
  · have hlt := htold.unread_lt hpos (by omega) hask
    have hmod : x.unread h % 2 ^ 32 = x.unread h := by
      simp only [adcRingSamples] at hlt
      exact Nat.mod_eq_of_lt (by omega)
    rw [hmod] at hback
    have hnat : (x.stream.backlog env).toNat = x.unread h := by
      rw [hback, Int.toNat_natCast]
    refine .inr (.inr ⟨Nat.pos_of_ne_zero hask, by omega, hlt, ?_⟩)
    simp only [AdcStream.readRaw, if_neg hle, if_neg hover, hnat]

/-- The DMA goes on depositing. -/
lemma RingInv.deposit (hi : RingInv x h) {n : ℕ}
    (hn : (x.deposits + n) / adcRingSamples ≤ x.laps + 1) :
    RingInv { x with deposits := x.deposits + n } h := by
  refine { hi with behind := ?_, ahead := hn, next := ?_, tracker := fun hv => ?_ }
  · exact Nat.le_trans hi.behind (Nat.div_le_div_right (Nat.le_add_right _ _))
  · exact Nat.le_trans hi.next (Nat.le_add_right _ _)
  · obtain ⟨d, l, ht⟩ := hi.tracker hv
    exact ⟨d, l, { ht with past := Nat.le_trans ht.past (Nat.le_add_right _ _) }⟩

/-- Latching the error flag. -/
lemma RingInv.latch (hi : RingInv x h) (dmaErr : Bool) :
    RingInv { x with stream := x.stream.latchDmaError dmaErr } h := by
  cases dmaErr
  · exact hi
  · refine { hi with tracker := fun hv => ?_ }
    obtain ⟨d, l, ht⟩ := hi.tracker hv
    exact ⟨d, l, { ht with }⟩

/-- After a look at the counter the tracker holds the present. -/
lemma RingInv.observe (hi : RingInv x h) {s : AdcStream} {h' : Served}
    (hbind : x.stream.SameBinding s) (hlap : s.lapCount = x.stream.lapCount)
    (htrk : s.rdPos = ⟨x.stream.lapCount, x.deposits % adcRingSamples, true⟩)
    (hslot : s.readIdx = h'.next % adcRingSamples) (hsmall : s.totalRead < 2 ^ 32)
    (htotal : (s.totalRead + lapIf h'.short) % 2 ^ 32 = h'.next % 2 ^ 32)
    (hnext : h'.next ≤ x.deposits)
    (horder : ∃ n, h'.delivered = List.range' n h'.delivered.length ∧
      (h'.delivered ≠ [] → n + h'.delivered.length = h'.next)) :
    RingInv { x with stream := s } h' where
  run := hbind.inUse.trans hi.run
  raw := hbind.dspBound.trans hi.raw
  behind := hi.behind
  ahead := hi.ahead
  lapCount := hlap.trans hi.lapCount
  slot := hslot
  small := hsmall
  total := htotal
  next := hnext
  tracker _ := by
    refine ⟨x.deposits, x.laps, ⟨?_, ?_, hi.behind, hi.ahead, Nat.le_refl _, Nat.le_refl _, hnext⟩⟩
    · rw [htrk]
      exact hi.lapCount
    · rw [htrk]
  order := horder

/-- An overrun puts reader and writer at the same sample again. -/
lemma RingInv.resync (hi : RingInv x h) {env : ReadEnv} {reloading : Bool}
    (henv : env.remaining = fun _ => remainingAt x.deposits reloading)
    (hpend : x.Regressed → x.laps < x.deposits / adcRingSamples) :
    RingInv { x with stream := x.stream.resync env } ⟨x.deposits, x.uncounted, []⟩ := by
  have htot := hi.total_written hpend reloading
  have hunc := x.lapIf_uncounted_le
  have hresync : (x.stream.resync env).totalRead = (x.deposits - lapIf x.uncounted) % 2 ^ 32 := by
    simp only [AdcStream.resync, henv, htot]
  refine hi.observe ⟨rfl, rfl, rfl, rfl⟩ rfl ?_ ?_ ?_ ?_ (Nat.le_refl _) ⟨0, rfl, by simp⟩
  · simp only [AdcStream.resync, AdcStream.observed, adcStreamTotalWritten, henv,
      adcStreamWriteIndex_remainingAt]
  · simp only [AdcStream.resync, henv, adcStreamWriteIndex_remainingAt, Nat.mod_mod]
  · rw [hresync]
    exact Nat.mod_lt _ (by decide)
  · simp only [hresync, Nat.mod_add_mod]
    congr 1
    omega

/-- The first sample of a backlog below one ring: its slot is under the cursor, and `total_read` is
short of it by the uncounted lap. -/
lemma RingInv.first_unread (hi : RingInv x h) (hpos : 0 < x.unread h)
    (hlt : x.unread h < adcRingSamples) :
    x.unread h ≤ x.deposits ∧
      x.stream.readIdx = (x.deposits - x.unread h) % adcRingSamples ∧
      (x.stream.totalRead + lapIf x.uncounted) % 2 ^ 32 = (x.deposits - x.unread h) % 2 ^ 32 := by
  have hunc := x.lapIf_uncounted_le
  have hnext := hi.next
  have htotal := hi.total
  rw [hi.slot]
  simp only [AdcRing.unread] at hpos hlt ⊢
  cases hu : x.uncounted <;> cases hs : h.short <;>
    simp only [hu, hs, lapIf_true, lapIf_false, adcRingSamples] at hpos hlt hunc htotal ⊢ <;>
    omega

/-- Serving some samples moves the reader past them. -/
lemma RingInv.consume (hi : RingInv x h) {env : ReadEnv} {reloading : Bool} {n : ℕ}
    (henv : env.remaining = fun _ => remainingAt x.deposits reloading)
    (hpos : 0 < x.unread h) (hlt : x.unread h < adcRingSamples) (hn : n ≤ x.unread h)
    (hskip : h.delivered ≠ [] → x.deposits - x.unread h = h.next) :
    RingInv { x with stream := x.stream.consumed env n }
      ⟨x.deposits - x.unread h + n, x.uncounted,
        h.delivered ++ List.range' (x.deposits - x.unread h) n⟩ := by
  obtain ⟨hbase, hslot, htotal⟩ := hi.first_unread hpos hlt
  have hreadIdx : x.stream.readIdx < adcRingSamples := by
    rw [hslot]
    exact Nat.mod_lt _ (by decide)
  refine hi.observe ⟨rfl, rfl, rfl, rfl⟩ rfl ?_ ?_ ?_ ?_ ?_ ?_
  · simp only [AdcStream.consumed, AdcStream.observed, adcStreamTotalWritten, henv,
      adcStreamWriteIndex_remainingAt]
  · simp only [AdcStream.consumed, copyRaw_snd env x.stream.fullScale n 0 hreadIdx]
    rw [hslot, Nat.mod_add_mod]
  · simp only [AdcStream.consumed]
    exact Nat.mod_lt _ (by decide)
  · simp only [AdcStream.consumed, Nat.mod_add_mod]
    omega
  · show x.deposits - x.unread h + n ≤ x.deposits
    omega
  · obtain ⟨m, hm, hend⟩ := hi.order
    by_cases hd : h.delivered = []
    · exact ⟨x.deposits - x.unread h, by simp [hd], fun _ => by simp [hd]⟩
    · have hlast := hend hd
      have hfirst := hskip hd
      refine ⟨m, ?_, fun _ => ?_⟩
      · simp only [List.length_append, List.length_range']
        rw [← List.range'_append_1, ← hm, hlast, hfirst]
      · simp only [List.length_append, List.length_range']
        omega

section Latch

variable (s : AdcStream) (dmaErr : Bool)

@[simp]
lemma AdcStream.latchDmaError_rdPos : (s.latchDmaError dmaErr).rdPos = s.rdPos := by
  cases dmaErr <;> rfl

@[simp]
lemma AdcStream.latchDmaError_lapCount : (s.latchDmaError dmaErr).lapCount = s.lapCount := by
  cases dmaErr <;> rfl

@[simp]
lemma AdcStream.latchDmaError_readIdx : (s.latchDmaError dmaErr).readIdx = s.readIdx := by
  cases dmaErr <;> rfl

@[simp]
lemma AdcStream.latchDmaError_fullScale : (s.latchDmaError dmaErr).fullScale = s.fullScale := by
  cases dmaErr <;> rfl

end Latch

/-- Without a skip the backlog starts at the sample after the last one returned. -/
lemma RingInv.no_skip (hi : RingInv x h) {c : ReadCall} (hskip : ¬ x.Skips h c)
    (hpos : 0 < x.unread h) (hlt : x.unread h < adcRingSamples) (hmax : 0 < c.maxSamples)
    (hd : h.delivered ≠ []) : x.deposits - x.unread h = h.next := by
  have hunc := x.lapIf_uncounted_le
  have hnext := hi.next
  simp only [AdcRing.Skips, hd, hmax, ne_eq, not_false_eq_true, and_true] at hskip
  simp only [AdcRing.unread] at hpos hlt ⊢
  cases hu : x.uncounted <;> cases hs : h.short <;>
    simp only [hu, hs, lapIf_true, lapIf_false, adcRingSamples, reduceCtorEq, true_and, false_and,
      not_false_eq_true] at hpos hlt hunc hskip ⊢ <;>
    omega

/-- A call on a stream whose error flag has been latched already. -/
lemma RingInv.serve (hi : RingInv x h) {c : ReadCall}
    (hok : x.stream.dmaErrorCount = 0 → x.Reckoned h c) {r : HwResult AdcStream (List UInt16)}
    (hr : x.stream.serve (c.env v old x.deposits) c.maxSamples = r) {l : List ℕ}
    (hl : copiedDeposits x.deposits c.adv r.out.length 0 x.stream.readIdx = l) :
    RingInv { x with stream := r.hw } (match r.rv with
      | .busy => ⟨x.deposits, x.uncounted, []⟩
      | .ok =>
        if l = [] then h
        else ⟨x.deposits - x.unread h + l.length, x.uncounted, h.delivered ++ l⟩
      | _ => h) ∧
      r.out = l.map fun m => codeMv x.stream.fullScale c.vrefMv (v m) := by
  have henv : (c.env v old x.deposits).remaining = fun _ => remainingAt x.deposits c.reloading := rfl
  by_cases herr : x.stream.dmaErrorCount ≠ 0
  · rw [AdcStream.serve, if_pos herr] at hr
    subst hr hl
    exact ⟨hi, rfl⟩
  have herr := not_not.mp herr
  have hc := hok herr
  rcases hi.serve_cases (congrFun henv 0) rfl hc.regress hc.told herr with
    hcase | hcase | ⟨hmax, hpos, hlt, hcase⟩
  · rw [hcase] at hr
    subst hr hl
    refine ⟨?_, rfl⟩
    refine hi.observe ⟨rfl, rfl, rfl, rfl⟩ rfl ?_ hi.slot hi.small hi.total hi.next hi.order
    simp only [AdcStream.observed, adcStreamTotalWritten, henv, adcStreamWriteIndex_remainingAt]
  · rw [hcase] at hr
    subst hr hl
    exact ⟨hi.resync henv hc.regress, rfl⟩
  · -- some samples are copied: they are the next ones, and still in the ring
    rw [hcase] at hr
    subst hr
    obtain ⟨hbase, hslot, -⟩ := hi.first_unread hpos hlt
    have hring : InRing x.deposits c.adv (min (x.unread h) c.maxSamples) 0
        (x.deposits - x.unread h) := by
      intro j hj
      have hle := hc.ahead hlt j hj
      rw [Nat.zero_add]
      omega
    simp only [copyRaw_length] at hl
    rw [hslot, copiedDeposits_eq hring] at hl
    subst hl
    refine ⟨?_, by rw [hslot, copyRaw_eq hring]⟩
    have hne : List.range' (x.deposits - x.unread h) (min (x.unread h) c.maxSamples) ≠ [] := by
      rw [ne_eq, List.range'_eq_nil_iff]
      omega
    rw [if_neg hne, List.length_range']
    exact hi.consume henv hpos hlt (Nat.min_le_left _ _)
      fun hd => hi.no_skip hc.skips hpos hlt hmax hd

lemma RingInv.read (hi : RingInv x h) {c : ReadCall}
    (hok : (x.stream.latchDmaError c.dmaErr).dmaErrorCount = 0 → x.Reckoned h c) (y : AdcRing) :
    RingInv { x with stream := (x.stream.read (c.env v old x.deposits) c.maxSamples).hw }
      (h.update v old x (.read c) y) ∧
      (x.stream.read (c.env v old x.deposits) c.maxSamples).out =
        (x.returned v old c).map fun m => codeMv x.stream.fullScale c.vrefMv (v m) := by
  -- latching the error flag changes nothing that the bookkeeping looks at
  obtain ⟨s, hs⟩ : ∃ s, s = x.stream.latchDmaError c.dmaErr := ⟨_, rfl⟩
  have hunc : AdcRing.uncounted { x with stream := s } = x.uncounted := by
    simp only [AdcRing.uncounted, hs, AdcStream.latchDmaError_rdPos,
      AdcStream.latchDmaError_lapCount]
  have hunread : AdcRing.unread { x with stream := s } h = x.unread h := by
    simp only [AdcRing.unread, hunc]
  have hread : s.serve (c.env v old x.deposits) c.maxSamples =
      x.stream.read (c.env v old x.deposits) c.maxSamples := by
    rw [hs]
    exact (if_neg (not_not.mpr hi.run)).symm
  have hl : copiedDeposits x.deposits c.adv
      (x.stream.read (c.env v old x.deposits) c.maxSamples).out.length 0 s.readIdx =
        x.returned v old c := by
    rw [hs, AdcStream.latchDmaError_readIdx]
    rfl
  have hok' : s.dmaErrorCount = 0 → AdcRing.Reckoned { x with stream := s } h c := by
    intro herr
    rw [hs] at herr
    have hc := hok herr
    refine ⟨?_, by rw [hunread]; exact hc.told, ?_, ?_⟩
    · simpa only [AdcRing.Regressed, hs, AdcStream.latchDmaError_rdPos,
        AdcStream.latchDmaError_lapCount] using hc.regress
    · simpa only [AdcRing.Skips, hunc] using hc.skips
    · simpa only [AdcRing.KeepsAhead, hunread] using hc.ahead
  have hserve := RingInv.serve (hs ▸ hi.latch c.dmaErr : RingInv { x with stream := s } h)
    hok' hread hl
  simp only [hunc, hunread] at hserve
  rw [hs, AdcStream.latchDmaError_fullScale] at hserve
  exact hserve

/-! ### Runs -/

/-- The lap interrupt counts a pending reload. -/
lemma RingInv.lapIsr (hi : RingInv x h) (hp : x.laps < x.deposits / adcRingSamples)
    (dmaErr : Bool) :
    RingInv { x with stream := x.stream.lapped true dmaErr, laps := x.laps + 1 } h := by
  have hcount : RingInv { x with
      stream := { x.stream with lapCount := (x.stream.lapCount + 1) % 2 ^ 32 }
      laps := x.laps + 1 } h := by
    refine { hi with behind := hp, ahead := ?_, lapCount := ?_, tracker := fun hv => ?_ }
    · exact Nat.le_succ_of_le hi.ahead
    · show (x.stream.lapCount + 1) % 2 ^ 32 = (x.laps + 1) % 2 ^ 32
      rw [hi.lapCount, Nat.mod_add_mod]
    · obtain ⟨d, l, ht⟩ := hi.tracker hv
      exact ⟨d, l, { ht with pastLaps := Nat.le_succ_of_le ht.pastLaps }⟩
  exact hcount.latch dmaErr

/-- One step of a run. -/
lemma RingInv.step {p q : AdcRing × Served} {e : RingEvent} (hi : RingInv p.1 p.2)
    (hs : withHistory (ringStep v old) (Served.update v old) p e = some q) (hok : ReadOk p e q) :
    RingInv q.1 q.2 := by
  obtain ⟨hstep, hhist⟩ := withHistory_eq_some.mp hs
  obtain ⟨y, h'⟩ := q
  simp only at hstep hhist
  subst hhist
  cases e with
  | deposit n =>
    simp only [ringStep] at hstep
    split_ifs at hstep with hn
    cases hstep
    exact hi.deposit hn
  | lapIsr dmaErr =>
    simp only [ringStep] at hstep
    split_ifs at hstep with hp
    cases hstep
    exact hi.lapIsr hp dmaErr
  | read c =>
    simp only [ringStep] at hstep
    split_ifs at hstep with hn
    cases hstep
    exact RingInv.deposit (hi.read hok p.1).1 hn

lemma RingInv.of_init {p : AdcRing × Served} (h₀ : RingInit p) : RingInv p.1 p.2 := by
  obtain ⟨⟨s, channel, bits, hx⟩, hh⟩ := h₀
  obtain ⟨x, h⟩ := p
  subst hx hh
  exact {
    run := rfl, raw := rfl, behind := (by decide : 0 ≤ 0 / adcRingSamples)
    ahead := (by decide : 0 / adcRingSamples ≤ 1), lapCount := rfl, slot := rfl
    small := (by decide : 0 < 2 ^ 32), total := rfl, next := Nat.le_refl 0
    tracker := fun hv => absurd hv Bool.noConfusion
    order := ⟨0, rfl, fun hne => absurd rfl hne⟩ }

/-- In a run whose reads all meet the condition, the samples returned since the last BUSY are
consecutive deposits, and what the next such read returns are the values of the deposits it is
credited with. -/
theorem raw_stream_in_order (v old : ℕ → UInt16) {p : AdcRing × Served}
    (hp : Reach (withHistory (ringStep v old) (Served.update v old)) RingInit ReadOk p) :
    InOrder p.1 p.2 ∧
      ∀ c q, ReadOk p (.read c) q →
        (p.1.stream.read (c.env v old p.1.deposits) c.maxSamples).out =
          (p.1.returned v old c).map fun m => codeMv p.1.stream.fullScale c.vrefMv (v m) := by
  have hi : RingInv p.1 p.2 := by
    apply Reach.invariant (I := fun p => RingInv p.1 p.2) ?_ ?_ hp
    · exact fun _ h₀ => .of_init h₀
    · exact fun _ _ _ _ hI hs hok => hI.step hs hok
  refine ⟨?_, fun c q hok => (hi.read hok p.1).2⟩
  obtain ⟨n, hn, hlast⟩ := hi.order
  by_cases hd : p.2.delivered = []
  · exact ⟨0, by rw [hd]; rfl, by rw [hd]; exact Nat.zero_le _⟩
  · refine ⟨n, hn, ?_⟩
    rw [hlast hd]
    exact hi.next

/-- A call during which the DMA stands still. -/
def quietCall (maxSamples : ℕ) : ReadCall := ⟨maxSamples, false, false, 3300, fun _ => 0, 0⟩

/-- Stream 0 at the start of a session, nothing deposited or served. -/
def freshRing : AdcRing × Served := (⟨AdcStream.zero.started 0 12, 0, 0⟩, ⟨0, false, []⟩)

lemma freshRing_init : RingInit freshRing := ⟨⟨_, _, _, rfl⟩, rfl⟩

/-- A test for `ReadOk`, for calls during which the DMA stands still. -/
def quietCheck (p : AdcRing × Served) (e : RingEvent) : Bool :=
  match e with
  | .read c =>
    decide (p.1.Regressed → p.1.laps < p.1.deposits / adcRingSamples) &&
      decide (BacklogTold (p.1.unread p.2) c.maxSamples) && !p.1.uncounted &&
      (List.range c.maxSamples).all fun i => c.adv i == 0
  | _ => true

lemma ReadOk.of_quietCheck {p q : AdcRing × Served} {e : RingEvent} (hc : quietCheck p e = true) :
    ReadOk p e q := by
  cases e with
  | read c =>
    simp only [quietCheck, Bool.and_eq_true, Bool.not_eq_true', decide_eq_true_eq,
      List.all_eq_true, List.mem_range, beq_iff_eq] at hc
    obtain ⟨⟨⟨hreg, htold⟩, hunc⟩, hadv⟩ := hc
    refine fun _ => ⟨hreg, htold, fun hskip => absurd hskip.1 (by simp [hunc]), fun hlt i hi => ?_⟩
    have hi₀ := hadv i (by omega)
    omega
  | _ => trivial

/-- Ten samples served in two calls, with a reload pending at the second. -/
theorem raw_stream_in_order_pending :
    ∃ p, Reach (withHistory (ringStep (fun n => .ofNat n) fun _ => 0)
        (Served.update (fun n => .ofNat n) fun _ => 0)) RingInit ReadOk p ∧
      p.2.delivered = List.range 10 ∧ p.1.laps < p.1.deposits / adcRingSamples ∧
      InOrder p.1 p.2 := by
  have hinit : Reach (withHistory (ringStep (fun n => .ofNat n) fun _ => 0)
      (Served.update (fun n => .ofNat n) fun _ => 0)) RingInit ReadOk freshRing :=
    .start freshRing_init
  obtain ⟨p, hp, hq⟩ := hinit.exists_of_run (fun p e _ => quietCheck p e)
    (fun p => p.2.delivered == List.range 10 && decide (p.1.laps < p.1.deposits / adcRingSamples))
    [.deposit 500, .read (quietCall 5), .deposit 527, .read (quietCall 5)]
    (fun _ _ _ h => .of_quietCheck h) (by decide)
  simp only [Bool.and_eq_true, beq_iff_eq, decide_eq_true_eq] at hq
  exact ⟨p, hp, hq.1, hq.2, (raw_stream_in_order _ _ hp).1⟩

/-- A reload is pending and the write index has passed the one the tracker remembers: after
samples 0 to 4 the stream serves 1029 to 1033, and answers OK. -/
theorem raw_stream_skips_lap :
    ∃ p, Reach (withHistory (ringStep (fun n => .ofNat n) fun _ => 0)
        (Served.update (fun n => .ofNat n) fun _ => 0)) RingInit
          (fun _ _ q => q.1.deposits < 2 ^ 31) p ∧ ¬ InOrder p.1 p.2 := by
  have hinit : Reach (withHistory (ringStep (fun n => .ofNat n) fun _ => 0)
      (Served.update (fun n => .ofNat n) fun _ => 0)) RingInit
        (fun _ _ q => q.1.deposits < 2 ^ 31) freshRing := .start freshRing_init
  obtain ⟨p, hp, hq⟩ := hinit.exists_of_run (fun _ _ q => decide (q.1.deposits < 2 ^ 31))
    (fun p => p.2.delivered == List.range 5 ++ List.range' 1029 5)
    [.deposit 500, .read (quietCall 5), .deposit 1124, .read (quietCall 5)]
    (fun _ _ _ h => of_decide_eq_true h) (by decide)
  refine ⟨p, hp, ?_⟩
  rintro ⟨n, hn, -⟩
  rw [beq_iff_eq.mp hq] at hn
  have h₀ := congrArg (fun l => l.getD 0 0) hn
  have h₁ := congrArg (fun l => l.getD 5 0) hn
  simp [List.getD] at h₀ h₁
  omega

end Gd32Bridge
