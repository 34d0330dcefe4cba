import Gd32Bridge.Adc.Pump

/-!
# The processed ring

The pump appends the outputs of the filter to a ring, the reader takes them from it; the number of
outputs committed and of outputs read are kept modulo `2 ^ 32`, and their difference, as a signed
number, is the backlog.
-/

namespace Gd32Bridge

/-! ### The difference of two totals -/

/-- The difference, once around. -/
lemma int32Sub_mod {a n : ℕ} (h : n ≤ a) :
    int32Sub (a % 2 ^ 32) (n % 2 ^ 32) =
      if (a - n) % 2 ^ 32 < 2 ^ 31 then (((a - n) % 2 ^ 32 : ℕ) : ℤ)
      else (((a - n) % 2 ^ 32 : ℕ) : ℤ) - 2 ^ 32 := by
  have hd : (a % 2 ^ 32 + 2 ^ 32 - n % 2 ^ 32) % 2 ^ 32 = (a - n) % 2 ^ 32 := by omega
  simp only [int32Sub, hd]

/-- Both planes answer by the same three cases: nothing there, a ring behind, or some samples. -/
lemma backlog_ladder {α : Type} {a n : ℕ} (h : n ≤ a) (empty behind : α) (serve : ℕ → α) :
    (if int32Sub (a % 2 ^ 32) (n % 2 ^ 32) ≤ 0 then empty
      else if int32Sub (a % 2 ^ 32) (n % 2 ^ 32) ≥ adcRingSamples then behind
      else serve (int32Sub (a % 2 ^ 32) (n % 2 ^ 32)).toNat) =
    if (a - n) % 2 ^ 32 = 0 ∨ 2 ^ 31 ≤ (a - n) % 2 ^ 32 then empty
    else if adcRingSamples ≤ (a - n) % 2 ^ 32 then behind
    else serve ((a - n) % 2 ^ 32) := by
  rw [int32Sub_mod h]
  have hd : (a - n) % 2 ^ 32 < 2 ^ 32 := Nat.mod_lt _ (by decide)
  generalize (a - n) % 2 ^ 32 = d at hd
  by_cases hlt : d < 2 ^ 31
  · simp only [if_pos hlt, Int.toNat_natCast]
    have hle : ((d : ℤ) ≤ 0) = (d = 0 ∨ 2 ^ 31 ≤ d) := propext (by omega)
    have hge : ((d : ℤ) ≥ (adcRingSamples : ℕ)) = (adcRingSamples ≤ d) := propext (by omega)
    simp only [hle, hge]
  · have hle : (d : ℤ) - 2 ^ 32 ≤ 0 := by omega
    rw [if_neg hlt, if_pos hle, if_pos (.inr (Nat.le_of_not_lt hlt))]

/-- With `unread` outputs unread the 32-bit difference does not pass for a few of them, or nothing
is asked for: either it is what it looks like, or it shows no output or too many. -/
def BacklogTold (unread maxSamples : ℕ) : Prop :=
  unread < adcRingSamples ∨ unread % 2 ^ 32 = 0 ∨ adcRingSamples ≤ unread % 2 ^ 32 ∨ maxSamples = 0

instance (unread maxSamples : ℕ) : Decidable (BacklogTold unread maxSamples) :=
  inferInstanceAs (Decidable (_ ∨ _ ∨ _ ∨ _))

/-- Outputs are served from a backlog that is what it looks like. -/
lemma BacklogTold.unread_lt {unread maxSamples : ℕ} (h : BacklogTold unread maxSamples)
    (hpos : unread % 2 ^ 32 ≠ 0) (hfew : unread % 2 ^ 32 < adcRingSamples)
    (hask : maxSamples ≠ 0) : unread < adcRingSamples := by
  obtain h | h | h | h := h
  · exact h
  · exact absurd h hpos
  · exact absurd h (Nat.not_le_of_lt hfew)
  · exact absurd h hask

/-! ### The processed ring -/

/-- The ring holds the last outputs of the log, oldest first. -/
def RingHolds (ring : ℕ → UInt16) (log : List UInt16) : Prop :=
  ∀ m < log.length, log.length ≤ m + adcRingSamples → ring (m % adcRingSamples) = log.getD m 0

lemma RingHolds.nil (ring : ℕ → UInt16) : RingHolds ring [] :=
  fun m hm => absurd hm (Nat.not_lt_zero m)

/-- One output more takes the slot of the one a ring before it. -/
lemma RingHolds.push {ring : ℕ → UInt16} {log : List UInt16} (h : RingHolds ring log)
    (c : UInt16) :
    RingHolds (Function.update ring (log.length % adcRingSamples) c) (log ++ [c]) := by
  intro m hm hring
  simp only [List.length_append, List.length_singleton] at hm hring
  by_cases hlast : m = log.length
  · subst hlast
    simp only [Function.update_self, List.getD_eq_getElem?_getD, List.getElem?_concat_length,
      Option.getD_some]
  · have hlt : m < log.length := by omega
    have hne : m % adcRingSamples ≠ log.length % adcRingSamples := by
      simp only [adcRingSamples] at hring ⊢
      omega
    rw [Function.update_of_ne hne, h m hlt (by omega)]
    simp only [List.getD_eq_getElem?_getD, List.getElem?_append_left hlt]

/-- A committed batch. -/
lemma RingHolds.writeRing {ring : ℕ → UInt16} {log : List UInt16} (h : RingHolds ring log)
    (out : List UInt16) :
    RingHolds (writeRing ring (log.length % 2 ^ 32) out) (log ++ out) := by
  induction out generalizing ring log with
  | nil => simpa only [Gd32Bridge.writeRing, List.append_nil] using h
  | cons c cs ih =>
    have hslot : log.length % 2 ^ 32 % adcRingSamples = log.length % adcRingSamples := by
      simp only [adcRingSamples]
      omega
    have hnext : (log.length % 2 ^ 32 + 1) % 2 ^ 32 = (log ++ [c]).length % 2 ^ 32 := by
      rw [List.length_append, List.length_singleton, Nat.mod_add_mod]
    rw [Gd32Bridge.writeRing, hslot, hnext]
    simpa only [List.append_assoc, List.cons_append, List.nil_append] using ih (h.push c)

/-- The outputs from `n` on, as the reader returns them. -/
def outputsFrom (log : List UInt16) (fullScale vrefMv n k : ℕ) : List UInt16 :=
  (List.range' n k).map fun m => codeMv fullScale vrefMv (log.getD m 0)

/-- What the copy loop of the filtered plane finds. -/
lemma RingHolds.served {ring : ℕ → UInt16} {log : List UInt16} (h : RingHolds ring log)
    (fullScale vrefMv : ℕ) {n k : ℕ} (hk : n + k ≤ log.length)
    (hring : log.length ≤ n + adcRingSamples) :
    ((List.range k).map fun i =>
      codeMv fullScale vrefMv (ring ((n % 2 ^ 32 + i) % 2 ^ 32 % adcRingSamples))) =
      outputsFrom log fullScale vrefMv n k := by
  rw [outputsFrom, List.range'_eq_map_range, List.map_map]
  refine List.map_congr_left fun i hi => ?_
  have hik := List.mem_range.mp hi
  have hslot : (n % 2 ^ 32 + i) % 2 ^ 32 % adcRingSamples = (n + i) % adcRingSamples := by
    simp only [adcRingSamples]
    omega
  simp only [Function.comp_apply, hslot, h (n + i) (by omega) (by omega)]

/-- The processed ring and its two counters, against the outputs committed so far and the number
of the one that is read next. -/
structure AdcStream.Filtered (s : AdcStream) (log : List UInt16) (n : ℕ) : Prop where
  write : s.procWrite = log.length % 2 ^ 32
  read : s.procRead = n % 2 ^ 32
  le : n ≤ log.length
  ring : RingHolds s.procRing log

/-- Nothing keeps the filtered plane from being served. -/
structure AdcStream.Sound (s : AdcStream) : Prop where
  terminal : s.dspTerminal ≠ 3
  cfgBad : s.dspCfgBad = false
  sat : s.dspSat = false
  gap : s.procGap = false

/-- The answer with some filtered samples, from the `n`-th on; `k` are there. -/
def AdcStream.procAnswer (s : AdcStream) (env : ReadEnv) (maxSamples n k : ℕ) :
    HwResult AdcStream (List UInt16) :=
  ⟨s.procServed (min k maxSamples), .ok, (List.range (min k maxSamples)).map fun i =>
    codeMv s.fullScale env.vrefMv (s.procRing ((n % 2 ^ 32 + i) % 2 ^ 32 % adcRingSamples))⟩

section Filtered

variable {s : AdcStream} {log : List UInt16} {n : ℕ}

/-- How a sound filtered plane answers. -/
lemma AdcStream.Filtered.readProc_eq (h : s.Filtered log n) (hs : s.Sound) (env : ReadEnv)
    (maxSamples : ℕ) :
    s.readProc env maxSamples =
      if (log.length - n) % 2 ^ 32 = 0 ∨ 2 ^ 31 ≤ (log.length - n) % 2 ^ 32 then ⟨s, .ok, []⟩
      else if adcRingSamples ≤ (log.length - n) % 2 ^ 32 then
        ⟨{ s with procRead := s.procWrite }, .busy, []⟩
      else s.procAnswer env maxSamples n ((log.length - n) % 2 ^ 32) := by
  simp only [readProc, if_neg hs.terminal, hs.cfgBad, hs.sat, hs.gap, Bool.false_eq_true,
    if_false]
  rw [h.write, h.read]
  exact backlog_ladder h.le _ _ (s.procAnswer env maxSamples n)

/-- A commit appends its batch. -/
lemma AdcStream.Filtered.published (h : s.Filtered log n) (rawRead : ℕ) (out : List UInt16)
    (sat : Bool) : (s.published rawRead out sat).Filtered (log ++ out) n where
  write := by
    simp only [AdcStream.published, h.write, List.length_append, Nat.mod_add_mod]
  read := h.read
  le := by
    rw [List.length_append]
    exact Nat.le_trans h.le (Nat.le_add_right _ _)
  ring := by
    simp only [AdcStream.published, h.write]
    exact h.ring.writeRing out

/-- A resynchronisation drops what is unread. -/
lemma AdcStream.Filtered.resync (h : s.Filtered log n) :
    ({ s with procRead := s.procWrite } : AdcStream).Filtered log log.length :=
  ⟨h.write, h.write, Nat.le_refl _, h.ring⟩

lemma AdcStream.Filtered.procServed (h : s.Filtered log n) {k : ℕ} (hk : n + k ≤ log.length) :
    (s.procServed k).Filtered log (n + k) where
  write := h.write
  read := by
    simp only [AdcStream.procServed, h.read, Nat.mod_add_mod]
  le := hk
  ring := h.ring

end Filtered

end Gd32Bridge
