import Gd32Bridge.Adc.Pool
import Gd32Bridge.Adc.Upload
import Gd32Bridge.Protocol.Properties

/-!
# Recovering a chain over the wire

There is no request that closes a chain.  But a full payload at offset zero takes hold of any
stage, and a chain of four filters is well shaped and beyond what the runtime can realise, so that
binding it gives it back to the pool.
-/

namespace Gd32Bridge

open Transition

/-! ### Stages of reachable states -/

/-- The stages of every chain, free or not, count what they cover. -/
def Adc.StagesCounted (a : Adc) : Prop := ∀ c i, ((a.chains c).stages i).Counted

lemma Adc.StagesCounted.setChain {a : Adc} (h : a.StagesCounted) {c : ℕ} {chain : DspChain}
    (hc : ∀ i, (chain.stages i).Counted) : (a.setChain c chain).StagesCounted := by
  intro d i
  rw [setChain_chains]
  by_cases hd : d = c
  · rw [hd, Function.update_self]
    exact hc i
  · rw [Function.update_of_ne hd]
    exact h d i

/-- Writing one stage of a chain. -/
lemma Adc.StagesCounted.update {a : Adc} (h : a.StagesCounted) {c stage : ℕ} {st : DspStage}
    (hst : st.Counted) (i : ℕ) :
    (Function.update (a.chains c).stages stage st i).Counted := by
  by_cases hi : i = stage
  · rw [hi, Function.update_self]
    exact hst
  · rw [Function.update_of_ne hi]
    exact h c i

lemma Adc.StagesCounted.chainRelease {a : Adc} (h : a.StagesCounted) (c : ℕ) :
    (a.chainRelease c).StagesCounted := by
  simp only [Adc.chainRelease]
  split
  · exact h
  · exact h.setChain fun i => h c i

lemma Adc.StagesCounted.step {a a' : Adc} {op : AdcOp} (h : a.StagesCounted)
    (hs : adcStep a op = some a') : a'.StagesCounted := by
  cases AdcRule.of_step hs with
  | same => exact h
  | opened => exact h.setChain fun _ => .zero
  | @pushed chain stage kind offset total chunk st rv _ _ _ _ _ _ hfit _ _ hst =>
    have hpush := (h chain stage).push kind hfit
    rw [hst] at hpush
    exact h.setChain fun i => h.update hpush i
  | @refused chain => exact h.chainRelease chain
  | attached => exact h.setChain fun i => h _ i
  | started => exact h
  | read => exact h
  | @ended _ id =>
    simp only [Adc.endStream]
    split
    · have hrel : (((a.facRelease id).fftRelease id).chainRelease
          (a.streams id).dspChainId).StagesCounted := by
        refine Adc.StagesCounted.chainRelease ?_ _
        intro c i
        rw [Adc.fftRelease_chains, Adc.facRelease_chains]
        exact h c i
      exact hrel
    · exact h
  | lapped => exact h
  | pumped => exact h

/-! ### Four filters -/

/-- A FIR stage with one tap: format, tap count, two reserved bytes, the tap. -/
def firBlob : List UInt8 := [0, 1, 0, 0, 0, 0, 0, 0]

lemma DspStage.Holds.blobValid {st : DspStage} (h : st.Holds 0 firBlob) : st.blobValid = true := by
  have h₀ := h.data 0 (by decide)
  have h₁ := h.data 1 (by decide)
  have htotal : st.totalSize = 8 := h.totalSize
  simp only [DspStage.blobValid, h.kind, htotal, h₀, h₁]
  decide

lemma DspStage.Holds.populated {st : DspStage} (h : st.Holds 0 firBlob) : st.Populated := by
  have htotal : st.totalSize = 8 := h.totalSize
  simp [DspStage.Populated, htotal]

/-- A chain of four such stages has a good shape... -/
lemma bindScan_filters {stages : ℕ → DspStage}
    (h : ∀ i < dspMaxStages, (stages i).Holds 0 firBlob) : bindScan stages = some 3 := by
  have h₀ := h 0 (by decide)
  have h₁ := h 1 (by decide)
  have h₂ := h 2 (by decide)
  have h₃ := h 3 (by decide)
  have hrange : List.range dspMaxStages = [0, 1, 2, 3] := rfl
  simp [bindScan, hrange, bindStep, bindTail, h₀.populated, h₁.populated, h₂.populated,
    h₃.populated, h₀.blobValid, h₁.blobValid, h₂.blobValid, h₃.blobValid, h₀.complete,
    h₁.complete, h₂.complete, h₃.complete, h₀.kind, h₁.kind, h₂.kind, h₃.kind]

/-- ... which the runtime cannot realise. -/
lemma p1Capable_filters {stages : ℕ → DspStage}
    (h : ∀ i < dspMaxStages, (stages i).Holds 0 firBlob) :
    adcDspChainP1Capable stages = false := by
  have h₀ := h 0 (by decide)
  have h₁ := h 1 (by decide)
  have h₂ := h 2 (by decide)
  have h₃ := h 3 (by decide)
  have hrange : List.range dspMaxStages = [0, 1, 2, 3] := rfl
  simp [adcDspChainP1Capable, hrange, fftIndex, h₀.populated, h₁.populated, h₂.populated,
    h₃.populated, h₀.blobValid, h₁.blobValid, h₂.blobValid, h₃.blobValid, h₀.kind, h₁.kind,
    h₂.kind, h₃.kind]

/-! ### The requests -/

/-- A backend whose chain and stream-end shims are those of the pool, whatever the others do. -/
def adcHal (base : Hal Adc) (env : EndEnv) : Hal Adc :=
  { base with
    adcStreamEnd := fun a id => adcStreamEnd a env id.toNat
    adcDspChainOpen := fun a =>
      match adcDspChainOpen a with
      | ⟨a', rv, i⟩ => ⟨a', rv, .ofNat i⟩
    adcDspStagePush := fun a chain stage kind offset total data =>
      adcDspStagePush a chain.toNat stage.toNat kind.toNat offset.toNat total.toNat data
    adcDspChainBind := fun a chain id => adcDspChainBind a chain.toNat id.toNat }

variable (base : Hal Adc) (env : EndEnv) (link : Link)

/-- One request through its handler. -/
def serveRequest (d : Device Adc) (r : Opcode × List UInt8) : Device Adc :=
  (r.1.handler (adcHal base env) link d r.2 maxPayloadBytes).1

/-- A STAGE_PUSH with at most 58 bytes of data, a CHAIN_BIND or a STREAM_END. -/
def IsRecovery (r : Opcode × List UInt8) : Prop :=
  (r.1 = .adcDspStagePush ∧ r.2.length ≤ 7 + 58) ∨ r.1 = .adcDspChainBind ∨ r.1 = .adcStreamEnd

/-- The filter as the payload of stage `i` of chain `c`. -/
def pushFilter (c i : ℕ) : Opcode × List UInt8 :=
  (.adcDspStagePush, [.ofNat c, .ofNat i, 0, 0, 0, 8, 0] ++ firBlob)

def bindTo (c s : ℕ) : Opcode × List UInt8 := (.adcDspChainBind, [.ofNat c, .ofNat s])

lemma hwReply_fst_hw {α : Type} (d : Device Adc) (r : HwResult Adc α) (ladder : HwRv → Status)
    (payload : α → List UInt8) : (hwReply d r ladder payload).1.hw = r.hw := by
  simp only [hwReply]
  split <;> rfl

lemma serveRequest_push (d : Device Adc) {c i : ℕ} (hc : c < 256) (hi : i < 256) :
    (serveRequest base env link d (pushFilter c i)).hw =
      (adcDspStagePush d.hw c i 0 0 8 firBlob).hw := by
  have hc' : (UInt8.ofNat c).toNat = c := UInt8.toNat_ofNat_of_lt hc
  have hi' : (UInt8.ofNat i).toNat = i := UInt8.toNat_ofNat_of_lt hi
  have hreq : handleAdcDspStagePush (adcHal base env) d (pushFilter c i).2 maxPayloadBytes =
      hwReply d ((adcHal base env).adcDspStagePush d.hw (.ofNat c) (.ofNat i) 0 0 8 firBlob)
        statusFromHw fun _ => [] := by
    have hoff : Endian.getLe16 (pushFilter c i).2 3 = 0 :=
      (show _ = Endian.getLe16 [0, 0] 0 from rfl).trans (by decide)
    have htotal : Endian.getLe16 (pushFilter c i).2 5 = 8 :=
      (show _ = Endian.getLe16 [8, 0] 0 from rfl).trans (by decide)
    have hdata : (pushFilter c i).2.drop 7 = firBlob := rfl
    have hlen : (pushFilter c i).2.length = 15 := rfl
    have hkind : (pushFilter c i).2.getD 2 0 = 0 := rfl
    simp only [handleAdcDspStagePush, hoff, htotal, hdata, hlen, hkind]
    rfl
  have hhw := hwReply_fst_hw d
    ((adcHal base env).adcDspStagePush d.hw (.ofNat c) (.ofNat i) 0 0 8 firBlob)
    statusFromHw fun _ => []
  rw [← hreq] at hhw
  simp only [adcHal, hc', hi'] at hhw
  exact hhw

lemma serveRequest_bind (d : Device Adc) {c s : ℕ} (hc : c < 256)
    (hs : s < bridgeAdcStreamCount) :
    (serveRequest base env link d (bindTo c s)).hw = (adcDspChainBind d.hw c s).hw := by
  have hc' : (UInt8.ofNat c).toNat = c := UInt8.toNat_ofNat_of_lt hc
  have hs' : s = 0 ∨ s = 1 := by
    simp only [bridgeAdcStreamCount] at hs
    omega
  have hreq : handleAdcDspChainBind (adcHal base env) d (bindTo c s).2 maxPayloadBytes =
      hwReply d ((adcHal base env).adcDspChainBind d.hw (.ofNat c) (.ofNat s)) statusFromHw
        fun _ => [] := by
    rcases hs' with rfl | rfl <;> rfl
  have hhw := hwReply_fst_hw d
    ((adcHal base env).adcDspChainBind d.hw (.ofNat c) (.ofNat s)) statusFromHw fun _ => []
  rw [← hreq] at hhw
  rcases hs' with rfl | rfl <;> simp only [adcHal, hc'] at hhw <;> exact hhw

/-! ### The recovery -/

/-- The chain `c` of `a₀` is open, its first `n` stages have been overwritten with the filter, and
nothing else has changed. -/
structure Filled (a₀ a : Adc) (c n : ℕ) : Prop where
  streams : a.streams = a₀.streams
  others : ∀ d ≠ c, a.chains d = a₀.chains d
  inUse : (a.chains c).inUse = true
  bound : (a.chains c).bound = false
  counted : ∀ i, ((a.chains c).stages i).Counted
  stages : ∀ i < n, ((a.chains c).stages i).Holds 0 firBlob

variable {a₀ a : Adc} {c n s : ℕ}

lemma Filled.push (h : Filled a₀ a c n) (hc : c < dspMaxChains) (hn : n < dspMaxStages) :
    Filled a₀ (adcDspStagePush a c n 0 0 8 firBlob).hw c (n + 1) := by
  have hpush : (adcDspStagePush a c n 0 0 8 firBlob).hw = a.setChain c
      { a.chains c with
        stages := Function.update (a.chains c).stages n
          (((a.chains c).stages n).push 0 0 8 firBlob).1 } := by
    have hc' : ¬ c ≥ dspMaxChains := Nat.not_le.mpr hc
    have hn' : ¬ n ≥ dspMaxStages := Nat.not_le.mpr hn
    simp only [adcDspStagePush, if_neg hc', if_neg hn', h.inUse, h.bound]
    rfl
  have hcount : (((a.chains c).stages n).push 0 0 8 firBlob).1.Counted :=
    (h.counted n).push 0 (by decide)
  have hholds : (((a.chains c).stages n).push 0 0 8 firBlob).1.Holds 0 firBlob :=
    ((h.counted n).push_full 0 firBlob).1
  rw [hpush]
  refine ⟨h.streams, fun d hd => ?_, ?_, ?_, fun i => ?_, fun i hi => ?_⟩
  · rw [Adc.setChain_chains, Function.update_of_ne hd]
    exact h.others d hd
  · rw [Adc.setChain_chains, Function.update_self]
    exact h.inUse
  · rw [Adc.setChain_chains, Function.update_self]
    exact h.bound
  · rw [Adc.setChain_chains, Function.update_self]
    by_cases hin : i = n
    · simpa [hin] using hcount
    · simpa [hin] using h.counted i
  · rw [Adc.setChain_chains, Function.update_self]
    by_cases hin : i = n
    · simpa [hin] using hholds
    · simpa [hin] using h.stages i (by omega)

/-- Binding four filters to a free running stream gives the chain back. -/
lemma Filled.bind (h : Filled a₀ a c dspMaxStages) (hc : c < dspMaxChains)
    (hs : s < bridgeAdcStreamCount) (hrun : (a₀.streams s).inUse = true)
    (hfree : (a₀.streams s).dspBound = false) :
    (adcDspChainBind a c s).hw = a.chainRelease c := by
  have hc' : ¬ c ≥ dspMaxChains := Nat.not_le.mpr hc
  have hs' : ¬ s ≥ bridgeAdcStreamCount := Nat.not_le.mpr hs
  have hscan := bindScan_filters h.stages
  have hcap := p1Capable_filters h.stages
  rw [← h.streams] at hrun hfree
  simp [adcDspChainBind, hc', hs', h.inUse, h.bound, hscan, hrun, hfree, hcap]

/-- The four pushes, then the bind. -/
def recovery (c s : ℕ) : List (Opcode × List UInt8) :=
  [pushFilter c 0, pushFilter c 1, pushFilter c 2, pushFilter c 3, bindTo c s]

lemma isRecovery_of_mem {r : Opcode × List UInt8} (h : r ∈ recovery c s) : IsRecovery r := by
  simp only [recovery, List.mem_cons, List.not_mem_nil, or_false] at h
  rcases h with rfl | rfl | rfl | rfl | rfl
  · exact .inl ⟨rfl, by simp [pushFilter, firBlob]⟩
  · exact .inl ⟨rfl, by simp [pushFilter, firBlob]⟩
  · exact .inl ⟨rfl, by simp [pushFilter, firBlob]⟩
  · exact .inl ⟨rfl, by simp [pushFilter, firBlob]⟩
  · exact .inr (.inl rfl)

/-- A push of the filter served over the wire. -/
lemma Filled.serve {d : Device Adc} (h : Filled a₀ d.hw c n) (hc : c < dspMaxChains)
    (hn : n < dspMaxStages) :
    Filled a₀ (serveRequest base env link d (pushFilter c n)).hw c (n + 1) := by
  simp only [dspMaxChains] at hc
  simp only [dspMaxStages] at hn
  rw [serveRequest_push base env link d (by omega) (by omega)]
  exact h.push hc hn

/-- A free chain can be opened again. -/
lemma adcDspChainOpen_rv (hc : c < dspMaxChains) (h : (a.chains c).inUse = false) :
    (adcDspChainOpen a).rv = .ok := by
  simp only [adcDspChainOpen]
  split
  · rfl
  · next hnone =>
    have hall := List.find?_eq_none.mp hnone c (List.mem_range.mpr hc)
    simp [h] at hall

/-- Every open chain of a reachable pool can be given back over the wire while a stream runs
without a chain: four pushes of at most 58 bytes and a bind free it and leave every other chain
alone, after which CHAIN_OPEN is served. -/
theorem dsp_pool_recoverable (h : Reach adcStep (· = Adc.boot) (fun _ _ _ => True) a)
    (hs : s < bridgeAdcStreamCount) (hrun : (a.streams s).inUse = true)
    (hfree : (a.streams s).dspBound = false) (hc : c < dspMaxChains)
    (huse : (a.chains c).inUse = true) (hbound : (a.chains c).bound = false) :
    ∃ reqs : List (Opcode × List UInt8), (∀ r ∈ reqs, IsRecovery r) ∧
      ∀ base env link, ∀ d : Device Adc, d.hw = a →
        ∃ a', (reqs.foldl (serveRequest base env link) d).hw = a' ∧
          (a'.chains c).inUse = false ∧ (∀ c' ≠ c, a'.chains c' = a.chains c') ∧
          (adcDspChainOpen a').rv = .ok := by
  have hcount : a.StagesCounted := by
    apply Reach.invariant (I := Adc.StagesCounted) ?_ ?_ h
    · rintro _ rfl c i
      exact .zero
    · exact fun _ _ _ _ hI hstep _ => hI.step hstep
  refine ⟨recovery c s, fun r hr => isRecovery_of_mem hr, ?_⟩
  rintro base env link d rfl
  have h₀ : Filled d.hw d.hw c 0 :=
    ⟨rfl, fun _ _ => rfl, huse, hbound, hcount c, fun i hi => absurd hi (Nat.not_lt_zero i)⟩
  have h₁ := h₀.serve base env link hc (by decide)
  have h₂ := h₁.serve base env link hc (by decide)
  have h₃ := h₂.serve base env link hc (by decide)
  have h₄ := h₃.serve base env link hc (by decide)
  refine ⟨_, rfl, ?_⟩
  have hc' : c < 256 := Nat.lt_trans hc (by decide)
  have hlast := h₄.bind hc hs hrun hfree
  rw [← serveRequest_bind base env link _ hc' hs] at hlast
  simp only [recovery, List.foldl_cons, List.foldl_nil, hlast]
  generalize (serveRequest base env link _ (pushFilter c 3)).hw = a₄ at h₄
  have hfreed : ((a₄.chainRelease c).chains c).inUse = false := by
    simp [Adc.chainRelease, Nat.not_le.mpr hc, Adc.setChain_chains]
  refine ⟨hfreed, fun c' hne => ?_, adcDspChainOpen_rv hc hfreed⟩
  rw [← h₄.others c' hne]
  simp [Adc.chainRelease, Nat.not_le.mpr hc, Adc.setChain_chains, hne]

/-- A chain with a half-received FIR stage and a gap, beside a running stream. -/
def abandonedRun : List AdcOp :=
  [.streamBegin ⟨true, true, true, true, 12⟩ 0 0 1000, .chainOpen,
    .stagePush 0 0 0 4 12 [1, 2, 3], .stagePush 0 2 3 0 4 [64, 0]]

theorem dsp_pool_recoverable_abandoned :
    ∃ a, Reach adcStep (· = Adc.boot) (fun _ _ _ => True) a ∧
      ((a.chains 0).stages 0).totalSize = 12 ∧
      ∃ reqs : List (Opcode × List UInt8), (∀ r ∈ reqs, IsRecovery r) ∧
        ∀ base env link, ∀ d : Device Adc, d.hw = a →
          ∃ a', (reqs.foldl (serveRequest base env link) d).hw = a' ∧
            (a'.chains 0).inUse = false ∧ (∀ c' ≠ 0, a'.chains c' = a.chains c') ∧
            (adcDspChainOpen a').rv = .ok := by
  have hinit : Reach adcStep (· = Adc.boot) (fun _ _ _ => True) Adc.boot := .start rfl
  obtain ⟨a, ha, hq⟩ := hinit.exists_of_run (fun _ _ _ => true)
    (fun a => ((a.chains 0).stages 0).totalSize == 12 && ((a.streams 0).inUse &&
      !(a.streams 0).dspBound && ((a.chains 0).inUse && !(a.chains 0).bound)))
    abandonedRun (fun _ _ _ _ => trivial) (by decide)
  simp only [Bool.and_eq_true, beq_iff_eq, Bool.not_eq_true'] at hq
  exact ⟨a, ha, hq.1, dsp_pool_recoverable ha (by decide : 0 < bridgeAdcStreamCount) hq.2.1.1
    hq.2.1.2 (by decide) hq.2.2.1 hq.2.2.2⟩

end Gd32Bridge
