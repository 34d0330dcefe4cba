import Gd32Bridge.Adc.Stream

/-!
# What one operation can do to the streams and the pool

Inversion of `adcApply`: a refused command changes nothing, and each of the others has one effect.
-/

namespace Gd32Bridge

section Frames

variable (a : Adc) (i : ℕ)

@[simp]
lemma Adc.setStream_chains (s : AdcStream) : (a.setStream i s).chains = a.chains := rfl

@[simp]
lemma Adc.setChain_streams (c : DspChain) : (a.setChain i c).streams = a.streams := rfl

lemma Adc.setStream_streams (s : AdcStream) :
    (a.setStream i s).streams = Function.update a.streams i s := rfl

lemma Adc.setChain_chains (c : DspChain) :
    (a.setChain i c).chains = Function.update a.chains i c := rfl

@[simp]
lemma Adc.facRelease_streams : (a.facRelease i).streams = a.streams := rfl

@[simp]
lemma Adc.facRelease_chains : (a.facRelease i).chains = a.chains := rfl

@[simp]
lemma Adc.fftRelease_streams : (a.fftRelease i).streams = a.streams := by
  simp only [fftRelease]
  split
  · rfl
  · rfl

@[simp]
lemma Adc.fftRelease_chains : (a.fftRelease i).chains = a.chains := by
  simp only [fftRelease]
  split
  · rfl
  · rfl

@[simp]
lemma Adc.chainRelease_streams : (a.chainRelease i).streams = a.streams := by
  simp only [chainRelease]
  split
  · rfl
  · rfl

/-- The end of a stream writes no other stream. -/
lemma Adc.endStream_streams :
    (a.endStream i).streams = Function.update a.streams i (a.streams i).ended := by
  simp only [endStream, setStream_streams]
  split
  · rw [chainRelease_streams, fftRelease_streams, facRelease_streams]
  · rfl

end Frames

/-! ### What a read, a lap or the pump cannot do -/

/-- Whether the stream runs, and which chain is bound to it, are as before. -/
structure AdcStream.SameBinding (s s' : AdcStream) : Prop where
  inUse : s'.inUse = s.inUse
  dspBound : s'.dspBound = s.dspBound
  dspChainId : s'.dspChainId = s.dspChainId
  dspTerminal : s'.dspTerminal = s.dspTerminal

lemma AdcStream.SameBinding.refl (s : AdcStream) : s.SameBinding s := ⟨rfl, rfl, rfl, rfl⟩

lemma AdcStream.SameBinding.trans {s s' s'' : AdcStream} (h : s.SameBinding s')
    (h' : s'.SameBinding s'') : s.SameBinding s'' :=
  ⟨h'.inUse.trans h.inUse, h'.dspBound.trans h.dspBound, h'.dspChainId.trans h.dspChainId,
    h'.dspTerminal.trans h.dspTerminal⟩

lemma AdcStream.latchDmaError_binding (s : AdcStream) (dmaErr : Bool) :
    s.SameBinding (s.latchDmaError dmaErr) := by
  cases dmaErr
  · exact .refl s
  · exact ⟨rfl, rfl, rfl, rfl⟩

lemma AdcStream.readRaw_binding (s : AdcStream) (env : ReadEnv) (maxSamples : ℕ) :
    s.SameBinding (s.readRaw env maxSamples).hw := by
  have hconsumed (n : ℕ) : s.SameBinding (s.consumed env n) := ⟨rfl, rfl, rfl, rfl⟩
  simp only [readRaw]
  split
  · exact ⟨rfl, rfl, rfl, rfl⟩
  split
  · exact ⟨rfl, rfl, rfl, rfl⟩
  · exact hconsumed _

lemma AdcStream.readProc_binding (s : AdcStream) (env : ReadEnv) (maxSamples : ℕ) :
    s.SameBinding (s.readProc env maxSamples).hw := by
  have hserved (n : ℕ) : s.SameBinding (s.procServed n) := ⟨rfl, rfl, rfl, rfl⟩
  simp only [readProc]
  split
  · exact .refl s
  split
  · exact .refl s
  split
  · exact .refl s
  split
  · exact ⟨rfl, rfl, rfl, rfl⟩
  split
  · exact .refl s
  split
  · exact ⟨rfl, rfl, rfl, rfl⟩
  · exact hserved _

lemma AdcStream.serve_binding (s : AdcStream) (env : ReadEnv) (maxSamples : ℕ) :
    s.SameBinding (s.serve env maxSamples).hw := by
  have hanchor (w : ℕ) : s.SameBinding (s.reanchor w) := ⟨rfl, rfl, rfl, rfl⟩
  simp only [serve]
  split
  · exact .refl s
  split
  · exact hanchor _
  split
  · exact readProc_binding s env maxSamples
  · exact readRaw_binding s env maxSamples

lemma AdcStream.read_binding (s : AdcStream) (env : ReadEnv) (maxSamples : ℕ) :
    s.SameBinding (s.read env maxSamples).hw := by
  simp only [read]
  split
  · exact .refl s
  · exact (latchDmaError_binding s env.dmaErr).trans (serve_binding _ env maxSamples)

lemma AdcStream.lapped_binding (s : AdcStream) (ftf dmaErr : Bool) :
    s.SameBinding (s.lapped ftf dmaErr) := by
  have hcount : s.SameBinding { s with lapCount := (s.lapCount + 1) % 2 ^ 32 } :=
    ⟨rfl, rfl, rfl, rfl⟩
  simp only [lapped]
  split
  · exact hcount.trans (latchDmaError_binding _ dmaErr)
  · exact latchDmaError_binding s dmaErr

lemma AdcStream.pumped_binding (s : AdcStream) (p : PumpWrites) : s.SameBinding (s.pumped p) :=
  ⟨rfl, rfl, rfl, rfl⟩

/-! ### Inversion -/

/-- Everything an operation can do. -/
inductive AdcRule (a : Adc) : AdcOp → Adc → Prop
  | same {op : AdcOp} : AdcRule a op a
  | opened {i : ℕ} (hi : i < dspMaxChains) (hfree : (a.chains i).inUse = false) :
      AdcRule a .chainOpen (a.setChain i ⟨true, false, fun _ => .zero⟩)
  | pushed {chain stage kind offset total : ℕ} {chunk : List UInt8} {st : DspStage} {rv : HwRv}
      (hchain : chain < dspMaxChains) (hstage : stage < dspMaxStages) (hkind : kind ≤ dspKindMax)
      (htotal : 0 < total) (hmax : total ≤ dspMaxStageBytes) (hlen : 0 < chunk.length)
      (hfit : offset + chunk.length ≤ total) (huse : (a.chains chain).inUse = true)
      (hbound : (a.chains chain).bound = false)
      (hst : ((a.chains chain).stages stage).push kind offset total chunk = (st, rv)) :
      AdcRule a (.stagePush chain stage kind offset total chunk)
        (a.setChain chain
          { a.chains chain with stages := Function.update (a.chains chain).stages stage st })
  | refused {chain id : ℕ} (hchain : chain < dspMaxChains) (huse : (a.chains chain).inUse = true)
      (hbound : (a.chains chain).bound = false) :
      AdcRule a (.chainBind chain id) (a.chainRelease chain)
  | attached {chain id last : ℕ} (hchain : chain < dspMaxChains) (hid : id < bridgeAdcStreamCount)
      (huse : (a.chains chain).inUse = true) (hbound : (a.chains chain).bound = false)
      (hscan : bindScan (a.chains chain).stages = some last)
      (hrun : (a.streams id).inUse = true) (hfree : (a.streams id).dspBound = false)
      (hcap : adcDspChainP1Capable (a.chains chain).stages = true)
      (hidle : (if ((a.chains chain).stages last).kind = 3 then adcDspFftStreamBusy a id
        else adcDspFilterStreamBusy a id) = false) :
      AdcRule a (.chainBind chain id)
        ((a.setStream id
          ((a.streams id).attached chain ((a.chains chain).stages last).kind)).setChain chain
            { a.chains chain with bound := true })
  | started {env : BeginEnv} {id channel rate : ℕ} (hid : id < bridgeAdcStreamCount)
      (hfree : (a.streams id).inUse = false) :
      AdcRule a (.streamBegin env id channel rate)
        (a.setStream id ((a.streams id).started channel env.resolutionBits))
  | read {env : ReadEnv} {id maxSamples : ℕ} (hid : id < bridgeAdcStreamCount) :
      AdcRule a (.streamRead env id maxSamples)
        (a.setStream id ((a.streams id).read env maxSamples).hw)
  | ended {env : EndEnv} {id : ℕ} (hid : id < bridgeAdcStreamCount)
      (hrun : (a.streams id).inUse = true) : AdcRule a (.streamEnd env id) (a.endStream id)
  | lapped {id : ℕ} {ftf dmaErr : Bool} :
      AdcRule a (.lapIsr id ftf dmaErr) (a.setStream id ((a.streams id).lapped ftf dmaErr))
  | pumped {id : ℕ} {p : PumpWrites} : AdcRule a (.pump id p) (a.pumped id p)

variable {a : Adc}

lemma AdcRule.of_open : AdcRule a .chainOpen (adcDspChainOpen a).hw := by
  fun_cases adcDspChainOpen
  case case1 i hi =>
    refine .opened (List.mem_range.mp (List.mem_of_find?_eq_some hi)) ?_
    simpa using List.find?_some hi
  case case2 => exact .same

lemma AdcRule.of_push (chain stage kind offset total : ℕ) (chunk : List UInt8) :
    AdcRule a (.stagePush chain stage kind offset total chunk)
      (adcDspStagePush a chain stage kind offset total chunk).hw := by
  fun_cases adcDspStagePush
  case case11 hchain hstage hkind htotal hmax hlen hoff hfit huse hbound st rv hst =>
    refine .pushed (Nat.lt_of_not_le hchain) (Nat.lt_of_not_le hstage) (Nat.le_of_not_lt hkind)
      (Nat.pos_of_ne_zero htotal) (Nat.le_of_not_lt hmax) (Nat.pos_of_ne_zero hlen) ?_
      (by simpa using huse) (by simpa using hbound) hst
    omega
  all_goals exact .same

lemma AdcRule.of_bind (chain id : ℕ) :
    AdcRule a (.chainBind chain id) (adcDspChainBind a chain id).hw := by
  fun_cases adcDspChainBind
  case case8 hchain _ huse hbound _ _ _ _ _ =>
    exact .refused (Nat.lt_of_not_le hchain) (by simpa using huse) (by simpa using hbound)
  case case10 hchain hid huse hbound last hscan hrun hfree hcap _ hidle =>
    exact .attached (Nat.lt_of_not_le hchain) (Nat.lt_of_not_le hid) (by simpa using huse)
      (by simpa using hbound) hscan (by simpa using hrun) (by simpa using hfree)
      (by simpa using hcap) (by simpa using hidle)
  all_goals exact .same

lemma AdcRule.of_begin (env : BeginEnv) (id channel rate : ℕ) :
    AdcRule a (.streamBegin env id channel rate) (adcStreamBegin a env id channel rate).hw := by
  fun_cases adcStreamBegin
  case case11 hid _ _ _ _ hfree _ _ _ _ =>
    exact .started (Nat.lt_of_not_le hid) (by simpa using hfree)
  all_goals exact .same

lemma AdcRule.of_read (env : ReadEnv) (id maxSamples : ℕ) :
    AdcRule a (.streamRead env id maxSamples) (adcStreamRead a env id maxSamples).hw := by
  by_cases hid : id ≥ bridgeAdcStreamCount
  · simp only [adcStreamRead, if_pos hid]
    exact .same
  · simp only [adcStreamRead, if_neg hid]
    exact .read (Nat.lt_of_not_le hid)

lemma AdcRule.of_end (env : EndEnv) (id : ℕ) :
    AdcRule a (.streamEnd env id) (adcStreamEnd a env id).hw := by
  by_cases hid : id ≥ bridgeAdcStreamCount
  · simp only [adcStreamEnd, if_pos hid]
    exact .same
  by_cases hrun : (a.streams id).inUse = true
  · by_cases hdma : env.dmaDisabled = true
    · simp only [adcStreamEnd, if_neg hid, hrun, hdma, not_true_eq_false, if_false]
      exact .ended (Nat.lt_of_not_le hid) hrun
    · simp only [adcStreamEnd, if_neg hid, hrun, not_true_eq_false, if_false, if_pos hdma]
      exact .same
  · simp only [adcStreamEnd, if_neg hid, if_pos hrun]
    exact .same

/-- The rules cover every operation. -/
theorem AdcRule.of_apply (a : Adc) (op : AdcOp) : AdcRule a op (adcApply a op) := by
  cases op with
  | chainOpen => exact .of_open
  | stagePush chain stage kind offset total chunk =>
    exact .of_push chain stage kind offset total chunk
  | chainBind chain id => exact .of_bind chain id
  | streamBegin env id channel rate => exact .of_begin env id channel rate
  | streamRead env id maxSamples => exact .of_read env id maxSamples
  | streamEnd env id => exact .of_end env id
  | lapIsr id ftf dmaErr => exact .lapped
  | pump id p => exact .pumped

lemma AdcRule.of_step {a' : Adc} {op : AdcOp} (h : adcStep a op = some a') : AdcRule a op a' := by
  obtain rfl : adcApply a op = a' := by simpa only [adcStep, Option.some.injEq] using h
  exact .of_apply a op

end Gd32Bridge
