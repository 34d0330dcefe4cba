import Gd32Bridge.Adc.Rules
import Gd32Bridge.Adc.Shape
import Gd32Bridge.Lib.Transition

/-!
# Ownership of the DSP chains

Which stream a chain is bound to is recorded on both sides, in the pool and in the stream table.
The two records agree in every state, whatever commands succeed or fail.
-/

namespace Gd32Bridge

open Transition

variable {a a' : Adc} {op : AdcOp}

/-- A chain fit to be bound with this terminal. -/
def FitFor (stages : ℕ → DspStage) (terminal : ℕ) : Prop :=
  (∃ last, WellShaped stages last ∧ terminal = (stages last).kind) ∧
    adcDspChainP1Capable stages = true

/-- The two records of what is bound to what. -/
structure PoolInv (a : Adc) : Prop where
  running : ∀ id, (a.streams id).dspBound = true →
    id < bridgeAdcStreamCount ∧ (a.streams id).inUse = true
  chain : ∀ id, (a.streams id).dspBound = true →
    (a.streams id).dspChainId < dspMaxChains ∧
      (a.chains (a.streams id).dspChainId).inUse = true ∧
      (a.chains (a.streams id).dspChainId).bound = true
  owner : ∀ c, (a.chains c).bound = true →
    ∃ id, (a.streams id).dspBound = true ∧ (a.streams id).dspChainId = c
  one : ∀ id id', (a.streams id).dspBound = true → (a.streams id').dspBound = true →
    (a.streams id).dspChainId = (a.streams id').dspChainId → id = id'
  block : ∀ id id', (a.streams id).dspBound = true → (a.streams id').dspBound = true →
    ((a.streams id).dspTerminal = 3 ↔ (a.streams id').dspTerminal = 3) → id = id'
  fit : ∀ id, (a.streams id).dspBound = true →
    FitFor (a.chains (a.streams id).dspChainId).stages (a.streams id).dspTerminal

lemma PoolInv.boot : PoolInv Adc.boot where
  running _ h := absurd h Bool.noConfusion
  chain _ h := absurd h Bool.noConfusion
  owner _ h := absurd h Bool.noConfusion
  one _ _ h := absurd h Bool.noConfusion
  block _ _ h := absurd h Bool.noConfusion
  fit _ h := absurd h Bool.noConfusion

/-! ### Changes that touch no binding -/

/-- The bindings of every stream, and every chain that is bound, are as before. -/
lemma PoolInv.frame (h : PoolInv a)
    (hs : ∀ id, (a.streams id).SameBinding (a'.streams id) ∨
      (a.streams id).dspBound = false ∧ (a'.streams id).dspBound = false)
    (hc : ∀ c, (a.chains c).bound = true → a'.chains c = a.chains c)
    (hnew : ∀ c, (a.chains c).bound = false → (a'.chains c).bound = false) : PoolInv a' := by
  have hsame (id : ℕ) (hb : (a'.streams id).dspBound = true) :
      (a.streams id).SameBinding (a'.streams id) ∧ (a.streams id).dspBound = true := by
    rcases hs id with hsame | ⟨-, hfree⟩
    · exact ⟨hsame, hsame.dspBound ▸ hb⟩
    · rw [hfree] at hb
      cases hb
  have hchain (id : ℕ) (hb : (a'.streams id).dspBound = true) :
      a'.chains (a'.streams id).dspChainId = a.chains (a.streams id).dspChainId := by
    obtain ⟨hsame, hold⟩ := hsame id hb
    rw [hsame.dspChainId]
    exact hc _ (h.chain id hold).2.2
  constructor
  · intro id hb
    obtain ⟨hsame, hold⟩ := hsame id hb
    rw [hsame.inUse]
    exact h.running id hold
  · intro id hb
    obtain ⟨hsame, hold⟩ := hsame id hb
    rw [hchain id hb, hsame.dspChainId]
    exact h.chain id hold
  · intro c hb
    cases hold : (a.chains c).bound with
    | false =>
      rw [hnew c hold] at hb
      cases hb
    | true =>
      obtain ⟨id, hbid, hid⟩ := h.owner c hold
      rcases hs id with hsame | ⟨hfree, -⟩
      · exact ⟨id, hsame.dspBound.trans hbid, hsame.dspChainId.trans hid⟩
      · rw [hfree] at hbid
        cases hbid
  · intro id id' hb hb' heq
    obtain ⟨hsame₁, hold⟩ := hsame id hb
    obtain ⟨hsame₂, hold'⟩ := hsame id' hb'
    rw [hsame₁.dspChainId, hsame₂.dspChainId] at heq
    exact h.one id id' hold hold' heq
  · intro id id' hb hb' hiff
    obtain ⟨hsame₁, hold⟩ := hsame id hb
    obtain ⟨hsame₂, hold'⟩ := hsame id' hb'
    rw [hsame₁.dspTerminal, hsame₂.dspTerminal] at hiff
    exact h.block id id' hold hold' hiff
  · intro id hb
    obtain ⟨hsame, hold⟩ := hsame id hb
    rw [hchain id hb, hsame.dspTerminal]
    exact h.fit id hold

/-- Writing a chain that is not bound, and stays so. -/
lemma PoolInv.setChain (h : PoolInv a) {c : ℕ} {chain : DspChain}
    (hold : (a.chains c).bound = false) (hnew : chain.bound = false) :
    PoolInv (a.setChain c chain) := by
  refine h.frame (fun id => .inl (.refl _)) (fun d hd => ?_) fun d hd => ?_
  · have hne : d ≠ c := by
      rintro rfl
      rw [hold] at hd
      cases hd
    rw [Adc.setChain_chains, Function.update_of_ne hne]
  · rw [Adc.setChain_chains]
    by_cases hdc : d = c
    · rw [hdc, Function.update_self]
      exact hnew
    · rw [Function.update_of_ne hdc]
      exact hd

/-- Writing a stream without touching what is bound to it. -/
lemma PoolInv.setStream (h : PoolInv a) {i : ℕ} {s : AdcStream}
    (hs : (a.streams i).SameBinding s ∨ (a.streams i).dspBound = false ∧ s.dspBound = false) :
    PoolInv (a.setStream i s) := by
  refine h.frame (fun id => ?_) (fun _ _ => rfl) fun _ hd => hd
  rw [Adc.setStream_streams]
  by_cases hid : id = i
  · subst hid
    rwa [Function.update_self]
  · rw [Function.update_of_ne hid]
    exact .inl (.refl _)

/-! ### Binding and unbinding -/

/-- No other running stream is bound to a terminal that `p` asks for. -/
lemma Adc.terminalBusy_eq_false {p : ℕ → Bool} {id i : ℕ} (h : a.terminalBusy p id = false)
    (hlt : i < bridgeAdcStreamCount) (hne : i ≠ id) (hrun : (a.streams i).inUse = true)
    (hb : (a.streams i).dspBound = true) : p (a.streams i).dspTerminal = false := by
  have hi := List.any_eq_false.mp h i (List.mem_range.mpr hlt)
  simpa [hne, hrun, hb] using hi

/-- A stream is the only one bound to its block. -/
lemma Adc.idle_block (h : PoolInv a) {id terminal i : ℕ}
    (hidle : (if terminal = 3 then adcDspFftStreamBusy a id else adcDspFilterStreamBusy a id) =
      false)
    (hb : (a.streams i).dspBound = true) (hiff : (a.streams i).dspTerminal = 3 ↔ terminal = 3) :
    i = id := by
  by_contra hne
  obtain ⟨hlt, hrun⟩ := h.running i hb
  by_cases ht : terminal = 3
  · rw [if_pos ht] at hidle
    have hfree := Adc.terminalBusy_eq_false hidle hlt hne hrun hb
    simp [hiff.mpr ht] at hfree
  · rw [if_neg ht] at hidle
    have hfree := Adc.terminalBusy_eq_false hidle hlt hne hrun hb
    have hnot : (a.streams i).dspTerminal ≠ 3 := fun h₃ => ht (hiff.mp h₃)
    simp [hnot] at hfree

/-- A chain that is bound to some stream is not a free one. -/
lemma PoolInv.chain_ne (h : PoolInv a) {i c : ℕ} (hb : (a.streams i).dspBound = true)
    (hfree : (a.chains c).bound = false) : (a.streams i).dspChainId ≠ c := by
  rintro rfl
  rw [(h.chain i hb).2.2] at hfree
  cases hfree

lemma PoolInv.attach (h : PoolInv a) {chain id last : ℕ} (hchain : chain < dspMaxChains)
    (hid : id < bridgeAdcStreamCount) (huse : (a.chains chain).inUse = true)
    (hbound : (a.chains chain).bound = false)
    (hscan : bindScan (a.chains chain).stages = some last) (hrun : (a.streams id).inUse = true)
    (hfree : (a.streams id).dspBound = false)
    (hcap : adcDspChainP1Capable (a.chains chain).stages = true)
    (hidle : (if ((a.chains chain).stages last).kind = 3 then adcDspFftStreamBusy a id
      else adcDspFilterStreamBusy a id) = false) :
    PoolInv ((a.setStream id
      ((a.streams id).attached chain ((a.chains chain).stages last).kind)).setChain chain
        { a.chains chain with bound := true }) := by
  -- the two records as functions of the index
  have hstream (i : ℕ) : (Function.update a.streams id
      ((a.streams id).attached chain ((a.chains chain).stages last).kind)) i =
        if i = id then (a.streams id).attached chain ((a.chains chain).stages last).kind
        else a.streams i := by
    simp only [Function.update_apply]
  have hpool (c : ℕ) : (Function.update a.chains chain { a.chains chain with bound := true }) c =
      if c = chain then { a.chains chain with bound := true } else a.chains c := by
    simp only [Function.update_apply]
  have hother (i : ℕ) (hb : (a.streams i).dspBound = true) : i ≠ id := by
    rintro rfl
    rw [hfree] at hb
    cases hb
  constructor <;>
    simp only [Adc.setChain_streams, Adc.setStream_streams, Adc.setChain_chains,
      Adc.setStream_chains, hstream, hpool]
  · intro i hb
    split at hb
    · next heq =>
      subst heq
      rw [if_pos rfl]
      exact ⟨hid, hrun⟩
    · next hne =>
      rw [if_neg hne]
      exact h.running i hb
  · intro i hb
    split at hb
    · next heq =>
      subst heq
      simp only [if_true, AdcStream.attached]
      exact ⟨hchain, huse, trivial⟩
    · next hne =>
      rw [if_neg hne, if_neg (h.chain_ne hb hbound)]
      exact h.chain i hb
  · intro c hb
    by_cases hc : c = chain
    · exact ⟨id, by rw [if_pos rfl]; rfl, by rw [if_pos rfl, hc]; rfl⟩
    · rw [if_neg hc] at hb
      obtain ⟨i, hbi, hi⟩ := h.owner c hb
      exact ⟨i, by rwa [if_neg (hother i hbi)], by rwa [if_neg (hother i hbi)]⟩
  · intro i i' hb hb' heq
    split at hb <;> split at hb'
    · next h₁ h₂ => exact h₁.trans h₂.symm
    · next h₁ h₂ =>
      rw [if_pos h₁, if_neg h₂] at heq
      exact absurd heq.symm (h.chain_ne hb' hbound)
    · next h₁ h₂ =>
      rw [if_neg h₁, if_pos h₂] at heq
      exact absurd heq (h.chain_ne hb hbound)
    · next h₁ h₂ =>
      rw [if_neg h₁, if_neg h₂] at heq
      exact h.one i i' hb hb' heq
  · intro i i' hb hb' hiff
    split at hb <;> split at hb'
    · next h₁ h₂ => exact h₁.trans h₂.symm
    · next h₁ h₂ =>
      rw [if_pos h₁, if_neg h₂] at hiff
      exact absurd (Adc.idle_block h hidle hb' hiff.symm) h₂
    · next h₁ h₂ =>
      rw [if_neg h₁, if_pos h₂] at hiff
      exact absurd (Adc.idle_block h hidle hb hiff) h₁
    · next h₁ h₂ =>
      rw [if_neg h₁, if_neg h₂] at hiff
      exact h.block i i' hb hb' hiff
  · intro i hb
    split at hb
    · next heq =>
      simp only [if_pos heq, AdcStream.attached, if_true]
      exact ⟨⟨last, .of_bindScan hscan, rfl⟩, hcap⟩
    · next hne =>
      rw [if_neg hne, if_neg (h.chain_ne hb hbound)]
      exact h.fit i hb

/-- The pool after the end of a stream with a chain. -/
lemma Adc.endStream_chains {id : ℕ} (hb : (a.streams id).dspBound = true)
    (hlt : (a.streams id).dspChainId < dspMaxChains) :
    (a.endStream id).chains = Function.update a.chains (a.streams id).dspChainId
      { a.chains (a.streams id).dspChainId with bound := false, inUse := false } := by
  simp only [endStream, hb, if_true, setStream_chains, chainRelease,
    if_neg (Nat.not_le_of_lt hlt), setChain_chains, fftRelease_chains, facRelease_chains]

lemma PoolInv.endStream (h : PoolInv a) {id : ℕ} : PoolInv (a.endStream id) := by
  cases hb : (a.streams id).dspBound with
  | false =>
    simp only [Adc.endStream, hb, Bool.false_eq_true, if_false]
    exact h.setStream (.inr ⟨hb, rfl⟩)
  | true =>
    -- the stream and its chain drop out together; every other binding is untouched
    have hother (i : ℕ) (hbi : ((a.endStream id).streams i).dspBound = true) :
        (a.endStream id).streams i = a.streams i ∧ (a.streams i).dspBound = true ∧
          (a.streams i).dspChainId ≠ (a.streams id).dspChainId := by
      rw [Adc.endStream_streams] at hbi ⊢
      by_cases hi : i = id
      · rw [hi, Function.update_self] at hbi
        cases hbi
      · rw [Function.update_of_ne hi] at hbi ⊢
        exact ⟨rfl, hbi, fun heq => hi (h.one i id hbi hb heq)⟩
    have hchains := Adc.endStream_chains hb (h.chain id hb).1
    constructor
    · intro i hbi
      obtain ⟨heq, hold, -⟩ := hother i hbi
      rw [heq]
      exact h.running i hold
    · intro i hbi
      obtain ⟨heq, hold, hne⟩ := hother i hbi
      rw [heq, hchains, Function.update_of_ne hne]
      exact h.chain i hold
    · intro c hbc
      rw [hchains] at hbc
      by_cases hc : c = (a.streams id).dspChainId
      · rw [hc, Function.update_self] at hbc
        cases hbc
      · rw [Function.update_of_ne hc] at hbc
        obtain ⟨i, hbi, hi⟩ := h.owner c hbc
        have hne : i ≠ id := by
          rintro rfl
          exact hc hi.symm
        rw [Adc.endStream_streams]
        exact ⟨i, by rwa [Function.update_of_ne hne], by rwa [Function.update_of_ne hne]⟩
    · intro i i' hbi hbi' heq
      obtain ⟨h₁, hold, -⟩ := hother i hbi
      obtain ⟨h₂, hold', -⟩ := hother i' hbi'
      rw [h₁, h₂] at heq
      exact h.one i i' hold hold' heq
    · intro i i' hbi hbi' hiff
      obtain ⟨h₁, hold, -⟩ := hother i hbi
      obtain ⟨h₂, hold', -⟩ := hother i' hbi'
      rw [h₁, h₂] at hiff
      exact h.block i i' hold hold' hiff
    · intro i hbi
      obtain ⟨heq, hold, hne⟩ := hother i hbi
      rw [heq, hchains, Function.update_of_ne hne]
      exact h.fit i hold

/-! ### Runs -/

/-- A free chain is bound to nothing. -/
lemma PoolInv.bound_of_free (h : PoolInv a) {c : ℕ} (hfree : (a.chains c).inUse = false) :
    (a.chains c).bound = false := by
  cases hb : (a.chains c).bound with
  | false => rfl
  | true =>
    obtain ⟨id, hbid, rfl⟩ := h.owner c hb
    rw [(h.chain id hbid).2.1] at hfree
    cases hfree

/-- One step. -/
lemma PoolInv.step (h : PoolInv a) (hs : adcStep a op = some a') : PoolInv a' := by
  cases AdcRule.of_step hs with
  | same => exact h
  | opened _ hfree => exact h.setChain (h.bound_of_free hfree) rfl
  | pushed _ _ _ _ _ _ _ _ hbound _ => exact h.setChain hbound hbound
  | @refused chain _ hchain _ hbound =>
    simp only [Adc.chainRelease, if_neg (Nat.not_le_of_lt hchain)]
    exact h.setChain hbound rfl
  | attached hchain hid huse hbound hscan hrun hfree hcap hidle =>
    exact h.attach hchain hid huse hbound hscan hrun hfree hcap hidle
  | @started _ id _ _ _ hfree =>
    refine h.setStream (.inr ⟨?_, rfl⟩)
    cases hb : (a.streams id).dspBound with
    | false => rfl
    | true =>
      rw [(h.running id hb).2] at hfree
      cases hfree
  | read => exact h.setStream (.inl (AdcStream.read_binding _ _ _))
  | ended => exact h.endStream
  | lapped => exact h.setStream (.inl (AdcStream.lapped_binding _ _ _))
  | @pumped id p =>
    have hset := h.setStream (.inl ((a.streams id).pumped_binding p))
    exact hset.frame (fun _ => .inl (.refl _)) (fun _ _ => rfl) fun _ hd => hd

/-- No step writes the stages of a bound chain. -/
lemma PoolInv.stages_kept (h : PoolInv a) (hs : adcStep a op = some a') {c : ℕ}
    (hb : (a.chains c).bound = true) : (a'.chains c).stages = (a.chains c).stages := by
  have hne {d : ℕ} (hd : (a.chains d).bound = false) : c ≠ d := by
    rintro rfl
    rw [hd] at hb
    cases hb
  cases AdcRule.of_step hs with
  | same => rfl
  | opened _ hfree =>
    rw [Adc.setChain_chains, Function.update_of_ne (hne (h.bound_of_free hfree))]
  | pushed _ _ _ _ _ _ _ _ hbound _ =>
    rw [Adc.setChain_chains, Function.update_of_ne (hne hbound)]
  | @refused chain _ hchain _ hbound =>
    simp only [Adc.chainRelease, if_neg (Nat.not_le_of_lt hchain)]
    rw [Adc.setChain_chains, Function.update_of_ne (hne hbound)]
  | attached _ _ _ hbound _ _ _ _ _ =>
    rw [Adc.setChain_chains, Function.update_of_ne (hne hbound)]
    rfl
  | started => rfl
  | read => rfl
  | @ended _ id _ _ =>
    cases hbs : (a.streams id).dspBound with
    | false =>
      simp only [Adc.endStream, hbs, Bool.false_eq_true, if_false]
      rfl
    | true =>
      rw [Adc.endStream_chains hbs (h.chain id hbs).1]
      by_cases hc : c = (a.streams id).dspChainId
      · rw [hc, Function.update_self]
      · rw [Function.update_of_ne hc]
  | lapped => rfl
  | pumped => rfl

/-- END that answers OK has freed the chain of the stream. -/
lemma PoolInv.freed_of_end (h : PoolInv a) {env : EndEnv} {id : ℕ}
    (hok : (adcStreamEnd a env id).rv = .ok) (hb : (a.streams id).dspBound = true) :
    ((adcStreamEnd a env id).hw.chains (a.streams id).dspChainId).inUse = false ∧
      ((adcStreamEnd a env id).hw.chains (a.streams id).dspChainId).bound = false := by
  obtain ⟨hid, hrun⟩ := h.running id hb
  simp only [adcStreamEnd, if_neg (Nat.not_le_of_lt hid), hrun, not_true_eq_false, if_false]
    at hok ⊢
  cases hdma : env.dmaDisabled with
  | false =>
    rw [hdma] at hok
    cases hok
  | true =>
    simp only [not_true_eq_false, if_false]
    rw [Adc.endStream_chains hb (h.chain id hb).1, Function.update_self]
    exact ⟨rfl, rfl⟩

/-- The ownership of the chains in every reachable state. -/
theorem dsp_pool_bindings (h : Reach adcStep (· = Adc.boot) (fun _ _ _ => True) a) :
    (∀ id < bridgeAdcStreamCount, (a.streams id).dspBound = true →
      (a.streams id).inUse = true ∧ (a.streams id).dspChainId < dspMaxChains ∧
        (a.chains (a.streams id).dspChainId).inUse = true ∧
        (a.chains (a.streams id).dspChainId).bound = true) ∧
    (∀ c < dspMaxChains, (a.chains c).bound = true →
      ∃! id, id < bridgeAdcStreamCount ∧ (a.streams id).inUse = true ∧
        (a.streams id).dspBound = true ∧ (a.streams id).dspChainId = c) ∧
    (∀ id < bridgeAdcStreamCount, ∀ id' < bridgeAdcStreamCount, (a.streams id).dspBound = true →
      (a.streams id').dspBound = true → (a.streams id).dspTerminal ≠ 3 →
        (a.streams id').dspTerminal ≠ 3 → id = id') ∧
    (∀ id < bridgeAdcStreamCount, ∀ id' < bridgeAdcStreamCount, (a.streams id).dspBound = true →
      (a.streams id').dspBound = true → (a.streams id).dspTerminal = 3 →
        (a.streams id').dspTerminal = 3 → id = id') ∧
    (∀ id < bridgeAdcStreamCount, (a.streams id).dspBound = true →
      FitFor (a.chains (a.streams id).dspChainId).stages (a.streams id).dspTerminal) ∧
    (∀ op a', adcStep a op = some a' → ∀ c < dspMaxChains, (a.chains c).bound = true →
      (a'.chains c).stages = (a.chains c).stages) ∧
    ∀ env id, (adcStreamEnd a env id).rv = .ok → (a.streams id).dspBound = true →
      ((adcStreamEnd a env id).hw.chains (a.streams id).dspChainId).inUse = false ∧
        ((adcStreamEnd a env id).hw.chains (a.streams id).dspChainId).bound = false := by
  have hi : PoolInv a := by
    apply Reach.invariant (I := PoolInv) ?_ ?_ h
    · rintro _ rfl
      exact .boot
    · exact fun _ _ _ _ hI hs _ => hI.step hs
  refine ⟨fun id _ hb => ⟨(hi.running id hb).2, hi.chain id hb⟩, fun c _ hb => ?_,
    fun id _ id' _ hb hb' ht ht' => hi.block id id' hb hb' (iff_of_false ht ht'),
    fun id _ id' _ hb hb' ht ht' => hi.block id id' hb hb' (iff_of_true ht ht'),
    fun id _ hb => hi.fit id hb, fun op a' hs c _ hb => hi.stages_kept hs hb,
    fun env id hok hb => hi.freed_of_end hok hb⟩
  obtain ⟨id, hbid, hid⟩ := hi.owner c hb
  obtain ⟨hlt, hrun⟩ := hi.running id hbid
  refine ⟨id, ⟨hlt, hrun, hbid, hid⟩, ?_⟩
  rintro id' ⟨-, -, hb', hid'⟩
  exact hi.one id' id hb' hbid (hid'.trans hid.symm)

/-- Two streams on different converters, and a chain of one FIR tap bound to the first. -/
def boundRun : List AdcOp :=
  [.streamBegin ⟨true, true, true, true, 12⟩ 0 0 1000,
    .streamBegin ⟨true, true, true, true, 12⟩ 1 2 1000, .chainOpen,
    .stagePush 0 0 0 0 8 [0, 1, 0, 0, 0, 0, 0, 0], .chainBind 0 0]

theorem dsp_pool_bindings_fir :
    ∃ a, Reach adcStep (· = Adc.boot) (fun _ _ _ => True) a ∧ (a.chains 0).bound = true ∧
      ∃! id, id < bridgeAdcStreamCount ∧ (a.streams id).inUse = true ∧
        (a.streams id).dspBound = true ∧ (a.streams id).dspChainId = 0 := by
  have hinit : Reach adcStep (· = Adc.boot) (fun _ _ _ => True) Adc.boot := .start rfl
  obtain ⟨a, ha, hq⟩ := hinit.exists_of_run (fun _ _ _ => true) (fun a => (a.chains 0).bound)
    boundRun (fun _ _ _ _ => trivial) (by decide)
  exact ⟨a, ha, hq, (dsp_pool_bindings ha).2.1 0 (by decide) hq⟩

/-- A stream that runs without a chain keeps a `dsp_chain_id` of zero, which is also the id of the
chain bound to the other stream. -/
theorem dsp_chain_id_shared :
    ∃ a, Reach adcStep (· = Adc.boot) (fun _ _ _ => True) a ∧ (a.chains 0).bound = true ∧
      ¬ ∃! id, id < bridgeAdcStreamCount ∧ (a.streams id).inUse = true ∧
        (a.streams id).dspChainId = 0 := by
  have hinit : Reach adcStep (· = Adc.boot) (fun _ _ _ => True) Adc.boot := .start rfl
  obtain ⟨a, ha, hq⟩ := hinit.exists_of_run (fun _ _ _ => true)
    (fun a => (a.chains 0).bound && ((a.streams 0).inUse && (a.streams 0).dspChainId == 0 &&
      ((a.streams 1).inUse && (a.streams 1).dspChainId == 0)))
    boundRun (fun _ _ _ _ => trivial) (by decide)
  simp only [Bool.and_eq_true, beq_iff_eq] at hq
  refine ⟨a, ha, hq.1, ?_⟩
  rintro ⟨id, -, huniq⟩
  have h₀ := huniq 0 ⟨by decide, hq.2.1⟩
  have h₁ := huniq 1 ⟨by decide, hq.2.2⟩
  rw [← h₀] at h₁
  cases h₁

end Gd32Bridge
