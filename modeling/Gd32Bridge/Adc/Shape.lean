import Gd32Bridge.Adc.Chain

/-!
# The shape of a chain that binds

What the structural checks of `bridge_hw_adc_dsp_chain_bind` establish, read off the loop that
makes them.
-/

namespace Gd32Bridge

variable {stages : ℕ → DspStage} {acc acc' : BindScan} {i : ℕ}

/-- The stages up to `last` and those before it without a gap, each complete and well formed, an
FFT only at the end, a WINDOW only right before an FFT. -/
structure WellShaped (stages : ℕ → DspStage) (last : ℕ) : Prop where
  lt : last < dspMaxStages
  populated : (stages last).Populated
  le_last : ∀ j < dspMaxStages, (stages j).Populated → j ≤ last
  complete : ∀ j < dspMaxStages, (stages j).Populated → (stages j).complete = true
  valid : ∀ j < dspMaxStages, (stages j).Populated → (stages j).blobValid = true
  contiguous : ∀ j k, (stages j).Populated → j ≤ k → k ≤ last → (stages k).Populated
  fft_last : ∀ j < dspMaxStages, (stages j).Populated → (stages j).kind = 3 → j = last
  window_fft : ∀ j < dspMaxStages, (stages j).Populated → (stages j).kind = 2 →
    j + 1 = last ∧ (stages last).kind = 3

/-- `idx` is the only populated stage of this kind among the first `i`, if there is one. -/
def OnlyOfKind (stages : ℕ → DspStage) (kind i : ℕ) : Option ℕ → Prop
  | none => ∀ j < i, (stages j).Populated → (stages j).kind ≠ kind
  | some f => (f < i ∧ (stages f).Populated ∧ (stages f).kind = kind) ∧
      ∀ j < i, (stages j).Populated → (stages j).kind = kind → j = f

/-- What the loop has established after `i` stages. -/
structure ScanInv (stages : ℕ → DspStage) (i : ℕ) (acc : BindScan) : Prop where
  complete : ∀ j < i, (stages j).Populated → (stages j).complete = true
  valid : ∀ j < i, (stages j).Populated → (stages j).blobValid = true
  none_populated : acc.last = none → ∀ j < i, ¬ (stages j).Populated
  last_spec : ∀ l, acc.last = some l → (l < i ∧ (stages l).Populated) ∧
    (∀ j < i, (stages j).Populated → j ≤ l) ∧
    ∀ j k, (stages j).Populated → j ≤ k → k ≤ l → (stages k).Populated
  fft : OnlyOfKind stages 3 i acc.fft
  window : OnlyOfKind stages 2 i acc.window

lemma scanInv_zero : ScanInv stages 0 ⟨none, none, none⟩ where
  complete _ h := absurd h (Nat.not_lt_zero _)
  valid _ h := absurd h (Nat.not_lt_zero _)
  none_populated _ _ h := absurd h (Nat.not_lt_zero _)
  last_spec _ h := absurd h (by simp)
  fft _ h := absurd h (Nat.not_lt_zero _)
  window _ h := absurd h (Nat.not_lt_zero _)

/-- A property of the stages before `i` and of stage `i` holds of those before `i + 1`. -/
lemma forall_lt_succ {p : ℕ → Prop} (h : ∀ j < i, p j) (hi : p i) : ∀ j < i + 1, p j := by
  intro j hj
  rcases Nat.lt_succ_iff_lt_or_eq.mp hj with hlt | rfl
  · exact h j hlt
  · exact hi

/-- A stage of another kind. -/
lemma OnlyOfKind.skip {kind : ℕ} {o : Option ℕ} (h : OnlyOfKind stages kind i o)
    (hi : (stages i).Populated → (stages i).kind ≠ kind) : OnlyOfKind stages kind (i + 1) o := by
  cases o with
  | none => exact forall_lt_succ h hi
  | some f =>
    obtain ⟨⟨hf, hp, hk⟩, hall⟩ := h
    exact ⟨⟨Nat.lt_succ_of_lt hf, hp, hk⟩, forall_lt_succ hall fun hpi hki => absurd hki (hi hpi)⟩

/-- The first stage of a kind. -/
lemma OnlyOfKind.first {kind : ℕ} (h : OnlyOfKind stages kind i none)
    (hp : (stages i).Populated) (hk : (stages i).kind = kind) :
    OnlyOfKind stages kind (i + 1) (some i) := by
  refine ⟨⟨Nat.lt_succ_self i, hp, hk⟩, forall_lt_succ ?_ fun _ _ => rfl⟩
  exact fun j hj hpj hkj => absurd hkj (h j hj hpj)

/-- A populated stage right after the last one, or the first of all. -/
lemma ScanInv.extend (h : ScanInv stages i acc) (hp : (stages i).Populated)
    (hc : (stages i).complete = true) (hv : (stages i).blobValid = true)
    (hgap : ∀ l, acc.last = some l → i - l = 1) {fft window : Option ℕ}
    (hfft : OnlyOfKind stages 3 (i + 1) fft) (hwin : OnlyOfKind stages 2 (i + 1) window) :
    ScanInv stages (i + 1) ⟨fft, window, some i⟩ where
  complete := forall_lt_succ h.complete fun _ => hc
  valid := forall_lt_succ h.valid fun _ => hv
  none_populated hn := absurd hn (by simp)
  last_spec := by
    rintro _ ⟨⟩
    refine ⟨⟨Nat.lt_succ_self i, hp⟩, fun j hj _ => Nat.le_of_lt_succ hj, fun j k hpj hjk hki => ?_⟩
    rcases Nat.lt_or_eq_of_le hki with hlt | rfl
    · cases hl : acc.last with
      | none => exact absurd hpj (h.none_populated hl j (Nat.lt_of_le_of_lt hjk hlt))
      | some l =>
        have h₁ := hgap l hl
        exact (h.last_spec l hl).2.2 j k hpj hjk (by omega)
    · exact hp
  fft := hfft
  window := hwin

/-- One turn of the loop. -/
lemma ScanInv.step (h : ScanInv stages i acc) (hs : bindStep stages acc i = some acc') :
    ScanInv stages (i + 1) acc' := by
  simp only [bindStep] at hs
  split at hs
  · next hp =>
    cases hs
    exact {
      complete := forall_lt_succ h.complete fun hpi => absurd hpi hp
      valid := forall_lt_succ h.valid fun hpi => absurd hpi hp
      none_populated := fun hn => forall_lt_succ (h.none_populated hn) hp
      last_spec := fun l hl => by
        obtain ⟨⟨hlt, hpl⟩, hle, hcont⟩ := h.last_spec l hl
        exact ⟨⟨Nat.lt_succ_of_lt hlt, hpl⟩, forall_lt_succ hle fun hpi => absurd hpi hp, hcont⟩
      fft := h.fft.skip fun hpi => absurd hpi hp
      window := h.window.skip fun hpi => absurd hpi hp }
  next hp =>
  split at hs
  · cases hs
  next hc =>
  split at hs
  · cases hs
  next hv =>
  split at hs
  · cases hs
  next hgap =>
  have hp' := not_not.mp hp
  have hc' : (stages i).complete = true := not_not.mp hc
  have hv' : (stages i).blobValid = true := not_not.mp hv
  have hgap' : ∀ l, acc.last = some l → i - l = 1 := by
    intro l hl
    simpa [hl] using hgap
  split at hs
  · next hk =>
    split at hs
    · cases hs
    next hf =>
    cases hs
    have hnone : acc.fft = none := by simpa using hf
    exact h.extend hp' hc' hv' hgap' ((hnone ▸ h.fft).first hp' hk)
      (h.window.skip fun _ hk₂ => by omega)
  next hk =>
  split at hs
  · next hk₂ =>
    split at hs
    · cases hs
    next hw =>
    cases hs
    have hnone : acc.window = none := by simpa using hw
    exact h.extend hp' hc' hv' hgap' (h.fft.skip fun _ => hk)
      ((hnone ▸ h.window).first hp' hk₂)
  · next hk₂ =>
    cases hs
    exact h.extend hp' hc' hv' hgap' (h.fft.skip fun _ => hk) (h.window.skip fun _ => hk₂)

/-- The whole loop. -/
lemma ScanInv.of_foldlM {n : ℕ}
    (h : (List.range n).foldlM (bindStep stages) ⟨none, none, none⟩ = some acc) :
    ScanInv stages n acc := by
  induction n generalizing acc with
  | zero =>
    cases h
    exact scanInv_zero
  | succ n ih =>
    rw [List.range_succ, List.foldlM_append, Option.bind_eq_bind, Option.bind_eq_some_iff] at h
    obtain ⟨mid, hmid, hlast⟩ := h
    simp only [List.foldlM_cons, List.foldlM_nil, Option.bind_eq_bind] at hlast
    obtain ⟨acc', hs, hpure⟩ := Option.bind_eq_some_iff.mp hlast
    cases hpure
    exact (ih hmid).step hs

/-- The checks after the loop complete the shape. -/
lemma WellShaped.of_bindScan {last : ℕ} (h : bindScan stages = some last) :
    WellShaped stages last := by
  obtain ⟨acc, hfold, htail⟩ := Option.bind_eq_some_iff.mp h
  have hi := ScanInv.of_foldlM hfold
  have hfft := hi.fft
  have hwin := hi.window
  simp only [bindTail] at htail
  split at htail
  · cases htail
  next l hl =>
  obtain ⟨⟨hlt, hpl⟩, hle, hcont⟩ := hi.last_spec l hl
  cases hf : acc.fft with
  | none =>
    rw [hf] at hfft htail
    simp only at htail
    split at htail
    · cases htail
    next hw =>
    cases htail
    have hnone : acc.window = none := by simpa using hw
    rw [hnone] at hwin
    exact ⟨hlt, hpl, hle, hi.complete, hi.valid, hcont, fun j hj hp hk => absurd hk (hfft j hj hp),
      fun j hj hp hk => absurd hk (hwin j hj hp)⟩
  | some f =>
    rw [hf] at hfft htail
    simp only at htail
    split at htail
    · cases htail
    next hterm =>
    split at htail
    · cases htail
    next hw =>
    cases htail
    obtain rfl : f = last := not_not.mp hterm
    obtain ⟨⟨-, -, hkf⟩, honly⟩ := hfft
    refine ⟨hlt, hpl, hle, hi.complete, hi.valid, hcont, honly, fun j hj hp hk => ⟨?_, hkf⟩⟩
    cases hwi : acc.window with
    | none =>
      rw [hwi] at hwin
      exact absurd hk (hwin j hj hp)
    | some w =>
      rw [hwi] at hwin hw
      obtain rfl := hwin.2 j hj hp hk
      simp only [Option.any_some, decide_eq_true_eq] at hw
      omega

end Gd32Bridge
