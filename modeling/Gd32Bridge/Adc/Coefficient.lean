import Gd32Bridge.Adc.Chain
import Gd32Bridge.Lib.Binary32
import Gd32Bridge.Lib.Endian
import Gd32Bridge.Lib.Memory
import Mathlib.Tactic.NormNum

/-!
# The coefficients of a hardware filter

`adc_dsp_fac_config` of `hal/gd32/adc_stream.c` with what it calls: the coefficients of a FIR stage
or of a single IIR section, Q31 or F32 on the wire, become q1.15 words for the local memory of the
FAC.  The F32 taps of a FIR are narrowed in the buffer they have been unpacked to.  What the stack
holds before is `scratch`, and `undef` is what comes of a conversion to `int16_t` that the value
does not fit in.
-/

namespace Gd32Bridge

/-! ### One coefficient -/

/-- `0.0f`, `1.0f`, `-1.0f`, `0.999969f` and `ADC_DSP_FAC_COEFF_MAX`, `128.0f` -/
def f32Zero : Binary32 := .ofBits 0
def f32One : Binary32 := .ofBits 0x3F800000
def f32MinusOne : Binary32 := .ofBits 0xBF800000
def f32BelowOne : Binary32 := .ofBits 0x3F7FFDF8
def adcDspFacCoeffMax : Binary32 := .ofBits 0x43000000

/-- `(int16_t)f` -/
def castInt16 (undef : Int16) (f : Binary32) : Int16 :=
  match f.trunc with
  | some z => if -2 ^ 15 ≤ z ∧ z < 2 ^ 15 then .ofInt z else undef
  | none => undef

/-- `adc_dsp_f32_to_q15` -/
def adcDspF32ToQ15 (undef : Int16) (f : Binary32) (g : ℕ) : Int16 :=
  let f := f.divTwoPow g
  let f := if f32One.le f then f32BelowOne else f
  let f := if f.le f32MinusOne then f32MinusOne else f
  castInt16 undef (f.mulTwoPow 15)

/-- `adc_dsp_neg_q15` -/
def adcDspNegQ15 (v : Int16) : Int16 :=
  if v = Int16.minValue then Int16.maxValue else -v

/-- The narrowing of a Q31 word. -/
def q31ToQ15 (w : UInt32) : Int16 := .ofInt (w.toInt32.toInt >>> (16 : ℕ))

/-- One turn of the loop of `adc_dsp_f32_max_abs`. -/
def maxAbsStep (max v : Binary32) : Binary32 :=
  let a := if v.lt f32Zero then v.neg else v
  if max.lt a then a else max

/-- `adc_dsp_f32_max_abs` -/
def adcDspF32MaxAbs (vs : List Binary32) : Binary32 :=
  let max := vs.foldl maxAbsStep f32Zero
  if adcDspFacCoeffMax.le max then f32MinusOne else max

/-- The loop of `adc_dsp_headroom_exp` from `g` on, `n` exponents before its end. -/
def headroomFrom (maxAbs : Binary32) : ℕ → ℕ → ℕ
  | g, 0 => g
  | g, n + 1 => if (Binary32.twoPow g).lt maxAbs then headroomFrom maxAbs (g + 1) n else g

/-- `adc_dsp_headroom_exp` -/
def adcDspHeadroomExp (maxAbs : Binary32) : ℕ := headroomFrom maxAbs 0 7

/-! ### The buffer of the taps -/

/-- `taps_u.f32[k]` -/
def loadF32 (m : ℕ → UInt8) (k : ℕ) : Binary32 :=
  .ofBits (Endian.word (m (4 * k)) (m (4 * k + 1)) (m (4 * k + 2)) (m (4 * k + 3)))

def storeF32 (m : ℕ → UInt8) (k : ℕ) (w : UInt32) : ℕ → UInt8 :=
  Memory.overlay m (4 * k) 4 fun a => (Endian.le32 w).getD (a - 4 * k) 0

/-- `taps_u.i16[k]` -/
def loadI16 (m : ℕ → UInt8) (k : ℕ) : Int16 :=
  ((m (2 * k)).toUInt16 ||| (m (2 * k + 1)).toUInt16 <<< 8).toInt16

def storeI16 (m : ℕ → UInt8) (k : ℕ) (v : Int16) : ℕ → UInt8 :=
  Memory.overlay m (2 * k) 2 fun a =>
    if a = 2 * k then v.toUInt16.toUInt8 else (v.toUInt16 >>> 8).toUInt8

/-- The coefficient word at `k` in the payload of a FIR or IIR stage. -/
def DspStage.word (st : DspStage) (k : ℕ) : UInt32 :=
  let off := dspStageHdrBytes + k * 4
  Endian.word (st.data off) (st.data (off + 1)) (st.data (off + 2)) (st.data (off + 3))

/-- The first loop of the FIR branch. -/
def firUnpack (st : DspStage) (m : ℕ → UInt8) (nt : ℕ) : ℕ → UInt8 :=
  (List.range nt).foldl (fun m k =>
    if (st.data 0).toNat = 1 then storeI16 m k (q31ToQ15 (st.word k))
    else storeF32 m k (st.word k)) m

/-- Its second loop, over the taps in place. -/
def firNarrow (undef : Int16) (g : ℕ) (m : ℕ → UInt8) (nt : ℕ) : ℕ → UInt8 :=
  (List.range nt).foldl (fun m k => storeI16 m k (adcDspF32ToQ15 undef (loadF32 m k) g)) m

/-- The taps of a FIR and its headroom exponent. -/
def firCoeffs (undef : Int16) (scratch : ℕ → UInt8) (st : DspStage) : Option (List Int16 × ℕ) :=
  let nt := (st.data 1).toNat
  let m := firUnpack st scratch nt
  if (st.data 0).toNat = 1 then some ((List.range nt).map (loadI16 m), 0)
  else
    let max := adcDspF32MaxAbs ((List.range nt).map (loadF32 m))
    if max.lt f32Zero then none
    else
      let g := adcDspHeadroomExp max
      some ((List.range nt).map (loadI16 (firNarrow undef g m nt)), g)

/-- `b`, `a` and the headroom exponent of an IIR section. -/
def iirCoeffs (undef : Int16) (st : DspStage) : Option (List Int16 × List Int16 × ℕ) :=
  if (st.data 0).toNat = 1 then
    some ([0, 1, 2].map fun k => q31ToQ15 (st.word k),
      [3, 4].map fun k => adcDspNegQ15 (q31ToQ15 (st.word k)), 0)
  else
    let fv := fun k => Binary32.ofBits (st.word k)
    let max := adcDspF32MaxAbs ((List.range 5).map fv)
    if max.lt f32Zero then none
    else
      let g := adcDspHeadroomExp max
      some ([0, 1, 2].map fun k => adcDspF32ToQ15 undef (fv k) g,
        [3, 4].map fun k => adcDspNegQ15 (adcDspF32ToQ15 undef (fv k) g), g)

/-! ### The configuration -/

/-- What the FAC is left with: the windows of its three buffers, the zeros X0 is primed with, the
coefficient words, and the parameters of the function. -/
structure FacProgram where
  coeffAddr : ℕ
  coeffSize : ℕ
  inputAddr : ℕ
  inputSize : ℕ
  outputAddr : ℕ
  outputSize : ℕ
  primed : ℕ
  coeffB : List Int16
  coeffA : List Int16
  iir : Bool
  ipp : ℕ
  ipq : ℕ
  ipr : ℕ
deriving DecidableEq

/-- The zeros `adc_dsp_fac_preload` primes X0 with, if the load latches. -/
def adcDspFacPreload (latched : Bool) (x0Zeros : ℕ) : Option ℕ :=
  let n := if x0Zeros = 0 then 1 else x0Zeros
  if n > dspMaxFirTaps then none else if latched then some n else none

/-- `depth` -/
def facDepth : ℕ := 32

/-- The FIR branch of `adc_dsp_fac_config`. -/
def facConfigFir (undef : Int16) (scratch : ℕ → UInt8) (latched : Bool) (st : DspStage) :
    Option FacProgram :=
  let nt := (st.data 1).toNat
  if nt = 0 ∨ nt > dspMaxFirTaps then none
  else if st.totalSize ≠ dspStageHdrBytes + nt * 4 then none
  else
    match firCoeffs undef scratch st with
    | none => none
    | some (taps, g) =>
      (adcDspFacPreload latched (nt - 1)).map fun zeros =>
        ⟨0, nt, nt, (nt + facDepth) % 2 ^ 8, (nt + nt + facDepth) % 2 ^ 8, facDepth, zeros, taps,
          [], false, nt, 0, g⟩

/-- The IIR branch. -/
def facConfigIir (undef : Int16) (latched : Bool) (st : DspStage) : Option FacProgram :=
  match iirCoeffs undef st with
  | none => none
  | some (b, a, g) =>
    (adcDspFacPreload latched 2).map fun zeros =>
      ⟨0, 5, 5, (3 + facDepth) % 2 ^ 8, (5 + 3 + facDepth) % 2 ^ 8, facDepth, zeros, b, a, true,
        3, 2, g⟩

/-- `adc_dsp_fac_config`, `none` where it returns false. -/
def adcDspFacConfig (undef : Int16) (scratch : ℕ → UInt8) (latched : Bool)
    (stages : ℕ → DspStage) : Option FacProgram :=
  if ¬ adcDspChainP1Capable stages then none
  else
    match (List.range dspMaxStages).find? fun i => (stages i).Populated with
    | none => none
    | some i =>
      match (stages i).kind with
      | 0 => facConfigFir undef scratch latched (stages i)
      | 1 => facConfigIir undef latched (stages i)
      | _ => none

/-! ### The largest magnitude and the headroom -/

lemma f32Zero_rank : f32Zero.rank = some 0 := by decide
lemma f32One_rank : f32One.rank = some (2 ^ 149) := by decide
lemma f32MinusOne_rank : f32MinusOne.rank = some (-2 ^ 149) := by decide
lemma adcDspFacCoeffMax_rank : adcDspFacCoeffMax.rank = some (2 ^ 156) := by decide

lemma maxAbsStep_rank {max v : Binary32} {m x : ℤ} (hm : max.rank = some m)
    (hv : v.rank = some x) :
    (maxAbsStep max v).rank = some (if m < |x| then |x| else m) := by
  have habs : (if v.lt f32Zero then v.neg else v).rank = some |x| := by
    rw [Binary32.lt_eq hv f32Zero_rank]
    by_cases hx : x < 0
    · rw [if_pos (decide_eq_true hx), Binary32.rank_neg hv, abs_of_neg hx]
    · rw [if_neg (by simp [hx]), hv, abs_of_nonneg (not_lt.mp hx)]
  simp only [maxAbsStep]
  rw [Binary32.lt_eq hm habs]
  by_cases hlt : m < |x|
  · rw [if_pos (decide_eq_true hlt), if_pos hlt, habs]
  · rw [if_neg (by simp [hlt]), if_neg hlt, hm]

/-- The running maximum over data that are numbers. -/
lemma foldl_maxAbsStep {vs : List Binary32} (hnum : ∀ v ∈ vs, v ≠ .nan) {max : Binary32} {m : ℤ}
    (hm : max.rank = some m) :
    ∃ M, (vs.foldl maxAbsStep max).rank = some M ∧ m ≤ M ∧
      (∀ v ∈ vs, ∀ x, v.rank = some x → |x| ≤ M) ∧
      (M = m ∨ ∃ v ∈ vs, ∃ x, v.rank = some x ∧ |x| = M) := by
  induction vs generalizing max m with
  | nil => exact ⟨m, hm, le_rfl, fun v hv => absurd hv List.not_mem_nil, .inl rfl⟩
  | cons v vs ih =>
    obtain ⟨x, hx⟩ := Binary32.exists_rank (hnum v List.mem_cons_self)
    obtain ⟨M, hM, hle, hall, hsome⟩ :=
      ih (fun w hw => hnum w (List.mem_cons_of_mem v hw)) (maxAbsStep_rank hm hx)
    have hboth : m ≤ M ∧ |x| ≤ M := by
      split_ifs at hle with hlt
      · exact ⟨hlt.le.trans hle, hle⟩
      · exact ⟨hle, (not_lt.mp hlt).trans hle⟩
    refine ⟨M, hM, hboth.1, ?_, ?_⟩
    · intro w hw y hy
      rcases List.mem_cons.mp hw with rfl | hw
      · rw [hx] at hy
        cases hy
        exact hboth.2
      · exact hall w hw y hy
    · rcases hsome with hsame | ⟨w, hw, y, hy, hyM⟩
      · split_ifs at hsame with hlt
        · exact .inr ⟨v, List.mem_cons_self, x, hx, hsame.symm⟩
        · exact .inl hsame
      · exact .inr ⟨w, List.mem_cons_of_mem v hw, y, hy, hyM⟩

/-- The exponent is the smallest from `g` on that a value within the last one fits. -/
lemma headroomFrom_spec {max : Binary32} {M : ℤ} (hM : max.rank = some M) {n g : ℕ}
    (hend : g + n < 128) (hfit : M ≤ 2 ^ (149 + (g + n))) :
    headroomFrom max g n ≤ g + n ∧ M ≤ 2 ^ (149 + headroomFrom max g n) ∧
      (headroomFrom max g n = g ∨ 2 ^ (149 + (headroomFrom max g n - 1)) < M) := by
  induction n generalizing g with
  | zero => exact ⟨le_rfl, hfit, .inl rfl⟩
  | succ n ih =>
    have hlt : (Binary32.twoPow g).lt max = decide (2 ^ (149 + g) < M) :=
      Binary32.lt_eq (Binary32.rank_twoPow (by omega)) hM
    by_cases hg : 2 ^ (149 + g) < M
    · have hnext : headroomFrom max g (n + 1) = headroomFrom max (g + 1) n := by
        rw [headroomFrom, hlt, if_pos (decide_eq_true hg)]
      obtain ⟨hle, hfits, hmin⟩ := ih (g := g + 1) (by omega) (by rwa [Nat.add_right_comm])
      rw [hnext]
      refine ⟨by omega, hfits, .inr ?_⟩
      rcases hmin with hsame | hless
      · rwa [hsame, Nat.add_sub_cancel]
      · exact hless
    · have hstop : headroomFrom max g (n + 1) = g := by
        rw [headroomFrom, hlt, if_neg (by simp [hg])]
      rw [hstop]
      exact ⟨by omega, not_lt.mp hg, .inl rfl⟩

/-- A datum the FAC can reach: finite and below 128. -/
def InFacRange (v : Binary32) : Prop := ∃ u h, v = .fin u h ∧ |u| < 2 ^ 156

/-- A section of coefficients is refused if one of them is out of reach, and otherwise its exponent
is the smallest they all fit. -/
lemma section_spec {vs : List Binary32} (hnum : ∀ v ∈ vs, v ≠ .nan) :
    ((adcDspF32MaxAbs vs).lt f32Zero = true → ¬ ∀ v ∈ vs, InFacRange v) ∧
      ((adcDspF32MaxAbs vs).lt f32Zero = false →
        (∀ v ∈ vs, InFacRange v) ∧ adcDspHeadroomExp (adcDspF32MaxAbs vs) ≤ 7 ∧
        (∀ v ∈ vs, ∀ x, v.rank = some x →
          |x| ≤ 2 ^ (149 + adcDspHeadroomExp (adcDspF32MaxAbs vs))) ∧
        (adcDspHeadroomExp (adcDspF32MaxAbs vs) = 0 ∨ ∃ v ∈ vs, ∃ x, v.rank = some x ∧
          2 ^ (149 + (adcDspHeadroomExp (adcDspF32MaxAbs vs) - 1)) < |x|)) := by
  obtain ⟨M, hM, hpos, hall, hsome⟩ := foldl_maxAbsStep hnum f32Zero_rank
  by_cases hbig : 2 ^ 156 ≤ M
  · have hmax : adcDspF32MaxAbs vs = f32MinusOne := by
      simp only [adcDspF32MaxAbs]
      rw [Binary32.le_eq adcDspFacCoeffMax_rank hM, if_pos (decide_eq_true hbig)]
    have hneg : f32MinusOne.lt f32Zero = true := by decide
    rw [hmax, hneg]
    refine ⟨fun _ hreach => ?_, fun hf => absurd hf Bool.noConfusion⟩
    rcases hsome with rfl | ⟨v, hv, x, hx, hxM⟩
    · norm_num at hbig
    · obtain ⟨u, h, rfl, hu⟩ := hreach v hv
      cases hx
      omega
  · have hmax : adcDspF32MaxAbs vs = vs.foldl maxAbsStep f32Zero := by
      simp only [adcDspF32MaxAbs]
      rw [Binary32.le_eq adcDspFacCoeffMax_rank hM, if_neg]
      rwa [decide_eq_true_eq]
    rw [← hmax] at hM
    have hnonneg : (adcDspF32MaxAbs vs).lt f32Zero = false := by
      rw [Binary32.lt_eq hM f32Zero_rank]
      exact decide_eq_false (not_lt.mpr hpos)
    obtain ⟨hle, hfits, hmin⟩ :=
      headroomFrom_spec hM (n := 7) (g := 0) (by norm_num) (not_le.mp hbig).le
    rw [hnonneg]
    refine ⟨fun hf => absurd hf Bool.noConfusion, fun _ => ⟨?_, hle, ?_, ?_⟩⟩
    · intro v hv
      obtain ⟨x, hx⟩ := Binary32.exists_rank (hnum v hv)
      have hlt : |x| < 2 ^ 156 := (hall v hv x hx).trans_lt (not_le.mp hbig)
      obtain ⟨h, rfl⟩ := Binary32.eq_fin_of_rank hx (hlt.trans (by decide))
      exact ⟨x, h, rfl, hlt⟩
    · intro v hv x hx
      exact (hall v hv x hx).trans hfits
    · rcases hmin with hzero | hless
      · exact .inl hzero
      · rcases hsome with rfl | ⟨v, hv, x, hx, hxM⟩
        · exact absurd hless (not_lt.mpr (by positivity))
        · exact .inr ⟨v, hv, x, hx, hxM ▸ hless⟩

/-! ### The taps in their buffer -/

lemma half_bytes (v : UInt16) : v.toUInt8.toUInt16 ||| (v >>> 8).toUInt8.toUInt16 <<< 8 = v := by
  apply UInt16.toBitVec_inj.mp
  refine BitVec.eq_of_getLsbD_eq fun i hi => ?_
  simp only [UInt16.toBitVec_or, UInt16.toBitVec_shiftLeft, UInt8.toBitVec_toUInt16,
    UInt16.toBitVec_toUInt8, UInt16.toBitVec_shiftRight]
  interval_cases i <;> simp

lemma loadI16_storeI16 (m : ℕ → UInt8) (k : ℕ) (v : Int16) : loadI16 (storeI16 m k v) k = v := by
  have hlow : storeI16 m k v (2 * k) = v.toUInt16.toUInt8 := by
    rw [storeI16, Memory.overlay_of_mem ⟨le_rfl, by omega⟩, if_pos rfl]
  have hhigh : storeI16 m k v (2 * k + 1) = (v.toUInt16 >>> 8).toUInt8 := by
    rw [storeI16, Memory.overlay_of_mem ⟨by omega, by omega⟩, if_neg (by omega)]
  rw [loadI16, hlow, hhigh, half_bytes]
  rfl

lemma loadF32_storeF32 (m : ℕ → UInt8) (k : ℕ) (w : UInt32) :
    loadF32 (storeF32 m k w) k = .ofBits w := by
  have hat (i : ℕ) (hi : i < 4) : storeF32 m k w (4 * k + i) = (Endian.le32 w).getD i 0 := by
    rw [storeF32, Memory.overlay_of_mem ⟨by omega, by omega⟩, Nat.add_sub_cancel_left]
  have h₀ := hat 0 (by norm_num)
  rw [Nat.add_zero] at h₀
  rw [loadF32, h₀, hat 1 (by norm_num), hat 2 (by norm_num), hat 3 (by norm_num)]
  congr 1
  exact Endian.word_le32 w

/-- A narrow store leaves the other halves alone. -/
lemma loadI16_storeI16_of_ne {m : ℕ → UInt8} {j k : ℕ} (h : j ≠ k) (v : Int16) :
    loadI16 (storeI16 m k v) j = loadI16 m j := by
  have hat (a : ℕ) (ha : a = 2 * j ∨ a = 2 * j + 1) : storeI16 m k v a = m a :=
    Memory.overlay_of_not_mem fun hmem => by
      obtain ⟨h₁, h₂⟩ := hmem
      omega
  rw [loadI16, hat _ (.inl rfl), hat _ (.inr rfl), loadI16]

/-- It leaves the words after it alone too, for it is behind them. -/
lemma loadF32_storeI16_of_lt {m : ℕ → UInt8} {j k : ℕ} (h : k < j) (v : Int16) :
    loadF32 (storeI16 m k v) j = loadF32 m j := by
  have hat (a : ℕ) (ha : 4 * j ≤ a) : storeI16 m k v a = m a :=
    Memory.overlay_of_not_mem fun hmem => by
      obtain ⟨h₁, h₂⟩ := hmem
      omega
  rw [loadF32, hat _ le_rfl, hat _ (by omega), hat _ (by omega), hat _ (by omega), loadF32]

lemma loadF32_storeF32_of_ne {m : ℕ → UInt8} {j k : ℕ} (h : j ≠ k) (w : UInt32) :
    loadF32 (storeF32 m k w) j = loadF32 m j := by
  have hat (a : ℕ) (ha : 4 * j ≤ a ∧ a < 4 * j + 4) : storeF32 m k w a = m a :=
    Memory.overlay_of_not_mem fun hmem => by
      obtain ⟨h₁, h₂⟩ := hmem
      omega
  rw [loadF32, hat _ ⟨le_rfl, by omega⟩, hat _ ⟨by omega, by omega⟩, hat _ ⟨by omega, by omega⟩,
    hat _ ⟨by omega, by omega⟩, loadF32]

variable {undef : Int16} {scratch : ℕ → UInt8} {st : DspStage} {g : ℕ}

/-- A loop over cells that are apart stores every cell up to where it is. -/
lemma load_foldl_store {β : Type} {load : (ℕ → UInt8) → ℕ → β}
    {store : (ℕ → UInt8) → ℕ → ℕ → UInt8} {value : ℕ → β}
    (hsame : ∀ m k, load (store m k) k = value k)
    (hother : ∀ m j k, j ≠ k → load (store m k) j = load m j) (m : ℕ → UInt8) (n : ℕ) :
    ∀ k < n, load ((List.range n).foldl store m) k = value k := by
  induction n with
  | zero => exact fun k hk => absurd hk (Nat.not_lt_zero k)
  | succ n ih =>
    intro k hk
    simp only [List.range_succ, List.foldl_append, List.foldl_cons, List.foldl_nil]
    rcases Nat.lt_succ_iff_lt_or_eq.mp hk with hlt | rfl
    · rw [hother _ _ _ (by omega)]
      exact ih k hlt
    · exact hsame _ _

lemma firUnpack_q31 (hfmt : (st.data 0).toNat = 1) (n : ℕ) :
    ∀ k < n, loadI16 (firUnpack st scratch n) k = q31ToQ15 (st.word k) := by
  have hsame (m : ℕ → UInt8) (k : ℕ) :
      loadI16 (storeI16 m k (q31ToQ15 (st.word k))) k = q31ToQ15 (st.word k) :=
    loadI16_storeI16 m k _
  have hstored := load_foldl_store hsame (fun _ _ _ hne => loadI16_storeI16_of_ne hne _) scratch n
  simpa only [firUnpack, if_pos hfmt] using hstored

lemma firUnpack_f32 (hfmt : (st.data 0).toNat ≠ 1) (n : ℕ) :
    ∀ k < n, loadF32 (firUnpack st scratch n) k = .ofBits (st.word k) := by
  have hsame (m : ℕ → UInt8) (k : ℕ) :
      loadF32 (storeF32 m k (st.word k)) k = .ofBits (st.word k) :=
    loadF32_storeF32 m k _
  have hstored := load_foldl_store hsame (fun _ _ _ hne => loadF32_storeF32_of_ne hne _) scratch n
  simpa only [firUnpack, if_neg hfmt] using hstored

/-- Narrowing in place: the taps done are narrowed, and the writes have not caught up with the taps
to come. -/
lemma firNarrow_spec (m : ℕ → UInt8) (n : ℕ) :
    (∀ k < n, loadI16 (firNarrow undef g m n) k = adcDspF32ToQ15 undef (loadF32 m k) g) ∧
      ∀ k, n ≤ k → loadF32 (firNarrow undef g m n) k = loadF32 m k := by
  induction n with
  | zero => exact ⟨fun k hk => absurd hk (Nat.not_lt_zero k), fun _ _ => rfl⟩
  | succ n ih =>
    obtain ⟨hdone, hleft⟩ := ih
    have hstep : firNarrow undef g m (n + 1) =
        storeI16 (firNarrow undef g m n) n (adcDspF32ToQ15 undef (loadF32 m n) g) := by
      rw [← hleft n le_rfl]
      simp only [firNarrow, List.range_succ, List.foldl_append, List.foldl_cons, List.foldl_nil]
    rw [hstep]
    refine ⟨fun k hk => ?_, fun k hk => ?_⟩
    · rcases Nat.lt_succ_iff_lt_or_eq.mp hk with hlt | rfl
      · rw [loadI16_storeI16_of_ne (by omega)]
        exact hdone k hlt
      · exact loadI16_storeI16 _ _ _
    · rw [loadF32_storeI16_of_lt hk]
      exact hleft k (by omega)

/-- The words for the FAC are the narrowed Q31 taps. -/
lemma firCoeffs_q31 (hfmt : (st.data 0).toNat = 1) :
    firCoeffs undef scratch st =
      some ((List.range (st.data 1).toNat).map fun k => q31ToQ15 (st.word k), 0) := by
  have htaps : (List.range (st.data 1).toNat).map (loadI16 (firUnpack st scratch (st.data 1).toNat))
      = (List.range (st.data 1).toNat).map fun k => q31ToQ15 (st.word k) :=
    List.map_congr_left fun k hk => firUnpack_q31 hfmt _ k (List.mem_range.mp hk)
  simp only [firCoeffs, if_pos hfmt, htaps]

/-- The words for the FAC are the converted F32 taps, as if they had a buffer of their own. -/
lemma firCoeffs_f32 (undef : Int16) (scratch : ℕ → UInt8) (hfmt : (st.data 0).toNat ≠ 1)
    {vs : List Binary32}
    (hvs : vs = (List.range (st.data 1).toNat).map fun k => .ofBits (st.word k)) :
    firCoeffs undef scratch st =
      if (adcDspF32MaxAbs vs).lt f32Zero then none
      else some (vs.map fun v => adcDspF32ToQ15 undef v (adcDspHeadroomExp (adcDspF32MaxAbs vs)),
        adcDspHeadroomExp (adcDspF32MaxAbs vs)) := by
  have hwords : (List.range (st.data 1).toNat).map (loadF32 (firUnpack st scratch (st.data 1).toNat))
      = vs := by
    rw [hvs]
    exact List.map_congr_left fun k hk => firUnpack_f32 hfmt _ k (List.mem_range.mp hk)
  have htaps (g : ℕ) : (List.range (st.data 1).toNat).map
      (loadI16 (firNarrow undef g (firUnpack st scratch (st.data 1).toNat) (st.data 1).toNat)) =
      vs.map fun v => adcDspF32ToQ15 undef v g := by
    rw [← hwords, List.map_map]
    exact List.map_congr_left fun k hk => (firNarrow_spec _ _).1 k (List.mem_range.mp hk)
  simp only [firCoeffs, if_neg hfmt, hwords, htaps]

end Gd32Bridge
