import Gd32Bridge.Adc.Coefficient
import Gd32Bridge.Adc.Pool
import Gd32Bridge.Lib.Recurrence

/-!
# The filter that is realised

A chain that is bound as a filter describes a difference equation, `y = b * x - a * y` on the wire.
The FAC adds its feedback term and multiplies its sum by a power of two.  What
`adc_dsp_fac_config` programs is the equation of the wire up to the resolution of its words, or it
refuses because some coefficient is out of the range the FAC can reach.
-/

namespace Gd32Bridge

open Transition

variable {undef : Int16} {scratch : ℕ → UInt8} {st : DspStage} {g : ℕ}

/-! ### The two equations -/

/-- The coefficient at `k` of a payload. -/
def DspStage.coeff (st : DspStage) (k : ℕ) : ℚ :=
  if (st.data 0).toNat = 1 then (st.word k).toInt32.toInt / 2 ^ 31
  else (Binary32.ofBits (st.word k)).value

/-- How many there are. -/
def DspStage.coeffCount (st : DspStage) : ℕ := if st.kind = 0 then (st.data 1).toNat else 5

/-- The filter a payload describes. -/
def DspStage.filter (st : DspStage) : Recurrence ℚ :=
  if st.kind = 0 then ⟨(List.range st.coeffCount).map st.coeff, []⟩
  else ⟨[0, 1, 2].map st.coeff, [3, 4].map fun k => -st.coeff k⟩

/-- The filter a FAC computes that is programmed so, before it clips the sum to a word. -/
def FacProgram.filter (p : FacProgram) : Recurrence ℚ :=
  ⟨p.coeffB.map fun w => 2 ^ p.ipr * (w.toInt / 2 ^ 15),
    p.coeffA.map fun w => 2 ^ p.ipr * (w.toInt / 2 ^ 15)⟩

/-- No coefficient is a NaN. -/
def DspStage.Numeric (st : DspStage) : Prop :=
  (st.data 0).toNat = 1 ∨ ∀ k < st.coeffCount, Binary32.ofBits (st.word k) ≠ .nan

/-- Every coefficient is finite and below 128. -/
def DspStage.InRange (st : DspStage) : Prop :=
  (st.data 0).toNat = 1 ∨ ∀ k < st.coeffCount, InFacRange (.ofBits (st.word k))

/-! ### One word -/

/-- With headroom `g` the word stands for the coefficient, two units off at most; the smallest word
is one unit off at most. -/
def Renders (g : ℕ) (w : Int16) (c : ℚ) : Prop :=
  |2 ^ g * (w.toInt / 2 ^ 15) - c| ≤ 2 ^ g / 2 ^ 14 ∧
    (w = Int16.minValue → |2 ^ g * (w.toInt / 2 ^ 15) - c| ≤ 2 ^ g / 2 ^ 15)

lemma Renders.of_unit {w : Int16} {c : ℚ}
    (h : |2 ^ g * (w.toInt / 2 ^ 15) - c| ≤ 2 ^ g / 2 ^ 15) : Renders g w c := by
  refine ⟨h.trans ?_, fun _ => h⟩
  have hpos : (0 : ℚ) < 2 ^ g := by positivity
  linarith [hpos]

/-- A negated word stands for the negated coefficient. -/
lemma Renders.neg {w : Int16} {c : ℚ} (h : Renders g w c) :
    |2 ^ g * ((adcDspNegQ15 w).toInt / 2 ^ 15) - -c| ≤ 2 ^ g / 2 ^ 14 := by
  by_cases hw : w = Int16.minValue
  · -- one unit more, for the largest word is one unit short of the opposite of the smallest
    have hunit := h.2 hw
    subst hw
    have hval : ((adcDspNegQ15 Int16.minValue).toInt : ℚ) = 2 ^ 15 - 1 := by
      rw [adcDspNegQ15, if_pos rfl, Int16.toInt_maxValue]
      norm_num
    rw [Int16.toInt_minValue] at hunit
    rw [hval]
    push_cast at hunit
    rw [abs_le] at hunit ⊢
    constructor <;> linarith [hunit.1, hunit.2]
  · have hval : (adcDspNegQ15 w).toInt = -w.toInt := by
      have hne : w.toInt ≠ -2 ^ 15 := by
        intro he
        exact hw (Int16.toInt_inj.mp (he.trans Int16.toInt_minValue.symm))
      have hlow := w.le_toInt
      have hhigh := w.toInt_lt
      rw [adcDspNegQ15, if_neg hw, Int16.toInt_neg]
      exact Int.bmod_eq_of_le (by omega) (by omega)
    rw [hval, ← abs_neg]
    push_cast
    have hsame : -(2 ^ g * (-(w.toInt : ℚ) / 2 ^ 15) - -c) = 2 ^ g * (w.toInt / 2 ^ 15) - c := by
      ring
    rw [hsame]
    exact h.1

lemma renders_q31 (w : UInt32) : Renders 0 (q31ToQ15 w) (w.toInt32.toInt / 2 ^ 31) := by
  obtain ⟨q, hq⟩ : ∃ q, w.toInt32.toInt = q := ⟨_, rfl⟩
  have hlow : -2 ^ 31 ≤ q := hq ▸ w.toInt32.le_toInt
  have hhigh : q < 2 ^ 31 := hq ▸ w.toInt32.toInt_lt
  have hval : (q31ToQ15 w).toInt = q / 2 ^ 16 := by
    rw [q31ToQ15, hq, Int.shiftRight_eq_div_pow]
    exact Int16.toInt_ofInt_of_le (by omega) (by omega)
  have hdiv : q / 2 ^ 16 * 2 ^ 16 ≤ q ∧ q < q / 2 ^ 16 * 2 ^ 16 + 2 ^ 16 := by omega
  have hdiv₁ : ((q / 2 ^ 16 : ℤ) : ℚ) * 2 ^ 16 ≤ q := by exact_mod_cast hdiv.1
  have hdiv₂ : (q : ℚ) < ((q / 2 ^ 16 : ℤ) : ℚ) * 2 ^ 16 + 2 ^ 16 := by exact_mod_cast hdiv.2
  apply Renders.of_unit
  rw [hq, hval, abs_le]
  constructor <;> linarith

/-- The distance of a word to a coefficient, in whole units. -/
lemma renders_of_units {w : Int16} {u n : ℤ}
    (h : |w.toInt * 2 ^ (149 + g) - u * 2 ^ 15| ≤ n * 2 ^ (149 + g)) :
    |2 ^ g * (w.toInt / 2 ^ 15) - (u : ℚ) / 2 ^ 149| ≤ (n : ℚ) * (2 ^ g / 2 ^ 15) := by
  have hq : |(w.toInt : ℚ) * 2 ^ (149 + g) - u * 2 ^ 15| ≤ (n : ℚ) * 2 ^ (149 + g) := by
    exact_mod_cast h
  have hscale : (2 : ℚ) ^ g * (w.toInt / 2 ^ 15) - (u : ℚ) / 2 ^ 149 =
      ((w.toInt : ℚ) * 2 ^ (149 + g) - u * 2 ^ 15) / 2 ^ 164 := by
    rw [pow_add]
    ring
  rw [hscale, abs_div, abs_of_pos (by positivity : (0 : ℚ) < 2 ^ 164), div_le_iff₀ (by positivity)]
  calc |(w.toInt : ℚ) * 2 ^ (149 + g) - u * 2 ^ 15| ≤ (n : ℚ) * 2 ^ (149 + g) := hq
    _ = (n : ℚ) * (2 ^ g / 2 ^ 15) * 2 ^ 164 := by
      rw [pow_add]
      ring

/-- At the end of the headroom nothing has been rounded. -/
lemma eq_end_of_roundDiv {u : ℤ} (h : Binary32.Fits u) (hu : |u| ≤ 2 ^ (149 + g))
    (hv : 2 ^ 149 ≤ |Binary32.roundDiv u g|) :
    u = Binary32.roundDiv u g * 2 ^ g ∧ |Binary32.roundDiv u g| = 2 ^ 149 := by
  have hexact : u % 2 ^ g = 0 := by
    by_contra hne
    have hle := Binary32.natAbs_roundDiv_le (h.small_of_inexact hne)
    rw [Int.abs_eq_natAbs] at hv
    have hbig : (2 : ℤ) ^ 149 ≤ 2 ^ 23 := hv.trans (by exact_mod_cast hle)
    norm_num at hbig
  have hmul := Binary32.roundDiv_of_dvd hexact
  refine ⟨hmul.symm, le_antisymm ?_ hv⟩
  rw [← hmul, abs_mul, abs_of_pos (by positivity : (0 : ℤ) < 2 ^ g), pow_add] at hu
  exact le_of_mul_le_mul_right hu (by positivity)

/-- Inside, the quotient is truncated and the rounding does not show. -/
lemma f32ToQ15_inside {u : ℤ} (h : Binary32.Fits u) (hin : |Binary32.roundDiv u g| < 2 ^ 149) :
    (adcDspF32ToQ15 undef (.fin u h) g).toInt = (u * 2 ^ 15).tdiv (2 ^ (149 + g)) := by
  have hrank : ((Binary32.fin u h).divTwoPow g).rank = some (Binary32.roundDiv u g) := rfl
  have htrunc : (Binary32.roundDiv u g * 2 ^ 15).tdiv (2 ^ 149) =
      (u * 2 ^ 15).tdiv (2 ^ (149 + g)) := h.tdiv_roundDiv (by norm_num)
  obtain ⟨v, hv⟩ : ∃ v, Binary32.roundDiv u g = v := ⟨_, rfl⟩
  rw [hv] at hin hrank htrunc
  obtain ⟨hfits, hfin⟩ := Binary32.eq_fin_of_rank hrank (hin.trans (by decide))
  obtain ⟨hlow, hhigh⟩ := abs_lt.mp hin
  obtain ⟨z, hz⟩ : ∃ z, (v * 2 ^ 15).tdiv (2 ^ 149) = z := ⟨_, rfl⟩
  have hscaled : v.natAbs * 2 ^ 15 < 2 ^ 15 * 2 ^ 149 := by
    rw [mul_comm]
    exact Nat.mul_lt_mul_of_pos_left (by omega) (by positivity)
  have hsmall : z.natAbs < 2 ^ 15 := by
    rw [← hz, Int.natAbs_tdiv, Int.natAbs_mul, Binary32.natAbs_twoPow, Binary32.natAbs_twoPow]
    exact Nat.div_lt_of_lt_mul (by rwa [mul_comm (2 ^ 149)])
  have hword : adcDspF32ToQ15 undef (.fin u h) g = .ofInt z := by
    have hone : f32One.le ((Binary32.fin u h).divTwoPow g) = false := by
      rw [Binary32.le_eq f32One_rank hrank]
      exact decide_eq_false (by omega)
    have hminus : ((Binary32.fin u h).divTwoPow g).le f32MinusOne = false := by
      rw [Binary32.le_eq hrank f32MinusOne_rank]
      exact decide_eq_false (by omega)
    have hbound : v.natAbs * 2 ^ 15 < Binary32.bound := hscaled.trans (by decide)
    simp only [adcDspF32ToQ15, hone, Bool.false_eq_true, if_false, hminus]
    rw [hfin, Binary32.mulTwoPow, dif_pos hbound, castInt16, Binary32.trunc, hz]
    exact if_pos (by omega)
  rw [hword, ← htrunc, hz]
  exact Int16.toInt_ofInt_of_le (by omega) (by omega)

/-- From one on it is clipped to the largest word but one. -/
lemma f32ToQ15_top {u : ℤ} (h : Binary32.Fits u) (hone : 2 ^ 149 ≤ Binary32.roundDiv u g) :
    adcDspF32ToQ15 undef (.fin u h) g = 32766 := by
  have hclip : f32One.le ((Binary32.fin u h).divTwoPow g) = true := by
    rw [Binary32.le_eq (y := Binary32.roundDiv u g) f32One_rank rfl]
    exact decide_eq_true hone
  have hkeep : f32BelowOne.le f32MinusOne = false := by decide
  simp only [adcDspF32ToQ15, hclip, if_true, hkeep, Bool.false_eq_true, if_false]
  rfl

/-- From minus one on, to the smallest. -/
lemma f32ToQ15_bottom {u : ℤ} (h : Binary32.Fits u) (hminus : Binary32.roundDiv u g ≤ -2 ^ 149) :
    adcDspF32ToQ15 undef (.fin u h) g = Int16.minValue := by
  have hkeep : f32One.le ((Binary32.fin u h).divTwoPow g) = false := by
    rw [Binary32.le_eq (y := Binary32.roundDiv u g) f32One_rank rfl]
    exact decide_eq_false (by omega)
  have hclip : ((Binary32.fin u h).divTwoPow g).le f32MinusOne = true := by
    rw [Binary32.le_eq (x := Binary32.roundDiv u g) rfl f32MinusOne_rank]
    exact decide_eq_true hminus
  simp only [adcDspF32ToQ15, hkeep, Bool.false_eq_true, if_false, hclip, if_true]
  rfl

/-- A value that fits the headroom is scaled down, clipped at one and truncated. -/
lemma renders_f32 {u : ℤ} (h : Binary32.Fits u) (hu : |u| ≤ 2 ^ (149 + g)) :
    Renders g (adcDspF32ToQ15 undef (.fin u h) g) ((u : ℚ) / 2 ^ 149) := by
  have hpos : (0 : ℤ) < 2 ^ (149 + g) := by positivity
  have hpow : (2 : ℤ) ^ (149 + g) = 2 ^ 149 * 2 ^ g := pow_add 2 149 g
  rcases lt_or_ge |Binary32.roundDiv u g| (2 ^ 149) with hin | hout
  · apply Renders.of_unit
    have hunits := renders_of_units (g := g) (w := adcDspF32ToQ15 undef (.fin u h) g) (u := u)
      (n := 1) ?_
    · rwa [Int.cast_one, one_mul] at hunits
    · -- what truncation leaves is less than a unit
      have hsplit := Int.mul_tdiv_add_tmod (u * 2 ^ 15) (2 ^ (149 + g))
      have hmod₁ := Int.tmod_lt_of_pos (u * 2 ^ 15) hpos
      have hmod₂ := Int.lt_tmod_of_pos (u * 2 ^ 15) hpos
      rw [f32ToQ15_inside h hin, abs_le]
      constructor <;> linarith
  · obtain ⟨hend, habs⟩ := eq_end_of_roundDiv h hu hout
    rcases (abs_eq (by positivity)).mp habs with hone | hminus
    · have hval : (adcDspF32ToQ15 undef (.fin u h) g).toInt = 32766 := by
        rw [f32ToQ15_top h hone.ge]
        rfl
      refine ⟨?_, fun hmin => ?_⟩
      · have hunits := renders_of_units (g := g) (w := adcDspF32ToQ15 undef (.fin u h) g) (u := u)
          (n := 2) ?_
        · refine hunits.trans (le_of_eq ?_)
          push_cast
          ring
        · rw [hval, hend, hone, hpow, abs_le]
          constructor <;> linarith
      · rw [hmin] at hval
        cases hval
    · apply Renders.of_unit
      have hunits := renders_of_units (g := g) (w := adcDspF32ToQ15 undef (.fin u h) g) (u := u)
        (n := 1) ?_
      · rwa [Int.cast_one, one_mul] at hunits
      · rw [f32ToQ15_bottom h hminus.le, Int16.toInt_minValue, hend, hminus, hpow, abs_le]
        constructor <;> linarith

/-! ### A section -/

/-- The words of a section with headroom `g`: the least that all coefficients fit. -/
structure DspStage.Decoded (st : DspStage) (conv : ℕ → Int16) (g : ℕ) : Prop where
  headroom : g ≤ 7
  least : g = 0 ∨ ∃ k < st.coeffCount, 2 ^ (g - 1) < |st.coeff k|
  renders : ∀ k < st.coeffCount, Renders g (conv k) (st.coeff k)

lemma DspStage.Decoded.of_q31 (hfmt : (st.data 0).toNat = 1) :
    st.Decoded (fun k => q31ToQ15 (st.word k)) 0 := by
  refine ⟨Nat.zero_le _, .inl rfl, fun k _ => ?_⟩
  rw [DspStage.coeff, if_pos hfmt]
  exact renders_q31 _

lemma DspStage.decoded_f32 (undef : Int16) (hfmt : (st.data 0).toNat ≠ 1) (hnum : st.Numeric)
    {vs : List Binary32}
    (hvs : vs = (List.range st.coeffCount).map fun k => .ofBits (st.word k)) :
    ((adcDspF32MaxAbs vs).lt f32Zero = true → ¬ st.InRange) ∧
      ((adcDspF32MaxAbs vs).lt f32Zero = false → st.InRange ∧
        st.Decoded (fun k => adcDspF32ToQ15 undef (.ofBits (st.word k))
          (adcDspHeadroomExp (adcDspF32MaxAbs vs))) (adcDspHeadroomExp (adcDspF32MaxAbs vs))) := by
  have hmem (k : ℕ) (hk : k < st.coeffCount) : Binary32.ofBits (st.word k) ∈ vs := by
    rw [hvs]
    exact List.mem_map.mpr ⟨k, List.mem_range.mpr hk, rfl⟩
  have hindex (v : Binary32) (hv : v ∈ vs) : ∃ k < st.coeffCount, .ofBits (st.word k) = v := by
    rw [hvs] at hv
    obtain ⟨k, hk, rfl⟩ := List.mem_map.mp hv
    exact ⟨k, List.mem_range.mp hk, rfl⟩
  have hnan : ∀ v ∈ vs, v ≠ .nan := by
    intro v hv
    obtain ⟨k, hk, rfl⟩ := hindex v hv
    exact hnum.resolve_left hfmt k hk
  obtain ⟨hrefuse, haccept⟩ := section_spec hnan
  constructor
  · rintro hneg (hq | hall)
    · exact hfmt hq
    · refine hrefuse hneg fun v hv => ?_
      obtain ⟨k, hk, rfl⟩ := hindex v hv
      exact hall k hk
  · intro hpos
    obtain ⟨hall, hle, hfit, hmin⟩ := haccept hpos
    refine ⟨.inr fun k hk => hall _ (hmem k hk), hle, ?_, fun k hk => ?_⟩
    · refine hmin.imp_right fun ⟨v, hv, x, hx, hlt⟩ => ?_
      obtain ⟨k, hk, rfl⟩ := hindex v hv
      obtain ⟨u, h, heq, -⟩ := hall _ hv
      refine ⟨k, hk, ?_⟩
      rw [heq] at hx
      have hux : u = x := Option.some.inj hx
      subst hux
      have hltq : (2 : ℚ) ^ (149 + (adcDspHeadroomExp (adcDspF32MaxAbs vs) - 1)) < |(u : ℚ)| := by
        exact_mod_cast hlt
      rw [coeff, if_neg hfmt, heq, Binary32.value, abs_div,
        abs_of_pos (by positivity : (0 : ℚ) < 2 ^ 149), lt_div_iff₀ (by positivity), ← pow_add,
        add_comm]
      exact hltq
    · obtain ⟨u, h, heq, -⟩ := hall _ (hmem k hk)
      have hu := hfit _ (hmem k hk) u (by rw [heq]; rfl)
      simp only [coeff, if_neg hfmt]
      rw [heq]
      exact renders_f32 h hu

/-- The taps of a FIR. -/
lemma firCoeffs_decoded (undef : Int16) (scratch : ℕ → UInt8) (hk : st.kind = 0)
    (hnum : st.Numeric) :
    (firCoeffs undef scratch st = none ∧ ¬ st.InRange) ∨ ∃ conv g,
      firCoeffs undef scratch st = some ((List.range st.coeffCount).map conv, g) ∧ st.InRange ∧
        st.Decoded conv g := by
  have hcount : st.coeffCount = (st.data 1).toNat := if_pos hk
  by_cases hfmt : (st.data 0).toNat = 1
  · refine .inr ⟨_, 0, ?_, .inl hfmt, .of_q31 hfmt⟩
    rw [hcount]
    exact firCoeffs_q31 hfmt
  · obtain ⟨vs, hvs⟩ : ∃ vs, vs = (List.range st.coeffCount).map fun k =>
      Binary32.ofBits (st.word k) := ⟨_, rfl⟩
    obtain ⟨hrefuse, haccept⟩ := st.decoded_f32 undef hfmt hnum hvs
    have hcoeffs := firCoeffs_f32 undef scratch hfmt (hcount ▸ hvs)
    cases hneg : (adcDspF32MaxAbs vs).lt f32Zero with
    | true =>
      rw [hneg, if_pos rfl] at hcoeffs
      exact .inl ⟨hcoeffs, hrefuse hneg⟩
    | false =>
      rw [hneg, if_neg Bool.false_ne_true] at hcoeffs
      obtain ⟨hin, hdec⟩ := haccept hneg
      refine .inr ⟨_, _, ?_, hin, hdec⟩
      rw [hcoeffs, hvs, List.map_map]
      rfl

/-- The coefficients of an IIR section. -/
lemma iirCoeffs_decoded (undef : Int16) (hk : st.kind ≠ 0) (hnum : st.Numeric) :
    (iirCoeffs undef st = none ∧ ¬ st.InRange) ∨ ∃ conv g,
      iirCoeffs undef st =
        some ([0, 1, 2].map conv, [3, 4].map fun k => adcDspNegQ15 (conv k), g) ∧ st.InRange ∧
        st.Decoded conv g := by
  have hcount : st.coeffCount = 5 := if_neg hk
  by_cases hfmt : (st.data 0).toNat = 1
  · exact .inr ⟨_, 0, if_pos hfmt, .inl hfmt, .of_q31 hfmt⟩
  · obtain ⟨hrefuse, haccept⟩ := st.decoded_f32 undef hfmt hnum rfl
    rw [hcount] at hrefuse haccept
    simp only [iirCoeffs, if_neg hfmt]
    split_ifs with hneg
    · exact .inl ⟨rfl, hrefuse hneg⟩
    · obtain ⟨hin, hdec⟩ := haccept (Bool.eq_false_iff.mpr hneg)
      exact .inr ⟨_, _, rfl, hin, hdec⟩

/-! ### The programs -/

/-- The windows of the three buffers follow one another in the 256 words of the FAC, the
coefficients fill theirs, and X0 is primed so far that the first sample gives an output. -/
structure FacProgram.Placed (p : FacProgram) : Prop where
  coeff : p.coeffAddr + p.coeffSize ≤ p.inputAddr
  input : p.inputAddr + p.inputSize ≤ p.outputAddr
  output : p.outputAddr + p.outputSize ≤ 256
  size : p.coeffB.length + p.coeffA.length = p.coeffSize
  ipp : p.ipp = p.coeffB.length
  ipq : p.ipq = p.coeffA.length
  primed : p.ipp ≤ p.primed + 1 ∧ p.primed < p.inputSize

/-- The program computes the filter of the payload up to the resolution of its words, with no more
headroom than the coefficients need. -/
structure FacProgram.Realises (p : FacProgram) (st : DspStage) : Prop where
  headroom : p.ipr ≤ 7
  least : p.ipr = 0 ∨ ∃ k < st.coeffCount, 2 ^ (p.ipr - 1) < |st.coeff k|
  near : p.filter.Near (2 ^ p.ipr / 2 ^ 14) st.filter
  placed : p.Placed

lemma adcDspFacPreload_eq (latched : Bool) {n : ℕ} (hn : n ≤ dspMaxFirTaps) :
    adcDspFacPreload latched n = if latched then some (if n = 0 then 1 else n) else none := by
  have hle : ¬ (if n = 0 then 1 else n) > dspMaxFirTaps := by
    rw [dspMaxFirTaps] at hn ⊢
    split_ifs <;> omega
  simp only [adcDspFacPreload, if_neg hle]

/-- Words that stand for the coefficients, list by list. -/
lemma forall₂_renders {conv : ℕ → Int16} {c : ℕ → ℚ} {ks : List ℕ}
    (h : ∀ k ∈ ks, |2 ^ g * ((conv k).toInt / 2 ^ 15) - c k| ≤ 2 ^ g / 2 ^ 14) :
    List.Forall₂ (fun x y => |x - y| ≤ (2 ^ g / 2 ^ 14 : ℚ))
      ((ks.map conv).map fun w => 2 ^ g * ((w.toInt : ℚ) / 2 ^ 15)) (ks.map c) := by
  rw [List.map_map, List.forall₂_map_left_iff, List.forall₂_map_right_iff, List.forall₂_same]
  exact h

variable {latched : Bool}

/-- The FIR branch: refused out of range, and otherwise the FIR of the payload. -/
lemma facConfigFir_spec (hk : st.kind = 0) (hv : st.blobValid = true) (hnum : st.Numeric) :
    (facConfigFir undef scratch latched st = none ↔ latched = false ∨ ¬ st.InRange) ∧
      ∀ p, facConfigFir undef scratch latched st = some p → p.Realises st := by
  have hcount : st.coeffCount = (st.data 1).toNat := if_pos hk
  obtain ⟨n, hn⟩ : ∃ n, (st.data 1).toNat = n := ⟨_, rfl⟩
  obtain ⟨htaps, htotal⟩ : ¬ (n = 0 ∨ n > dspMaxFirTaps) ∧
      st.totalSize = dspStageHdrBytes + n * 4 := by
    simp only [DspStage.blobValid, hk, hn] at hv
    split_ifs at hv with h₁ h₂ h₃
    exact ⟨h₃, beq_iff_eq.mp hv⟩
  have hle : n ≤ dspMaxFirTaps := not_lt.mp (not_or.mp htaps).2
  have hpos : n ≠ 0 := (not_or.mp htaps).1
  have hpre := adcDspFacPreload_eq latched (n := n - 1) (by omega)
  rcases firCoeffs_decoded undef scratch hk hnum with
    ⟨hnone, hout⟩ | ⟨conv, g, hsome, hin, hdec⟩
  · simp only [facConfigFir, hn, if_neg htaps, htotal, ne_eq, not_true_eq_false, if_false, hnone]
    exact ⟨iff_of_true trivial (.inr hout), fun p hp => by cases hp⟩
  · rw [hcount, hn] at hsome
    simp only [facConfigFir, hn, if_neg htaps, htotal, ne_eq, not_true_eq_false, if_false, hsome,
      hpre]
    cases latched with
    | false => exact ⟨iff_of_true rfl (.inl rfl), fun p hp => by cases hp⟩
    | true =>
      simp only [if_true, Option.map_some]
      refine ⟨iff_of_false (by simp) (by simp [hin]), ?_⟩
      rintro p ⟨⟩
      refine ⟨hdec.headroom, hdec.least, ⟨?_, ?_⟩, ?_⟩
      · rw [DspStage.filter, if_pos hk, hcount, hn]
        refine forall₂_renders fun k hk => (hdec.renders k ?_).1
        rw [hcount, hn]
        exact List.mem_range.mp hk
      · rw [DspStage.filter, if_pos hk]
        exact .nil
      · simp only [dspMaxFirTaps] at hle
        constructor <;> simp only [facDepth, List.length_map, List.length_range, List.length_nil]
          <;> (try split_ifs) <;> omega

/-- The IIR branch. -/
lemma facConfigIir_spec (hk : st.kind = 1) (hnum : st.Numeric) :
    (facConfigIir undef latched st = none ↔ latched = false ∨ ¬ st.InRange) ∧
      ∀ p, facConfigIir undef latched st = some p → p.Realises st := by
  have hk₀ : st.kind ≠ 0 := by omega
  have hcount : st.coeffCount = 5 := if_neg hk₀
  have hpre := adcDspFacPreload_eq latched (n := 2) (by decide)
  rcases iirCoeffs_decoded undef hk₀ hnum with
    ⟨hnone, hout⟩ | ⟨conv, g, hsome, hin, hdec⟩
  · simp only [facConfigIir, hnone]
    exact ⟨iff_of_true trivial (.inr hout), fun p hp => by cases hp⟩
  · simp only [facConfigIir, hsome, hpre]
    cases latched with
    | false => exact ⟨iff_of_true rfl (.inl rfl), fun p hp => by cases hp⟩
    | true =>
      simp only [if_true, Option.map_some]
      refine ⟨iff_of_false (by simp) (by simp [hin]), ?_⟩
      rintro p ⟨⟩
      have hlt (ks : List ℕ) (hks : ∀ k ∈ ks, k < 5) (k : ℕ) (hk : k ∈ ks) :
          Renders g (conv k) (st.coeff k) := hdec.renders k (hcount ▸ hks k hk)
      refine ⟨hdec.headroom, hdec.least, ⟨?_, ?_⟩, ?_⟩
      · rw [DspStage.filter, if_neg hk₀]
        exact forall₂_renders fun k hk => (hlt [0, 1, 2] (by decide) k hk).1
      · -- the FAC adds its feedback, the wire subtracts it
        rw [DspStage.filter, if_neg hk₀]
        exact forall₂_renders fun k hk => (hlt [3, 4] (by decide) k hk).neg
      · constructor <;> simp [facDepth]

/-! ### The chain of a filter stream -/

lemma fftIndex_none {stages : ℕ → DspStage} {is : List ℕ}
    (h : ∀ i ∈ is, (stages i).Populated → (stages i).kind ≠ 3) :
    fftIndex stages is none = none := by
  induction is with
  | nil => rfl
  | cons i is ih =>
    rw [fftIndex, if_neg fun hi => h i List.mem_cons_self hi.1 hi.2]
    exact ih fun j hj => h j (List.mem_cons_of_mem i hj)

lemma DspStage.kind_le_of_blobValid (h : st.blobValid = true) : st.kind ≤ 3 := by
  by_contra hbig
  obtain ⟨n, hn⟩ : ∃ n, st.kind = n + 4 := ⟨st.kind - 4, by omega⟩
  simp [DspStage.blobValid, hn] at h

/-- A chain that is bound as a filter is a single FIR stage or a single IIR stage of one section. -/
lemma FitFor.single {stages : ℕ → DspStage} {terminal : ℕ} (h : FitFor stages terminal)
    (ht : terminal ≠ 3) : ∃ i < dspMaxStages,
      ((List.range dspMaxStages).find? fun j => (stages j).Populated) = some i ∧
        (stages i).Populated ∧ (stages i).blobValid = true ∧
        ((stages i).kind = 0 ∨ (stages i).kind = 1 ∧ ((stages i).data 1).toNat = 1) := by
  obtain ⟨⟨last, hw, rfl⟩, hcap⟩ := h
  have hmem : last ∈ (List.range dspMaxStages).filter fun j => (stages j).Populated :=
    List.mem_filter.mpr ⟨List.mem_range.mpr hw.lt, decide_eq_true hw.populated⟩
  have hfft : fftIndex stages (List.range dspMaxStages) none = none :=
    fftIndex_none fun j hj hp hk =>
      ht (hw.fft_last j (List.mem_range.mp hj) hp hk ▸ hk)
  simp only [adcDspChainP1Capable, hfft] at hcap
  split_ifs at hcap with hvalid hlen
  obtain ⟨i, hi⟩ := List.length_eq_one_iff.mp (not_not.mp hlen)
  rw [hi] at hmem hcap
  obtain rfl : last = i := List.mem_singleton.mp hmem
  have hblob := hw.valid last hw.lt hw.populated
  refine ⟨last, hw.lt, ?_, hw.populated, hblob, ?_⟩
  · rw [← List.head?_filter, hi]
    rfl
  · have hkind : (stages last).kind ≠ 2 := fun hk =>
      ht (hw.window_fft last hw.lt hw.populated hk).2
    have hrange := DspStage.kind_le_of_blobValid hblob
    rcases Nat.eq_zero_or_pos (stages last).kind with hzero | hpos
    · exact .inl hzero
    · have hone : (stages last).kind = 1 := by omega
      refine .inr ⟨hone, ?_⟩
      simpa [hone, UInt8.ext_iff] using hcap

/-- In every reachable state the chain of a filter stream is one stage, and whatever the FAC is
configured from it when its coefficients are numbers is decided by them: the configuration is
refused if the load does not latch or some coefficient is 128 or more in magnitude, and otherwise
the FAC computes the filter of the payload, on every history of inputs and outputs up to two units
of its words for each coefficient, which the headroom makes as small as the largest coefficient
allows. -/
theorem fac_realises_of_reach {a : Adc}
    (h : Reach adcStep (· = Adc.boot) (fun _ _ _ => True) a) {id : ℕ}
    (hb : (a.streams id).dspBound = true) (ht : (a.streams id).dspTerminal ≠ 3) :
    ∃ i < dspMaxStages, ((a.chains (a.streams id).dspChainId).stages i).Populated ∧
      (((a.chains (a.streams id).dspChainId).stages i).Numeric → ∀ undef scratch latched,
        (adcDspFacConfig undef scratch latched (a.chains (a.streams id).dspChainId).stages = none ↔
          latched = false ∨ ¬ ((a.chains (a.streams id).dspChainId).stages i).InRange) ∧
        ∀ p, adcDspFacConfig undef scratch latched
            (a.chains (a.streams id).dspChainId).stages = some p →
          p.Realises ((a.chains (a.streams id).dspChainId).stages i) ∧
          ∀ (xs ys : ℕ → ℚ) (M : ℚ), (∀ k, |xs k| ≤ M) → (∀ k, |ys k| ≤ M) →
            |p.filter.next xs ys -
                ((a.chains (a.streams id).dspChainId).stages i).filter.next xs ys| ≤
              p.coeffSize * (2 ^ p.ipr / 2 ^ 14 * M)) := by
  have hpool : PoolInv a := by
    refine Reach.invariant (I := PoolInv) ?_ (fun _ _ _ _ hI hs _ => hI.step hs) h
    rintro _ rfl
    exact .boot
  have hfit := hpool.fit id hb
  obtain ⟨stages, hstages⟩ : ∃ s, (a.chains (a.streams id).dspChainId).stages = s := ⟨_, rfl⟩
  rw [hstages] at hfit ⊢
  obtain ⟨i, hi, hfind, hpop, hblob, hkind⟩ := hfit.single ht
  refine ⟨i, hi, hpop, fun hnum undef scratch latched => ?_⟩
  have hspec : (adcDspFacConfig undef scratch latched stages = none ↔
      latched = false ∨ ¬ (stages i).InRange) ∧
      ∀ p, adcDspFacConfig undef scratch latched stages = some p → p.Realises (stages i) := by
    simp only [adcDspFacConfig, hfit.2, not_true_eq_false, if_false, hfind]
    rcases hkind with hfir | ⟨hiir, -⟩
    · simp only [hfir]
      exact facConfigFir_spec hfir hblob hnum
    · simp only [hiir]
      exact facConfigIir_spec hiir hnum
  refine ⟨hspec.1, fun p hp => ⟨hspec.2 p hp, fun xs ys M hx hy => ?_⟩⟩
  have hreal := hspec.2 p hp
  have hnext := hreal.near.next hx hy
  rw [FacProgram.filter, List.length_map, List.length_map, hreal.placed.size] at hnext
  exact hnext

/-- A lightly damped section, `b = 1, 0.5, -1.5` and `a = -1, -2`, on the first stream. -/
def biquadRun : List AdcOp :=
  [.streamBegin ⟨true, true, true, true, 12⟩ 0 0 1000, .chainOpen,
    .stagePush 0 0 1 0 24 [0, 1, 0, 0, 0, 0, 0x80, 0x3F, 0, 0, 0, 0x3F, 0, 0, 0xC0, 0xBF,
      0, 0, 0x80, 0xBF, 0, 0, 0, 0xC0], .chainBind 0 0]

/-- `Numeric` as a test. -/
def numericCheck (st : DspStage) : Bool :=
  (List.range st.coeffCount).all fun k => (Binary32.ofBits (st.word k)).rank.isSome

lemma DspStage.Numeric.of_check (h : numericCheck st = true) : st.Numeric := by
  refine .inr fun k hk hnan => ?_
  have hsome := List.all_eq_true.mp h k (List.mem_range.mpr hk)
  rw [hnan] at hsome
  cases hsome

/-- Its program: one bit of headroom, and the feedback with its signs turned. -/
def biquadProgram : FacProgram :=
  ⟨0, 5, 5, 35, 40, 32, 2, [16384, 8192, -24576], [16384, 32767], true, 3, 2, 1⟩

def biquadEnds (a : Adc) : Bool :=
  (a.streams 0).dspBound && (a.streams 0).dspTerminal != 3 &&
    ((List.range dspMaxStages).all fun i =>
      numericCheck ((a.chains (a.streams 0).dspChainId).stages i)) &&
    decide (adcDspFacConfig 0 (fun _ => 0) true (a.chains (a.streams 0).dspChainId).stages =
      some biquadProgram)

theorem fac_realises_biquad : ∃ a i, Reach adcStep (· = Adc.boot) (fun _ _ _ => True) a ∧
    adcDspFacConfig 0 (fun _ => 0) true (a.chains (a.streams 0).dspChainId).stages =
      some biquadProgram ∧
    biquadProgram.Realises ((a.chains (a.streams 0).dspChainId).stages i) := by
  have hinit : Reach adcStep (· = Adc.boot) (fun _ _ _ => True) Adc.boot := .start rfl
  obtain ⟨a, ha, hq⟩ := hinit.exists_of_run (fun _ _ _ => true) biquadEnds biquadRun
    (fun _ _ _ _ => trivial) (by decide +kernel)
  simp only [biquadEnds, Bool.and_eq_true, bne_iff_ne, decide_eq_true_eq, List.all_eq_true] at hq
  obtain ⟨⟨⟨hb, ht⟩, hnum⟩, hconfig⟩ := hq
  obtain ⟨i, hi, -, hreal⟩ := fac_realises_of_reach ha hb ht
  have hnumeric := DspStage.Numeric.of_check (hnum i (List.mem_range.mpr hi))
  exact ⟨a, i, ha, hconfig, ((hreal hnumeric 0 (fun _ => 0) true).2 _ hconfig).1⟩

end Gd32Bridge
