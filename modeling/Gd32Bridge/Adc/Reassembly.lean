import Gd32Bridge.Adc.Recovery

/-!
# Chunked uploads

A stage is the sum of the chunks accepted for it: each covered byte is that of the latest chunk
over it, the count and the flag follow the bitmap, and a refused chunk leaves no trace.  The chunks
of one payload give the same stage in whatever order they come.
-/

namespace Gd32Bridge

open Transition

attribute [ext] DspStage

variable {st : DspStage} {kind offset total : ℕ} {chunk : List UInt8}

/-! ### What one push can do -/

/-- A stage with metadata and nothing received. -/
def DspStage.fresh (kind total : ℕ) : DspStage := { DspStage.zero with kind, totalSize := total }

lemma DspStage.fresh_not_conflicting :
    (DspStage.fresh kind total).conflicting offset chunk = false := by
  induction chunk generalizing offset with
  | nil => rfl
  | cons b bs ih => exact ih

/-- Everything a push can do to a stage that is zero while it has no metadata: a refusal changes
nothing, and an accepted chunk is copied over a fresh stage or over bytes it agrees with. -/
lemma DspStage.push_cases (hzero : st.totalSize = 0 → st = .zero) (kind offset total : ℕ)
    (chunk : List UInt8) :
    (st.push kind offset total chunk).2 ≠ .ok ∧ (st.push kind offset total chunk).1 = st ∨
    ∃ base : DspStage, st.push kind offset total chunk = ((base.fill offset chunk).close, .ok) ∧
      (base = .fresh kind total ∨ base = st ∧ st.kind = kind ∧ st.totalSize = total ∧
        st.conflicting offset chunk = false) := by
  have hfresh : (fresh kind total).conflicting offset chunk = false := fresh_not_conflicting
  simp only [push, seed]
  by_cases h₀ : st.totalSize = 0
  · obtain rfl := hzero h₀
    refine .inr ⟨fresh kind total, ?_, .inl rfl⟩
    exact if_neg (Bool.eq_false_iff.mp hfresh)
  by_cases hmeta : st.kind ≠ kind ∨ st.totalSize ≠ total
  · by_cases hoff : offset ≠ 0
    · refine .inl ⟨?_, ?_⟩
      · simp only [if_neg h₀, if_pos hmeta, if_pos hoff]
        rintro ⟨⟩
      · simp only [if_neg h₀, if_pos hmeta, if_pos hoff]
    · refine .inr ⟨fresh kind total, ?_, .inl rfl⟩
      simp only [if_neg h₀, if_pos hmeta, if_neg hoff]
      exact if_neg (Bool.eq_false_iff.mp hfresh)
  -- The metadata agree: only here can the chunk meet bytes that were received before.
  simp only [if_neg h₀, if_neg hmeta]
  by_cases hconf : st.conflicting offset chunk = true
  · by_cases hpart : offset ≠ 0 ∨ chunk.length ≠ total
    · refine .inl ⟨?_, ?_⟩
      · simp only [if_pos hconf, if_pos hpart]
        rintro ⟨⟩
      · simp only [if_pos hconf, if_pos hpart]
    · refine .inr ⟨fresh kind total, ?_, .inl rfl⟩
      simp only [if_pos hconf, if_neg hpart]
      rfl
  · refine .inr ⟨st, ?_, .inr ⟨rfl, ?_⟩⟩
    · simp only [if_neg hconf]
    · rw [not_or, not_not, not_not] at hmeta
      exact ⟨hmeta.1, hmeta.2, Bool.eq_false_iff.mpr hconf⟩

/-! ### The chunks a stage is made of -/

/-- A chunk that was accepted: where it starts and its bytes. -/
structure Chunk where
  offset : ℕ
  bytes : List UInt8
deriving DecidableEq, Repr

/-- The chunk has a byte for position `o`. -/
def Chunk.covers (c : Chunk) (o : ℕ) : Bool :=
  decide (c.offset ≤ o ∧ o < c.offset + c.bytes.length)

/-- That byte. -/
def Chunk.byteAt (c : Chunk) (o : ℕ) : UInt8 := c.bytes.getD (o - c.offset) 0

/-- The stage is what the chunks of `log`, the newest first, make of it. -/
structure DspStage.Assembled (st : DspStage) (log : List Chunk) : Prop extends st.Counted where
  size : st.totalSize ≤ dspMaxStageBytes
  latest : ∀ o, st.coverage o = true →
    (log.find? (·.covers o)).map (·.byteAt o) = some (st.data o)
  blank : ∀ o, st.coverage o = false → st.data o = 0
  complete : st.complete = true ↔
    st.totalSize ≠ 0 ∧ ∀ o < st.totalSize, st.coverage o = true
  unseeded : st.totalSize = 0 → st = .zero

variable {log : List Chunk}

lemma DspStage.Assembled.zero : DspStage.zero.Assembled log :=
  ⟨.zero, Nat.zero_le _, nofun, fun _ _ => rfl, ⟨nofun, fun h => absurd rfl h.1⟩, fun _ => rfl⟩

lemma DspStage.Assembled.fresh (htotal : 0 < total) (hmax : total ≤ dspMaxStageBytes) :
    (DspStage.fresh kind total).Assembled log := by
  refine ⟨.fresh .zero fun _ => rfl, hmax, nofun, fun _ _ => rfl, ⟨nofun, fun h => ?_⟩, ?_⟩
  · exact absurd (h.2 0 htotal) Bool.noConfusion
  · exact fun h => absurd h (Nat.pos_iff_ne_zero.mp htotal)

/-- Nothing lies outside the buffer. -/
lemma DspStage.Assembled.outside (h : st.Assembled log) {o : ℕ} (ho : dspMaxStageBytes ≤ o) :
    st.data o = 0 ∧ st.coverage o = false := by
  have hcov := h.above o (Nat.le_trans h.size ho)
  exact ⟨h.blank o hcov, hcov⟩

/-- The flag of a counted stage says that nothing is missing. -/
lemma DspStage.Counted.close_complete (h : st.Counted) :
    st.close.complete = true ↔ ∀ o < st.totalSize, st.coverage o = true := by
  refine ⟨fun hc o ho => ?_, h.complete_close⟩
  have hfull : (List.range st.totalSize).countP st.coverage =
      (List.range st.totalSize).length := by
    rw [← h.count, List.length_range]
    simpa only [DspStage.close, beq_iff_eq] using hc
  exact List.countP_eq_length.mp hfull o (List.mem_range.mpr ho)

/-- Copying a chunk over a stage it agrees with. -/
lemma DspStage.Assembled.accept (h : st.Assembled log) (htotal : 0 < st.totalSize)
    (hfit : offset + chunk.length ≤ st.totalSize)
    (hagree : st.conflicting offset chunk = false) :
    (st.fill offset chunk).close.Assembled (⟨offset, chunk⟩ :: log) := by
  have hspec (o : ℕ) := st.fill_spec offset chunk o
  have hcount := h.toCounted.fill hfit
  refine ⟨hcount.close, ?_, fun o ho => ?_, fun o ho => ?_, ?_, fun h₀ => ?_⟩
  · exact (st.fill_totalSize offset chunk).symm ▸ h.size
  · show _ = some ((st.fill offset chunk).data o)
    replace ho : (st.fill offset chunk).coverage o = true := ho
    rw [(hspec o).1] at ho
    rw [(hspec o).2]
    by_cases hin : offset ≤ o ∧ o < offset + chunk.length
    · -- The new chunk is the latest one; where the byte was known it has the same value.
      rw [List.find?_cons_of_pos (by simpa only [Chunk.covers, decide_eq_true_eq] using hin)]
      cases hcov : st.coverage o with
      | false => simp only [hin, Option.map_some, Chunk.byteAt, and_self, if_true]
      | true =>
        have hold := data_of_not_conflicting hagree hin.1 hin.2 hcov
        simp only [Option.map_some, Chunk.byteAt, hold, Bool.true_eq_false, false_and, if_false]
    · simp only [hin, decide_false, Bool.or_false, and_false, if_false] at ho ⊢
      rw [List.find?_cons_of_neg (by simpa only [Chunk.covers, decide_eq_true_eq] using hin)]
      exact h.latest o ho
  · show (st.fill offset chunk).data o = 0
    replace ho : (st.fill offset chunk).coverage o = false := ho
    rw [(hspec o).1, Bool.or_eq_false_iff, decide_eq_false_iff_not] at ho
    rw [(hspec o).2, if_neg (fun hin => ho.2 hin.2)]
    exact h.blank o ho.1
  · refine hcount.close_complete.trans ⟨fun hall => ⟨?_, hall⟩, fun hall => hall.2⟩
    show (st.fill offset chunk).totalSize ≠ 0
    rw [st.fill_totalSize]
    omega
  · replace h₀ : (st.fill offset chunk).totalSize = 0 := h₀
    rw [st.fill_totalSize] at h₀
    omega

/-- A push keeps a stage assembled; its log grows by the chunk exactly when it is accepted, and a
refusal leaves the stage as it was. -/
lemma DspStage.Assembled.push (h : st.Assembled log) (kind : ℕ) (htotal : 0 < total)
    (hmax : total ≤ dspMaxStageBytes) (hfit : offset + chunk.length ≤ total) :
    ((st.push kind offset total chunk).2 = .ok ∧
      (st.push kind offset total chunk).1.Assembled (⟨offset, chunk⟩ :: log)) ∨
    ((st.push kind offset total chunk).2 ≠ .ok ∧ (st.push kind offset total chunk).1 = st) := by
  rcases push_cases h.unseeded kind offset total chunk with
    hno | ⟨base, hpush, rfl | ⟨rfl, -, hsize, hagree⟩⟩
  · exact .inr hno
  · rw [hpush]
    refine .inl ⟨rfl, (Assembled.fresh htotal hmax).accept htotal hfit ?_⟩
    exact fresh_not_conflicting
  · rw [hpush]
    exact .inl ⟨rfl, h.accept (hsize ▸ htotal) (hsize ▸ hfit) hagree⟩

/-! ### Whole runs -/

/-- The chunks accepted for each stage of each chain, the newest first. -/
abbrev UploadLog : Type := ℕ → ℕ → List Chunk

/-- A chunk enters the log of its stage when its push answers OK. -/
def UploadLog.note (log : UploadLog) (a : Adc) (op : AdcOp) (_ : Adc) : UploadLog :=
  match op with
  | .stagePush chain stage kind offset total chunk =>
    if (adcDspStagePush a chain stage kind offset total chunk).rv = .ok then
      fun c i => if c = chain ∧ i = stage then ⟨offset, chunk⟩ :: log c i else log c i
    else log
  | _ => log

/-- Writing one stage of one chain. -/
def Adc.setStage (a : Adc) (chain stage : ℕ) (st : DspStage) : Adc :=
  a.setChain chain
    { a.chains chain with stages := Function.update (a.chains chain).stages stage st }

lemma Adc.setStage_same (a : Adc) (chain stage : ℕ) :
    a.setStage chain stage ((a.chains chain).stages stage) = a := by
  simp only [setStage, setChain, Function.update_eq_self]

lemma Adc.setStage_stages (a : Adc) (chain stage : ℕ) (st : DspStage) (c i : ℕ) :
    ((a.setStage chain stage st).chains c).stages i =
      if c = chain ∧ i = stage then st else (a.chains c).stages i := by
  simp only [setStage, setChain_chains]
  by_cases hc : c = chain
  · subst hc
    rw [Function.update_self]
    by_cases hi : i = stage
    · simp only [hi, Function.update_self, and_self, if_true]
    · simp only [hi, ne_eq, not_false_eq_true, Function.update_of_ne, and_false, if_false]
  · rw [Function.update_of_ne hc, if_neg (fun h => hc h.1)]

/-- Every stage of every chain is what its log makes of it. -/
def Adc.StagesAssembled (a : Adc) (log : UploadLog) : Prop :=
  ∀ c i, ((a.chains c).stages i).Assembled (log c i)

variable {a : Adc} {uploads : UploadLog}

/-- A whole push: refused and without effect, or accepted and confined to its stage. -/
lemma Adc.StagesAssembled.push_cases (h : a.StagesAssembled uploads)
    (chain stage kind offset total : ℕ) (chunk : List UInt8) :
    ((adcDspStagePush a chain stage kind offset total chunk).rv ≠ .ok ∧
      (adcDspStagePush a chain stage kind offset total chunk).hw = a) ∨
    ∃ st, (adcDspStagePush a chain stage kind offset total chunk).rv = .ok ∧
      (adcDspStagePush a chain stage kind offset total chunk).hw = a.setStage chain stage st ∧
      st.Assembled (⟨offset, chunk⟩ :: uploads chain stage) ∧
      offset + chunk.length ≤ total ∧ total ≤ dspMaxStageBytes := by
  fun_cases adcDspStagePush
  case case11 hchain hstage hkind htotal hmax hlen hoff hfit huse hbound st rv hst =>
    have hfits : offset + chunk.length ≤ total := by omega
    rcases (h chain stage).push kind (Nat.pos_of_ne_zero htotal) (Nat.le_of_not_lt hmax) hfits with
      ⟨hok, hst'⟩ | ⟨hno, hsame⟩
    · rw [hst] at hok hst'
      exact .inr ⟨st, hok, rfl, hst', hfits, Nat.le_of_not_lt hmax⟩
    · rw [hst] at hno hsame
      simp only at hsame
      subst hsame
      exact .inl ⟨hno, a.setStage_same chain stage⟩
  all_goals exact .inl ⟨by rintro ⟨⟩, rfl⟩

lemma Adc.StagesAssembled.setChain (h : a.StagesAssembled uploads) {c : ℕ} {chain : DspChain}
    (hc : ∀ i, (chain.stages i).Assembled (uploads c i)) :
    (a.setChain c chain).StagesAssembled uploads := by
  intro d i
  rw [setChain_chains]
  by_cases hd : d = c
  · rw [hd, Function.update_self]
    exact hc i
  · rw [Function.update_of_ne hd]
    exact h d i

lemma Adc.StagesAssembled.chainRelease (h : a.StagesAssembled uploads) (c : ℕ) :
    (a.chainRelease c).StagesAssembled uploads := by
  simp only [Adc.chainRelease]
  split
  · exact h
  · exact h.setChain fun i => h c i

/-- Only a push writes a stage: any other operation leaves it, or clears it. -/
lemma Adc.StagesAssembled.other (h : a.StagesAssembled uploads) {a' : Adc} {op : AdcOp}
    (hrule : AdcRule a op a')
    (hop : ∀ chain stage kind offset total chunk,
      op ≠ .stagePush chain stage kind offset total chunk) : a'.StagesAssembled uploads := by
  cases hrule with
  | same => exact h
  | opened => exact h.setChain fun _ => .zero
  | pushed => exact absurd rfl (hop _ _ _ _ _ _)
  | @refused chain => exact h.chainRelease chain
  | attached => exact h.setChain fun i => h _ i
  | started => exact h
  | read => exact h
  | @ended _ id =>
    simp only [Adc.endStream]
    split
    · refine Adc.StagesAssembled.chainRelease (a := (a.facRelease id).fftRelease id) ?_ _
      intro c i
      rw [Adc.fftRelease_chains, Adc.facRelease_chains]
      exact h c i
    · exact h
  | lapped => exact h
  | pumped => exact h

/-- Every operation keeps the stages and the log together. -/
lemma Adc.StagesAssembled.step (h : a.StagesAssembled uploads) (op : AdcOp) :
    (adcApply a op).StagesAssembled (uploads.note a op (adcApply a op)) := by
  have hrule := AdcRule.of_apply a op
  cases op with
  | stagePush chain stage kind offset total chunk =>
    rcases h.push_cases chain stage kind offset total chunk with
      ⟨hno, hsame⟩ | ⟨st, hok, hw, hst, -⟩
    · have hnote : uploads.note a (.stagePush chain stage kind offset total chunk)
          (adcApply a (.stagePush chain stage kind offset total chunk)) = uploads := if_neg hno
      rw [hnote]
      simp only [adcApply, hsame]
      exact h
    · have hnote : uploads.note a (.stagePush chain stage kind offset total chunk)
          (adcApply a (.stagePush chain stage kind offset total chunk)) =
          fun c i => if c = chain ∧ i = stage then ⟨offset, chunk⟩ :: uploads c i
            else uploads c i := if_pos hok
      rw [hnote]
      simp only [adcApply, hw]
      intro c i
      simp only [Adc.setStage_stages]
      split_ifs with hci
      · rw [hci.1, hci.2]
        exact hst
      · exact h c i
  | chainOpen => exact h.other hrule nofun
  | chainBind => exact h.other hrule nofun
  | streamBegin => exact h.other hrule nofun
  | streamRead => exact h.other hrule nofun
  | streamEnd => exact h.other hrule nofun
  | lapIsr => exact h.other hrule nofun
  | pump => exact h.other hrule nofun

/-! ### The chunks of one payload -/

/-- A range of positions: where it starts and how long it is. -/
structure BlobRange where
  start : ℕ
  len : ℕ
deriving DecidableEq, Repr

def BlobRange.covers (r : BlobRange) (o : ℕ) : Bool := decide (r.start ≤ o ∧ o < r.start + r.len)

/-- The bytes of a payload in a range. -/
def BlobRange.slice (r : BlobRange) (blob : List UInt8) : List UInt8 :=
  (blob.drop r.start).take r.len

/-- The positions any of the ranges covers. -/
def coveredBy (rs : List BlobRange) (o : ℕ) : Bool := rs.any (·.covers o)

/-- The stage that has metadata and the bytes of a payload at the positions of `cov`. -/
def DspStage.part (kind : ℕ) (blob : List UInt8) (cov : ℕ → Bool) : DspStage where
  kind := kind
  totalSize := blob.length
  bytesReceived := (List.range blob.length).countP cov
  complete := (List.range blob.length).countP cov == blob.length
  coverage := cov
  data o := if cov o then blob.getD o 0 else 0

/-- The stage that was zero before it received them: the first one brings the metadata. -/
def DspStage.received (kind : ℕ) (blob : List UInt8) (cov : ℕ → Bool) : DspStage :=
  if (List.range blob.length).any cov then .part kind blob cov else .zero

lemma DspStage.conflicting_of_agree {offset : ℕ} {chunk : List UInt8}
    (h : ∀ j, offset ≤ j → j < offset + chunk.length → st.coverage j = true →
      st.data j = chunk.getD (j - offset) 0) : st.conflicting offset chunk = false := by
  induction chunk generalizing offset with
  | nil => rfl
  | cons b bs ih =>
    simp only [conflicting, Bool.or_eq_false_iff, Bool.and_eq_false_imp]
    refine ⟨fun hcov => ?_, ih fun j hlow hhigh hcov => ?_⟩
    · simpa using h offset (Nat.le_refl _) (by simp) hcov
    · have hj := h j (by omega) (by simp only [List.length_cons]; omega) hcov
      obtain ⟨d, hd⟩ : ∃ d, j - offset = d + 1 := ⟨j - offset - 1, by omega⟩
      have hsub : j - (offset + 1) = d := by omega
      rw [hj, hd, hsub, List.getD_cons_succ]

variable {blob : List UInt8} {cov : ℕ → Bool} {r : BlobRange}

lemma BlobRange.length_slice (hr : r.start + r.len ≤ blob.length) :
    (r.slice blob).length = r.len := by
  simp only [slice, List.length_take, List.length_drop]
  omega

lemma BlobRange.getD_slice {o : ℕ} (hr : r.covers o = true) :
    (r.slice blob).getD (o - r.start) 0 = blob.getD o 0 := by
  simp only [covers, decide_eq_true_eq] at hr
  have hlt : o - r.start < r.len := by omega
  have hadd : r.start + (o - r.start) = o := by omega
  simp only [slice, List.getD_eq_getElem?_getD, List.getElem?_take_of_lt hlt,
    List.getElem?_drop, hadd]

lemma DspStage.Counted.part (hcov : ∀ o, cov o = true → o < blob.length) :
    (DspStage.part kind blob cov).Counted := by
  refine ⟨rfl, fun k hk => ?_⟩
  by_contra hne
  have hlt := hcov k (Bool.eq_true_of_not_eq_false hne)
  exact absurd hk (Nat.not_le.mpr hlt)

/-- Copying a range of the payload over others of its ranges. -/
lemma DspStage.part_fill (hr : r.start + r.len ≤ blob.length)
    (hcov : ∀ o, cov o = true → o < blob.length) :
    ((part kind blob cov).fill r.start (r.slice blob)).close =
      part kind blob (fun o => cov o || r.covers o) := by
  have hlen := BlobRange.length_slice hr
  have hspec (o : ℕ) := (part kind blob cov).fill_spec r.start (r.slice blob) o
  rw [hlen] at hspec
  have hcoverage : ((part kind blob cov).fill r.start (r.slice blob)).coverage =
      fun o => cov o || r.covers o := funext fun o => (hspec o).1
  have hsize : ((part kind blob cov).fill r.start (r.slice blob)).totalSize = blob.length :=
    fill_totalSize _ _
  have hcount : ((part kind blob cov).fill r.start (r.slice blob)).bytesReceived =
      (List.range blob.length).countP fun o => cov o || r.covers o := by
    have hfit : r.start + (r.slice blob).length ≤ (part kind blob cov).totalSize := by
      rw [hlen]
      exact hr
    rw [((Counted.part hcov).fill hfit).count, hsize, hcoverage]
  have hcomplete : ((part kind blob cov).fill r.start (r.slice blob)).close.complete =
      ((List.range blob.length).countP (fun o => cov o || r.covers o) == blob.length) := by
    simp only [close, hcount, hsize]
  refine DspStage.ext (fill_kind _ _) hsize hcount hcomplete hcoverage (funext fun o => ?_)
  show ((part kind blob cov).fill r.start (r.slice blob)).data o =
    if cov o || r.covers o then blob.getD o 0 else 0
  rw [(hspec o).2]
  show (if cov o = false ∧ r.start ≤ o ∧ o < r.start + r.len then _
    else if cov o then blob.getD o 0 else 0) = _
  cases hold : cov o with
  | true => simp
  | false =>
    by_cases hin : r.covers o = true
    · have hin' : r.start ≤ o ∧ o < r.start + r.len := by
        simpa only [BlobRange.covers, decide_eq_true_eq] using hin
      simp only [hin, hin', BlobRange.getD_slice hin, and_self, if_true, Bool.or_true]
    · have hin' : ¬ (r.start ≤ o ∧ o < r.start + r.len) := by
        simpa only [BlobRange.covers, decide_eq_true_eq] using hin
      simp only [hin, hin', and_false, if_false, Bool.or_false, Bool.false_eq_true]

lemma DspStage.part_seed (hpos : 0 < blob.length) (offset : ℕ) :
    (part kind blob cov).seed kind offset blob.length = some (part kind blob cov) := by
  have h₀ : ¬ (part kind blob cov).totalSize = 0 := Nat.pos_iff_ne_zero.mp hpos
  have hmeta : ¬ ((part kind blob cov).kind ≠ kind ∨
      (part kind blob cov).totalSize ≠ blob.length) := by simp [part]
  simp only [seed, if_neg h₀, if_neg hmeta]

/-- A zero stage takes the metadata, as the part without bytes has them. -/
lemma DspStage.zero_seed (hpos : 0 < blob.length) (offset : ℕ) :
    DspStage.zero.seed kind offset blob.length = some (part kind blob fun _ => false) := by
  have hcount : (List.range blob.length).countP (fun _ => false) = 0 :=
    List.countP_eq_zero.mpr fun _ _ => nofun
  have hcomplete : (0 == blob.length) = false := by simpa using (Nat.pos_iff_ne_zero.mp hpos).symm
  simp only [seed, part, hcount, hcomplete]
  rfl

lemma DspStage.part_push (hr : r.start + r.len ≤ blob.length) (hpos : 0 < r.len)
    (hcov : ∀ o, cov o = true → o < blob.length) :
    (part kind blob cov).push kind r.start blob.length (r.slice blob) =
      (part kind blob (fun o => cov o || r.covers o), .ok) := by
  have hagree : (part kind blob cov).conflicting r.start (r.slice blob) = false := by
    refine conflicting_of_agree fun j hlow hhigh hj => ?_
    rw [BlobRange.length_slice hr] at hhigh
    have hin : r.covers j = true := decide_eq_true ⟨hlow, hhigh⟩
    rw [BlobRange.getD_slice hin]
    exact if_pos hj
  have hlen : 0 < blob.length := by omega
  simp only [push, part_seed hlen, hagree, Bool.false_eq_true, if_false, part_fill hr hcov]

/-- A non-empty range adds its positions, whatever was received before. -/
lemma DspStage.received_push (hr : r.start + r.len ≤ blob.length) (hpos : 0 < r.len)
    (hcov : ∀ o, cov o = true → o < blob.length) :
    (received kind blob cov).push kind r.start blob.length (r.slice blob) =
      (received kind blob (fun o => cov o || r.covers o), .ok) := by
  have hafter : received kind blob (fun o => cov o || r.covers o) =
      part kind blob (fun o => cov o || r.covers o) := by
    refine if_pos (List.any_eq_true.mpr ⟨r.start, List.mem_range.mpr (by omega), ?_⟩)
    have hself : r.covers r.start = true := decide_eq_true ⟨Nat.le_refl _, by omega⟩
    rw [hself, Bool.or_true]
  rw [hafter, ← part_push hr hpos hcov, received]
  split
  · rfl
  next hnone =>
    have hempty : cov = fun _ => false := by
      funext o
      by_contra ho
      have ho' : cov o = true := Bool.eq_true_of_not_eq_false ho
      exact hnone (List.any_eq_true.mpr ⟨o, List.mem_range.mpr (hcov o ho'), ho'⟩)
    have hlen : 0 < blob.length := by omega
    simp only [push, zero_seed hlen, part_seed hlen, hempty]

/-! ### Uploading a payload -/

/-- The push of one range of a payload. -/
def uploadRange (chain stage kind : ℕ) (blob : List UInt8) (a : Adc) (r : BlobRange) : Adc :=
  (adcDspStagePush a chain stage kind r.start blob.length (r.slice blob)).hw

/-- The pushes of several, one after the other. -/
def uploadRanges (chain stage kind : ℕ) (blob : List UInt8) (a : Adc) (rs : List BlobRange) : Adc :=
  rs.foldl (uploadRange chain stage kind blob) a

/-- A stage can take a payload of this kind and length. -/
def Uploadable (kind : ℕ) (blob : List UInt8) : Prop :=
  kind ≤ dspKindMax ∧ 0 < blob.length ∧ blob.length ≤ dspMaxStageBytes

instance (kind : ℕ) (blob : List UInt8) : Decidable (Uploadable kind blob) :=
  inferInstanceAs (Decidable (_ ∧ _))

variable {chain stage : ℕ} {rs rs' : List BlobRange}

/-- Nothing of any other payload is accepted. -/
lemma uploadRange_of_not_uploadable (h : ¬ Uploadable kind blob) (a : Adc) (r : BlobRange) :
    uploadRange chain stage kind blob a r = a := by
  simp only [uploadRange]
  fun_cases adcDspStagePush
  case case11 _ _ hkind htotal hmax _ _ _ _ _ _ _ _ =>
    exact absurd ⟨Nat.le_of_not_lt hkind, Nat.pos_of_ne_zero htotal, Nat.le_of_not_lt hmax⟩ h
  all_goals rfl

lemma uploadRanges_of_not_uploadable (h : ¬ Uploadable kind blob) (a : Adc) (rs : List BlobRange) :
    uploadRanges chain stage kind blob a rs = a := by
  induction rs with
  | nil => rfl
  | cons r rs ih => rw [uploadRanges, List.foldl_cons, uploadRange_of_not_uploadable h]; exact ih

/-- The chain takes pushes at this stage. -/
structure Adc.Open (a : Adc) (chain stage : ℕ) : Prop where
  lt_chains : chain < dspMaxChains
  lt_stages : stage < dspMaxStages
  inUse : (a.chains chain).inUse = true
  bound : (a.chains chain).bound = false

lemma Adc.Open.setStage (h : a.Open chain stage) (st : DspStage) :
    (a.setStage chain stage st).Open chain stage := by
  refine ⟨h.lt_chains, h.lt_stages, ?_, ?_⟩
  · simpa only [Adc.setStage, setChain_chains, Function.update_self] using h.inUse
  · simpa only [Adc.setStage, setChain_chains, Function.update_self] using h.bound

lemma Adc.setStage_setStage (a : Adc) (chain stage : ℕ) (st st' : DspStage) :
    (a.setStage chain stage st).setStage chain stage st' = a.setStage chain stage st' := by
  simp only [setStage, setChain, Function.update_self, Function.update_idem]

/-- A push that passes the checks of its arguments is that of its stage. -/
lemma Adc.Open.stagePush (h : a.Open chain stage) (hkind : kind ≤ dspKindMax) (htotal : 0 < total)
    (hmax : total ≤ dspMaxStageBytes) (hlen : 0 < chunk.length)
    (hfit : offset + chunk.length ≤ total) :
    adcDspStagePush a chain stage kind offset total chunk =
      ⟨a.setStage chain stage (((a.chains chain).stages stage).push kind offset total chunk).1,
        (((a.chains chain).stages stage).push kind offset total chunk).2, ()⟩ := by
  have huse := h.inUse
  have hbound := h.bound
  have hc := h.lt_chains
  have hs := h.lt_stages
  fun_cases adcDspStagePush
  case case11 hst => rw [hst]; rfl
  case case9 hno => exact absurd huse hno
  case case10 hyes => exact absurd (hbound ▸ hyes) Bool.noConfusion
  all_goals omega

/-- One range more. -/
lemma uploadRange_received (h : a.Open chain stage) (hup : Uploadable kind blob)
    (hr : r.start + r.len ≤ blob.length) (hcov : ∀ o, cov o = true → o < blob.length) :
    uploadRange chain stage kind blob (a.setStage chain stage (.received kind blob cov)) r =
      a.setStage chain stage (.received kind blob fun o => cov o || r.covers o) := by
  have hlen := BlobRange.length_slice hr
  have hopen := h.setStage (.received kind blob cov)
  by_cases hpos : r.len = 0
  · -- An empty range is refused, and covers nothing.
    have hnone : (fun o => cov o || r.covers o) = cov := by
      funext o
      have hno : r.covers o = false := decide_eq_false (by omega)
      rw [hno, Bool.or_false]
    rw [hnone, uploadRange]
    fun_cases adcDspStagePush
    case case11 _ _ _ _ _ hne _ _ _ _ _ _ _ => exact absurd (hlen.trans hpos) hne
    all_goals rfl
  · have hstage : (((a.setStage chain stage (.received kind blob cov)).chains chain).stages
        stage) = .received kind blob cov := by
      rw [Adc.setStage_stages]
      exact if_pos ⟨rfl, rfl⟩
    have hslice : 0 < (r.slice blob).length := hlen ▸ Nat.pos_of_ne_zero hpos
    have hfit : r.start + (r.slice blob).length ≤ blob.length := hlen ▸ hr
    rw [uploadRange, hopen.stagePush hup.1 hup.2.1 hup.2.2 hslice hfit, hstage,
      DspStage.received_push hr (Nat.pos_of_ne_zero hpos) hcov]
    exact a.setStage_setStage chain stage _ _

/-- All of them, in the order of the list. -/
lemma uploadRanges_received (h : a.Open chain stage) (hup : Uploadable kind blob)
    (hrs : ∀ r ∈ rs, r.start + r.len ≤ blob.length) (hcov : ∀ o, cov o = true → o < blob.length) :
    uploadRanges chain stage kind blob (a.setStage chain stage (.received kind blob cov)) rs =
      a.setStage chain stage (.received kind blob fun o => cov o || coveredBy rs o) := by
  induction rs generalizing cov with
  | nil => simp only [uploadRanges, List.foldl_nil, coveredBy, List.any_nil, Bool.or_false]
  | cons r rs ih =>
    have hr := hrs r List.mem_cons_self
    rw [uploadRanges, List.foldl_cons, uploadRange_received h hup hr hcov]
    have hmore : ∀ o, (cov o || r.covers o) = true → o < blob.length := by
      intro o ho
      rcases Bool.or_eq_true_iff.mp ho with ho | ho
      · exact hcov o ho
      · have := of_decide_eq_true ho
        omega
    refine (ih (fun r' hr' => hrs r' (List.mem_cons_of_mem r hr')) hmore).trans ?_
    simp only [coveredBy, List.any_cons, Bool.or_assoc]

/-- From a stage without metadata: what is received is a function of the positions covered. -/
lemma uploadRanges_zero (h : a.Open chain stage) (hup : Uploadable kind blob)
    (hrs : ∀ r ∈ rs, r.start + r.len ≤ blob.length)
    (hzero : (a.chains chain).stages stage = .zero) :
    uploadRanges chain stage kind blob a rs =
      a.setStage chain stage (.received kind blob (coveredBy rs)) := by
  have hnone : DspStage.received kind blob (fun _ => false) = .zero := by
    refine if_neg ?_
    simp
  have hstart : a.setStage chain stage (.received kind blob fun _ => false) = a := by
    rw [hnone, ← hzero]
    exact a.setStage_same chain stage
  have hnil : ∀ o, (fun _ => false : ℕ → Bool) o = true → o < blob.length := nofun
  have hall := uploadRanges_received h hup hrs hnil
  rw [hstart] at hall
  exact hall

/-- The order of the ranges does not matter. -/
lemma uploadRanges_perm (h : a.Open chain stage)
    (hrs : ∀ r ∈ rs, r.start + r.len ≤ blob.length)
    (hzero : (a.chains chain).stages stage = .zero) (hperm : rs.Perm rs') :
    uploadRanges chain stage kind blob a rs = uploadRanges chain stage kind blob a rs' := by
  by_cases hup : Uploadable kind blob
  · have hrs' : ∀ r ∈ rs', r.start + r.len ≤ blob.length :=
      fun r hr => hrs r (hperm.mem_iff.mpr hr)
    have hcov : coveredBy rs = coveredBy rs' := by
      funext o
      exact hperm.any_eq
    rw [uploadRanges_zero h hup hrs hzero, uploadRanges_zero h hup hrs' hzero, hcov]
  · rw [uploadRanges_of_not_uploadable hup, uploadRanges_of_not_uploadable hup]

/-- Ranges that cover the payload complete the stage with it. -/
lemma DspStage.received_holds (hpos : 0 < blob.length)
    (hall : ∀ o < blob.length, coveredBy rs o = true) :
    (received kind blob (coveredBy rs)).Holds kind blob := by
  have hpart : received kind blob (coveredBy rs) = part kind blob (coveredBy rs) :=
    if_pos (List.any_eq_true.mpr ⟨0, List.mem_range.mpr hpos, hall 0 hpos⟩)
  rw [hpart]
  refine ⟨rfl, rfl, ?_, fun o ho => if_pos (hall o ho)⟩
  have hfull : (List.range blob.length).countP (coveredBy rs) = (List.range blob.length).length :=
    List.countP_eq_length.mpr fun o ho => hall o (List.mem_range.mp ho)
  simp only [part, hfull, List.length_range, beq_self_eq_true]

/-! ### Reassembly -/

/-- In every reachable state, every stage is what the chunks accepted for it make of it; a push
that is refused changes nothing, one that is accepted writes its range of one stage, inside the
buffer; and the ranges of a payload, pushed to an open stage without metadata, give the same state
in any order, with the payload in it once they cover it. -/
theorem dsp_stage_reassembles
    (h : Reach (withHistory adcStep UploadLog.note) (· = (Adc.boot, fun _ _ => []))
      (fun _ _ _ => True) (a, uploads)) :
    (∀ c i, ((a.chains c).stages i).Assembled (uploads c i)) ∧
    (∀ c i kind offset total chunk r, adcDspStagePush a c i kind offset total chunk = r →
      (r.rv ≠ .ok → r.hw = a) ∧
      (r.rv = .ok → offset + chunk.length ≤ dspMaxStageBytes ∧
        ∃ st, r.hw = a.setStage c i st ∧ ∀ o, dspMaxStageBytes ≤ o →
          st.data o = ((a.chains c).stages i).data o ∧
          st.coverage o = ((a.chains c).stages i).coverage o)) ∧
    (∀ c i kind blob rs rs', a.Open c i → ((a.chains c).stages i).totalSize = 0 →
      (∀ r ∈ rs, r.start + r.len ≤ blob.length) → rs.Perm rs' →
      uploadRanges c i kind blob a rs = uploadRanges c i kind blob a rs' ∧
      (Uploadable kind blob → (∀ o < blob.length, coveredBy rs o = true) →
        (((uploadRanges c i kind blob a rs).chains c).stages i).Holds kind blob)) := by
  have hall : a.StagesAssembled uploads := by
    refine Reach.invariant (I := fun p => p.1.StagesAssembled p.2) ?_ ?_ h
    · rintro _ rfl c i
      exact .zero
    · rintro ⟨b, log⟩ op ⟨b', log'⟩ - hI hstep -
      obtain ⟨hstep, hnote⟩ := withHistory_eq_some.mp hstep
      simp only [adcStep, Option.some.injEq] at hstep hnote
      subst hstep hnote
      exact hI.step op
  refine ⟨hall, ?_, ?_⟩
  · rintro c i kind offset total chunk _ rfl
    rcases hall.push_cases c i kind offset total chunk with
      ⟨hno, hsame⟩ | ⟨st, hok, hw, hst, hfit, hmax⟩
    · exact ⟨fun _ => hsame, fun hok => absurd hok hno⟩
    · refine ⟨fun hno => absurd hok hno, fun _ => ⟨Nat.le_trans hfit hmax, st, hw, ?_⟩⟩
      intro o ho
      have hnew := hst.outside ho
      have hold := (hall c i).outside ho
      exact ⟨hnew.1.trans hold.1.symm, hnew.2.trans hold.2.symm⟩
  · intro c i kind blob rs rs' hopen h₀ hrs hperm
    have hzero := (hall c i).unseeded h₀
    refine ⟨uploadRanges_perm hopen hrs hzero hperm, fun hup hcover => ?_⟩
    rw [uploadRanges_zero hopen hup hrs hzero, Adc.setStage_stages, if_pos ⟨rfl, rfl⟩]
    exact DspStage.received_holds hup.2.1 hcover

/-- Two overlapping chunks of one stage, in the reverse order. -/
def overlappingRun : List AdcOp :=
  [.chainOpen, .stagePush 0 1 0 2 8 [3, 4, 5], .stagePush 0 1 0 0 8 [1, 2, 3]]

theorem dsp_stage_reassembles_overlap :
    ∃ a uploads, Reach (withHistory adcStep UploadLog.note) (· = (Adc.boot, fun _ _ => []))
      (fun _ _ _ => True) (a, uploads) ∧
      ((a.chains 0).stages 1).bytesReceived = 5 ∧
      ((a.chains 0).stages 1).Assembled (uploads 0 1) ∧
      (adcDspStagePush a 0 1 0 1 8 [9, 9]).hw = a ∧
      (((uploadRanges 0 0 0 firBlob a [⟨4, 4⟩, ⟨0, 5⟩]).chains 0).stages 0).Holds 0 firBlob ∧
      uploadRanges 0 0 0 firBlob a [⟨4, 4⟩, ⟨0, 5⟩] =
        uploadRanges 0 0 0 firBlob a [⟨0, 5⟩, ⟨4, 4⟩] := by
  have hinit : Reach (withHistory adcStep UploadLog.note) (· = (Adc.boot, fun _ _ => []))
      (fun _ _ _ => True) (Adc.boot, fun _ _ => []) := .start rfl
  obtain ⟨⟨a, uploads⟩, ha, hq⟩ := hinit.exists_of_run (fun _ _ _ => true)
    (fun p => ((p.1.chains 0).stages 1).bytesReceived == 5 &&
      (adcDspStagePush p.1 0 1 0 1 8 [9, 9]).rv == .inval &&
      ((p.1.chains 0).inUse && !(p.1.chains 0).bound &&
        ((p.1.chains 0).stages 0).totalSize == 0))
    overlappingRun (fun _ _ _ _ => trivial) (by decide)
  simp only [Bool.and_eq_true, beq_iff_eq, Bool.not_eq_true'] at hq
  obtain ⟨⟨hbytes, hrv⟩, ⟨huse, hbound⟩, hempty⟩ := hq
  obtain ⟨hall, hpush, hranges⟩ := dsp_stage_reassembles ha
  have hopen : a.Open 0 0 := ⟨by decide, by decide, huse, hbound⟩
  have hupload := hranges 0 0 0 firBlob [⟨4, 4⟩, ⟨0, 5⟩] [⟨0, 5⟩, ⟨4, 4⟩] hopen hempty
    (by decide) (.swap _ _ _)
  refine ⟨a, uploads, ha, hbytes, hall 0 1, ?_, hupload.2 (by decide) (by decide), hupload.1⟩
  exact (hpush 0 1 0 1 8 [9, 9] _ rfl).1 (by rw [hrv]; decide)

end Gd32Bridge
