import Gd32Bridge.Adc.Chain

/-!
# Uploading a stage

The byte count of a stage is the number of positions its coverage bitmap holds, in every stage an
upload can produce; so a full payload at offset zero always completes it, whatever was there.
-/

namespace Gd32Bridge

variable {st st' : DspStage}

/-- Setting one more position below `n`. -/
lemma countP_range_update {f : ℕ → Bool} {k n : ℕ} (hk : k < n) (hf : f k = false) :
    (List.range n).countP (Function.update f k true) = (List.range n).countP f + 1 := by
  induction n with
  | zero => exact absurd hk (Nat.not_lt_zero k)
  | succ n ih =>
    rw [List.range_succ, List.countP_append, List.countP_append]
    rcases Nat.lt_succ_iff_lt_or_eq.mp hk with hlt | rfl
    · rw [ih hlt]
      have hne : n ≠ k := by omega
      simp only [List.countP_singleton, Function.update_of_ne hne]
      omega
    · have hpre : (List.range k).countP (Function.update f k true) = (List.range k).countP f := by
        refine List.countP_congr fun j hj => ?_
        have hne : j ≠ k := by
          have := List.mem_range.mp hj
          omega
        rw [Function.update_of_ne hne]
      simp only [hpre, List.countP_singleton, Function.update_self, hf, if_true,
        Bool.false_eq_true, if_false]

/-! ### The count and the bitmap -/

/-- `bytes_received` counts the covered positions, all of them below `total_size`. -/
structure DspStage.Counted (st : DspStage) : Prop where
  count : st.bytesReceived = (List.range st.totalSize).countP st.coverage
  above : ∀ k, st.totalSize ≤ k → st.coverage k = false

lemma DspStage.Counted.zero : DspStage.zero.Counted := ⟨rfl, fun _ _ => rfl⟩

/-- A stage with metadata and nothing received. -/
lemma DspStage.Counted.fresh (st : DspStage) {kind total : ℕ}
    (hcov : ∀ k, st.coverage k = false) :
    ({ st with kind, totalSize := total, bytesReceived := 0, complete := false } :
      DspStage).Counted := by
  refine ⟨?_, fun k _ => hcov k⟩
  have hzero : (List.range total).countP st.coverage = 0 :=
    List.countP_eq_zero.mpr fun k _ => by simp [hcov k]
  exact hzero.symm

@[simp]
lemma DspStage.receive_totalSize (k : ℕ) (b : UInt8) :
    (st.receive k b).totalSize = st.totalSize := by
  simp only [receive]
  split <;> rfl

@[simp]
lemma DspStage.receive_kind (k : ℕ) (b : UInt8) : (st.receive k b).kind = st.kind := by
  simp only [receive]
  split <;> rfl

lemma DspStage.receive_coverage (k : ℕ) (b : UInt8) (j : ℕ) :
    (st.receive k b).coverage j = (st.coverage j || decide (j = k)) := by
  simp only [receive]
  split
  · next h =>
    by_cases hj : j = k
    · simp [hj, h]
    · simp [hj]
  · by_cases hj : j = k
    · simp [hj]
    · simp [hj]

lemma DspStage.receive_data (k : ℕ) (b : UInt8) (j : ℕ) :
    (st.receive k b).data j = if st.coverage j = false ∧ j = k then b else st.data j := by
  simp only [receive]
  split
  · next h =>
    rw [if_neg]
    rintro ⟨hc, rfl⟩
    rw [h] at hc
    cases hc
  · next h =>
    by_cases hj : j = k
    · subst hj
      simp [h]
    · simp [hj]

lemma DspStage.Counted.receive (h : st.Counted) {k : ℕ} (hk : k < st.totalSize) (b : UInt8) :
    (st.receive k b).Counted := by
  simp only [DspStage.receive]
  split
  · exact h
  · next hcov =>
    refine ⟨?_, fun j hj => ?_⟩
    · simp only [countP_range_update hk (Bool.eq_false_iff.mpr hcov), h.count]
    · have hne : j ≠ k := by
        have : st.totalSize ≤ j := hj
        omega
      simp only [Function.update_of_ne hne]
      exact h.above j hj

/-! ### The copy loop -/

@[simp]
lemma DspStage.fill_totalSize (offset : ℕ) (chunk : List UInt8) :
    (st.fill offset chunk).totalSize = st.totalSize := by
  induction chunk generalizing st offset with
  | nil => rfl
  | cons b bs ih => rw [fill, ih, receive_totalSize]

@[simp]
lemma DspStage.fill_kind (offset : ℕ) (chunk : List UInt8) :
    (st.fill offset chunk).kind = st.kind := by
  induction chunk generalizing st offset with
  | nil => rfl
  | cons b bs ih => rw [fill, ih, receive_kind]

lemma DspStage.Counted.fill (h : st.Counted) {offset : ℕ} {chunk : List UInt8}
    (hfit : offset + chunk.length ≤ st.totalSize) : (st.fill offset chunk).Counted := by
  induction chunk generalizing st offset with
  | nil => exact h
  | cons b bs ih =>
    simp only [List.length_cons] at hfit
    exact ih (h.receive (by omega) b) (by rw [receive_totalSize]; omega)

/-- Every position of the chunk is covered afterwards, and holds what was there before or the
chunk's byte. -/
lemma DspStage.fill_spec (offset : ℕ) (chunk : List UInt8) (j : ℕ) :
    ((st.fill offset chunk).coverage j =
      (st.coverage j || decide (offset ≤ j ∧ j < offset + chunk.length))) ∧
    (st.fill offset chunk).data j =
      if st.coverage j = false ∧ offset ≤ j ∧ j < offset + chunk.length then
        chunk.getD (j - offset) 0 else st.data j := by
  induction chunk generalizing st offset with
  | nil =>
    have hno : ¬ (offset ≤ j ∧ j < offset + ([] : List UInt8).length) := by
      rw [List.length_nil]
      omega
    simp only [fill, hno, decide_false, Bool.or_false, and_false, if_false, and_self]
  | cons b bs ih =>
    obtain ⟨hcov, hdata⟩ := @ih (st.receive offset b) (offset + 1)
    simp only [fill, hcov, hdata, receive_coverage, receive_data, List.length_cons]
    by_cases hj : j = offset
    · subst hj
      cases st.coverage j <;> simp
    · have hiff : (offset + 1 ≤ j ∧ j < offset + 1 + bs.length) ↔
          (offset ≤ j ∧ j < offset + (bs.length + 1)) := by omega
      refine ⟨by simp only [hj, decide_false, Bool.or_false, hiff], ?_⟩
      simp only [hj, decide_false, Bool.or_false, and_false, if_false, hiff]
      split
      · next hin =>
        obtain ⟨d, hd⟩ : ∃ d, j - offset = d + 1 := ⟨j - offset - 1, by omega⟩
        have hsub : j - (offset + 1) = d := by omega
        rw [hd, hsub, List.getD_cons_succ]
      · rfl

/-- Without a conflict the covered positions of a chunk already hold its bytes. -/
lemma DspStage.data_of_not_conflicting {offset : ℕ} {chunk : List UInt8}
    (h : st.conflicting offset chunk = false) {j : ℕ} (hlow : offset ≤ j)
    (hhigh : j < offset + chunk.length) (hcov : st.coverage j = true) :
    st.data j = chunk.getD (j - offset) 0 := by
  induction chunk generalizing offset with
  | nil =>
    simp only [List.length_nil] at hhigh
    omega
  | cons b bs ih =>
    simp only [conflicting, Bool.or_eq_false_iff, Bool.and_eq_false_imp] at h
    by_cases hj : j = offset
    · subst hj
      simpa using h.1 hcov
    · simp only [List.length_cons] at hhigh
      obtain ⟨d, hd⟩ : ∃ d, j - offset = d + 1 := ⟨j - offset - 1, by omega⟩
      have hsub : j - (offset + 1) = d := by omega
      rw [ih h.2 (by omega) (by omega), hd, hsub, List.getD_cons_succ]

/-! ### A push -/

lemma DspStage.Counted.seed (h : st.Counted) {kind offset total : ℕ}
    (hs : st.seed kind offset total = some st') :
    st'.Counted ∧ st'.kind = kind ∧ st'.totalSize = total := by
  simp only [DspStage.seed] at hs
  split at hs
  · next h₀ =>
    cases hs
    exact ⟨.fresh st fun k => h.above k (h₀ ▸ Nat.zero_le k), rfl, rfl⟩
  split at hs
  · split at hs
    · cases hs
    · cases hs
      exact ⟨.fresh .zero fun _ => rfl, rfl, rfl⟩
  · next hsame =>
    cases hs
    rw [not_or, not_not, not_not] at hsame
    exact ⟨h, hsame.1, hsame.2⟩

lemma DspStage.Counted.close (h : st.Counted) : st.close.Counted := ⟨h.count, h.above⟩

/-- Uploads keep the count. -/
lemma DspStage.Counted.push (h : st.Counted) (kind : ℕ) {offset total : ℕ} {chunk : List UInt8}
    (hfit : offset + chunk.length ≤ total) : (st.push kind offset total chunk).1.Counted := by
  simp only [DspStage.push]
  split
  · exact h
  · next st' hseed =>
    obtain ⟨hc, -, htotal⟩ := h.seed hseed
    split
    · split
      · exact hc
      · exact ((Counted.fresh .zero fun _ => rfl).fill hfit).close
    · exact (hc.fill (htotal ▸ hfit)).close

/-- A stage that holds exactly a payload. -/
structure DspStage.Holds (st : DspStage) (kind : ℕ) (payload : List UInt8) : Prop where
  kind : st.kind = kind
  totalSize : st.totalSize = payload.length
  complete : st.complete = true
  data : ∀ j < payload.length, st.data j = payload.getD j 0

/-- A covered stage is complete. -/
lemma DspStage.Counted.complete_close (h : st.Counted)
    (hcov : ∀ j < st.totalSize, st.coverage j = true) : st.close.complete = true := by
  have hall : (List.range st.totalSize).countP st.coverage = (List.range st.totalSize).length :=
    List.countP_eq_length.mpr fun j hj => hcov j (List.mem_range.mp hj)
  simp only [DspStage.close, h.count, hall, List.length_range, beq_self_eq_true]

/-- The full payload over a stage with the same metadata and no conflict. -/
lemma DspStage.Counted.holds_fill (h : st.Counted) {payload : List UInt8}
    (htotal : st.totalSize = payload.length)
    (hdata : ∀ j < payload.length, st.coverage j = true → st.data j = payload.getD j 0) :
    (st.fill 0 payload).close.Holds st.kind payload := by
  have hspec (j : ℕ) := st.fill_spec 0 payload j
  refine ⟨st.fill_kind 0 payload, (st.fill_totalSize 0 payload).trans htotal, ?_, fun j hj => ?_⟩
  · refine (h.fill (by omega)).complete_close fun j hj => ?_
    rw [fill_totalSize, htotal] at hj
    simp [(hspec j).1, hj]
  · show (st.fill 0 payload).data j = _
    rw [(hspec j).2]
    cases hcov : st.coverage j with
    | false => simp [hj]
    | true => simpa using hdata j hj hcov

/-- A full payload at offset zero takes hold of any stage. -/
lemma DspStage.Counted.push_full (h : st.Counted) (kind : ℕ) (payload : List UInt8) :
    (st.push kind 0 payload.length payload).1.Holds kind payload ∧
      (st.push kind 0 payload.length payload).2 = .ok := by
  obtain ⟨st', hseed⟩ : ∃ st', st.seed kind 0 payload.length = some st' := by
    simp only [DspStage.seed]
    split
    · exact ⟨_, rfl⟩
    split
    · exact ⟨_, if_neg (not_not.mpr rfl)⟩
    · exact ⟨_, rfl⟩
  obtain ⟨hc, hkind, htotal⟩ := h.seed hseed
  have hno : ¬ ((0 : ℕ) ≠ 0 ∨ payload.length ≠ payload.length) := by simp
  simp only [DspStage.push, hseed, if_neg hno]
  split
  · refine ⟨?_, rfl⟩
    have hfresh : ({ DspStage.zero with kind, totalSize := payload.length } : DspStage).Counted :=
      .fresh .zero fun _ => rfl
    exact hfresh.holds_fill rfl fun j _ hcov => absurd hcov Bool.noConfusion
  · next hconf =>
    refine ⟨?_, rfl⟩
    rw [← hkind]
    refine hc.holds_fill htotal fun j hj hcov => ?_
    simpa using data_of_not_conflicting (by simpa using hconf) (Nat.zero_le j) (by omega) hcov

end Gd32Bridge
