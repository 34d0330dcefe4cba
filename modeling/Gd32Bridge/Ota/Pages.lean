import Gd32Bridge.Boot.Decide
import Gd32Bridge.Ota.Basic

/-!
# The two record pages

What the page-picking functions pick, what a metadata write puts into a record, and the relation
between the record that names the running slot and the page the rank rule erases: the rule
always spares the former (`metaRankTarget_spares`).
-/

namespace Gd32Bridge

open Memory

/-! ### What a record says about a slot -/

namespace MetaRecord

/-- The record names `s` as the active slot. -/
def Names (r : MetaRecord) (s : Slot) : Prop :=
  r.activeSlot = s.code

instance (r : MetaRecord) (s : Slot) : Decidable (r.Names s) :=
  inferInstanceAs (Decidable (_ = _))

/-- The record marks `s` valid and gives it a length. -/
def Vouches (r : MetaRecord) (s : Slot) : Prop :=
  r.valid s = true ∧ r.imgLen.get s ≠ 0

instance (r : MetaRecord) (s : Slot) : Decidable (r.Vouches s) :=
  inferInstanceAs (Decidable (_ ∧ _))

lemma Names.unique {r : MetaRecord} {s t : Slot} (hs : r.Names s) (ht : r.Names t) : s = t :=
  Slot.code_injective (hs.symm.trans ht)

lemma Names.not_other {r : MetaRecord} {s : Slot} (hs : r.Names s) : ¬ r.Names s.other :=
  fun h => Slot.ne_other s (hs.unique h)

end MetaRecord

/-- The bytes of slot `s` match the CRC the record gives for it. -/
def CrcMatches (f : Flash) (r : MetaRecord) (s : Slot) : Prop :=
  otaCrc32 0 (f.bytes s.base (r.imgLen.get s).toNat) = r.imgCrc32.get s

instance (f : Flash) (r : MetaRecord) (s : Slot) : Decidable (CrcMatches f r s) :=
  inferInstanceAs (Decidable (_ = _))

/-- The record's descriptor of slot `s` passes every check the bootloader makes. -/
structure SlotOk (f : Flash) (r : MetaRecord) (s : Slot) : Prop where
  vouches : r.Vouches s
  le_size : r.imgLen.get s ≤ otaSlotSize
  crc : CrcMatches f r s
  bootable : otaImageBootable s.base (f.bytes s.base (r.imgLen.get s).toNat) (r.imgLen.get s) = true

/-- `active_slot_valid`, in terms of the slot the record names. -/
lemma activeSlotValid_iff_slotOk {f : Flash} {r : MetaRecord} :
    Boot.activeSlotValid f r = true ↔ ∃ s, r.Names s ∧ SlotOk f r s := by
  rw [Boot.activeSlotValid_iff]
  constructor
  · rintro ⟨s, n, hm, hcrc, hboot⟩
    obtain ⟨hs, hv, rfl, h₀, hle⟩ := Boot.mappedImage_eq_some.mp hm
    exact ⟨s, hs, ⟨hv, h₀⟩, hle, hcrc, hboot⟩
  · rintro ⟨s, hs, h⟩
    exact ⟨s, _, Boot.mappedImage_eq_some.mpr ⟨hs, h.vouches.1, rfl, h.vouches.2, h.le_size⟩,
      h.crc, h.bootable⟩

/-! ### Slot regions -/

/-- The cells of a slot. -/
def Slot.region (s : Slot) : Set ℕ :=
  Set.Ico s.base.toNat (s.base.toNat + otaSlotSize.toNat)

lemma Slot.region_eq (s : Slot) : s.region = Set.Ico s.base.toNat (s.base.toNat + 0x36000) := rfl

lemma Slot.region_disjoint (s : Slot) : Disjoint s.region s.other.region := by
  rw [Set.disjoint_left, Slot.region_eq, Slot.region_eq]
  have ha : Slot.A.base.toNat = 0x0800A000 := rfl
  have hb : Slot.B.base.toNat = 0x08040000 := rfl
  rintro a ⟨h₁, h₂⟩ ⟨h₃, h₄⟩
  cases s <;> simp only [Slot.other, ha, hb] at * <;> omega

lemma MetaPage.region_disjoint_slot (p : MetaPage) (s : Slot) : Disjoint p.region s.region := by
  rw [Set.disjoint_left, MetaPage.region_eq, Slot.region_eq]
  have ha : Slot.A.base.toNat = 0x0800A000 := rfl
  have hb : Slot.B.base.toNat = 0x08040000 := rfl
  have h0 : MetaPage.rec0.addr.toNat = 0x08008000 := rfl
  have h1 : MetaPage.rec1.addr.toNat = 0x08008800 := rfl
  rintro a ⟨h₁, h₂⟩ ⟨h₃, h₄⟩
  cases s <;> cases p <;> simp only [ha, hb, h0, h1] at * <;> omega

/-- Two flashes agree on slot `s`. -/
def SameSlot (f f' : Flash) (s : Slot) : Prop :=
  ∀ n, n ≤ otaSlotSize.toNat → f'.bytes s.base n = f.bytes s.base n

lemma SameSlot.refl (f : Flash) (s : Slot) : SameSlot f f s :=
  fun _ _ => rfl

lemma SameSlot.of_unchanged {f f' : Flash} {R : Set ℕ} {s : Slot} (h : Unchanged R f f')
    (hd : Disjoint s.region R) : SameSlot f f' s := by
  intro n hn
  rw [Flash.bytes, Flash.bytes, h.read_eq (hd.mono_left (Set.Ico_subset_Ico_right (by omega)))]

lemma SlotOk.congr {f f' : Flash} {r r' : MetaRecord} {s : Slot} (h : SlotOk f r s)
    (hf : SameSlot f f' s) (hv : r'.valid s = r.valid s) (hl : r'.imgLen.get s = r.imgLen.get s)
    (hc : r'.imgCrc32.get s = r.imgCrc32.get s) : SlotOk f' r' s := by
  have hb : f'.bytes s.base (r.imgLen.get s).toNat = f.bytes s.base (r.imgLen.get s).toNat :=
    hf _ h.le_size
  refine ⟨⟨hv ▸ h.vouches.1, hl ▸ h.vouches.2⟩, hl ▸ h.le_size, ?_, ?_⟩
  · rw [CrcMatches, hl, hc, hb]
    exact h.crc
  · rw [hl, hb]
    exact h.bootable

lemma SlotOk.of_same {f f' : Flash} {r : MetaRecord} {s : Slot} (h : SlotOk f r s)
    (hf : SameSlot f f' s) : SlotOk f' r s :=
  h.congr hf rfl rfl rfl

lemma SameSlot.symm {f f' : Flash} {s : Slot} (h : SameSlot f f' s) : SameSlot f' f s :=
  fun n hn => (h n hn).symm

/-! ### Picking the newest record -/

/-- The newest record is on its page, and the other page holds nothing newer. -/
lemma metaCurrent_eq_some {f : Flash} {n : MetaRecord} {p : MetaPage}
    (h : metaCurrent f = some (n, p)) :
    metaPages f p = some n ∧ ∀ r, metaPages f p.other = some r → r.counter ≤ n.counter := by
  simp only [metaCurrent] at h
  cases ha : metaPages f .rec0 with
  | none =>
    cases hb : metaPages f .rec1 with
    | none => simp [ha, hb, metaPickNewest] at h
    | some b =>
      simp only [ha, hb, metaPickNewest, Option.some.injEq, Prod.mk.injEq] at h
      obtain ⟨rfl, rfl⟩ := h
      exact ⟨hb, fun r hr => by simp [MetaPage.other, ha] at hr⟩
  | some a =>
    cases hb : metaPages f .rec1 with
    | none =>
      simp only [ha, hb, metaPickNewest, Option.some.injEq, Prod.mk.injEq] at h
      obtain ⟨rfl, rfl⟩ := h
      exact ⟨ha, fun r hr => by simp [MetaPage.other, hb] at hr⟩
    | some b =>
      simp only [ha, hb, metaPickNewest] at h
      split_ifs at h with hc
      · cases h
        refine ⟨ha, fun r hr => ?_⟩
        simp only [MetaPage.other, hb, Option.some.injEq] at hr
        exact hr ▸ hc
      · cases h
        refine ⟨hb, fun r hr => ?_⟩
        simp only [MetaPage.other, ha, Option.some.injEq] at hr
        exact hr ▸ (UInt32.le_of_lt (UInt32.not_le.mp hc))

lemma metaCurrent_eq_none {f : Flash} : metaCurrent f = none ↔ ∀ p, metaPages f p = none := by
  constructor
  · intro h
    simp only [metaCurrent] at h
    cases ha : metaPages f .rec0 with
    | none =>
      cases hb : metaPages f .rec1 with
      | none =>
        intro p
        cases p
        · exact ha
        · exact hb
      | some b => simp [ha, hb, metaPickNewest] at h
    | some a =>
      cases hb : metaPages f .rec1 with
      | none => simp [ha, hb, metaPickNewest] at h
      | some b =>
        simp only [ha, hb, metaPickNewest] at h
        split_ifs at h
  · intro h
    simp [metaCurrent, h, metaPickNewest]

/-- A record that beats the one on the other page is the newest. -/
lemma metaCurrent_of_gt {f : Flash} {n : MetaRecord} {p : MetaPage} (hp : metaPages f p = some n)
    (hgt : ∀ r, metaPages f p.other = some r → r.counter < n.counter) :
    metaCurrent f = some (n, p) := by
  cases ho : metaPages f p.other with
  | none => cases p <;> simp [metaCurrent, MetaPage.other] at hp ho ⊢ <;> simp [hp, ho, metaPickNewest]
  | some r =>
    have hlt := hgt r ho
    cases p with
    | rec0 =>
      simp only [MetaPage.other] at ho
      simp [metaCurrent, hp, ho, metaPickNewest, UInt32.le_of_lt hlt]
    | rec1 =>
      simp only [MetaPage.other] at ho
      simp [metaCurrent, hp, ho, metaPickNewest, hlt]

/-- The newest record dominates every readable one. -/
lemma metaCurrent_max {f : Flash} {n r : MetaRecord} {p q : MetaPage}
    (h : metaCurrent f = some (n, p)) (hr : metaPages f q = some r) : r.counter ≤ n.counter := by
  obtain ⟨hp, hle⟩ := metaCurrent_eq_some h
  rcases MetaPage.eq_or_eq_other q p with rfl | rfl
  · rw [hp] at hr
    cases hr
    exact UInt32.le_refl _
  · exact hle r hr

lemma exists_metaCurrent {f : Flash} {r : MetaRecord} {p : MetaPage} (h : metaPages f p = some r) :
    ∃ n q, metaCurrent f = some (n, q) := by
  cases hc : metaCurrent f with
  | none =>
    rw [metaCurrent_eq_none.mp hc p] at h
    cases h
  | some nq => exact ⟨nq.1, nq.2, rfl⟩

lemma metaSeed_of_current {f : Flash} {n : MetaRecord} {p : MetaPage}
    (h : metaCurrent f = some (n, p)) : metaSeed f = n := by
  simp [metaSeed, h]

lemma metaCurrent_congr {f f' : Flash} (h : ∀ p, metaPages f' p = metaPages f p) :
    metaCurrent f' = metaCurrent f := by
  simp only [metaCurrent, h]

/-! ### Two candidates -/

/-- The newest record comes first, then the other page's. -/
lemma Boot.metaCandidates_of_current {f : Flash} {n r : MetaRecord} {q : MetaPage}
    (hn : metaCurrent f = some (n, q)) (hr : metaPages f q.other = some r) :
    Boot.metaCandidates f = [n, r] := by
  have h₀ : Boot.metaRead f otaMetaRec0 = metaPages f .rec0 := Boot.metaRead_eq f _
  have h₁ : Boot.metaRead f otaMetaRec1 = metaPages f .rec1 := Boot.metaRead_eq f _
  have hp := (metaCurrent_eq_some hn).1
  simp only [Boot.metaCandidates, h₀, h₁]
  cases q with
  | rec0 =>
    simp only [MetaPage.other] at hr
    simp only [metaCurrent, hp, hr, metaPickNewest] at hn ⊢
    split_ifs at hn ⊢ with hc
    · rfl
    · cases hn
  | rec1 =>
    simp only [MetaPage.other] at hr
    simp only [metaCurrent, hp, hr, metaPickNewest] at hn ⊢
    split_ifs at hn ⊢ with hc
    · cases hn
    · rfl

section

variable {f : Flash} {n r : MetaRecord} {q : MetaPage} {N R : Slot}

/-- Without a watchdog reset a newest record that validates is booted. -/
lemma bootDecideSlot_newest (hn : metaCurrent f = some (n, q)) (hr : metaPages f q.other = some r)
    (hnames : n.Names N) (hv : Boot.activeSlotValid f n = true) :
    bootDecideSlot f false = some ⟨N, n.trial, false⟩ := by
  have hcode : Slot.ofCode n.activeSlot = some N := Slot.ofCode_eq_some.mpr hnames
  simp [bootDecideSlot, Boot.metaCandidates_of_current hn hr, otaBootSelect, otaBootCandidateOk, hv,
    hcode]

/-- After a watchdog reset a newest record on trial is passed over for the other one, if that
one validates and is confirmed. -/
lemma bootDecideSlot_fallback (hn : metaCurrent f = some (n, q)) (hr : metaPages f q.other = some r)
    (ht : n.trial = true) (hnames : r.Names R) (hv : Boot.activeSlotValid f r = true)
    (hc : r.trial = false) : bootDecideSlot f true = some ⟨R, false, false⟩ := by
  have hcode : Slot.ofCode r.activeSlot = some R := Slot.ofCode_eq_some.mpr hnames
  simp [bootDecideSlot, Boot.metaCandidates_of_current hn hr, otaBootSelect, otaBootCandidateOk, ht,
    hv, hc, hcode]

/-- A newest record that is confirmed is booted even after a watchdog reset. -/
lemma bootDecideSlot_confirmed (hn : metaCurrent f = some (n, q))
    (hr : metaPages f q.other = some r) (hnames : n.Names N)
    (hv : Boot.activeSlotValid f n = true) (ht : n.trial = false) :
    bootDecideSlot f true = some ⟨N, false, false⟩ := by
  have hcode : Slot.ofCode n.activeSlot = some N := Slot.ofCode_eq_some.mpr hnames
  simp [bootDecideSlot, Boot.metaCandidates_of_current hn hr, otaBootSelect, otaBootCandidateOk, ht,
    hv, hcode]

/-- If both are on trial, the last-resort pass takes the newest after all. -/
lemma bootDecideSlot_lastResort (hn : metaCurrent f = some (n, q))
    (hr : metaPages f q.other = some r) (ht : n.trial = true) (hnames : n.Names N)
    (hv : Boot.activeSlotValid f n = true) (hc : r.trial = true) :
    bootDecideSlot f true = some ⟨N, true, true⟩ := by
  have hcode : Slot.ofCode n.activeSlot = some N := Slot.ofCode_eq_some.mpr hnames
  simp [bootDecideSlot, Boot.metaCandidates_of_current hn hr, otaBootSelect, otaBootCandidateOk, ht,
    hv, hc, hcode]

end

/-! ### Picking the record of the running slot -/

/-- The record found names the running slot, and beats any other that does. -/
lemma findRunningSlotRecord_eq_some {f : Flash} {run : Slot} {r : MetaRecord} {p : MetaPage}
    (h : findRunningSlotRecord f run = some (r, p)) :
    metaPages f p = some r ∧ r.Names run ∧
      ∀ r', metaPages f p.other = some r' → r'.Names run → r'.counter ≤ r.counter := by
  simp only [findRunningSlotRecord] at h
  cases ha : metaPages f .rec0 with
  | none =>
    cases hb : metaPages f .rec1 with
    | none => simp [ha, hb] at h
    | some b =>
      simp only [ha, hb] at h
      split_ifs at h with hn
      cases h
      exact ⟨hb, hn, fun r' hr' => by simp [MetaPage.other, ha] at hr'⟩
  | some a =>
    cases hb : metaPages f .rec1 with
    | none =>
      simp only [ha, hb] at h
      split_ifs at h with hn
      cases h
      exact ⟨ha, hn, fun r' hr' => by simp [MetaPage.other, hb] at hr'⟩
    | some b =>
      simp only [ha, hb] at h
      by_cases hna : a.activeSlot = run.code
      · by_cases hnb : b.activeSlot = run.code
        · -- both pages name the running slot: the higher counter wins
          simp only [hna, hnb, if_true] at h
          split_ifs at h with hc
          · cases h
            refine ⟨hb, hnb, fun r' hr' _ => ?_⟩
            simp only [MetaPage.other, ha, Option.some.injEq] at hr'
            exact hr' ▸ UInt32.le_of_lt hc
          · cases h
            refine ⟨ha, hna, fun r' hr' _ => ?_⟩
            simp only [MetaPage.other, hb, Option.some.injEq] at hr'
            exact hr' ▸ UInt32.not_lt.mp hc
        · simp only [hna, if_true, if_neg hnb] at h
          cases h
          refine ⟨ha, hna, fun r' hr' hn' => ?_⟩
          simp only [MetaPage.other, hb, Option.some.injEq] at hr'
          exact absurd (hr' ▸ hn') hnb
      · simp only [if_neg hna] at h
        split_ifs at h with hnb
        cases h
        refine ⟨hb, hnb, fun r' hr' hn' => ?_⟩
        simp only [MetaPage.other, ha, Option.some.injEq] at hr'
        exact absurd (hr' ▸ hn') hna

/-- A record that names the running slot and beats any other that does is the one found. -/
lemma findRunningSlotRecord_of_gt {f : Flash} {run : Slot} {r : MetaRecord} {p : MetaPage}
    (hp : metaPages f p = some r) (hn : r.Names run)
    (hgt : ∀ r', metaPages f p.other = some r' → r'.Names run → r'.counter < r.counter) :
    findRunningSlotRecord f run = some (r, p) := by
  have hn' : r.activeSlot = run.code := hn
  cases ho : metaPages f p.other with
  | none =>
    cases p <;> simp only [MetaPage.other] at ho <;> simp [findRunningSlotRecord, hp, ho, hn']
  | some r' =>
    by_cases hr' : r'.activeSlot = run.code
    · have hlt := hgt r' ho hr'
      cases p <;> simp only [MetaPage.other] at ho <;>
        simp [findRunningSlotRecord, hp, ho, hn', hr', hlt, UInt32.le_of_lt hlt]
    · cases p <;> simp only [MetaPage.other] at ho <;>
        simp [findRunningSlotRecord, hp, ho, hn', hr']

lemma exists_findRunningSlotRecord {f : Flash} {run : Slot} {r : MetaRecord} {p : MetaPage}
    (hp : metaPages f p = some r) (hn : r.Names run) :
    ∃ r' q, findRunningSlotRecord f run = some (r', q) := by
  have hn' : r.activeSlot = run.code := hn
  cases hf : findRunningSlotRecord f run with
  | some x => exact ⟨x.1, x.2, rfl⟩
  | none =>
    exfalso
    cases p with
    | rec0 =>
      simp only [findRunningSlotRecord, hp, hn', if_true] at hf
      split at hf
      · cases hf
      · split_ifs at hf
    | rec1 =>
      simp only [findRunningSlotRecord, hp, hn', if_true] at hf
      split at hf
      · cases hf
      · split_ifs at hf

/-- When the newest record names the running slot, it is the one found. -/
lemma findRunningSlotRecord_of_current {f : Flash} {run : Slot} {n : MetaRecord} {p : MetaPage}
    (h : metaCurrent f = some (n, p)) (hn : n.Names run) :
    findRunningSlotRecord f run = some (n, p) := by
  have hn' : n.activeSlot = run.code := hn
  simp only [metaCurrent] at h
  cases ha : metaPages f .rec0 with
  | none =>
    cases hb : metaPages f .rec1 with
    | none => simp [ha, hb, metaPickNewest] at h
    | some b =>
      simp only [ha, hb, metaPickNewest, Option.some.injEq, Prod.mk.injEq] at h
      obtain ⟨rfl, rfl⟩ := h
      simp [findRunningSlotRecord, ha, hb, hn']
  | some a =>
    cases hb : metaPages f .rec1 with
    | none =>
      simp only [ha, hb, metaPickNewest, Option.some.injEq, Prod.mk.injEq] at h
      obtain ⟨rfl, rfl⟩ := h
      simp [findRunningSlotRecord, ha, hb, hn']
    | some b =>
      simp only [ha, hb, metaPickNewest] at h
      split_ifs at h with hc
      · cases h
        simp only [findRunningSlotRecord, ha, hb, hn', if_true]
        split_ifs with hb' hlt
        · exact absurd hlt (UInt32.not_lt.mpr hc)
        · rfl
        · rfl
      · cases h
        have hlt := UInt32.not_le.mp hc
        simp only [findRunningSlotRecord, ha, hb, hn', if_true]
        split_ifs with ha' <;> simp [hlt]

/-- The rank rule spares the page of the record that names the running slot. -/
lemma metaRankTarget_spares {f : Flash} {run : Slot} {r : MetaRecord} {p : MetaPage}
    (h : findRunningSlotRecord f run = some (r, p)) :
    metaRankTarget run (metaPages f .rec0) (metaPages f .rec1) = p.other := by
  obtain ⟨hp, hn, hmax⟩ := findRunningSlotRecord_eq_some h
  have hn' : r.activeSlot = run.code := hn
  cases p with
  | rec0 =>
    simp only [MetaPage.other] at hmax ⊢
    rw [hp]
    cases hb : metaPages f .rec1 with
    | none => simp [metaRankTarget, metaPageRank, hn']
    | some b =>
      by_cases hnb : b.activeSlot = run.code
      · have hle := hmax b hb hnb
        simp [metaRankTarget, metaPageRank, hn', hnb, hle]
      · simp [metaRankTarget, metaPageRank, hn', hnb]
  | rec1 =>
    simp only [MetaPage.other] at hmax ⊢
    rw [hp]
    cases ha : metaPages f .rec0 with
    | none => simp [metaRankTarget, metaPageRank, hn']
    | some a =>
      by_cases hna : a.activeSlot = run.code
      · -- both name the running slot, and the tie was broken towards the other page
        have hlt : a.counter < r.counter := by
          simp only [findRunningSlotRecord, ha, hp, hna, hn', if_true] at h
          split_ifs at h with hlt
          · exact hlt
          · cases h
        simp [metaRankTarget, metaPageRank, hn', hna, hlt]
      · simp [metaRankTarget, metaPageRank, hn', hna]

lemma MetaWrite.pageOn_of_rank {w : MetaWrite} {f : Flash} {run : Slot} {r : MetaRecord}
    {p : MetaPage} (hw : w.target = none) (h : findRunningSlotRecord f run = some (r, p)) :
    w.pageOn f run = p.other := by
  rw [pageOn, page, hw]
  exact metaRankTarget_spares h

lemma MetaWrite.pageOn_of_target {w : MetaWrite} {f : Flash} {run : Slot} {p : MetaPage}
    (hw : w.target = some p) : w.pageOn f run = p := by
  rw [pageOn, page, hw]

/-! ### The record a write makes -/

lemma slotBit_and_ne_zero (c : UInt8) (s : Slot) :
    slotBit c &&& slotBit s.code ≠ 0 ↔ c = s.code := by
  have h : ∀ b : BitVec 8, slotBit ⟨b⟩ &&& slotBit s.code ≠ 0 ↔ (⟨b⟩ : UInt8) = s.code := by
    cases s <;> decide +kernel
  exact h c.toBitVec

lemma or_and_ne_zero (x y z : UInt8) : (x ||| y) &&& z ≠ 0 ↔ x &&& z ≠ 0 ∨ y &&& z ≠ 0 := by
  have hd : (x ||| y) &&& z = (x &&& z) ||| (y &&& z) :=
    UInt8.toBitVec_inj.mp BitVec.and_or_distrib_right
  rw [hd, Ne, UInt8.or_eq_zero_iff, not_and_or]

/-- Clearing the bit of one slot clears it and leaves the other. -/
lemma clear_and_ne_zero (x : UInt8) (s t : Slot) :
    (x &&& ~~~(slotBit s.code)) &&& slotBit t.code ≠ 0 ↔ s ≠ t ∧ x &&& slotBit t.code ≠ 0 := by
  have hsame : ∀ u : Slot, ~~~(slotBit u.code) &&& slotBit u.code = 0 := by
    intro u
    cases u <;> decide
  have hdiff : ∀ u : Slot, ~~~(slotBit u.other.code) &&& slotBit u.code = slotBit u.code := by
    intro u
    cases u <;> decide
  rw [UInt8.and_assoc]
  rcases Slot.eq_or_eq_other s t with rfl | rfl
  · simp [hsame]
  · simp [hdiff]

namespace MetaWrite

variable (w : MetaWrite) (r : MetaRecord)

@[simp]
lemma apply_activeSlot : (w.apply r).activeSlot = w.activeSlot := by
  simp only [apply]
  split <;> split_ifs <;> rfl

@[simp]
lemma apply_flags : (w.apply r).flags = w.flags := by
  simp only [apply]
  split <;> split_ifs <;> rfl

@[simp]
lemma apply_counter : (w.apply r).counter = r.counter + 1 := by
  simp only [apply]
  split <;> split_ifs <;> rfl

lemma apply_trial : (w.apply r).trial = (w.flags &&& otaMetaFlagTrial != 0) := by
  rw [MetaRecord.trial, apply_flags]

lemma apply_slotValid : (w.apply r).slotValid =
    if w.invalidate = 0 ∨ w.invalidate = 1 then
      (r.slotValid ||| slotBit w.activeSlot) &&& ~~~(slotBit w.invalidate)
    else r.slotValid ||| slotBit w.activeSlot := by
  simp only [apply]
  split <;> split_ifs <;> rfl

/-- The active slot is marked valid on top of what was, the invalidated one is not. -/
lemma apply_valid (s : Slot) : (w.apply r).valid s = true ↔
    w.invalidate ≠ s.code ∧ (r.valid s = true ∨ w.activeSlot = s.code) := by
  simp only [MetaRecord.valid, bne_iff_ne, apply_slotValid]
  have hset : (r.slotValid ||| slotBit w.activeSlot) &&& slotBit s.code ≠ 0 ↔
      r.slotValid &&& slotBit s.code ≠ 0 ∨ w.activeSlot = s.code := by
    rw [or_and_ne_zero, slotBit_and_ne_zero]
  cases hi : Slot.ofCode w.invalidate with
  | some t =>
    have ht := Slot.ofCode_eq_some.mp hi
    have hcond : w.invalidate = 0 ∨ w.invalidate = 1 := by
      rw [ht]
      cases t <;> simp [Slot.code]
    rw [if_pos hcond, ht, clear_and_ne_zero, hset, Ne, Ne, Ne, Slot.code_inj]
  | none =>
    have hcond : ¬ (w.invalidate = 0 ∨ w.invalidate = 1) := by
      rintro (h | h) <;> rw [h] at hi <;> cases hi
    have hne : w.invalidate ≠ s.code := by
      intro h
      rw [h, Slot.ofCode_code] at hi
      cases hi
    rw [if_neg hcond, hset]
    simp [hne]

/-- The descriptor fields of a slot a write neither activates with a new entry nor
invalidates are carried forward. -/
lemma apply_carries {s : Slot} (hinv : w.invalidate ≠ s.code)
    (hent : w.entry = none ∨ w.activeSlot ≠ s.code) :
    (w.apply r).imgLen.get s = r.imgLen.get s ∧ (w.apply r).imgCrc32.get s = r.imgCrc32.get s := by
  have hset : ∀ (p : PerSlot UInt32) (c : UInt8) (v : UInt32), c ≠ s.code →
      (p.setByte c v).get s = p.get s := by
    intro p c v hc
    simp only [PerSlot.setByte]
    cases ht : Slot.ofCode c with
    | none => rfl
    | some t =>
      rw [Slot.ofCode_eq_some.mp ht, Ne, Slot.code_inj] at hc
      cases t <;> cases s <;> first | rfl | exact absurd rfl hc
  simp only [apply]
  split
  · split_ifs <;> simp [hset _ _ _ hinv]
  · next e he =>
    have hact : w.activeSlot ≠ s.code := hent.resolve_left (by simp [he])
    split_ifs <;> simp [hset _ _ _ hinv, hset _ _ _ hact]

/-- Invalidating a slot that gets no new entry zeroes its length. -/
lemma apply_invalidates {s : Slot} (hinv : w.invalidate = s.code) (hent : w.entry = none) :
    (w.apply r).imgLen.get s = 0 := by
  have hcond : s.code = 0 ∨ s.code = 1 := by
    cases s <;> simp [Slot.code]
  simp only [apply, hent, hinv, if_pos hcond, PerSlot.get_setByte_self]

/-- The entry of the slot a write activates. -/
lemma apply_entry {s : Slot} {e : ImageEntry} (hent : w.entry = some e)
    (hact : w.activeSlot = s.code) :
    (w.apply r).imgLen.get s = e.imgLen ∧ (w.apply r).imgCrc32.get s = e.imgCrc := by
  simp only [apply, hent, hact, PerSlot.get_setByte_self, and_self]

/-- Without a new entry the versions are carried forward. -/
lemma apply_fwVersion (hent : w.entry = none) : (w.apply r).fwVersion = r.fwVersion := by
  simp only [apply, hent]
  split_ifs <;> rfl

/-- A new entry sets the version of the slot it activates and carries the other. -/
lemma apply_fwVersion_entry {s : Slot} {e : ImageEntry} (hent : w.entry = some e)
    (hact : w.activeSlot = s.code) : (w.apply r).fwVersion.get s = e.fwVer ∧
      (w.apply r).fwVersion.get s.other = r.fwVersion.get s.other := by
  simp only [apply, hent, hact]
  split_ifs <;> simp

end MetaWrite

end Gd32Bridge
