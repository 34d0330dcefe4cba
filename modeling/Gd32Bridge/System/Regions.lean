import Gd32Bridge.BootConfig
import Gd32Bridge.Ota.Pages

/-!
# Where the flash calls go

The slot that is not running, the two metadata pages and the two boot-config pages are disjoint
regions.  The erase pump stays in the first, and so do the chunks; a store stays in the last.
-/

namespace Gd32Bridge

open Memory

/-! ### The guards -/

/-- The guards of the flash layer let through what lies in the slot that is not running. -/
lemma otaFmcRangeForbidden_other {run : Slot} {base len : UInt32}
    (h₁ : run.other.base.toNat ≤ base.toNat)
    (h₂ : base.toNat + len.toNat ≤ run.other.base.toNat + otaSlotSize.toNat) :
    otaFmcRangeForbidden run base len = false := by
  have hA : Slot.A.base.toNat = 0x0800A000 := rfl
  have hB : Slot.B.base.toNat = 0x08040000 := rfl
  have hA' : (Slot.A.base + otaSlotSize).toNat = 0x08040000 := rfl
  have hB' : (Slot.B.base + otaSlotSize).toNat = 0x08076000 := rfl
  have hsz : otaSlotSize.toNat = 0x36000 := rfl
  have hboot : (otaBootloaderBase + otaBootloaderSize).toNat = 0x08008000 := rfl
  have hmax : (0xFFFFFFFF : UInt32).toNat = 0xFFFFFFFF := rfl
  have hlo : 0x0800A000 ≤ base.toNat := by
    cases run <;> simp only [Slot.other, hA, hB] at h₁ <;> omega
  have hhi : base.toNat + len.toNat ≤ 0x08076000 := by
    cases run <;> simp only [Slot.other, hA, hB] at h₂ <;> omega
  have hend : (base + len).toNat = base.toNat + len.toNat := by
    rw [UInt32.toNat_add, Nat.mod_eq_of_lt (by omega)]
  have hwrap : ¬ len > 0xFFFFFFFF - base := by
    rw [gt_iff_lt, UInt32.lt_iff_toNat_lt, UInt32.toNat_sub_of_le]
    · omega
    · rw [UInt32.le_iff_toNat_le]
      omega
  have hb : ¬ (base < otaBootloaderBase + otaBootloaderSize ∧ otaBootloaderBase < base + len) := by
    rintro ⟨h, -⟩
    have h : base.toNat < (otaBootloaderBase + otaBootloaderSize).toNat := h
    omega
  have hr : ¬ (base < run.base + otaSlotSize ∧ run.base < base + len) := by
    rintro ⟨h, h'⟩
    have h : base.toNat < (run.base + otaSlotSize).toNat := h
    have h' : run.base.toNat < (base + len).toNat := h'
    cases run <;> simp only [Slot.other, hA, hB, hA', hB'] at h₁ h₂ h h' <;> omega
  simp only [otaFmcRangeForbidden, if_neg hwrap, if_neg hb, if_neg hr]

/-! ### The erase walk -/

/-- Number of `OTA_PAGE_SIZE` regions in a slot. -/
def slotRegions : ℕ := 108

/-- `at_` is the start of a region of the slot that is not running, `end_` is its end. -/
def WalkAt (run : Slot) (at_ end_ : UInt32) : Prop :=
  end_ = run.other.base + otaSlotSize ∧
    ∃ k < slotRegions, at_.toNat = run.other.base.toNat + k * 2048

/-- One region further in the walk, unless it was the last. -/
lemma WalkAt.next {run : Slot} {at_ end_ : UInt32} (h : WalkAt run at_ end_)
    (hlt : ¬ at_ + otaPageSize ≥ end_) : WalkAt run (at_ + otaPageSize) end_ := by
  obtain ⟨rfl, k, hk, hat⟩ := h
  have hbase : run.other.base.toNat ≤ 0x08040000 := by cases run <;> decide
  have hend : (run.other.base + otaSlotSize).toNat = run.other.base.toNat + 108 * 2048 := by
    cases run <;> decide
  simp only [slotRegions] at hk
  have hnext : (at_ + otaPageSize).toNat = run.other.base.toNat + (k + 1) * 2048 := by
    rw [UInt32.toNat_add, hat, show otaPageSize.toNat = 2048 from rfl, Nat.mod_eq_of_lt (by omega)]
    omega
  have hlt' := UInt32.lt_iff_toNat_lt.mp (UInt32.not_le.mp hlt)
  refine ⟨rfl, k + 1, ?_, hnext⟩
  simp only [slotRegions]
  omega

namespace WalkAt

variable {run : Slot} {at_ end_ : UInt32}

lemma inFlash (h : WalkAt run at_ end_) : (FmcCall.erase at_ otaPageSize).InFlash := by
  obtain ⟨-, k, hk, hat⟩ := h
  have hlo : 0x0800A000 ≤ run.other.base.toNat := by cases run <;> decide
  have hhi : run.other.base.toNat ≤ 0x08040000 := by cases run <;> decide
  have hal : run.other.base.toNat % 2048 = 0 := by cases run <;> decide
  have hboot : otaBootloaderBase.toNat = 0x08000000 := rfl
  have hps : otaPageSize.toNat = 2048 := rfl
  simp only [slotRegions] at hk
  simp only [FmcCall.InFlash, flashEnd, hps, hboot, hat]
  exact ⟨by omega, by omega, by omega, trivial⟩

/-- The region an erase step works on lies in the slot that is not running. -/
lemma span_subset (h : WalkAt run at_ end_) :
    (FmcCall.erase at_ otaPageSize).span ⊆ run.other.region := by
  obtain ⟨-, k, hk, hat⟩ := h
  have hps : otaPageSize.toNat = 2048 := rfl
  simp only [slotRegions] at hk
  simp only [FmcCall.span, Slot.region_eq, hps, hat]
  exact Set.Ico_subset_Ico (by omega) (by omega)

/-- Every region of the slot passes the guards of `ota_fmc_erase_range`. -/
lemma admits (h : WalkAt run at_ end_) : (FmcCall.erase at_ otaPageSize).admits run = true := by
  have hin := h.inFlash
  obtain ⟨-, k, hk, hat⟩ := h
  have hps : otaPageSize.toNat = 2048 := rfl
  have hsz : otaSlotSize.toNat = 0x36000 := rfl
  simp only [slotRegions] at hk
  have hmod : at_ % otaPageSize = 0 := by
    apply UInt32.toNat_inj.mp
    rw [UInt32.toNat_mod, hps]
    exact hin.2.2.1
  have hguard : otaFmcRangeForbidden run at_ otaPageSize = false :=
    otaFmcRangeForbidden_other (by omega) (by omega)
  simp only [FmcCall.admits, hmod, hguard]
  rfl

end WalkAt

/-! ### Chunks -/

section

variable {run : Slot} {off : UInt32} {data : List UInt8}

lemma chunk_toNat (s : Slot) (hfit : off.toNat + data.length ≤ otaSlotSize.toNat) :
    (s.base + off).toNat = s.base.toNat + off.toNat := by
  have hhi : s.base.toNat ≤ 0x08040000 := by cases s <;> decide
  have hsz : otaSlotSize.toNat = 0x36000 := rfl
  rw [UInt32.toNat_add, Nat.mod_eq_of_lt (by omega)]

lemma chunk_inFlash (s : Slot) (hoff : off.toNat % 8 = 0)
    (hfit : off.toNat + data.length ≤ otaSlotSize.toNat) :
    (FmcCall.program (s.base + off) data).InFlash := by
  have hlo : 0x0800A000 ≤ s.base.toNat := by cases s <;> decide
  have hhi : s.base.toNat ≤ 0x08040000 := by cases s <;> decide
  have hsz : otaSlotSize.toNat = 0x36000 := rfl
  have hboot : otaBootloaderBase.toNat = 0x08000000 := rfl
  simp only [FmcCall.InFlash, chunk_toNat s hfit, flashEnd, hboot]
  omega

/-- Every chunk passes the guards of `ota_fmc_program`. -/
lemma chunk_admits (hoff : off.toNat % 8 = 0) (hlen : data.length < 2 ^ 32)
    (hfit : off.toNat + data.length ≤ otaSlotSize.toNat) :
    (FmcCall.program (run.other.base + off) data).admits run = true := by
  have haddr := chunk_toNat run.other hfit
  have hbase : run.other.base.toNat % 8 = 0 := by cases run <;> decide
  have hl : (UInt32.ofNat data.length).toNat = data.length := by
    rw [UInt32.toNat_ofNat', Nat.mod_eq_of_lt hlen]
  have hmod : (run.other.base + off) % 8 = 0 := by
    apply UInt32.toNat_inj.mp
    rw [UInt32.toNat_mod, haddr]
    show (run.other.base.toNat + off.toNat) % 8 = 0
    omega
  have hguard : otaFmcRangeForbidden run (run.other.base + off) (.ofNat data.length) = false :=
    otaFmcRangeForbidden_other (by omega) (by omega)
  simp only [FmcCall.admits, hmod, hguard]
  rfl

/-- A chunk stays in its slot, the padding of its last doubleword included. -/
lemma chunk_span_subset (s : Slot) (hoff : off.toNat % 8 = 0)
    (hfit : off.toNat + data.length ≤ otaSlotSize.toNat) :
    (FmcCall.program (s.base + off) data).span ⊆ s.region := by
  have hsz : otaSlotSize.toNat = 0x36000 := rfl
  simp only [FmcCall.span, chunk_toNat s hfit, Slot.region_eq]
  exact Set.Ico_subset_Ico (by omega) (by omega)

end

/-! ### Boot-config stores -/

/-- The cells of a boot-config page. -/
def ConfigPage.region (p : ConfigPage) : Set ℕ :=
  Set.Ico p.addr.toNat (p.addr.toNat + otaPageSize.toNat)

lemma ConfigPage.region_eq (p : ConfigPage) :
    p.region = Set.Ico p.addr.toNat (p.addr.toNat + 2048) := rfl

lemma ConfigPage.region_disjoint_slot (p : ConfigPage) (s : Slot) : Disjoint s.region p.region := by
  rw [Set.disjoint_left, ConfigPage.region_eq, Slot.region_eq]
  have ha : Slot.A.base.toNat = 0x0800A000 := rfl
  have hb : Slot.B.base.toNat = 0x08040000 := rfl
  have h0 : ConfigPage.rec0.addr.toNat = 0x08076000 := rfl
  have h1 : ConfigPage.rec1.addr.toNat = 0x08076800 := rfl
  rintro a ⟨h₁, h₂⟩ ⟨h₃, h₄⟩
  cases s <;> cases p <;> simp only [ha, hb, h0, h1] at * <;> omega

lemma ConfigPage.region_disjoint_meta (p : ConfigPage) (q : MetaPage) :
    Disjoint q.region p.region := by
  rw [Set.disjoint_left, ConfigPage.region_eq, MetaPage.region_eq]
  have hm0 : MetaPage.rec0.addr.toNat = 0x08008000 := rfl
  have hm1 : MetaPage.rec1.addr.toNat = 0x08008800 := rfl
  have h0 : ConfigPage.rec0.addr.toNat = 0x08076000 := rfl
  have h1 : ConfigPage.rec1.addr.toNat = 0x08076800 := rfl
  rintro a ⟨h₁, h₂⟩ ⟨h₃, h₄⟩
  cases q <;> cases p <;> simp only [hm0, hm1, h0, h1] at * <;> omega

namespace ConfigStore

variable (s : ConfigStore) (ph : StorePhase)

lemma payload_length (r : ConfigRecord) : r.payload.length = 8 := by simp [ConfigRecord.payload]
lemma commit_length (r : ConfigRecord) : r.commit.length = 8 := by simp [ConfigRecord.commit]

lemma call_inFlash : (s.call ph).InFlash := by
  obtain ⟨p, r, fl⟩ := s
  cases ph <;> simp only [call, FmcCall.InFlash, payload_length, commit_length] <;>
    cases p <;> decide

/-- Each call of a store works on the store's page. -/
lemma call_span_subset : (s.call ph).span ⊆ s.page.region := by
  obtain ⟨p, r, fl⟩ := s
  have h0 : ConfigPage.rec0.addr.toNat = 0x08076000 := rfl
  have h1 : ConfigPage.rec1.addr.toNat = 0x08076800 := rfl
  have h0' : (ConfigPage.rec0.addr + bootConfigCommitOff).toNat = 0x08076008 := rfl
  have h1' : (ConfigPage.rec1.addr + bootConfigCommitOff).toNat = 0x08076808 := rfl
  cases ph with
  | erase => exact subset_rfl
  | payload =>
    simp only [call, FmcCall.span, payload_length, ConfigPage.region_eq]
    exact Set.Ico_subset_Ico_right (by omega)
  | commit =>
    simp only [call, FmcCall.span, commit_length, ConfigPage.region_eq]
    cases p <;> simp only [h0, h1, h0', h1'] <;> exact Set.Ico_subset_Ico (by omega) (by omega)

end ConfigStore

end Gd32Bridge
