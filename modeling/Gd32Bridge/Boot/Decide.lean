import Gd32Bridge.Ota.Meta

/-!
# Boot-slot selection (`src/boot/boot_decide.c`)

The bootloader reads the two metadata pages, orders the CRC-valid records newest first, checks
the image each of them names, and lets `ota_boot_select` choose.
-/

namespace Gd32Bridge

open Memory Endian

namespace Boot

/-- The bootloader's own `meta_read`: the header is looked at before the rest is mapped. -/
def metaRead (f : Flash) (addr : UInt32) : Option MetaRecord :=
  let header := f.bytes addr 8
  if getLe32 header 0 ≠ otaMetaMagic ∨ getLe32 header 4 ≠ otaMetaStructVer then none
  else
    let p := f.bytes addr recSize
    if otaCrc32 0 (p.take recCrcOff) = getLe32 p recCrcOff then some (MetaRecord.decode p) else none

/-- `meta_candidates`: the CRC-valid records, newest first. -/
def metaCandidates (f : Flash) : List MetaRecord :=
  match metaRead f otaMetaRec0, metaRead f otaMetaRec1 with
  | some a, some b => if a.counter ≥ b.counter then [a, b] else [b, a]
  | some a, none => [a]
  | none, some b => [b]
  | none, none => []

/-- The image `active_slot_valid` maps for a record, once the record's own fields pass. -/
def mappedImage (r : MetaRecord) : Option (Slot × UInt32) :=
  match Slot.ofCode r.activeSlot with
  | none => none
  | some s =>
    let length := r.imgLen.get s
    if !r.valid s then none
    else if length = 0 ∨ length > otaSlotSize then none
    else some (s, length)

/-- `active_slot_valid` -/
def activeSlotValid (f : Flash) (r : MetaRecord) : Bool :=
  match mappedImage r with
  | none => false
  | some (s, length) =>
    let image := f.bytes s.base length.toNat
    if otaCrc32 0 image ≠ r.imgCrc32.get s then false
    else otaImageBootable s.base image length

end Boot

/-- `boot_decision_t`, with the slot for `slot_base`. -/
structure BootDecision where
  slot : Slot
  trial : Bool
  lastResort : Bool
deriving DecidableEq, Repr

/-- `slot_base` -/
def BootDecision.slotBase (d : BootDecision) : UInt32 :=
  d.slot.base

/-- `boot_decide_slot`; `none` when it returns false -/
def bootDecideSlot (f : Flash) (wdtFired : Bool) : Option BootDecision :=
  let cands := (Boot.metaCandidates f).map fun r => (r, Boot.activeSlotValid f r)
  match otaBootSelect cands wdtFired with
  | none => none
  | some (r, lastResort) =>
    match Slot.ofCode r.activeSlot with
    | none => none
    | some s => some ⟨s, r.trial, lastResort⟩

/-! ### Facts -/

namespace Boot

/-- The two readers accept the same pages. -/
lemma metaRead_eq (f : Flash) (addr : UInt32) : metaRead f addr = Gd32Bridge.metaRead f addr := by
  have hsplit : f.bytes addr recSize = f.bytes addr 8 ++ (Memory.read f (addr.toNat + 8) 36).map
      Cell.byte := by
    rw [Flash.bytes, Flash.bytes, ← List.map_append, ← read_add]
    rfl
  have h₀ : getLe32 (f.bytes addr recSize) 0 = getLe32 (f.bytes addr 8) 0 := by
    rw [hsplit, getLe32_append_left _ _ _ (by simp)]
  have h₄ : getLe32 (f.bytes addr recSize) 4 = getLe32 (f.bytes addr 8) 4 := by
    rw [hsplit, getLe32_append_left _ _ _ (by simp)]
  simp only [metaRead, Gd32Bridge.metaRead, recordOk, h₀, h₄, Bool.and_eq_true, beq_iff_eq]
  by_cases hm : getLe32 (f.bytes addr 8) 0 = otaMetaMagic
  · by_cases hv : getLe32 (f.bytes addr 8) 4 = otaMetaStructVer
    · simp [hm, hv]
    · simp [hv]
  · simp [hm]

/-- The candidates are the readable records of the two pages. -/
lemma mem_metaCandidates {f : Flash} {r : MetaRecord} :
    r ∈ metaCandidates f ↔ ∃ p, metaPages f p = some r := by
  have hrw : metaCandidates f = match metaPages f .rec0, metaPages f .rec1 with
      | some a, some b => if a.counter ≥ b.counter then [a, b] else [b, a]
      | some a, none => [a]
      | none, some b => [b]
      | none, none => [] := by
    simp only [metaCandidates, metaRead_eq]
    rfl
  have hex : (∃ p, metaPages f p = some r) ↔
      metaPages f .rec0 = some r ∨ metaPages f .rec1 = some r := by
    constructor
    · rintro ⟨p, h⟩
      cases p
      · exact .inl h
      · exact .inr h
    · rintro (h | h)
      · exact ⟨_, h⟩
      · exact ⟨_, h⟩
  rw [hrw, hex]
  cases metaPages f .rec0 with
  | none => cases metaPages f .rec1 <;> simp [eq_comm]
  | some a =>
    cases metaPages f .rec1 with
    | none => simp [eq_comm]
    | some b =>
      simp only
      split_ifs
      · simp [eq_comm]
      · simp [eq_comm, or_comm]

lemma mappedImage_eq_some {r : MetaRecord} {s : Slot} {n : UInt32} :
    mappedImage r = some (s, n) ↔ r.activeSlot = s.code ∧ r.valid s = true ∧ n = r.imgLen.get s ∧
      n ≠ 0 ∧ n ≤ otaSlotSize := by
  simp only [mappedImage]
  cases hs : Slot.ofCode r.activeSlot with
  | none =>
    simp only [reduceCtorEq, false_iff, not_and]
    intro h
    rw [h, Slot.ofCode_code] at hs
    cases hs
  | some t =>
    rw [Slot.ofCode_eq_some] at hs
    rw [hs, Slot.code_inj]
    constructor
    · intro h
      simp only at h
      split_ifs at h with hv hl
      cases h
      rw [not_or] at hl
      exact ⟨rfl, by simpa using hv, rfl, hl.1, UInt32.not_lt.mp hl.2⟩
    · rintro ⟨rfl, hv, rfl, h₀, h₁⟩
      simp [hv, h₀, h₁]

/-- What `active_slot_valid` asks of a record that names slot `s`. -/
lemma activeSlotValid_iff {f : Flash} {r : MetaRecord} :
    activeSlotValid f r = true ↔ ∃ s n, mappedImage r = some (s, n) ∧
      otaCrc32 0 (f.bytes s.base n.toNat) = r.imgCrc32.get s ∧
      otaImageBootable s.base (f.bytes s.base n.toNat) n = true := by
  simp only [activeSlotValid]
  cases h : mappedImage r with
  | none => simp
  | some p =>
    obtain ⟨s, n⟩ := p
    simp

end Boot

/-- The selection fails only when no candidate is valid. -/
lemma otaBootSelect_eq_none {cands : List (MetaRecord × Bool)} {wdt : Bool} :
    otaBootSelect cands wdt = none ↔ ∀ c ∈ cands, c.2 = false := by
  simp only [otaBootSelect]
  constructor
  · intro h c hc
    split at h
    · cases h
    · next h₁ =>
      split at h
      · cases h
      · next h₂ =>
        have h₁ := List.find?_eq_none.mp h₁ c hc
        have h₂ := List.find?_eq_none.mp h₂ c hc
        -- a valid candidate passes the gate or fails it: one of the passes takes it
        cases hv : c.2 with
        | false => rfl
        | true => cases hok : otaBootCandidateOk c.1 wdt <;> simp [hv, hok] at h₁ h₂
  · intro h
    have h₁ : cands.find? (fun c => c.2 && otaBootCandidateOk c.1 wdt) = none :=
      List.find?_eq_none.mpr fun c hc => by simp [h c hc]
    have h₂ : cands.find? (fun c => c.2 && !otaBootCandidateOk c.1 wdt) = none :=
      List.find?_eq_none.mpr fun c hc => by simp [h c hc]
    rw [h₁, h₂]

/-- The winner is a valid candidate. -/
lemma otaBootSelect_mem {cands : List (MetaRecord × Bool)} {wdt lr : Bool} {r : MetaRecord}
    (h : otaBootSelect cands wdt = some (r, lr)) : (r, true) ∈ cands := by
  have hmem : ∀ {c : MetaRecord × Bool} {q : MetaRecord × Bool → Bool},
      cands.find? (fun c => c.2 && q c) = some c → (c.1, true) ∈ cands := by
    intro c q hc
    have hv := List.find?_some hc
    rw [Bool.and_eq_true] at hv
    rw [← hv.1]
    exact List.mem_of_find?_eq_some hc
  simp only [otaBootSelect] at h
  split at h
  · next c hc =>
    cases h
    exact hmem hc
  · split at h
    · next c hc =>
      cases h
      exact hmem hc
    · cases h

/-- A decision names the slot of a readable record that validates. -/
lemma bootDecideSlot_eq_some {f : Flash} {wdt : Bool} {d : BootDecision}
    (h : bootDecideSlot f wdt = some d) :
    ∃ p r, metaPages f p = some r ∧ Boot.activeSlotValid f r = true ∧
      r.activeSlot = d.slot.code ∧ d.trial = r.trial := by
  simp only [bootDecideSlot] at h
  split at h
  · cases h
  · next r lr hsel =>
    obtain ⟨r', hr', heq⟩ := List.mem_map.mp (otaBootSelect_mem hsel)
    obtain ⟨rfl, hv⟩ := Prod.mk.inj heq
    split at h
    · cases h
    · next s hs =>
      cases h
      obtain ⟨p, hp⟩ := Boot.mem_metaCandidates.mp hr'
      exact ⟨p, _, hp, hv, Slot.ofCode_eq_some.mp hs, rfl⟩

/-- There is something to boot exactly when one of the pages names a slot that validates. -/
lemma bootDecideSlot_isSome_iff {f : Flash} {wdt : Bool} :
    (bootDecideSlot f wdt).isSome ↔
      ∃ p r, metaPages f p = some r ∧ Boot.activeSlotValid f r = true := by
  constructor
  · intro h
    obtain ⟨d, hd⟩ := Option.isSome_iff_exists.mp h
    obtain ⟨p, r, hp, hv, -⟩ := bootDecideSlot_eq_some hd
    exact ⟨p, r, hp, hv⟩
  · rintro ⟨p, r, hp, hv⟩
    simp only [bootDecideSlot]
    split
    · next hnone =>
      have hc := Boot.mem_metaCandidates.mpr ⟨p, hp⟩
      have := otaBootSelect_eq_none.mp hnone _ (List.mem_map.mpr ⟨r, hc, rfl⟩)
      simp [hv] at this
    · next r' lr hsel =>
      obtain ⟨r'', -, heq⟩ := List.mem_map.mp (otaBootSelect_mem hsel)
      obtain ⟨rfl, hv'⟩ := Prod.mk.inj heq
      obtain ⟨s, n, hm, -⟩ := Boot.activeSlotValid_iff.mp hv'
      rw [(Boot.mappedImage_eq_some.mp hm).1, Slot.ofCode_code]
      rfl

end Gd32Bridge
