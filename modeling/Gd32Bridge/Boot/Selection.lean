import Gd32Bridge.Boot.Decide

/-!
# What the bootloader selects

The selection in terms of the records on the two pages: the newest that validates and is not held
back by the watchdog, and failing that the newest that validates.  The application orders the same
records in the same way.
-/

namespace Gd32Bridge

/-! ### Bootable records -/

/-- A record whose active slot is one of the two, is marked valid, and holds an image of the
recorded length and CRC with vectors to boot from. -/
def Boots (f : Flash) (r : MetaRecord) : Prop :=
  ∃ s : Slot, r.activeSlot = s.code ∧ r.valid s = true ∧ 1 ≤ r.imgLen.get s ∧
    r.imgLen.get s ≤ otaSlotSize ∧
    otaCrc32 0 (f.bytes s.base (r.imgLen.get s).toNat) = r.imgCrc32.get s ∧
    otaImageBootable s.base (f.bytes s.base (r.imgLen.get s).toNat) (r.imgLen.get s) = true

lemma Boot.activeSlotValid_iff_boots {f : Flash} {r : MetaRecord} :
    activeSlotValid f r = true ↔ Boots f r := by
  have hpos : ∀ n : UInt32, n ≠ 0 ↔ 1 ≤ n := by
    intro n
    rw [UInt32.le_iff_toNat_le, Ne, ← UInt32.toNat_inj]
    exact Nat.pos_iff_ne_zero.symm
  rw [activeSlotValid_iff]
  constructor
  · rintro ⟨s, n, hm, hcrc, hboot⟩
    obtain ⟨hs, hv, rfl, h₀, hle⟩ := mappedImage_eq_some.mp hm
    exact ⟨s, hs, hv, (hpos _).mp h₀, hle, hcrc, hboot⟩
  · rintro ⟨s, hs, hv, h₀, hle, hcrc, hboot⟩
    exact ⟨s, _, mappedImage_eq_some.mpr ⟨hs, hv, rfl, (hpos _).mpr h₀, hle⟩, hcrc, hboot⟩

/-! ### Indexing -/

/-- `x[slot]` of a `uint32_t x[2]`, `none` for an index out of bounds. -/
def PerSlot.getByte {α : Type*} (p : PerSlot α) (slot : UInt8) : Option α :=
  if slot = 0 then some p.a else if slot = 1 then some p.b else none

/-- `active_slot_valid` with its array accesses spelled out; `none` when one of them is out of
bounds. -/
def Boot.activeSlotValidIndexed (f : Flash) (r : MetaRecord) : Option Bool :=
  let slot := r.activeSlot
  match otaSlotBaseChecked slot with
  | none => some false
  | some base => do
    let length ← r.imgLen.getByte slot
    if r.slotValid &&& slotBit slot = 0 then return false
    if length = 0 ∨ length > otaSlotSize then return false
    let image := f.bytes base length.toNat
    let crc ← r.imgCrc32.getByte slot
    if otaCrc32 0 image ≠ crc then return false
    return otaImageBootable base image length

lemma PerSlot.getByte_code {α : Type*} (p : PerSlot α) (s : Slot) :
    p.getByte s.code = some (p.get s) := by
  cases s <;> rfl

/-- The accesses stay within the arrays. -/
lemma Boot.activeSlotValidIndexed_eq (f : Flash) (r : MetaRecord) :
    activeSlotValidIndexed f r = some (activeSlotValid f r) := by
  simp only [activeSlotValidIndexed, activeSlotValid, mappedImage, otaSlotBaseChecked]
  cases hs : Slot.ofCode r.activeSlot with
  | none => rfl
  | some s =>
    rw [Slot.ofCode_eq_some.mp hs]
    simp only [Option.map_some, PerSlot.getByte_code, Option.bind_eq_bind, Option.bind_some,
      MetaRecord.valid]
    by_cases hv : r.slotValid &&& slotBit s.code = 0
    · simp [hv]
    by_cases hl : r.imgLen.get s = 0 ∨ r.imgLen.get s > otaSlotSize
    · simp [hv, hl]
    by_cases hc : otaCrc32 0 (f.bytes s.base (r.imgLen.get s).toNat) = r.imgCrc32.get s
    · simp [hv, hl, hc]
    · simp [hv, hl, hc]

/-! ### Newest first -/

/-- Among the readable records with `Q`, the one on page `p` is the newest: the others have lower
counters, or the same one and `p` is `REC0`. -/
structure NewestWith (f : Flash) (Q : MetaRecord → Prop) (p : MetaPage) (r : MetaRecord) : Prop where
  read : metaPages f p = some r
  holds : Q r
  newest : ∀ r', metaPages f p.other = some r' → Q r' →
    r'.counter < r.counter ∨ (r'.counter = r.counter ∧ p = .rec0)

lemma Boot.metaCandidates_eq (f : Flash) :
    metaCandidates f = match metaPages f .rec0, metaPages f .rec1 with
      | some a, some b => if a.counter ≥ b.counter then [a, b] else [b, a]
      | some a, none => [a]
      | none, some b => [b]
      | none, none => [] := by
  simp only [metaCandidates, metaRead_eq]
  rfl

/-- Of two records, the one on `REC0` comes first unless its counter is lower. -/
lemma find_pair {a b r : MetaRecord} {q : MetaRecord → Bool} :
    (if a.counter ≥ b.counter then [a, b] else [b, a]).find? q = some r ↔
      (a = r ∧ q a = true ∧ (q b = true → b.counter ≤ a.counter)) ∨
        (b = r ∧ q b = true ∧ (q a = true → a.counter < b.counter)) := by
  by_cases hab : a.counter ≥ b.counter
  · have hba : ¬ a.counter < b.counter := UInt32.not_lt.mpr hab
    cases ha : q a <;> cases hb : q b <;> simp [hab, hba, ha, hb]
  · have hlt : a.counter < b.counter := UInt32.not_le.mp hab
    have hba : ¬ b.counter ≤ a.counter := hab
    cases ha : q a <;> cases hb : q b <;> simp [hlt, hba, ha, hb]

lemma newestWith_rec0_iff {f : Flash} {Q : MetaRecord → Prop} {r : MetaRecord} :
    NewestWith f Q .rec0 r ↔ metaPages f .rec0 = some r ∧ Q r ∧
      ∀ r', metaPages f .rec1 = some r' → Q r' → r'.counter ≤ r.counter := by
  have hle : ∀ x y : UInt32, x < y ∨ (x = y ∧ MetaPage.rec0 = .rec0) ↔ x ≤ y := by
    intro x y
    rw [UInt32.le_iff_lt_or_eq]
    simp
  constructor
  · intro h
    exact ⟨h.read, h.holds, fun r' hr hq => (hle _ _).mp (h.newest r' hr hq)⟩
  · rintro ⟨hr, hq, hall⟩
    exact ⟨hr, hq, fun r' hr' hq' => (hle _ _).mpr (hall r' hr' hq')⟩

lemma newestWith_rec1_iff {f : Flash} {Q : MetaRecord → Prop} {r : MetaRecord} :
    NewestWith f Q .rec1 r ↔ metaPages f .rec1 = some r ∧ Q r ∧
      ∀ r', metaPages f .rec0 = some r' → Q r' → r'.counter < r.counter := by
  constructor
  · intro h
    refine ⟨h.read, h.holds, fun r' hr hq => ?_⟩
    rcases h.newest r' hr hq with hlt | ⟨-, hp⟩
    · exact hlt
    · cases hp
  · rintro ⟨hr, hq, hall⟩
    exact ⟨hr, hq, fun r' hr' hq' => .inl (hall r' hr' hq')⟩

/-- Searching the candidates finds the newest record that passes. -/
lemma Boot.find_metaCandidates {f : Flash} {q : MetaRecord → Bool} {r : MetaRecord} :
    (metaCandidates f).find? q = some r ↔ ∃ p, NewestWith f (fun r => q r = true) p r := by
  have hsplit : (∃ p, NewestWith f (fun r => q r = true) p r) ↔
      NewestWith f (fun r => q r = true) .rec0 r ∨ NewestWith f (fun r => q r = true) .rec1 r := by
    constructor
    · rintro ⟨p, h⟩
      cases p
      · exact .inl h
      · exact .inr h
    · rintro (h | h)
      · exact ⟨_, h⟩
      · exact ⟨_, h⟩
  rw [hsplit, newestWith_rec0_iff, newestWith_rec1_iff, metaCandidates_eq]
  cases metaPages f .rec0 with
  | none =>
    cases metaPages f .rec1 with
    | none => simp
    | some b => cases hb : q b <;> simp [hb] <;> grind
  | some a =>
    cases metaPages f .rec1 with
    | none => cases ha : q a <;> simp [ha] <;> grind
    | some b =>
      simp only [find_pair, Option.some.injEq, forall_eq']
      grind

/-- The search fails when no readable record passes. -/
lemma Boot.find_metaCandidates_none {f : Flash} {q : MetaRecord → Bool} :
    (metaCandidates f).find? q = none ↔ ∀ p r, metaPages f p = some r → q r = false := by
  simp only [List.find?_eq_none, mem_metaCandidates, Bool.not_eq_true]
  constructor
  · intro h p r hp
    exact h r ⟨p, hp⟩
  · rintro h r ⟨p, hp⟩
    exact h p r hp

/-- Properties that agree on the readable records have the same newest record. -/
lemma NewestWith.congr {f : Flash} {P Q : MetaRecord → Prop} {p : MetaPage} {r : MetaRecord}
    (h : ∀ p r, metaPages f p = some r → (P r ↔ Q r)) (hn : NewestWith f P p r) :
    NewestWith f Q p r where
  read := hn.read
  holds := (h p r hn.read).mp hn.holds
  newest r' hr' hq := hn.newest r' hr' ((h _ _ hr').mpr hq)

/-- The application's newest record is the bootloader's first candidate. -/
lemma metaCurrent_eq_head (f : Flash) :
    (metaCurrent f).map Prod.fst = (Boot.metaCandidates f).head? := by
  rw [Boot.metaCandidates_eq, metaCurrent]
  cases metaPages f .rec0 with
  | none => cases metaPages f .rec1 <;> rfl
  | some a =>
    cases metaPages f .rec1 with
    | none => rfl
    | some b =>
      simp only [metaPickNewest]
      split_ifs <;> rfl

/-! ### The selection -/

/-- The watchdog holds back a record on trial. -/
def HeldBack (wdtFired : Bool) (r : MetaRecord) : Prop :=
  r.trial = true ∧ wdtFired = true

lemma otaBootCandidateOk_iff {r : MetaRecord} {wdtFired : Bool} :
    otaBootCandidateOk r wdtFired = true ↔ ¬ HeldBack wdtFired r := by
  simp only [otaBootCandidateOk, HeldBack]
  cases r.trial <;> cases wdtFired <;> decide

/-- What `ota_boot_select` picks from the candidates, in terms of the two pages. -/
lemma otaBootSelect_metaCandidates {f : Flash} {wdtFired lr : Bool} {r : MetaRecord} :
    otaBootSelect ((Boot.metaCandidates f).map fun r => (r, Boot.activeSlotValid f r)) wdtFired =
        some (r, lr) ↔
      ∃ p, (lr = false ∧ NewestWith f (fun r => Boots f r ∧ ¬ HeldBack wdtFired r) p r) ∨
        (lr = true ∧ (∀ q r', metaPages f q = some r' → Boots f r' → HeldBack wdtFired r') ∧
          NewestWith f (Boots f) p r) := by
  have hfree : ∀ r, (Boot.activeSlotValid f r && otaBootCandidateOk r wdtFired) = true ↔
      Boots f r ∧ ¬ HeldBack wdtFired r := by
    intro r
    rw [Bool.and_eq_true, Boot.activeSlotValid_iff_boots, otaBootCandidateOk_iff]
  have hheld : ∀ r, (Boot.activeSlotValid f r && !otaBootCandidateOk r wdtFired) = true ↔
      Boots f r ∧ HeldBack wdtFired r := by
    intro r
    rw [Bool.and_eq_true, Boot.activeSlotValid_iff_boots, Bool.not_eq_true', ← Bool.not_eq_true,
      otaBootCandidateOk_iff, not_not]
  simp only [otaBootSelect, List.find?_map, Function.comp_def]
  cases h₁ : (Boot.metaCandidates f).find? fun r =>
      Boot.activeSlotValid f r && otaBootCandidateOk r wdtFired with
  | some r₁ =>
    obtain ⟨p₁, hn₁⟩ := Boot.find_metaCandidates.mp h₁
    simp only [Option.map_some, Option.some.injEq, Prod.mk.injEq]
    constructor
    · rintro ⟨rfl, rfl⟩
      exact ⟨p₁, .inl ⟨rfl, hn₁.congr fun _ r _ => hfree r⟩⟩
    · rintro ⟨p, ⟨rfl, hn⟩ | ⟨-, hall, -⟩⟩
      · have hfind := Boot.find_metaCandidates.mpr ⟨p, hn.congr fun _ r _ => (hfree r).symm⟩
        rw [h₁] at hfind
        exact ⟨Option.some.inj hfind, rfl⟩
      · -- the first pass has found a record that is not held back
        obtain ⟨hb, hnot⟩ := (hfree _).mp hn₁.holds
        exact absurd (hall _ _ hn₁.read hb) hnot
  | none =>
    have hall : ∀ q r', metaPages f q = some r' → Boots f r' → HeldBack wdtFired r' := by
      intro q r' hr hb
      by_contra hnot
      have hfalse := Boot.find_metaCandidates_none.mp h₁ q r' hr
      rw [(hfree r').mpr ⟨hb, hnot⟩] at hfalse
      cases hfalse
    have hagree : ∀ p r, metaPages f p = some r →
        ((Boot.activeSlotValid f r && !otaBootCandidateOk r wdtFired) = true ↔ Boots f r) := by
      intro p r hr
      rw [hheld]
      exact ⟨fun h => h.1, fun h => ⟨h, hall p r hr h⟩⟩
    cases h₂ : (Boot.metaCandidates f).find? fun r =>
        Boot.activeSlotValid f r && !otaBootCandidateOk r wdtFired with
    | some r₂ =>
      obtain ⟨p₂, hn₂⟩ := Boot.find_metaCandidates.mp h₂
      simp only [Option.map_none, Option.map_some, Option.some.injEq, Prod.mk.injEq]
      constructor
      · rintro ⟨rfl, rfl⟩
        exact ⟨p₂, .inr ⟨rfl, hall, hn₂.congr hagree⟩⟩
      · rintro ⟨p, ⟨-, hn⟩ | ⟨rfl, -, hn⟩⟩
        · exact absurd (hall _ _ hn.read hn.holds.1) hn.holds.2
        · have hfind := Boot.find_metaCandidates.mpr
            ⟨p, hn.congr fun p r hr => (hagree p r hr).symm⟩
          rw [h₂] at hfind
          exact ⟨Option.some.inj hfind, rfl⟩
    | none =>
      simp only [Option.map_none, reduceCtorEq, false_iff, not_exists, not_or, not_and]
      refine fun p => ⟨fun _ hn => ?_, fun _ _ hn => ?_⟩
      · exact hn.holds.2 (hall _ _ hn.read hn.holds.1)
      · have hfalse := Boot.find_metaCandidates_none.mp h₂ p r hn.read
        rw [(hagree p r hn.read).mpr hn.holds] at hfalse
        cases hfalse

/-- For every flash content and every reset cause: there is a decision if and only if one of the
pages holds a record that boots; the decision names the newest one that is not held back by the
watchdog, and if there is none the newest one at all, as a last resort, which is then a trial record
after a watchdog reset.  No access of the check leaves the per-slot arrays, and the application's
newest record is the bootloader's first candidate. -/
theorem boot_selection (f : Flash) (wdtFired : Bool) :
    ((bootDecideSlot f wdtFired).isSome = true ↔ ∃ p r, metaPages f p = some r ∧ Boots f r) ∧
    (∀ d, bootDecideSlot f wdtFired = some d ↔
      ∃ p r, r.activeSlot = d.slot.code ∧ d.trial = r.trial ∧
        ((d.lastResort = false ∧
            NewestWith f (fun r => Boots f r ∧ ¬ HeldBack wdtFired r) p r) ∨
          (d.lastResort = true ∧ HeldBack wdtFired r ∧
            (∀ q r', metaPages f q = some r' → Boots f r' → HeldBack wdtFired r') ∧
            NewestWith f (Boots f) p r))) ∧
    (∀ r, Boot.activeSlotValidIndexed f r = some (Boot.activeSlotValid f r)) ∧
    (metaCurrent f).map Prod.fst = (Boot.metaCandidates f).head? := by
  refine ⟨?_, fun d => ?_, Boot.activeSlotValidIndexed_eq f, metaCurrent_eq_head f⟩
  · rw [bootDecideSlot_isSome_iff]
    simp only [Boot.activeSlotValid_iff_boots]
  · constructor
    · intro h
      simp only [bootDecideSlot] at h
      split at h
      · cases h
      · next r lr hsel =>
        split at h
        · cases h
        · next s hs =>
          cases h
          obtain ⟨p, hcase⟩ := otaBootSelect_metaCandidates.mp hsel
          refine ⟨p, r, Slot.ofCode_eq_some.mp hs, rfl, ?_⟩
          rcases hcase with ⟨rfl, hn⟩ | ⟨rfl, hall, hn⟩
          · exact .inl ⟨rfl, hn⟩
          · exact .inr ⟨rfl, hall p r hn.read hn.holds, hall, hn⟩
    · rintro ⟨p, r, hslot, htrial, hcase⟩
      have hsel : otaBootSelect ((Boot.metaCandidates f).map fun r =>
          (r, Boot.activeSlotValid f r)) wdtFired = some (r, d.lastResort) := by
        refine otaBootSelect_metaCandidates.mpr ⟨p, ?_⟩
        rcases hcase with ⟨hlr, hn⟩ | ⟨hlr, -, hall, hn⟩
        · exact .inl ⟨hlr, hn⟩
        · exact .inr ⟨hlr, hall, hn⟩
      simp only [bootDecideSlot, hsel, hslot, Slot.ofCode_code, ← htrial]

end Gd32Bridge
