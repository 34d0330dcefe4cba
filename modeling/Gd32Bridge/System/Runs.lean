import Gd32Bridge.System.Safe

/-!
# Running the device

Legality of a step is a finite check, so a list of labels can be run from a given flash and
checked on the way.  The sample device at the end is a provisioned board with a small image in
each slot.
-/

namespace Gd32Bridge

open Endian Memory Transition

variable {σ : Type}

/-! ### Checking legality -/

/-- Equality of two records, on numbers only so that it evaluates fast. -/
def MetaRecord.same (r r' : MetaRecord) : Bool :=
  Nat.beq r.counter.toNat r'.counter.toNat && Nat.beq r.activeSlot.toNat r'.activeSlot.toNat &&
    Nat.beq r.slotValid.toNat r'.slotValid.toNat && Nat.beq r.flags.toNat r'.flags.toNat &&
    Nat.beq r.pad1.toNat r'.pad1.toNat &&
    Nat.beq r.fwVersion.a.toNat r'.fwVersion.a.toNat &&
    Nat.beq r.fwVersion.b.toNat r'.fwVersion.b.toNat &&
    Nat.beq r.imgLen.a.toNat r'.imgLen.a.toNat && Nat.beq r.imgLen.b.toNat r'.imgLen.b.toNat &&
    Nat.beq r.imgCrc32.a.toNat r'.imgCrc32.a.toNat && Nat.beq r.imgCrc32.b.toNat r'.imgCrc32.b.toNat

lemma MetaRecord.eq_of_same {r r' : MetaRecord} (h : r.same r' = true) : r = r' := by
  obtain ⟨c, as, sv, fl, pd, ⟨v₀, v₁⟩, ⟨l₀, l₁⟩, ⟨k₀, k₁⟩⟩ := r
  obtain ⟨c', as', sv', fl', pd', ⟨v₀', v₁'⟩, ⟨l₀', l₁'⟩, ⟨k₀', k₁'⟩⟩ := r'
  simp only [same, Bool.and_eq_true, Nat.beq_eq, UInt32.toNat_inj, UInt8.toNat_inj] at h
  simp only [mk.injEq, PerSlot.mk.injEq]
  tauto

/-- The page reads as `r`. -/
def readsAs : Option MetaRecord → Option MetaRecord → Bool
  | none, none => true
  | some r, some r' => r.same r'
  | _, _ => false

lemma eq_of_readsAs {x y : Option MetaRecord} (h : readsAs x y = true) : x = y := by
  match x, y, h with
  | none, none, _ => rfl
  | some r, some r', h => rw [MetaRecord.eq_of_same h]

/-- The event programs page `p`, with bytes that read as `r`. -/
def Event.programs (p : MetaPage) (r : Option MetaRecord) : Event → Bool
  | .call _ (.program addr data) =>
    Nat.beq addr.toNat p.addr.toNat && readsAs r (some (MetaRecord.decode data))
  | _ => false

/-- `TornPage` as a test. -/
def tornCheck (before after : Board) (p : MetaPage) : Bool :=
  let now := metaPages after.flash p
  now.isNone || readsAs now (metaPages before.flash p) || after.log.any (Event.programs p now)

lemma TornPage.of_check {before after : Board} {p : MetaPage} (h : tornCheck before after p = true) :
    TornPage before after p := by
  simp only [tornCheck, Bool.or_eq_true, Option.isNone_iff_eq_none, List.any_eq_true] at h
  rcases h with (h | h) | ⟨e, he, h⟩
  · exact .inr (.inl h)
  · exact .inl (eq_of_readsAs h)
  · refine .inr (.inr ?_)
    match e, h with
    | .call run (.program addr data), h =>
      simp only [Event.programs, Bool.and_eq_true, Nat.beq_eq, UInt32.toNat_inj] at h
      rw [h.1] at he
      exact ⟨run, data, he, eq_of_readsAs h.2⟩

/-- `Legal` as a test. -/
def legalCheck (s : Sys σ) (_ : Label) (s' : Sys σ) : Bool :=
  tornCheck s.board s'.board .rec0 && tornCheck s.board s'.board .rec1

lemma Legal.of_check {s s' : Sys σ} {l : Label} (h : legalCheck s l s' = true) : Legal s l s' := by
  simp only [legalCheck, Bool.and_eq_true] at h
  intro p
  cases p with
  | rec0 => exact .of_check h.1
  | rec1 => exact .of_check h.2

/-! ### A sample device -/

/-- `data` programmed at `addr` over erased flash. -/
def Flash.put (f : Flash) (addr : UInt32) (data : List UInt8) : Flash :=
  overlay f addr.toNat data.length fun a => ⟨data.getD (a - addr.toNat) 0xFF, false⟩

/-- Erased flash. -/
def Flash.blank : Flash := fun _ => .erased

/-- The smallest image that is bootable in its slot and can confirm itself: stack pointer, reset
vector, padding up to the marker, marker. -/
def sampleImage (s : Slot) : List UInt8 :=
  le32 0x20018000 ++ le32 (s.base + 9) ++ List.replicate 56 0 ++ otaTrialMarkerMagic ++ [1, 0, 1, 0]

/-- Slot A active and confirmed, an image in both slots. -/
def sampleRecord : MetaRecord where
  counter := 1
  activeSlot := 0
  slotValid := 3
  flags := 0
  pad1 := 0
  fwVersion := ⟨0, 0⟩
  imgLen := ⟨84, 84⟩
  imgCrc32 := ⟨otaCrc32 0 (sampleImage .A), otaCrc32 0 (sampleImage .B)⟩

/-- The record a ROLLBACK of the sample device writes, and the page that holds it. -/
def sampleTrialRecord : MetaRecord :=
  { sampleRecord with counter := 2, activeSlot := 1, flags := 1 }

def sampleTrialPage : Flash :=
  Flash.blank.put otaMetaRec1 sampleTrialRecord.encode

def sampleFlash : Flash :=
  ((Flash.blank.put otaSlotABase (sampleImage .A)).put otaSlotBBase (sampleImage .B)).put
    otaMetaRec0 sampleRecord.encode

def sampleBoard : Board := ⟨sampleFlash, false, false, [], []⟩

/-- The sample device before its first boot. -/
def sampleDevice : Sys Unit := .off sampleBoard

/-- `ProvisionedFlash` for page 0, as a test. -/
def provisionedCheck (f : Flash) : Bool :=
  (metaPages f .rec1).isNone &&
    (metaPages f .rec0).any fun r => !r.trial && Boot.activeSlotValid f r

lemma ProvisionedFlash.of_check {f : Flash} (h : provisionedCheck f = true) :
    ProvisionedFlash f := by
  simp only [provisionedCheck, Bool.and_eq_true, Option.isNone_iff_eq_none, Option.any_eq_true,
    Bool.not_eq_true'] at h
  obtain ⟨h₁, r, h₀, ht, hv⟩ := h
  exact ⟨.rec0, r, h₀, h₁, ht, hv⟩

set_option maxRecDepth 20000 in
lemma sampleDevice_provisioned : Provisioned sampleDevice :=
  ProvisionedFlash.of_check (by decide +kernel)

/-- Labels that run from the sample device reach a state of every kind the last one is of. -/
lemma exists_reach_of_sample (ok : Sys Unit → Label → Sys Unit → Prop)
    (chk : Sys Unit → Label → Sys Unit → Bool) (q : Sys Unit → Bool) (ls : List Label)
    (hchk : ∀ s l s', chk s l s' = true → ok s l s')
    (h : (run (step .stub) chk sampleDevice ls).any q = true) :
    ∃ s, Reach (step .stub) Provisioned ok s ∧ q s = true :=
  (Reach.start sampleDevice_provisioned).exists_of_run chk q ls hchk h

end Gd32Bridge
