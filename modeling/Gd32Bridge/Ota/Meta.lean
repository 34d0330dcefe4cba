import Gd32Bridge.Fmc.Properties

/-!
# A/B metadata (`src/ota.c`: `meta_read` … `meta_commit`)

Two record pages, one written at a time.  Descriptors are carried forward from the newest
record; which page is erased is decided by rank, or forced by the caller.
-/

namespace Gd32Bridge

open Memory

/-- The two record pages, `OTA_META_REC0` and `OTA_META_REC1`. -/
inductive MetaPage
  | rec0
  | rec1
deriving DecidableEq, Repr

namespace MetaPage

def addr : MetaPage → UInt32
  | rec0 => otaMetaRec0
  | rec1 => otaMetaRec1

def other : MetaPage → MetaPage
  | rec0 => rec1
  | rec1 => rec0

/-- The cells of a record page. -/
def region (p : MetaPage) : Set ℕ :=
  Set.Ico p.addr.toNat (p.addr.toNat + otaPageSize.toNat)

@[simp] lemma other_other (p : MetaPage) : p.other.other = p := by cases p <;> rfl
@[simp] lemma other_ne (p : MetaPage) : p.other ≠ p := by cases p <;> decide
@[simp] lemma ne_other (p : MetaPage) : p ≠ p.other := by cases p <;> decide

lemma eq_or_eq_other (p q : MetaPage) : p = q ∨ p = q.other := by
  cases p <;> cases q <;> simp [other]

end MetaPage

/-! ### Reading -/

/-- `meta_read` -/
def metaRead (f : Flash) (addr : UInt32) : Option MetaRecord :=
  let p := f.bytes addr recSize
  if recordOk p then some (MetaRecord.decode p) else none

/-- The two pages as `meta_read` sees them. -/
def metaPages (f : Flash) (p : MetaPage) : Option MetaRecord :=
  metaRead f p.addr

/-- `meta_pick_newest`: the newer record and its page, `REC0` on a tie. -/
def metaPickNewest : Option MetaRecord → Option MetaRecord → Option (MetaRecord × MetaPage)
  | some a, some b => if a.counter ≥ b.counter then some (a, .rec0) else some (b, .rec1)
  | some a, none => some (a, .rec0)
  | none, some b => some (b, .rec1)
  | none, none => none

/-- `meta_current` -/
def metaCurrent (f : Flash) : Option (MetaRecord × MetaPage) :=
  metaPickNewest (metaPages f .rec0) (metaPages f .rec1)

/-- `find_running_slot_record` in the build that runs from slot `run` -/
def findRunningSlotRecord (f : Flash) (run : Slot) : Option (MetaRecord × MetaPage) :=
  let best := match metaPages f .rec0 with
    | some a => if a.activeSlot = run.code then some (a, MetaPage.rec0) else none
    | none => none
  match metaPages f .rec1 with
  | none => best
  | some b =>
    if b.activeSlot = run.code then
      match best with
      | none => some (b, .rec1)
      | some (a, p) => if b.counter > a.counter then some (b, .rec1) else some (a, p)
    else best

/-! ### Writing -/

/-- The descriptor `update_entry` stores for the new active slot. -/
structure ImageEntry where
  fwVer : UInt32
  imgLen : UInt32
  imgCrc : UInt32
deriving DecidableEq, Repr

/-- The arguments of `meta_commit`; `entry = none` is `update_entry = false`, `target = none`
is `target_override = 0`, and `invalidate = 0xFF` touches no additional slot. -/
structure MetaWrite where
  activeSlot : UInt8
  entry : Option ImageEntry
  flags : UInt8
  target : Option MetaPage
  invalidate : UInt8
deriving DecidableEq, Repr

/-- `meta_page_rank` -/
def metaPageRank (run : Slot) : Option MetaRecord → ℕ
  | none => 0
  | some r => if r.activeSlot = run.code then 2 else 1

/-- The page the rank rule erases. -/
def metaRankTarget (run : Slot) (a b : Option MetaRecord) : MetaPage :=
  let rankA := metaPageRank run a
  let rankB := metaPageRank run b
  if rankA ≠ rankB then
    if rankA < rankB then .rec0 else .rec1
  else
    match a, b with
    | some a, some b => if a.counter ≥ b.counter then .rec1 else .rec0
    | _, _ => .rec0

namespace MetaWrite

/-- The page a write erases and programs. -/
def page (w : MetaWrite) (run : Slot) (a b : Option MetaRecord) : MetaPage :=
  match w.target with
  | some p => p
  | none => metaRankTarget run a b

/-- The record a write makes of the newest one, `r`. -/
def apply (w : MetaWrite) (r : MetaRecord) : MetaRecord :=
  let r₁ := { r with
    counter := r.counter + 1
    activeSlot := w.activeSlot
    slotValid := r.slotValid ||| slotBit w.activeSlot }
  -- after the bit was set, so that invalidating the active slot itself wins
  let r₂ :=
    if w.invalidate = 0 ∨ w.invalidate = 1 then
      { r₁ with
        slotValid := r₁.slotValid &&& ~~~(slotBit w.invalidate)
        imgLen := r₁.imgLen.setByte w.invalidate 0
        imgCrc32 := r₁.imgCrc32.setByte w.invalidate 0 }
    else r₁
  let r₃ := { r₂ with flags := w.flags }
  match w.entry with
  | none => r₃
  | some e =>
    { r₃ with
      fwVersion := r₃.fwVersion.setByte w.activeSlot e.fwVer
      imgLen := r₃.imgLen.setByte w.activeSlot e.imgLen
      imgCrc32 := r₃.imgCrc32.setByte w.activeSlot e.imgCrc }

/-- The counter from which on a write is refused. -/
def counterCap (w : MetaWrite) : UInt32 :=
  if w.flags ≠ 0 then otaMetaCounterLimit - 1 else otaMetaCounterLimit

end MetaWrite

/-- The record `meta_commit` starts from: the newest, or the zeroed one. -/
def metaSeed (f : Flash) : MetaRecord :=
  match metaCurrent f with
  | some (r, _) => r
  | none => .zero

/-- `meta_commit` -/
def metaCommit (b : Board) (run : Slot) (w : MetaWrite) : Board × Option Bool :=
  let seed := metaSeed b.flash
  let target := w.page run (metaPages b.flash .rec0) (metaPages b.flash .rec1)
  if seed.counter ≥ w.counterCap then (b, some false)
  else
    match otaFmcEraseRange b run target.addr otaPageSize with
    | (b', some .ok) =>
      match otaFmcProgram b' run target.addr (w.apply seed).encode with
      | (b'', some r) => (b'', some (r == .ok))
      | (b'', none) => (b'', none)
    | (b', some _) => (b', some false)
    | (b', none) => (b', none)

/-! ### Reading: facts -/

/-- Reading a page only looks at the page. -/
lemma metaPages_congr {f f' : Flash} {R : Set ℕ} (h : Unchanged R f f') {p : MetaPage}
    (hd : Disjoint p.region R) : metaPages f' p = metaPages f p := by
  have hbytes : f'.bytes p.addr recSize = f.bytes p.addr recSize := by
    rw [Flash.bytes, Flash.bytes, h.read_eq]
    refine hd.mono_left (Set.Ico_subset_Ico_right ?_)
    have : otaPageSize.toNat = 2048 := rfl
    simp only [recSize]
    omega
  simp only [metaPages, metaRead, hbytes]

/-- A page that holds the encoding of a record reads as that record. -/
lemma metaRead_of_encode {f : Flash} {addr : UInt32} {r : MetaRecord}
    (h : f.bytes addr recSize = r.encode) : metaRead f addr = some r := by
  simp [metaRead, h]

lemma MetaPage.region_eq (p : MetaPage) : p.region = Set.Ico p.addr.toNat (p.addr.toNat + 2048) :=
  rfl

lemma MetaPage.region_disjoint (p : MetaPage) : Disjoint p.region p.other.region := by
  rw [Set.disjoint_left, region_eq, region_eq]
  rintro a ⟨h₁, h₂⟩ ⟨h₃, h₄⟩
  have hr₀ : MetaPage.rec0.addr.toNat = 0x08008000 := rfl
  have hr₁ : MetaPage.rec1.addr.toNat = 0x08008800 := rfl
  cases p <;> simp only [other, hr₀, hr₁] at * <;> omega

/-! ### Writing: facts -/

lemma MetaPage.erase_inFlash (p : MetaPage) : (FmcCall.erase p.addr otaPageSize).InFlash := by
  simp only [FmcCall.InFlash]
  cases p <;> decide

lemma MetaPage.program_inFlash (p : MetaPage) (r : MetaRecord) :
    (FmcCall.program p.addr r.encode).InFlash := by
  simp only [FmcCall.InFlash, MetaRecord.encode_length]
  cases p <;> decide

lemma MetaPage.program_span_subset (p : MetaPage) (r : MetaRecord) :
    (FmcCall.program p.addr r.encode).span ⊆ p.region := by
  simp only [FmcCall.span, MetaRecord.encode_length, region_eq]
  exact Set.Ico_subset_Ico_right (by omega)

/-- A record page that was programmed successfully reads back as the record. -/
lemma metaPages_of_program {b : Board} {run : Slot} {p : MetaPage} {r : MetaRecord}
    (h : (b.fmcCall run (.program p.addr r.encode)).2 = some .ok) :
    metaPages (b.fmcCall run (.program p.addr r.encode)).1.flash p = some r := by
  apply metaRead_of_encode
  rw [Flash.bytes]
  refine List.ext_getElem (by simp [recSize]) fun i h₁ h₂ => ?_
  have hi : i < 44 := by simpa using h₂
  rw [List.getElem_map, read_getElem,
    Board.fmcCall_ok (p.program_inFlash r) h (by simp [FmcCall.span]; omega)]
  simp only [FmcCall.content, Nat.add_sub_cancel_left]
  exact List.getD_eq_getElem _ _ h₂

/-- How `meta_commit` proceeds: refused by the counter guard, stopped at the erase, or carried
through to the program call. -/
inductive MetaCommitCase (b : Board) (run : Slot) (w : MetaWrite) (p : MetaPage) (r : MetaRecord) :
    Board × Option Bool → Prop
  | refused (h : (metaSeed b.flash).counter ≥ w.counterCap) :
      MetaCommitCase b run w p r (b, some false)
  | eraseFailed (e : FmcResult) (hne : e ≠ .ok)
      (h : (b.fmcCall run (.erase p.addr otaPageSize)).2 = some e) :
      MetaCommitCase b run w p r ((b.fmcCall run (.erase p.addr otaPageSize)).1, some false)
  | eraseCut (h : (b.fmcCall run (.erase p.addr otaPageSize)).2 = none) :
      MetaCommitCase b run w p r ((b.fmcCall run (.erase p.addr otaPageSize)).1, none)
  | programmed (b' : Board) (hb' : b' = (b.fmcCall run (.erase p.addr otaPageSize)).1)
      (he : (b.fmcCall run (.erase p.addr otaPageSize)).2 = some .ok)
      (hc : (metaSeed b.flash).counter < w.counterCap) :
      MetaCommitCase b run w p r
        ((b'.fmcCall run (.program p.addr r.encode)).1,
          (b'.fmcCall run (.program p.addr r.encode)).2.map (· == .ok))

/-- The page a `meta_commit` works on. -/
def MetaWrite.pageOn (w : MetaWrite) (f : Flash) (run : Slot) : MetaPage :=
  w.page run (metaPages f .rec0) (metaPages f .rec1)

lemma metaCommit_cases (b : Board) (run : Slot) (w : MetaWrite) :
    MetaCommitCase b run w (w.pageOn b.flash run) (w.apply (metaSeed b.flash))
      (metaCommit b run w) := by
  simp only [metaCommit, otaFmcEraseRange, otaFmcProgram]
  split_ifs with hc
  · exact .refused hc
  · have hc := UInt32.not_le.mp hc
    rw [← MetaWrite.pageOn]
    generalize hp : w.pageOn b.flash run = p
    cases he : b.fmcCall run (.erase p.addr otaPageSize) with
    | mk b' e =>
      have he₁ : b' = (b.fmcCall run (.erase p.addr otaPageSize)).1 := by rw [he]
      have he₂ : e = (b.fmcCall run (.erase p.addr otaPageSize)).2 := by rw [he]
      match e with
      | none =>
        rw [he₁]
        exact .eraseCut he₂.symm
      | some .ok =>
        have h := MetaCommitCase.programmed (r := w.apply (metaSeed b.flash)) b' he₁ he₂.symm hc
        cases hpr : b'.fmcCall run (.program p.addr (w.apply (metaSeed b.flash)).encode) with
        | mk b'' e' =>
          rw [hpr] at h
          simp only [hpr]
          cases e' <;> exact h
      | some .error =>
        rw [he₁]
        exact .eraseFailed .error (by decide) he₂.symm
      | some .timeout =>
        rw [he₁]
        exact .eraseFailed .timeout (by decide) he₂.symm

section

variable (b : Board) (run : Slot) (w : MetaWrite)

@[simp]
lemma metaCommit_dual : (metaCommit b run w).1.dual = b.dual := by
  have hcase := metaCommit_cases b run w
  generalize metaCommit b run w = x at hcase ⊢
  cases hcase with
  | refused => rfl
  | eraseFailed => simp
  | eraseCut => simp
  | programmed b' hb' => simp [hb']

@[simp]
lemma metaCommit_owned : (metaCommit b run w).1.owned = b.owned := by
  have hcase := metaCommit_cases b run w
  generalize metaCommit b run w = x at hcase ⊢
  cases hcase with
  | refused => rfl
  | eraseFailed => simp
  | eraseCut => simp
  | programmed b' hb' => simp [hb']

/-- A metadata write touches the page it chose and nothing else. -/
lemma metaCommit_unchanged :
    Unchanged (w.pageOn b.flash run).region b.flash (metaCommit b run w).1.flash := by
  have herase : Unchanged (w.pageOn b.flash run).region b.flash
      (b.fmcCall run (.erase (w.pageOn b.flash run).addr otaPageSize)).1.flash :=
    Board.fmcCall_unchanged (w.pageOn b.flash run).erase_inFlash
  have hcase := metaCommit_cases b run w
  generalize metaCommit b run w = x at hcase ⊢
  cases hcase with
  | refused => exact Unchanged.refl _ _
  | eraseFailed => exact herase
  | eraseCut => exact herase
  | programmed b' hb' =>
    subst hb'
    refine herase.trans ((Board.fmcCall_unchanged (MetaPage.program_inFlash _ _)).mono ?_)
    exact MetaPage.program_span_subset _ _

/-- What a metadata write makes the controller do: it erases its page and programs its record
there. -/
lemma metaCommit_log {e : Event} (he : e ∈ (metaCommit b run w).1.log) :
    e ∈ b.log ∨ ∃ c, (c = FmcCall.erase (w.pageOn b.flash run).addr otaPageSize ∨
        c = FmcCall.program (w.pageOn b.flash run).addr (w.apply (metaSeed b.flash)).encode) ∧
      (e = .call run c ∨ ∃ o ∈ c.work b.dual, e = .op run o) := by
  have hcase := metaCommit_cases b run w
  generalize metaCommit b run w = x at hcase he
  cases hcase with
  | refused => exact .inl he
  | eraseFailed | eraseCut =>
    rcases Board.fmcCall_log he with he | ⟨-, he⟩
    · exact .inl he
    · exact .inr ⟨_, .inl rfl, he⟩
  | programmed b' hb' =>
    subst hb'
    rcases Board.fmcCall_log he with he | ⟨-, he⟩
    · rcases Board.fmcCall_log he with he | ⟨-, he⟩
      · exact .inl he
      · exact .inr ⟨_, .inl rfl, he⟩
    · rw [Board.fmcCall_dual] at he
      exact .inr ⟨_, .inr rfl, he⟩

variable {b run w}

/-- A metadata write that reports success has its record on the page. -/
lemma metaCommit_true (h : (metaCommit b run w).2 = some true) :
    metaPages (metaCommit b run w).1.flash (w.pageOn b.flash run) =
        some (w.apply (metaSeed b.flash)) ∧
      (metaSeed b.flash).counter < w.counterCap := by
  have hcase := metaCommit_cases b run w
  generalize metaCommit b run w = x at hcase h ⊢
  cases hcase with
  | refused => cases h
  | eraseFailed => cases h
  | eraseCut => cases h
  | programmed b' hb' he hc =>
    refine ⟨metaPages_of_program ?_, hc⟩
    obtain ⟨e, he, h⟩ := Option.map_eq_some_iff.mp h
    rw [he, beq_iff_eq.mp h]

/-- The page a metadata write leaves alone reads as before. -/
lemma metaCommit_other {p : MetaPage} (hp : p ≠ w.pageOn b.flash run) :
    metaPages (metaCommit b run w).1.flash p = metaPages b.flash p := by
  refine metaPages_congr (metaCommit_unchanged b run w) ?_
  obtain rfl := (MetaPage.eq_or_eq_other p _).resolve_left hp
  exact (MetaPage.region_disjoint _).symm

end

end Gd32Bridge
