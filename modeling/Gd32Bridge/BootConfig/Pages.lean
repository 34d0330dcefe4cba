import Gd32Bridge.System.Regions

/-!
# The boot-config pages under torn writes

A record is two doublewords, the payload and the commit that is programmed after it.  An
operation that does not complete may leave any doubleword of the page old, erased, new or
uncorrectable.  Up to its last call a store therefore leaves the newest record the newest; the
last call either leaves it so or puts the new record in its place.
-/

namespace Gd32Bridge

open Memory Endian

/-! ### Doublewords -/

/-- The doubleword at an address, as `ota_fmc_read_safe` gives it. -/
def Flash.dword (f : Flash) (a : UInt32) : Option (List UInt8) :=
  otaFmcReadSafe f a 8

/-- An erased doubleword. -/
def erasedDword : List UInt8 := List.replicate 8 0xFF

lemma Flash.dword_congr {f f' : Flash} {a : UInt32} {R : Set ℕ} (h : Unchanged R f f')
    (hd : Disjoint (Set.Ico a.toNat (a.toNat + 8)) R) : f'.dword a = f.dword a := by
  simp only [dword, otaFmcReadSafe, Flash.bytes, h.read_eq hd]

/-- A doubleword whose cells are known reads as their bytes. -/
lemma Flash.dword_eq {f : Flash} {a : UInt32} {dw : List UInt8} (ha : a % 8 = 0)
    (hlen : dw.length = 8) (h : ∀ i < 8, f (a.toNat + i) = ⟨dw.getD i 0xFF, false⟩) :
    f.dword a = some dw := by
  have hread : Memory.read f a.toNat 8 = dw.map fun b => ⟨b, false⟩ := by
    refine List.ext_getElem (by simp [hlen]) fun i h₁ h₂ => ?_
    rw [read_length] at h₁
    rw [read_getElem, h i h₁, List.getElem_map, List.getD_eq_getElem _ _ (by omega)]
  have hgood : (Memory.read f a.toNat 8).any Cell.bad = false := by
    rw [hread]
    simp
  have hbytes : f.bytes a 8 = dw := by
    simp only [Flash.bytes, hread, List.map_map]
    exact List.map_id dw
  simp only [dword, otaFmcReadSafe, ha, hgood, hbytes]
  rfl

/-- What an operation that may not complete leaves of a doubleword: it reads as before, as
erased, as the operation would have left it, or not at all. -/
def TornDword (new f f' : Flash) (a : UInt32) : Prop :=
  f'.dword a = f.dword a ∨ f'.dword a = some erasedDword ∨ f'.dword a = new.dword a ∨
    f'.dword a = none

instance (new f f' : Flash) (a : UInt32) : Decidable (TornDword new f f' a) :=
  inferInstanceAs (Decidable (_ ∨ _))

namespace ConfigPage

/-- Address of doubleword `k` of a page. -/
def dwordAddr (p : ConfigPage) (k : ℕ) : UInt32 :=
  p.addr + .ofNat (8 * k)

/-- Every doubleword of the page is torn at most. -/
def Torn (p : ConfigPage) (new f f' : Flash) : Prop :=
  ∀ k < 256, TornDword new f f' (p.dwordAddr k)

instance (p : ConfigPage) (new f f' : Flash) : Decidable (p.Torn new f f') :=
  Nat.decidableBallLT 256 fun k _ => TornDword new f f' (p.dwordAddr k)

def other : ConfigPage → ConfigPage
  | rec0 => rec1
  | rec1 => rec0

@[simp]
lemma other_other (p : ConfigPage) : p.other.other = p := by
  cases p <;> rfl

lemma region_disjoint (p : ConfigPage) : Disjoint p.other.region p.region := by
  rw [Set.disjoint_left, region_eq, region_eq]
  have h0 : ConfigPage.rec0.addr.toNat = 0x08076000 := rfl
  have h1 : ConfigPage.rec1.addr.toNat = 0x08076800 := rfl
  rintro a ⟨h₁, h₂⟩ ⟨h₃, h₄⟩
  cases p <;> simp only [other, h0, h1] at * <;> omega

/-- The payload and the commit doubleword of the record. -/
def payloadAt (p : ConfigPage) (f : Flash) : Option (List UInt8) := f.dword p.addr
def commitAt (p : ConfigPage) (f : Flash) : Option (List UInt8) :=
  f.dword (p.addr + bootConfigCommitOff)

variable {p : ConfigPage} {f f' new : Flash} {R : Set ℕ}

lemma Torn.payload (h : p.Torn new f f') : TornDword new f f' p.addr := by
  have h0 := h 0 (by decide)
  cases p <;> exact h0

lemma Torn.commit (h : p.Torn new f f') : TornDword new f f' (p.addr + bootConfigCommitOff) := by
  have h1 := h 1 (by decide)
  cases p <;> exact h1

lemma commit_toNat (p : ConfigPage) : (p.addr + bootConfigCommitOff).toNat = p.addr.toNat + 8 := by
  cases p <;> rfl

lemma payloadAt_congr (h : Unchanged R f f')
    (hd : Disjoint (Set.Ico p.addr.toNat (p.addr.toNat + 8)) R) : p.payloadAt f' = p.payloadAt f :=
  Flash.dword_congr h hd

lemma commitAt_congr (h : Unchanged R f f')
    (hd : Disjoint (Set.Ico (p.addr.toNat + 8) (p.addr.toNat + 16)) R) :
    p.commitAt f' = p.commitAt f := by
  refine Flash.dword_congr h ?_
  rw [commit_toNat]
  exact hd

end ConfigPage

/-! ### Reading a page -/

section

variable {f f' : Flash} {p : ConfigPage}

/-- Reading a record depends on its two doublewords only. -/
lemma bootConfigReadPage_congr (hp : p.payloadAt f' = p.payloadAt f)
    (hc : p.commitAt f' = p.commitAt f) : bootConfigReadPage f' p = bootConfigReadPage f p := by
  simp only [ConfigPage.payloadAt, ConfigPage.commitAt, Flash.dword] at hp hc
  simp only [bootConfigReadPage, hp, hc]

lemma bootConfigReadPage_unchanged {R : Set ℕ} (h : Unchanged R f f') (hd : Disjoint p.region R) :
    bootConfigReadPage f' p = bootConfigReadPage f p := by
  apply bootConfigReadPage_congr
  · refine ConfigPage.payloadAt_congr h (hd.mono_left ?_)
    exact Set.Ico_subset_Ico_right (by rw [show otaPageSize.toNat = 2048 from rfl]; omega)
  · refine ConfigPage.commitAt_congr h (hd.mono_left ?_)
    exact Set.Ico_subset_Ico (by omega) (by rw [show otaPageSize.toNat = 2048 from rfl]; omega)

/-- An erased or uncorrectable commit doubleword holds no magic. -/
lemma bootConfigReadPage_no_commit (h : p.commitAt f = none ∨ p.commitAt f = some erasedDword) :
    bootConfigReadPage f p = none := by
  simp only [ConfigPage.commitAt, Flash.dword] at h
  have hmagic : getLe32 erasedDword 4 ≠ bootConfigMagic := by decide
  rcases h with h | h
  · simp only [bootConfigReadPage, h]
  · simp only [bootConfigReadPage, h]
    rw [if_pos hmagic]

/-- An erased payload doubleword holds a counter that is out of range, whatever the commit. -/
lemma bootConfigReadPage_no_payload (h : p.payloadAt f = none ∨ p.payloadAt f = some erasedDword) :
    bootConfigReadPage f p = none := by
  simp only [ConfigPage.payloadAt, Flash.dword] at h
  have hcnt : getLe32 erasedDword 0 ≥ bootConfigCounterLimit := by decide
  simp only [bootConfigReadPage]
  split
  · rfl
  · split
    · rfl
    · rcases h with h | h
      · simp only [h]
      · simp only [h, hcnt, or_true, if_true, ite_self]

/-- The fields a store puts into a record. -/
structure ConfigRecord.Good (r : ConfigRecord) : Prop where
  crc : r.crc32 = configRecordCrc r.counter r.flags
  magic : r.magic = bootConfigMagic
  pos : r.counter ≠ 0
  limit : r.counter < bootConfigCounterLimit

/-- A page that holds both doublewords of a record reads as the record. -/
lemma bootConfigReadPage_record {r : ConfigRecord} (hr : r.Good)
    (hp : p.payloadAt f = some r.payload) (hc : p.commitAt f = some r.commit) :
    bootConfigReadPage f p = some r := by
  simp only [ConfigPage.payloadAt, ConfigPage.commitAt, Flash.dword] at hp hc
  have hcounter : getLe32 r.payload 0 = r.counter := getLe32_le32 _ _
  have hflags : getLe32 r.payload 4 = r.flags :=
    (getLe32_append_right (le32 r.counter) (le32 r.flags) 0).trans (getLe32_le32 r.flags [])
  have hcrc : getLe32 r.commit 0 = r.crc32 := getLe32_le32 _ _
  have hmagic : getLe32 r.commit 4 = r.magic :=
    (getLe32_append_right (le32 r.crc32) (le32 r.magic) 0).trans (getLe32_le32 r.magic [])
  have hrange : ¬ (r.counter = 0 ∨ r.counter ≥ bootConfigCounterLimit) := by
    rw [not_or, ge_iff_le, UInt32.not_le]
    exact ⟨hr.pos, hr.limit⟩
  simp only [bootConfigReadPage, hp, hc, hcounter, hflags, hcrc, hmagic, hr.magic, hr.crc, ne_eq,
    not_true_eq_false, if_false, hrange]
  rw [← hr.crc, ← hr.magic]

/-- A record that reads has its counter in range. -/
lemma bootConfigReadPage_range {r : ConfigRecord} (h : bootConfigReadPage f p = some r) :
    r.counter ≠ 0 ∧ r.counter < bootConfigCounterLimit := by
  simp only [bootConfigReadPage] at h
  split at h
  · cases h
  split_ifs at h
  split at h
  · cases h
  split_ifs at h with hcrc hrange
  cases h
  rw [not_or, ge_iff_le, UInt32.not_le] at hrange
  exact hrange

/-- A torn erase leaves the record of the page, or none. -/
lemma bootConfigReadPage_torn_erase {new : Flash} (hp : TornDword new f f' p.addr)
    (hc : TornDword new f f' (p.addr + bootConfigCommitOff)) (hnp : p.payloadAt new = some erasedDword)
    (hnc : p.commitAt new = some erasedDword) :
    bootConfigReadPage f' p = bootConfigReadPage f p ∨ bootConfigReadPage f' p = none := by
  rcases hp with hp | hp | hp | hp
  · rcases hc with hc | hc | hc | hc
    · exact .inl (bootConfigReadPage_congr hp hc)
    · exact .inr (bootConfigReadPage_no_commit (.inr hc))
    · exact .inr (bootConfigReadPage_no_commit (.inr (hc.trans hnc)))
    · exact .inr (bootConfigReadPage_no_commit (.inl hc))
  · exact .inr (bootConfigReadPage_no_payload (.inr hp))
  · exact .inr (bootConfigReadPage_no_payload (.inr (hp.trans hnp)))
  · exact .inr (bootConfigReadPage_no_payload (.inl hp))

end

/-! ### The newest record -/

section

variable {f f' : Flash}

/-- The newest record is on the page that is not the target. -/
lemma configNewestRecord_page (f : Flash) :
    bootConfigReadPage f (configNewestRecord f).2.other = (configNewestRecord f).1 := by
  simp only [configNewestRecord]
  split
  · next h0 h1 =>
    split_ifs
    · exact h0
    · exact h1
  · next h0 _ => exact h0
  · next h1 => exact h1
  · next h1 => exact h1

/-- The newest record stays the newest when the target page loses its record. -/
lemma configNewestRecord_keep
    (hother : bootConfigReadPage f' (configNewestRecord f).2.other =
      bootConfigReadPage f (configNewestRecord f).2.other)
    (htarget : bootConfigReadPage f' (configNewestRecord f).2 =
      bootConfigReadPage f (configNewestRecord f).2 ∨
      bootConfigReadPage f' (configNewestRecord f).2 = none) :
    configNewestRecord f' = configNewestRecord f := by
  cases h0 : bootConfigReadPage f .rec0 <;> cases h1 : bootConfigReadPage f .rec1 <;>
    simp only [configNewestRecord, h0, h1] at hother htarget ⊢
  case some.some r0 r1 =>
    split_ifs at hother htarget ⊢ with hgt <;>
      simp only [ConfigPage.other, h0, h1] at hother htarget <;>
      rcases htarget with ht | ht <;> simp only [hother, ht]
    · simp only [if_pos hgt]
    · simp only [if_neg hgt]
  all_goals
    simp only [ConfigPage.other, h0, h1] at hother htarget
    rcases htarget with ht | ht <;> simp only [hother, ht]

/-- A record on the target page that beats the newest one is the newest. -/
lemma configNewestRecord_landed {r : ConfigRecord}
    (hother : bootConfigReadPage f' (configNewestRecord f).2.other =
      bootConfigReadPage f (configNewestRecord f).2.other)
    (htarget : bootConfigReadPage f' (configNewestRecord f).2 = some r)
    (hgt : ∀ cur, (configNewestRecord f).1 = some cur → cur.counter < r.counter) :
    configNewestRecord f' = (some r, (configNewestRecord f).2.other) := by
  rw [configNewestRecord_page] at hother
  generalize configNewestRecord f = x at hother htarget hgt
  obtain ⟨cur, t⟩ := x
  simp only at hother htarget hgt ⊢
  cases cur with
  | none => cases t <;> simp only [ConfigPage.other] at hother ⊢ <;>
      simp only [configNewestRecord, hother, htarget]
  | some c =>
    have hc := hgt c rfl
    have hnc : ¬ c.counter > r.counter := UInt32.not_lt.mpr (UInt32.le_of_lt hc)
    cases t <;> simp only [ConfigPage.other] at hother ⊢ <;>
      simp only [configNewestRecord, hother, htarget, gt_iff_lt, if_pos hc]
    rw [if_neg hnc]

end

/-! ### The phases of a store -/

/-- A store that succeeds at once finds the flags it is asked for. -/
lemma bootConfigStorePlan_ok {f : Flash} {flags : UInt32}
    (h : bootConfigStorePlan f flags = .inl .ok) :
    (bootConfigLoad f).stored = flags &&& bootConfigKnownFlags := by
  simp only [bootConfigStorePlan] at h
  split at h
  · next cur target hnew =>
    split_ifs at h with hsame
    · simp only [bootConfigLoad, hnew, hsame, UInt32.and_assoc, UInt32.and_self]
    · cases h
  · next target hnew =>
    split_ifs at h with hzero
    simp only [bootConfigLoad, hnew, hzero]

/-- What a planned store is made of. -/
structure Planned (f : Flash) (s : ConfigStore) : Prop where
  page : s.page = (configNewestRecord f).2
  good : s.record.Good
  flags : s.record.flags = s.flags &&& bootConfigKnownFlags
  newer : ∀ cur, (configNewestRecord f).1 = some cur → cur.counter < s.record.counter

lemma Planned.of_plan {f : Flash} {flags : UInt32} {s : ConfigStore}
    (h : bootConfigStorePlan f flags = .inr s) : s.flags = flags ∧ Planned f s := by
  have hpage := configNewestRecord_page f
  simp only [bootConfigStorePlan] at h
  split at h
  · next cur target hnew =>
    split_ifs at h with hsame hlimit
    cases h
    rw [hnew] at hpage
    have hrange := bootConfigReadPage_range hpage
    -- the counter is far from wrapping
    have hlt : cur.counter.toNat < 0xFFFFFFF0 := hrange.2
    have hsucc : (cur.counter + 1).toNat = cur.counter.toNat + 1 := by
      rw [UInt32.toNat_add, show (1 : UInt32).toNat = 1 from rfl, Nat.mod_eq_of_lt (by omega)]
    refine ⟨rfl, by rw [hnew], ⟨rfl, rfl, ?_, UInt32.not_le.mp hlimit⟩, rfl, ?_⟩
    · intro h0
      have : (cur.counter + 1).toNat = 0 := congrArg UInt32.toNat h0
      omega
    · intro c hc
      rw [hnew] at hc
      cases hc
      show cur.counter.toNat < (cur.counter + 1).toNat
      omega
  · next target hnew =>
    split_ifs at h with hzero
    cases h
    have hpos : (1 : UInt32) ≠ 0 := by decide
    have hlimit : 1 < bootConfigCounterLimit := by decide
    refine ⟨rfl, by rw [hnew], ⟨rfl, rfl, hpos, hlimit⟩, rfl, ?_⟩
    intro c hc
    rw [hnew] at hc
    cases hc

lemma Planned.congr {f f' : Flash} {s : ConfigStore} (h : Planned f s)
    (heq : configNewestRecord f' = configNewestRecord f) : Planned f' s where
  page := by rw [heq]; exact h.page
  good := h.good
  flags := h.flags
  newer := by rw [heq]; exact h.newer

/-- What the two doublewords of the page hold when a call of the store is made. -/
def StorePhase.Found (s : ConfigStore) (f : Flash) : StorePhase → Prop
  | .erase => True
  | .payload => s.page.payloadAt f = some erasedDword ∧ s.page.commitAt f = some erasedDword
  | .commit => s.page.payloadAt f = some s.record.payload ∧ s.page.commitAt f = some erasedDword

/-- The record of the store is in its page, and is the newest. -/
def ConfigStore.Landed (s : ConfigStore) (f : Flash) : Prop :=
  bootConfigReadPage f s.page = some s.record ∧
    configNewestRecord f = (some s.record, s.page.other)

/-- What the completion of a call brings. -/
def StorePhase.Done (s : ConfigStore) (f f' : Flash) : StorePhase → Prop
  | .erase => configNewestRecord f' = configNewestRecord f ∧ StorePhase.payload.Found s f'
  | .payload => configNewestRecord f' = configNewestRecord f ∧ StorePhase.commit.Found s f'
  | .commit => s.Landed f'

section

variable {f f' : Flash} {s : ConfigStore} {ph : StorePhase}

lemma Planned.landed (h : Planned f s)
    (hother : bootConfigReadPage f' s.page.other = bootConfigReadPage f s.page.other)
    (hpage : bootConfigReadPage f' s.page = some s.record) : s.Landed f' := by
  refine ⟨hpage, ?_⟩
  rw [h.page] at hother hpage ⊢
  exact configNewestRecord_landed hother hpage h.newer

lemma Planned.keep (h : Planned f s)
    (hother : bootConfigReadPage f' s.page.other = bootConfigReadPage f s.page.other)
    (hpage : bootConfigReadPage f' s.page = bootConfigReadPage f s.page ∨
      bootConfigReadPage f' s.page = none) : configNewestRecord f' = configNewestRecord f := by
  rw [h.page] at hother hpage
  exact configNewestRecord_keep hother hpage

/-- The span of the payload program, and of the commit program. -/
lemma ConfigStore.payload_span (s : ConfigStore) :
    (s.call .payload).span = Set.Ico s.page.addr.toNat (s.page.addr.toNat + 8) := by
  simp only [ConfigStore.call, FmcCall.span, ConfigStore.payload_length]

lemma ConfigStore.commit_span (s : ConfigStore) :
    (s.call .commit).span = Set.Ico (s.page.addr.toNat + 8) (s.page.addr.toNat + 16) := by
  simp only [ConfigStore.call, FmcCall.span, ConfigStore.commit_length, ConfigPage.commit_toNat]

lemma ConfigPage.payload_commit_disjoint (p : ConfigPage) :
    Disjoint (Set.Ico p.addr.toNat (p.addr.toNat + 8))
      (Set.Ico (p.addr.toNat + 8) (p.addr.toNat + 16)) := by
  rw [Set.disjoint_left]
  rintro a ⟨h₁, h₂⟩ ⟨h₃, h₄⟩
  omega

/-- A call of a store leaves the other page alone. -/
lemma ConfigStore.other_unchanged (hu : Unchanged (s.call ph).span f f') :
    bootConfigReadPage f' s.page.other = bootConfigReadPage f s.page.other :=
  bootConfigReadPage_unchanged hu (s.page.region_disjoint.mono_right (s.call_span_subset ph))

lemma ConfigPage.payloadAt_erased (p : ConfigPage) {f : Flash}
    (h : ∀ i < 8, f (p.addr.toNat + i) = .erased) : p.payloadAt f = some erasedDword := by
  refine Flash.dword_eq (by cases p <;> decide) rfl fun i hi => ?_
  rw [h i hi]
  interval_cases i <;> rfl

lemma ConfigPage.commitAt_erased (p : ConfigPage) {f : Flash}
    (h : ∀ i < 8, f (p.addr.toNat + 8 + i) = .erased) : p.commitAt f = some erasedDword := by
  refine Flash.dword_eq (by cases p <;> decide) rfl fun i hi => ?_
  rw [p.commit_toNat, h i hi]
  interval_cases i <;> rfl

/-- An interrupted call leaves the newest record the newest, except that the last one may have
put the new record in its place. -/
theorem Planned.torn (h : Planned f s) (hfound : ph.Found s f)
    (hu : Unchanged (s.call ph).span f f') (ht : s.page.Torn (s.call ph).content f f') :
    configNewestRecord f' = configNewestRecord f ∨
      ph = .commit ∧ s.page.commitAt f' = some s.record.commit ∧ s.Landed f' := by
  have hother := ConfigStore.other_unchanged hu
  cases ph with
  | erase =>
    refine .inl (h.keep hother ?_)
    exact bootConfigReadPage_torn_erase ht.payload ht.commit
      (s.page.payloadAt_erased fun _ _ => rfl) (s.page.commitAt_erased fun _ _ => rfl)
  | payload =>
    -- the commit doubleword is still erased
    rw [s.payload_span] at hu
    have hc := ConfigPage.commitAt_congr hu s.page.payload_commit_disjoint.symm
    exact .inl (h.keep hother (.inr (bootConfigReadPage_no_commit (.inr (hc.trans hfound.2)))))
  | commit =>
    rw [s.commit_span] at hu
    have hp := ConfigPage.payloadAt_congr hu s.page.payload_commit_disjoint
    have hnew : s.page.commitAt (s.call .commit).content = some s.record.commit := by
      refine Flash.dword_eq (by cases s.page <;> decide) (ConfigStore.commit_length _) fun i hi => ?_
      simp only [ConfigStore.call, FmcCall.content, Nat.add_sub_cancel_left]
    rcases ht.commit with hc | hc | hc | hc
    · exact .inl (h.keep hother (.inr (bootConfigReadPage_no_commit (.inr (hc.trans hfound.2)))))
    · exact .inl (h.keep hother (.inr (bootConfigReadPage_no_commit (.inr hc))))
    · refine .inr ⟨rfl, hc.trans hnew, h.landed hother ?_⟩
      exact bootConfigReadPage_record h.good (hp.trans hfound.1) (hc.trans hnew)
    · exact .inl (h.keep hother (.inr (bootConfigReadPage_no_commit (.inl hc))))

/-- A completed call prepares the next one, and the last one puts the record in place. -/
theorem Planned.done (h : Planned f s) (hfound : ph.Found s f)
    (hu : Unchanged (s.call ph).span f f')
    (hok : ∀ a ∈ (s.call ph).span, f' a = (s.call ph).content a) : ph.Done s f f' := by
  have hother := ConfigStore.other_unchanged hu
  cases ph with
  | erase =>
    have hcell : ∀ a, s.page.addr.toNat ≤ a → a < s.page.addr.toNat + 2048 → f' a = .erased :=
      fun a h₁ h₂ => hok a ⟨h₁, h₂⟩
    have hp := s.page.payloadAt_erased fun i hi => hcell _ (by omega) (by omega)
    have hc := s.page.commitAt_erased fun i hi => hcell _ (by omega) (by omega)
    exact ⟨h.keep hother (.inr (bootConfigReadPage_no_commit (.inr hc))), hp, hc⟩
  | payload =>
    rw [s.payload_span] at hu hok
    have hc := (ConfigPage.commitAt_congr hu s.page.payload_commit_disjoint.symm).trans hfound.2
    have hp : s.page.payloadAt f' = some s.record.payload := by
      refine Flash.dword_eq (by cases s.page <;> decide) (ConfigStore.payload_length _) fun i hi => ?_
      rw [hok _ ⟨by omega, by omega⟩]
      simp only [ConfigStore.call, FmcCall.content, Nat.add_sub_cancel_left]
    exact ⟨h.keep hother (.inr (bootConfigReadPage_no_commit (.inr hc))), hp, hc⟩
  | commit =>
    rw [s.commit_span] at hu hok
    have hp := (ConfigPage.payloadAt_congr hu s.page.payload_commit_disjoint).trans hfound.1
    have hc : s.page.commitAt f' = some s.record.commit := by
      refine Flash.dword_eq (by cases s.page <;> decide) (ConfigStore.commit_length _) fun i hi => ?_
      rw [s.page.commit_toNat, hok _ ⟨by omega, by omega⟩]
      simp only [ConfigStore.call, FmcCall.content, s.page.commit_toNat, Nat.add_sub_cancel_left]
    exact h.landed hother (bootConfigReadPage_record h.good hp hc)

end

end Gd32Bridge
