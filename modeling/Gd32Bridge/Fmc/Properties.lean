import Gd32Bridge.Fmc.Basic
import Mathlib.Tactic.IntervalCases
import Mathlib.Tactic.Linarith

/-!
# What a flash call does

Each call has a `span`, the cells it may touch, and a `content`, what they hold once it has
reported success.  The main facts are `fmcCall_unchanged` (nothing outside the span changes,
however the call ends), `fmcCall_ok` (success means the content is there) and
`fmcCall_nominal` (on healthy hardware an admitted call succeeds).
-/

namespace Gd32Bridge

open Memory

/-! ### One operation -/

namespace Board

variable (b : Board) (run : Slot) (o : FlashOp)

@[simp]
lemma exec_dual : (b.exec run o).1.dual = b.dual := by
  simp only [exec]
  split
  · split_ifs <;> rfl
  · rfl
  · rfl

@[simp]
lemma exec_owned : (b.exec run o).1.owned = b.owned := by
  simp only [exec]
  split
  · split_ifs <;> rfl
  · rfl
  · rfl

@[simp]
lemma exec_log : (b.exec run o).1.log = .op run o :: b.log := by
  simp only [exec]
  split
  · split_ifs <;> rfl
  · rfl
  · rfl

@[simp]
lemma exec_script : (b.exec run o).1.script = b.script.tail := by
  simp only [exec]
  split
  · split_ifs <;> rfl
  · rfl
  · rfl

lemma exec_unchanged : Unchanged (o.range b.dual) b.flash (b.exec run o).1.flash := by
  simp only [exec]
  split
  · split_ifs
    · exact overlay_unchanged _ _ _ _
    · exact Unchanged.refl _ _
  · exact overlay_unchanged _ _ _ _
  · exact overlay_unchanged _ _ _ _

variable {b run o}

lemma exec_ready (h : (b.exec run o).2 = .ready) :
    (b.exec run o).1.flash = overlay b.flash (o.lo b.dual) (o.size b.dual) o.content := by
  simp only [exec] at h ⊢
  split at h
  · split_ifs at h with hp
    simp [hp]
  · cases h
  · cases h

/-- With an exhausted script the only failure left is `PGERR` on a doubleword in use. -/
lemma exec_nominal (hs : b.script = []) (hp : o.possible b.flash = true) :
    (b.exec run o).2 = .ready := by
  simp [exec, hs, hp]

end Board

/-- Whether an operation is possible depends on its own cells only. -/
lemma FlashOp.possible_congr {f f' : Flash} {R : Set ℕ} {o : FlashOp} {dual : Bool}
    (h : Unchanged R f f') (hd : Disjoint (o.range dual) R) : o.possible f' = o.possible f := by
  cases o with
  | erasePage => rfl
  | programDword addr dw =>
    have hbytes : f'.bytes addr 8 = f.bytes addr 8 :=
      congrArg (List.map Cell.byte) (h.read_eq hd)
    simp only [possible, hbytes]

/-! ### A walk over operations -/

namespace Board

variable (b : Board) (run : Slot) (os : List FlashOp)

/-- Induction over a walk: what holds at its start and survives one operation of it holds
at its end, wherever it stops. -/
lemma runOps_induct {P : Board → Prop} (b : Board) (run : Slot) (os : List FlashOp) (h₀ : P b)
    (hstep : ∀ b' o, o ∈ os → P b' → P (b'.exec run o).1) : P (b.runOps run os).1 := by
  induction os generalizing b with
  | nil => exact h₀
  | cons o os ih =>
    have h₁ : P (b.exec run o).1 := hstep b o (by simp) h₀
    simp only [runOps]
    cases hx : b.exec run o with
    | mk b' e =>
      rw [hx] at h₁
      cases e with
      | ready => exact ih b' h₁ fun b'' o' ho' => hstep b'' o' (by simp [ho'])
      | fault e => exact h₁
      | cut => exact h₁

@[simp]
lemma runOps_dual : (b.runOps run os).1.dual = b.dual :=
  runOps_induct (P := fun x => x.dual = b.dual) b run os rfl fun _ _ _ h => by simpa using h

@[simp]
lemma runOps_owned : (b.runOps run os).1.owned = b.owned :=
  runOps_induct (P := fun x => x.owned = b.owned) b run os rfl fun _ _ _ h => by simpa using h

lemma runOps_script_nil (h : b.script = []) : (b.runOps run os).1.script = [] :=
  runOps_induct (P := fun x => x.script = []) b run os h fun _ _ _ h => by simp [h]

lemma runOps_unchanged {R : Set ℕ} (hR : ∀ o ∈ os, o.range b.dual ⊆ R) :
    Unchanged R b.flash (b.runOps run os).1.flash := by
  have h := runOps_induct (P := fun x => x.dual = b.dual ∧ Unchanged R b.flash x.flash)
    b run os ⟨rfl, Unchanged.refl _ _⟩ fun b' o ho ⟨hd, hu⟩ => by
      refine ⟨by simpa using hd, hu.trans ?_⟩
      exact (exec_unchanged b' run o).mono (hd ▸ hR o ho)
  exact h.2

/-- A walk logs operations of its list only. -/
lemma runOps_log {e : Event} (he : e ∈ (b.runOps run os).1.log) :
    e ∈ b.log ∨ ∃ o ∈ os, e = .op run o := by
  have h := runOps_induct
    (P := fun x => ∀ e ∈ x.log, e ∈ b.log ∨ ∃ o ∈ os, e = Event.op run o) b run os
    (fun e he => .inl he) fun b' o ho h e he => by
      rw [exec_log, List.mem_cons] at he
      rcases he with rfl | he
      · exact .inr ⟨o, ho, rfl⟩
      · exact h e he
  exact h e he

variable {b run os}

/-- A walk that reports success has gone through all its operations. -/
lemma runOps_ok_cons {o : FlashOp} (h : (b.runOps run (o :: os)).2 = some .ok) :
    (b.exec run o).2 = .ready ∧ b.runOps run (o :: os) = (b.exec run o).1.runOps run os := by
  simp only [runOps] at h ⊢
  cases hx : b.exec run o with
  | mk b' e =>
    rw [hx] at h
    cases e with
    | ready => exact ⟨rfl, rfl⟩
    | fault e => cases e <;> simp [FmcFault.result] at h
    | cut => simp at h

/-- After a successful walk every cell it worked on holds what the operations agree on. -/
lemma runOps_ok {c : Flash} (hc : ∀ o ∈ os, ∀ a ∈ o.range b.dual, o.content a = c a)
    (h : (b.runOps run os).2 = some .ok) {a : ℕ} (ha : ∃ o ∈ os, a ∈ o.range b.dual) :
    (b.runOps run os).1.flash a = c a := by
  induction os generalizing b with
  | nil => simp at ha
  | cons o os ih =>
    obtain ⟨hready, heq⟩ := runOps_ok_cons h
    rw [heq] at h ⊢
    by_cases hrest : ∃ o' ∈ os, a ∈ o'.range b.dual
    · refine ih (fun o' ho' => ?_) h ?_
      · simpa using hc o' (by simp [ho'])
      · simpa using hrest
    · -- the first operation wrote the cell and no later one touches it
      have hao : a ∈ o.range b.dual := by
        obtain ⟨o', ho', ha'⟩ := ha
        rcases List.mem_cons.mp ho' with rfl | ho'
        · exact ha'
        · exact absurd ⟨o', ho', ha'⟩ hrest
      have hun : Unchanged ({a}ᶜ : Set ℕ) (b.exec run o).1.flash
          ((b.exec run o).1.runOps run os).1.flash := by
        refine runOps_unchanged _ _ _ fun o' ho' x hx => ?_
        rintro rfl
        exact hrest ⟨o', ho', by simpa using hx⟩
      rw [hun.apply (by simp), exec_ready hready, overlay_of_mem hao]
      exact hc o (by simp) a hao

/-- On healthy hardware a walk over disjoint cells succeeds if all its operations are possible,
and is stopped by a programming error otherwise. -/
lemma runOps_nominal (hs : b.script = [])
    (hd : os.Pairwise fun o o' => Disjoint (o.range b.dual) (o'.range b.dual)) :
    (b.runOps run os).2 = some (if os.all (·.possible b.flash) then .ok else .error) := by
  induction os generalizing b with
  | nil => rfl
  | cons o os ih =>
    obtain ⟨hfirst, hrest⟩ := List.pairwise_cons.mp hd
    cases hp : o.possible b.flash with
    | false =>
      have hx : (b.exec run o).2 = .fault .pgerr := by simp [exec, hs, hp]
      simp only [runOps, List.all_cons, hp, Bool.false_and, Bool.false_eq_true, if_false]
      cases hb : b.exec run o with
      | mk b' e =>
        rw [hb] at hx
        cases hx
        rfl
    | true =>
      -- the first operation leaves the cells of the others alone
      have hsame : ∀ o' ∈ os, o'.possible (b.exec run o).1.flash = o'.possible b.flash :=
        fun o' ho' => FlashOp.possible_congr (exec_unchanged b run o) (hfirst o' ho').symm
      have ih := ih (b := (b.exec run o).1) (by simp [hs]) (by simpa using hrest)
      have hall : os.all (·.possible (b.exec run o).1.flash) = os.all (·.possible b.flash) := by
        rw [Bool.eq_iff_iff, List.all_eq_true, List.all_eq_true]
        exact forall₂_congr fun o' ho' => by rw [hsame o' ho']
      have hready : (b.exec run o).2 = .ready := exec_nominal hs hp
      rw [hall] at ih
      simp only [runOps, List.all_cons, hp, Bool.true_and]
      cases hb : b.exec run o with
      | mk b' e =>
        rw [hb] at hready ih
        cases hready
        exact ih

end Board

/-! ### The cells of a call -/

/-- First address past the part of the flash the controller drives. -/
def flashEnd : ℕ := 0x08080000

namespace FmcCall

/-- The cells a call works on, the padding of a short last doubleword included. -/
def span : FmcCall → Set ℕ
  | erase base len => Set.Ico base.toNat (base.toNat + len.toNat)
  | program addr data => Set.Ico addr.toNat (addr.toNat + 8 * ((data.length + 7) / 8))

/-- What the cells of the span hold after a successful call. -/
def content : FmcCall → Flash
  | erase _ _ => fun _ => .erased
  | program addr data => fun a => ⟨data.getD (a - addr.toNat) 0xFF, false⟩

/-- The call stays inside the flash array and starts on its own grid. -/
def InFlash : FmcCall → Prop
  | erase base len => otaBootloaderBase.toNat ≤ base.toNat ∧ base.toNat + len.toNat ≤ flashEnd ∧
      base.toNat % 2048 = 0 ∧ len.toNat % 2048 = 0
  | program addr data => otaBootloaderBase.toNat ≤ addr.toNat ∧
      addr.toNat + 8 * ((data.length + 7) / 8) ≤ flashEnd

end FmcCall

/-- Address of the `i`-th step of a walk of stride `n` that stays below `2 ^ 32`. -/
lemma walk_toNat {base n : UInt32} {i : ℕ} (h : base.toNat + i * n.toNat < 2 ^ 32) :
    (base + .ofNat i * n).toNat = base.toNat + i * n.toNat := by
  have hi : (i % 2 ^ 32) * n.toNat % 2 ^ 32 = i * n.toNat := by
    rw [Nat.mod_mul_mod, Nat.mod_eq_of_lt (by omega)]
  rw [UInt32.toNat_add, UInt32.toNat_mul, UInt32.toNat_ofNat', hi, Nat.mod_eq_of_lt h]

/-- In either bank mode `erase_one_page` works on the page that starts at its address. -/
lemma eraseOnePage_lo {dual : Bool} {addr : UInt32} (hlo : otaBootloaderBase.toNat ≤ addr.toNat)
    (hal : addr.toNat % (fmcPageSize dual).toNat = 0) :
    (eraseOnePage dual addr).lo dual = addr.toNat := by
  have hboot : otaBootloaderBase.toNat = 0x08000000 := rfl
  have hbank : otaFmcBank1Base.toNat = 0x08040000 := rfl
  cases dual with
  | false =>
    have hp : (fmcPageSize false).toNat = 2048 := rfl
    have hsub : (addr - otaBootloaderBase).toNat = addr.toNat - 0x08000000 :=
      UInt32.toNat_sub_of_le _ _ hlo
    simp only [eraseOnePage, Bool.false_eq_true, if_false, FlashOp.lo, Bool.false_and,
      UInt32.toNat_div, hsub, hp, hboot] at hal hlo ⊢
    omega
  | true =>
    have hp : (fmcPageSize true).toNat = 1024 := rfl
    simp only [eraseOnePage, if_true]
    split_ifs with hb
    · have hb' : otaFmcBank1Base.toNat ≤ addr.toNat := hb
      have hsub : (addr - otaFmcBank1Base).toNat = addr.toNat - 0x08040000 :=
        UInt32.toNat_sub_of_le _ _ hb
      simp only [FlashOp.lo, Bool.and_self, if_true, UInt32.toNat_div, hsub, hp, hbank]
        at hal hb' ⊢
      omega
    · have hsub : (addr - otaBootloaderBase).toNat = addr.toNat - 0x08000000 :=
        UInt32.toNat_sub_of_le _ _ hlo
      simp only [FlashOp.lo, Bool.and_false, Bool.false_eq_true, if_false, UInt32.toNat_div,
        hsub, hp, hboot] at hal hlo ⊢
      omega

lemma eraseOnePage_size (dual : Bool) (addr : UInt32) :
    (eraseOnePage dual addr).size dual = (fmcPageSize dual).toNat := by
  simp only [eraseOnePage]
  split_ifs <;> rfl

lemma eraseOnePage_range {dual : Bool} {addr : UInt32} (hlo : otaBootloaderBase.toNat ≤ addr.toNat)
    (hal : addr.toNat % (fmcPageSize dual).toNat = 0) :
    (eraseOnePage dual addr).range dual =
      Set.Ico addr.toNat (addr.toNat + (fmcPageSize dual).toNat) := by
  rw [FlashOp.range, eraseOnePage_lo hlo hal, eraseOnePage_size]

lemma fmcPageSize_dvd (dual : Bool) : (fmcPageSize dual).toNat ∣ 2048 := by
  cases dual <;> decide

lemma fmcPageSize_pos (dual : Bool) : 0 < (fmcPageSize dual).toNat := by
  cases dual <;> decide

namespace FmcCall

variable {c : FmcCall} {dual : Bool}

/-- The `i`-th page of an erase call. -/
lemma erase_page {base len : UInt32} (h : (erase base len).InFlash) {i : ℕ}
    (hi : i < len.toNat / (fmcPageSize dual).toNat) :
    (eraseOnePage dual (base + .ofNat i * fmcPageSize dual)).range dual =
      Set.Ico (base.toNat + i * (fmcPageSize dual).toNat)
        (base.toNat + i * (fmcPageSize dual).toNat + (fmcPageSize dual).toNat) ∧
    base.toNat + i * (fmcPageSize dual).toNat + (fmcPageSize dual).toNat ≤
      base.toNat + len.toNat := by
  obtain ⟨hlo, hhi, hb, -⟩ := h
  have hend : base.toNat + i * (fmcPageSize dual).toNat + (fmcPageSize dual).toNat ≤
      base.toNat + len.toNat := by
    have h₁ := Nat.mul_le_mul_right (fmcPageSize dual).toNat (Nat.succ_le_of_lt hi)
    have h₂ := Nat.div_mul_le_self len.toNat (fmcPageSize dual).toNat
    rw [Nat.succ_mul] at h₁
    omega
  have haddr : (base + .ofNat i * fmcPageSize dual).toNat =
      base.toNat + i * (fmcPageSize dual).toNat := by
    apply walk_toNat
    simp only [flashEnd] at hhi
    omega
  refine ⟨?_, hend⟩
  rw [eraseOnePage_range, haddr]
  · rw [haddr]
    omega
  · rw [haddr]
    have hdvd := (fmcPageSize_dvd dual).trans (Nat.dvd_of_mod_eq_zero hb)
    exact Nat.mod_eq_zero_of_dvd (Nat.dvd_add hdvd (Nat.dvd_mul_left _ _))

/-- The `i`-th doubleword of a program call. -/
lemma program_dword {addr : UInt32} {data : List UInt8} (h : (program addr data).InFlash) {i : ℕ}
    (hi : i < (data.length + 7) / 8) :
    (addr + .ofNat (8 * i)).toNat = addr.toNat + 8 * i := by
  obtain ⟨-, hhi⟩ := h
  simp only [flashEnd] at hhi
  have h8 : 8 * i % 2 ^ 32 = 8 * i := Nat.mod_eq_of_lt (by omega)
  rw [UInt32.toNat_add, UInt32.toNat_ofNat', h8, Nat.mod_eq_of_lt (by omega)]

/-- Every operation of a call stays inside its span. -/
lemma work_subset (h : c.InFlash) {o : FlashOp} (ho : o ∈ c.work dual) :
    o.range dual ⊆ c.span := by
  cases c with
  | erase base len =>
    obtain ⟨i, hi, rfl⟩ := List.mem_map.mp ho
    obtain ⟨hr, hend⟩ := erase_page h (List.mem_range.mp hi)
    rw [hr]
    exact Set.Ico_subset_Ico (by omega) hend
  | program addr data =>
    obtain ⟨i, hi, rfl⟩ := List.mem_map.mp ho
    have hi := List.mem_range.mp hi
    have ha := program_dword h hi
    simp only [FlashOp.range, FlashOp.lo, FlashOp.size, ha, span]
    exact Set.Ico_subset_Ico (by omega) (by omega)

/-- No two operations of a call meet. -/
lemma work_pairwise (h : c.InFlash) :
    (c.work dual).Pairwise fun o o' => Disjoint (o.range dual) (o'.range dual) := by
  cases c with
  | erase base len =>
    refine List.pairwise_map.mpr (List.pairwise_lt_range.imp_of_mem fun {i j} hi hj hij => ?_)
    obtain ⟨hri, -⟩ := erase_page h (List.mem_range.mp hi)
    obtain ⟨hrj, -⟩ := erase_page h (List.mem_range.mp hj)
    have hmul := Nat.mul_le_mul_right (fmcPageSize dual).toNat (Nat.succ_le_of_lt hij)
    rw [Nat.succ_mul] at hmul
    rw [hri, hrj, Set.disjoint_left]
    rintro a ⟨-, h₁⟩ ⟨h₂, -⟩
    omega
  | program addr data =>
    refine List.pairwise_map.mpr (List.pairwise_lt_range.imp_of_mem fun {i j} hi hj hij => ?_)
    simp only [FlashOp.range, FlashOp.lo, FlashOp.size, program_dword h (List.mem_range.mp hi),
      program_dword h (List.mem_range.mp hj)]
    rw [Set.disjoint_left]
    rintro a ⟨-, h₁⟩ ⟨h₂, -⟩
    omega

/-- The operations of a call leave no cell of its span out. -/
lemma work_covers (h : c.InFlash) {a : ℕ} (ha : a ∈ c.span) : ∃ o ∈ c.work dual, a ∈ o.range dual := by
  cases c with
  | erase base len =>
    obtain ⟨hlo, hhi⟩ := ha
    have hpos := fmcPageSize_pos dual
    -- the page that holds `a`
    have hdm := Nat.div_add_mod (a - base.toNat) (fmcPageSize dual).toNat
    have hmod := Nat.mod_lt (a - base.toNat) hpos
    have hi : (a - base.toNat) / (fmcPageSize dual).toNat <
        len.toNat / (fmcPageSize dual).toNat := by
      have hdvd := (fmcPageSize_dvd dual).trans (Nat.dvd_of_mod_eq_zero h.2.2.2)
      rw [Nat.div_lt_iff_lt_mul hpos, Nat.div_mul_cancel hdvd]
      omega
    refine ⟨_, List.mem_map.mpr ⟨_, List.mem_range.mpr hi, rfl⟩, ?_⟩
    rw [(erase_page h hi).1, Set.mem_Ico]
    rw [Nat.mul_comm] at hdm
    omega
  | program addr data =>
    obtain ⟨hlo, hhi⟩ := ha
    have hi : (a - addr.toNat) / 8 < (data.length + 7) / 8 := by omega
    refine ⟨_, List.mem_map.mpr ⟨_, List.mem_range.mpr hi, rfl⟩, ?_⟩
    simp only [FlashOp.range, FlashOp.lo, FlashOp.size, program_dword h hi, Set.mem_Ico]
    omega

/-- The operations of a call write its content. -/
lemma work_content (h : c.InFlash) {o : FlashOp} (ho : o ∈ c.work dual) {a : ℕ}
    (ha : a ∈ o.range dual) : o.content a = c.content a := by
  cases c with
  | erase base len =>
    obtain ⟨i, -, rfl⟩ := List.mem_map.mp ho
    simp only [eraseOnePage]
    split_ifs <;> rfl
  | program addr data =>
    obtain ⟨i, hi, rfl⟩ := List.mem_map.mp ho
    have hi := List.mem_range.mp hi
    simp only [FlashOp.range, FlashOp.lo, FlashOp.size, program_dword h hi, Set.mem_Ico] at ha
    have hk : a - (addr.toNat + 8 * i) < 8 := by omega
    have hidx : 8 * i + (a - (addr.toNat + 8 * i)) = a - addr.toNat := by omega
    have hpad : (padDword data i).getD (a - (addr.toNat + 8 * i)) 0xFF =
        data.getD (a - addr.toNat) 0xFF := by
      simp [padDword, hk, hidx]
    simp only [FlashOp.content, content, program_dword h hi, hpad]

end FmcCall

/-! ### One call -/

namespace Board

variable {b : Board} {run : Slot} {c : FmcCall}

@[simp]
lemma fmcCall_dual : (b.fmcCall run c).1.dual = b.dual := by
  simp only [fmcCall]
  split_ifs
  · rfl
  · rfl
  · simp [release, claim]

/-- A call leaves the funnel as it found it. -/
@[simp]
lemma fmcCall_owned : (b.fmcCall run c).1.owned = b.owned := by
  simp only [fmcCall]
  split_ifs with h₁ h₂
  · rfl
  · rfl
  · simp [release, h₂]

lemma fmcCall_script_nil (hs : b.script = []) : (b.fmcCall run c).1.script = [] := by
  simp only [fmcCall]
  split_ifs
  · exact hs
  · exact hs
  · exact runOps_script_nil (b.claim run c) run _ hs

/-- However a call ends, the cells outside its span are as before. -/
lemma fmcCall_unchanged (h : c.InFlash) :
    Unchanged c.span b.flash (b.fmcCall run c).1.flash := by
  simp only [fmcCall]
  split_ifs
  · exact Unchanged.refl _ _
  · exact Unchanged.refl _ _
  · exact runOps_unchanged (b.claim run c) run _ fun o ho => FmcCall.work_subset h ho

/-- A call that reports success has put its content in place. -/
lemma fmcCall_ok (h : c.InFlash) (hok : (b.fmcCall run c).2 = some .ok) {a : ℕ}
    (ha : a ∈ c.span) : (b.fmcCall run c).1.flash a = c.content a := by
  simp only [fmcCall] at hok ⊢
  split_ifs at hok ⊢ with h₁ h₂
  · cases hok
  · cases hok
  · exact runOps_ok (b := b.claim run c) (fun o ho a ha => FmcCall.work_content h ho ha) hok
      (FmcCall.work_covers h ha)

/-- A call that reports success was admitted and had the funnel to itself. -/
lemma fmcCall_ok_admits (hok : (b.fmcCall run c).2 = some .ok) :
    c.admits run = true ∧ b.owned = false := by
  simp only [fmcCall] at hok
  split_ifs at hok with h₁ h₂
  · cases hok
  · cases hok
  · exact ⟨by simpa using h₁, by simpa using h₂⟩

/-- What a call adds to the log: itself and operations of its own. -/
lemma fmcCall_log {e : Event} (he : e ∈ (b.fmcCall run c).1.log) :
    e ∈ b.log ∨ c.admits run = true ∧ (e = .call run c ∨ ∃ o ∈ c.work b.dual, e = .op run o) := by
  simp only [fmcCall] at he
  split_ifs at he with h₁ h₂
  · exact .inl he
  · exact .inl he
  · rcases runOps_log (b.claim run c) run (c.work b.dual) he with he | he
    · rcases List.mem_cons.mp he with rfl | he
      · exact .inr ⟨by simpa using h₁, .inl rfl⟩
      · exact .inl he
    · exact .inr ⟨by simpa using h₁, .inr he⟩

/-- A call on healthy hardware, with the funnel free. -/
lemma fmcCall_nominal (hs : b.script = []) (ho : b.owned = false) (ha : c.admits run = true)
    (h : c.InFlash) : (b.fmcCall run c).2 =
      some (if (c.work b.dual).all (·.possible b.flash) then .ok else .error) := by
  simp only [fmcCall, ha, ho, Bool.not_true, Bool.false_eq_true, if_false]
  exact runOps_nominal (b := b.claim run c) hs (FmcCall.work_pairwise h)

/-- An erase call on healthy hardware succeeds. -/
lemma fmcCall_erase_nominal {base len : UInt32} (hs : b.script = []) (ho : b.owned = false)
    (ha : (FmcCall.erase base len).admits run = true) (h : (FmcCall.erase base len).InFlash) :
    (b.fmcCall run (.erase base len)).2 = some .ok := by
  have hall : ((FmcCall.erase base len).work b.dual).all (·.possible b.flash) = true := by
    rw [List.all_eq_true]
    intro o hmem
    obtain ⟨i, -, rfl⟩ := List.mem_map.mp hmem
    simp only [eraseOnePage]
    split_ifs <;> rfl
  rw [fmcCall_nominal hs ho ha h, hall]
  rfl

/-- Nothing happens while the funnel is owned. -/
lemma fmcCall_busy (ho : b.owned = true) : b.fmcCall run c = (b, some .error) := by
  simp only [fmcCall, ho, if_true, ite_self]

end Board

end Gd32Bridge
