import Gd32Bridge.Gpio.Basic
import Mathlib.Tactic.Common

/-!
# The words of a grouped write

The words of a port say for each of its pins what the one pad on that pin is commanded to do, if it
is selected at all.  A pin sees the few accesses to its port only, so what happens on it between two
of them can be listed.
-/

namespace Gd32Bridge

variable {mask levels : BitVec 32} {port : GpioPort} {n : Fin 16}

/-! ### Pads and pins -/

lemma selects_eq (mask : BitVec 32) {i : ℕ} (hi : i < 32) : selects mask i = mask.getLsbD i := by
  have hbit : mask &&& (1#32 <<< i) ≠ 0#32 ↔ mask.getLsbD i = true := by
    constructor
    · intro h
      by_contra hc
      refine h (BitVec.eq_of_getLsbD_eq fun j hj => ?_)
      by_cases hij : j = i
      · subst hij
        simp [hc]
      · simp
        omega
    · intro h hz
      have hzero : (mask &&& (1#32 <<< i)).getLsbD i = false := by rw [hz, BitVec.getLsbD_zero]
      rw [BitVec.getLsbD_and, h, BitVec.getLsbD_shiftLeft] at hzero
      simp [hi] at hzero
  simp only [selects]
  rw [Bool.eq_iff_iff, decide_eq_true_iff, hbit]

lemma GpioPad.pin_getLsbD (pad : GpioPad) (b : ℕ) : pad.pin.getLsbD b = decide (b = pad.pinNo) := by
  have := pad.pinNo.isLt
  rw [Bool.eq_iff_iff]
  simp [pin]
  omega

lemma GpioPad.pin_getLsbD_fin (pad : GpioPad) (n : Fin 16) :
    pad.pin.getLsbD n = decide (n = pad.pinNo) := by
  simp only [pin_getLsbD, Fin.val_inj]

lemma GpioPad.pin_getLsbD_high (pad : GpioPad) (n : Fin 16) : pad.pin.getLsbD (n + 16) = false := by
  have := pad.pinNo.isLt
  rw [pin_getLsbD, decide_eq_false_iff_not]
  omega

lemma GpioPad.pin_shiftLeft_getLsbD (pad : GpioPad) (b : ℕ) :
    (pad.pin <<< 16).getLsbD b = decide (b = pad.pinNo + 16) := by
  have := pad.pinNo.isLt
  rw [Bool.eq_iff_iff, BitVec.getLsbD_shiftLeft, pin_getLsbD]
  simp
  omega

lemma gpioMappedPortIndex_inj {p q : GpioPort} :
    gpioMappedPortIndex p = gpioMappedPortIndex q ↔ p = q := by
  cases p <;> cases q <;> decide

/-- No two pads share a pin or a bit. -/
lemma gpioPads_inj {x y : GpioPad × ℕ} (hx : x ∈ gpioPads) (hy : y ∈ gpioPads)
    (h : x.1 = y.1 ∨ x.2 = y.2) : x = y := by
  have hall : ∀ x ∈ gpioPads, ∀ y ∈ gpioPads, x.1 = y.1 ∨ x.2 = y.2 → x = y := by decide
  exact hall x hx y hy h

lemma gpioPads_mapped {x : GpioPad × ℕ} (hx : x ∈ gpioPads) :
    gpioMappedPortIndex x.1.periph ≠ gpioMappedPortCount := by
  revert x
  decide

lemma gpioPads_lt {x : GpioPad × ℕ} (hx : x ∈ gpioPads) : x.2 < gpioPadMapCount := by
  revert x
  decide

/-! ### What the words say -/

/-- The selected pad on a pin. -/
def Selected (mask : BitVec 32) (port : GpioPort) (n : Fin 16) (x : GpioPad × ℕ) : Prop :=
  x ∈ gpioPads ∧ selects mask x.2 = true ∧ x.1 = ⟨port, n⟩

/-- The bits of the words a loop over `l` adds to. -/
lemma gpioGroup_spec (isOutput : ℕ → Bool) (mask levels : BitVec 32) (l : List (GpioPad × ℕ))
    (w : GpioWords) (hl : ∀ x ∈ l, gpioMappedPortIndex x.1.periph ≠ gpioMappedPortCount) :
    ∃ w', gpioGroup isOutput mask levels l w = some w' ∧ ∀ port b,
      ((w'.bop (gpioMappedPortIndex port)).getLsbD b = true ↔
        (w.bop (gpioMappedPortIndex port)).getLsbD b = true ∨
          ∃ x ∈ l, selects mask x.2 = true ∧ x.1.periph = port ∧
            b = x.1.pinNo + if selects levels x.2 then 0 else 16) ∧
      ((w'.promote (gpioMappedPortIndex port)).getLsbD b = true ↔
        (w.promote (gpioMappedPortIndex port)).getLsbD b = true ∨
          ∃ x ∈ l, selects mask x.2 = true ∧ x.1.periph = port ∧ isOutput x.2 = false ∧
            b = x.1.pinNo) := by
  induction l generalizing w with
  | nil => exact ⟨w, rfl, by simp⟩
  | cons x l ih =>
    obtain ⟨pad, i⟩ := x
    have hrest : ∀ x ∈ l, gpioMappedPortIndex x.1.periph ≠ gpioMappedPortCount :=
      fun x hx => hl x (List.mem_cons_of_mem _ hx)
    rw [gpioGroup]
    by_cases hsel : selects mask i = true
    swap
    · obtain ⟨w', hw', hbits⟩ := ih w hrest
      rw [if_pos hsel]
      refine ⟨w', hw', fun port b => ?_⟩
      simp only [List.mem_cons, exists_eq_or_imp, hsel, Bool.false_eq_true, false_and, false_or]
      exact hbits port b
    · have hmapped : gpioMappedPortIndex pad.periph ≠ gpioMappedPortCount :=
        hl (pad, i) List.mem_cons_self
      simp only [hsel, not_true_eq_false, if_false, hmapped]
      obtain ⟨w', hw', hbits⟩ := ih
        ⟨Function.update w.bop (gpioMappedPortIndex pad.periph)
            (w.bop (gpioMappedPortIndex pad.periph) |||
              if selects levels i then pad.pin else pad.pin <<< 16),
          if ¬ isOutput i = true then Function.update w.promote (gpioMappedPortIndex pad.periph)
            (w.promote (gpioMappedPortIndex pad.periph) ||| pad.pin) else w.promote⟩ hrest
      refine ⟨w', hw', fun port b => ?_⟩
      have hword : (if selects levels i then pad.pin else pad.pin <<< 16).getLsbD b =
          decide (b = pad.pinNo + if selects levels i then 0 else 16) := by
        cases selects levels i with
        | true => exact pad.pin_getLsbD b
        | false => exact pad.pin_shiftLeft_getLsbD b
      obtain ⟨hbop, hpro⟩ := hbits port b
      rw [hbop, hpro]
      simp only [List.mem_cons, exists_eq_or_imp, hsel, true_and]
      by_cases hport : pad.periph = port
      · subst hport
        constructor
        · simp only [Function.update_self, BitVec.getLsbD_or, Bool.or_eq_true, hword,
            decide_eq_true_eq, true_and, or_assoc]
        · cases isOutput i with
          | true => simp
          | false => simp [pad.pin_getLsbD, or_assoc]
      · have hidx : gpioMappedPortIndex port ≠ gpioMappedPortIndex pad.periph :=
          fun h => hport (gpioMappedPortIndex_inj.mp h).symm
        constructor
        · simp only [Function.update_of_ne hidx, hport, false_and, false_or]
        · cases isOutput i with
          | true => simp [hport]
          | false => simp [Function.update_of_ne hidx, hport]

/-- The words of a write: bit `n` sets and bit `n + 16` clears the pad on pin `n`. -/
structure GpioWords.For (w : GpioWords) (isOutput : ℕ → Bool) (mask levels : BitVec 32) : Prop where
  set : ∀ port (n : Fin 16), (w.bop (gpioMappedPortIndex port)).getLsbD n = true ↔
    ∃ x, Selected mask port n x ∧ selects levels x.2 = true
  clear : ∀ port (n : Fin 16), (w.bop (gpioMappedPortIndex port)).getLsbD (n + 16) = true ↔
    ∃ x, Selected mask port n x ∧ selects levels x.2 = false
  promote : ∀ port (n : Fin 16), (w.promote (gpioMappedPortIndex port)).getLsbD n = true ↔
    ∃ x, Selected mask port n x ∧ isOutput x.2 = false
  high : ∀ port (n : Fin 16), (w.promote (gpioMappedPortIndex port)).getLsbD (n + 16) = false

lemma gpioGroup_for (isOutput : ℕ → Bool) (mask levels : BitVec 32) :
    ∃ w, gpioGroup isOutput mask levels gpioPads ⟨fun _ => 0#32, fun _ => 0#32⟩ = some w ∧
      w.For isOutput mask levels := by
  obtain ⟨w, hw, hbits⟩ := gpioGroup_spec isOutput mask levels gpioPads
    ⟨fun _ => 0#32, fun _ => 0#32⟩ fun x hx => gpioPads_mapped hx
  have hpad (x : GpioPad × ℕ) (port : GpioPort) (n : Fin 16) :
      x.1 = ⟨port, n⟩ ↔ x.1.periph = port ∧ (n : ℕ) = x.1.pinNo := by
    obtain ⟨⟨p, k⟩, i⟩ := x
    simp [Fin.ext_iff, eq_comm]
  refine ⟨w, hw, fun port n => ?_, fun port n => ?_, fun port n => ?_, fun port n => ?_⟩
  · rw [(hbits port n).1]
    simp only [BitVec.getLsbD_zero, Bool.false_eq_true, false_or, Selected, hpad]
    refine exists_congr fun x => ?_
    have := x.1.pinNo.isLt
    have := n.isLt
    cases selects levels x.2 with
    | true => simp
    | false =>
      simp only [Bool.false_eq_true, if_false, and_false, iff_false, not_and]
      omega
  · rw [(hbits port (n + 16)).1]
    simp only [BitVec.getLsbD_zero, Bool.false_eq_true, false_or, Selected, hpad]
    refine exists_congr fun x => ?_
    have := x.1.pinNo.isLt
    have := n.isLt
    cases selects levels x.2 with
    | false => simp
    | true =>
      simp only [if_true, Bool.true_eq_false, and_false, iff_false, not_and]
      omega
  · rw [(hbits port n).2]
    simp only [BitVec.getLsbD_zero, Bool.false_eq_true, false_or, Selected, hpad]
    refine exists_congr fun x => ?_
    constructor
    · rintro ⟨hx, hs, hp, ho, hn⟩
      exact ⟨⟨hx, hs, hp, hn⟩, ho⟩
    · rintro ⟨⟨hx, hs, hp, hn⟩, ho⟩
      exact ⟨hx, hs, hp, ho, hn⟩
  · rw [Bool.eq_false_iff, Ne, (hbits port (n + 16)).2]
    rintro (h | ⟨x, -, -, -, -, hn⟩)
    · simp at h
    · have := x.1.pinNo.isLt
      omega

/-! ### Accesses and pins -/

/-- A pin only sees the accesses to its port. -/
lemma Pins.foldl_access (xs : List GpioAccess) (s : Pins) (port : GpioPort) (n : Fin 16) :
    xs.foldl Pins.access s port n =
      (xs.filter fun x => x.port = port).foldl (fun p x => p.after n x) (s port n) := by
  induction xs generalizing s with
  | nil => rfl
  | cons x xs ih =>
    rw [List.foldl_cons, ih]
    by_cases hport : x.port = port
    · rw [List.filter_cons_of_pos (by simpa using hport), List.foldl_cons]
      simp [Pins.access, hport]
    · rw [List.filter_cons_of_neg (by simpa using hport)]
      simp [Pins.access, Ne.symm hport]

/-- A pin that no access touches. -/
lemma Pins.foldl_access_of_untouched {xs : List GpioAccess} {s : Pins}
    (h : ∀ x ∈ xs, x.port = port → ∀ p : Pin, p.after n x = p) :
    xs.foldl Pins.access s port n = s port n := by
  induction xs generalizing s with
  | nil => rfl
  | cons x xs ih =>
    rw [List.foldl_cons, ih fun y hy => h y (List.mem_cons_of_mem _ hy)]
    simp only [Pins.access]
    split_ifs with hport
    · exact h x List.mem_cons_self hport.symm _
    · rfl

/-- The accesses of a write. -/
def gpioWriteAccesses (w : GpioWords) : List GpioAccess :=
  gpioPorts.flatMap (gpioPromote w) ++ gpioPorts.flatMap (gpioFinal w)

lemma gpioPromote_port {w : GpioWords} {x : GpioPort × ℕ} {y : GpioAccess}
    (h : y ∈ gpioPromote w x) : y.port = x.1 := by
  simp only [gpioPromote] at h
  split_ifs at h
  · cases h
  · simp only [List.mem_cons, List.not_mem_nil, or_false] at h
    rcases h with rfl | rfl | rfl <;> rfl

lemma gpioFinal_port {w : GpioWords} {x : GpioPort × ℕ} {y : GpioAccess}
    (h : y ∈ gpioFinal w x) : y.port = x.1 := by
  simp only [gpioFinal] at h
  split_ifs at h
  · simp only [List.mem_cons, List.not_mem_nil, or_false] at h
    rw [h]
    rfl
  · cases h

/-- Of blocks of accesses to one port each, those to `port`. -/
lemma filter_flatMap_port {f : GpioPort × ℕ → List GpioAccess}
    (hf : ∀ x, ∀ y ∈ f x, y.port = x.1) (port : GpioPort) :
    (gpioPorts.flatMap f).filter (fun x => x.port = port) =
      if port = .g then [] else f (port, gpioMappedPortIndex port) := by
  have hfilter (x : GpioPort × ℕ) :
      (f x).filter (fun y => y.port = port) = if x.1 = port then f x else [] := by
    split_ifs with h
    · exact List.filter_eq_self.mpr fun y hy => by simp [hf x y hy, h]
    · exact List.filter_eq_nil_iff.mpr fun y hy => by simp [hf x y hy, h]
  rw [List.filter_flatMap]
  simp only [hfilter]
  cases port <;> simp [gpioPorts, gpioMappedPorts] <;> rfl

lemma filter_gpioWriteAccesses (w : GpioWords) (port : GpioPort) :
    (gpioWriteAccesses w).filter (fun x => x.port = port) =
      if port = .g then [] else gpioPromote w (port, gpioMappedPortIndex port) ++
        gpioFinal w (port, gpioMappedPortIndex port) := by
  rw [gpioWriteAccesses, List.filter_append, filter_flatMap_port fun _ _ => gpioPromote_port,
    filter_flatMap_port fun _ _ => gpioFinal_port]
  split_ifs
  · rfl
  · rfl

/-- What a pin goes through during a write: `up` and `down` are its bits in the final word, `new`
says that it is promoted. -/
def Pin.stages (p : Pin) (up down new : Bool) : List Pin :=
  let p₁ := { p with octl := (up && new) || (p.octl && !(down && new)) }
  let p₂ := if new then { p₁ with pushPull := true } else p₁
  let p₃ := if new then { p₂ with mode := .output, pull := .none } else p₂
  let p₄ := { p₃ with octl := up || (p₃.octl && !down) }
  [p, p₁, p₂, p₃, p₄]

section Stages

variable {w : GpioWords} {isOutput : ℕ → Bool}

lemma shiftLeft_getLsbD_low (v : BitVec 32) (n : Fin 16) : (v <<< 16).getLsbD n = false := by
  rw [BitVec.getLsbD_shiftLeft]
  simp

lemma shiftLeft_getLsbD_high (v : BitVec 32) (n : Fin 16) :
    (v <<< 16).getLsbD (n + 16) = v.getLsbD n := by
  rw [BitVec.getLsbD_shiftLeft]
  simp
  omega

/-- The accesses to one port, as a pin of it sees them. -/
lemma GpioWords.For.stages (h : w.For isOutput mask levels) (p : Pin) (port : GpioPort) (n : Fin 16)
    {pre : List GpioAccess} (hpre : pre <+: gpioPromote w (port, gpioMappedPortIndex port) ++
      gpioFinal w (port, gpioMappedPortIndex port)) :
    pre.foldl (fun p x => p.after n x) p ∈
      p.stages ((w.bop (gpioMappedPortIndex port)).getLsbD n)
        ((w.bop (gpioMappedPortIndex port)).getLsbD (n + 16))
        ((w.promote (gpioMappedPortIndex port)).getLsbD n) := by
  have hhigh := h.high port n
  simp only [gpioPromote, gpioFinal] at hpre
  by_cases hp : w.promote (gpioMappedPortIndex port) = 0#32
  · by_cases hb : w.bop (gpioMappedPortIndex port) = 0#32
    · simp only [hp, hb, if_true, ne_eq, not_true_eq_false, if_false, List.append_nil,
        List.prefix_nil] at hpre
      rw [hpre]
      exact List.mem_cons_self
    · simp only [hp, hb, if_true, ne_eq, not_false_eq_true, List.nil_append, List.prefix_cons_iff,
        List.prefix_nil, exists_eq_right] at hpre
      rcases hpre with rfl | rfl
      · exact List.mem_cons_self
      · simp [Pin.stages, Pin.after, hp]
  · have hall : pre <+: [
        .bop port (w.bop (gpioMappedPortIndex port) &&&
          (w.promote (gpioMappedPortIndex port) ||| w.promote (gpioMappedPortIndex port) <<< 16)),
        .outputOptionsSet port (w.promote (gpioMappedPortIndex port)),
        .modeSet port .output .none (w.promote (gpioMappedPortIndex port)),
        .bop port (w.bop (gpioMappedPortIndex port))] := by
      refine hpre.trans ?_
      rw [if_neg hp]
      split_ifs
      · exact List.prefix_rfl
      · exact List.prefix_append _ _
    simp only [List.prefix_cons_iff, List.prefix_nil] at hall
    rcases hall with rfl | ⟨_, rfl, rfl | ⟨_, rfl, rfl | ⟨_, rfl, rfl | ⟨_, rfl, rfl⟩⟩⟩⟩
    · exact List.mem_cons_self
    all_goals
      simp [Pin.stages, Pin.after, -BitVec.getLsbD_shiftLeft, shiftLeft_getLsbD_low,
        shiftLeft_getLsbD_high, hhigh]

/-- After them the pin is in its last stage. -/
lemma GpioWords.For.last_stage (h : w.For isOutput mask levels) (p : Pin) (port : GpioPort)
    (n : Fin 16) :
    some ((gpioPromote w (port, gpioMappedPortIndex port) ++
      gpioFinal w (port, gpioMappedPortIndex port)).foldl (fun p x => p.after n x) p) =
      (p.stages ((w.bop (gpioMappedPortIndex port)).getLsbD n)
        ((w.bop (gpioMappedPortIndex port)).getLsbD (n + 16))
        ((w.promote (gpioMappedPortIndex port)).getLsbD n)).getLast? := by
  simp only [gpioPromote, gpioFinal]
  by_cases hp : w.promote (gpioMappedPortIndex port) = 0#32 <;>
    by_cases hb : w.bop (gpioMappedPortIndex port) = 0#32 <;>
    simp [Pin.stages, Pin.after, hp, hb, -BitVec.getLsbD_shiftLeft, shiftLeft_getLsbD_low,
      shiftLeft_getLsbD_high, h.high port n]

/-- The selected pad on a pin decides its bits. -/
lemma GpioWords.For.bits (h : w.For isOutput mask levels) {x : GpioPad × ℕ}
    (hx : Selected mask port n x) :
    (w.bop (gpioMappedPortIndex port)).getLsbD n = selects levels x.2 ∧
      (w.bop (gpioMappedPortIndex port)).getLsbD (n + 16) = !selects levels x.2 ∧
      (w.promote (gpioMappedPortIndex port)).getLsbD n = !isOutput x.2 := by
  have huniq {y : GpioPad × ℕ} (hy : Selected mask port n y) : y = x :=
    gpioPads_inj hy.1 hx.1 (.inl (hy.2.2.trans hx.2.2.symm))
  refine ⟨?_, ?_, ?_⟩
  · rw [Bool.eq_iff_iff, h.set]
    exact ⟨fun ⟨y, hy, hl⟩ => huniq hy ▸ hl, fun hl => ⟨x, hx, hl⟩⟩
  · rw [Bool.eq_iff_iff, h.clear, Bool.not_eq_true']
    exact ⟨fun ⟨y, hy, hl⟩ => huniq hy ▸ hl, fun hl => ⟨x, hx, hl⟩⟩
  · rw [Bool.eq_iff_iff, h.promote, Bool.not_eq_true']
    exact ⟨fun ⟨y, hy, hl⟩ => huniq hy ▸ hl, fun hl => ⟨x, hx, hl⟩⟩

/-- Without one they are clear. -/
lemma GpioWords.For.no_bits (h : w.For isOutput mask levels)
    (hx : ∀ x, ¬ Selected mask port n x) :
    (w.bop (gpioMappedPortIndex port)).getLsbD n = false ∧
      (w.bop (gpioMappedPortIndex port)).getLsbD (n + 16) = false ∧
      (w.promote (gpioMappedPortIndex port)).getLsbD n = false := by
  refine ⟨?_, ?_, ?_⟩
  · rw [Bool.eq_false_iff, Ne, h.set]
    exact fun ⟨y, hy, _⟩ => hx y hy
  · rw [Bool.eq_false_iff, Ne, h.clear]
    exact fun ⟨y, hy, _⟩ => hx y hy
  · rw [Bool.eq_false_iff, Ne, h.promote]
    exact fun ⟨y, hy, _⟩ => hx y hy

/-- A selected pad is on a mapped port. -/
lemma Selected.port_ne {x : GpioPad × ℕ} (hx : Selected mask port n x) : port ≠ .g := by
  rintro rfl
  have hmapped := gpioPads_mapped hx.1
  rw [hx.2.2] at hmapped
  exact hmapped (show gpioMappedPortIndex .g = gpioMappedPortCount by decide)

/-- The pin drives the level. -/
def Pin.Drives (p : Pin) (level : Bool) : Prop :=
  p.mode = .output ∧ p.pushPull = true ∧ p.octl = level

/-- A pin with no selected pad does not change at any point of a write. -/
lemma GpioWords.For.kept (h : w.For isOutput mask levels) (s : Pins)
    (hx : ∀ x, ¬ Selected mask port n x) {pre : List GpioAccess}
    (hpre : pre <+: gpioWriteAccesses w) : pre.foldl Pins.access s port n = s port n := by
  have hport := hpre.filter fun x => decide (x.port = port)
  rw [filter_gpioWriteAccesses] at hport
  rw [Pins.foldl_access]
  split_ifs at hport
  · rw [List.prefix_nil.mp hport]
    rfl
  · obtain ⟨hup, hdown, hnew⟩ := h.no_bits hx
    have hstage := h.stages (s port n) port n hport
    rw [hup, hdown, hnew] at hstage
    simpa [Pin.stages] using hstage

/-- A pad that is promoted never drives another level than its own. -/
lemma GpioWords.For.promoted (h : w.For isOutput mask levels) (s : Pins) {x : GpioPad × ℕ}
    (hx : Selected mask port n x) (hnew : isOutput x.2 = false) (hmode : (s port n).mode ≠ .output)
    {pre : List GpioAccess} (hpre : pre <+: gpioWriteAccesses w)
    (hout : (pre.foldl Pins.access s port n).mode = .output) :
    (pre.foldl Pins.access s port n).Drives (selects levels x.2) := by
  have hport := hpre.filter fun x => decide (x.port = port)
  rw [filter_gpioWriteAccesses, if_neg hx.port_ne] at hport
  rw [Pins.foldl_access] at hout ⊢
  obtain ⟨hup, hdown, hpro⟩ := h.bits hx
  have hstage := h.stages (s port n) port n hport
  rw [hup, hdown, hpro, hnew] at hstage
  generalize (pre.filter fun x => decide (x.port = port)).foldl (fun p x => p.after n x)
    (s port n) = q at hout hstage ⊢
  simp only [Pin.stages, Bool.not_false, if_true, List.mem_cons, List.not_mem_nil, or_false,
    Bool.and_true] at hstage
  rcases hstage with rfl | rfl | rfl | rfl | rfl
  · exact absurd hout hmode
  · exact absurd hout hmode
  · exact absurd hout hmode
  · cases hl : selects levels x.2 <;> simp [Pin.Drives]
  · cases hl : selects levels x.2 <;> simp [Pin.Drives]

/-- After the write a selected pad drives its level. -/
lemma GpioWords.For.driven (h : w.For isOutput mask levels) (s : Pins) {x : GpioPad × ℕ}
    (hx : Selected mask port n x)
    (hold : isOutput x.2 = true → (s port n).mode = .output ∧ (s port n).pushPull = true) :
    ((gpioWriteAccesses w).foldl Pins.access s port n).Drives (selects levels x.2) := by
  rw [Pins.foldl_access, filter_gpioWriteAccesses, if_neg hx.port_ne]
  obtain ⟨hup, hdown, hpro⟩ := h.bits hx
  have hlast := h.last_stage (s port n) port n
  rw [hup, hdown, hpro] at hlast
  simp only [Pin.stages, List.getLast?_cons_cons, List.getLast?_singleton,
    Option.some.injEq] at hlast
  rw [hlast]
  cases hout : isOutput x.2 with
  | true =>
    obtain ⟨hmode, hpp⟩ := hold hout
    cases hl : selects levels x.2 <;> simp [Pin.Drives, hmode, hpp]
  | false => cases hl : selects levels x.2 <;> simp [Pin.Drives]

end Stages

end Gd32Bridge
