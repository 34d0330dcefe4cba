import Gd32Bridge.Gpio.Words
import Gd32Bridge.Lib.Transition

/-!
# Grouped accesses act on each pad alone

A write or a read of a group of pads is one of each selected pad in a model that has nothing but
pads: parked, sampled or driven.
-/

namespace Gd32Bridge

open Transition

variable {g : Gpio} {mask levels : BitVec 32} {port : GpioPort} {n : Fin 16}

/-! ### Sampling -/

/-- The sample of a port, taken when it is first needed. -/
def GpioSamples.take (q : GpioSamples) (istat : ℕ → GpioPort → BitVec 16) (port : GpioPort) :
    GpioSamples :=
  if ¬ q.sampled (gpioMappedPortIndex port) then
    { q with
      inputs := Function.update q.inputs (gpioMappedPortIndex port) (istat q.count port)
      sampled := Function.update q.sampled (gpioMappedPortIndex port) true
      count := q.count + 1 }
  else q

/-- The samples held are those taken at `time`. -/
def GpioSamples.At (q : GpioSamples) (istat : ℕ → GpioPort → BitVec 16) (time : GpioPort → ℕ) :
    Prop :=
  ∀ port, q.sampled (gpioMappedPortIndex port) = true →
    q.inputs (gpioMappedPortIndex port) = istat (time port) port

lemma GpioSamples.At.take {q : GpioSamples} {istat : ℕ → GpioPort → BitVec 16}
    {time : GpioPort → ℕ} (h : q.At istat time) (port : GpioPort) :
    ∃ time', (q.take istat port).At istat time' ∧
      (∀ p, q.sampled (gpioMappedPortIndex p) = true → time' p = time p) ∧
      (∀ p, q.sampled (gpioMappedPortIndex p) = true →
        (q.take istat port).sampled (gpioMappedPortIndex p) = true) ∧
      (q.take istat port).sampled (gpioMappedPortIndex port) = true ∧
      (q.take istat port).levels = q.levels := by
  by_cases hs : q.sampled (gpioMappedPortIndex port) = true
  · have htake : q.take istat port = q := if_neg fun hc => hc hs
    rw [htake]
    exact ⟨time, h, fun _ _ => rfl, fun _ hp => hp, hs, rfl⟩
  · rw [GpioSamples.take, if_pos hs]
    have hne {p : GpioPort} (hp : p ≠ port) : gpioMappedPortIndex p ≠ gpioMappedPortIndex port :=
      fun heq => hp (gpioMappedPortIndex_inj.mp heq)
    have hother {p : GpioPort} (hp : q.sampled (gpioMappedPortIndex p) = true) : p ≠ port := by
      rintro rfl
      exact hs hp
    refine ⟨Function.update time port q.count, fun p hp => ?_, fun p hp => ?_, fun p hp => ?_,
      Function.update_self _ _ _, rfl⟩
    · by_cases heq : p = port
      · rw [heq]
        simp only [Function.update_self]
      · simp only [Function.update_of_ne (hne heq), Function.update_of_ne heq] at hp ⊢
        exact h p hp
    · exact Function.update_of_ne (hother hp) _ _
    · exact (Function.update_of_ne (hne (hother hp)) _ _).trans hp

/-- The second loop of a read takes at most one sample of each port; `time` says which it was. -/
lemma gpioSample_spec (istat : ℕ → GpioPort → BitVec 16) (mask : BitVec 32)
    (l : List (GpioPad × ℕ)) (q : GpioSamples) (time : GpioPort → ℕ)
    (hl : ∀ x ∈ l, gpioMappedPortIndex x.1.periph ≠ gpioMappedPortCount ∧ x.2 < 32)
    (hq : q.At istat time) :
    ∃ (q' : GpioSamples) (time' : GpioPort → ℕ), gpioSample istat mask l q = some q' ∧
      (∀ port, q.sampled (gpioMappedPortIndex port) = true → time' port = time port) ∧
      ∀ b, q'.levels.getLsbD b = true ↔ q.levels.getLsbD b = true ∨
        ∃ x ∈ l, x.2 = b ∧ selects mask b = true ∧
          (istat (time' x.1.periph) x.1.periph).getLsbD x.1.pinNo = true := by
  induction l generalizing q time with
  | nil => exact ⟨q, time, rfl, fun _ _ => rfl, by simp⟩
  | cons x l ih =>
    obtain ⟨pad, i⟩ := x
    have hrest : ∀ x ∈ l, gpioMappedPortIndex x.1.periph ≠ gpioMappedPortCount ∧ x.2 < 32 :=
      fun x hx => hl x (List.mem_cons_of_mem _ hx)
    obtain ⟨hmapped, hi⟩ := hl (pad, i) List.mem_cons_self
    rw [gpioSample]
    by_cases hsel : selects mask i = true
    swap
    · obtain ⟨q', time', hq', htime, hbits⟩ := ih q time hrest hq
      rw [if_pos hsel]
      refine ⟨q', time', hq', htime, fun b => ?_⟩
      rw [hbits b]
      simp only [List.mem_cons, exists_eq_or_imp]
      have hnot : ¬ (i = b ∧ selects mask b = true ∧
          (istat (time' pad.periph) pad.periph).getLsbD pad.pinNo = true) :=
        fun h => hsel (h.1 ▸ h.2.1)
      simp only [hnot, false_or]
    · simp only [hsel, not_true_eq_false, if_false, hmapped]
      obtain ⟨time₁, hq₁, htime₁, hmore, hself, hlevels⟩ := hq.take pad.periph
      rw [← GpioSamples.take]
      generalize q.take istat pad.periph = q₁ at hq₁ hmore hself hlevels ⊢
      have hbit : (q₁.inputs (gpioMappedPortIndex pad.periph)).setWidth 32 &&& pad.pin ≠ 0#32 ↔
          (istat (time₁ pad.periph) pad.periph).getLsbD pad.pinNo = true := by
        have hn := pad.pinNo.isLt
        have hsel : selects ((q₁.inputs (gpioMappedPortIndex pad.periph)).setWidth 32) pad.pinNo =
            (istat (time₁ pad.periph) pad.periph).getLsbD pad.pinNo := by
          rw [selects_eq _ (by omega), hq₁ _ hself, BitVec.getLsbD_setWidth]
          simp
          omega
        rw [← hsel]
        exact decide_eq_true_iff.symm
      generalize hq₂ :
        (if (q₁.inputs (gpioMappedPortIndex pad.periph)).setWidth 32 &&& pad.pin ≠ 0#32 then
          { q₁ with levels := q₁.levels ||| 1#32 <<< i } else q₁) = q₂
      have hsame : q₂.inputs = q₁.inputs ∧ q₂.sampled = q₁.sampled := by
        rw [← hq₂]
        split_ifs
        · exact ⟨rfl, rfl⟩
        · exact ⟨rfl, rfl⟩
      have hlev (b : ℕ) : q₂.levels.getLsbD b = true ↔ q.levels.getLsbD b = true ∨
          i = b ∧ (istat (time₁ pad.periph) pad.periph).getLsbD pad.pinNo = true := by
        rw [← hq₂, ← hlevels]
        split_ifs with hset
        · rw [hbit] at hset
          have hone : (1#32 <<< i).getLsbD b = true ↔ i = b := by
            simp
            omega
          simp only [BitVec.getLsbD_or, Bool.or_eq_true, hone, hset, and_true]
        · rw [hbit] at hset
          simp only [hset, Bool.false_eq_true, and_false, or_false]
      have hat : q₂.At istat time₁ := by
        intro port hp
        rw [hsame.1]
        rw [hsame.2] at hp
        exact hq₁ port hp
      obtain ⟨q', time', hq', htime, hbits⟩ := ih q₂ time₁ hrest hat
      rw [hsame.2] at htime
      refine ⟨q', time', hq', fun port hp => ?_, fun b => ?_⟩
      · rw [htime port (hmore port hp), htime₁ port hp]
      · rw [hbits b, hlev b, or_assoc]
        simp only [List.mem_cons, exists_eq_or_imp, htime _ hself]
        refine or_congr_right (or_congr_left ?_)
        constructor
        · rintro ⟨rfl, hs⟩
          exact ⟨rfl, hsel, hs⟩
        · rintro ⟨rfl, -, hs⟩
          exact ⟨rfl, hs⟩

/-! ### Promotion to input -/

/-- The access that makes a pad a floating input. -/
def GpioPad.toInput (pad : GpioPad) : GpioAccess := .modeSet pad.periph .input .none pad.pin

lemma GpioPad.toInput_after (pad : GpioPad) (p : Pin) (n : Fin 16) :
    p.after n pad.toInput =
      if n = pad.pinNo then { p with mode := .input, pull := .none } else p := by
  simp only [toInput, Pin.after, pad.pin_getLsbD_fin, decide_eq_true_eq]

/-- What the first loop of a read over `l` does. -/
structure GpioPromoted (mask : BitVec 32) (l : List (GpioPad × ℕ)) (g g' : Gpio)
    (new : List GpioAccess) : Prop where
  pins : g'.pins = new.foldl Pins.access g.pins
  isOutput : g'.isOutput = g.isOutput
  inputPromoted : ∀ i, g'.inputPromoted i = true ↔ g.inputPromoted i = true ∨
    ∃ x ∈ l, x.2 = i ∧ selects mask i = true ∧ g.isOutput i = false
  only : ∀ y ∈ new, ∃ x ∈ l, selects mask x.2 = true ∧ g.isOutput x.2 = false ∧ y = x.1.toInput
  all : ∀ x ∈ l, selects mask x.2 = true → g.isOutput x.2 = false → g.inputPromoted x.2 = false →
    x.1.toInput ∈ new

/-- A pad the loop passes over. -/
lemma GpioPromoted.skip {l : List (GpioPad × ℕ)} {g' : Gpio} {new : List GpioAccess}
    {x : GpioPad × ℕ} (h : GpioPromoted mask l g g' new)
    (hx : selects mask x.2 = true → g.isOutput x.2 = false → g.inputPromoted x.2 = true) :
    GpioPromoted mask (x :: l) g g' new := by
  refine ⟨h.pins, h.isOutput, fun i => ?_, fun y hy => ?_, fun y hy hs ho hp => ?_⟩
  · rw [h.inputPromoted i]
    simp only [List.mem_cons, exists_eq_or_imp]
    constructor
    · exact fun hc => hc.imp_right .inr
    · rintro (hp | ⟨rfl, hs, ho⟩ | hex)
      · exact .inl hp
      · exact .inl (hx hs ho)
      · exact .inr hex
  · obtain ⟨z, hz, hrest⟩ := h.only y hy
    exact ⟨z, List.mem_cons_of_mem _ hz, hrest⟩
  · rcases List.mem_cons.mp hy with rfl | hy
    · rw [hx hs ho] at hp
      cases hp
    · exact h.all y hy hs ho hp

lemma gpioReadPromote_spec (mask : BitVec 32) (l : List (GpioPad × ℕ)) (g : Gpio)
    (acc : List GpioAccess) (hl : ∀ x ∈ l, ∀ y ∈ l, x.2 = y.2 → x = y) :
    ∃ g' new, gpioReadPromote mask l g acc = (g', acc ++ new) ∧ GpioPromoted mask l g g' new := by
  induction l generalizing g acc with
  | nil => exact ⟨g, [], by simp [gpioReadPromote], ⟨rfl, rfl, by simp, by simp, by simp⟩⟩
  | cons x l ih =>
    obtain ⟨pad, i⟩ := x
    have hrest : ∀ x ∈ l, ∀ y ∈ l, x.2 = y.2 → x = y := fun x hx y hy =>
      hl x (List.mem_cons_of_mem _ hx) y (List.mem_cons_of_mem _ hy)
    rw [gpioReadPromote]
    split_ifs with hsel hout hpro
    · obtain ⟨g', new, heq, h⟩ := ih g acc hrest
      refine ⟨g', new, heq, h.skip fun _ ho => ?_⟩
      rw [hout] at ho
      cases ho
    · obtain ⟨g', new, heq, h⟩ := ih g acc hrest
      exact ⟨g', new, heq, h.skip fun _ _ => hpro⟩
    · simp only [Bool.not_eq_true] at hout hpro
      obtain ⟨g', new, heq, h⟩ := ih
        { g with
          pins := g.pins.access pad.toInput
          inputPromoted := Function.update g.inputPromoted i true } (acc ++ [pad.toInput]) hrest
      refine ⟨g', pad.toInput :: new, ?_, h.pins, h.isOutput, fun j => ?_, fun y hy => ?_,
        fun y hy hs ho hp => ?_⟩
      · rw [← List.append_cons] at heq
        exact heq
      · rw [h.inputPromoted j]
        simp only [List.mem_cons, exists_eq_or_imp]
        by_cases hj : j = i
        · subst hj
          simp [hsel, hout]
        · simp only [Function.update_of_ne hj, Ne.symm hj, false_and, false_or]
      · rcases List.mem_cons.mp hy with rfl | hy
        · exact ⟨(pad, i), List.mem_cons_self, hsel, hout, rfl⟩
        · obtain ⟨z, hz, hrest⟩ := h.only y hy
          exact ⟨z, List.mem_cons_of_mem _ hz, hrest⟩
      · by_cases hyi : y.2 = i
        · rw [hl y hy (pad, i) List.mem_cons_self hyi]
          exact List.mem_cons_self
        · rcases List.mem_cons.mp hy with rfl | hy
          · exact absurd rfl hyi
          · refine List.mem_cons_of_mem _ (h.all y hy hs ho ?_)
            exact (Function.update_of_ne hyi _ _).trans hp
    · obtain ⟨g', new, heq, h⟩ := ih g acc hrest
      exact ⟨g', new, heq, h.skip fun hs => absurd hs hsel⟩

/-- A floating input. -/
def Pin.Floats (p : Pin) : Prop := p.mode = .input ∧ p.pull = .none

/-- Accesses that make floating inputs keep one. -/
lemma Pins.foldl_toInput_keeps {new : List GpioAccess} {s : Pins}
    (h : ∀ y ∈ new, ∃ pad : GpioPad, y = pad.toInput) (hs : (s port n).Floats) :
    (new.foldl Pins.access s port n).Floats := by
  induction new generalizing s with
  | nil => exact hs
  | cons y new ih =>
    refine ih (fun z hz => h z (List.mem_cons_of_mem _ hz)) ?_
    obtain ⟨pad, rfl⟩ := h y List.mem_cons_self
    simp only [Pins.access, pad.toInput_after]
    split_ifs
    · exact ⟨rfl, rfl⟩
    · exact hs
    · exact hs

/-- And make one of every pad they name. -/
lemma Pins.foldl_toInput {new : List GpioAccess} {s : Pins} {pad : GpioPad}
    (h : ∀ y ∈ new, ∃ pad : GpioPad, y = pad.toInput) (hmem : pad.toInput ∈ new) :
    (new.foldl Pins.access s pad.periph pad.pinNo).Floats := by
  obtain ⟨before, rest, rfl⟩ := List.append_of_mem hmem
  rw [List.foldl_append, List.foldl_cons]
  refine Pins.foldl_toInput_keeps (fun y hy => h y ?_) ?_
  · exact List.mem_append_right _ (List.mem_cons_of_mem _ hy)
  · have hport : pad.periph = pad.toInput.port := rfl
    simp only [Pins.access, if_pos hport, pad.toInput_after, if_true]
    exact ⟨rfl, rfl⟩

/-! ### The model of single pads -/

inductive PadState
  | parked
  | sampled
  | driven (level : Bool)
deriving DecidableEq, Repr

def Pads := ℕ → PadState

/-- A read leaves a driven pad alone and makes any other an input. -/
def PadState.read : PadState → PadState
  | driven level => driven level
  | parked | sampled => sampled

def Pads.write (a : Pads) (mask levels : BitVec 32) : Pads :=
  if selects mask 8 then a
  else fun i => if selects mask i then .driven (selects levels i) else a i

def Pads.read (a : Pads) (mask : BitVec 32) : Pads :=
  if selects mask 8 then a else fun i => if selects mask i then (a i).read else a i

def Pads.call (a : Pads) : GpioCall → Pads
  | .read _ mask => a.read mask
  | .write mask levels => a.write mask levels

/-- The pads after `bridge_hw_init`. -/
def Pads.init (sdmuxEnHigh : Bool) : Pads :=
  let a : Pads := fun i =>
    if i = 18 ∨ i = 19 then .driven false else if i = 20 then .driven true else .parked
  if sdmuxEnHigh then a.write (1#32 <<< 12) (1#32 <<< 12) else a

/-- The pin and the two flags of a pad in each state. -/
def PadState.Holds (p : Pin) (isOutput inputPromoted : Bool) : PadState → Prop
  | parked => p.mode = .analog ∧ isOutput = false ∧ inputPromoted = false
  | sampled => p.Floats ∧ isOutput = false ∧ inputPromoted = true
  | driven level => p.Drives level ∧ isOutput = true ∧ inputPromoted = false

def Gpio.pad (g : Gpio) (pad : GpioPad) : Pin := g.pins pad.periph pad.pinNo

/-- The code's variables and registers against the model. -/
def Gpio.Models (g : Gpio) (a : Pads) : Prop :=
  ∀ x ∈ gpioPads, (a x.2).Holds (g.pad x.1) (g.isOutput x.2) (g.inputPromoted x.2)

/-- A write drives the selected pads; at no point does another pin change or a pad that is promoted
drive a level that is not its own. -/
structure GpioWriteSpec (g : Gpio) (mask levels : BitVec 32) (r : GpioResult) : Prop where
  unrouted : selects mask 8 = true → r = ⟨g, .notimpl, []⟩
  routed : selects mask 8 = false → r.rv = .ok
  pins : r.gpio.pins = r.accesses.foldl Pins.access g.pins
  driven : selects mask 8 = false → ∀ x ∈ gpioPads, selects mask x.2 = true →
    (r.gpio.pad x.1).Drives (selects levels x.2)
  kept : ∀ pre, pre <+: r.accesses → ∀ port n, (∀ x, ¬ Selected mask port n x) →
    pre.foldl Pins.access g.pins port n = g.pins port n
  promoted : ∀ pre, pre <+: r.accesses → ∀ port n x, Selected mask port n x →
    (g.pins port n).mode ≠ .output → (pre.foldl Pins.access g.pins port n).mode = .output →
    (pre.foldl Pins.access g.pins port n).Drives (selects levels x.2)

/-- A read reports one sample of each port it names; at no point does an output or a pin that is not
named change. -/
structure GpioReadSpec (g : Gpio) (istat : ℕ → GpioPort → BitVec 16) (mask : BitVec 32)
    (r : GpioResult × Option (BitVec 32)) : Prop where
  unrouted : selects mask 8 = true → r = (⟨g, .notimpl, []⟩, none)
  routed : selects mask 8 = false → r.1.rv = .ok ∧ ∃ (out : BitVec 32) (time : GpioPort → ℕ),
    r.2 = some out ∧ ∀ b, out.getLsbD b = true ↔ ∃ x ∈ gpioPads, x.2 = b ∧
      selects mask b = true ∧ (istat (time x.1.periph) x.1.periph).getLsbD x.1.pinNo = true
  pins : r.1.gpio.pins = r.1.accesses.foldl Pins.access g.pins
  kept : ∀ pre, pre <+: r.1.accesses → ∀ port n,
    (g.pins port n).mode = .output ∨ (∀ x, ¬ Selected mask port n x) →
    pre.foldl Pins.access g.pins port n = g.pins port n

/-! ### One call -/

variable {a : Pads}

lemma Pads.write_apply (h : selects mask 8 = false) (i : ℕ) :
    a.write mask levels i = if selects mask i then .driven (selects levels i) else a i := by
  rw [Pads.write, h]
  rfl

lemma Pads.read_apply (h : selects mask 8 = false) (i : ℕ) :
    a.read mask i = if selects mask i then (a i).read else a i := by
  rw [Pads.read, h]
  rfl

/-- The flags of a pad say whether its pin is an output. -/
lemma PadState.Holds.isOutput_iff {p : Pin} {o i : Bool} {st : PadState} (h : st.Holds p o i) :
    (o = true ↔ p.mode = .output) ∧ (o = true → p.pushPull = true) ∧ ¬ (o = true ∧ i = true) := by
  cases st with
  | parked =>
    obtain ⟨hmode, ho, hi⟩ := h
    simp [hmode, ho]
  | sampled =>
    obtain ⟨⟨hmode, -⟩, ho, hi⟩ := h
    simp [hmode, ho]
  | driven level =>
    obtain ⟨⟨hmode, hpp, -⟩, ho, hi⟩ := h
    simp [hmode, hpp, ho, hi]

lemma Gpio.Models.selected (h : g.Models a) {x : GpioPad × ℕ} (hx : Selected mask port n x) :
    (a x.2).Holds (g.pins port n) (g.isOutput x.2) (g.inputPromoted x.2) := by
  have hpad := h x hx.1
  rw [Gpio.pad, hx.2.2] at hpad
  exact hpad

lemma bridgeHwGpioWrite_unrouted (h : selects mask 8 = true) :
    bridgeHwGpioWrite g mask levels = ⟨g, .notimpl, []⟩ := if_pos (of_decide_eq_true h)

/-- A write that is not refused. -/
lemma bridgeHwGpioWrite_routed (g : Gpio) (levels : BitVec 32) (h : selects mask 8 = false) :
    ∃ w, w.For g.isOutput mask levels ∧ bridgeHwGpioWrite g mask levels =
      ⟨⟨(gpioWriteAccesses w).foldl Pins.access g.pins,
        fun i => g.isOutput i || (decide (i < gpioPadMapCount) && selects mask i),
        fun i => g.inputPromoted i && !(decide (i < gpioPadMapCount) && selects mask i)⟩,
        .ok, gpioWriteAccesses w⟩ := by
  obtain ⟨w, hw, hfor⟩ := gpioGroup_for g.isOutput mask levels
  have hroute : ¬ (mask &&& gpioPadUnroutedMask ≠ 0#32) := of_decide_eq_false h
  refine ⟨w, hfor, ?_⟩
  rw [bridgeHwGpioWrite, if_neg hroute, hw]
  rfl

theorem Gpio.Models.write_spec (h : g.Models a) (mask levels : BitVec 32) :
    GpioWriteSpec g mask levels (bridgeHwGpioWrite g mask levels) := by
  cases h8 : selects mask 8 with
  | true =>
    rw [bridgeHwGpioWrite_unrouted h8]
    refine ⟨fun _ => rfl, fun hc => ?_, rfl, fun hc => ?_, fun pre hpre port n _ => ?_,
      fun pre hpre port n x _ hmode hout => ?_⟩
    · rw [h8] at hc
      cases hc
    · rw [h8] at hc
      cases hc
    · rw [List.prefix_nil.mp hpre]
      rfl
    · rw [List.prefix_nil.mp hpre] at hout
      exact absurd hout hmode
  | false =>
    obtain ⟨w, hw, heq⟩ := bridgeHwGpioWrite_routed g levels h8
    rw [heq]
    refine ⟨fun hc => ?_, fun _ => rfl, rfl, fun _ x hx hsel => ?_, fun pre hpre port n hno => ?_,
      fun pre hpre port n x hx hmode hout => ?_⟩
    · rw [h8] at hc
      cases hc
    · refine hw.driven g.pins ⟨hx, hsel, rfl⟩ fun hold => ?_
      have hiff := (h x hx).isOutput_iff
      exact ⟨hiff.1.mp hold, hiff.2.1 hold⟩
    · exact hw.kept g.pins hno hpre
    · have hiff := (h.selected hx).isOutput_iff
      refine hw.promoted g.pins hx ?_ hmode hpre hout
      rw [Bool.eq_false_iff]
      exact fun hold => hmode (hiff.1.mp hold)

/-- A pin with an unselected pad is on no selected one. -/
lemma not_selected {x : GpioPad × ℕ} (hx : x ∈ gpioPads) (hsel : selects mask x.2 = false) :
    ∀ y, ¬ Selected mask x.1.periph x.1.pinNo y := by
  intro y hy
  have heq : y = x := gpioPads_inj hy.1 hx (.inl hy.2.2)
  have hys := hy.2.1
  rw [heq, hsel] at hys
  cases hys

theorem Gpio.Models.write (h : g.Models a) (mask levels : BitVec 32) :
    (bridgeHwGpioWrite g mask levels).gpio.Models (a.write mask levels) := by
  have hspec := h.write_spec mask levels
  cases h8 : selects mask 8 with
  | true =>
    have hsame : a.write mask levels = a := if_pos h8
    rw [hspec.unrouted h8, hsame]
    exact h
  | false =>
    intro x hx
    have hdriven := hspec.driven h8 x hx
    have hkept := hspec.kept _ List.prefix_rfl x.1.periph x.1.pinNo
    rw [← hspec.pins] at hkept
    obtain ⟨w, -, heq⟩ := bridgeHwGpioWrite_routed g levels h8
    have hlt : decide (x.2 < gpioPadMapCount) = true := decide_eq_true (gpioPads_lt hx)
    have hisOutput : (bridgeHwGpioWrite g mask levels).gpio.isOutput x.2 =
        (g.isOutput x.2 || selects mask x.2) := by
      rw [heq]
      simp only [hlt, Bool.true_and]
    have hinput : (bridgeHwGpioWrite g mask levels).gpio.inputPromoted x.2 =
        (g.inputPromoted x.2 && !selects mask x.2) := by
      rw [heq]
      simp only [hlt, Bool.true_and]
    rw [hisOutput, hinput, Pads.write_apply h8]
    cases hsel : selects mask x.2 with
    | true => exact ⟨hdriven hsel, Bool.or_true _, Bool.and_false _⟩
    | false =>
      have hpad := h x hx
      rw [Gpio.pad, ← hkept (not_selected hx hsel), ← Gpio.pad] at hpad
      simpa only [Bool.or_false, Bool.not_false, Bool.and_true, Bool.false_eq_true, if_false]
        using hpad

/-- A read that is not refused. -/
lemma bridgeHwGpioRead_routed (g : Gpio) (istat : ℕ → GpioPort → BitVec 16)
    (h : selects mask 8 = false) :
    ∃ g' new q, GpioPromoted mask gpioPads g g' new ∧
      gpioSample istat mask gpioPads ⟨fun _ => 0#16, fun _ => false, 0, 0#32⟩ = some q ∧
      bridgeHwGpioRead g istat mask = (⟨g', .ok, new⟩, some q.levels) := by
  have hroute : ¬ (mask &&& gpioPadUnroutedMask ≠ 0#32) := of_decide_eq_false h
  obtain ⟨g', new, heq, hpro⟩ := gpioReadPromote_spec mask gpioPads g []
    fun x hx y hy hxy => gpioPads_inj hx hy (.inr hxy)
  obtain ⟨q, -, hq, -⟩ := gpioSample_spec istat mask gpioPads
    ⟨fun _ => 0#16, fun _ => false, 0, 0#32⟩ (fun _ => 0)
    (fun x hx => ⟨gpioPads_mapped hx, Nat.lt_trans (gpioPads_lt hx) (by decide)⟩)
    (fun _ hc => Bool.noConfusion hc)
  refine ⟨g', new, q, hpro, hq, ?_⟩
  rw [bridgeHwGpioRead, if_neg hroute]
  simp only [heq, hq, List.nil_append]

theorem Gpio.Models.read_spec (h : g.Models a) (istat : ℕ → GpioPort → BitVec 16)
    (mask : BitVec 32) : GpioReadSpec g istat mask (bridgeHwGpioRead g istat mask) := by
  cases h8 : selects mask 8 with
  | true =>
    have heq : bridgeHwGpioRead g istat mask = (⟨g, .notimpl, []⟩, none) :=
      if_pos (of_decide_eq_true h8)
    rw [heq]
    refine ⟨fun _ => rfl, fun hc => ?_, rfl, fun pre hpre port n _ => ?_⟩
    · rw [h8] at hc
      cases hc
    · rw [List.prefix_nil.mp hpre]
      rfl
  | false =>
    obtain ⟨g', new, q, hpro, hq, heq⟩ := bridgeHwGpioRead_routed g istat h8
    obtain ⟨q', time, hq', -, hbits⟩ := gpioSample_spec istat mask gpioPads
      ⟨fun _ => 0#16, fun _ => false, 0, 0#32⟩ (fun _ => 0)
      (fun x hx => ⟨gpioPads_mapped hx, Nat.lt_trans (gpioPads_lt hx) (by decide)⟩)
      (fun _ hc => Bool.noConfusion hc)
    rw [hq, Option.some.injEq] at hq'
    rw [heq]
    refine ⟨fun hc => ?_, fun _ => ⟨rfl, q.levels, time, rfl, fun b => ?_⟩, hpro.pins,
      fun pre hpre port n hpin => ?_⟩
    · rw [h8] at hc
      cases hc
    · rw [hq', hbits b]
      simp only [BitVec.getLsbD_zero, Bool.false_eq_true, false_or]
    · -- the accesses name selected pads that are not outputs
      refine Pins.foldl_access_of_untouched fun y hy hport p => ?_
      obtain ⟨x, hx, hsel, hout, rfl⟩ := hpro.only y (hpre.subset hy)
      rw [x.1.toInput_after, if_neg]
      rintro rfl
      have hselected : Selected mask port x.1.pinNo x := by
        refine ⟨hx, hsel, ?_⟩
        rw [← hport]
        rfl
      rcases hpin with hmode | hno
      · rw [(h.selected hselected).isOutput_iff.1.mpr hmode] at hout
        cases hout
      · exact hno x hselected

theorem Gpio.Models.read (h : g.Models a) (istat : ℕ → GpioPort → BitVec 16) (mask : BitVec 32) :
    (bridgeHwGpioRead g istat mask).1.gpio.Models (a.read mask) := by
  have hspec := h.read_spec istat mask
  cases h8 : selects mask 8 with
  | true =>
    have hsame : a.read mask = a := if_pos h8
    rw [hspec.unrouted h8, hsame]
    exact h
  | false =>
    intro x hx
    have hkept := hspec.kept _ List.prefix_rfl x.1.periph x.1.pinNo
    rw [← hspec.pins] at hkept
    obtain ⟨g', new, q, hpro, -, heq⟩ := bridgeHwGpioRead_routed g istat h8
    have hinput : g'.inputPromoted x.2 = (g.inputPromoted x.2 ||
        (selects mask x.2 && !g.isOutput x.2)) := by
      rw [Bool.eq_iff_iff, hpro.inputPromoted x.2]
      simp only [Bool.or_eq_true, Bool.and_eq_true, Bool.not_eq_true']
      exact or_congr_right ⟨fun ⟨y, _, _, hy⟩ => hy, fun hy => ⟨x, hx, rfl, hy⟩⟩
    have hpad := h x hx
    have hinputs (y : GpioAccess) (hy : y ∈ new) : ∃ pad : GpioPad, y = pad.toInput := by
      obtain ⟨z, -, -, -, hz⟩ := hpro.only y hy
      exact ⟨z.1, hz⟩
    rw [heq] at hkept ⊢
    rw [Pads.read_apply h8]
    simp only [hpro.isOutput, hinput]
    cases hsel : selects mask x.2 with
    | false =>
      rw [Gpio.pad, ← hkept (.inr (not_selected hx hsel)), ← Gpio.pad] at hpad
      simpa only [Bool.false_and, Bool.or_false, Bool.false_eq_true, if_false] using hpad
    | true =>
      cases hst : a x.2 with
      | parked =>
        rw [hst] at hpad
        obtain ⟨-, hout, hin⟩ := hpad
        refine ⟨?_, hout, by simp [hout]⟩
        rw [Gpio.pad, hpro.pins]
        exact Pins.foldl_toInput hinputs (hpro.all x hx hsel hout hin)
      | sampled =>
        rw [hst] at hpad
        obtain ⟨hfloats, hout, hin⟩ := hpad
        refine ⟨?_, hout, by simp [hin]⟩
        rw [Gpio.pad, hpro.pins]
        exact Pins.foldl_toInput_keeps hinputs hfloats
      | driven level =>
        rw [hst] at hpad
        obtain ⟨hdrives, hout, hin⟩ := hpad
        rw [Gpio.pad, ← hkept (.inl hdrives.1), ← Gpio.pad] at hdrives
        exact ⟨hdrives, hout, by simp [hout, hin]⟩

/-! ### Runs -/

/-- The pads at reset are analog; what other pins are is left open. -/
def GpioInit (x : Gpio × Pads) : Prop :=
  ∃ pins sdmuxEnHigh, (∀ p ∈ gpioPads, (pins p.1.periph p.1.pinNo).mode = .analog) ∧
    x = (gpioInit pins sdmuxEnHigh, Pads.init sdmuxEnHigh)

/-- Accesses that name a single pad. -/
lemma Pin.after_single (p : Pin) (n : Fin 16) (pad : GpioPad) (port : GpioPort) :
    p.after n (.bc port pad.pin) = { p with octl := p.octl && !decide (n = pad.pinNo) } ∧
    p.after n (.bop port pad.pin) = { p with octl := decide (n = pad.pinNo) || p.octl } ∧
    p.after n (.outputOptionsSet port pad.pin) =
      (if n = pad.pinNo then { p with pushPull := true } else p) ∧
    p.after n (.modeSet port .output .none pad.pin) =
      (if n = pad.pinNo then { p with mode := .output, pull := .none } else p) := by
  simp only [Pin.after, pad.pin_getLsbD_fin, pad.pin_getLsbD_high, Bool.not_false, Bool.and_true,
    decide_eq_true_eq, and_self]

lemma gpioInit_models {pins : Pins}
    (h : ∀ p ∈ gpioPads, (pins p.1.periph p.1.pinNo).mode = .analog) (sdmuxEnHigh : Bool) :
    (gpioInit pins sdmuxEnHigh).Models (Pads.init sdmuxEnHigh) := by
  have hparked : (gpioInit pins false).Models (Pads.init false) := by
    intro x hx
    have hmode := h x hx
    simp only [gpioPads, gpioPadMap, List.zipIdx_cons, List.zipIdx_nil, List.mem_cons,
      List.not_mem_nil, or_false] at hx
    rcases hx with rfl | rfl | rfl | rfl | rfl | rfl | rfl | rfl | rfl | rfl | rfl | rfl | rfl |
      rfl | rfl | rfl | rfl | rfl | rfl | rfl | rfl <;>
    simp [gpioInit, Pads.init, PadState.Holds, Gpio.pad, Pins.access, Pin.after_single,
      GpioAccess.port, Pin.Drives, hmode]
  cases sdmuxEnHigh with
  | false => exact hparked
  | true => exact hparked.write (1#32 <<< 12) (1#32 <<< 12)

/-- One call of the code is one of the model. -/
lemma Gpio.Models.step (h : g.Models a) {c : GpioCall} {g' : Gpio} (hs : gpioStep g c = some g') :
    g'.Models (a.call c) := by
  cases c with
  | read istat mask =>
    cases hs
    exact h.read istat mask
  | write mask levels =>
    cases hs
    exact h.write mask levels

/-- In every run from boot the pads are those of the model, and every call does to the pins what the
model says, at each of its accesses. -/
theorem gpio_refines_pads (x : Gpio × Pads)
    (h : Reach (withHistory gpioStep fun a _ c _ => a.call c) GpioInit (fun _ _ _ => True) x) :
    x.1.Models x.2 ∧
      (∀ p ∈ gpioPads, ¬ (x.1.isOutput p.2 = true ∧ x.1.inputPromoted p.2 = true)) ∧
      (∀ mask levels, GpioWriteSpec x.1 mask levels (bridgeHwGpioWrite x.1 mask levels)) ∧
      ∀ istat mask, GpioReadSpec x.1 istat mask (bridgeHwGpioRead x.1 istat mask) := by
  have hmodels : x.1.Models x.2 := by
    refine Reach.invariant (I := fun x => x.1.Models x.2) (fun s hs => ?_) ?_ h
    · obtain ⟨pins, flag, hpins, rfl⟩ := hs
      exact gpioInit_models hpins flag
    · intro s c s' _ hm hs _
      obtain ⟨hstep, hcall⟩ := withHistory_eq_some.mp hs
      rw [hcall]
      exact hm.step hstep
  exact ⟨hmodels, fun p hp => (hmodels p hp).isOutput_iff.2.2, fun mask levels =>
    hmodels.write_spec mask levels, fun istat mask => hmodels.read_spec istat mask⟩

/-- Every pin at reset. -/
def resetPins : Pins := fun _ _ => ⟨.analog, .none, true, false⟩

/-- A write of two pads after a read of one of them. -/
theorem gpio_refines_pads_write :
    let istat := fun _ _ => 0#16
    let g := (bridgeHwGpioRead (gpioInit resetPins true) istat 0x1#32).1.gpio
    (bridgeHwGpioWrite g 0x9#32 0x1#32).gpio.Models
      (((Pads.init true).read 0x1#32).write 0x9#32 0x1#32) := by
  intro istat g
  have hinit : GpioInit (gpioInit resetPins true, Pads.init true) :=
    ⟨resetPins, true, fun _ _ => rfl, rfl⟩
  have hread : Reach (withHistory gpioStep fun a _ c _ => a.call c) GpioInit (fun _ _ _ => True)
      (g, (Pads.init true).read 0x1#32) :=
    .next (.read istat 0x1#32) (.start hinit) (withHistory_eq_some.mpr ⟨rfl, rfl⟩) trivial
  refine (gpio_refines_pads ((bridgeHwGpioWrite g 0x9#32 0x1#32).gpio,
    ((Pads.init true).read 0x1#32).write 0x9#32 0x1#32) ?_).1
  exact .next (.write 0x9#32 0x1#32) hread (withHistory_eq_some.mpr ⟨rfl, rfl⟩) trivial

end Gd32Bridge
