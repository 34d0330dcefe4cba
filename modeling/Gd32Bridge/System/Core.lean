import Gd32Bridge.Protocol.Properties
import Gd32Bridge.System.Basic

/-!
# The OTA core of the system

The metadata, the session and the flash evolve without regard to the peripherals, the link
features or the cached boot configuration.  `Core` is the device with these forgotten, and
`CoreStep` is a relation that lists what one step can do to it; `CoreStep.of_step` shows that
every step of the device is one of these.
-/

namespace Gd32Bridge

variable {σ : Type}

/-- The device without power, or the OTA side of a running one. -/
inductive Core
  | off (b : Board)
  | on (o : Ota) (pc : BasePc)

def Sys.core : Sys σ → Core
  | .off b => .off b
  | .on d pc => .on d.ota pc

namespace Core

def board : Core → Board
  | off b => b
  | on o _ => o.board

def flash (c : Core) : Flash :=
  c.board.flash

/-- Where a request leaves the device. -/
def after (pc : BasePc) : Ota × Outcome → Core
  | (o, .reply _ _) => on o pc
  | (o, .reset) => off o.board
  | (o, .powerLost) => off o.board

end Core

@[simp] lemma Sys.core_board (s : Sys σ) : s.core.board = s.board := by cases s <;> rfl

def Ota.prepare (o : Ota) (script : List PhysResult) : Ota :=
  { o with board := o.board.prepare script }

def Ota.withBoard (o : Ota) (b : Board) : Ota :=
  { o with board := b }

namespace Ota

variable (o : Ota) (script : List PhysResult)

@[simp] lemma prepare_run : (o.prepare script).run = o.run := rfl
@[simp] lemma prepare_sess : (o.prepare script).sess = o.sess := rfl
@[simp] lemma prepare_trial : (o.prepare script).trial = o.trial := rfl
@[simp] lemma prepare_frameSeen : (o.prepare script).frameSeen = o.frameSeen := rfl
@[simp] lemma prepare_flash : (o.prepare script).board.flash = o.board.flash := rfl
@[simp] lemma prepare_owned : (o.prepare script).board.owned = o.board.owned := rfl
@[simp] lemma prepare_dual : (o.prepare script).board.dual = o.board.dual := rfl
@[simp] lemma prepare_log : (o.prepare script).board.log = [] := rfl
@[simp] lemma prepare_script : (o.prepare script).board.script = script := rfl

end Ota

/-- The end of a confirm tick that wrote its record. -/
def confirmAfter (o : Ota) (b : Board) : Option Bool → Core
  | some true => .off b
  | some false => .on (o.withBoard b) .idle
  | none => .off b

/-- The state after one physical operation of a walk. -/
def walkAfter (o : Ota) (j : Job) (os : List FlashOp) (b : Board) : OpEnd → Core
  | .ready =>
    match os with
    | [] => .on (o.withBoard b) (.ended j .ok)
    | o' :: os' => .on (o.withBoard b) (.walk j o' os')
  | .fault e => .on (o.withBoard b) (.ended j e.result)
  | .cut => .off b

lemma Core.after_board (pc : BasePc) (x : Ota × Outcome) : (Core.after pc x).board = x.1.board := by
  obtain ⟨o, out⟩ := x
  cases out <;> rfl

lemma confirmAfter_board (o : Ota) (b : Board) (r : Option Bool) :
    (confirmAfter o b r).board = b := by
  rcases r with _ | _ | _ <;> rfl

lemma walkAfter_board (o : Ota) (j : Job) (os : List FlashOp) (b : Board) (e : OpEnd) :
    (walkAfter o j os b e).board = b := by
  cases e with
  | ready => cases os <;> rfl
  | fault e => rfl
  | cut => rfl

/-- A request that leaves the device up has been answered. -/
lemma Core.after_eq_on {pc pc' : BasePc} {x : Ota × Outcome} {o' : Ota}
    (h : Core.after pc x = .on o' pc') : ∃ st p, x = (o', .reply st p) ∧ pc' = pc := by
  obtain ⟨o, out⟩ := x
  cases out with
  | reply st p =>
    cases h
    exact ⟨st, p, rfl, rfl⟩
  | reset => cases h
  | powerLost => cases h

/-- The confirm tick ends with the device off, or back at rest. -/
lemma confirmAfter_cases (o : Ota) (b : Board) (r : Option Bool) :
    confirmAfter o b r = .off b ∨ confirmAfter o b r = .on (o.withBoard b) .idle := by
  rcases r with _ | _ | _
  · exact .inl rfl
  · exact .inr rfl
  · exact .inl rfl

/-- Where `ota_boot_init` leaves the device. -/
def bootAfter : Ota × Bool → Core
  | (o, true) => .on o .idle
  | (o, false) => .off o.board

lemma bootAfter_board (x : Ota × Bool) : (bootAfter x).board = x.1.board := by
  obtain ⟨o, v⟩ := x
  cases v <;> rfl

/-- What one step can do to the core. -/
inductive CoreStep : Core → Label → Core → Prop
  | gated {o : Ota} {pc : BasePc} {link : Link} {cmd : UInt8} {pl : List UInt8}
      {script : List PhysResult} (ht : o.trial = true) :
      CoreStep (.on o pc) (.request link cmd pl script)
        (.on { o.prepare script with frameSeen := true } pc)
  | passive {o : Ota} {pc : BasePc} {link : Link} {cmd : UInt8} {pl : List UInt8}
      {script : List PhysResult} (ht : o.trial = false) (hcmd : cmd < cmdOtaBegin) :
      CoreStep (.on o pc) (.request link cmd pl script) (.on (o.prepare script) pc)
  | request {o : Ota} {pc : BasePc} {link : Link} {cmd : UInt8} {pl : List UInt8}
      {script : List PhysResult} {x : Ota × Outcome} (ht : o.trial = false)
      (hx : x = otaDispatch (o.prepare script) cmd pl maxPayloadBytes)
      (rule : OtaRule (o.prepare script) cmd pl x) :
      CoreStep (.on o pc) (.request link cmd pl script) (.after pc x)
  | idle {o : Ota} {l : Label} (hl : l = .eraseTick ∨ l = .configTick ∨ l = .halTick) :
      CoreStep (.on o .idle) l (.on (o.prepare []) .idle)
  | idleConfirm {o : Ota} {script : List PhysResult} :
      CoreStep (.on o .idle) (.confirmTick script) (.on (o.prepare script) .idle)
  | snapshot {o : Ota} (he : o.sess.erasing = true) :
      CoreStep (.on o .idle) .eraseTick (.on (o.prepare [])
        (.call (.erase ⟨o.sess.eraseEpoch, o.sess.eraseAt, o.sess.eraseEnd⟩)))
  | storeStart {o : Ota} {s : ConfigStore} (he : o.sess.erasing = false) :
      CoreStep (.on o .idle) .configTick (.on (o.prepare []) (.call (.store s .erase)))
  | confirm {o : Ota} {script : List PhysResult} {r : MetaRecord} {p : MetaPage}
      (ht : o.trial = true) (hf : o.frameSeen = true)
      (hr : findRunningSlotRecord o.board.flash o.run = some (r, p)) :
      CoreStep (.on o .idle) (.confirmTick script)
        (confirmAfter (o.prepare script)
          (metaCommit (o.board.prepare script) o.run (confirmWrite o.run p)).1
          (metaCommit (o.board.prepare script) o.run (confirmWrite o.run p)).2)
  | refused {o : Ota} {j : Job} {r : PhysResult}
      (h : j.call.admits o.run = false ∨ o.board.owned = true) :
      CoreStep (.on o (.call j)) (.base r) (.on (o.prepare [r]) (.returned j .error))
  | enter {o : Ota} {j : Job} {r : PhysResult} {pc : BasePc} (ha : j.call.admits o.run = true)
      (hw : o.board.owned = false)
      (hpc : (∃ op os, j.call.work o.board.dual = op :: os ∧ pc = .walk j op os) ∨
        j.call.work o.board.dual = [] ∧ pc = .ended j .ok) :
      CoreStep (.on o (.call j)) (.base r)
        (.on ((o.prepare [r]).withBoard ((o.board.prepare [r]).claim o.run j.call)) pc)
  | op {o : Ota} {j : Job} {r : PhysResult} {op : FlashOp} {os : List FlashOp} :
      CoreStep (.on o (.walk j op os)) (.base r)
        (walkAfter o j os ((o.board.prepare [r]).exec o.run op).1
          ((o.board.prepare [r]).exec o.run op).2)
  | release {o : Ota} {j : Job} {r : PhysResult} {res : FmcResult} :
      CoreStep (.on o (.ended j res)) (.base r)
        (.on (o.withBoard (o.board.prepare [r]).release) (.returned j res))
  | publish {o : Ota} {snap : EraseSnapshot} {r : PhysResult} {res : FmcResult} :
      CoreStep (.on o (.returned (.erase snap) res)) (.base r)
        (.on { o.prepare [r] with sess := otaErasePublish o.sess snap res } .idle)
  | storeNext {o : Ota} {s : ConfigStore} {ph : StorePhase} {r : PhysResult} {res : FmcResult}
      {pc : BasePc} (hpc : pc = .idle ∨ ∃ ph', pc = .call (.store s ph')) :
      CoreStep (.on o (.returned (.store s ph) res)) (.base r) (.on (o.prepare [r]) pc)
  | powerOff {o : Ota} {pc : BasePc} :
      CoreStep (.on o pc) .powerOff (.off (o.board.prepare []))
  | boot {b : Board} {wdt : Bool} {script : List PhysResult} {dec : BootDecision} {x : Ota × Bool}
      (hd : bootDecideSlot b.flash wdt = some dec)
      (rule : BootRule (b.bootBoard script) dec.slot x) :
      CoreStep (.off b) (.boot wdt script) (bootAfter x)

section

variable {hal : Hal σ}

lemma CoreStep.of_request {d : Device σ} {pc : BasePc} {link : Link} {cmd : UInt8}
    {pl : List UInt8} {script : List PhysResult} (hlen : pl.length ≤ maxPayloadBytes) :
    CoreStep (.on d.ota pc) (.request link cmd pl script)
      (Sys.request hal (d.prepare script) pc link cmd pl).core := by
  have hrule := DispatchRule.of_dispatch hal link cmd (d.prepare script) pl maxPayloadBytes
  simp only [Sys.request]
  generalize protocolDispatch hal false link cmd (d.prepare script) pl maxPayloadBytes = x at hrule ⊢
  cases hrule with
  | gated h => exact .gated h
  | passive h hcmd d' st p hota =>
    have : (Sys.on d' pc).core = .on (d.ota.prepare script) pc := by
      simp only [Sys.core, hota]
      rfl
    simp only [this]
    exact .passive h hcmd
  | ota h hcmd =>
    have hr := OtaRule.of_otaDispatch (d.ota.prepare script) cmd pl maxPayloadBytes hlen
    have key : CoreStep (.on d.ota pc) (.request link cmd pl script) _ := .request h rfl hr
    have hota : (d.prepare script).ota = d.ota.prepare script := rfl
    rw [hota]
    generalize otaDispatch (d.ota.prepare script) cmd pl maxPayloadBytes = y at key ⊢
    obtain ⟨o', out⟩ := y
    cases out <;> exact key

lemma CoreStep.of_confirmTick {d : Device σ} {script : List PhysResult} {s' : Sys σ}
    (h : step hal (.on d .idle) (.confirmTick script) = some s') :
    CoreStep (.on d.ota .idle) (.confirmTick script) s'.core := by
  have hrule := ConfirmRule.of_otaConfirmTick (d.ota.prepare script)
  simp only [step] at h
  have hota : (d.prepare script).ota = d.ota.prepare script := rfl
  rw [hota] at h
  generalize otaConfirmTick (d.ota.prepare script) = x at hrule h
  cases hrule with
  | nothing =>
    cases h
    exact .idleConfirm
  | write r p ht hf hr =>
    have key : CoreStep (.on d.ota .idle) (.confirmTick script) _ := .confirm ht hf hr
    have hb : metaCommit (d.ota.prepare script).board (d.ota.prepare script).run
        (confirmWrite (d.ota.prepare script).run p) =
        metaCommit (d.ota.board.prepare script) d.ota.run (confirmWrite d.ota.run p) := rfl
    rw [hb] at h
    generalize metaCommit (d.ota.board.prepare script) d.ota.run (confirmWrite d.ota.run p) = y
      at key h
    match y with
    | (b, some true) =>
      cases h
      exact key
    | (b, some false) =>
      cases h
      exact key
    | (b, none) =>
      cases h
      exact key

lemma CoreStep.of_base {d : Device σ} {pc : BasePc} {r : PhysResult} {s' : Sys σ}
    (h : baseStep (d.prepare [r]) pc = some s') : CoreStep (.on d.ota pc) (.base r) s'.core := by
  have hota : (d.prepare [r]).ota = d.ota.prepare [r] := rfl
  cases pc with
  | idle => simp [baseStep] at h
  | call j =>
    simp only [baseStep, baseEnter, hota, Ota.prepare_run, Ota.prepare_owned, Ota.prepare_dual] at h
    by_cases ha : j.call.admits d.ota.run = true
    · by_cases hw : d.ota.board.owned = true
      · simp only [ha, Bool.not_true, Bool.false_eq_true, if_false, hw, if_true] at h
        cases h
        exact .refused (.inr hw)
      · have hw : d.ota.board.owned = false := by simpa using hw
        simp only [ha, Bool.not_true, Bool.false_eq_true, if_false, hw] at h
        cases hwork : j.call.work d.ota.board.dual with
        | nil =>
          rw [hwork] at h
          cases h
          exact .enter ha hw (.inr ⟨hwork, rfl⟩)
        | cons op os =>
          rw [hwork] at h
          cases h
          exact .enter ha hw (.inl ⟨op, os, hwork, rfl⟩)
    · have ha : j.call.admits d.ota.run = false := by simpa using ha
      simp only [ha, Bool.not_false, if_true] at h
      cases h
      exact .refused (.inl ha)
  | walk j op os =>
    simp only [baseStep, baseOp, hota, Ota.prepare_run] at h
    have key : CoreStep (.on d.ota (.walk j op os)) (.base r) _ := .op
    have hb : (d.ota.prepare [r]).board = d.ota.board.prepare [r] := rfl
    rw [hb] at h
    generalize (d.ota.board.prepare [r]).exec d.ota.run op = x at key h
    obtain ⟨b, e⟩ := x
    cases e with
    | ready =>
      cases os <;>
      · cases h
        exact key
    | fault e =>
      cases h
      exact key
    | cut =>
      cases h
      exact key
  | ended j res =>
    simp only [baseStep] at h
    cases h
    exact .release
  | returned j res =>
    simp only [baseStep, baseReturn] at h
    cases j with
    | erase snap =>
      cases h
      exact .publish
    | store s ph =>
      by_cases hres : res = .ok
      · cases ph <;> simp only [hres, ne_eq, not_true_eq_false, if_false] at h <;> cases h
        · exact .storeNext (.inr ⟨_, rfl⟩)
        · exact .storeNext (.inr ⟨_, rfl⟩)
        · exact .storeNext (.inl rfl)
      · simp only [ne_eq, hres, not_false_eq_true, if_true] at h
        cases h
        exact .storeNext (.inl rfl)

/-- `boot_config_tick` starts a store only while no erase walk is armed. -/
lemma bootConfigTick_spec (d : Device σ) :
    (bootConfigTick d).1.ota = d.ota ∧ ((bootConfigTick d).2 = .idle ∨
      ∃ s, (bootConfigTick d).2 = .call (.store s .erase) ∧ d.ota.sess.erasing = false) := by
  simp only [bootConfigTick]
  split
  · exact ⟨rfl, .inl rfl⟩
  split
  · exact ⟨rfl, .inl rfl⟩
  next hbusy =>
  split
  · exact ⟨rfl, .inl rfl⟩
  · next s _ =>
    rw [Bool.or_eq_true, not_or] at hbusy
    exact ⟨rfl, .inr ⟨s, rfl, by simpa [otaEraseActive] using hbusy.1⟩⟩

/-- Every step of the device is a step of the core. -/
theorem CoreStep.of_step {s s' : Sys σ} {l : Label} (h : step hal s l = some s') :
    CoreStep s.core l s'.core := by
  cases s with
  | off b =>
    cases l with
    | boot wdt script =>
      simp only [step, bootUp] at h
      have hflash : (b.bootBoard script).flash = b.flash := rfl
      rw [hflash] at h
      cases hd : bootDecideSlot b.flash wdt with
      | none => simp [hd] at h
      | some dec =>
        rw [hd] at h
        have key : CoreStep (.off b) (.boot wdt script) _ := .boot hd (.of_otaBootInit _ _)
        simp only at h
        generalize otaBootInit (b.bootBoard script) dec.slot = x at key h
        match x with
        | (o, true) =>
          cases h
          exact key
        | (o, false) =>
          cases h
          exact key
    | request | eraseTick | configTick | confirmTick | halTick | base | powerOff =>
      simp [step] at h
  | on d pc =>
    cases l with
    | request link cmd pl script =>
      simp only [step] at h
      split_ifs at h with hlen
      cases h
      exact .of_request hlen
    | base r =>
      simp only [step] at h
      exact .of_base h
    | powerOff =>
      simp only [step] at h
      cases h
      exact .powerOff
    | boot => cases pc <;> simp [step] at h
    | eraseTick =>
      cases pc with
      | idle =>
        simp only [step, otaEraseSnapshot] at h
        by_cases he : d.ota.sess.erasing = true
        · simp only [he, if_true] at h
          cases h
          exact .snapshot he
        · simp only [he] at h
          cases h
          exact .idle (.inl rfl)
      | call | walk | ended | returned => simp [step] at h
    | configTick =>
      cases pc with
      | idle =>
        have hspec := bootConfigTick_spec (d.prepare [])
        simp only [step] at h
        generalize bootConfigTick (d.prepare []) = x at hspec h
        obtain ⟨d', pc⟩ := x
        cases h
        obtain ⟨hota, hpc⟩ := hspec
        have hcore : (Sys.on d' pc).core = .on (d.ota.prepare []) pc := congrArg (Core.on · pc) hota
        rw [hcore]
        rcases hpc with rfl | ⟨s, rfl, he⟩
        · exact .idle (.inr (.inl rfl))
        · exact .storeStart he
      | call | walk | ended | returned => simp [step] at h
    | confirmTick script =>
      cases pc with
      | idle => exact .of_confirmTick h
      | call | walk | ended | returned => simp [step] at h
    | halTick =>
      cases pc with
      | idle =>
        simp only [step] at h
        cases h
        exact .idle (.inr (.inr rfl))
      | call | walk | ended | returned => simp [step] at h

end

end Gd32Bridge
