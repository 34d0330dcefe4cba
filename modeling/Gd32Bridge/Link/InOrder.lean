import Gd32Bridge.Link.I2cIrq

/-!
# The bus is served in order

However late the event handler runs, the order in which it tests the flags is the order in which
the bus has raised them: each event of the bus is served in its turn, or wiped in its turn by a
release of the bus, or still pending.  So every run of the interrupts is a run of the seam events
of `transport_i2c.c`, and a byte goes to the write that has carried it.
-/

namespace Gd32Bridge

open Transition

variable {σ : Type}

/-- What the host does on the bus that the event handler has to serve. -/
inductive BusEvent
  | addressed (read : Bool)
  | byte (b : UInt8)
  | stop
deriving DecidableEq, Repr

/-- What has become of an event of the bus. -/
inductive BusFate
  /-- the event handler has served it -/
  | served (e : BusEvent)
  /-- it was pending when the bus was released -/
  | wiped (e : BusEvent)
  /-- no event of the bus: the error handler has broken off the write -/
  | resync
deriving DecidableEq, Repr

def BusFate.event : BusFate → Option BusEvent
  | served e | wiped e => some e
  | resync => none

/-- What the slave gets to see of it, `none` for a resync. -/
def BusFate.seen : BusFate → Option (Option BusEvent)
  | served e => some (some e)
  | wiped _ => none
  | resync => some none

structure BusHistory where
  /-- what has happened on the bus -/
  bus : List BusEvent
  /-- what has become of it -/
  past : List BusFate
deriving DecidableEq, Repr

/-- What the event handler has served, and `none` for a resync by the error handler. -/
def BusHistory.served (h : BusHistory) : List (Option BusEvent) :=
  h.past.filterMap BusFate.seen

/-- The bytes of the write that is going on, after one more event. -/
def writtenBytes (bs : List UInt8) : Option BusEvent → List UInt8
  | some (.addressed read) => if read then bs else []
  | some (.byte b) => bs ++ [b]
  | some .stop => bs
  | none => []

/-- The error handler finds something that breaks the framing. -/
def I2cErrors.breaks (e : I2cErrors) : Bool :=
  e.berr || e.ouerr || e.timeout

namespace I2cHw

/-- The events that are pending, the oldest first. -/
def unserved (s : I2cHw σ) : List BusEvent :=
  s.rdata.toList.map .byte ++ (if s.stpdet then [.stop] else []) ++
    if s.addsend then [.addressed s.tr] else []

end I2cHw

/-! ### What the handlers do -/

namespace I2cHw

/-- A release of the bus leaves nothing pending. -/
lemma busRelease_spec (reads : List Bool) (ready : Bool) (s : I2cHw σ) :
    (s.busRelease reads ready).1.unserved = [] ∧ (s.busRelease reads ready).1.bus = .idle ∧
      (s.busRelease reads ready).1.dev = s.dev ∧ (s.busRelease reads ready).1.slave = s.slave := by
  simp only [busRelease]
  split_ifs <;> exact ⟨rfl, rfl, rfl, rfl⟩

lemma timeoutService_spec (reads : List Bool) (ready : Bool) (s : I2cHw σ) :
    (s.errors.timeout = false ∧ s.timeoutService reads ready = (s, false)) ∨
      (s.errors.timeout = true ∧ (s.timeoutService reads ready).2 = true ∧
        (s.timeoutService reads ready).1.unserved = [] ∧
        (s.timeoutService reads ready).1.bus = .idle ∧
        (s.timeoutService reads ready).1.dev = s.dev ∧
        (s.timeoutService reads ready).1.slave = s.slave) := by
  cases ht : s.errors.timeout with
  | false => exact .inl ⟨rfl, by simp only [timeoutService, ht, Bool.not_false, if_true]⟩
  | true =>
    refine .inr ⟨rfl, ?_⟩
    simp only [timeoutService, ht, Bool.not_true, Bool.false_eq_true, if_false, true_and]
    exact busRelease_spec reads ready { s with errors := { s.errors with timeout := false } }

/-- The error handler breaks off a transfer and a write, and no more than that unless it has to
release the bus. -/
lemma erHandler_spec (reads : List Bool) (ready : Bool) (s : I2cHw σ) :
    (s.erHandler reads ready).dev = s.dev ∧
      (s.erHandler reads ready).slave =
        (if s.errors.breaks then s.slave.writeStart.txAbort else s.slave) ∧
      ((s.errors.timeout = true ∧ (s.erHandler reads ready).unserved = [] ∧
          (s.erHandler reads ready).bus = .idle) ∨
        (s.errors.timeout = false ∧ ∃ counters errors, s.erHandler reads ready = { s with
          counters := counters, errors := errors, nack := false
          tiEnabled := if s.errors.breaks then false else s.tiEnabled
          slave := if s.errors.breaks then s.slave.writeStart.txAbort else s.slave })) := by
  rcases timeoutService_spec reads ready { s.ackErrors with nack := false } with
    ⟨ht, heq⟩ | ⟨ht, hserved, hun, hbus, hdev, hslave⟩
  · have ht : s.errors.timeout = false := ht
    have hb : (s.errors.berr || s.errors.ouerr || false) = s.errors.breaks := by
      rw [I2cErrors.breaks, ht]
    simp only [erHandler, heq, hb]
    cases s.errors.breaks <;>
      exact ⟨rfl, rfl, .inr ⟨ht, s.ackErrors.counters,
        { s.ackErrors.errors with other := s.errors.other && !s.errors.other }, rfl⟩⟩
  · have ht : s.errors.timeout = true := ht
    have hgo : (s.errors.berr || s.errors.ouerr || true) = true := Bool.or_true _
    have hb : s.errors.breaks = true := by rw [I2cErrors.breaks, ht, hgo]
    simp only [erHandler, hserved, hb, hgo, if_true]
    refine ⟨hdev, ?_, .inl ⟨ht, hun, hbus⟩⟩
    rw [hslave]
    rfl

/-- A poll counts, or releases the bus. -/
lemma stuckPoll_spec (samples : List (Bool × Bool)) (reads : List Bool) (ready : Bool)
    (s : I2cHw σ) :
    (s.stuckPoll samples reads ready).dev = s.dev ∧
      (s.stuckPoll samples reads ready).slave = s.slave ∧
      (((s.stuckPoll samples reads ready).aborting = true ∧
          (s.stuckPoll samples reads ready).unserved = [] ∧
          (s.stuckPoll samples reads ready).bus = .idle) ∨
        ∃ n, s.stuckPoll samples reads ready = { s with sdaLowTicks := n }) := by
  rw [stuckPoll]
  by_cases hc : (!stuckCandidate samples) = true
  · rw [if_pos hc]
    exact ⟨rfl, rfl, .inr ⟨_, rfl⟩⟩
  · rw [if_neg hc]
    by_cases hn : s.sdaLowTicks + 1 < 2
    · rw [if_pos hn]
      exact ⟨rfl, rfl, .inr ⟨_, rfl⟩⟩
    · rw [if_neg hn]
      obtain ⟨hun, hbus, hdev, hslave⟩ := busRelease_spec reads ready { s with
        sdaLowTicks := 0
        counters := { s.counters with stuckRelease := s.counters.stuckRelease + 1 } }
      exact ⟨hdev, hslave, .inl ⟨rfl, hun, hbus⟩⟩

/-- A pass of the event handler, one case for each event it can find. -/
inductive EvServed (hal : Hal σ) (inFlight ti : Bool) (s : I2cHw σ) : I2cHw σ → Prop
  | rbne (b : UInt8) (hr : s.rdata = some b) :
    EvServed hal inFlight ti s { s with slave := s.slave.rxByte b, rdata := none }
  | stpdet (x : Device σ × I2cSlave) (hr : s.rdata = none) (hp : s.stpdet = true)
      (hx : i2cStep hal (s.dev, s.slave) (.writeEnd inFlight) = some x) :
    EvServed hal inFlight ti s
      { s with
        dev := x.1, slave := x.2, stpdet := false, nack := false, tiEnabled := false
        tdata := none }
  | read (x : Device σ × I2cSlave) (hr : s.rdata = none) (hp : s.stpdet = false)
      (ha : s.addsend = true) (ht : s.tr = true)
      (hx : i2cStep hal (s.dev, s.slave) (.writeEnd inFlight) = some x) :
    EvServed hal inFlight ti s
      { s with dev := x.1, slave := x.2, addsend := false, tiEnabled := true, tdata := none }
  | write (hr : s.rdata = none) (hp : s.stpdet = false) (ha : s.addsend = true)
      (ht : s.tr = false) :
    EvServed hal inFlight ti s { s with addsend := false, slave := s.slave.writeStart }
  | ti (hr : s.rdata = none) (hp : s.stpdet = false) (ha : s.addsend = false) (hti : ti = true) :
    EvServed hal inFlight ti s
      { s with slave := s.slave.txNextByte.1, tdata := some s.slave.txNextByte.2 }
  | none (hr : s.rdata = none) (hp : s.stpdet = false) (ha : s.addsend = false)
      (hti : ti = false) :
    EvServed hal inFlight ti s { s with nack := false }

lemma writeEnd_eq_some {hal : Hal σ} {inFlight : Bool} {s s' : I2cHw σ}
    (h : s.writeEnd hal inFlight = some s') :
    ∃ x, i2cStep hal (s.dev, s.slave) (.writeEnd inFlight) = some x ∧
      s' = { s with dev := x.1, slave := x.2 } := by
  obtain ⟨x, hx, rfl⟩ := Option.map_eq_some_iff.mp h
  exact ⟨x, hx, rfl⟩

/-- The handler tests the receive flag first, the STOP before the address match, and the transmit
flag last. -/
theorem EvServed.of_evHandler {hal : Hal σ} {inFlight ti : Bool} {s s' : I2cHw σ}
    (h : s.evHandler hal inFlight ti = some s') : EvServed hal inFlight ti s s' := by
  simp only [evHandler] at h
  cases hr : s.rdata with
  | some b =>
    have hsel : i2cEventSelect s.rdata.isSome s.addsend s.stpdet ti = .rbne := by rw [hr]; rfl
    simp only [hsel] at h
    cases h
    simpa only [hr, Option.getD_some] using EvServed.rbne (s := s) b hr
  | none =>
    cases hp : s.stpdet with
    | true =>
      have hsel : i2cEventSelect s.rdata.isSome s.addsend s.stpdet ti = .stpdet := by
        rw [hr, hp]; rfl
      simp only [hsel] at h
      obtain ⟨x, hx, rfl⟩ := writeEnd_eq_some h
      exact .stpdet x hr hp hx
    | false =>
      cases ha : s.addsend with
      | true =>
        have hsel : i2cEventSelect s.rdata.isSome s.addsend s.stpdet ti = .addsend := by
          rw [hr, hp, ha]; rfl
        simp only [hsel] at h
        cases ht : s.tr with
        | true =>
          rw [ht, if_pos rfl] at h
          obtain ⟨s₁, h₁, rfl⟩ := Option.map_eq_some_iff.mp h
          obtain ⟨x, hx, rfl⟩ := writeEnd_eq_some h₁
          have hv : EvServed hal inFlight ti s _ := .read x hr hp ha ht hx
          simpa only [ht] using hv
        | false =>
          rw [ht, if_neg Bool.false_ne_true] at h
          cases h
          have hv : EvServed hal inFlight ti s _ := .write hr hp ha ht
          simpa only [ht] using hv
      | false =>
        cases hti : ti with
        | true =>
          have hsel : i2cEventSelect s.rdata.isSome s.addsend s.stpdet ti = .ti := by
            rw [hr, hp, ha, hti]; rfl
          simp only [hsel] at h
          cases h
          exact .ti hr hp ha rfl
        | false =>
          have hsel : i2cEventSelect s.rdata.isSome s.addsend s.stpdet ti = .none := by
            rw [hr, hp, ha, hti]; rfl
          simp only [hsel] at h
          cases h
          exact .none hr hp ha rfl

/-- The event a pass of the event handler serves. -/
def serves (s : I2cHw σ) (ti : Bool) : Option BusEvent :=
  match i2cEventSelect s.rdata.isSome s.addsend s.stpdet ti with
  | .rbne => some (.byte (s.rdata.getD 0))
  | .addsend => some (.addressed s.tr)
  | .stpdet => some .stop
  | .ti => none
  | .none => none

/-- A pass serves the oldest event there is. -/
lemma EvServed.oldest {hal : Hal σ} {inFlight ti : Bool} {s s' : I2cHw σ}
    (h : EvServed hal inFlight ti s s') : (s.serves ti).toList ++ s'.unserved = s.unserved := by
  cases h with
  | rbne b hr => simp only [serves, i2cEventSelect, unserved, hr]; rfl
  | stpdet x hr hp hx => simp only [serves, i2cEventSelect, unserved, hr, hp]; rfl
  | read x hr hp ha ht hx => simp only [serves, i2cEventSelect, unserved, hr, hp, ha, ht]; rfl
  | write hr hp ha ht => simp only [serves, i2cEventSelect, unserved, hr, hp, ha, ht]; rfl
  | ti hr hp ha hti => simp only [serves, i2cEventSelect, unserved, hr, hp, ha, hti]; rfl
  | none hr hp ha hti => simp only [serves, i2cEventSelect, unserved, hr, hp, ha, hti]; rfl

/-- The seam event a step amounts to. -/
def seam (s : I2cHw σ) : I2cHwLabel σ → Option (I2cEvent σ)
  | .ev inFlight ti =>
    match s.serves ti with
    | some (.byte b) => some (.rxByte b)
    | some (.addressed read) => some (if read then .writeEnd inFlight else .writeStart)
    | some .stop => some (.writeEnd inFlight)
    | none => if ti then some .txNextByte else none
  | .er _ _ => if s.errors.breaks then some .busError else none
  | .pollAbort => some .txAbort
  | .other d => some (.other d)
  | _ => none

/-- The device and the slave after a seam event, if there is one. -/
def seamStep (hal : Hal σ) (x : Device σ × I2cSlave) :
    Option (I2cEvent σ) → Option (Device σ × I2cSlave)
  | none => some x
  | some e => i2cStep hal x e

/-- Every step is a step of the slave behind the seam, or one it does not see. -/
theorem seam_step {hal : Hal σ} {s s' : I2cHw σ} {l : I2cHwLabel σ}
    (hs : i2cHwStep hal s l = some s') :
    seamStep hal (s.dev, s.slave) (s.seam l) = some (s'.dev, s'.slave) := by
  cases l with
  | ev inFlight ti =>
    simp only [i2cHwStep] at hs
    split_ifs at hs
    cases EvServed.of_evHandler hs with
    | rbne b hr =>
      simp only [seam, serves, i2cEventSelect, hr]
      rfl
    | stpdet x hr hp hx =>
      simp only [seam, serves, i2cEventSelect, hr, hp]
      exact hx
    | read x hr hp ha ht hx =>
      simp only [seam, serves, i2cEventSelect, hr, hp, ha, ht]
      exact hx
    | write hr hp ha ht =>
      simp only [seam, serves, i2cEventSelect, hr, hp, ha, ht]
      rfl
    | ti hr hp ha hti =>
      simp only [seam, serves, i2cEventSelect, hr, hp, ha, hti]
      rfl
    | none hr hp ha hti =>
      simp only [seam, serves, i2cEventSelect, hr, hp, ha, hti]
      rfl
  | er reads ready =>
    obtain ⟨hdev, hslave, -⟩ := erHandler_spec reads ready s
    cases hs
    simp only [seam, hdev, hslave]
    split_ifs <;> rfl
  | poll samples reads ready =>
    simp only [i2cHwStep] at hs
    split_ifs at hs
    cases hs
    obtain ⟨hdev, hslave, -⟩ := stuckPoll_spec samples reads ready s
    simp only [seam, seamStep, hdev, hslave]
  | pollAbort =>
    simp only [i2cHwStep] at hs
    split_ifs at hs
    cases hs
    rfl
  | other d =>
    cases hs
    rfl
  | start read =>
    simp only [i2cHwStep] at hs
    split_ifs at hs <;> cases hs <;> rfl
  | byte b =>
    simp only [i2cHwStep] at hs
    split_ifs at hs
    cases hs
    rfl
  | load =>
    simp only [i2cHwStep] at hs
    split at hs
    · split_ifs at hs
      cases hs
      rfl
    · cases hs
  | clocked =>
    simp only [i2cHwStep] at hs
    split_ifs at hs
    cases hs
    rfl
  | stop =>
    simp only [i2cHwStep] at hs
    split_ifs at hs
    cases hs
    rfl
  | lapse =>
    simp only [i2cHwStep] at hs
    split_ifs at hs
    cases hs
    rfl
  | raise e =>
    cases hs
    rfl

end I2cHw

/-! ### The run -/

def busUpd (h : BusHistory) (s : I2cHw σ) (l : I2cHwLabel σ) (s' : I2cHw σ) : BusHistory :=
  match l with
  | .start read => { h with bus := h.bus ++ [.addressed read] }
  | .byte b => { h with bus := h.bus ++ [.byte b] }
  | .stop => { h with bus := h.bus ++ [.stop] }
  | .ev _ ti => { h with past := h.past ++ (s.serves ti).toList.map .served }
  | .er _ _ =>
    { h with past := h.past ++ (if s.errors.timeout then s.unserved.map .wiped else []) ++
        if s.errors.breaks then [.resync] else [] }
  | .poll _ _ _ => { h with past := h.past ++ if s'.aborting then s.unserved.map .wiped else [] }
  | _ => h

/-! The fates of what a step adds. -/

@[simp]
lemma event_served (es : List BusEvent) : (es.map BusFate.served).filterMap BusFate.event = es := by
  rw [List.filterMap_map]
  exact List.filterMap_some

@[simp]
lemma event_wiped (es : List BusEvent) : (es.map BusFate.wiped).filterMap BusFate.event = es := by
  rw [List.filterMap_map]
  exact List.filterMap_some

@[simp]
lemma seen_served (es : List BusEvent) :
    (es.map BusFate.served).filterMap BusFate.seen = es.map some := by
  rw [List.filterMap_map]
  exact congrFun (List.filterMap_eq_map (f := some)) es

@[simp]
lemma seen_wiped (es : List BusEvent) : (es.map BusFate.wiped).filterMap BusFate.seen = [] := by
  rw [List.filterMap_map]
  exact List.filterMap_eq_nil_iff.mpr fun _ _ => rfl

/-- The link as it comes up. -/
def I2cHwStart (x : I2cHw σ × BusHistory) : Prop :=
  (∃ d, x.1 = .init d) ∧ x.2 = ⟨[], []⟩

/-- The bus goes on only when the STOP before it has been served, and every event has its fate. -/
structure Orderly (s : I2cHw σ) (h : BusHistory) : Prop where
  stopped : s.bus ≠ .idle → s.addsend = false → s.stpdet = false
  log : h.bus = h.past.filterMap BusFate.event ++ s.unserved

namespace Orderly

open I2cHw

variable {hal : Hal σ} {s s' : I2cHw σ} {h : BusHistory}

lemma ev {inFlight ti : Bool} (inv : Orderly s h) (hv : EvServed hal inFlight ti s s') :
    Orderly s' { h with past := h.past ++ (s.serves ti).toList.map .served } where
  stopped hbus hno := by
    cases hv with
    | rbne b hr => exact inv.stopped hbus hno
    | stpdet x hr hp hx => rfl
    | read x hr hp ha ht hx => exact hp
    | write hr hp ha ht => exact hp
    | ti hr hp ha hti => exact hp
    | none hr hp ha hti => exact hp
  log := by
    rw [List.filterMap_append, event_served, List.append_assoc, hv.oldest]
    exact inv.log

/-- A release of the bus wipes what is pending. -/
lemma released (inv : Orderly s h) (r : List BusFate) (hr : r.filterMap BusFate.event = [])
    (hun : s'.unserved = []) (hbus : s'.bus = .idle) :
    Orderly s' { h with past := h.past ++ s.unserved.map .wiped ++ r } where
  stopped hgo := absurd hbus hgo
  log := by
    rw [hun, List.filterMap_append, List.filterMap_append, event_wiped, hr, List.append_nil,
      List.append_nil]
    exact inv.log

lemma step {l : I2cHwLabel σ} (inv : Orderly s h) (hs : i2cHwStep hal s l = some s') :
    Orderly s' (busUpd h s l s') := by
  cases l with
  | start read =>
    simp only [i2cHwStep, Bool.and_eq_true, Bool.not_eq_true'] at hs
    split at hs
    · next hgo =>
      cases hs
      refine ⟨by rintro - ⟨⟩, ?_⟩
      simp only [busUpd, inv.log, unserved, hgo.2]
      simp
    · cases hs
  | byte b =>
    simp only [i2cHwStep] at hs
    split_ifs at hs with hgo
    cases hs
    obtain ⟨hbus, hno, hr⟩ := hgo
    -- the START of this write has been served, so nothing is pending
    have hp := inv.stopped (by rw [hbus]; rintro ⟨⟩) hno
    refine ⟨fun _ _ => hp, ?_⟩
    simp only [busUpd, inv.log, unserved, hr, hp, hno]
    simp
  | stop =>
    simp only [i2cHwStep] at hs
    split_ifs at hs with hgo
    cases hs
    have hp := inv.stopped hgo.1 hgo.2
    refine ⟨fun hne => absurd rfl hne, ?_⟩
    simp only [busUpd, inv.log, unserved, hp, hgo.2]
    simp
  | lapse =>
    simp only [i2cHwStep] at hs
    split_ifs at hs
    cases hs
    exact ⟨fun hne => absurd rfl hne, inv.log⟩
  | load =>
    simp only [i2cHwStep] at hs
    split at hs
    · split_ifs at hs
      cases hs
      exact ⟨inv.stopped, inv.log⟩
    · cases hs
  | clocked =>
    simp only [i2cHwStep] at hs
    split_ifs at hs
    cases hs
    exact ⟨inv.stopped, inv.log⟩
  | raise e =>
    cases hs
    exact ⟨inv.stopped, inv.log⟩
  | ev inFlight ti =>
    simp only [i2cHwStep] at hs
    split_ifs at hs
    exact inv.ev (EvServed.of_evHandler hs)
  | er reads ready =>
    obtain ⟨-, -, hrest⟩ := erHandler_spec reads ready s
    cases hs
    have hr : (if s.errors.breaks then [BusFate.resync] else []).filterMap BusFate.event = [] := by
      split_ifs <;> rfl
    rcases hrest with ⟨ht, hun, hbus⟩ | ⟨ht, counters, errors, heq⟩
    · simp only [busUpd, ht, if_true]
      exact inv.released _ hr hun hbus
    · simp only [busUpd, ht, Bool.false_eq_true, if_false, List.append_nil, heq]
      refine ⟨inv.stopped, ?_⟩
      rw [List.filterMap_append, hr, List.append_nil]
      exact inv.log
  | poll samples reads ready =>
    simp only [i2cHwStep] at hs
    split_ifs at hs with hab
    cases hs
    obtain ⟨-, -, ⟨hgo, hun, hbus⟩ | ⟨n, heq⟩⟩ := stuckPoll_spec samples reads ready s
    · simp only [busUpd, hgo, if_true]
      have hinv := inv.released [] rfl hun hbus
      rwa [List.append_nil] at hinv
    · have hno : (s.stuckPoll samples reads ready).aborting = false := by
        rw [heq]
        exact Bool.eq_false_iff.mpr hab
      simp only [busUpd, hno, Bool.false_eq_true, if_false, List.append_nil]
      rw [heq]
      exact ⟨inv.stopped, inv.log⟩
  | pollAbort =>
    simp only [i2cHwStep] at hs
    split_ifs at hs
    cases hs
    exact ⟨inv.stopped, inv.log⟩
  | other d =>
    cases hs
    exact ⟨inv.stopped, inv.log⟩

end Orderly

/-- The interrupts have got as far as a run of the seam events. -/
structure InStep (hal : Hal σ) (s : I2cHw σ) (h : BusHistory) (wh : WriteHistory) : Prop where
  orderly : Orderly s h
  run : Reach (withHistory (i2cStep hal) (writeHistoryUpd hal)) I2cStart (fun _ _ _ => True)
    ((s.dev, s.slave), wh)
  received : wh.received = h.served.foldl writtenBytes []

/-- The history of the write after one more step. -/
def seamUpd (hal : Hal σ) (wh : WriteHistory) (s : I2cHw σ) (l : I2cHwLabel σ) (s' : I2cHw σ) :
    WriteHistory :=
  (s.seam l).elim wh fun e => writeHistoryUpd hal wh (s.dev, s.slave) e (s'.dev, s'.slave)

namespace InStep

variable {hal : Hal σ} {s s' : I2cHw σ} {h : BusHistory} {wh : WriteHistory}

lemma start (d : Device σ) : InStep hal (.init d) ⟨[], []⟩ .start where
  orderly := ⟨fun hne => absurd rfl hne, rfl⟩
  run := .start ⟨rfl, rfl⟩
  received := rfl

/-- The bytes the slave has received follow what the handlers have served. -/
lemma seamUpd_received (l : I2cHwLabel σ) (hwh : wh.received = h.served.foldl writtenBytes []) :
    (seamUpd hal wh s l s').received = (busUpd h s l s').served.foldl writtenBytes [] := by
  cases l with
  | ev inFlight ti =>
    simp only [seamUpd, I2cHw.seam, busUpd, BusHistory.served, List.filterMap_append, seen_served,
      List.foldl_append]
    change wh.received = (h.past.filterMap BusFate.seen).foldl writtenBytes [] at hwh
    rw [← hwh]
    cases s.serves ti with
    | none => cases ti <;> rfl
    | some e =>
      cases e with
      | addressed read => cases read <;> rfl
      | byte b => rfl
      | stop => rfl
  | er reads ready =>
    have hwiped : (if s.errors.timeout then s.unserved.map BusFate.wiped else []).filterMap
        BusFate.seen = [] := by
      split_ifs
      · exact seen_wiped _
      · rfl
    change wh.received = (h.past.filterMap BusFate.seen).foldl writtenBytes [] at hwh
    simp only [seamUpd, I2cHw.seam, busUpd, BusHistory.served, List.filterMap_append, hwiped,
      List.append_nil, List.foldl_append]
    split_ifs
    · rfl
    · exact hwh
  | poll samples reads ready =>
    have hwiped : (if s'.aborting then s.unserved.map BusFate.wiped else []).filterMap
        BusFate.seen = [] := by
      split_ifs
      · exact seen_wiped _
      · rfl
    simp only [seamUpd, I2cHw.seam, busUpd, BusHistory.served, List.filterMap_append, hwiped,
      List.append_nil]
    exact hwh
  | _ => exact hwh

theorem step {l : I2cHwLabel σ} (inv : InStep hal s h wh) (hs : i2cHwStep hal s l = some s') :
    InStep hal s' (busUpd h s l s') (seamUpd hal wh s l s') where
  orderly := inv.orderly.step hs
  run := by
    have hseam := I2cHw.seam_step hs
    simp only [seamUpd]
    cases hl : s.seam l with
    | none =>
      rw [hl] at hseam
      rw [← Option.some.inj hseam]
      exact inv.run
    | some e =>
      rw [hl] at hseam
      exact .next e inv.run (withHistory_eq_some.mpr ⟨hseam, rfl⟩) trivial
  received := seamUpd_received l inv.received

end InStep

/-- In every run of the bus, the interrupts and the stuck-bus poll, what the event handler has
served, what a release of the bus has wiped and what is pending make up what has happened on the
bus, in order; and the run is one of the seam events, in which the slave has received the bytes of
the write that is going on. -/
theorem i2c_in_order_of_reach (hal : Hal σ) {s : I2cHw σ} {h : BusHistory}
    (hr : Reach (withHistory (i2cHwStep hal) busUpd) I2cHwStart (fun _ _ _ => True) (s, h)) :
    h.bus = h.past.filterMap BusFate.event ++ s.unserved ∧
      ∃ wh, Reach (withHistory (i2cStep hal) (writeHistoryUpd hal)) I2cStart (fun _ _ _ => True)
          ((s.dev, s.slave), wh) ∧
        wh.received = h.served.foldl writtenBytes [] := by
  obtain ⟨wh, inv⟩ : ∃ wh, InStep hal s h wh := by
    apply Reach.invariant (I := fun y : I2cHw σ × BusHistory => ∃ wh, InStep hal y.1 y.2 wh)
      ?_ ?_ hr
    · rintro ⟨s, h⟩ ⟨⟨d, rfl⟩, rfl⟩
      exact ⟨.start, .start d⟩
    · rintro ⟨s, h⟩ l ⟨s', h'⟩ - ⟨wh, inv⟩ hstep -
      obtain ⟨hs, hh⟩ := withHistory_eq_some.mp hstep
      simp only at hs hh
      subst hh
      exact ⟨_, inv.step hs⟩
  exact ⟨inv.orderly.log, wh, inv.run, inv.received⟩

/-- A write that runs into a timeout with its first byte pending, and then a PING whose STOP and
addressed read have both happened before the handler runs again. -/
def latePing : List (I2cHwLabel Unit) :=
  [.start false, .ev false false, .byte 0x55, .raise ⟨false, false, true, false⟩, .er [] true,
      .start false, .ev false false] ++
    (i2cEnvelope 0x00 []).flatMap (fun b => [.byte b, .ev false false]) ++ [.stop, .start true]

lemma latePing_ends : (run (withHistory (i2cHwStep .stub) busUpd) (fun _ _ _ => true)
    (.init restDevice, ⟨[], []⟩) latePing).any
    (fun y => y.1.unserved == [.stop, .addressed true] &&
      (y.2.past.take 3 == [.served (.addressed false), .wiped (.byte 0x55), .resync] &&
      y.2.served.foldl writtenBytes [] == i2cEnvelope 0x00 [])) = true := by
  decide +kernel

/-- The byte is wiped and reaches no write; served late, the STOP and the read are still in order
behind the whole frame. -/
theorem i2c_in_order_ping : ∃ (s : I2cHw Unit) (h : BusHistory),
    h.past.take 3 = [.served (.addressed false), .wiped (.byte 0x55), .resync] ∧
      h.bus = h.past.filterMap BusFate.event ++ [.stop, .addressed true] ∧
      ∃ wh, Reach (withHistory (i2cStep .stub) (writeHistoryUpd .stub)) I2cStart
          (fun _ _ _ => True) ((s.dev, s.slave), wh) ∧ wh.received = i2cEnvelope 0x00 [] := by
  have hinit : Reach (withHistory (i2cHwStep .stub) busUpd) I2cHwStart (fun _ _ _ => True)
      (.init restDevice, ⟨[], []⟩) := .start ⟨⟨_, rfl⟩, rfl⟩
  obtain ⟨⟨s, h⟩, hr, hq⟩ := hinit.exists_of_run _ _ _ (fun _ _ _ _ => trivial) latePing_ends
  simp only [Bool.and_eq_true, beq_iff_eq] at hq
  obtain ⟨hun, hpast, hreceived⟩ := hq
  obtain ⟨hbus, wh, hrun, hwh⟩ := i2c_in_order_of_reach .stub hr
  rw [hun] at hbus
  exact ⟨s, h, hpast, hbus, wh, hrun, hwh.trans hreceived⟩

end Gd32Bridge
