import Gd32Bridge.BootConfig.Pages
import Gd32Bridge.System.Basic

/-!
# Storing the boot configuration under power cuts

`boot_config_store` as one function, and sequences of such stores, each of which may be cut or
fail in any of its flash operations.  The history of a sequence is the list of the records that
were committed, that is, were readable in their page when their store ended.
-/

namespace Gd32Bridge

open Memory Transition

/-! ### One store -/

/-- The flash calls of a store from one of them on, then the readback; the first call that does
not succeed ends the store. -/
def ConfigStore.carryOut (s : ConfigStore) (run : Slot) (b : Board) :
    List StorePhase → Board × Option FmcResult
  | [] => (b, some (bootConfigReadback b.flash s))
  | ph :: phs =>
    match b.fmcCall run (s.call ph) with
    | (b', some .ok) => s.carryOut run b' phs
    | (b', r) => (b', r)

/-- `boot_config_store`; `none` is the loss of power -/
def bootConfigStore (b : Board) (run : Slot) (flags : UInt32) : Board × Option FmcResult :=
  match bootConfigStorePlan b.flash flags with
  | .inl r => (b, some r)
  | .inr s => s.carryOut run b [.erase, .payload, .commit]

/-- Each of the calls leaves the doublewords of the page torn at most. -/
def ConfigStore.TornOut (s : ConfigStore) (run : Slot) (b : Board) : List StorePhase → Prop
  | [] => True
  | ph :: phs =>
    s.page.Torn (s.call ph).content b.flash (b.fmcCall run (s.call ph)).1.flash ∧
      ((b.fmcCall run (s.call ph)).2 = some .ok → s.TornOut run (b.fmcCall run (s.call ph)).1 phs)

namespace ConfigStore

variable {s : ConfigStore} {run : Slot} {b : Board} {ph : StorePhase} {phs : List StorePhase}

lemma carryOut_ok (h : (b.fmcCall run (s.call ph)).2 = some .ok) :
    s.carryOut run b (ph :: phs) = s.carryOut run (b.fmcCall run (s.call ph)).1 phs := by
  simp only [carryOut]
  generalize b.fmcCall run (s.call ph) = x at h ⊢
  obtain ⟨b', r⟩ := x
  cases h
  rfl

lemma carryOut_not_ok (h : (b.fmcCall run (s.call ph)).2 ≠ some .ok) :
    s.carryOut run b (ph :: phs) = b.fmcCall run (s.call ph) := by
  rw [carryOut]
  generalize b.fmcCall run (s.call ph) = x at h ⊢
  match x, h with
  | (b', some .ok), h => exact absurd rfl h
  | (b', some .error), _ => rfl
  | (b', some .timeout), _ => rfl
  | (b', none), _ => rfl

/-- What a store does to the flash stays in its page. -/
lemma carryOut_unchanged (s : ConfigStore) (run : Slot) (b : Board) (phs : List StorePhase) :
    Unchanged s.page.region b.flash (s.carryOut run b phs).1.flash := by
  induction phs generalizing b with
  | nil => exact Unchanged.refl _ _
  | cons ph phs ih =>
    have hcall : Unchanged s.page.region b.flash (b.fmcCall run (s.call ph)).1.flash :=
      (Board.fmcCall_unchanged (s.call_inFlash ph)).mono (s.call_span_subset ph)
    by_cases hok : (b.fmcCall run (s.call ph)).2 = some .ok
    · rw [carryOut_ok hok]
      exact hcall.trans (ih _)
    · rw [carryOut_not_ok hok]
      exact hcall

/-- Every physical operation of a store works on its page. -/
lemma carryOut_log (s : ConfigStore) (run : Slot) (b : Board) (phs : List StorePhase) {run' : Slot}
    {o : FlashOp} (h : Event.op run' o ∈ (s.carryOut run b phs).1.log) :
    Event.op run' o ∈ b.log ∨ o.range b.dual ⊆ s.page.region := by
  induction phs generalizing b with
  | nil => exact .inl h
  | cons ph phs ih =>
    have hcall : Event.op run' o ∈ (b.fmcCall run (s.call ph)).1.log →
        Event.op run' o ∈ b.log ∨ o.range b.dual ⊆ s.page.region := by
      intro he
      rcases Board.fmcCall_log he with he | ⟨-, he | ⟨o', ho', he⟩⟩
      · exact .inl he
      · cases he
      · cases he
        exact .inr ((FmcCall.work_subset (s.call_inFlash ph) ho').trans (s.call_span_subset ph))
    by_cases hok : (b.fmcCall run (s.call ph)).2 = some .ok
    · rw [carryOut_ok hok] at h
      have h' := ih _ h
      rw [Board.fmcCall_dual] at h'
      exact h'.elim hcall .inr
    · rw [carryOut_not_ok hok] at h
      exact hcall h

/-- How a store ends: the newest record is what it was and the store did not succeed, or the
record of the store is the newest. -/
def Ends (s : ConfigStore) (f : Flash) (x : Board × Option FmcResult) : Prop :=
  configNewestRecord x.1.flash = configNewestRecord f ∧ x.2 ≠ some .ok ∨ s.Landed x.1.flash

lemma Ends.congr {f f' : Flash} {x : Board × Option FmcResult} (h : s.Ends f' x)
    (heq : configNewestRecord f' = configNewestRecord f) : s.Ends f x := by
  rcases h with ⟨h, hr⟩ | h
  · exact .inl ⟨h.trans heq, hr⟩
  · exact .inr h

/-- One call of a store: if it does not succeed the store ends here. -/
lemma carryOut_step (hp : Planned b.flash s) (hf : ph.Found s b.flash)
    (ht : s.TornOut run b (ph :: phs))
    (next : (b.fmcCall run (s.call ph)).2 = some .ok →
      ph.Done s b.flash (b.fmcCall run (s.call ph)).1.flash →
      s.TornOut run (b.fmcCall run (s.call ph)).1 phs →
      s.Ends b.flash (s.carryOut run (b.fmcCall run (s.call ph)).1 phs)) :
    s.Ends b.flash (s.carryOut run b (ph :: phs)) := by
  have hu : Unchanged (s.call ph).span b.flash (b.fmcCall run (s.call ph)).1.flash :=
    Board.fmcCall_unchanged (s.call_inFlash ph)
  by_cases hok : (b.fmcCall run (s.call ph)).2 = some .ok
  · rw [carryOut_ok hok]
    have hcell := fun a ha => Board.fmcCall_ok (s.call_inFlash ph) hok (a := a) ha
    exact next hok (hp.done hf hu hcell) (ht.2 hok)
  · rw [carryOut_not_ok hok]
    rcases hp.torn hf hu ht.1 with hkeep | ⟨-, -, hland⟩
    · exact .inl ⟨hkeep, hok⟩
    · exact .inr hland

/-- A planned store ends in one of its two ways. -/
theorem carryOut_ends (hp : Planned b.flash s)
    (ht : s.TornOut run b [.erase, .payload, .commit]) :
    s.Ends b.flash (s.carryOut run b [.erase, .payload, .commit]) := by
  refine carryOut_step hp trivial ht fun _ ⟨h₁, hf₁⟩ ht₁ => Ends.congr ?_ h₁
  have hp₁ := hp.congr h₁
  refine carryOut_step hp₁ hf₁ ht₁ fun _ ⟨h₂, hf₂⟩ ht₂ => Ends.congr ?_ h₂
  have hp₂ := hp₁.congr h₂
  exact carryOut_step hp₂ hf₂ ht₂ fun _ hland _ => .inr hland

end ConfigStore

/-! ### Sequences of stores -/

/-- A store with the outcome of its flash operations, by the code that runs from `run`. -/
structure StoreAttempt where
  run : Slot
  flags : UInt32
  script : List PhysResult

/-- The board and the result after an attempt. -/
def StoreAttempt.perform (a : StoreAttempt) (b : Board) : Board × Option FmcResult :=
  bootConfigStore (b.prepare a.script) a.run a.flags

def storeStep (b : Board) (a : StoreAttempt) : Option Board :=
  some (a.perform b).1

/-- The assumption on an attempt: its calls tear doublewords at most. -/
def StoreLegal (b : Board) (a : StoreAttempt) : Prop :=
  match bootConfigStorePlan b.flash a.flags with
  | .inl _ => True
  | .inr s => s.TornOut a.run (b.prepare a.script) [.erase, .payload, .commit]

/-- A store has committed when its record is in its page at the end. -/
def committedUpd (rs : List ConfigRecord) (b : Board) (a : StoreAttempt) (b' : Board) :
    List ConfigRecord :=
  match bootConfigStorePlan b.flash a.flags with
  | .inl _ => rs
  | .inr s => if bootConfigReadPage b'.flash s.page = some s.record then s.record :: rs else rs

/-- Any flash to start with; a record in it counts as committed. -/
def StoreStart (x : Board × List ConfigRecord) : Prop :=
  x.2 = (configNewestRecord x.1.flash).1.toList

/-- The flags of the last committed record. -/
def lastFlags : List ConfigRecord → UInt32
  | [] => 0
  | r :: _ => r.flags &&& bootConfigKnownFlags

/-- The committed records and the flash agree on the newest record, and the counters rise. -/
structure Committed (b : Board) (rs : List ConfigRecord) : Prop where
  newest : (configNewestRecord b.flash).1 = rs.head?
  rising : rs.Pairwise fun r r' => r'.counter < r.counter
  limit : ∀ r ∈ rs, r.counter < bootConfigCounterLimit

lemma bootConfigLoad_stored (f : Flash) :
    (bootConfigLoad f).stored = lastFlags (configNewestRecord f).1.toList := by
  simp only [bootConfigLoad]
  cases (configNewestRecord f).1 <;> rfl

namespace Committed

variable {b : Board} {rs : List ConfigRecord}

lemma load (h : Committed b rs) : (bootConfigLoad b.flash).stored = lastFlags rs := by
  rw [bootConfigLoad_stored, h.newest]
  cases rs <;> rfl

lemma start {x : Board × List ConfigRecord} (h : StoreStart x) : Committed x.1 x.2 := by
  have hpage := configNewestRecord_page x.1.flash
  rw [StoreStart] at h
  cases hnew : (configNewestRecord x.1.flash).1 with
  | none =>
    rw [hnew] at h
    rw [h]
    exact ⟨hnew, .nil, nofun⟩
  | some r =>
    rw [hnew] at h hpage
    rw [h]
    refine ⟨hnew, List.pairwise_singleton _ _, fun r' hr' => ?_⟩
    rw [List.mem_singleton.mp hr']
    exact (bootConfigReadPage_range hpage).2

/-- A record that wins over the newest one is added in front. -/
lemma push {b' : Board} {s : ConfigStore} (h : Committed b rs) (hp : Planned b.flash s)
    (hland : s.Landed b'.flash) : Committed b' (s.record :: rs) := by
  refine ⟨by rw [hland.2]; rfl, List.pairwise_cons.mpr ⟨fun r hr => ?_, h.rising⟩, fun r hr => ?_⟩
  · -- the head is below the new record, the rest below the head
    cases rs with
    | nil => cases hr
    | cons r₀ rs =>
      have h₀ : r₀.counter < s.record.counter := hp.newer r₀ h.newest
      rcases List.mem_cons.mp hr with rfl | hr
      · exact h₀
      · exact UInt32.lt_trans ((List.pairwise_cons.mp h.rising).1 r hr) h₀
  · rcases List.mem_cons.mp hr with rfl | hr
    · exact hp.good.limit
    · exact h.limit r hr

/-- A store that has not become the newest has not committed. -/
lemma not_landed {f f' : Flash} {s : ConfigStore} (hp : Planned f s)
    (hu : Unchanged s.page.region f f') (hkeep : configNewestRecord f' = configNewestRecord f) :
    bootConfigReadPage f' s.page ≠ some s.record := by
  intro hread
  have hother := bootConfigReadPage_unchanged hu s.page.region_disjoint
  obtain ⟨-, hnew⟩ := hp.landed hother hread
  rw [hkeep] at hnew
  exact UInt32.lt_irrefl _ (hp.newer s.record (by rw [hnew]))

end Committed

/-- One attempt: the board after it agrees with the updated history, and a boot loads what it
would have loaded before or the flags asked for; the latter if the store reports success. -/
lemma StoreAttempt.step {a : StoreAttempt} {b : Board} {rs : List ConfigRecord}
    (h : Committed b rs) (hl : StoreLegal b a) :
    Committed (a.perform b).1 (committedUpd rs b a (a.perform b).1) ∧
      ((bootConfigLoad (a.perform b).1.flash).stored = lastFlags rs ∨
        (bootConfigLoad (a.perform b).1.flash).stored = a.flags &&& bootConfigKnownFlags) ∧
      ((a.perform b).2 = some .ok →
        (bootConfigLoad (a.perform b).1.flash).stored = a.flags &&& bootConfigKnownFlags) := by
  have hflash : (b.prepare a.script).flash = b.flash := rfl
  simp only [StoreAttempt.perform, bootConfigStore, committedUpd, hflash]
  simp only [StoreLegal] at hl
  cases hplan : bootConfigStorePlan b.flash a.flags with
  | inl r =>
    have hload : (bootConfigLoad (b.prepare a.script).flash).stored = lastFlags rs := h.load
    refine ⟨⟨h.newest, h.rising, h.limit⟩, .inl hload, fun hr => ?_⟩
    cases hr
    exact bootConfigStorePlan_ok hplan
  | inr s =>
    rw [hplan] at hl
    obtain ⟨hflags, hp⟩ := Planned.of_plan hplan
    have hu := s.carryOut_unchanged a.run (b.prepare a.script) [.erase, .payload, .commit]
    have hp' : Planned (b.prepare a.script).flash s := hp
    rcases ConfigStore.carryOut_ends hp' hl with ⟨hkeep, hr⟩ | hland
    · have hc : Committed (s.carryOut a.run (b.prepare a.script) [.erase, .payload, .commit]).1 rs :=
        ⟨by rw [hkeep]; exact h.newest, h.rising, h.limit⟩
      simp only [if_neg (Committed.not_landed hp' hu hkeep)]
      exact ⟨hc, .inl hc.load, fun hok => absurd hok hr⟩
    · have hc := h.push hp hland
      have hload := hc.load
      simp only [if_pos hland.1]
      simp only [lastFlags, hp.flags, hflags, UInt32.and_assoc, UInt32.and_self] at hload
      exact ⟨hc, .inr hload, fun _ => hload⟩

/-- An attempt works on the page that does not hold the newest record. -/
lemma StoreAttempt.spares {a : StoreAttempt} {b : Board} {r : ConfigRecord}
    (h : (configNewestRecord b.flash).1 = some r) :
    ∃ p, bootConfigReadPage b.flash p = some r ∧
      (∀ c ∈ p.region, (a.perform b).1.flash c = b.flash c) ∧
      ∀ run o, Event.op run o ∈ (a.perform b).1.log → Disjoint (o.range b.dual) p.region := by
  have hpage := configNewestRecord_page b.flash
  rw [h] at hpage
  refine ⟨_, hpage, ?_⟩
  have hflash : (b.prepare a.script).flash = b.flash := rfl
  simp only [StoreAttempt.perform, bootConfigStore, hflash]
  cases hplan : bootConfigStorePlan b.flash a.flags with
  | inl res => exact ⟨fun _ _ => rfl, nofun⟩
  | inr s =>
    obtain ⟨-, hp⟩ := Planned.of_plan hplan
    rw [← hp.page]
    have hd := s.page.region_disjoint
    refine ⟨fun c hc => ?_, fun run o ho => ?_⟩
    · exact (s.carryOut_unchanged a.run (b.prepare a.script) _).apply (Set.disjoint_left.mp hd hc)
    · rcases s.carryOut_log a.run (b.prepare a.script) _ ho with ho | ho
      · cases ho
      · exact hd.symm.mono_left ho

/-- In every sequence of stores, cut or failing wherever they may, a boot loads the flags of the
last store that committed.  The next store leaves the page of that record alone, and a boot after
it loads the same flags or the ones it asked for; never any other, never an unknown bit.  The
counters of the committed records rise and stay below the limit. -/
theorem boot_config_atomic {b : Board} {committed : List ConfigRecord}
    (h : Reach (withHistory storeStep committedUpd) StoreStart (fun x a _ => StoreLegal x.1 a)
      (b, committed)) :
    (bootConfigLoad b.flash).stored = lastFlags committed ∧
      (committed.Pairwise fun r r' => r'.counter < r.counter) ∧
      (∀ r ∈ committed, r.counter < bootConfigCounterLimit) ∧
      ∀ a, StoreLegal b a →
        ((bootConfigLoad (a.perform b).1.flash).stored = lastFlags committed ∨
          (bootConfigLoad (a.perform b).1.flash).stored = a.flags &&& bootConfigKnownFlags) ∧
        ((a.perform b).2 = some .ok →
          (bootConfigLoad (a.perform b).1.flash).stored = a.flags &&& bootConfigKnownFlags) ∧
        (bootConfigLoad (a.perform b).1.flash).stored &&& ~~~bootConfigKnownFlags = 0 ∧
        ∀ r, committed.head? = some r → ∃ p, bootConfigReadPage b.flash p = some r ∧
          (∀ c ∈ p.region, (a.perform b).1.flash c = b.flash c) ∧
          ∀ run o, Event.op run o ∈ (a.perform b).1.log → Disjoint (o.range b.dual) p.region := by
  have hc : Committed b committed := by
    apply Reach.invariant (I := fun x : Board × List ConfigRecord => Committed x.1 x.2) ?_ ?_ h
    · exact fun x hx => .start hx
    · rintro ⟨b, rs⟩ a ⟨b', rs'⟩ - hc hs hl
      obtain ⟨hstep, hrs⟩ := withHistory_eq_some.mp hs
      cases hstep
      simp only at hrs
      rw [hrs]
      exact (StoreAttempt.step hc hl).1
  refine ⟨hc.load, hc.rising, hc.limit, fun a hl => ?_⟩
  obtain ⟨-, hload, hok⟩ := StoreAttempt.step hc hl
  refine ⟨hload, hok, ?_, fun r hr => StoreAttempt.spares (hc.newest.trans hr)⟩
  have hknown : ∀ v : UInt32, v &&& bootConfigKnownFlags &&& ~~~bootConfigKnownFlags = 0 := by
    intro v
    rw [UInt32.and_assoc, show bootConfigKnownFlags &&& ~~~bootConfigKnownFlags = 0 from by decide,
      UInt32.and_zero]
  rw [bootConfigLoad_stored]
  cases (configNewestRecord (a.perform b).1.flash).1 with
  | none => decide
  | some r => exact hknown r.flags

/-! ### A store cut in its last operation -/

/-- `ConfigStore.TornOut` as a test. -/
def ConfigStore.tornOutCheck (s : ConfigStore) (run : Slot) (b : Board) : List StorePhase → Bool
  | [] => true
  | ph :: phs =>
    decide (s.page.Torn (s.call ph).content b.flash (b.fmcCall run (s.call ph)).1.flash) &&
      ((b.fmcCall run (s.call ph)).2 != some .ok ||
        s.tornOutCheck run (b.fmcCall run (s.call ph)).1 phs)

lemma ConfigStore.tornOut_of_check {s : ConfigStore} {run : Slot} {b : Board}
    {phs : List StorePhase} (h : s.tornOutCheck run b phs = true) : s.TornOut run b phs := by
  induction phs generalizing b with
  | nil => trivial
  | cons ph phs ih =>
    obtain ⟨htorn, hrest⟩ := Bool.and_eq_true_iff.mp h
    rw [Bool.or_eq_true, bne_iff_ne] at hrest
    exact ⟨of_decide_eq_true htorn, fun hok => ih (hrest.resolve_left (not_not.mpr hok))⟩

/-- `StoreLegal` as a test. -/
def storeLegalCheck (b : Board) (a : StoreAttempt) : Bool :=
  match bootConfigStorePlan b.flash a.flags with
  | .inl _ => true
  | .inr s => s.tornOutCheck a.run (b.prepare a.script) [.erase, .payload, .commit]

lemma storeLegal_of_check {b : Board} {a : StoreAttempt} (h : storeLegalCheck b a = true) :
    StoreLegal b a := by
  simp only [StoreLegal, storeLegalCheck] at h ⊢
  split at h
  · trivial
  · exact ConfigStore.tornOut_of_check h

/-- A board whose flash is erased. -/
def blankBoard : Board := ⟨fun _ => .erased, false, false, [], []⟩

/-- Flag 0 is set; the store that is to clear it loses power while its commit doubleword is
programmed and leaves it uncorrectable. -/
def cutStores : List StoreAttempt :=
  [⟨.A, 1, []⟩, ⟨.A, 0, [.ready, .ready, .cut fun _ => ⟨0, true⟩]⟩]

/-- The next attempt to clear the flag. -/
def retryStore : StoreAttempt := ⟨.A, 0, []⟩

def cutStoresCheck (x : Board × List ConfigRecord) : Bool :=
  x.2.map (·.counter) == [1] && (bootConfigLoad x.1.flash).stored == 1 &&
    storeLegalCheck x.1 retryStore && (retryStore.perform x.1).2 == some .ok

set_option maxRecDepth 20000 in
lemma cutStoresCheck_blank : (run (withHistory storeStep committedUpd)
    (fun x a _ => storeLegalCheck x.1 a) (blankBoard, []) cutStores).any cutStoresCheck = true := by
  decide +kernel

/-- The flag is still set after the cut, and clear after the retry. -/
theorem boot_config_atomic_cut : ∃ b committed,
    Reach (withHistory storeStep committedUpd) StoreStart (fun x a _ => StoreLegal x.1 a)
      (b, committed) ∧ StoreLegal b retryStore ∧
    lastFlags committed = 1 ∧ (bootConfigLoad b.flash).stored = lastFlags committed ∧
    (bootConfigLoad (retryStore.perform b).1.flash).stored = 0 := by
  have hinit : Reach (withHistory storeStep committedUpd) StoreStart
      (fun x a _ => StoreLegal x.1 a) (blankBoard, []) := .start rfl
  obtain ⟨⟨b, rs⟩, hr, hq⟩ := hinit.exists_of_run (fun x a _ => storeLegalCheck x.1 a)
    cutStoresCheck cutStores (fun _ _ _ => storeLegal_of_check) cutStoresCheck_blank
  simp only [cutStoresCheck, Bool.and_eq_true, beq_iff_eq] at hq
  obtain ⟨⟨⟨-, hload⟩, hcheck⟩, hok⟩ := hq
  have hlegal := storeLegal_of_check hcheck
  obtain ⟨hlast, -, -, hnext⟩ := boot_config_atomic hr
  exact ⟨b, rs, hr, hlegal, hlast.symm.trans hload, hlast, (hnext retryStore hlegal).2.1 hok⟩

end Gd32Bridge
