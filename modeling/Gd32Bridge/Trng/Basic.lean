import Gd32Bridge.Lib.Endian
import Gd32Bridge.Protocol.Hal

/-!
# The random number generator (`hal/gd32/trng.c`)

The unit is started, its first word is discarded, and every later word is compared with the one
before it.  What the peripheral shows at each read of it is handed to the functions; what they do to
it is noted in the order in which it happens.
-/

namespace Gd32Bridge

open Endian

/-- The five bits `trng_faulted` looks at. -/
structure TrngFlags where
  errsta : Bool
  ceif : Bool
  seif : Bool
  cecs : Bool
  secs : Bool
deriving DecidableEq, Repr

/-- `trng_faulted` -/
def TrngFlags.faulted (f : TrngFlags) : Bool :=
  if f.errsta then true else f.ceif || f.seif || f.cecs || f.secs

/-- No bit is set. -/
def TrngFlags.clear : TrngFlags := ⟨false, false, false, false, false⟩

/-- What happens at the peripheral. -/
inductive TrngAccess
  /-- `trng_start` has configured and enabled the unit -/
  | restart
  /-- `trng_demote` has reset it -/
  | demote
  /-- a fault has been seen -/
  | fault
  /-- a word has been read from `TRNG_DATA` -/
  | data (word : UInt32)
deriving DecidableEq, Repr

/-- The variables of `trng.c`, and what has happened at the peripheral so far. -/
structure Trng where
  started : Bool
  ready : Bool
  prevWord : UInt32
  prevValid : Bool
  log : List TrngAccess
deriving DecidableEq, Repr

/-- The variables as the C runtime leaves them. -/
def Trng.boot : Trng := ⟨false, false, 0, false, []⟩

def Trng.note (u : Trng) (a : TrngAccess) : Trng := { u with log := u.log ++ [a] }

/-- `TRNG_READY_TIMEOUT` -/
def trngReadyTimeout : ℕ := 65535

/-! ### Starting -/

/-- `trng_started = trng_start()`; `pll` says that the PLL is stable within the timeout. -/
def trngStart (u : Trng) (pll : Bool) : Trng :=
  if pll then { u.note .restart with started := true } else { u with started := false }

/-- `trng_demote` -/
def trngDemote (u : Trng) : Trng :=
  { u.note .demote with started := false, ready := false, prevValid := false }

/-- The ready flag is seen within `n` polls from the `i`-th on. -/
def drdyWithin (drdy : ℕ → Bool) : ℕ → ℕ → Bool
  | 0, _ => false
  | n + 1, i => drdy i || drdyWithin drdy n (i + 1)

/-- What `trng_poll_ready` meets: the bits at each call of `trng_faulted`, the polls of the ready
flag, and the word in the data register. -/
structure PollEnv where
  fault₀ : TrngFlags
  drdy : ℕ → Bool
  fault₁ : TrngFlags
  fault₂ : TrngFlags
  word : UInt32

/-- `trng_poll_ready` -/
def trngPollReady (u : Trng) (env : PollEnv) : Trng × Bool :=
  if env.fault₀.faulted then (trngDemote (u.note .fault), false)
  else if drdyWithin env.drdy trngReadyTimeout 0 then
    if env.fault₁.faulted then
      -- the bits are read once more before the unit is demoted
      if env.fault₂.faulted then (trngDemote ((u.note .fault).note .fault), false)
      else (u.note .fault, false)
    else
      ({ u.note (.data env.word) with prevWord := env.word, prevValid := true, ready := true }, true)
  else if env.fault₂.faulted then (trngDemote (u.note .fault), false)
  else (u, false)

/-- The boot-time rounds of `bridge_hw_init`. -/
def trngRounds (env : ℕ → PollEnv) : ℕ → Trng → Trng
  | 0, u => u
  | n + 1, u =>
    if u.started && !u.ready then trngRounds env n (trngPollReady u (env n)).1 else u

/-- The TRNG part of `bridge_hw_init`. -/
def trngInit (pll : Bool) (env : ℕ → PollEnv) : Trng :=
  trngRounds env 8 (trngStart .boot pll)

/-! ### Reading -/

/-- What one turn of the loop of `bridge_hw_trng_read` meets. -/
structure PullEnv where
  fault₀ : TrngFlags
  drdy : ℕ → Bool
  drdyAfter : Bool
  fault₁ : TrngFlags
  word : UInt32

/-- The budget that is left after the polls from the `i`-th on. -/
def spendBudget (drdy : ℕ → Bool) : ℕ → ℕ → ℕ
  | 0, _ => 0
  | budget + 1, i => if drdy i then budget + 1 else spendBudget drdy budget (i + 1)

/-- The loop of `bridge_hw_trng_read`, with the bytes written so far.  Every turn writes at least
one, so that `len` turns are enough. -/
def trngFill (env : ℕ → PullEnv) (len : ℕ) : ℕ → ℕ → ℕ → Trng → List UInt8 →
    Trng × HwRv × List UInt8
  | 0, _, _, u, dest => (u, .ok, dest)
  | fuel + 1, i, budget, u, dest =>
    if dest.length < len then
      if (env i).fault₀.faulted then (trngDemote (u.note .fault), .io, dest)
      else
        let budget := spendBudget (env i).drdy budget 0
        if ¬ (env i).drdyAfter then
          if (env i).fault₁.faulted then (trngDemote (u.note .fault), .io, dest)
          else (u, .busy, dest)
        else
          let word := (env i).word
          let u := u.note (.data word)
          if u.prevValid ∧ word = u.prevWord then (trngDemote u, .io, dest)
          else
            let u := { u with prevWord := word, prevValid := true }
            let chunk := if len - dest.length ≥ 4 then 4 else len - dest.length
            trngFill env len fuel (i + 1) budget u (dest ++ (le32 word).take chunk)
    else (u, .ok, dest)

/-- What a call of `bridge_hw_trng_read` meets. -/
structure TrngReadEnv where
  pll : Bool
  poll : PollEnv
  pull : ℕ → PullEnv

/-- `bridge_hw_trng_read`: the unit, the return code and what has been written to `dest`. -/
def bridgeHwTrngRead (u : Trng) (env : TrngReadEnv) (len : ℕ) : Trng × HwRv × List UInt8 :=
  if len = 0 ∨ len > 32 then (u, .range, [])
  else
    let u := if u.started then u else trngStart u env.pll
    if ¬ u.started then (u, .io, [])
    else
      let fill (u : Trng) := trngFill env.pull len len 0 (2 * trngReadyTimeout) u []
      if u.ready then fill u
      else
        match trngPollReady u env.poll with
        | (u, true) => fill u
        | (u, false) => (u, .io, [])

/-- A call of `bridge_hw_trng_read`. -/
structure TrngCall where
  env : TrngReadEnv
  len : ℕ

/-- The unit after a call. -/
def trngStep (u : Trng) (c : TrngCall) : Option Trng :=
  some (bridgeHwTrngRead u c.env c.len).1

end Gd32Bridge
