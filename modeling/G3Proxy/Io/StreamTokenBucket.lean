/-
  The global stream limiter (g3-io-ext `limit/token_bucket/stream.rs`): one
  bucket of byte tokens, an `AtomicU64`, drawn from by `check` and refilled
  by `release` and by a background task, each through a retry loop over
  compare_exchange, with any number of callers at once.

  The bucket is a `CasLoop.World` over the two loops: `try_consume(size)`
  returns `None` on an empty bucket and otherwise takes up to `size` tokens;
  `add_bytes(size, max_burst)` returns at a full bucket and otherwise adds
  `size` tokens up to the burst.  A run is any interleaving of callers
  starting `check` or `release`, rounds of the refill task, config updates,
  and single steps of the loops.  Counters are `Nat`.

  * `run_tokens_conserved`: after any run, the tokens are the first ones
    plus what the refills put in, less what the grants took, with each swap
    counted once; so the grants together never exceed the first tokens plus
    the sizes refilled;
  * `run_tokens_le_maxBurst`: with a config that passed `check` and no update
    to a larger burst, the bucket never holds more than the burst.
-/
import G3Proxy.Core.CasLoop
import G3Proxy.Io.TokenBucket
import G3Proxy.Io.StreamLimit

namespace G3Proxy

/-- `GlobalStreamSpeedLimitConfig`; the interval is in milliseconds. -/
structure GlobalStreamSpeedLimitConfig where
  replenishInterval : Nat
  replenishBytes : Nat
  maxBurstBytes : Nat
  deriving Repr, DecidableEq

namespace GlobalStreamSpeedLimitConfig

/-- `GlobalStreamSpeedLimitConfig::per_second`. -/
def perSecond (size : Nat) : GlobalStreamSpeedLimitConfig := ⟨1000, size, size⟩

/-- `check`: no replenish bytes is refused, and a burst below the replenish
    bytes is raised to them. -/
def check (c : GlobalStreamSpeedLimitConfig) : Except String GlobalStreamSpeedLimitConfig :=
  if c.replenishBytes = 0 then .error "no replenish bytes set"
  else if c.maxBurstBytes < c.replenishBytes then .ok { c with maxBurstBytes := c.replenishBytes }
  else .ok c

/-- A config that passed `check` refills something, within its burst. -/
theorem check_ok {c c' : GlobalStreamSpeedLimitConfig} (h : c.check = .ok c') :
    0 < c'.replenishBytes ∧ c'.replenishBytes ≤ c'.maxBurstBytes := by
  unfold check at h
  split_ifs at h with h0 hlt
  · cases h
    exact ⟨Nat.pos_of_ne_zero h0, le_refl c.replenishBytes⟩
  · cases h
    exact ⟨Nat.pos_of_ne_zero h0, Nat.le_of_not_lt hlt⟩

end GlobalStreamSpeedLimitConfig

/-- The two retry loops over `byte_tokens`. -/
inductive TokenOp where
  /-- `try_consume(size)` -/
  | tryConsume (size : Nat)
  /-- `add_bytes(size, max_burst)` -/
  | addBytes (size maxBurst : Nat)
  deriving Repr, DecidableEq

/-- `GlobalStreamLimiter`: the bucket with its loops, and `last_updated` in
    milliseconds. -/
structure GlobalStreamLimiter where
  group : GlobalLimitGroup
  config : GlobalStreamSpeedLimitConfig
  byteTokens : CasLoop.World TokenOp Nat (Option Nat)
  lastUpdated : Nat

namespace GlobalStreamLimiter

open GlobalDatagramLimiter (addTokens saturatingTake)

/-- The loops' bodies.  `try_consume` returns `None` on an empty bucket, and
    swaps in `cur.saturating_sub(size)`, returning what it took; `add_bytes`
    returns at a full bucket, and swaps in `cur + size` up to the burst (it
    returns no value, `none` here). -/
def tokenLoop : TokenOp → CasLoop.Body Nat (Option Nat)
  | .tryConsume size =>
    { exit := fun cur => if cur = 0 then some none else none
      next := fun cur => (saturatingTake cur size).2
      result := fun cur => some (saturatingTake cur size).1 }
  | .addBytes size maxBurst =>
    { exit := fun cur => if cur ≥ maxBurst then some none else none
      next := fun cur => addTokens cur size maxBurst
      result := fun _ => none }

/-- `GlobalStreamLimiter::new`: the bucket starts with the replenish bytes. -/
def new (group : GlobalLimitGroup) (config : GlobalStreamSpeedLimitConfig) (now : Nat) :
    GlobalStreamLimiter :=
  ⟨group, config, .start config.replenishBytes, now⟩

/-- What `check` answers once its `try_consume` returned: the grant, or a
    wait until the next refill (`wait_until`). -/
def checkAnswer (g : GlobalStreamLimiter) : Option Nat → StreamLimitAction
  | some n => .advanceBy n
  | none => .delayUntil (g.lastUpdated + g.config.replenishInterval)

/-- What happens to the limiter. -/
inductive Event where
  /-- a caller's `check(to_advance)` starts its `try_consume` -/
  | check (toAdvance : Nat)
  /-- `release(size)` starts `add_bytes` with the burst of the config -/
  | release (size : Nat)
  /-- the refill task wakes and starts `add_bytes` of its config -/
  | replenish
  /-- the refill task stores `last_updated` -/
  | replenished (now : Nat)
  /-- `update(config)` -/
  | update (config : GlobalStreamSpeedLimitConfig)
  /-- loop `i` takes one step -/
  | poll (i : Nat)

/-- One event. -/
def apply (g : GlobalStreamLimiter) : Event → GlobalStreamLimiter
  | .check toAdvance => { g with byteTokens := CasLoop.spawn g.byteTokens (.tryConsume toAdvance) }
  | .release size =>
    { g with byteTokens := CasLoop.spawn g.byteTokens (.addBytes size g.config.maxBurstBytes) }
  | .replenish =>
    { g with
      byteTokens := CasLoop.spawn g.byteTokens (.addBytes g.config.replenishBytes g.config.maxBurstBytes) }
  | .replenished now => { g with lastUpdated := now }
  | .update config => { g with config }
  | .poll i => { g with byteTokens := CasLoop.step tokenLoop g.byteTokens i }

/-- The limiter after the events, in order. -/
def run (g : GlobalStreamLimiter) (evs : List Event) : GlobalStreamLimiter :=
  evs.foldl apply g

@[simp] theorem run_nil (g : GlobalStreamLimiter) : run g [] = g := rfl

@[simp] theorem run_cons (g : GlobalStreamLimiter) (e : Event) (evs : List Event) :
    run g (e :: evs) = run (apply g e) evs := rfl

/-- A property every event of the run keeps holds after the run. -/
theorem run_induction (P : GlobalStreamLimiter → Prop) :
    ∀ (evs : List Event) (g : GlobalStreamLimiter), (∀ g e, e ∈ evs → P g → P (apply g e)) → P g →
      P (run g evs)
  | [], _, _, h => h
  | e :: evs, g, hstep, h =>
    run_induction P evs (apply g e) (fun g' e' he' => hstep g' e' (List.mem_cons_of_mem e he'))
      (hstep g e List.mem_cons_self h)

/-- Which loop starts: an event either starts one loop, steps one, or leaves
    the bucket alone. -/
theorem apply_byteTokens (g : GlobalStreamLimiter) (e : Event) :
    (∃ op, (apply g e).byteTokens = CasLoop.spawn g.byteTokens op ∧
      ((∃ n, op = .tryConsume n) ∨ ∃ size, op = .addBytes size g.config.maxBurstBytes)) ∨
    (∃ i, (apply g e).byteTokens = CasLoop.step tokenLoop g.byteTokens i) ∨
    (apply g e).byteTokens = g.byteTokens := by
  cases e with
  | check n => exact .inl ⟨_, rfl, .inl ⟨n, rfl⟩⟩
  | release size => exact .inl ⟨_, rfl, .inr ⟨size, rfl⟩⟩
  | replenish => exact .inl ⟨_, rfl, .inr ⟨_, rfl⟩⟩
  | replenished now => exact .inr (.inr rfl)
  | update c => exact .inr (.inr rfl)
  | poll i => exact .inr (.inl ⟨i, rfl⟩)

/-- A property of the bucket that every loop started and every loop step
    keeps, every event keeps. -/
theorem apply_world (P : CasLoop.World TokenOp Nat (Option Nat) → Prop)
    (hspawn : ∀ w op, P w → P (CasLoop.spawn w op)) (hstep : ∀ w i, P w → P (CasLoop.step tokenLoop w i))
    {g : GlobalStreamLimiter} (h : P g.byteTokens) (e : Event) : P (apply g e).byteTokens := by
  rcases apply_byteTokens g e with ⟨op, hw, -⟩ | ⟨i, hw⟩ | hw <;> rw [hw]
  · exact hspawn _ op h
  · exact hstep _ i h
  · exact h

/-! ## The tokens the swaps took and put in -/

/-- The tokens a swap took: what its `try_consume` returned. -/
def taken : TokenOp × Nat → Nat
  | (.tryConsume size, cur) => (saturatingTake cur size).1
  | (.addBytes .., _) => 0

/-- The tokens a swap put in. -/
def added : TokenOp × Nat → Nat
  | (.addBytes size maxBurst, cur) => addTokens cur size maxBurst - cur
  | (.tryConsume _, _) => 0

/-- The tokens a swap was asked to put in. -/
def refill : TokenOp × Nat → Nat
  | (.addBytes size _, _) => size
  | (.tryConsume _, _) => 0

/-- A swap moves the bucket by what it put in, less what it took. -/
theorem next_eq (e : TokenOp × Nat) (hexit : (tokenLoop e.1).exit e.2 = none) :
    ((tokenLoop e.1).next e.2 : Int) - e.2 = added e - taken e := by
  obtain ⟨op | op, cur⟩ := e
  · simp [tokenLoop, taken, added]
    omega
  · simp only [tokenLoop, ite_eq_right_iff, reduceCtorEq, imp_false, not_le] at hexit
    simp only [tokenLoop, taken, added, addTokens]
    split_ifs <;> omega

/-- A swap puts in at most what it was asked to. -/
theorem added_le_refill (e : TokenOp × Nat) : added e ≤ refill e := by
  obtain ⟨op | op, cur⟩ := e
  · simp [added, refill]
  · simp only [added, refill, addTokens]
    split_ifs <;> omega

/-- The swaps' net effect on the bucket, whatever the interleaving. -/
theorem tokens_of_replays {init cell : Nat} {s : List (TokenOp × Nat)}
    (h : CasLoop.Replays tokenLoop init s cell) :
    cell + (s.map taken).sum = init + (s.map added).sum :=
  CasLoop.Replays.balance id added taken next_eq h

theorem apply_replays {init : Nat} {g : GlobalStreamLimiter}
    (h : CasLoop.Replays tokenLoop init g.byteTokens.swaps g.byteTokens.cell) (e : Event) :
    CasLoop.Replays tokenLoop init (apply g e).byteTokens.swaps (apply g e).byteTokens.cell :=
  apply_world (fun w => CasLoop.Replays tokenLoop init w.swaps w.cell) (fun _ op h => h.spawn op)
    (fun _ i h => h.step i) h e

/-- After any run of callers, refills, updates and loop steps, in any
    interleaving, the tokens are the first ones plus what the refills put
    in, less what the grants took, each swap counted once; the grants
    together never exceed the first tokens plus the sizes refilled. -/
theorem run_tokens_conserved (group : GlobalLimitGroup) (config : GlobalStreamSpeedLimitConfig)
    (now : Nat) (evs : List Event) :
    (run (new group config now) evs).byteTokens.cell +
        ((run (new group config now) evs).byteTokens.swaps.map taken).sum =
      config.replenishBytes + ((run (new group config now) evs).byteTokens.swaps.map added).sum ∧
    ((run (new group config now) evs).byteTokens.swaps.map taken).sum ≤
      config.replenishBytes + ((run (new group config now) evs).byteTokens.swaps.map refill).sum := by
  have hrep : CasLoop.Replays tokenLoop config.replenishBytes
      (run (new group config now) evs).byteTokens.swaps (run (new group config now) evs).byteTokens.cell :=
    run_induction (fun g => CasLoop.Replays tokenLoop config.replenishBytes g.byteTokens.swaps g.byteTokens.cell)
      evs _ (fun g e _ h => apply_replays h e) (CasLoop.replays_nil tokenLoop _)
  have hcons := tokens_of_replays hrep
  have hle : ((run (new group config now) evs).byteTokens.swaps.map added).sum ≤
      ((run (new group config now) evs).byteTokens.swaps.map refill).sum :=
    List.sum_le_sum fun e _ => added_le_refill e
  exact ⟨hcons, by omega⟩

/-! ## The bucket stays within the burst -/

/-- A loop that refills up to at most `M`. -/
def OpLe (M : Nat) : TokenOp → Prop
  | .tryConsume _ => True
  | .addBytes _ maxBurst => maxBurst ≤ M

/-- A swap from a bucket within `M`, by a loop that refills up to at most
    `M`, stays within `M`. -/
theorem next_le {M cur : Nat} {op : TokenOp} (hop : OpLe M op) (hcur : cur ≤ M)
    (hexit : (tokenLoop op).exit cur = none) : (tokenLoop op).next cur ≤ M := by
  cases op with
  | tryConsume size =>
    simp only [tokenLoop, GlobalDatagramLimiter.saturatingTake_snd]
    omega
  | addBytes size maxBurst =>
    simp only [tokenLoop, ite_eq_right_iff, reduceCtorEq, imp_false, not_le] at hexit
    exact (GlobalDatagramLimiter.addTokens_le hexit.le).trans hop

/-- The bucket, its config and every loop started are within `M`. -/
structure Bounded (M : Nat) (g : GlobalStreamLimiter) : Prop where
  config_le : g.config.maxBurstBytes ≤ M
  cell_le : g.byteTokens.cell ≤ M
  ops_le : CasLoop.OpsOk (OpLe M) g.byteTokens

theorem Bounded.step {M : Nat} {g : GlobalStreamLimiter} (h : Bounded M g) (i : Nat) :
    (CasLoop.step tokenLoop g.byteTokens i).cell ≤ M ∧
      CasLoop.OpsOk (OpLe M) (CasLoop.step tokenLoop g.byteTokens i) := by
  refine ⟨?_, h.ops_le.step i⟩
  rcases CasLoop.step_cases tokenLoop g.byteTokens i with ⟨hc, -⟩ | ⟨op, hi, hexit, hw⟩
  · rw [hc]
    exact h.cell_le
  · rw [hw]
    exact next_le (h.ops_le.swap hi) h.cell_le hexit

/-- Every event keeps the bucket within `M`, an update to a burst within `M`
    included. -/
theorem Bounded.apply {M : Nat} {g : GlobalStreamLimiter} (h : Bounded M g) {e : Event}
    (hup : ∀ c, e = .update c → c.maxBurstBytes ≤ M) : Bounded M (apply g e) := by
  cases e with
  | check n => exact ⟨h.config_le, h.cell_le, h.ops_le.spawn trivial⟩
  | release size => exact ⟨h.config_le, h.cell_le, h.ops_le.spawn h.config_le⟩
  | replenish => exact ⟨h.config_le, h.cell_le, h.ops_le.spawn h.config_le⟩
  | replenished now => exact ⟨h.config_le, h.cell_le, h.ops_le⟩
  | update c => exact ⟨hup c rfl, h.cell_le, h.ops_le⟩
  | poll i =>
    obtain ⟨hc, hops⟩ := h.step i
    exact ⟨h.config_le, hc, hops⟩

/-- With a config that passed `check`, and updates to no larger burst, the
    bucket never holds more than the burst, whatever the interleaving of
    checks, releases and refills. -/
theorem run_tokens_le_maxBurst {c config : GlobalStreamSpeedLimitConfig} (hc : c.check = .ok config)
    (group : GlobalLimitGroup) (now : Nat) (evs : List Event)
    (hup : ∀ c', Event.update c' ∈ evs → c'.maxBurstBytes ≤ config.maxBurstBytes) :
    (run (new group config now) evs).byteTokens.cell ≤ config.maxBurstBytes := by
  have hstart : Bounded config.maxBurstBytes (new group config now) :=
    ⟨le_rfl, (GlobalStreamSpeedLimitConfig.check_ok hc).2, CasLoop.opsOk_start _ _⟩
  have hrun := run_induction (Bounded config.maxBurstBytes) evs _
    (fun g e he h => h.apply fun c' hc' => hup c' (hc' ▸ he)) hstart
  exact hrun.cell_le

theorem run_tokens_le_maxBurst_perSecond :
    (run (new .server (GlobalStreamSpeedLimitConfig.perSecond 1000) 0)
        [.check 300, .release 500, .poll 1, .poll 0, .replenish, .poll 2]).byteTokens.cell ≤
      (GlobalStreamSpeedLimitConfig.perSecond 1000).maxBurstBytes :=
  run_tokens_le_maxBurst (c := GlobalStreamSpeedLimitConfig.perSecond 1000) rfl .server 0 _ (by simp)

end GlobalStreamLimiter

end G3Proxy
