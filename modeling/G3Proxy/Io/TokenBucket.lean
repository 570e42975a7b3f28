/-
  The global datagram limiter (g3-io-ext `limit/token_bucket/datagram.rs`):
  two token buckets, of packets and of bytes, refilled by a background task
  and drawn from by `check_packet(s)`.

  One caller at a time: every `compare_exchange` loop succeeds on its first
  try, so a loop is the update it makes.  Counters and sizes are `Nat`; on
  the strictly increasing slices of cumulative sizes the callers pass, no
  subtraction of `check_packets` goes below zero (`checkPackets_spec`).
  `none` is a panic.

  * `check_packets(v)` takes up to `v.len()` packet tokens, then up to
    `v[n-1]` byte tokens for the `n` packets granted, and when the bytes fall
    short finds by `binary_search` the packets they cover and gives back the
    rest.
  * `checkPackets_eq_none`: with fewer byte tokens than the first packet's
    size, but some, the search finds no packet and the index of the packet
    before it, `to_advance - 1`, is out of range.
  * `checkPackets_spec`: in every other state it waits with the counters
    unchanged, or grants `1 ≤ n ≤ v.len()` packets for exactly `n` packet
    tokens and `v[n-1]` byte tokens (counters within their bursts, so that
    what is given back is not capped).
-/
import Mathlib.Data.Nat.Basic
import G3Proxy.Core.Lists
import G3Proxy.Io.DatagramLimit

namespace G3Proxy

/-- `GlobalDatagramSpeedLimitConfig`; the interval is in milliseconds. -/
structure GlobalDatagramSpeedLimitConfig where
  replenishInterval : Nat
  replenishBytes : Nat
  replenishPackets : Nat
  maxBurstBytes : Nat
  maxBurstPackets : Nat
  deriving Repr, DecidableEq

/-- `GlobalDatagramSpeedLimitConfig::per_second`: bytes only. -/
def GlobalDatagramSpeedLimitConfig.perSecond (bytes : Nat) : GlobalDatagramSpeedLimitConfig :=
  ⟨1000, bytes, 0, bytes, 0⟩

/-- `GlobalDatagramLimiter`; `last_updated` is in milliseconds. -/
@[ext] structure GlobalDatagramLimiter where
  config : GlobalDatagramSpeedLimitConfig
  byteTokens : Nat
  packetTokens : Nat
  lastUpdated : Nat
  deriving Repr, DecidableEq

namespace GlobalDatagramLimiter

/-! ## The buckets -/

/-- The loop of `add_bytes` and `add_packets`: refill by `size`, up to
    `maxBurst`, unless the bucket is already full. -/
def addTokens (cur size maxBurst : Nat) : Nat :=
  if cur ≥ maxBurst then cur else min (cur + size) maxBurst

/-- The draw of `check_packets` from a bucket holding `cur`:
    `cur.saturating_sub(n)` is left and the difference is taken. -/
def saturatingTake (cur n : Nat) : Nat × Nat :=
  (cur - (cur - n), cur - n)

/-- `GlobalDatagramLimiter::new`. -/
def new (config : GlobalDatagramSpeedLimitConfig) (now : Nat) : GlobalDatagramLimiter :=
  ⟨config, config.replenishBytes, config.replenishPackets, now⟩

/-- `update`: the buckets keep their tokens. -/
def update (g : GlobalDatagramLimiter) (config : GlobalDatagramSpeedLimitConfig) : GlobalDatagramLimiter :=
  { g with config }

/-- `add_bytes`. -/
def addBytes (g : GlobalDatagramLimiter) (size maxBurst : Nat) : GlobalDatagramLimiter :=
  { g with byteTokens := addTokens g.byteTokens size maxBurst }

/-- `add_packets`. -/
def addPackets (g : GlobalDatagramLimiter) (count maxBurst : Nat) : GlobalDatagramLimiter :=
  { g with packetTokens := addTokens g.packetTokens count maxBurst }

/-- One round of the task `tokio_spawn_replenish` starts, at `now`. -/
def replenish (g : GlobalDatagramLimiter) (now : Nat) : GlobalDatagramLimiter :=
  let c := g.config
  let g := if c.replenishBytes > 0 then g.addBytes c.replenishBytes c.maxBurstBytes else g
  let g := if c.replenishPackets > 0 then g.addPackets c.replenishPackets c.maxBurstPackets else g
  { g with lastUpdated := now }

/-- `wait_until`. -/
def waitUntil (g : GlobalDatagramLimiter) : Nat :=
  g.lastUpdated + g.config.replenishInterval

/-- `release_bytes`. -/
def releaseBytes (g : GlobalDatagramLimiter) (size : Nat) : GlobalDatagramLimiter :=
  if g.config.maxBurstBytes > 0 then g.addBytes size g.config.maxBurstBytes else g

/-- `release_packets`. -/
def releasePackets (g : GlobalDatagramLimiter) (count : Nat) : GlobalDatagramLimiter :=
  if g.config.maxBurstPackets > 0 then g.addPackets count g.config.maxBurstPackets else g

/-! ## `check_packet` and `check_packets` -/

/-- `check_packet`. -/
def checkPacket (g : GlobalDatagramLimiter) (bufSize : Nat) : DatagramLimitAction × GlobalDatagramLimiter :=
  let c := g.config
  if c.replenishPackets > 0 ∧ g.packetTokens = 0 then (.delayUntil g.waitUntil, g)
  else
    let g := if c.replenishPackets > 0 then { g with packetTokens := g.packetTokens - 1 } else g
    if c.replenishBytes > 0 ∧ g.byteTokens < bufSize then
      (.delayUntil g.waitUntil, if c.replenishPackets > 0 then g.addPackets 1 c.maxBurstPackets else g)
    else (.advance 1, if c.replenishBytes > 0 then { g with byteTokens := g.byteTokens - bufSize } else g)

/-- The packet loop of `check_packets` when it does not wait: the packets
    taken of the `n` offered, and the limiter after. -/
def takePackets (g : GlobalDatagramLimiter) (n : Nat) : Nat × GlobalDatagramLimiter :=
  if g.config.replenishPackets > 0 then
    ((saturatingTake g.packetTokens n).1, { g with packetTokens := (saturatingTake g.packetTokens n).2 })
  else (n, g)

/-- The byte loop of `check_packets` when it does not wait: the bytes
    taken of the `size` asked, and the limiter after. -/
def takeBytes (g : GlobalDatagramLimiter) (size : Nat) : Nat × GlobalDatagramLimiter :=
  if g.config.replenishBytes > 0 then
    ((saturatingTake g.byteTokens size).1, { g with byteTokens := (saturatingTake g.byteTokens size).2 })
  else (size, g)

/-- `total_size_v[n - 1]`: out of range at `n = 0`, where `n - 1` wraps. -/
def sizeAt (v : List Nat) (n : Nat) : Option Nat :=
  if n = 0 then none else v[n - 1]?

/-- The end of `check_packets` when the byte tokens fall short of the
    `toAdvance` packets: the packets the `bufSize` bytes taken cover, by
    `binary_search`, with the packets (and bytes) not needed given back. -/
def shrink (v : List Nat) (toAdvance bufSize : Nat) (g : GlobalDatagramLimiter) :
    Option (DatagramLimitAction × GlobalDatagramLimiter) :=
  let c := g.config
  match binarySearch v bufSize with
  | .ok found =>
    some (.advance (found + 1),
      if c.replenishPackets > 0 then g.addPackets (toAdvance - found - 1) c.maxBurstPackets else g)
  | .error ins =>
    let g := if c.replenishPackets > 0 then g.addPackets (toAdvance - ins) c.maxBurstPackets else g
    if c.replenishBytes > 0 then
      (sizeAt v ins).map fun prev => (.advance ins, g.addBytes (bufSize - prev) c.maxBurstBytes)
    else some (.advance ins, g)

/-- `check_packets` on the cumulative sizes `v`. -/
def checkPackets (g : GlobalDatagramLimiter) (v : List Nat) :
    Option (DatagramLimitAction × GlobalDatagramLimiter) :=
  let c := g.config
  if c.replenishPackets > 0 ∧ g.packetTokens = 0 then some (.delayUntil g.waitUntil, g)
  else
    let p := g.takePackets v.length
    match sizeAt v p.1 with
    | none => none
    | some last =>
      if c.replenishBytes > 0 ∧ p.2.byteTokens = 0 then
        some (.delayUntil p.2.waitUntil,
          if c.replenishPackets > 0 then p.2.addPackets p.1 c.maxBurstPackets else p.2)
      else
        let b := p.2.takeBytes last
        if b.1 = last then some (.advance p.1, b.2) else shrink v p.1 b.1 b.2

/-! ## What one call does -/

/-- The limiter after granting `n` of the packets of `v`: `n` packet tokens
    and `v[n-1]` byte tokens gone from the buckets in use. -/
def granted (g : GlobalDatagramLimiter) (v : List Nat) (n : Nat) : GlobalDatagramLimiter :=
  { g with
    packetTokens := if g.config.replenishPackets > 0 then g.packetTokens - n else g.packetTokens
    byteTokens := if g.config.replenishBytes > 0 then g.byteTokens - v.getD (n - 1) 0 else g.byteTokens }

/-- The contract of `check_packets`: wait with the limiter unchanged, or
    grant `1 ≤ n ≤ v.len()` packets, leaving `granted g v n`. -/
def Grants (g : GlobalDatagramLimiter) (v : List Nat) : DatagramLimitAction × GlobalDatagramLimiter → Prop
  | (.delayUntil _, g') => g' = g
  | (.advance n, g') => 1 ≤ n ∧ n ≤ v.length ∧ g' = g.granted v n
  | (.delayFor _, _) => False

/-- Each bucket in use holds at most its burst, so what is given back is
    never capped. -/
def InBurst (g : GlobalDatagramLimiter) : Prop :=
  (g.config.replenishPackets > 0 → g.packetTokens ≤ g.config.maxBurstPackets) ∧
    (g.config.replenishBytes > 0 → g.byteTokens ≤ g.config.maxBurstBytes)

section Lemmas

variable {g : GlobalDatagramLimiter} {v : List Nat}

@[simp] theorem saturatingTake_fst (cur n : Nat) : (saturatingTake cur n).1 = min cur n := by
  simp only [saturatingTake]
  omega

@[simp] theorem saturatingTake_snd (cur n : Nat) : (saturatingTake cur n).2 = cur - n := rfl

theorem addTokens_le {cur size maxBurst : Nat} (h : cur ≤ maxBurst) : addTokens cur size maxBurst ≤ maxBurst := by
  unfold addTokens
  split <;> omega

/-- Giving back what fits under the burst is not capped. -/
theorem addTokens_eq {cur size maxBurst : Nat} (h : cur + size ≤ maxBurst) (hlt : cur < maxBurst) :
    addTokens cur size maxBurst = cur + size := by
  unfold addTokens
  split <;> omega

/-- Giving back all but `k` of the `t` tokens taken from a bucket within its
    burst leaves it `k` tokens lower: the refill is not capped. -/
theorem addTokens_give_back {cur t k maxBurst : Nat} (hcur : cur ≤ maxBurst) (ht : 1 ≤ t) (htc : t ≤ cur)
    (hk : k ≤ t) : addTokens (cur - t) (t - k) maxBurst = cur - k := by
  rw [addTokens_eq (by omega) (by omega)]
  omega

theorem sizeAt_eq {n : Nat} (h1 : 1 ≤ n) (hn : n ≤ v.length) : sizeAt v n = some (v.getD (n - 1) 0) := by
  rw [sizeAt, if_neg (by omega), List.getD_eq_getElem?_getD, List.getElem?_eq_getElem (by omega)]
  rfl

/-- The packet loop grants between one and all of the offered packets,
    unless it waits. -/
theorem takePackets_spec (hwait : ¬ (g.config.replenishPackets > 0 ∧ g.packetTokens = 0)) (hne : v ≠ []) :
    1 ≤ (g.takePackets v.length).1 ∧ (g.takePackets v.length).1 ≤ v.length ∧
      (g.config.replenishPackets > 0 → (g.takePackets v.length).1 ≤ g.packetTokens) ∧
      (g.takePackets v.length).2 = { g with packetTokens :=
        if g.config.replenishPackets > 0 then g.packetTokens - (g.takePackets v.length).1 else g.packetTokens } := by
  have hlen := List.length_pos_of_ne_nil hne
  unfold takePackets
  split
  · rename_i hp
    simp only [saturatingTake_fst, saturatingTake_snd]
    refine ⟨by omega, by omega, fun _ => by omega, ?_⟩
    congr 1
    omega
  · rename_i hp
    exact ⟨hlen, Nat.le_refl _, fun h => absurd h hp, rfl⟩

/-- The shrink path of `check_packets`, after `t` packets and `B < v[t-1]`
    bytes were taken: the search finds the packets the bytes cover, and
    gives back the packets and the bytes beyond them, uncapped. -/
theorem shrink_spec (hv : v.Pairwise (· < ·)) (hne : v ≠ []) (hg : g.InBurst) {t : Nat} (ht1 : 1 ≤ t)
    (htlen : t ≤ v.length) (htP : g.config.replenishPackets > 0 → t ≤ g.packetTokens)
    (hb : g.config.replenishBytes > 0) (hBlast : g.byteTokens < v.getD (t - 1) 0)
    (hhead : v.head hne ≤ g.byteTokens) :
    ∃ r, shrink v t g.byteTokens { g with
        packetTokens := if g.config.replenishPackets > 0 then g.packetTokens - t else g.packetTokens
        byteTokens := 0 } = some r ∧ Grants g v r := by
  have hlast : v.getD (t - 1) 0 = v[t - 1] := by
    rw [List.getD_eq_getElem?_getD, List.getElem?_eq_getElem (by omega)]
    rfl
  have hMB := hg.2 hb
  cases hsearch : binarySearch v g.byteTokens with
  | ok found =>
    -- the bytes taken are exactly the first `found + 1` packets
    obtain ⟨hf, hfv⟩ := binarySearch_ok hsearch
    have hft : found + 1 < t := by
      by_contra hle
      have := hv.getElem_le_of_le (i := t - 1) hf (by omega)
      omega
    refine ⟨(.advance (found + 1), _), by simp only [shrink, hsearch]; rfl, by omega, by omega, ?_⟩
    have hfd : v[found]?.getD 0 = g.byteTokens := by
      rw [List.getElem?_eq_getElem hf, hfv]
      rfl
    split
    · rename_i hp
      have hP := hg.1 hp
      have htP' := htP hp
      have hpk : addTokens (g.packetTokens - t) (t - found - 1) g.config.maxBurstPackets =
          g.packetTokens - (found + 1) := by
        rw [show t - found - 1 = t - (found + 1) by omega]
        exact addTokens_give_back hP ht1 htP' (by omega)
      ext <;> simp [granted, addPackets, hp, hb, hfd, hpk]
    · rename_i hp
      ext <;> simp [granted, hp, hb, hfd]
  | error ins =>
    -- the bytes cover the `ins` packets below them; the rest of the bytes go back
    obtain ⟨hnotin, hins⟩ := binarySearch_error hsearch
    have hins_le : ins ≤ t - 1 := hins ▸ hv.countP_lt_le (by omega) (by omega)
    have hins_pos : 1 ≤ ins := by
      rw [hins]
      refine List.countP_pos_iff.2 ⟨v.head hne, List.head_mem hne, ?_⟩
      have : v.head hne ≠ g.byteTokens := fun h => hnotin (h ▸ List.head_mem hne)
      simpa using lt_of_le_of_ne hhead this
    have hprev : v[ins - 1] < g.byteTokens := by
      by_contra hge
      have := hv.countP_lt_le (i := ins - 1) (x := g.byteTokens) (by omega) (by omega)
      omega
    have hprevD : v[ins - 1]?.getD 0 = v[ins - 1] := by
      rw [List.getElem?_eq_getElem (by omega)]
      rfl
    refine ⟨(.advance ins, _), by simp only [shrink, hsearch, if_pos hb, sizeAt_eq (v := v) hins_pos (by omega), List.getD_eq_getElem?_getD, hprevD]; rfl,
      hins_pos, by omega, ?_⟩
    have hbytes : addTokens 0 (g.byteTokens - v[ins - 1]) g.config.maxBurstBytes = g.byteTokens - v[ins - 1] := by
      unfold addTokens
      split <;> omega
    split
    · rename_i hp
      have hP := hg.1 hp
      have htP' := htP hp
      have hpk : addTokens (g.packetTokens - t) (t - ins) g.config.maxBurstPackets = g.packetTokens - ins :=
        addTokens_give_back hP ht1 htP' (by omega)
      ext <;> simp [granted, addPackets, addBytes, hp, hb, hprevD, hbytes, hpk]
    · rename_i hp
      ext <;> simp [granted, addBytes, hp, hb, hprevD, hbytes]

/-- `check_packets` on a strictly increasing `v`, from a state whose byte
    bucket is not strictly between empty and `v[0]`: it does not panic, and
    it waits with the limiter unchanged or grants `1 ≤ n ≤ v.len()` packets
    for `n` packet tokens and `v[n-1]` byte tokens. -/
theorem checkPackets_spec (hv : v.Pairwise (· < ·)) (hne : v ≠ []) (hg : g.InBurst)
    (hwin : g.config.replenishBytes > 0 → 0 < g.byteTokens → v.head hne ≤ g.byteTokens) :
    ∃ r, g.checkPackets v = some r ∧ Grants g v r := by
  by_cases hwait : g.config.replenishPackets > 0 ∧ g.packetTokens = 0
  · refine ⟨(.delayUntil g.waitUntil, g), by simp only [checkPackets, if_pos hwait], rfl⟩
  obtain ⟨ht1, htlen, htP, hp⟩ := takePackets_spec hwait hne
  simp only [checkPackets, if_neg hwait]
  generalize (g.takePackets v.length).1 = t at ht1 htlen htP hp ⊢
  generalize (g.takePackets v.length).2 = g₁ at hp ⊢
  subst hp
  simp only [sizeAt_eq ht1 htlen]
  by_cases hbwait : g.config.replenishBytes > 0 ∧ g.byteTokens = 0
  · -- the byte bucket is empty: the packets taken go back, uncapped
    rw [if_pos hbwait]
    refine ⟨_, rfl, ?_⟩
    simp only [Grants]
    split
    · rename_i hp
      have hP := hg.1 hp
      have htP' := htP hp
      have hpk : addTokens (g.packetTokens - t) t g.config.maxBurstPackets = g.packetTokens := by
        simpa using addTokens_give_back hP ht1 htP' (Nat.zero_le t)
      ext <;> simp [addPackets, hpk]
    · ext <;> simp
  rw [if_neg hbwait]
  by_cases hb : g.config.replenishBytes > 0
  · have hB : 0 < g.byteTokens := by omega
    by_cases hlast : g.byteTokens < v.getD (t - 1) 0
    · -- fewer bytes than the `t` packets need: the shrink path
      have hne' : g.byteTokens ≠ v.getD (t - 1) 0 := by omega
      simp only [takeBytes, if_pos hb, saturatingTake_fst, saturatingTake_snd,
        Nat.min_eq_left (Nat.le_of_lt hlast), Nat.sub_eq_zero_of_le (Nat.le_of_lt hlast), if_neg hne']
      exact shrink_spec hv hne hg ht1 htlen htP hb hlast (hwin hb hB)
    · -- enough bytes for all `t` packets
      have heq : min g.byteTokens (v.getD (t - 1) 0) = v.getD (t - 1) 0 := by omega
      simp only [takeBytes, if_pos hb, saturatingTake_fst, saturatingTake_snd, heq, if_true]
      refine ⟨_, rfl, ht1, htlen, ?_⟩
      ext <;> simp [granted, hb]
  · simp only [takeBytes, if_neg hb, if_true]
    refine ⟨_, rfl, ht1, htlen, ?_⟩
    ext <;> simp [granted, hb]

/-- With some byte tokens, but fewer than the first packet needs, the
    search finds no packet, and `total_size_v[to_advance - 1]` with
    `to_advance = 0` panics. -/
theorem checkPackets_eq_none {a : Nat} {v : List Nat} (hv : (a :: v).Pairwise (· < ·))
    (hb : g.config.replenishBytes > 0) (hB : 0 < g.byteTokens) (hlt : g.byteTokens < a)
    (hp : ¬ (g.config.replenishPackets > 0 ∧ g.packetTokens = 0)) : g.checkPackets (a :: v) = none := by
  obtain ⟨ht1, htlen, -, hpt⟩ := takePackets_spec (v := a :: v) hp (List.cons_ne_nil a v)
  simp only [checkPackets, if_neg hp]
  generalize (g.takePackets (a :: v).length).1 = t at ht1 htlen hpt ⊢
  generalize (g.takePackets (a :: v).length).2 = g₁ at hpt ⊢
  subst hpt
  -- every packet needs more than the bytes there are
  have hfirst : a ≤ (a :: v).getD (t - 1) 0 := by
    have := List.Pairwise.getElem_le_of_le hv (i := 0) (j := t - 1) (by omega) (Nat.zero_le _)
    rw [List.getD_eq_getElem?_getD, List.getElem?_eq_getElem (by omega)]
    simpa using this
  have hmiss : binarySearch (a :: v) g.byteTokens = .error 0 := by
    unfold binarySearch
    have hnone : (a :: v).idxOf? g.byteTokens = none := by
      refine List.idxOf?_eq_none_iff.2 fun hm => ?_
      obtain ⟨i, hi, hieq⟩ := List.mem_iff_getElem.1 hm
      have := List.Pairwise.getElem_le_of_le hv (i := 0) (j := i) hi (Nat.zero_le _)
      simp at this
      omega
    have hcount : (a :: v).countP (· < g.byteTokens) = 0 := by
      refine List.countP_eq_zero.2 fun y hy => ?_
      obtain ⟨i, hi, rfl⟩ := List.mem_iff_getElem.1 hy
      have := List.Pairwise.getElem_le_of_le hv (i := 0) (j := i) hi (Nat.zero_le _)
      simp at this
      simp
      omega
    rw [hnone, hcount]
  have hne' : g.byteTokens ≠ (a :: v).getD (t - 1) 0 := by omega
  simp only [sizeAt_eq ht1 htlen, if_neg (show ¬ (g.config.replenishBytes > 0 ∧ g.byteTokens = 0) by omega),
    takeBytes, if_pos hb, saturatingTake_fst, saturatingTake_snd,
    Nat.min_eq_left (show g.byteTokens ≤ (a :: v).getD (t - 1) 0 by omega), if_neg hne']
  simp [shrink, hmiss, hb, sizeAt]

end Lemmas

/-! ## Runs -/

/-- The calls a limiter serves: its users' checks and releases, the rounds
    of the replenish task, and configuration updates. -/
inductive Op where
  | checkPacket (bufSize : Nat)
  | checkPackets (v : List Nat)
  | releaseBytes (size : Nat)
  | releasePackets (count : Nat)
  | replenish (now : Nat)
  | update (config : GlobalDatagramSpeedLimitConfig)
  deriving Repr, DecidableEq

/-- One call; `none` is a panic. -/
def step (g : GlobalDatagramLimiter) : Op → Option GlobalDatagramLimiter
  | .checkPacket bufSize => some (g.checkPacket bufSize).2
  | .checkPackets v => (g.checkPackets v).map (·.2)
  | .releaseBytes size => some (g.releaseBytes size)
  | .releasePackets count => some (g.releasePackets count)
  | .replenish now => some (g.replenish now)
  | .update config => some (g.update config)

/-- The calls that keep the buckets within their bursts: `check_packets`
    on the cumulative sizes of some packets, as `DatagramLimiter` passes
    them, and no update, which may lower a burst below its bucket. -/
def Op.Allowed : Op → Prop
  | .checkPackets v => v.Pairwise (· < ·) ∧ v ≠ []
  | .update _ => False
  | _ => True

section Runs

variable {g g' : GlobalDatagramLimiter}

theorem inBurst_addPackets (hg : g.InBurst) (count : Nat) : (g.addPackets count g.config.maxBurstPackets).InBurst :=
  ⟨fun hp => addTokens_le (hg.1 hp), hg.2⟩

theorem inBurst_addBytes (hg : g.InBurst) (size : Nat) : (g.addBytes size g.config.maxBurstBytes).InBurst :=
  ⟨hg.1, fun hb => addTokens_le (hg.2 hb)⟩

/-- Taking tokens keeps a limiter within its bursts. -/
theorem inBurst_of_le (hg : g.InBurst) (hc : g'.config = g.config) (hp : g'.packetTokens ≤ g.packetTokens)
    (hb : g'.byteTokens ≤ g.byteTokens) : g'.InBurst :=
  ⟨fun h => le_trans hp (hc ▸ hg.1 (hc ▸ h)), fun h => le_trans hb (hc ▸ hg.2 (hc ▸ h))⟩

theorem inBurst_granted (hg : g.InBurst) (v : List Nat) (n : Nat) : (g.granted v n).InBurst :=
  inBurst_of_le hg rfl (by simp only [granted]; split <;> omega) (by simp only [granted]; split <;> omega)

/-- `check_packet` within the bursts is `check_packets` of one packet: it
    waits with the limiter unchanged, or grants the packet for one packet
    token and `bufSize` byte tokens. -/
theorem checkPacket_spec (hg : g.InBurst) (bufSize : Nat) :
    g.checkPacket bufSize = (.delayUntil g.waitUntil, g) ∨
      g.checkPacket bufSize = (.advance 1, g.granted [bufSize] 1) := by
  unfold checkPacket
  by_cases hwait : g.config.replenishPackets > 0 ∧ g.packetTokens = 0
  · exact .inl (by simp only [if_pos hwait])
  simp only [if_neg hwait]
  by_cases hp : g.config.replenishPackets > 0
  · have hP : 1 ≤ g.packetTokens := by omega
    have hpk : addTokens (g.packetTokens - 1) 1 g.config.maxBurstPackets = g.packetTokens := by
      simpa using addTokens_give_back (hg.1 hp) (Nat.le_refl 1) hP (Nat.zero_le 1)
    simp only [if_pos hp]
    split
    · -- too few bytes: the packet goes back
      left
      ext <;> simp [addPackets, waitUntil, hpk]
    · right
      split <;> (rename_i hb; ext <;> simp [granted, hp, hb])
  · simp only [if_neg hp]
    split
    · exact .inl rfl
    · right
      split <;> (rename_i hb; ext <;> simp [granted, hp, hb])

theorem inBurst_checkPacket (hg : g.InBurst) (bufSize : Nat) : (g.checkPacket bufSize).2.InBurst := by
  rcases checkPacket_spec hg bufSize with h | h
  · rw [h]
    exact hg
  · rw [h]
    exact inBurst_granted hg [bufSize] 1

theorem inBurst_checkPackets (hg : g.InBurst) {v : List Nat} (hv : v.Pairwise (· < ·)) (hne : v ≠ [])
    {r : DatagramLimitAction × GlobalDatagramLimiter} (h : g.checkPackets v = some r) : r.2.InBurst := by
  by_cases hwin : g.config.replenishBytes > 0 → 0 < g.byteTokens → v.head hne ≤ g.byteTokens
  · obtain ⟨r', hr', hgr⟩ := checkPackets_spec hv hne hg hwin
    rw [h] at hr'
    cases hr'
    obtain ⟨a, g'⟩ := r
    cases a with
    | delayUntil _ =>
      cases hgr
      exact hg
    | advance n =>
      obtain ⟨-, -, rfl⟩ := hgr
      exact inBurst_granted hg v n
    | delayFor _ => exact hgr.elim
  · -- in the window where `check_packets` panics there is no result
    obtain ⟨hb, hB, hlt⟩ : g.config.replenishBytes > 0 ∧ 0 < g.byteTokens ∧ g.byteTokens < v.head hne := by
      simp only [Classical.not_imp, not_le] at hwin
      exact hwin
    obtain ⟨a, v, rfl⟩ := List.exists_cons_of_ne_nil hne
    by_cases hp : g.config.replenishPackets > 0 ∧ g.packetTokens = 0
    · simp only [checkPackets, if_pos hp, Option.some.injEq] at h
      rw [← h]
      exact hg
    · rw [checkPackets_eq_none hv hb hB hlt hp] at h
      cases h

@[simp] theorem replenish_config (now : Nat) : (g.replenish now).config = g.config := by
  dsimp only [replenish]
  split <;> split <;> rfl

@[simp] theorem replenish_packetTokens (now : Nat) : (g.replenish now).packetTokens =
    if g.config.replenishPackets > 0 then addTokens g.packetTokens g.config.replenishPackets g.config.maxBurstPackets
    else g.packetTokens := by
  dsimp only [replenish]
  split <;> split <;> rfl

@[simp] theorem replenish_byteTokens (now : Nat) : (g.replenish now).byteTokens =
    if g.config.replenishBytes > 0 then addTokens g.byteTokens g.config.replenishBytes g.config.maxBurstBytes
    else g.byteTokens := by
  dsimp only [replenish]
  split <;> split <;> rfl

theorem inBurst_replenish (hg : g.InBurst) (now : Nat) : (g.replenish now).InBurst := by
  refine ⟨fun hp => ?_, fun hb => ?_⟩
  · rw [replenish_config] at hp ⊢
    rw [replenish_packetTokens, if_pos hp]
    exact addTokens_le (hg.1 hp)
  · rw [replenish_config] at hb ⊢
    rw [replenish_byteTokens, if_pos hb]
    exact addTokens_le (hg.2 hb)

theorem inBurst_releaseBytes (hg : g.InBurst) (size : Nat) : (g.releaseBytes size).InBurst := by
  unfold releaseBytes
  split
  · exact inBurst_addBytes hg size
  · exact hg

theorem inBurst_releasePackets (hg : g.InBurst) (count : Nat) : (g.releasePackets count).InBurst := by
  unfold releasePackets
  split
  · exact inBurst_addPackets hg count
  · exact hg

/-- Every allowed call that does not panic keeps the buckets within their
    bursts. -/
theorem step_inBurst {o : Op} (ho : o.Allowed) (hg : g.InBurst) (h : step g o = some g') : g'.InBurst := by
  cases o with
  | checkPacket bufSize =>
    cases h
    exact inBurst_checkPacket hg bufSize
  | checkPackets v =>
    obtain ⟨r, hr, rfl⟩ := Option.map_eq_some_iff.1 h
    exact inBurst_checkPackets hg ho.1 ho.2 hr
  | releaseBytes size =>
    cases h
    exact inBurst_releaseBytes hg size
  | releasePackets count =>
    cases h
    exact inBurst_releasePackets hg count
  | replenish now =>
    cases h
    exact inBurst_replenish hg now
  | update config => exact ho.elim

/-- After any run of allowed calls from a limiter within its bursts (one
    just made whose replenish amounts fit its bursts, for one), every
    `check_packets` on cumulative sizes panics only with some byte tokens,
    fewer than the first packet needs; otherwise it waits with the limiter
    unchanged or grants exactly. -/
theorem run_checkPackets_spec (hg : g.InBurst) {os : List Op} (hos : ∀ o ∈ os, o.Allowed)
    (hrun : Machine.run step g os = some g') {v : List Nat} (hv : v.Pairwise (· < ·)) (hne : v ≠ [])
    (hwin : g'.config.replenishBytes > 0 → 0 < g'.byteTokens → v.head hne ≤ g'.byteTokens) :
    ∃ r, g'.checkPackets v = some r ∧ Grants g' v r :=
  checkPackets_spec hv hne (Machine.run_inv InBurst Op.Allowed (fun _ _ _ ho hs h => step_inBurst ho hs h)
    os g g' hos hg hrun) hwin

/-- A limiter of 100 bytes and 10 packets a second, bursts of 200 and 20,
    that let a packet of 30 bytes through and was replenished, then asked
    for packets of 20 and 30 bytes. -/
theorem run_checkPackets_spec_replenished :
    ∃ g', Machine.run step (new ⟨1000, 100, 10, 200, 20⟩ 0) [.checkPacket 30, .replenish 1000] = some g' ∧
      ∃ r, g'.checkPackets [20, 50] = some r ∧ Grants g' [20, 50] r :=
  ⟨_, rfl, @run_checkPackets_spec (new ⟨1000, 100, 10, 200, 20⟩ 0) _ (by unfold InBurst; decide)
    [.checkPacket 30, .replenish 1000] (by simp [Op.Allowed]) rfl [20, 50] (by decide) (List.cons_ne_nil _ _)
    (by decide)⟩

theorem inBurst_new {config : GlobalDatagramSpeedLimitConfig} (hp : config.replenishPackets ≤ config.maxBurstPackets)
    (hb : config.replenishBytes ≤ config.maxBurstBytes) (now : Nat) : (new config now).InBurst :=
  ⟨fun _ => hp, fun _ => hb⟩

end Runs

/-- A limiter of 100 bytes per second that has let one packet of 50 bytes
    through holds 50 byte tokens; `check_packets` on one packet of 100
    bytes then panics. -/
theorem checkPackets_perSecond_panics :
    (new (.perSecond 100) 0).checkPacket 50 = (.advance 1, ⟨.perSecond 100, 50, 0, 0⟩) ∧
      checkPackets ⟨.perSecond 100, 50, 0, 0⟩ [100] = none :=
  ⟨rfl, checkPackets_eq_none (by decide) (by decide) (by decide) (by decide) (by decide)⟩

end GlobalDatagramLimiter

end G3Proxy
