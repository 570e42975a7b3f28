/-
  Fixed-window limiters (g3-io-ext `limit/fixed_window`): what a window
  computes, the count limiter (`count.rs`), and the budgets of the limiters
  over whole runs.

  * `aligned_new`: `FixedWindow::new` with shift `s` cuts time into aligned
    slices of `2^s` milliseconds (`s` clamped to
    `RATE_LIMIT_SHIFT_MILLIS_MAX`): `slice_id` tells slices apart whatever
    the offset (`Aligned.sliceId_eq_iff`), and `delay` is the time left to the
    next slice (`delay_ends_slice`).
  * `runUses_within_budget`: a `LocalStreamLimiter` whose caller passes
    `set_advance` at most what `check` granted never holds more than
    `max_bytes`, and what is advanced in each slice adds up to at most
    `max_bytes`.
  * The count limiter keeps what is left of its budget in `cur_count`:
    `new` starts it full and a new slice refills it, but `reset` empties it.
    Built by `new` it passes exactly `min(max_count, m)` of the `m` checks of
    each slice (`runChecks_new_passes`); built by `new_updated` at `t0` it
    refuses every check in the slice of `t0`
    (`newUpdated_refuses_first_slice`).
  * `LocalDatagramLimiter`: `check_packet` and `check_packets` on one packet
    leave the same state, but test the budget at different edges: with
    `cur_packets = max_packets` only `check_packet` passes
    (`checkPacket_checkPackets_edges`), so a slice admits `max_packets + 1`
    packets through it (`checkPacket_admits_past_maxPackets`).
-/
import Mathlib
import G3Proxy.Core.Aligned
import G3Proxy.Io.StreamLimit

namespace G3Proxy

/-! ## The count limiter -/

/-- `InnerCountLimitInfo`: `cur_count` is what is left of `max_count` in the
    current slice. -/
structure InnerCountLimitInfo where
  window : FixedWindow
  maxCount : Nat
  timeSliceId : UInt64
  curCount : Nat
  deriving Repr, DecidableEq

namespace InnerCountLimitInfo

/-- `InnerCountLimitInfo::new`. -/
def new (shiftMillis : UInt8) (maxCount : Nat) (random : UInt64) : InnerCountLimitInfo :=
  ⟨.new shiftMillis none random, maxCount, 0, maxCount⟩

/-- `reset`. -/
def reset (i : InnerCountLimitInfo) (shiftMillis : UInt8) (maxCount : Nat) (curMillis : UInt64) :
    InnerCountLimitInfo :=
  let window := FixedWindow.new shiftMillis (some curMillis) 0
  { i with window, maxCount, timeSliceId := window.sliceId curMillis, curCount := 0 }

/-- `check`: a new slice refills the count; `Err` the delay when it is
    used up. -/
def check (i : InnerCountLimitInfo) (curMillis : UInt64) : Except UInt64 Unit × InnerCountLimitInfo :=
  let id := i.window.sliceId curMillis
  let i := if i.timeSliceId ≠ id then { i with curCount := i.maxCount, timeSliceId := id } else i
  if i.curCount > 0 then (.ok (), { i with curCount := i.curCount - 1 })
  else (.error (i.window.delay curMillis), i)

end InnerCountLimitInfo

/-- `ThreadedCountLimiter`: the state behind its mutex. -/
structure ThreadedCountLimiter where
  inner : InnerCountLimitInfo
  deriving Repr, DecidableEq

namespace ThreadedCountLimiter

/-- `ThreadedCountLimiter::new`. -/
def new (shiftMillis : UInt8) (maxCount : Nat) (random : UInt64) : ThreadedCountLimiter :=
  ⟨.new shiftMillis maxCount random⟩

/-- `new_updated`: a clone of the state, reset at `curMillis`. -/
def newUpdated (c : ThreadedCountLimiter) (shiftMillis : UInt8) (maxCount : Nat) (curMillis : UInt64) :
    ThreadedCountLimiter :=
  ⟨c.inner.reset shiftMillis maxCount curMillis⟩

/-- `check`. -/
def check (c : ThreadedCountLimiter) (curMillis : UInt64) : Except UInt64 Unit × ThreadedCountLimiter :=
  let (r, i) := c.inner.check curMillis
  (r, ⟨i⟩)

/-- Checks at the given times one after another: the answers and the
    limiter at the end. -/
def runChecks (c : ThreadedCountLimiter) (ts : List UInt64) : List (Except UInt64 Unit) × ThreadedCountLimiter :=
  ts.foldl (fun (rs, c) t => (rs ++ [(c.check t).1], (c.check t).2)) ([], c)

/-- The test `overflow`: two checks pass, two wait, and the next slice
    passes again. -/
example : ((new 10 2 0).runChecks [1, 2, 3, 4, 1025]).1 = [.ok (), .ok (), .error 1021, .error 1020, .ok ()] := by
  decide

end ThreadedCountLimiter

/-! ## Aligned windows -/

namespace FixedWindow

/-- The shift `new` uses. -/
def shiftOf (s : UInt8) : Nat := if s > rateLimitShiftMillisMax then 12 else s.toNat

/-- A window of slices of `2 ^ k` milliseconds: its masks cut a time into
    the start of its slice and the time within it. -/
structure Aligned (w : FixedWindow) (k : Nat) : Prop where
  shift_le : k ≤ 12
  maxDelay : w.maxDelayMillis.toNat = 2 ^ k
  valueMask : ∀ t : UInt64, (w.timeValueMask &&& t).toNat = t.toNat % 2 ^ k
  sliceMask : ∀ t : UInt64, (w.timeSliceMask &&& t).toNat = t.toNat - t.toNat % 2 ^ k

theorem shiftOf_le (s : UInt8) : shiftOf s ≤ 12 := by
  unfold shiftOf rateLimitShiftMillisMax
  split
  · exact Nat.le_refl _
  · rename_i h
    exact UInt8.le_iff_toNat_le.1 (UInt8.not_lt.1 h)

theorem shiftOf_of_le {s : UInt8} (hs : s ≤ rateLimitShiftMillisMax) : shiftOf s = s.toNat := by
  simp [shiftOf, UInt8.not_lt.2 hs]

theorem aligned_new (s : UInt8) (cur : Option UInt64) (random : UInt64) : (new s cur random).Aligned (shiftOf s) := by
  have hk := shiftOf_le s
  have hpow : 2 ^ shiftOf s < 2 ^ 64 := Nat.pow_lt_pow_right (by omega) (by omega)
  -- the clamped shift, as the code computes it
  have hshift : (if s > rateLimitShiftMillisMax then rateLimitShiftMillisMax else s).toNat = shiftOf s := by
    unfold shiftOf
    split <;> rfl
  have hmax : ((1 : UInt64) <<< (if s > rateLimitShiftMillisMax then rateLimitShiftMillisMax else s).toUInt64).toNat =
      2 ^ shiftOf s := by
    rw [UInt64.toNat_shiftLeft, UInt8.toNat_toUInt64, hshift, Nat.mod_eq_of_lt (by omega : shiftOf s < 64),
      UInt64.toNat_one, Nat.one_shiftLeft, Nat.mod_eq_of_lt hpow]
  have hvalue : ((1 : UInt64) <<< (if s > rateLimitShiftMillisMax then rateLimitShiftMillisMax else s).toUInt64 - 1).toNat =
      2 ^ shiftOf s - 1 := by
    rw [UInt64.toNat_sub_of_le _ _ (UInt64.le_iff_toNat_le.2 (by rw [hmax]; exact Nat.one_le_two_pow)), hmax,
      UInt64.toNat_one]
  refine ⟨hk, hmax, fun t => ?_, fun t => ?_⟩
  · simp only [new, UInt64.toNat_and, hvalue, Nat.and_comm, Nat.and_two_pow_sub_one_eq_mod]
  · simp only [new, UInt64.toNat_and, UInt64.toNat_xor, hvalue, UInt64.toNat_ofNat']
    exact Nat.and_xor_two_pow_sub_one (by omega) (UInt64.toNat_lt t)

variable {w : FixedWindow} {k : Nat}

theorem Aligned.delay_toNat (h : w.Aligned k) (t : UInt64) : (w.delay t).toNat = 2 ^ k - t.toNat % 2 ^ k := by
  have hle : t.toNat % 2 ^ k ≤ 2 ^ k := Nat.le_of_lt (Nat.mod_lt _ (Nat.two_pow_pos k))
  rw [delay, UInt64.toNat_sub_of_le _ _ (UInt64.le_iff_toNat_le.2 (by rw [h.valueMask, h.maxDelay]; exact hle)),
    h.maxDelay, h.valueMask]

/-- Slice ids are equal exactly for times in the same slice, whatever the
    offset. -/
theorem Aligned.sliceId_eq_iff (h : w.Aligned k) (t u : UInt64) :
    w.sliceId t = w.sliceId u ↔ t.toNat / 2 ^ k = u.toNat / 2 ^ k := by
  rw [sliceId, sliceId, UInt64.add_left_inj, ← UInt64.toNat_inj, h.sliceMask, h.sliceMask]
  exact Nat.sub_mod_eq_sub_mod_iff (Nat.two_pow_pos k)

/-- `delay(t)` is between `1` and `2 ^ k`, the times from `t` to
    `t + delay(t)` are in `t`'s slice, and `t + delay(t)` is not (also where
    it wraps round to `0`). -/
theorem Aligned.delay_ends_slice (h : w.Aligned k) (t : UInt64) :
    1 ≤ (w.delay t).toNat ∧ (w.delay t).toNat ≤ 2 ^ k ∧
      (∀ u : UInt64, t ≤ u → u.toNat < t.toNat + (w.delay t).toNat → w.sliceId u = w.sliceId t) ∧
      w.sliceId (t + w.delay t) ≠ w.sliceId t := by
  have hp := Nat.two_pow_pos k
  have hmod := Nat.mod_lt t.toNat hp
  have hd := h.delay_toNat t
  -- the next slice starts at `t - t % 2^k + 2^k`, at most `2^64`
  have hnext : t.toNat + (w.delay t).toNat = t.toNat - t.toNat % 2 ^ k + 2 ^ k := by
    rw [hd]
    have := Nat.mod_le t.toNat (2 ^ k)
    omega
  have hdvd : 2 ^ k ∣ 2 ^ 64 := Nat.pow_dvd_pow 2 (by have := h.shift_le; omega)
  have hstart : t.toNat - t.toNat % 2 ^ k + 2 ^ k ≤ 2 ^ 64 := by
    rw [Nat.sub_mod_eq_mul_div]
    obtain ⟨c, hc⟩ := hdvd
    have hlt : 2 ^ k * (t.toNat / 2 ^ k) < 2 ^ k * c := by
      rw [← hc, ← Nat.sub_mod_eq_mul_div]
      have := UInt64.toNat_lt t
      omega
    have := Nat.lt_of_mul_lt_mul_left hlt
    calc 2 ^ k * (t.toNat / 2 ^ k) + 2 ^ k = 2 ^ k * (t.toNat / 2 ^ k + 1) := by rw [Nat.mul_add, Nat.mul_one]
      _ ≤ 2 ^ k * c := Nat.mul_le_mul_left _ this
      _ = 2 ^ 64 := hc.symm
  refine ⟨by omega, by omega, fun u htu hu => ?_, fun heq => ?_⟩
  · rw [h.sliceId_eq_iff]
    exact Nat.div_eq_of_lt_next hp (UInt64.le_iff_toNat_le.1 htu) (by omega)
  · rw [h.sliceId_eq_iff, UInt64.toNat_add] at heq
    rcases Nat.lt_or_ge (t.toNat + (w.delay t).toNat) (2 ^ 64) with hlt | hge
    · -- the next slice
      rw [Nat.mod_eq_of_lt hlt, hnext, Nat.div_next hp] at heq
      omega
    · -- the last slice, where the sum wraps round to `0`
      have hwrap : t.toNat + (w.delay t).toNat = 2 ^ 64 := by omega
      rw [hwrap, Nat.mod_self, Nat.zero_div] at heq
      have h12 : 2 ^ k ≤ 4096 := Nat.pow_le_pow_right (by omega) h.shift_le
      have hge' : 2 ^ k ≤ t.toNat := by omega
      have := Nat.div_pos hge' hp
      omega

end FixedWindow

/-- In a run of non-decreasing times, a time whose slice id differs from
    that of the last time is in a slice none of the earlier times is in. -/
theorem FixedWindow.Aligned.slice_fresh {w : FixedWindow} {k : Nat} (h : w.Aligned k) {ts : List UInt64}
    {t₀ t : UInt64} (hsorted : (ts ++ [t]).Pairwise (· ≤ ·)) (hlast : ts.getLast? = some t₀)
    (hne : w.sliceId t₀ ≠ w.sliceId t) : ∀ x ∈ ts, x.toNat / 2 ^ k ≠ t.toNat / 2 ^ k := by
  obtain ⟨init, rfl⟩ := List.getLast?_eq_some_iff.1 hlast
  have hall := (List.pairwise_append.1 hsorted).2.2
  have hinit := (List.pairwise_append.1 (List.pairwise_append.1 hsorted).1).2.2
  have ht₀ : t₀ ≤ t := hall t₀ (by simp) t (by simp)
  intro x hx heq
  have hx₀ : x.toNat / 2 ^ k ≤ t₀.toNat / 2 ^ k := by
    rcases List.mem_append.1 hx with hx | hx
    · exact Nat.div_le_div_right (UInt64.le_iff_toNat_le.1 (hinit x hx t₀ (by simp)))
    · obtain rfl := List.mem_singleton.1 hx
      exact Nat.le_refl _
  have h₀ : t₀.toNat / 2 ^ k ≤ t.toNat / 2 ^ k := Nat.div_le_div_right (UInt64.le_iff_toNat_le.1 ht₀)
  exact hne ((h.sliceId_eq_iff t₀ t).2 (by omega))

/-! ## The stream limiter over a run -/

namespace LocalStreamLimiter

/-- The start of `check`: a new slice clears the count. -/
def enterSlice (l : LocalStreamLimiter) (curMillis : UInt64) : LocalStreamLimiter :=
  if l.timeSliceId ≠ l.window.sliceId curMillis then
    { l with curBytes := 0, timeSliceId := l.window.sliceId curMillis }
  else l

section EnterSlice

variable (l : LocalStreamLimiter) (t : UInt64)

@[simp] theorem enterSlice_window : (l.enterSlice t).window = l.window := by
  unfold enterSlice; split <;> rfl

@[simp] theorem enterSlice_maxBytes : (l.enterSlice t).maxBytes = l.maxBytes := by
  unfold enterSlice; split <;> rfl

@[simp] theorem enterSlice_timeSliceId : (l.enterSlice t).timeSliceId = l.window.sliceId t := by
  unfold enterSlice; split
  · rfl
  · rename_i h; exact not_not.1 h

theorem enterSlice_curBytes_of_ne (h : l.timeSliceId ≠ l.window.sliceId t) : (l.enterSlice t).curBytes = 0 := by
  simp [enterSlice, h]

theorem enterSlice_curBytes_le : (l.enterSlice t).curBytes ≤ l.curBytes := by
  unfold enterSlice; split
  · exact Nat.zero_le _
  · exact Nat.le_refl _

theorem enterSlice_of_eq (h : l.timeSliceId = l.window.sliceId t) : l.enterSlice t = l := by
  simp [enterSlice, h]

@[simp] theorem setAdvance_window (m : Nat) : (l.setAdvance m).window = l.window := rfl

@[simp] theorem setAdvance_maxBytes (m : Nat) : (l.setAdvance m).maxBytes = l.maxBytes := rfl

@[simp] theorem setAdvance_timeSliceId (m : Nat) : (l.setAdvance m).timeSliceId = l.timeSliceId := rfl

@[simp] theorem setAdvance_curBytes (m : Nat) : (l.setAdvance m).curBytes = l.curBytes + m := rfl

end EnterSlice

theorem check_eq (l : LocalStreamLimiter) (t : UInt64) (a : Nat) :
    l.check t a =
      if (l.enterSlice t).maxBytes - (l.enterSlice t).curBytes = 0 then
        (.delayFor ((l.enterSlice t).window.delay t), l.enterSlice t)
      else (.advanceBy (min a ((l.enterSlice t).maxBytes - (l.enterSlice t).curBytes)), l.enterSlice t) := rfl

/-- One use of the limiter by its caller: `check(cur_millis, to_advance)`,
    then, on `AdvanceBy(a)`, `set_advance` of what moved, never more than
    `a`. -/
structure StreamUse where
  curMillis : UInt64
  toAdvance : Nat
  moved : Nat → Nat
  moved_le : ∀ a, moved a ≤ a

/-- A use: the limiter after it, and what `set_advance` was given (nothing
    after a delay). -/
def StreamUse.apply (u : StreamUse) (l : LocalStreamLimiter) : LocalStreamLimiter × Nat :=
  match l.check u.curMillis u.toAdvance with
  | (.advanceBy a, l') => (l'.setAdvance (u.moved a), u.moved a)
  | (_, l') => (l', 0)

/-- Uses one after another: the limiter at the end and what each use
    advanced. -/
def runUses (l : LocalStreamLimiter) (us : List StreamUse) : LocalStreamLimiter × List Nat :=
  us.foldl (fun (l, ms) u => ((u.apply l).1, ms ++ [(u.apply l).2])) (l, [])

/-- What the uses in slice `i` (of `2 ^ k` milliseconds) advanced. -/
def windowSum (k i : Nat) (us : List StreamUse) (ms : List Nat) : Nat :=
  (((us.zip ms).filter fun p => p.1.curMillis.toNat / 2 ^ k = i).map (·.2)).sum

/-- A use advances at most what is left of `max_bytes` once its slice is
    entered, and adds it to the count. -/
theorem StreamUse.apply_spec (u : StreamUse) (l : LocalStreamLimiter) :
    (u.apply l).2 ≤ l.maxBytes - (l.enterSlice u.curMillis).curBytes ∧
      (u.apply l).1 = (l.enterSlice u.curMillis).setAdvance (u.apply l).2 := by
  by_cases h : (l.enterSlice u.curMillis).maxBytes - (l.enterSlice u.curMillis).curBytes = 0
  · simp only [StreamUse.apply, check_eq, if_pos h]
    exact ⟨Nat.zero_le _, rfl⟩
  · simp only [StreamUse.apply, check_eq, if_neg h, and_true]
    refine Nat.le_trans (u.moved_le _) ?_
    rw [← enterSlice_maxBytes l u.curMillis]
    exact Nat.min_le_right _ _

theorem runUses_append_singleton (l : LocalStreamLimiter) (us : List StreamUse) (u : StreamUse) :
    l.runUses (us ++ [u]) =
      ((u.apply (l.runUses us).1).1, (l.runUses us).2 ++ [(u.apply (l.runUses us).1).2]) := by
  simp [runUses, List.foldl_append]

theorem windowSum_append_singleton {k i : Nat} {us : List StreamUse} {ms : List Nat} (hlen : ms.length = us.length)
    (u : StreamUse) (m : Nat) :
    windowSum k i (us ++ [u]) (ms ++ [m]) = windowSum k i us ms + if u.curMillis.toNat / 2 ^ k = i then m else 0 := by
  simp only [windowSum, List.zip_append hlen.symm, List.zip_cons_cons, List.zip_nil_left, List.filter_append,
    List.map_append, List.sum_append]
  split <;> simp [*]

theorem windowSum_eq_zero {k i : Nat} {us : List StreamUse} (ms : List Nat)
    (h : ∀ u ∈ us, u.curMillis.toNat / 2 ^ k ≠ i) : windowSum k i us ms = 0 := by
  have hnil : ((us.zip ms).filter fun p => p.1.curMillis.toNat / 2 ^ k = i) = [] :=
    List.filter_eq_nil_iff.2 fun p hp => by
      simpa using h p.1 (List.of_mem_zip hp).1
  simp [windowSum, hnil]

/-- What holds of a limiter after the uses `us`, which advanced `ms`: the
    count never passes `max_bytes`, no slice advanced more, and the count is
    what the slice of the last use advanced. -/
structure Budget (maxBytes k : Nat) (us : List StreamUse) (ms : List Nat) (l : LocalStreamLimiter) : Prop where
  length_eq : ms.length = us.length
  maxBytes_eq : l.maxBytes = maxBytes
  aligned : l.window.Aligned k
  cur_le : l.curBytes ≤ maxBytes
  sums_le : ∀ i, windowSum k i us ms ≤ maxBytes
  start : us = [] → l.curBytes = 0
  last : ∀ u, us.getLast? = some u →
    l.timeSliceId = l.window.sliceId u.curMillis ∧ l.curBytes = windowSum k (u.curMillis.toNat / 2 ^ k) us ms

variable {maxBytes k : Nat} {us : List StreamUse} {ms : List Nat} {l : LocalStreamLimiter}

/-- Once a use enters its slice, the count is what the earlier uses of that
    slice advanced. -/
theorem Budget.enterSlice_curBytes (h : Budget maxBytes k us ms l) (u : StreamUse)
    (hsorted : ((us ++ [u]).map (·.curMillis)).Pairwise (· ≤ ·)) :
    (l.enterSlice u.curMillis).curBytes = windowSum k (u.curMillis.toNat / 2 ^ k) us ms := by
  rcases hlast : us.getLast? with _ | u₀
  · -- no use yet: the count is still clear
    have hnil : us = [] := List.getLast?_eq_none_iff.1 hlast
    subst hnil
    unfold enterSlice
    split
    · rfl
    · exact h.start rfl
  · obtain ⟨hid, hcur⟩ := h.last u₀ hlast
    by_cases heq : l.timeSliceId = l.window.sliceId u.curMillis
    · -- the same slice as the last use
      rw [enterSlice_of_eq _ _ heq, hcur]
      rw [hid, h.aligned.sliceId_eq_iff] at heq
      rw [heq]
    · -- a new slice, which none of the uses so far is in
      rw [enterSlice_curBytes_of_ne _ _ heq]
      rw [hid] at heq
      have hsorted' : (us.map (·.curMillis) ++ [u.curMillis]).Pairwise (· ≤ ·) := by simpa using hsorted
      have hfresh := h.aligned.slice_fresh hsorted' (by rw [List.getLast?_map, hlast]; rfl) heq
      refine (windowSum_eq_zero ms fun x hx => hfresh x.curMillis (List.mem_map_of_mem hx)).symm

/-- The step: a use keeps the budget. -/
theorem Budget.append_singleton (h : Budget maxBytes k us ms l) (u : StreamUse)
    (hsorted : ((us ++ [u]).map (·.curMillis)).Pairwise (· ≤ ·)) :
    Budget maxBytes k (us ++ [u]) (ms ++ [(u.apply l).2]) (u.apply l).1 := by
  obtain ⟨hm, happly⟩ := u.apply_spec l
  have hbefore := h.enterSlice_curBytes u hsorted
  have hsum := windowSum_append_singleton (k := k) (i := u.curMillis.toNat / 2 ^ k) h.length_eq u (u.apply l).2
  rw [if_pos rfl, ← hbefore] at hsum
  have hcur : (u.apply l).1.curBytes = (l.enterSlice u.curMillis).curBytes + (u.apply l).2 := by
    rw [happly, setAdvance_curBytes]
  have hle : (u.apply l).1.curBytes ≤ maxBytes := by
    have := enterSlice_curBytes_le l u.curMillis
    have := h.cur_le
    have := h.maxBytes_eq
    rw [hcur]
    omega
  refine ⟨by simp [h.length_eq], by simpa [happly] using h.maxBytes_eq, by simpa [happly] using h.aligned, hle,
    fun i => ?_, fun hnil => absurd hnil (by simp), fun u' hu' => ?_⟩
  · rw [windowSum_append_singleton h.length_eq]
    split
    · rename_i hi
      rw [← hi, ← hbefore, ← hcur]
      exact hle
    · rw [Nat.add_zero]
      exact h.sums_le i
  · have hu : u = u' := by simpa using hu'
    subst hu
    refine ⟨by simp [happly], ?_⟩
    rw [hsum, hcur]

/-- The budget holds after every run of non-decreasing times. -/
theorem budget_runUses (h₀ : Budget maxBytes k [] [] l) (us : List StreamUse)
    (hsorted : (us.map (·.curMillis)).Pairwise (· ≤ ·)) :
    Budget maxBytes k us (l.runUses us).2 (l.runUses us).1 := by
  induction us using List.reverseRecOn with
  | nil => exact h₀
  | append_singleton us u ih =>
    rw [runUses_append_singleton]
    have hpre : (us.map (·.curMillis)).Pairwise (· ≤ ·) := by
      rw [List.map_append] at hsorted
      exact (List.pairwise_append.1 hsorted).1
    exact (ih hpre).append_singleton u hsorted

theorem budget_start {s : UInt8} (hs : s ≤ rateLimitShiftMillisMax) {maxBytes : Nat} {l : LocalStreamLimiter}
    (hl : (∃ random, l = .new s maxBytes random) ∨ ∃ cur, l = .reset s maxBytes cur) :
    Budget maxBytes s.toNat [] [] l := by
  have hw : ∀ cur random, (FixedWindow.new s cur random).Aligned s.toNat := fun cur random => by
    have := FixedWindow.aligned_new s cur random
    rwa [FixedWindow.shiftOf_of_le hs] at this
  have hzero : ∀ i, windowSum s.toNat i [] [] = 0 := fun i => rfl
  rcases hl with ⟨random, rfl⟩ | ⟨cur, rfl⟩
  · exact ⟨rfl, rfl, hw none random, Nat.zero_le _, fun i => by rw [hzero]; exact Nat.zero_le _, fun _ => rfl,
      fun _ h => by simp at h⟩
  · exact ⟨rfl, rfl, hw (some cur) 0, Nat.zero_le _, fun i => by rw [hzero]; exact Nat.zero_le _, fun _ => rfl,
      fun _ h => by simp at h⟩

/-- A stream limiter built by `new` or `reset`, whose caller passes
    `set_advance` at most what each `AdvanceBy` granted, over any uses with
    non-decreasing times: after every use the count is at most `max_bytes`
    (the subtraction in `check` never underflows), and in every aligned slice
    `[i * 2^s, (i + 1) * 2^s)` what was advanced adds up to at most
    `max_bytes`. -/
theorem runUses_within_budget {s : UInt8} (hs : s ≤ rateLimitShiftMillisMax) {maxBytes : Nat}
    {l : LocalStreamLimiter} (hl : (∃ random, l = .new s maxBytes random) ∨ ∃ cur, l = .reset s maxBytes cur)
    (us : List StreamUse) (hsorted : (us.map (·.curMillis)).Pairwise (· ≤ ·)) :
    (∀ j, (l.runUses (us.take j)).1.curBytes ≤ maxBytes) ∧
      ∀ i, windowSum s.toNat i us (l.runUses us).2 ≤ maxBytes := by
  have h₀ := budget_start hs hl
  refine ⟨fun j => ?_, (budget_runUses h₀ us hsorted).sums_le⟩
  have htake : ((us.take j).map (·.curMillis)).Pairwise (· ≤ ·) := by
    rw [List.map_take]
    exact hsorted.sublist (List.take_sublist _ _)
  exact (budget_runUses h₀ (us.take j) htake).cur_le

/-- Two uses of eight bytes in one slice of eight milliseconds, the second
    moving half of what it is granted, under a budget of ten bytes. -/
theorem runUses_within_budget_two :
    (∀ j, ((new 3 10 0).runUses
        ([⟨5, 8, id, fun _ => le_rfl⟩, ⟨6, 8, fun a => a / 2, fun a => Nat.div_le_self a 2⟩].take j)).1.curBytes ≤
        10) ∧
      ∀ i, windowSum (3 : UInt8).toNat i
        [⟨5, 8, id, fun _ => le_rfl⟩, ⟨6, 8, fun a => a / 2, fun a => Nat.div_le_self a 2⟩]
        ((new 3 10 0).runUses
          [⟨5, 8, id, fun _ => le_rfl⟩, ⟨6, 8, fun a => a / 2, fun a => Nat.div_le_self a 2⟩]).2 ≤ 10 :=
  runUses_within_budget (by decide) (.inl ⟨0, rfl⟩) _ (by decide)

end LocalStreamLimiter

/-! ## The count limiter over a run -/

namespace InnerCountLimitInfo

/-- The start of `check`: a new slice refills the count. -/
def enterSlice (i : InnerCountLimitInfo) (curMillis : UInt64) : InnerCountLimitInfo :=
  if i.timeSliceId ≠ i.window.sliceId curMillis then
    { i with curCount := i.maxCount, timeSliceId := i.window.sliceId curMillis }
  else i

variable (i : InnerCountLimitInfo) (t : UInt64)

theorem enterSlice_curCount_of_ne (h : i.timeSliceId ≠ i.window.sliceId t) :
    (i.enterSlice t).curCount = i.maxCount := by
  simp [enterSlice, h]

theorem enterSlice_of_eq (h : i.timeSliceId = i.window.sliceId t) : i.enterSlice t = i := by
  simp [enterSlice, h]

/-- A check passes exactly when the count left in its slice is not zero,
    and takes one from it. -/
theorem check_spec :
    (i.check t).1.isOk = decide (0 < (i.enterSlice t).curCount) ∧
      (i.check t).2.curCount = (i.enterSlice t).curCount - 1 ∧
      (i.check t).2.timeSliceId = i.window.sliceId t ∧ (i.check t).2.window = i.window ∧
      (i.check t).2.maxCount = i.maxCount := by
  unfold check enterSlice
  by_cases hid : i.timeSliceId ≠ i.window.sliceId t
  · by_cases hc : 0 < i.maxCount
    · simp [hid, hc, Except.isOk, Except.toBool]
    · simp [hid, Except.isOk, Except.toBool, Nat.eq_zero_of_not_pos hc]
  · have hid' : i.timeSliceId = i.window.sliceId t := not_not.1 hid
    by_cases hc : 0 < i.curCount
    · simp [hid', hc, Except.isOk, Except.toBool]
    · simp [hid', Except.isOk, Except.toBool, Nat.eq_zero_of_not_pos hc]

end InnerCountLimitInfo

namespace ThreadedCountLimiter

/-- How many of the checks at times `ts`, answered `rs`, passed in slice
    `i` (of `2 ^ k` milliseconds). -/
def passedIn (k i : Nat) (ts : List UInt64) (rs : List (Except UInt64 Unit)) : Nat :=
  ((ts.zip rs).filter fun p => p.1.toNat / 2 ^ k = i ∧ p.2.isOk = true).length

/-- How many of the times `ts` fall in slice `i`. -/
def checksIn (k i : Nat) (ts : List UInt64) : Nat := (ts.filter fun t => t.toNat / 2 ^ k = i).length

theorem runChecks_append_singleton (c : ThreadedCountLimiter) (ts : List UInt64) (t : UInt64) :
    c.runChecks (ts ++ [t]) = ((c.runChecks ts).1 ++ [((c.runChecks ts).2.check t).1], ((c.runChecks ts).2.check t).2) := by
  simp [runChecks, List.foldl_append]

theorem checksIn_append_singleton (k i : Nat) (ts : List UInt64) (t : UInt64) :
    checksIn k i (ts ++ [t]) = checksIn k i ts + if t.toNat / 2 ^ k = i then 1 else 0 := by
  unfold checksIn
  split <;> simp [*]

theorem passedIn_append_singleton {k i : Nat} {ts : List UInt64} {rs : List (Except UInt64 Unit)}
    (hlen : rs.length = ts.length) (t : UInt64) (r : Except UInt64 Unit) :
    passedIn k i (ts ++ [t]) (rs ++ [r]) = passedIn k i ts rs + if t.toNat / 2 ^ k = i ∧ r.isOk = true then 1 else 0 := by
  unfold passedIn
  rw [List.zip_append hlen.symm]
  split <;> simp [*]

theorem checksIn_eq_zero {k i : Nat} {ts : List UInt64} (h : ∀ t ∈ ts, t.toNat / 2 ^ k ≠ i) : checksIn k i ts = 0 := by
  simp only [checksIn, List.length_eq_zero_iff, List.filter_eq_nil_iff, decide_eq_true_eq]
  exact h

/-- What holds of a count limiter after checks at times `ts`, answered
    `rs`: in every slice as many passed as the budget allows, and the count
    left is what the slice of the last check has not used. -/
structure Counting (maxCount k : Nat) (ts : List UInt64) (rs : List (Except UInt64 Unit)) (c : ThreadedCountLimiter) :
    Prop where
  length_eq : rs.length = ts.length
  maxCount_eq : c.inner.maxCount = maxCount
  aligned : c.inner.window.Aligned k
  passed : ∀ i, passedIn k i ts rs = min maxCount (checksIn k i ts)
  start : ts = [] → c.inner.curCount = maxCount
  last : ∀ t₀, ts.getLast? = some t₀ →
    c.inner.timeSliceId = c.inner.window.sliceId t₀ ∧ c.inner.curCount = maxCount - checksIn k (t₀.toNat / 2 ^ k) ts

variable {maxCount k : Nat} {ts : List UInt64} {rs : List (Except UInt64 Unit)} {c : ThreadedCountLimiter}

/-- Once a check enters its slice, the count left is what the earlier
    checks of that slice have not used. -/
theorem Counting.enterSlice_curCount (h : Counting maxCount k ts rs c) (t : UInt64)
    (hsorted : (ts ++ [t]).Pairwise (· ≤ ·)) :
    (c.inner.enterSlice t).curCount = maxCount - checksIn k (t.toNat / 2 ^ k) ts := by
  rcases hlast : ts.getLast? with _ | t₀
  · have hnil : ts = [] := List.getLast?_eq_none_iff.1 hlast
    subst hnil
    unfold InnerCountLimitInfo.enterSlice
    split
    · exact h.maxCount_eq
    · exact h.start rfl
  · obtain ⟨hid, hcur⟩ := h.last t₀ hlast
    by_cases heq : c.inner.timeSliceId = c.inner.window.sliceId t
    · -- the same slice as the last check
      rw [InnerCountLimitInfo.enterSlice_of_eq _ _ heq, hcur]
      rw [hid, h.aligned.sliceId_eq_iff] at heq
      rw [heq]
    · -- a new slice, which none of the checks so far is in
      rw [InnerCountLimitInfo.enterSlice_curCount_of_ne _ _ heq, h.maxCount_eq]
      rw [hid] at heq
      rw [checksIn_eq_zero (h.aligned.slice_fresh hsorted hlast heq), Nat.sub_zero]

/-- The step: a check keeps the count. -/
theorem Counting.append_singleton (h : Counting maxCount k ts rs c) (t : UInt64)
    (hsorted : (ts ++ [t]).Pairwise (· ≤ ·)) :
    Counting maxCount k (ts ++ [t]) (rs ++ [(c.check t).1]) (c.check t).2 := by
  obtain ⟨hok, hcount, hid, hwin, hmax⟩ := c.inner.check_spec t
  have hbefore := h.enterSlice_curCount t hsorted
  have hok' : ((c.check t).1.isOk = true) = (checksIn k (t.toNat / 2 ^ k) ts < maxCount) := by
    simp only [check, hok, hbefore, decide_eq_true_eq]
    exact propext ⟨fun h => by omega, fun h => by omega⟩
  have hcount' : (c.check t).2.inner.curCount = maxCount - checksIn k (t.toNat / 2 ^ k) (ts ++ [t]) := by
    simp only [check, hcount, hbefore, checksIn_append_singleton, if_true]
    omega
  refine ⟨by simp [h.length_eq], by simpa [check] using hmax.trans h.maxCount_eq,
    by simpa [check, hwin] using h.aligned, fun i => ?_, fun hnil => absurd hnil (by simp), fun t₀ ht₀ => ?_⟩
  · rw [passedIn_append_singleton h.length_eq, checksIn_append_singleton, h.passed i]
    by_cases hi : t.toNat / 2 ^ k = i
    · subst hi
      by_cases hlt : checksIn k (t.toNat / 2 ^ k) ts < maxCount
      · simp only [hok', hlt, and_self, if_true]
        omega
      · simp only [hok', hlt, and_false, if_false, Nat.add_zero]
        omega
    · simp [hi]
  · have ht : t = t₀ := by simpa using ht₀
    subst ht
    exact ⟨by simpa [check, hwin] using hid, hcount'⟩

/-- A count limiter built by `new`, checked at non-decreasing times: in
    every aligned slice `[i * 2^s, (i + 1) * 2^s)` exactly
    `min(max_count, m)` of the `m` checks pass. -/
theorem runChecks_new_passes {s : UInt8} (hs : s ≤ rateLimitShiftMillisMax) (maxCount : Nat) (random : UInt64)
    (ts : List UInt64) (hsorted : ts.Pairwise (· ≤ ·)) (i : Nat) :
    passedIn s.toNat i ts ((new s maxCount random).runChecks ts).1 = min maxCount (checksIn s.toNat i ts) := by
  have haligned : (FixedWindow.new s none random).Aligned s.toNat := by
    have := FixedWindow.aligned_new s none random
    rwa [FixedWindow.shiftOf_of_le hs] at this
  have h₀ : Counting maxCount s.toNat [] [] (new s maxCount random) :=
    ⟨rfl, rfl, haligned, fun _ => by simp [passedIn, checksIn], fun _ => rfl, fun _ h => by simp at h⟩
  suffices ∀ ts : List UInt64, ts.Pairwise (· ≤ ·) →
      Counting maxCount s.toNat ts ((new s maxCount random).runChecks ts).1 ((new s maxCount random).runChecks ts).2 from
    (this ts hsorted).passed i
  intro ts
  induction ts using List.reverseRecOn with
  | nil => intro _; exact h₀
  | append_singleton ts t ih =>
    intro hsorted
    rw [runChecks_append_singleton]
    exact (ih (List.pairwise_append.1 hsorted).1).append_singleton t hsorted

/-- Three checks in the first slice of eight milliseconds, with a budget of
    two. -/
theorem runChecks_new_passes_three :
    passedIn (3 : UInt8).toNat 0 [1, 2, 3] ((new 3 2 0).runChecks [1, 2, 3]).1 =
      min 2 (checksIn (3 : UInt8).toNat 0 [1, 2, 3]) :=
  runChecks_new_passes (by decide) 2 0 [1, 2, 3] (by decide) 0

/-- With its count used up, a check in the limiter's own slice is refused
    and changes nothing. -/
theorem check_of_used_up (c : ThreadedCountLimiter) (t : UInt64)
    (hid : c.inner.timeSliceId = c.inner.window.sliceId t) (h0 : c.inner.curCount = 0) :
    c.check t = (.error (c.inner.window.delay t), c) := by
  simp [check, InnerCountLimitInfo.check, hid, h0]

/-- A count limiter built by `new_updated` at `t₀` refuses every check in
    the slice of `t₀`: `reset` leaves the count empty, and the slice id it
    sets keeps the first check of that slice from refilling it. -/
theorem newUpdated_refuses_first_slice (c : ThreadedCountLimiter) {s : UInt8} (hs : s ≤ rateLimitShiftMillisMax)
    (maxCount : Nat) (t₀ : UInt64) (ts : List UInt64)
    (hts : ∀ t ∈ ts, t.toNat / 2 ^ s.toNat = t₀.toNat / 2 ^ s.toNat) :
    ∀ r ∈ ((c.newUpdated s maxCount t₀).runChecks ts).1, r.isOk = false := by
  have haligned : (FixedWindow.new s (some t₀) 0).Aligned s.toNat := by
    have := FixedWindow.aligned_new s (some t₀) 0
    rwa [FixedWindow.shiftOf_of_le hs] at this
  -- every check leaves the limiter as `new_updated` made it
  suffices ∀ ts : List UInt64, (∀ t ∈ ts, t.toNat / 2 ^ s.toNat = t₀.toNat / 2 ^ s.toNat) →
      ((c.newUpdated s maxCount t₀).runChecks ts).2 = c.newUpdated s maxCount t₀ ∧
        ∀ r ∈ ((c.newUpdated s maxCount t₀).runChecks ts).1, r.isOk = false from (this ts hts).2
  intro ts
  induction ts using List.reverseRecOn with
  | nil => intro _; exact ⟨rfl, by simp [runChecks]⟩
  | append_singleton ts t ih =>
    intro hts
    obtain ⟨hstate, hrs⟩ := ih fun t' ht' => hts t' (List.mem_append_left _ ht')
    have hslice : (c.newUpdated s maxCount t₀).inner.timeSliceId =
        (c.newUpdated s maxCount t₀).inner.window.sliceId t :=
      (haligned.sliceId_eq_iff t₀ t).2 (hts t (by simp)).symm
    have hstep := check_of_used_up _ t hslice rfl
    rw [runChecks_append_singleton, hstate, hstep]
    refine ⟨rfl, fun r hr => ?_⟩
    rcases List.mem_append.1 hr with hr | hr
    · exact hrs r hr
    · rw [List.mem_singleton.1 hr]
      rfl

theorem newUpdated_refuses_first_slice_overflow :
    (10 : UInt8) ≤ rateLimitShiftMillisMax ∧
      (∀ t ∈ [(1 : UInt64), 2], t.toNat / 2 ^ (10 : UInt8).toNat = (0 : UInt64).toNat / 2 ^ (10 : UInt8).toNat) ∧
      ∀ r ∈ (((new 10 2 0).newUpdated 10 2 0).runChecks [1, 2]).1, r.isOk = false := by
  have hs : (10 : UInt8) ≤ rateLimitShiftMillisMax := by
    unfold rateLimitShiftMillisMax
    decide
  have hts : ∀ t ∈ [(1 : UInt64), 2],
      t.toNat / 2 ^ (10 : UInt8).toNat = (0 : UInt64).toNat / 2 ^ (10 : UInt8).toNat := by
    simp
  exact ⟨hs, hts, newUpdated_refuses_first_slice (new 10 2 0) hs 2 0 [1, 2] hts⟩

end ThreadedCountLimiter

/-! ## The datagram limiter's two checks -/

namespace LocalDatagramLimiter

theorem checkPacket_state (l : LocalDatagramLimiter) (t : UInt64) (size : Nat) :
    (l.checkPacket t size).2 = l.enterSlice t := by
  simp only [checkPacket]
  split_ifs <;> rfl

theorem checkPackets_state (l : LocalDatagramLimiter) (t : UInt64) (v : List Nat) :
    (l.checkPackets t v).2 = l.enterSlice t := by
  simp only [checkPackets]
  -- every branch, and every answer of the search, returns the entered state
  split_ifs <;> first | rfl | (split <;> rfl)

/-- `check_packet` and `check_packets` on one packet of `size ≥ 1` leave
    the same state, but answer differently at two edges of the budget: with
    the packet count full only `check_packet` passes, and with bytes already
    counted that the packet fills up exactly only `check_packets` does. -/
theorem checkPacket_checkPackets_edges (l : LocalDatagramLimiter) (t : UInt64) {size : Nat} (hsize : 0 < size) :
    (l.checkPacket t size).2 = (l.checkPackets t [size]).2 ∧
      (0 < (l.enterSlice t).maxPackets → (l.enterSlice t).curPackets = (l.enterSlice t).maxPackets →
        (l.enterSlice t).maxBytes = 0 →
        (l.checkPacket t size).1 = .advance 1 ∧
          (l.checkPackets t [size]).1 = .delayFor ((l.enterSlice t).window.delay t)) ∧
      ((l.enterSlice t).maxPackets = 0 → 0 < (l.enterSlice t).curBytes →
        (l.enterSlice t).curBytes + size = (l.enterSlice t).maxBytes →
        (l.checkPacket t size).1 = .delayFor ((l.enterSlice t).window.delay t) ∧
          (l.checkPackets t [size]).1 = .advance 1) := by
  refine ⟨by rw [checkPacket_state, checkPackets_state], fun hmp hcur hbytes => ?_, fun hmp hcur hfill => ?_⟩
  · simp only [checkPacket, checkPackets]
    generalize l.enterSlice t = e at *
    simp [hmp, hcur, hbytes]
  · simp only [checkPacket, checkPackets]
    generalize l.enterSlice t = e at *
    have hleft : e.maxBytes - e.curBytes = size := by omega
    simp [hmp, show 0 < e.maxBytes by omega, show ¬ e.maxBytes ≤ e.curBytes by omega, hleft, binarySearch,
      show e.maxBytes ≤ e.curBytes + size by omega, hcur]

/-- Packets sent one at a time through `check_packet`, each that passes
    followed by `set_advance(1, size)`: the answers and the limiter. -/
def sendEach (l : LocalDatagramLimiter) : List (UInt64 × Nat) → List DatagramLimitAction × LocalDatagramLimiter
  | [] => ([], l)
  | (t, size) :: sends =>
    let l' := match l.checkPacket t size with
      | (.advance _, l') => l'.setAdvance 1 size
      | (_, l') => l'
    ((l.checkPacket t size).1 :: (l'.sendEach sends).1, (l'.sendEach sends).2)

/-- Within one slice and with no byte limit, `check_packet` passes every
    packet while at most `max_packets` have passed before it. -/
theorem sendEach_in_slice {k maxPackets : Nat} {t₀ : UInt64} :
    ∀ (sends : List (UInt64 × Nat)) (l : LocalDatagramLimiter), l.window.Aligned k →
      l.timeSliceId = l.window.sliceId t₀ → l.maxBytes = 0 → l.maxPackets = maxPackets →
      l.curPackets + sends.length ≤ maxPackets + 1 →
      (∀ p ∈ sends, p.1.toNat / 2 ^ k = t₀.toNat / 2 ^ k) →
      (l.sendEach sends).1 = List.replicate sends.length (.advance 1) ∧
        (l.sendEach sends).2.curPackets = l.curPackets + sends.length
  | [], l, _, _, _, _, _, _ => ⟨rfl, rfl⟩
  | (t, size) :: sends, l, hw, hid, hbytes, hmax, hlen, hslice => by
    have hsame : l.timeSliceId = l.window.sliceId t := by
      rw [hid, hw.sliceId_eq_iff]
      exact (hslice (t, size) (by simp)).symm
    have henter : l.enterSlice t = l := by simp [enterSlice, hsame]
    have hpass : l.checkPacket t size = (.advance 1, l) := by
      simp only [checkPacket, henter, hbytes]
      simp only [List.length_cons] at hlen
      simp [show ¬ l.curPackets > l.maxPackets by omega]
    have ih := sendEach_in_slice sends (l.setAdvance 1 size) hw hid hbytes hmax
      (by simp only [setAdvance, List.length_cons] at hlen ⊢; omega)
      (fun p hp => hslice p (List.mem_cons_of_mem _ hp))
    simp only [sendEach, hpass]
    refine ⟨by rw [ih.1]; rfl, ?_⟩
    rw [ih.2]
    simp only [setAdvance, List.length_cons]
    omega

/-- A datagram limiter reset at `t₀` with a limit of `max_packets` packets
    (and none on bytes) passes `max_packets + 1` packets checked one by one
    with `check_packet` in the slice of `t₀`, each followed by
    `set_advance(1, size)`: the slice admits one packet more than its
    budget. -/
theorem checkPacket_admits_past_maxPackets {s : UInt8} (hs : s ≤ rateLimitShiftMillisMax) (maxPackets : Nat)
    (t₀ : UInt64) (sends : List (UInt64 × Nat)) (hlen : sends.length = maxPackets + 1)
    (hslice : ∀ p ∈ sends, p.1.toNat / 2 ^ s.toNat = t₀.toNat / 2 ^ s.toNat) :
    ((reset s maxPackets 0 t₀).sendEach sends).1 = List.replicate (maxPackets + 1) (.advance 1) ∧
      ((reset s maxPackets 0 t₀).sendEach sends).2.curPackets = maxPackets + 1 := by
  have haligned : (FixedWindow.new s (some t₀) 0).Aligned s.toNat := by
    have := FixedWindow.aligned_new s (some t₀) 0
    rwa [FixedWindow.shiftOf_of_le hs] at this
  have h := sendEach_in_slice sends (reset s maxPackets 0 t₀) haligned rfl rfl rfl
    (by simp [reset, hlen]) hslice
  rw [hlen] at h
  exact ⟨h.1, by rw [h.2]; simp [reset]⟩

theorem checkPacket_admits_past_maxPackets_two :
    (10 : UInt8) ≤ rateLimitShiftMillisMax ∧ [((0 : UInt64), 100), (1, 100)].length = 1 + 1 ∧
      (∀ p ∈ [((0 : UInt64), 100), (1, 100)], p.1.toNat / 2 ^ (10 : UInt8).toNat = (0 : UInt64).toNat / 2 ^ (10 : UInt8).toNat) ∧
      ((reset 10 1 0 0).sendEach [(0, 100), (1, 100)]).1 = List.replicate (1 + 1) (.advance 1) ∧
      ((reset 10 1 0 0).sendEach [(0, 100), (1, 100)]).2.curPackets = 1 + 1 :=
  ⟨by decide, rfl, by decide, checkPacket_admits_past_maxPackets (by decide) 1 0 [(0, 100), (1, 100)] rfl (by decide)⟩

end LocalDatagramLimiter

/-- The windows made by `FixedWindow::new` with a shift `s` of at most
    `RATE_LIMIT_SHIFT_MILLIS_MAX`: `delay(t)` lies in `[1, 2^s]`, and
    `t + delay(t)` is the first instant after `t` whose slice id differs from
    that of `t`. -/
theorem FixedWindow.new_delay_ends_slice {s : UInt8} (hs : s ≤ rateLimitShiftMillisMax) (cur : Option UInt64)
    (random t : UInt64) :
    1 ≤ ((FixedWindow.new s cur random).delay t).toNat ∧ ((FixedWindow.new s cur random).delay t).toNat ≤ 2 ^ s.toNat ∧
      (∀ u : UInt64, t ≤ u → u.toNat < t.toNat + ((FixedWindow.new s cur random).delay t).toNat →
        (FixedWindow.new s cur random).sliceId u = (FixedWindow.new s cur random).sliceId t) ∧
      (FixedWindow.new s cur random).sliceId (t + (FixedWindow.new s cur random).delay t) ≠
        (FixedWindow.new s cur random).sliceId t := by
  have h := FixedWindow.aligned_new s cur random
  rw [FixedWindow.shiftOf_of_le hs] at h
  exact h.delay_ends_slice t

end G3Proxy
