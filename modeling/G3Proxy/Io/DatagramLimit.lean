/-
  Rate limiting of datagrams (g3-io-ext `limit/datagram.rs`,
  `limit/fixed_window`).

  A `DatagramLimiter` asks its local fixed-window limiter, then each global
  limiter, how many of the offered packets may pass; each global limiter
  takes tokens for what it grants, and the limiter records what it took
  (`checked_packets`, `checked_bytes`) so that `set_advance` can give back
  what was not transferred, or `release_global` all of it.

  * A global limiter is a `GlobalDatagramLimit` trait object, given here by
    what its callers rely on: two token counters (`GlobalCounter`, the net
    packets and bytes handed out) with the answers the limiter will give.
    `check_packet(s)` takes one packet and `s` bytes; `check_packets(v)`
    granting `n` takes `n` packets and `v[n-1]` bytes.
  * `checkPacket` records both counts for every global limiter;
    `checkPackets` records `checked_bytes` only when fewer packets than
    offered pass (its shrink path).  When all pass, the bytes taken are never
    given back: `checkPackets_full_grant_keeps_bytes`.
  * `checkPackets` returns `none` where the code panics (an index below the
    first packet, an `unwrap` of a missing count).
-/
import Mathlib
import G3Proxy.Core.Machine

namespace G3Proxy

/-- `DatagramLimitAction`; an `Instant` is a number of milliseconds. -/
inductive DatagramLimitAction where
  | advance (n : Nat)
  | delayUntil (t : Nat)
  | delayFor (ms : UInt64)
  deriving Repr, DecidableEq

/-- `binary_search` on a strictly increasing slice: `Ok` the index of `x`,
    or `Err` the index it would be inserted at. -/
def binarySearch (v : List Nat) (x : Nat) : Except Nat Nat :=
  match v.idxOf? x with
  | some i => .ok i
  | none => .error (v.countP (· < x))

theorem binarySearch_ok {v : List Nat} {x i : Nat} (h : binarySearch v x = .ok i) :
    ∃ hi : i < v.length, v[i] = x := by
  unfold binarySearch at h
  split at h
  · rename_i j hj
    cases h
    obtain ⟨hi, hx, -⟩ := List.idxOf?_eq_some_iff.1 hj
    exact ⟨hi, hx⟩
  · cases h

theorem binarySearch_error {v : List Nat} {x j : Nat} (h : binarySearch v x = .error j) :
    x ∉ v ∧ j = v.countP (· < x) := by
  unfold binarySearch at h
  split at h
  · cases h
  · rename_i hnone
    cases h
    exact ⟨List.idxOf?_eq_none_iff.1 hnone, rfl⟩

/-! ## The local limiter -/

/-- `RATE_LIMIT_SHIFT_MILLIS_MAX`. -/
def rateLimitShiftMillisMax : UInt8 := 12

/-- `FixedWindow`: time slices of `2^shift` milliseconds. -/
structure FixedWindow where
  maxDelayMillis : UInt64
  timeValueMask : UInt64
  timeSliceMask : UInt64
  sliceIdOffset : UInt64
  deriving Repr, DecidableEq

namespace FixedWindow

/-- `FixedWindow::default`. -/
def default : FixedWindow := ⟨1, 0, UInt64.ofNat (2 ^ 64 - 1), 0⟩

/-- `FixedWindow::new`; `random` is the draw of `fastrand::u64(0..=max_delay_millis)`
    made when no time is given. -/
def new (shiftMillis : UInt8) (curMillis : Option UInt64) (random : UInt64) : FixedWindow :=
  let shift := if shiftMillis > rateLimitShiftMillisMax then rateLimitShiftMillisMax else shiftMillis
  let maxDelayMillis : UInt64 := 1 <<< shift.toUInt64
  let timeValueMask := maxDelayMillis - 1
  let timeSliceMask := UInt64.ofNat (2 ^ 64 - 1) ^^^ timeValueMask
  let sliceIdOffset :=
    match curMillis with
    | some cur => cur - (cur &&& timeSliceMask)
    | none => random
  ⟨maxDelayMillis, timeValueMask, timeSliceMask, sliceIdOffset⟩

/-- `enabled`: the shift is not zero. -/
def enabled (w : FixedWindow) : Bool := w.maxDelayMillis > 1

/-- `slice_id`. -/
def sliceId (w : FixedWindow) (curMillis : UInt64) : UInt64 :=
  (w.timeSliceMask &&& curMillis) + w.sliceIdOffset

/-- `delay`: the time left in the current slice. -/
def delay (w : FixedWindow) (curMillis : UInt64) : UInt64 :=
  w.maxDelayMillis - (w.timeValueMask &&& curMillis)

end FixedWindow

/-- `LocalDatagramLimiter`. -/
structure LocalDatagramLimiter where
  window : FixedWindow
  maxPackets : Nat
  maxBytes : Nat
  timeSliceId : UInt64
  curPackets : Nat
  curBytes : Nat
  deriving Repr, DecidableEq

namespace LocalDatagramLimiter

/-- `LocalDatagramLimiter::default`. -/
def default : LocalDatagramLimiter := ⟨.default, 0, 0, 0, 0, 0⟩

/-- `LocalDatagramLimiter::new`. -/
def new (shiftMillis : UInt8) (maxPackets maxBytes : Nat) (random : UInt64) :
    LocalDatagramLimiter :=
  ⟨.new shiftMillis none random, maxPackets, maxBytes, 0, 0, 0⟩

/-- `reset`. -/
def reset (shiftMillis : UInt8) (maxPackets maxBytes : Nat) (curMillis : UInt64) :
    LocalDatagramLimiter :=
  let window := FixedWindow.new shiftMillis (some curMillis) 0
  ⟨window, maxPackets, maxBytes, window.sliceId curMillis, 0, 0⟩

/-- `is_set`. -/
def isSet (l : LocalDatagramLimiter) : Bool := l.window.enabled

/-- The start of both checks: a new time slice clears the counts. -/
def enterSlice (l : LocalDatagramLimiter) (curMillis : UInt64) : LocalDatagramLimiter :=
  let id := l.window.sliceId curMillis
  if l.timeSliceId ≠ id then { l with curBytes := 0, curPackets := 0, timeSliceId := id } else l

/-- `check_packet`. -/
def checkPacket (l : LocalDatagramLimiter) (curMillis : UInt64) (bufSize : Nat) :
    DatagramLimitAction × LocalDatagramLimiter :=
  let l := l.enterSlice curMillis
  if l.maxPackets > 0 ∧ l.curPackets > l.maxPackets then (.delayFor (l.window.delay curMillis), l)
  else if l.maxBytes > 0 ∧ l.curBytes > 0 ∧ l.curBytes + bufSize ≥ l.maxBytes then
    (.delayFor (l.window.delay curMillis), l)
  else (.advance 1, l)

/-- `check_packets` on the cumulative sizes `v`. -/
def checkPackets (l : LocalDatagramLimiter) (curMillis : UInt64) (v : List Nat) :
    DatagramLimitAction × LocalDatagramLimiter :=
  let l := l.enterSlice curMillis
  -- the packet limit first; the first packet of a slice always passes
  if l.maxPackets > 0 ∧ l.curPackets ≥ l.maxPackets then (.delayFor (l.window.delay curMillis), l)
  else
    let pktCount := if l.maxPackets > 0 then min v.length (l.maxPackets - l.curPackets) else v.length
    if l.maxBytes > 0 then
      if l.curBytes ≥ l.maxBytes then (.delayFor (l.window.delay curMillis), l)
      else
        match binarySearch (v.take pktCount) (l.maxBytes - l.curBytes) with
        | .ok i => (.advance (i + 1), l)
        | .error 0 =>
          if l.curBytes = 0 then (.advance 1, l) else (.delayFor (l.window.delay curMillis), l)
        | .error i => (.advance i, l)
    else (.advance pktCount, l)

/-- `set_advance`. -/
def setAdvance (l : LocalDatagramLimiter) (packets size : Nat) : LocalDatagramLimiter :=
  { l with curPackets := l.curPackets + packets, curBytes := l.curBytes + size }

end LocalDatagramLimiter

/-! ## Global limiters -/

/-- A global limiter as two token counters: the packets and bytes handed
    out, net of what was given back, and its answers to come (once they run
    out it grants everything). -/
structure GlobalCounter where
  packets : Int
  bytes : Int
  answers : List DatagramLimitAction
  deriving Repr, DecidableEq

namespace GlobalCounter

/-- `check_packet(s)`: a grant takes one packet and `s` bytes. -/
def checkPacket (g : GlobalCounter) (bufSize : Nat) : DatagramLimitAction × GlobalCounter :=
  match g.answers with
  | [] => (.advance 1, { g with packets := g.packets + 1, bytes := g.bytes + bufSize })
  | .advance _ :: as =>
    (.advance 1, { packets := g.packets + 1, bytes := g.bytes + bufSize, answers := as })
  | a :: as => (a, { g with answers := as })

/-- `check_packets(v)`: a grant of `n` takes `n` packets and `v[n-1]` bytes. -/
def checkPackets (g : GlobalCounter) (v : List Nat) : DatagramLimitAction × GlobalCounter :=
  match g.answers with
  | [] =>
    (.advance v.length,
      { g with packets := g.packets + v.length, bytes := g.bytes + v.getD (v.length - 1) 0 })
  | .advance n :: as =>
    (.advance n, { packets := g.packets + n, bytes := g.bytes + v.getD (n - 1) 0, answers := as })
  | a :: as => (a, { g with answers := as })

/-- `release_packets`. -/
def releasePackets (g : GlobalCounter) (count : Nat) : GlobalCounter :=
  { g with packets := g.packets - count }

/-- `release_bytes`. -/
def releaseBytes (g : GlobalCounter) (size : Nat) : GlobalCounter :=
  { g with bytes := g.bytes - size }

end GlobalCounter

/-- `GlobalLimiter`: a global limiter and what the last check took from it. -/
structure GlobalLimiter where
  inner : GlobalCounter
  checkedPackets : Option Nat
  checkedBytes : Option Nat
  deriving Repr, DecidableEq

/-- `DatagramLimiter`. -/
structure DatagramLimiter where
  isSet : Bool
  localIsSet : Bool
  localLimiter : LocalDatagramLimiter
  global : List GlobalLimiter
  deriving Repr, DecidableEq

namespace DatagramLimiter

/-- `DatagramLimiter::default`. -/
def default : DatagramLimiter := ⟨false, false, .default, []⟩

/-- `with_local`. -/
def withLocal (shiftMillis : UInt8) (maxPackets maxBytes : Nat) (random : UInt64) :
    DatagramLimiter :=
  let l := LocalDatagramLimiter.new shiftMillis maxPackets maxBytes random
  ⟨l.isSet, l.isSet, l, []⟩

/-- `reset_local`. -/
def resetLocal (d : DatagramLimiter) (shiftMillis : UInt8) (maxPackets maxBytes : Nat)
    (curMillis : UInt64) : DatagramLimiter :=
  let l := LocalDatagramLimiter.reset shiftMillis maxPackets maxBytes curMillis
  { d with localLimiter := l, localIsSet := l.isSet,
           isSet := if d.global = [] then l.isSet else d.isSet }

/-- `add_global`. -/
def addGlobal (d : DatagramLimiter) (g : GlobalCounter) : DatagramLimiter :=
  { d with global := d.global ++ [⟨g, none, none⟩], isSet := true }

/-- The loop of `release_global`, which stops at the first limiter with no
    recorded packet count. -/
def releaseGlobalList : List GlobalLimiter → List GlobalLimiter
  | [] => []
  | g :: gs =>
    match g.checkedPackets with
    | none => g :: gs
    | some packets =>
      let inner := g.inner.releasePackets packets
      let inner := match g.checkedBytes with
        | some size => inner.releaseBytes size
        | none => inner
      { g with inner, checkedPackets := none, checkedBytes := none } :: releaseGlobalList gs

/-- `release_global`. -/
def releaseGlobal (d : DatagramLimiter) : DatagramLimiter :=
  { d with global := releaseGlobalList d.global }

/-- The loop of `set_advance`. -/
def setAdvanceList (packets size : Nat) : List GlobalLimiter → List GlobalLimiter
  | [] => []
  | g :: gs =>
    match g.checkedPackets with
    | none => g :: gs
    | some checked =>
      let inner := if checked > packets then g.inner.releasePackets (checked - packets) else g.inner
      let inner := match g.checkedBytes with
        | some cb => if cb > size then inner.releaseBytes (cb - size) else inner
        | none => inner
      { g with inner, checkedPackets := none, checkedBytes := none } ::
        setAdvanceList packets size gs

/-- `set_advance`. -/
def setAdvance (d : DatagramLimiter) (packets size : Nat) : DatagramLimiter :=
  { d with localLimiter := if d.localIsSet then d.localLimiter.setAdvance packets size
                           else d.localLimiter,
           global := setAdvanceList packets size d.global }

/-- The loop of `check_packet` over the global limiters: the first delay
    stops it. -/
def checkPacketGlobals (bufSize : Nat) :
    List GlobalLimiter → Option DatagramLimitAction × List GlobalLimiter
  | [] => (none, [])
  | g :: gs =>
    match g.inner.checkPacket bufSize with
    | (.advance _, inner) =>
      let (r, gs) := checkPacketGlobals bufSize gs
      (r, { g with inner, checkedPackets := some 1, checkedBytes := some bufSize } :: gs)
    | (a, inner) => (some a, { g with inner } :: gs)

/-- `check_packet`. -/
def checkPacket (d : DatagramLimiter) (curMillis : UInt64) (bufSize : Nat) :
    DatagramLimitAction × DatagramLimiter :=
  let (la, l) :=
    if d.localIsSet then d.localLimiter.checkPacket curMillis bufSize else (.advance 1, d.localLimiter)
  let d := { d with localLimiter := l }
  match la with
  | .advance _ =>
    match checkPacketGlobals bufSize d.global with
    | (none, gs) => (.advance 1, { d with global := gs })
    | (some a, gs) => (a, { d with global := releaseGlobalList gs })
  | a => (a, d)

/-- The loop of `check_packets` over the global limiters: each is offered
    what the previous ones granted; `inl` is a delay, `inr` the count all
    granted. -/
def checkPacketsGlobals (v : List Nat) :
    Nat → List GlobalLimiter → (DatagramLimitAction ⊕ Nat) × List GlobalLimiter
  | toAdvance, [] => (.inr toAdvance, [])
  | toAdvance, g :: gs =>
    match g.inner.checkPackets (v.take toAdvance) with
    | (.advance n, inner) =>
      let (r, gs) := checkPacketsGlobals v n gs
      (r, { g with inner, checkedPackets := some n } :: gs)
    | (a, inner) => (.inl a, { g with inner } :: gs)

/-- The shrink path for one global limiter: give back what it granted
    beyond `toAdvance`, and record both counts; `none` is the panic of
    `unwrap`. -/
def shrinkGlobal (v : List Nat) (toAdvance bufSize : Nat) (g : GlobalLimiter) :
    Option GlobalLimiter :=
  match g.checkedPackets with
  | none => none
  | some checked =>
    let inner :=
      if checked > toAdvance then
        (g.inner.releasePackets (checked - toAdvance)).releaseBytes (v.getD (checked - 1) 0 - bufSize)
      else g.inner
    some { g with inner, checkedPackets := some toAdvance, checkedBytes := some bufSize }

/-- `check_packets` on the cumulative sizes `v`; `none` is a panic. -/
def checkPackets (d : DatagramLimiter) (curMillis : UInt64) (v : List Nat) :
    Option (DatagramLimitAction × DatagramLimiter) :=
  let (la, l) :=
    if d.localIsSet then d.localLimiter.checkPackets curMillis v else (.advance v.length, d.localLimiter)
  let d := { d with localLimiter := l }
  match la with
  | .advance toAdvance =>
    if d.global = [] then some (.advance toAdvance, d)
    else
      match checkPacketsGlobals v toAdvance d.global with
      | (.inl a, gs) => some (a, { d with global := releaseGlobalList gs })
      | (.inr toAdvance, gs) =>
        if v.length > toAdvance then
          -- `total_size_v[to_advance - 1]` panics when nothing was granted
          if toAdvance = 0 then none
          else
            let bufSize := v.getD (toAdvance - 1) 0
            (gs.mapM (shrinkGlobal v toAdvance bufSize)).map fun gs =>
              (.advance toAdvance, { d with global := gs })
        else some (.advance toAdvance, { d with global := gs })
  | a => some (a, d)

/-- One global limiter granting the one packet offered: `check_packets`
    records no byte count, so neither `release_global` nor `set_advance`
    gives back the 100 bytes it took. -/
theorem checkPackets_full_grant_keeps_bytes :
    ∃ d₁, (default.addGlobal ⟨0, 0, [.advance 1]⟩).checkPackets 0 [100] = some (.advance 1, d₁) ∧
      d₁.releaseGlobal.global.map (fun g => (g.inner.packets, g.inner.bytes)) = [(0, 100)] ∧
      (d₁.setAdvance 1 60).global.map (fun g => (g.inner.packets, g.inner.bytes)) = [(1, 100)] :=
  ⟨_, rfl, rfl, rfl⟩

end DatagramLimiter

end G3Proxy
