/-
  Rate limiting of streams (g3-io-ext `limit/stream.rs`,
  `limit/fixed_window/stream.rs`, and the callers `io/limited_write.rs`,
  `io/limited_read.rs`).

  A `StreamLimiter` asks its local fixed-window limiter, then each global
  limiter in turn, how many of the offered bytes may pass; each global
  limiter takes tokens for what it grants, and the limiter records what it
  took (`checked_bytes`) so that `set_advance` can give back what was not
  transferred, or `release_global` all of it.

  * A global limiter is a `GlobalStreamLimit` trait object, given here by
    what its callers rely on: a token counter (`GlobalStreamCounter.taken`,
    the net tokens handed out) with the answers the limiter will give:
    `advanceBy m` grants at most `m` of what is asked (the tokens in the
    bucket), a delay takes nothing; once the answers run out it grants
    everything.
  * `Drop for GlobalLimiter` gives back what is still recorded; a limiter
    removed by `remove_global_by_group` or `retain_global_by_group`, or left
    when the `StreamLimiter` is dropped, is dropped, and `GlobalLimiter.drop`
    is its counter afterwards.
  * `transfer` is the protocol of `LimitedWriterState::poll_write` and
    `LimitedReaderState::poll_read` with the limit set: `check`, then on a
    grant of `len` bytes the transfer of at most `len` (`io`): `set_advance`
    of what moved, or `release_global` on an error or `Pending`.
  * `check` returns `none` where the code panics (the `unwrap` of a missing
    record in the shrink loop).
-/
import G3Proxy.Io.DatagramLimit

namespace G3Proxy

/-- `GlobalLimitGroup`. -/
inductive GlobalLimitGroup where
  | server
  | user
  | userSite
  deriving Repr, DecidableEq

/-- `StreamLimitAction`; an `Instant` is a number of milliseconds. -/
inductive StreamLimitAction where
  | advanceBy (n : Nat)
  | delayUntil (t : Nat)
  | delayFor (ms : UInt64)
  deriving Repr, DecidableEq

/-! ## The local limiter -/

/-- `LocalStreamLimiter`. -/
structure LocalStreamLimiter where
  window : FixedWindow
  maxBytes : Nat
  timeSliceId : UInt64
  curBytes : Nat
  deriving Repr, DecidableEq

namespace LocalStreamLimiter

/-- `LocalStreamLimiter::default`. -/
def default : LocalStreamLimiter := ⟨.default, 0, 0, 0⟩

/-- `LocalStreamLimiter::new`. -/
def new (shiftMillis : UInt8) (maxBytes : Nat) (random : UInt64) : LocalStreamLimiter :=
  ⟨.new shiftMillis none random, maxBytes, 0, 0⟩

/-- `reset`. -/
def reset (shiftMillis : UInt8) (maxBytes : Nat) (curMillis : UInt64) : LocalStreamLimiter :=
  let window := FixedWindow.new shiftMillis (some curMillis) 0
  ⟨window, maxBytes, window.sliceId curMillis, 0⟩

/-- `is_set`. -/
def isSet (l : LocalStreamLimiter) : Bool := l.window.enabled

/-- `check`: a new time slice clears the count; what is left of
    `max_bytes` bounds the grant (`cur_bytes` never passes `max_bytes` under
    the protocol, where the subtraction cannot underflow). -/
def check (l : LocalStreamLimiter) (curMillis : UInt64) (toAdvance : Nat) :
    StreamLimitAction × LocalStreamLimiter :=
  let id := l.window.sliceId curMillis
  let l := if l.timeSliceId ≠ id then { l with curBytes := 0, timeSliceId := id } else l
  let max := l.maxBytes - l.curBytes
  if max = 0 then (.delayFor (l.window.delay curMillis), l)
  else (.advanceBy (min toAdvance max), l)

/-- `set_advance`. -/
def setAdvance (l : LocalStreamLimiter) (size : Nat) : LocalStreamLimiter :=
  { l with curBytes := l.curBytes + size }

end LocalStreamLimiter

/-! ## Global limiters -/

/-- A global stream limiter as a token counter: the tokens handed out, net
    of what was given back, and its answers to come. -/
structure GlobalStreamCounter where
  group : GlobalLimitGroup
  taken : Int
  answers : List StreamLimitAction
  deriving Repr, DecidableEq

namespace GlobalStreamCounter

/-- `check(to_advance)`: a grant takes what it grants, at most `to_advance`. -/
def check (g : GlobalStreamCounter) (toAdvance : Nat) : StreamLimitAction × GlobalStreamCounter :=
  match g.answers with
  | [] => (.advanceBy toAdvance, { g with taken := g.taken + toAdvance })
  | .advanceBy m :: as =>
    (.advanceBy (min m toAdvance), { g with taken := g.taken + min m toAdvance, answers := as })
  | a :: as => (a, { g with answers := as })

/-- `release(size)`. -/
def release (g : GlobalStreamCounter) (size : Nat) : GlobalStreamCounter :=
  { g with taken := g.taken - size }

end GlobalStreamCounter

/-- `GlobalLimiter` of `stream.rs`: a global limiter and what the last check
    took from it. -/
structure StreamLimiter.GlobalLimiter where
  inner : GlobalStreamCounter
  checkedBytes : Option Nat
  deriving Repr, DecidableEq

namespace StreamLimiter.GlobalLimiter

/-- `GlobalLimiter::new`. -/
def new (inner : GlobalStreamCounter) : GlobalLimiter := ⟨inner, none⟩

/-- `Drop for GlobalLimiter`: the counter once what is still recorded is
    given back. -/
def drop (g : GlobalLimiter) : GlobalStreamCounter :=
  match g.checkedBytes with
  | some taken => g.inner.release taken
  | none => g.inner

end StreamLimiter.GlobalLimiter

/-! ## The stream limiter -/

/-- `StreamLimiter`. -/
structure StreamLimiter where
  isSet : Bool
  localIsSet : Bool
  localLimiter : LocalStreamLimiter
  global : List StreamLimiter.GlobalLimiter
  deriving Repr, DecidableEq

namespace StreamLimiter

/-- `StreamLimiter::default`. -/
def default : StreamLimiter := ⟨false, false, .default, []⟩

/-- `with_local`. -/
def withLocal (shiftMillis : UInt8) (maxBytes : Nat) (random : UInt64) : StreamLimiter :=
  let l := LocalStreamLimiter.new shiftMillis maxBytes random
  ⟨l.isSet, l.isSet, l, []⟩

/-- `reset_local`. -/
def resetLocal (s : StreamLimiter) (shiftMillis : UInt8) (maxBytes : Nat) (curMillis : UInt64) :
    StreamLimiter :=
  let l := LocalStreamLimiter.reset shiftMillis maxBytes curMillis
  { s with localLimiter := l, localIsSet := l.isSet,
           isSet := if s.global = [] then l.isSet else s.isSet }

/-- `add_global`. -/
def addGlobal (s : StreamLimiter) (g : GlobalStreamCounter) : StreamLimiter :=
  { s with global := s.global ++ [GlobalLimiter.new g], isSet := true }

/-- `remove_global_by_group`: the limiter kept, and the counters of the
    limiters `retain` drops. -/
def removeGlobalByGroup (s : StreamLimiter) (group : GlobalLimitGroup) :
    StreamLimiter × List GlobalStreamCounter :=
  ({ s with global := s.global.filter (·.inner.group ≠ group) },
    (s.global.filter (·.inner.group = group)).map GlobalLimiter.drop)

/-- `retain_global_by_group`. -/
def retainGlobalByGroup (s : StreamLimiter) (group : GlobalLimitGroup) :
    StreamLimiter × List GlobalStreamCounter :=
  ({ s with global := s.global.filter (·.inner.group = group) },
    (s.global.filter (·.inner.group ≠ group)).map GlobalLimiter.drop)

/-- Dropping the limiter drops every global limiter. -/
def drop (s : StreamLimiter) : List GlobalStreamCounter :=
  s.global.map GlobalLimiter.drop

/-- The loop of `release_global`, which stops at the first limiter with no
    record. -/
def releaseGlobalList : List GlobalLimiter → List GlobalLimiter
  | [] => []
  | g :: gs =>
    match g.checkedBytes with
    | none => g :: gs
    | some taken => ⟨g.inner.release taken, none⟩ :: releaseGlobalList gs

/-- `release_global`. -/
def releaseGlobal (s : StreamLimiter) : StreamLimiter :=
  { s with global := releaseGlobalList s.global }

/-- The loop of `set_advance`: give back what each limiter took beyond
    `size`, stopping at the first limiter with no record. -/
def setAdvanceList (size : Nat) : List GlobalLimiter → List GlobalLimiter
  | [] => []
  | g :: gs =>
    match g.checkedBytes with
    | none => g :: gs
    | some taken =>
      ⟨if taken > size then g.inner.release (taken - size) else g.inner, none⟩ ::
        setAdvanceList size gs

/-- `set_advance`. -/
def setAdvance (s : StreamLimiter) (size : Nat) : StreamLimiter :=
  { s with localLimiter := if s.localIsSet then s.localLimiter.setAdvance size else s.localLimiter,
           global := setAdvanceList size s.global }

/-- The loop of `check` over the global limiters: each is offered what the
    previous ones granted; `inl` is a delay, `inr` what all granted. -/
def checkGlobals : Nat → List GlobalLimiter → (StreamLimitAction ⊕ Nat) × List GlobalLimiter
  | toAdvance, [] => (.inr toAdvance, [])
  | toAdvance, g :: gs =>
    match g.inner.check toAdvance with
    | (.advanceBy size, inner) =>
      let (r, gs) := checkGlobals size gs
      (r, ⟨inner, some size⟩ :: gs)
    | (a, inner) => (.inl a, { g with inner } :: gs)

/-- The shrink loop for one global limiter: give back what it took beyond
    `toAdvance`, and record `toAdvance`; `none` is the panic of `unwrap`. -/
def shrinkGlobal (toAdvance : Nat) (g : GlobalLimiter) : Option GlobalLimiter :=
  match g.checkedBytes with
  | none => none
  | some checked =>
    some ⟨if checked > toAdvance then g.inner.release (checked - toAdvance) else g.inner,
      some toAdvance⟩

/-- `check`; `none` is a panic. -/
def check (s : StreamLimiter) (curMillis : UInt64) (toAdvance : Nat) :
    Option (StreamLimitAction × StreamLimiter) :=
  let target := toAdvance
  let (la, l) :=
    if s.localIsSet then s.localLimiter.check curMillis toAdvance else (.advanceBy toAdvance, s.localLimiter)
  let s := { s with localLimiter := l }
  match la with
  | .advanceBy toAdvance =>
    match checkGlobals toAdvance s.global with
    | (.inl a, gs) => some (a, { s with global := releaseGlobalList gs })
    | (.inr toAdvance, gs) =>
      if target > toAdvance then
        -- shrink in time
        (gs.mapM (shrinkGlobal toAdvance)).map fun gs => (.advanceBy toAdvance, { s with global := gs })
      else some (.advanceBy toAdvance, { s with global := gs })
  | a => some (a, s)

/-! ## The callers' protocol -/

/-- How a transfer ended: `set_advance(n)`, `release_global()`, or a delay. -/
inductive TransferEnd where
  | advanced (n : Nat)
  | released
  | delayed
  deriving Repr, DecidableEq

/-- What the stream took for good: the bytes moved. -/
def TransferEnd.taken : TransferEnd → Nat
  | .advanced n => n
  | _ => 0

/-- The inner stream's `poll_write` (or `poll_read`) on the first `len`
    bytes: `some` the bytes it moved, never more than `len`; `none` an error
    or `Pending`. -/
structure InnerIo where
  poll : Nat → Option Nat
  poll_le : ∀ len n, poll len = some n → n ≤ len

/-- `poll_write` (and `poll_read`) with the limit set: `check` for `len`
    bytes, then on a grant of `n` the inner stream's poll on `n` bytes. -/
def transfer (s : StreamLimiter) (curMillis : UInt64) (len : Nat) (io : InnerIo) :
    Option (TransferEnd × StreamLimiter) :=
  match s.check curMillis len with
  | none => none
  | some (.advanceBy n, s) =>
    match io.poll n with
    | some nw => some (.advanced nw, s.setAdvance nw)
    | none => some (.released, s.releaseGlobal)
  | some (_, s) => some (.delayed, s)

/-- What the owner of a stream does with its limiter. -/
inductive Op where
  | transfer (curMillis : UInt64) (len : Nat) (io : InnerIo)
  | addGlobal (g : GlobalStreamCounter)
  | removeGlobalByGroup (group : GlobalLimitGroup)
  | retainGlobalByGroup (group : GlobalLimitGroup)
  | resetLocal (shiftMillis : UInt8) (maxBytes : Nat) (curMillis : UInt64)

/-- The limiter after an operation; `none` is a panic. -/
def step (s : StreamLimiter) : Op → Option StreamLimiter
  | .transfer curMillis len io => (s.transfer curMillis len io).map (·.2)
  | .addGlobal g => some (s.addGlobal g)
  | .removeGlobalByGroup group => some (s.removeGlobalByGroup group).1
  | .retainGlobalByGroup group => some (s.retainGlobalByGroup group).1
  | .resetLocal shiftMillis maxBytes curMillis => some (s.resetLocal shiftMillis maxBytes curMillis)

end StreamLimiter

end G3Proxy
