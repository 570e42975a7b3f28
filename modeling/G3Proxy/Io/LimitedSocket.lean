/-
  The rate-limited QUIC socket (g3-io-ext `quic/limited_socket.rs`): its
  `try_send` over a `DatagramLimiter`, the inner socket and the send stats.

  * The inner socket is its answers to come (`true` is `Ok`; once they run
    out it accepts every datagram) and the datagrams it accepted, so one list
    of answers is one behaviour of the inner socket.  A transmit is its
    contents: the other fields of `udp::Transmit` go to the inner socket
    untouched.  Instants are milliseconds from `started`, and the elapsed
    time of a call is its `dur_millis`.  The receive side is left out.
  * A limiter is `Quiet` when no global limiter holds a reservation, as
    between two calls.  From there a check that passes reserves one packet of
    `len` bytes with every global limiter (`Reserving`) and a check that
    delays charges nothing (`Uncharged`); `set_advance(1, len)` turns the
    reservation into a charge (`Charged`) and `release_global` gives it back.
  * `trySend_limited_cases`: the four outcomes of `try_send` on a limited
    socket.  One that returns `Ok` gave the transmit to the inner socket twice
    (`trySend_limited_passes_twice`); when the second inner send fails, the
    error comes back with the reservation kept.
  * `runSends_limited_accepting`: with a limit and an inner socket that
    accepts everything, over every run the limiter stays quiet and charges
    exactly the calls that returned `Ok`, while the inner socket gets two
    copies of each and the stats count one (`SentTwice`).
-/
import Mathlib
import G3Proxy.Io.FixedWindow

namespace G3Proxy

/-! ## Reservations of `check_packet` -/

namespace GlobalLimiter

/-- The tokens a global limiter has handed out: packets and bytes. -/
def tokens (g : GlobalLimiter) : Int × Int := (g.inner.packets, g.inner.bytes)

/-- No reservation on record. -/
def Clear (g : GlobalLimiter) : Prop := g.checkedPackets = none ∧ g.checkedBytes = none

/-- A reservation of one packet of `size` bytes on record. -/
def ReservedOne (size : Nat) (g : GlobalLimiter) : Prop :=
  g.checkedPackets = some 1 ∧ g.checkedBytes = some size

end GlobalLimiter

/-- A global limiter grants the packet, taking one packet and `size`
    bytes, or answers with a delay and takes nothing. -/
theorem GlobalCounter.checkPacket_cases (g : GlobalCounter) (size : Nat) :
    g.checkPacket size = (.advance 1, ⟨g.packets + 1, g.bytes + size, g.answers.tail⟩) ∨
      ∃ a, (∀ n, a ≠ .advance n) ∧ g.checkPacket size = (a, { g with answers := g.answers.tail }) := by
  unfold GlobalCounter.checkPacket
  split
  · next h => exact .inl (by simp [h])
  · next h => exact .inl (by simp [h])
  · next a as hne h => exact .inr ⟨a, fun n h' => hne n (h' ▸ rfl), by simp [h]⟩

namespace DatagramLimiter

/-- No global limiter holds a reservation: the state between two calls. -/
def Quiet (d : DatagramLimiter) : Prop := ∀ g ∈ d.global, g.Clear

/-- The local limiter once a check at `t` entered its slice. -/
def localAt (d : DatagramLimiter) (t : UInt64) : LocalDatagramLimiter :=
  if d.localIsSet then d.localLimiter.enterSlice t else d.localLimiter

/-- After a check at `t` that passed a packet of `size` bytes: the local
    limiter in the slice of `t`, and every global limiter reserving the
    packet, with the tokens for it taken. -/
structure Reserving (t : UInt64) (size : Nat) (d d' : DatagramLimiter) : Prop where
  isSet : d'.isSet = d.isSet
  localIsSet : d'.localIsSet = d.localIsSet
  localLimiter : d'.localLimiter = d.localAt t
  tokens : d'.global.map GlobalLimiter.tokens = d.global.map fun g => g.tokens + ((1 : Int), (size : Int))
  reserved : ∀ g ∈ d'.global, g.ReservedOne size

/-- After a check at `t` that charged nothing: the local limiter only
    entered the slice of `t`, and the global limiters hold the tokens they
    held, with no reservation. -/
structure Uncharged (t : UInt64) (d d' : DatagramLimiter) : Prop where
  isSet : d'.isSet = d.isSet
  localIsSet : d'.localIsSet = d.localIsSet
  localLimiter : d'.localLimiter = d.localAt t
  tokens : d'.global.map GlobalLimiter.tokens = d.global.map GlobalLimiter.tokens
  quiet : d'.Quiet

/-- After a packet of `size` bytes sent at `t` was charged: the local
    limiter counts it, every global limiter keeps the tokens it took, and no
    reservation is left. -/
structure Charged (t : UInt64) (size : Nat) (d d' : DatagramLimiter) : Prop where
  isSet : d'.isSet = d.isSet
  localIsSet : d'.localIsSet = d.localIsSet
  localLimiter : d'.localLimiter = if d.localIsSet then (d.localAt t).setAdvance 1 size else d.localLimiter
  tokens : d'.global.map GlobalLimiter.tokens = d.global.map fun g => g.tokens + ((1 : Int), (size : Int))
  quiet : d'.Quiet

/-- The check loop over limiters without reservations, when none delays:
    each takes and reserves the packet. -/
theorem checkPacketGlobals_none {size : Nat} {gs gs' : List GlobalLimiter} (hq : ∀ g ∈ gs, g.Clear)
    (h : checkPacketGlobals size gs = (none, gs')) :
    gs'.map GlobalLimiter.tokens = gs.map (fun g => g.tokens + ((1 : Int), (size : Int))) ∧
      ∀ g ∈ gs', g.ReservedOne size := by
  induction gs generalizing gs' with
  | nil =>
    simp only [checkPacketGlobals, Prod.mk.injEq, true_and] at h
    subst h
    simp
  | cons g gs ih =>
    have hrest : ∀ g' ∈ gs, g'.Clear := fun g' hg' => hq g' (List.mem_cons_of_mem _ hg')
    rcases GlobalCounter.checkPacket_cases g.inner size with hc | ⟨a, hne, hc⟩
    · cases hr : checkPacketGlobals size gs with
      | mk r rest =>
        simp only [checkPacketGlobals, hc, hr, Prod.mk.injEq] at h
        obtain ⟨rfl, rfl⟩ := h
        obtain ⟨iht, ihr⟩ := ih hrest hr
        refine ⟨by simp [iht, GlobalLimiter.tokens, Prod.mk_add_mk], ?_⟩
        intro g' hg'
        rcases List.mem_cons.1 hg' with rfl | hg'
        · exact ⟨rfl, rfl⟩
        · exact ihr g' hg'
    · -- a delay ends the loop with `some`
      cases a with
      | advance n => exact absurd rfl (hne n)
      | delayUntil t => simp [checkPacketGlobals, hc] at h
      | delayFor ms => simp [checkPacketGlobals, hc] at h

/-- Reservations of one packet of `size` bytes, given back: the tokens less
    the packet, and no reservation left. -/
theorem releaseGlobalList_reserved {size : Nat} {gs : List GlobalLimiter} (h : ∀ g ∈ gs, g.ReservedOne size) :
    (releaseGlobalList gs).map GlobalLimiter.tokens = gs.map (fun g => g.tokens - ((1 : Int), (size : Int))) ∧
      ∀ g ∈ releaseGlobalList gs, g.Clear := by
  induction gs with
  | nil => simp [releaseGlobalList]
  | cons g gs ih =>
    obtain ⟨hp, hb⟩ := h g List.mem_cons_self
    obtain ⟨iht, ihc⟩ := ih fun g' hg' => h g' (List.mem_cons_of_mem _ hg')
    rw [releaseGlobalList, hp]
    refine ⟨?_, ?_⟩
    · simp only [hb, List.map_cons, iht]
      simp [GlobalLimiter.tokens, GlobalCounter.releasePackets, GlobalCounter.releaseBytes, Prod.mk_sub_mk]
    · intro g' hg'
      rcases List.mem_cons.1 hg' with rfl | hg'
      · exact ⟨rfl, rfl⟩
      · exact ihc g' hg'

/-- `set_advance(1, size)` over reservations of one packet of `size`
    bytes: nothing given back, and no reservation left. -/
theorem setAdvanceList_reserved {size : Nat} {gs : List GlobalLimiter} (h : ∀ g ∈ gs, g.ReservedOne size) :
    (setAdvanceList 1 size gs).map GlobalLimiter.tokens = gs.map GlobalLimiter.tokens ∧
      ∀ g ∈ setAdvanceList 1 size gs, g.Clear := by
  induction gs with
  | nil => simp [setAdvanceList]
  | cons g gs ih =>
    obtain ⟨hp, hb⟩ := h g List.mem_cons_self
    obtain ⟨iht, ihc⟩ := ih fun g' hg' => h g' (List.mem_cons_of_mem _ hg')
    rw [setAdvanceList, hp]
    refine ⟨?_, ?_⟩
    · simp [hb, iht, GlobalLimiter.tokens]
    · intro g' hg'
      rcases List.mem_cons.1 hg' with rfl | hg'
      · exact ⟨rfl, rfl⟩
      · exact ihc g' hg'

/-- The check loop over limiters without reservations, when one delays:
    once `release_global` runs, the limiters before it have given back what
    they took. -/
theorem checkPacketGlobals_some {size : Nat} {gs gs' : List GlobalLimiter} {a : DatagramLimitAction}
    (hq : ∀ g ∈ gs, g.Clear) (h : checkPacketGlobals size gs = (some a, gs')) :
    (∀ n, a ≠ .advance n) ∧ (releaseGlobalList gs').map GlobalLimiter.tokens = gs.map GlobalLimiter.tokens ∧
      ∀ g ∈ releaseGlobalList gs', g.Clear := by
  induction gs generalizing gs' with
  | nil => simp [checkPacketGlobals] at h
  | cons g gs ih =>
    have hg := hq g List.mem_cons_self
    have hrest : ∀ g' ∈ gs, g'.Clear := fun g' hg' => hq g' (List.mem_cons_of_mem _ hg')
    rcases GlobalCounter.checkPacket_cases g.inner size with hc | ⟨a', hne, hc⟩
    · -- a grant: the limiter reserves, and the rest of the loop delays
      cases hr : checkPacketGlobals size gs with
      | mk r rest =>
        simp only [checkPacketGlobals, hc, hr, Prod.mk.injEq] at h
        obtain ⟨rfl, rfl⟩ := h
        obtain ⟨hne, iht, ihc⟩ := ih hrest hr
        refine ⟨hne, ?_, ?_⟩
        · simp [releaseGlobalList, iht, GlobalLimiter.tokens, GlobalCounter.releasePackets,
            GlobalCounter.releaseBytes]
        · rw [releaseGlobalList]
          intro g' hg'
          rcases List.mem_cons.1 hg' with rfl | hg'
          · exact ⟨rfl, rfl⟩
          · exact ihc g' hg'
    · -- the delay: nothing reserved here, so `release_global` stops
      have hstep : checkPacketGlobals size (g :: gs) =
          (some a', { g with inner := { g.inner with answers := g.inner.answers.tail } } :: gs) := by
        cases a' with
        | advance n => exact absurd rfl (hne n)
        | delayUntil t => simp [checkPacketGlobals, hc]
        | delayFor ms => simp [checkPacketGlobals, hc]
      rw [hstep, Prod.mk.injEq, Option.some.injEq] at h
      obtain ⟨rfl, rfl⟩ := h
      have hrel : releaseGlobalList ({ g with inner := { g.inner with answers := g.inner.answers.tail } } :: gs) =
          { g with inner := { g.inner with answers := g.inner.answers.tail } } :: gs := by
        simp [releaseGlobalList, hg.1]
      rw [hrel]
      refine ⟨hne, by simp [GlobalLimiter.tokens], ?_⟩
      intro g' hg'
      rcases List.mem_cons.1 hg' with rfl | hg'
      · exact hg
      · exact hrest g' hg'

theorem localCheck_eq (d : DatagramLimiter) (t : UInt64) (size : Nat) :
    (if d.localIsSet then d.localLimiter.checkPacket t size else (.advance 1, d.localLimiter)) =
      (if d.localIsSet then (d.localLimiter.checkPacket t size).1 else .advance 1, d.localAt t) := by
  unfold localAt
  split
  · rw [← LocalDatagramLimiter.checkPacket_state]
  · rfl

/-- `check_packet` from a quiet limiter: it passes the packet and reserves
    it, or it delays and charges nothing. -/
theorem checkPacket_cases {d : DatagramLimiter} (hq : d.Quiet) (t : UInt64) (size : Nat) :
    (∃ d', d.checkPacket t size = (.advance 1, d') ∧ Reserving t size d d') ∨
      ∃ a d', (∀ n, a ≠ .advance n) ∧ d.checkPacket t size = (a, d') ∧ Uncharged t d d' := by
  unfold checkPacket
  rw [localCheck_eq]
  generalize (if d.localIsSet then (d.localLimiter.checkPacket t size).1 else .advance 1) = la
  dsimp only
  cases la with
  | advance n =>
    -- the local limiter passed: the global limiters decide
    cases hg : checkPacketGlobals size d.global with
    | mk r gs =>
      cases r with
      | none =>
        obtain ⟨ht, hr⟩ := checkPacketGlobals_none hq hg
        exact .inl ⟨_, rfl, ⟨rfl, rfl, rfl, ht, hr⟩⟩
      | some a =>
        obtain ⟨hne, ht, hc⟩ := checkPacketGlobals_some hq hg
        exact .inr ⟨a, _, hne, rfl, ⟨rfl, rfl, rfl, ht, hc⟩⟩
  | delayUntil t' => exact .inr ⟨.delayUntil t', _, (fun n h => nomatch h), rfl, ⟨rfl, rfl, rfl, rfl, hq⟩⟩
  | delayFor ms => exact .inr ⟨.delayFor ms, _, (fun n h => nomatch h), rfl, ⟨rfl, rfl, rfl, rfl, hq⟩⟩

/-- `release_global` after a check that passed charges nothing. -/
theorem Reserving.releaseGlobal {t : UInt64} {size : Nat} {d d' : DatagramLimiter} (h : Reserving t size d d') :
    Uncharged t d d'.releaseGlobal := by
  obtain ⟨ht, hc⟩ := releaseGlobalList_reserved h.reserved
  refine ⟨h.isSet, h.localIsSet, h.localLimiter, ?_, hc⟩
  -- what each limiter reserved, and then gave back, is the same packet
  have hback : d'.global.map (fun g => g.tokens - ((1 : Int), (size : Int))) =
      (d'.global.map GlobalLimiter.tokens).map (· - ((1 : Int), (size : Int))) := by
    rw [List.map_map]
    rfl
  rw [DatagramLimiter.releaseGlobal, ht, hback, h.tokens, List.map_map]
  refine List.map_congr_left fun g _ => ?_
  exact add_sub_cancel_right g.tokens ((1 : Int), (size : Int))

/-- `set_advance(1, size)` after a check that passed charges the packet. -/
theorem Reserving.setAdvance {t : UInt64} {size : Nat} {d d' : DatagramLimiter} (h : Reserving t size d d') :
    Charged t size d (d'.setAdvance 1 size) := by
  obtain ⟨ht, hc⟩ := setAdvanceList_reserved h.reserved
  refine ⟨h.isSet, h.localIsSet, ?_, by rw [DatagramLimiter.setAdvance, ht, h.tokens], hc⟩
  simp only [DatagramLimiter.setAdvance, h.localIsSet, h.localLimiter]
  split <;> simp [localAt, *]

/-- Charges one after another add up. -/
theorem map_tokens_trans {gs₀ gs gs' : List GlobalLimiter} {c c' : Int × Int}
    (h : gs.map GlobalLimiter.tokens = gs₀.map fun g => g.tokens + c)
    (h' : gs'.map GlobalLimiter.tokens = gs.map fun g => g.tokens + c') :
    gs'.map GlobalLimiter.tokens = gs₀.map fun g => g.tokens + (c + c') := by
  have hsplit : (gs.map fun g => g.tokens + c') = (gs.map GlobalLimiter.tokens).map (· + c') := by
    rw [List.map_map]
    rfl
  rw [h', hsplit, h, List.map_map]
  refine List.map_congr_left fun g _ => ?_
  exact add_assoc g.tokens c c'

theorem quiet_withLocal (shiftMillis : UInt8) (maxPackets maxBytes : Nat) (random : UInt64) :
    (withLocal shiftMillis maxPackets maxBytes random).Quiet := by
  simp [Quiet, withLocal]

end DatagramLimiter

/-! ## The socket -/

/-- `udp::Transmit`, by what `try_send` reads of it. -/
structure Transmit where
  contents : List UInt8
  deriving Repr, DecidableEq

/-- The inner socket. -/
structure InnerSocket where
  answers : List Bool
  sent : List Transmit
  deriving Repr, DecidableEq

namespace InnerSocket

/-- The inner socket's `try_send`. -/
def trySend (i : InnerSocket) (t : Transmit) : Bool × InnerSocket :=
  match i.answers with
  | [] => (true, { i with sent := i.sent ++ [t] })
  | true :: as => (true, { answers := as, sent := i.sent ++ [t] })
  | false :: as => (false, { i with answers := as })

/-- Whether the next `try_send` succeeds. -/
def accepts (i : InnerSocket) : Bool := i.answers.headD true

theorem trySend_eq (i : InnerSocket) (t : Transmit) :
    i.trySend t = (i.accepts, ⟨i.answers.tail, if i.accepts then i.sent ++ [t] else i.sent⟩) := by
  unfold trySend accepts
  split <;> simp_all

theorem trySend_true {i i' : InnerSocket} {t : Transmit} (h : i.trySend t = (true, i')) :
    i'.sent = i.sent ++ [t] := by
  rw [trySend_eq, Prod.mk.injEq] at h
  obtain ⟨hacc, rfl⟩ := h
  simp [hacc]

theorem trySend_false {i i' : InnerSocket} {t : Transmit} (h : i.trySend t = (false, i')) : i'.sent = i.sent := by
  rw [trySend_eq, Prod.mk.injEq] at h
  obtain ⟨hacc, rfl⟩ := h
  simp [hacc]

/-- The inner socket accepts every datagram. -/
def AcceptsAll (i : InnerSocket) : Prop := ∀ b ∈ i.answers, b = true

theorem AcceptsAll.trySend {i : InnerSocket} (h : i.AcceptsAll) (t : Transmit) :
    ∃ i', i.trySend t = (true, i') ∧ i'.AcceptsAll := by
  have hacc : i.accepts = true := by
    unfold accepts
    cases hi : i.answers with
    | nil => rfl
    | cons b bs => exact h b (by simp [hi])
  refine ⟨_, by rw [trySend_eq, hacc], fun b hb => h b (List.mem_of_mem_tail hb)⟩

end InnerSocket

/-- The send counters of the stats. -/
structure SendStats where
  packets : Nat
  bytes : Nat
  deriving Repr, DecidableEq

namespace SendStats

/-- `add_send_packet`. -/
def addSendPacket (st : SendStats) : SendStats := { st with packets := st.packets + 1 }

/-- `add_send_bytes`. -/
def addSendBytes (st : SendStats) (size : Nat) : SendStats := { st with bytes := st.bytes + size }

/-- The stats once the datagrams `xs` are counted. -/
def addSent (st : SendStats) (xs : List Transmit) : SendStats :=
  ⟨st.packets + xs.length, st.bytes + (xs.map (·.contents.length)).sum⟩

@[simp] theorem addSent_nil (st : SendStats) : st.addSent [] = st := rfl

theorem addSent_append (st : SendStats) (xs ys : List Transmit) :
    st.addSent (xs ++ ys) = (st.addSent xs).addSent ys := by
  simp [addSent, Nat.add_assoc]

theorem addSend_eq_addSent (st : SendStats) (t : Transmit) :
    (st.addSendPacket).addSendBytes t.contents.length = st.addSent [t] := rfl

end SendStats

/-- `LimitedSendLimitState`: the deadline of `delay`, whether the poller
    waits for it, and the limiter. -/
structure LimitedSendLimitState where
  delay : Nat
  pollDelay : Bool
  limit : DatagramLimiter
  deriving Repr, DecidableEq

/-- The errors of `try_send`: the inner socket's, passed on, and the
    limiter's `WouldBlock`. -/
inductive SendError where
  | inner
  | wouldBlock (msg : String)
  deriving Repr, DecidableEq

/-- `LimitedUdpSocket`, its send side. -/
structure LimitedUdpSocket where
  inner : InnerSocket
  limit : Option LimitedSendLimitState
  stats : SendStats
  deriving Repr, DecidableEq

namespace LimitedUdpSocket

/-- `LimitedUdpSocket::new`. -/
def new (inner : InnerSocket) (stats : SendStats) : LimitedUdpSocket := ⟨inner, none, stats⟩

/-- `LimitedUdpSocket::local_limited`, its send side. -/
def localLimited (inner : InnerSocket) (shiftMillis : UInt8) (maxSendPackets maxSendBytes : Nat)
    (random : UInt64) (stats : SendStats) : LimitedUdpSocket :=
  ⟨inner, some ⟨0, false, .withLocal shiftMillis maxSendPackets maxSendBytes random⟩, stats⟩

/-- `try_send` at `dur_millis`. -/
def trySend (s : LimitedUdpSocket) (durMillis : UInt64) (transmit : Transmit) :
    Except SendError Unit × LimitedUdpSocket :=
  let len := transmit.contents.length
  match s.limit with
  | some l =>
    match l.limit.checkPacket durMillis len with
    | (.advance _, d) =>
      match s.inner.trySend transmit with
      | (true, inner) =>
        -- the transmit goes to the inner socket a second time
        match inner.trySend transmit with
        | (true, inner) =>
          (.ok (), { inner, limit := some { l with limit := d.setAdvance 1 len },
                     stats := (s.stats.addSendPacket).addSendBytes len })
        | (false, inner) => (.error .inner, { s with inner, limit := some { l with limit := d } })
      | (false, inner) => (.error .inner, { s with inner, limit := some { l with limit := d.releaseGlobal } })
    | (.delayUntil t, d) =>
      (.error (.wouldBlock "delayed by rate limiter"),
        { s with limit := some { delay := t, pollDelay := true, limit := d } })
    | (.delayFor ms, d) =>
      (.error (.wouldBlock "delayed by rate limiter"),
        { s with limit := some { delay := durMillis.toNat + ms.toNat, pollDelay := true, limit := d } })
  | none =>
    match s.inner.trySend transmit with
    | (true, inner) => (.ok (), { s with inner, stats := (s.stats.addSendPacket).addSendBytes len })
    | (false, inner) => (.error .inner, { s with inner })

/-- `LimitedUdpPoller::poll_writable` at `now`, given the inner poller's
    readiness: a pending delay holds the poller until its deadline, and is
    then cleared. -/
def pollWritable (s : LimitedUdpSocket) (now : Nat) (innerReady : Bool) : Bool × LimitedUdpSocket :=
  match s.limit with
  | some l =>
    if l.pollDelay then
      if l.delay ≤ now then (true, { s with limit := some { l with pollDelay := false } }) else (false, s)
    else (innerReady, s)
  | none => (innerReady, s)

/-! ## One call -/

variable {s : LimitedUdpSocket} {l : LimitedSendLimitState}

/-- The four outcomes of `try_send` on a limited socket whose limiter holds
    no reservation. -/
theorem trySend_limited_cases (hl : s.limit = some l) (hq : l.limit.Quiet) (t : UInt64) (x : Transmit) :
    -- delayed by the limiter: nothing passed on, nothing charged, and the
    -- poller waits
    (∃ deadline d, s.trySend t x = (.error (.wouldBlock "delayed by rate limiter"),
        { s with limit := some ⟨deadline, true, d⟩ }) ∧ DatagramLimiter.Uncharged t l.limit d) ∨
    -- refused by the inner socket: the reservation is given back
    (∃ i d, s.inner.trySend x = (false, i) ∧
        s.trySend t x = (.error .inner, { s with inner := i, limit := some { l with limit := d } }) ∧
        DatagramLimiter.Uncharged t l.limit d) ∨
    -- accepted, then accepted again: one packet charged and counted
    (∃ i i' d, s.inner.trySend x = (true, i) ∧ i.trySend x = (true, i') ∧
        s.trySend t x = (.ok (), ⟨i', some { l with limit := d }, s.stats.addSent [x]⟩) ∧
        DatagramLimiter.Charged t x.contents.length l.limit d) ∨
    -- accepted, then refused: the error, with the reservation kept
    (∃ i i' d, s.inner.trySend x = (true, i) ∧ i.trySend x = (false, i') ∧
        s.trySend t x = (.error .inner, { s with inner := i', limit := some { l with limit := d } }) ∧
        DatagramLimiter.Reserving t x.contents.length l.limit d) := by
  rcases DatagramLimiter.checkPacket_cases hq t x.contents.length with ⟨d, hc, hr⟩ | ⟨a, d, hne, hc, hu⟩
  · -- the limiter passed the packet: the inner socket decides
    rcases h₁ : s.inner.trySend x with ⟨_ | _, i⟩
    · exact .inr (.inl ⟨i, d.releaseGlobal, rfl, by simp [trySend, hl, hc, h₁], hr.releaseGlobal⟩)
    · rcases h₂ : i.trySend x with ⟨_ | _, i'⟩
      · exact .inr (.inr (.inr ⟨i, i', d, rfl, h₂, by simp [trySend, hl, hc, h₁, h₂], hr⟩))
      · exact .inr (.inr (.inl ⟨i, i', d.setAdvance 1 x.contents.length, rfl, h₂,
          by simp [trySend, hl, hc, h₁, h₂, SendStats.addSend_eq_addSent], hr.setAdvance⟩))
  · cases a with
    | advance n => exact absurd rfl (hne n)
    | delayUntil t' => exact .inl ⟨t', d, by simp [trySend, hl, hc], hu⟩
    | delayFor ms => exact .inl ⟨t.toNat + ms.toNat, d, by simp [trySend, hl, hc], hu⟩

/-- A `try_send` on a limited socket that returns `Ok` has given the
    transmit to the inner socket twice, while the limiter charged one packet
    and the stats count one. -/
theorem trySend_limited_passes_twice (hl : s.limit = some l) (hq : l.limit.Quiet) {t : UInt64} {x : Transmit}
    (hok : (s.trySend t x).1 = .ok ()) :
    (s.trySend t x).2.inner.sent = s.inner.sent ++ [x, x] ∧ (s.trySend t x).2.stats = s.stats.addSent [x] ∧
      ∃ d, (s.trySend t x).2.limit = some { l with limit := d } ∧
        DatagramLimiter.Charged t x.contents.length l.limit d := by
  rcases trySend_limited_cases hl hq t x with
    ⟨_, _, h, -⟩ | ⟨_, _, -, h, -⟩ | ⟨i, i', d, h₁, h₂, h, hch⟩ | ⟨_, _, _, -, -, h, -⟩
  · rw [h] at hok
    cases hok
  · rw [h] at hok
    cases hok
  · rw [h]
    refine ⟨?_, rfl, d, rfl, hch⟩
    rw [InnerSocket.trySend_true h₂, InnerSocket.trySend_true h₁, List.append_assoc]
    rfl
  · rw [h] at hok
    cases hok

/-- A socket from `local_limited` whose inner socket accepts everything:
    a one-byte datagram sent at time 0 reaches the inner socket twice. -/
theorem trySend_limited_passes_twice_oneByte :
    ((localLimited ⟨[], []⟩ 10 10 10000 0 ⟨0, 0⟩).trySend 0 ⟨[7]⟩).2.inner.sent = [⟨[7]⟩, ⟨[7]⟩] ∧
      ((localLimited ⟨[], []⟩ 10 10 10000 0 ⟨0, 0⟩).trySend 0 ⟨[7]⟩).2.stats = ⟨1, 1⟩ :=
  have h := trySend_limited_passes_twice (s := localLimited ⟨[], []⟩ 10 10 10000 0 ⟨0, 0⟩)
    (l := ⟨0, false, .withLocal 10 10 10000 0⟩) rfl (DatagramLimiter.quiet_withLocal 10 10 10000 0)
    (t := 0) (x := ⟨[7]⟩) rfl
  ⟨h.1, h.2.1⟩

/-- A `try_send` on a limited socket that fails before the inner socket
    accepted the transmit charges nothing; one whose inner socket accepted it
    and then refused it again returns the error with the reservation kept. -/
theorem trySend_limited_error (hl : s.limit = some l) (hq : l.limit.Quiet) {t : UInt64} {x : Transmit}
    (herr : (s.trySend t x).1 ≠ .ok ()) :
    ((s.trySend t x).2.inner.sent = s.inner.sent ∧ (s.trySend t x).2.stats = s.stats ∧
        ∃ l', (s.trySend t x).2.limit = some l' ∧ DatagramLimiter.Uncharged t l.limit l'.limit) ∨
      ((s.trySend t x).1 = .error .inner ∧ (s.trySend t x).2.inner.sent = s.inner.sent ++ [x] ∧
        (s.trySend t x).2.stats = s.stats ∧
        ∃ d, (s.trySend t x).2.limit = some { l with limit := d } ∧
          DatagramLimiter.Reserving t x.contents.length l.limit d) := by
  rcases trySend_limited_cases hl hq t x with
    ⟨_, d, h, hu⟩ | ⟨i, d, h₁, h, hu⟩ | ⟨_, _, _, -, -, h, -⟩ | ⟨i, i', d, h₁, h₂, h, hr⟩
  · rw [h]
    exact .inl ⟨rfl, rfl, _, rfl, hu⟩
  · rw [h]
    exact .inl ⟨InnerSocket.trySend_false h₁, rfl, _, rfl, hu⟩
  · rw [h] at herr
    exact absurd rfl herr
  · rw [h]
    exact .inr ⟨rfl, by rw [InnerSocket.trySend_false h₂, InnerSocket.trySend_true h₁], rfl, d, rfl, hr⟩

/-- A socket from `local_limited` whose inner socket takes the first copy of
    a datagram and refuses the second. -/
theorem trySend_limited_error_second_refused :
    ∃ (s : LimitedUdpSocket) (l : LimitedSendLimitState) (t : UInt64) (x : Transmit),
      s.limit = some l ∧ l.limit.Quiet ∧ (s.trySend t x).1 ≠ .ok () ∧
      (((s.trySend t x).2.inner.sent = s.inner.sent ∧ (s.trySend t x).2.stats = s.stats ∧
          ∃ l', (s.trySend t x).2.limit = some l' ∧ DatagramLimiter.Uncharged t l.limit l'.limit) ∨
        ((s.trySend t x).1 = .error .inner ∧ (s.trySend t x).2.inner.sent = s.inner.sent ++ [x] ∧
          (s.trySend t x).2.stats = s.stats ∧
          ∃ d, (s.trySend t x).2.limit = some { l with limit := d } ∧
            DatagramLimiter.Reserving t x.contents.length l.limit d)) :=
  ⟨localLimited ⟨[true, false], []⟩ 10 10 10000 0 ⟨0, 0⟩, ⟨0, false, .withLocal 10 10 10000 0⟩, 0, ⟨[7]⟩, rfl,
    DatagramLimiter.quiet_withLocal 10 10 10000 0, by decide,
    trySend_limited_error rfl (DatagramLimiter.quiet_withLocal 10 10 10000 0) (by decide)⟩

/-! ## Runs -/

/-- `try_send` calls one after another: their results and the socket at the
    end. -/
def runSends (s : LimitedUdpSocket) (calls : List (UInt64 × Transmit)) :
    List (Except SendError Unit) × LimitedUdpSocket :=
  calls.foldl (fun (rs, s) c => (rs ++ [(s.trySend c.1 c.2).1], (s.trySend c.1 c.2).2)) ([], s)

/-- The transmits of the calls that returned `Ok`. -/
def okTransmits (calls : List (UInt64 × Transmit)) (rs : List (Except SendError Unit)) : List Transmit :=
  ((calls.zip rs).filter fun p => p.2.isOk).map (·.1.2)

/-- The tokens of the datagrams `xs`: a packet and its bytes each. -/
def sentTokens (xs : List Transmit) : Int × Int := ((xs.length : Int), ((xs.map (·.contents.length)).sum : Int))

theorem runSends_append_singleton (s : LimitedUdpSocket) (calls : List (UInt64 × Transmit)) (c : UInt64 × Transmit) :
    s.runSends (calls ++ [c]) =
      ((s.runSends calls).1 ++ [((s.runSends calls).2.trySend c.1 c.2).1],
        ((s.runSends calls).2.trySend c.1 c.2).2) := by
  simp [runSends, List.foldl_append]

theorem okTransmits_append_singleton {calls : List (UInt64 × Transmit)} {rs : List (Except SendError Unit)}
    (hlen : rs.length = calls.length) (c : UInt64 × Transmit) (r : Except SendError Unit) :
    okTransmits (calls ++ [c]) (rs ++ [r]) = okTransmits calls rs ++ if r.isOk then [c.2] else [] := by
  simp only [okTransmits, List.zip_append hlen.symm, List.zip_cons_cons, List.zip_nil_left, List.filter_append,
    List.map_append]
  split <;> simp [*]

theorem sentTokens_append_singleton (xs : List Transmit) (x : Transmit) :
    sentTokens (xs ++ [x]) = sentTokens xs + ((1 : Int), (x.contents.length : Int)) := by
  simp [sentTokens, Prod.mk_add_mk]

/-- What a run of calls leaves on a limited socket whose inner socket
    accepts every datagram: each call passed or was delayed, the limiter
    holds no reservation and charged exactly the calls that passed, and the
    inner socket was given each of them twice while the stats count it
    once. -/
structure SentTwice (s₀ : LimitedUdpSocket) (l₀ : LimitedSendLimitState) (calls : List (UInt64 × Transmit))
    (rs : List (Except SendError Unit)) (s : LimitedUdpSocket) : Prop where
  length_eq : rs.length = calls.length
  results : ∀ r ∈ rs, r = .ok () ∨ r = .error (.wouldBlock "delayed by rate limiter")
  acceptsAll : s.inner.AcceptsAll
  limit : ∃ l, s.limit = some l ∧ l.limit.Quiet ∧
    l.limit.global.map GlobalLimiter.tokens = l₀.limit.global.map fun g => g.tokens + sentTokens (okTransmits calls rs)
  sent : s.inner.sent = s₀.inner.sent ++ (okTransmits calls rs).flatMap fun x => [x, x]
  stats : s.stats = s₀.stats.addSent (okTransmits calls rs)

/-- The step: one more call keeps `SentTwice`. -/
theorem SentTwice.append_singleton {s₀ : LimitedUdpSocket} {l₀ : LimitedSendLimitState}
    {calls : List (UInt64 × Transmit)} {rs : List (Except SendError Unit)} (h : SentTwice s₀ l₀ calls rs s)
    (c : UInt64 × Transmit) :
    SentTwice s₀ l₀ (calls ++ [c]) (rs ++ [(s.trySend c.1 c.2).1]) (s.trySend c.1 c.2).2 := by
  obtain ⟨l, hl, hq, htok⟩ := h.limit
  have hoks := okTransmits_append_singleton h.length_eq c (s.trySend c.1 c.2).1
  obtain ⟨i₀, hi₀, hacc₀⟩ := h.acceptsAll.trySend c.2
  rcases trySend_limited_cases hl hq c.1 c.2 with
    ⟨dl, d, heq, hu⟩ | ⟨i, d, h₁, -, -⟩ | ⟨i, i', d, h₁, h₂, heq, hch⟩ | ⟨i, i', d, h₁, h₂, -, -⟩
  · -- delayed: nothing passed on, nothing charged
    rw [heq] at hoks ⊢
    simp only [Except.isOk, Except.toBool, if_false, Bool.false_eq_true, List.append_nil] at hoks
    refine ⟨by simp [h.length_eq], ?_, h.acceptsAll, ⟨_, rfl, hu.quiet, ?_⟩, ?_, ?_⟩
    · simpa [or_imp, forall_and] using h.results
    · rw [hoks, hu.tokens, htok]
    · rw [hoks, ← h.sent]
    · rw [hoks, ← h.stats]
  · -- the inner socket accepts every datagram
    rw [hi₀] at h₁
    cases h₁
  · -- passed: charged once, given to the inner socket twice
    rw [hi₀, Prod.mk.injEq] at h₁
    obtain ⟨-, rfl⟩ := h₁
    obtain ⟨i₁, hi₁, hacc₁⟩ := hacc₀.trySend c.2
    rw [hi₁, Prod.mk.injEq] at h₂
    obtain ⟨-, rfl⟩ := h₂
    rw [heq] at hoks ⊢
    simp only [Except.isOk, Except.toBool, if_true] at hoks
    refine ⟨by simp [h.length_eq], ?_, hacc₁, ⟨_, rfl, hch.quiet, ?_⟩, ?_, ?_⟩
    · simpa [or_imp, forall_and] using h.results
    · rw [hoks, sentTokens_append_singleton]
      exact DatagramLimiter.map_tokens_trans htok hch.tokens
    · rw [hoks, InnerSocket.trySend_true hi₁, InnerSocket.trySend_true hi₀, h.sent]
      simp
    · rw [hoks, SendStats.addSent_append, ← h.stats]
  · -- the inner socket accepts the second send too
    rw [hi₀, Prod.mk.injEq] at h₁
    obtain ⟨-, rfl⟩ := h₁
    obtain ⟨i₁, hi₁, -⟩ := hacc₀.trySend c.2
    rw [hi₁] at h₂
    cases h₂

/-- Over every run on a limited socket whose limiter holds no reservation
    and whose inner socket accepts every datagram, `SentTwice` holds: the
    inner socket gets two copies of the transmit of every call that returns
    `Ok`, and the stats count one. -/
theorem runSends_limited_accepting (hl : s.limit = some l) (hq : l.limit.Quiet) (hacc : s.inner.AcceptsAll)
    (calls : List (UInt64 × Transmit)) : SentTwice s l calls (s.runSends calls).1 (s.runSends calls).2 := by
  induction calls using List.reverseRecOn with
  | nil =>
    refine ⟨rfl, by simp [runSends], hacc, ⟨l, hl, hq, ?_⟩, by simp [runSends, okTransmits],
      by simp [runSends, okTransmits]⟩
    simp [runSends, okTransmits, sentTokens]
  | append_singleton calls c ih =>
    rw [runSends_append_singleton]
    exact ih.append_singleton c

end LimitedUdpSocket

end G3Proxy
