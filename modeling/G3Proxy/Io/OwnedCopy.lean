/-
  `ROwnedLimitedCopy` of g3-io-ext (`io/limited_copy.rs`): the copy of
  `LimitedCopy` over a reader the future owns, of any type.

  `poll_fill_buf`, `poll_write_buf` and `poll_copy` are methods of
  `LimitedCopyBuffer`, generic in the reader.  `Io.LimitedCopy` gives them
  at a `Source`; here they take the reader's `poll_read` as a parameter
  (`ReadFn`), which may panic, and `ROwnedLimitedCopy` is the future built on
  them.  At a `Source` they are the functions of `Io.LimitedCopy`
  (`pollFillBufWith_source`, `pollWriteBufWith_source`,
  `copyLoopWith_source`), so both futures are one model of `poll_copy`.
-/
import G3Proxy.Io.LimitedCopy

namespace G3Proxy

open AsyncIo Machine

/-- `poll_read` of a reader of type `ρ` into `space` free bytes: the bytes
    read (none at the end of the stream), and the reader after; `none` is a
    panic. -/
abbrev ReadFn (ρ : Type) := ρ → Nat → Option (Poll (Except IoError (List UInt8)) × ρ)

/-- `poll_read` of a `Source`, which never panics. -/
def Source.readFn : ReadFn Source := fun r space => some (r.read space)

namespace LimitedCopyBuffer

variable {ρ : Type} (read : ReadFn ρ)

/-- `poll_fill_buf` over the reader `read`. -/
def pollFillBufWith (b : LimitedCopyBuffer) (r : ρ) :
    Option (Poll (Except IoError Unit) × LimitedCopyBuffer × ρ) :=
  (read r (b.capacity - b.rOff)).map fun
    | (.ready (.ok d), r) =>
      let filledLen := b.rOff + d.length
      let b := { b with buf := b.buf.take b.rOff ++ d, totalRead := b.totalRead + filledLen }
      if b.rOff = filledLen then (.ready (.ok ()), { b with readDone := true }, r)
      else (.ready (.ok ()), { b with rOff := filledLen, active := true }, r)
    | (.ready (.error e), r) => (.ready (.error e), b, r)
    | (.pending, r) => (.pending, b, r)

/-- `poll_write_buf` over the reader `read`. -/
def pollWriteBufWith (b : LimitedCopyBuffer) (r : ρ) (w : Sink) :
    Option (CopyPoll × LimitedCopyBuffer × ρ × Sink) :=
  match w.write b.pending with
  | (.pending, w) =>
    -- top the buffer up, first moving a short tail to the front
    if !b.readDone && b.rOff < b.capacity then
      let left := b.rOff - b.wOff
      let b :=
        if left < b.wOff then { b with buf := (b.buf.drop b.wOff).take left, wOff := 0, rOff := left }
        else b
      (pollFillBufWith read b r).map fun
        | (.ready (.error e), b, r) => (.ready (.error (.readFailed e)), b, r, w)
        | (_, b, r) => (.pending, b, r, w)
    else some (.pending, b, r, w)
  | (.ready (.error e), w) => some (.ready (.error (.writeFailed e)), b, r, w)
  | (.ready (.ok n), w) =>
    if n = 0 then
      some (.ready (.error (.writeFailed ⟨.writeZero, "write zero byte into writer"⟩)), b, r, w)
    else
      some (.ready (.ok n), { b with wOff := b.wOff + n, totalWrite := b.totalWrite + n,
                                     needFlush := true, active := true }, r, w)

end LimitedCopyBuffer

/-- The state of one poll of `poll_copy` over a reader of type `ρ`. -/
structure OwnedCopyRound (ρ : Type) where
  buf : LimitedCopyBuffer
  reader : ρ
  writer : Sink
  copyThisRound : Nat

namespace OwnedCopyRound

variable {ρ : Type} (read : ReadFn ρ)

/-- `poll_flush` of the writer, then `k` on success. -/
def flushThen (s : OwnedCopyRound ρ) (k : OwnedCopyRound ρ → Option (Flow (OwnedCopyRound ρ) CopyPoll)) :
    Option (Flow (OwnedCopyRound ρ) CopyPoll) :=
  match s.writer.flush with
  | (.pending, w) => some (.exit .pending { s with writer := w })
  | (.ready (.error e), w) => some (.exit (.ready (.error (.writeFailed e))) { s with writer := w })
  | (.ready (.ok ()), w) => k { s with writer := w }

/-- The read at the top of the loop of `poll_copy`. -/
def readStep (s : OwnedCopyRound ρ) : Option (Flow (OwnedCopyRound ρ) CopyPoll) :=
  if !s.buf.readDone then
    let b := if s.buf.wOff = s.buf.rOff then { s.buf with wOff := 0, rOff := 0 } else s.buf
    if b.rOff < b.capacity then
      match b.pollFillBufWith read s.reader with
      | none => none
      | some (.ready (.ok ()), b, r) => some (.next { s with buf := b, reader := r })
      | some (.ready (.error e), b, r) =>
        some (.exit (.ready (.error (.readFailed e))) { s with buf := b, reader := r })
      | some (.pending, b, r) =>
        let s := { s with buf := b, reader := r }
        if b.wOff ≥ b.rOff then
          -- nothing to write: flush what was written, then wait
          if b.needFlush then
            s.flushThen fun s => some (.exit .pending { s with buf := { s.buf with needFlush := false } })
          else some (.exit .pending s)
        else some (.next s)
    else some (.next { s with buf := b })
  else some (.next s)

/-- `while self.w_off < self.r_off`: write until the buffer is empty, the
    writer is not ready, or it fails. -/
def writeLoop : Nat → OwnedCopyRound ρ → Option (Flow (OwnedCopyRound ρ) CopyPoll)
  | 0, _ => none
  | fuel + 1, s =>
    if s.buf.wOff < s.buf.rOff then
      match s.buf.pollWriteBufWith read s.reader s.writer with
      | none => none
      | some (.ready (.ok i), b, r, w) =>
        writeLoop fuel { buf := b, reader := r, writer := w, copyThisRound := s.copyThisRound + i }
      | some (res, b, r, w) => some (.exit res { s with buf := b, reader := r, writer := w })
    else some (.next s)

/-- The end of a round: yield after `yield_size` bytes, or finish once the
    stream has ended and everything is written. -/
def finishStep (s : OwnedCopyRound ρ) : Option (Flow (OwnedCopyRound ρ) CopyPoll) :=
  if s.copyThisRound ≥ s.buf.yieldSize then some (.exit .pending s)
  else if s.buf.readDone ∧ s.buf.wOff = s.buf.rOff then
    if s.buf.needFlush then
      s.flushThen fun s => some (.exit (.ready (.ok s.buf.totalWrite)) s)
    else some (.exit (.ready (.ok s.buf.totalWrite)) s)
  else some (.next s)

/-- The loop of `poll_copy`; `none` when the fuel runs out. -/
def copyLoop : Nat → OwnedCopyRound ρ → Option (Flow (OwnedCopyRound ρ) CopyPoll)
  | 0, _ => none
  | fuel + 1, s =>
    Flow.andThen (Flow.andThen (readStep read s) (writeLoop read fuel)) fun s =>
      Flow.andThen (finishStep s) (copyLoop fuel)

end OwnedCopyRound

/-- `ROwnedLimitedCopy`: the reader it owns, the writer and the buffer. -/
structure ROwnedLimitedCopy (ρ : Type) where
  reader : ρ
  writer : Sink
  buf : LimitedCopyBuffer

namespace ROwnedLimitedCopy

variable {ρ : Type} (read : ReadFn ρ)

/-- `ROwnedLimitedCopy::new`. -/
def new (reader : ρ) (writer : Sink) (config : LimitedCopyConfig) : ROwnedLimitedCopy ρ :=
  ⟨reader, writer, .new config⟩

/-- `no_cached_data`. -/
def noCachedData (c : ROwnedLimitedCopy ρ) : Bool := c.buf.rOff == c.buf.wOff

/-- `finished`. -/
def finished (c : ROwnedLimitedCopy ρ) : Bool := c.buf.readDone && c.noCachedData

/-- `copied_size`. -/
def copiedSize (c : ROwnedLimitedCopy ρ) : Nat := c.buf.totalWrite

/-- `is_active`. -/
def isActive (c : ROwnedLimitedCopy ρ) : Bool := c.buf.active

/-- `Future::poll`, with `fuel` rounds of the loop; `none` when they run out
    or the reader panics. -/
def poll (fuel : Nat) (c : ROwnedLimitedCopy ρ) : Option (CopyPoll × ROwnedLimitedCopy ρ) :=
  match OwnedCopyRound.copyLoop read fuel ⟨c.buf, c.reader, c.writer, 0⟩ with
  | some (.exit res s) => some (res, ⟨s.reader, s.writer, s.buf⟩)
  | _ => none

end ROwnedLimitedCopy

/-! ## At a `Source` -/

namespace LimitedCopyBuffer

theorem pollFillBufWith_source (b : LimitedCopyBuffer) (r : Source) :
    b.pollFillBufWith Source.readFn r = some (b.pollFillBuf r) := by
  unfold pollFillBufWith pollFillBuf Source.readFn
  rcases r.read (b.capacity - b.rOff) with ⟨(_ | _) | _, r'⟩ <;> rfl

theorem pollWriteBufWith_source (b : LimitedCopyBuffer) (r : Source) (w : Sink) :
    b.pollWriteBufWith Source.readFn r w = some (b.pollWriteBuf r w) := by
  unfold pollWriteBufWith pollWriteBuf
  rcases w.write b.pending with ⟨(_ | n) | _, w'⟩
  · rfl
  · dsimp only
    split <;> rfl
  · -- a writer not ready: the top-up read is the `Source` read
    dsimp only
    split
    · rw [pollFillBufWith_source, Option.map_some]
      generalize LimitedCopyBuffer.pollFillBuf _ r = p
      rcases p with ⟨(_ | _) | _, b', r'⟩ <;> rfl
    · rfl

end LimitedCopyBuffer

namespace OwnedCopyRound

/-- A round of `LimitedCopy` as a round over a `Source`. -/
def ofCopyRound (s : CopyRound) : OwnedCopyRound Source := ⟨s.buf, s.reader, s.writer, s.copyThisRound⟩

/-- A block over `Source` rounds that is the block `x` of `LimitedCopy`. -/
def Agrees (y : Option (Flow (OwnedCopyRound Source) CopyPoll)) (x : Option (Flow CopyRound CopyPoll)) :
    Prop :=
  y = x.map (Flow.map ofCopyRound)

theorem flushThen_source {s : CopyRound} {k : CopyRound → Option (Flow CopyRound CopyPoll)}
    {k' : OwnedCopyRound Source → Option (Flow (OwnedCopyRound Source) CopyPoll)}
    (hk : ∀ s, Agrees (k' (ofCopyRound s)) (k s)) :
    Agrees ((ofCopyRound s).flushThen k') (s.flushThen k) := by
  unfold flushThen CopyRound.flushThen
  dsimp only [ofCopyRound]
  rcases s.writer.flush with ⟨(_ | ⟨⟨⟩⟩) | _, w⟩
  · rfl
  · exact hk ⟨s.buf, s.reader, w, s.copyThisRound⟩
  · rfl

theorem readStep_source (s : CopyRound) :
    Agrees (readStep Source.readFn (ofCopyRound s)) (CopyRound.readStep s) := by
  unfold readStep CopyRound.readStep Agrees
  dsimp only [ofCopyRound]
  rcases Bool.eq_false_or_eq_true s.buf.readDone with hd | hd
  · simp only [hd, Bool.not_true, Bool.false_eq_true, ↓reduceIte]
    rfl
  · simp only [hd, Bool.not_false, ↓reduceIte]
    -- the buffer the read fills, and whether it has room
    generalize (if s.buf.wOff = s.buf.rOff then _ else _) = b
    by_cases hc : b.rOff < b.capacity
    · simp only [hc, ↓reduceIte, LimitedCopyBuffer.pollFillBufWith_source]
      generalize b.pollFillBuf s.reader = p
      rcases p with ⟨(_ | ⟨⟨⟩⟩) | _, b', r⟩
      · rfl
      · rfl
      · -- not ready: a flush before waiting when nothing is left to write
        dsimp only
        split_ifs
        · exact flushThen_source (s := ⟨b', r, s.writer, s.copyThisRound⟩) fun _ => rfl
        · rfl
        · rfl
    · simp only [hc, ↓reduceIte]
      rfl

theorem writeLoop_source (fuel : Nat) (s : CopyRound) :
    Agrees (writeLoop Source.readFn fuel (ofCopyRound s)) (CopyRound.writeLoop fuel s) := by
  induction fuel generalizing s with
  | zero => rfl
  | succ fuel ih =>
    unfold writeLoop CopyRound.writeLoop Agrees
    dsimp only [ofCopyRound]
    by_cases hw : s.buf.wOff < s.buf.rOff
    · simp only [hw, ↓reduceIte, LimitedCopyBuffer.pollWriteBufWith_source]
      generalize s.buf.pollWriteBuf s.reader s.writer = p
      rcases p with ⟨(_ | i) | _, b, r, w⟩
      · rfl
      · exact ih ⟨b, r, w, s.copyThisRound + i⟩
      · rfl
    · simp only [hw, ↓reduceIte]
      rfl

theorem finishStep_source (s : CopyRound) :
    Agrees (finishStep (ofCopyRound s)) (CopyRound.finishStep s) := by
  unfold finishStep CopyRound.finishStep Agrees
  dsimp only [ofCopyRound]
  by_cases hy : s.copyThisRound ≥ s.buf.yieldSize
  · simp only [hy, ↓reduceIte]
    rfl
  · by_cases he : s.buf.readDone = true ∧ s.buf.wOff = s.buf.rOff
    · by_cases hf : s.buf.needFlush = true
      · simp only [hy, he, hf, and_self, ↓reduceIte]
        exact flushThen_source (s := s) fun _ => rfl
      · simp only [hy, he, hf, and_self, ↓reduceIte]
        rfl
    · simp only [hy, he, ↓reduceIte]
      rfl

theorem copyLoop_source (fuel : Nat) (s : CopyRound) :
    Agrees (copyLoop Source.readFn fuel (ofCopyRound s)) (CopyRound.copyLoop fuel s) := by
  induction fuel generalizing s with
  | zero => rfl
  | succ fuel ih =>
    -- the end of a round and the rounds after it, then the read and the writes
    have hk : ∀ s', Flow.andThen (finishStep (ofCopyRound s')) (copyLoop Source.readFn fuel) =
        (Flow.andThen (CopyRound.finishStep s') (CopyRound.copyLoop fuel)).map (Flow.map ofCopyRound) := by
      intro s'
      rw [Flow.andThen_map ofCopyRound _ (fun s => ih s), ← finishStep_source]
    unfold copyLoop CopyRound.copyLoop Agrees
    rw [Flow.andThen_map ofCopyRound _ (l := fun s => Flow.andThen (finishStep s) (copyLoop Source.readFn fuel)) hk,
      Flow.andThen_map ofCopyRound _ (fun s => writeLoop_source fuel s), ← readStep_source]

end OwnedCopyRound

/-- `LimitedCopy` is `ROwnedLimitedCopy` over its `Source`. -/
theorem ROwnedLimitedCopy.poll_source (fuel : Nat) (c : LimitedCopy) :
    ROwnedLimitedCopy.poll Source.readFn fuel ⟨c.reader, c.writer, c.buf⟩ =
      (c.poll fuel).map fun (res, c) => (res, ⟨c.reader, c.writer, c.buf⟩) := by
  have h := OwnedCopyRound.copyLoop_source fuel ⟨c.buf, c.reader, c.writer, 0⟩
  unfold OwnedCopyRound.Agrees at h
  unfold ROwnedLimitedCopy.poll LimitedCopy.poll
  rw [show (⟨c.buf, c.reader, c.writer, 0⟩ : OwnedCopyRound Source) =
    OwnedCopyRound.ofCopyRound ⟨c.buf, c.reader, c.writer, 0⟩ from rfl, h]
  rcases CopyRound.copyLoop fuel ⟨c.buf, c.reader, c.writer, 0⟩ with _ | (⟨res, s⟩ | s) <;> rfl

end G3Proxy
