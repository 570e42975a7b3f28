/-
  The copy future of g3-io-ext (`io/limited_copy.rs`): a buffer between a
  reader and a writer, with a read cursor `r_off` and a write cursor
  `w_off`.

  * `pollFillBuf` reads into the buffer after `r_off`; `pollWriteBuf`
    writes the bytes between the cursors, and when the writer is not ready
    moves a short tail to the front and reads more; `copyLoop` is the loop
    of `poll_copy`, given as three blocks (`readStep`, `writeLoop`,
    `finishStep`) sequenced with `Machine.Flow`.
  * The loops of `poll_copy` are unbounded in the code; the model gives
    them fuel and answers `none` when it runs out.
  * `total_read` grows by the whole filled length of the buffer, not by the
    bytes just read, so a read made while bytes wait in the buffer counts
    them again: `readSize_counts_waiting_bytes`.
-/
import G3Proxy.Io.Stream
import G3Proxy.Core.Machine

namespace G3Proxy

open AsyncIo Machine

/-- `LimitedCopyConfig`. -/
structure LimitedCopyConfig where
  bufferSize : Nat
  yieldSize : Nat
  deriving Repr, DecidableEq

namespace LimitedCopyConfig

/-- `LimitedCopyConfig::default`: 16 KiB of buffer, a yield after 1 MiB. -/
def default : LimitedCopyConfig := ⟨16 * 1024, 1024 * 1024⟩

/-- `set_buffer_size`: at least 4 KiB. -/
def setBufferSize (c : LimitedCopyConfig) (bufferSize : Nat) : LimitedCopyConfig :=
  { c with bufferSize := max bufferSize (4 * 1024) }

/-- `set_yield_size`: at least 256 KiB. -/
def setYieldSize (c : LimitedCopyConfig) (yieldSize : Nat) : LimitedCopyConfig :=
  { c with yieldSize := max yieldSize (256 * 1024) }

end LimitedCopyConfig

/-- `LimitedCopyError`. -/
inductive LimitedCopyError where
  | readFailed (e : IoError)
  | writeFailed (e : IoError)
  deriving Repr, DecidableEq

/-- `LimitedCopyBuffer`.  Of the buffer's bytes the model keeps those below
    `r_off`, the only ones the code reads back; `capacity` is its length. -/
structure LimitedCopyBuffer where
  readDone : Bool
  buf : List UInt8
  capacity : Nat
  yieldSize : Nat
  rOff : Nat
  wOff : Nat
  totalRead : Nat
  totalWrite : Nat
  needFlush : Bool
  active : Bool
  deriving Repr, DecidableEq

/-- The result of a poll of the copy. -/
abbrev CopyPoll := Poll (Except LimitedCopyError Nat)

namespace LimitedCopyBuffer

/-- `LimitedCopyBuffer::new`. -/
def new (config : LimitedCopyConfig) : LimitedCopyBuffer :=
  ⟨false, [], config.bufferSize, config.yieldSize, 0, 0, 0, 0, false, false⟩

/-- `LimitedCopyBuffer::with_data`, for a vector of capacity `capacity`. -/
def withData (config : LimitedCopyConfig) (data : List UInt8) (capacity : Nat) :
    LimitedCopyBuffer :=
  let size := if capacity < config.bufferSize then config.bufferSize else capacity
  ⟨false, data, size, config.yieldSize, data.length, 0, 0, 0, false, true⟩

/-- The bytes between the cursors. -/
def pending (b : LimitedCopyBuffer) : List UInt8 :=
  (b.buf.drop b.wOff).take (b.rOff - b.wOff)

/-- `poll_fill_buf`: read into the buffer after `r_off`; a read of nothing
    is the end of the stream. -/
def pollFillBuf (b : LimitedCopyBuffer) (r : Source) :
    Poll (Except IoError Unit) × LimitedCopyBuffer × Source :=
  match r.read (b.capacity - b.rOff) with
  | (.ready (.ok d), r) =>
    let filledLen := b.rOff + d.length
    let b := { b with buf := b.buf.take b.rOff ++ d, totalRead := b.totalRead + filledLen }
    if b.rOff = filledLen then (.ready (.ok ()), { b with readDone := true }, r)
    else (.ready (.ok ()), { b with rOff := filledLen, active := true }, r)
  | (.ready (.error e), r) => (.ready (.error e), b, r)
  | (.pending, r) => (.pending, b, r)

/-- `poll_write_buf`. -/
def pollWriteBuf (b : LimitedCopyBuffer) (r : Source) (w : Sink) :
    CopyPoll × LimitedCopyBuffer × Source × Sink :=
  match w.write b.pending with
  | (.pending, w) =>
    -- top the buffer up, first moving a short tail to the front
    if !b.readDone && b.rOff < b.capacity then
      let left := b.rOff - b.wOff
      let b :=
        if left < b.wOff then { b with buf := (b.buf.drop b.wOff).take left, wOff := 0, rOff := left }
        else b
      match pollFillBuf b r with
      | (.ready (.error e), b, r) => (.ready (.error (.readFailed e)), b, r, w)
      | (_, b, r) => (.pending, b, r, w)
    else (.pending, b, r, w)
  | (.ready (.error e), w) => (.ready (.error (.writeFailed e)), b, r, w)
  | (.ready (.ok n), w) =>
    if n = 0 then
      (.ready (.error (.writeFailed ⟨.writeZero, "write zero byte into writer"⟩)), b, r, w)
    else
      (.ready (.ok n), { b with wOff := b.wOff + n, totalWrite := b.totalWrite + n,
                                needFlush := true, active := true }, r, w)

end LimitedCopyBuffer

/-- The state of one poll of `poll_copy`: the buffer, the two ends, and the
    bytes written in this poll. -/
structure CopyRound where
  buf : LimitedCopyBuffer
  reader : Source
  writer : Sink
  copyThisRound : Nat

namespace CopyRound

/-- `poll_flush` of the writer, then `k` on success. -/
def flushThen (s : CopyRound) (k : CopyRound → Option (Flow CopyRound CopyPoll)) :
    Option (Flow CopyRound CopyPoll) :=
  match s.writer.flush with
  | (.pending, w) => some (.exit .pending { s with writer := w })
  | (.ready (.error e), w) => some (.exit (.ready (.error (.writeFailed e))) { s with writer := w })
  | (.ready (.ok ()), w) => k { s with writer := w }

/-- The read at the top of the loop of `poll_copy`. -/
def readStep (s : CopyRound) : Option (Flow CopyRound CopyPoll) :=
  if !s.buf.readDone then
    let b := if s.buf.wOff = s.buf.rOff then { s.buf with wOff := 0, rOff := 0 } else s.buf
    if b.rOff < b.capacity then
      match b.pollFillBuf s.reader with
      | (.ready (.ok ()), b, r) => some (.next { s with buf := b, reader := r })
      | (.ready (.error e), b, r) =>
        some (.exit (.ready (.error (.readFailed e))) { s with buf := b, reader := r })
      | (.pending, b, r) =>
        let s := { s with buf := b, reader := r }
        if b.wOff ≥ b.rOff then
          -- nothing to write: flush what was written, then wait
          if b.needFlush then
            s.flushThen fun s => some (.exit .pending { s with buf := { s.buf with needFlush := false } })
          else some (.exit .pending s)
        else some (.next s)
    else some (.next { s with buf := b })
  else some (.next s)

/-- `while self.w_off < self.r_off`: write until the buffer is empty, the
    writer is not ready, or it fails. -/
def writeLoop : Nat → CopyRound → Option (Flow CopyRound CopyPoll)
  | 0, _ => none
  | fuel + 1, s =>
    if s.buf.wOff < s.buf.rOff then
      match s.buf.pollWriteBuf s.reader s.writer with
      | (.ready (.ok i), b, r, w) =>
        writeLoop fuel { buf := b, reader := r, writer := w, copyThisRound := s.copyThisRound + i }
      | (res, b, r, w) => some (.exit res { s with buf := b, reader := r, writer := w })
    else some (.next s)

/-- The end of a round: yield after `yield_size` bytes, or finish once the
    stream has ended and everything is written. -/
def finishStep (s : CopyRound) : Option (Flow CopyRound CopyPoll) :=
  if s.copyThisRound ≥ s.buf.yieldSize then some (.exit .pending s)
  else if s.buf.readDone ∧ s.buf.wOff = s.buf.rOff then
    if s.buf.needFlush then
      s.flushThen fun s => some (.exit (.ready (.ok s.buf.totalWrite)) s)
    else some (.exit (.ready (.ok s.buf.totalWrite)) s)
  else some (.next s)

/-- The loop of `poll_copy`; `none` when the fuel runs out. -/
def copyLoop : Nat → CopyRound → Option (Flow CopyRound CopyPoll)
  | 0, _ => none
  | fuel + 1, s =>
    Flow.andThen (Flow.andThen (readStep s) (writeLoop fuel)) fun s =>
      Flow.andThen (finishStep s) (copyLoop fuel)

end CopyRound

/-- `LimitedCopy`: the buffer and the two ends. -/
structure LimitedCopy where
  reader : Source
  writer : Sink
  buf : LimitedCopyBuffer

namespace LimitedCopy

/-- `LimitedCopy::new`. -/
def new (reader : Source) (writer : Sink) (config : LimitedCopyConfig) : LimitedCopy :=
  ⟨reader, writer, .new config⟩

/-- `LimitedCopy::with_data`. -/
def withData (reader : Source) (writer : Sink) (config : LimitedCopyConfig) (data : List UInt8)
    (capacity : Nat) : LimitedCopy :=
  ⟨reader, writer, .withData config data capacity⟩

/-- `read_size`. -/
def readSize (c : LimitedCopy) : Nat := c.buf.totalRead

/-- `copied_size`. -/
def copiedSize (c : LimitedCopy) : Nat := c.buf.totalWrite

/-- `finished`. -/
def finished (c : LimitedCopy) : Bool := c.buf.readDone && c.buf.rOff = c.buf.wOff

/-- `Future::poll`, with `fuel` rounds of the loop; `none` when they run out. -/
def poll (fuel : Nat) (c : LimitedCopy) : Option (CopyPoll × LimitedCopy) :=
  match CopyRound.copyLoop fuel ⟨c.buf, c.reader, c.writer, 0⟩ with
  | some (.exit res s) => some (res, ⟨s.reader, s.writer, s.buf⟩)
  | _ => none

/-- Poll until the future is ready, at most `polls` times. -/
def run (fuel : Nat) : Nat → LimitedCopy → Option (CopyPoll × LimitedCopy)
  | 0, c => some (.pending, c)
  | polls + 1, c =>
    match poll fuel c with
    | some (.pending, c) => run fuel polls c
    | r => r

/-- A reader that gives one byte and then ends, and a writer that is not
    ready once: the read of the end of the stream, made while the byte waits
    in the buffer, counts it again, so `read_size` is 2 for one byte read. -/
theorem readSize_counts_waiting_bytes :
    ∃ c, run 8 2 (new (.ofSegments [[97]]) (.open_ [.pending]) .default) =
        some (.ready (.ok 1), c) ∧
      c.writer.written = [97] ∧ c.reader.rest = [] ∧ c.copiedSize = 1 ∧ c.readSize = 2 := by
  refine ⟨_, rfl, ?_⟩
  decide

end LimitedCopy

end G3Proxy
