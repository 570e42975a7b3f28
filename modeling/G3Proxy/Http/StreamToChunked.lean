/-
  The chunked encoder of g3-http (`body/stream_to_chunked.rs`): a future
  that reads a buffered reader and writes what it reads to a writer as the
  chunks of a chunked body.

  * Each window the reader shows becomes one chunk.  The header written
    before it (`staticHeader`, written from `staticOffset`) is its size in
    lowercase hexadecimal and a line end, after the line end of the previous
    chunk once some bytes were written; at the end of the stream it is the
    last chunk, with the empty line that ends the trailer section when
    `no_trailer` is set (`staticHeaderFor`).
  * `encodeLoop` is the loop of `poll_encode`, given as blocks sequenced
    with `Machine.Flow`: the fill that starts a chunk or the end of the body
    (`fillStep`), the header write loop (`headerLoop`), the flush at the end
    (`finishStep`), the data write loop (`dataLoop`) and the yield check
    (`endRound`).  The loops are unbounded in the code; the model gives
    them fuel and answers `none` when it runs out, and also for the slice
    past the end of the window that panics.
-/
import G3Proxy.Io.LimitedCopy
import G3Proxy.Core.Hex

namespace G3Proxy

open AsyncIo Machine Hex

/-- `ChunkedEncodeTransferInternal`. -/
structure ChunkedEncodeTransferInternal where
  yieldSize : Nat
  noTrailer : Bool
  thisChunkSize : Nat
  leftChunkSize : Nat
  staticHeader : List UInt8
  staticOffset : Nat
  totalWrite : Nat
  readFinished : Bool
  active : Bool
  deriving Repr, DecidableEq

/-- The result of a poll of the encoder. -/
abbrev EncodePoll := Poll (Except LimitedCopyError Nat)

namespace ChunkedEncodeTransferInternal

/-- `ChunkedEncodeTransferInternal::new`. -/
def new (yieldSize : Nat) (noTrailer : Bool) : ChunkedEncodeTransferInternal :=
  ⟨yieldSize, noTrailer, 0, 0, [], 0, 0, false, false⟩

/-- The header the fill writes before a chunk of `chunkSize` bytes, or at
    the end of the stream when `chunkSize` is `0`. -/
def staticHeaderFor (totalWrite chunkSize : Nat) (noTrailer : Bool) : List UInt8 :=
  if chunkSize = 0 then
    if totalWrite = 0 then
      if noTrailer then [48, 13, 10, 13, 10] else [48, 13, 10]
    else if noTrailer then [13, 10, 48, 13, 10, 13, 10] else [13, 10, 48, 13, 10]
  else if totalWrite = 0 then lowerHex chunkSize ++ [13, 10]
  else [13, 10] ++ lowerHex chunkSize ++ [13, 10]

/-- `finished`. -/
def finished (e : ChunkedEncodeTransferInternal) : Bool :=
  e.readFinished && decide (e.staticHeader.length ≤ e.staticOffset)

/-- `no_cached_data`. -/
def noCachedData (e : ChunkedEncodeTransferInternal) : Bool :=
  decide (e.staticHeader.length ≤ e.staticOffset) && e.leftChunkSize = 0

end ChunkedEncodeTransferInternal

/-- The state of one poll of `poll_encode`: the encoder, the two ends, and
    the data bytes written in this poll. -/
structure ChunkedEncodeRound where
  enc : ChunkedEncodeTransferInternal
  reader : Source
  writer : Sink
  copyThisRound : Nat

namespace ChunkedEncodeRound

open ChunkedEncodeTransferInternal

/-- The fill at the top of the loop, when no chunk is in progress and the
    stream has not ended: the window starts a chunk of its length, and an
    empty window ends the body. -/
def fillStep (s : ChunkedEncodeRound) : Option (Flow ChunkedEncodeRound EncodePoll) :=
  if s.enc.thisChunkSize = 0 ∧ s.enc.readFinished = false then
    match s.reader.fillBuf with
    | (.pending, r) => some (.exit .pending { s with reader := r })
    | (.ready (.error e), r) => some (.exit (.ready (.error (.readFailed e))) { s with reader := r })
    | (.ready (.ok data), r) =>
      some (.next { s with
        reader := r
        enc := { s.enc with
                 active := true
                 readFinished := data.length == 0
                 staticHeader := staticHeaderFor s.enc.totalWrite data.length s.enc.noTrailer
                 staticOffset := 0
                 thisChunkSize := data.length
                 leftChunkSize := data.length } })
  else some (.next s)

/-- `while self.static_offset < self.static_header.len()`: write the rest of
    the header. -/
def headerLoop : Nat → ChunkedEncodeRound → Option (Flow ChunkedEncodeRound EncodePoll)
  | 0, _ => none
  | fuel + 1, s =>
    if s.enc.staticOffset < s.enc.staticHeader.length then
      match s.writer.write (s.enc.staticHeader.drop s.enc.staticOffset) with
      | (.pending, w) => some (.exit .pending { s with writer := w })
      | (.ready (.error e), w) => some (.exit (.ready (.error (.writeFailed e))) { s with writer := w })
      | (.ready (.ok nw), w) =>
        headerLoop fuel { s with
          writer := w
          enc := { s.enc with
                   active := true
                   staticOffset := s.enc.staticOffset + nw
                   totalWrite := s.enc.totalWrite + nw } }
    else some (.next s)

/-- Once the stream has ended and the last header is written: flush, and
    return the number of bytes written. -/
def finishStep (s : ChunkedEncodeRound) : Option (Flow ChunkedEncodeRound EncodePoll) :=
  if s.enc.readFinished then
    match s.writer.flush with
    | (.pending, w) => some (.exit .pending { s with writer := w })
    | (.ready (.error e), w) => some (.exit (.ready (.error (.writeFailed e))) { s with writer := w })
    | (.ready (.ok ()), w) => some (.exit (.ready (.ok s.enc.totalWrite)) { s with writer := w })
  else some (.next s)

/-- `while self.left_chunk_size > 0`: copy the rest of the chunk from the
    reader's window. -/
def dataLoop : Nat → ChunkedEncodeRound → Option (Flow ChunkedEncodeRound EncodePoll)
  | 0, _ => none
  | fuel + 1, s =>
    if 0 < s.enc.leftChunkSize then
      match s.reader.fillBuf with
      | (.pending, r) => some (.exit .pending { s with reader := r })
      | (.ready (.error e), r) => some (.exit (.ready (.error (.readFailed e))) { s with reader := r })
      | (.ready (.ok data), r) =>
        -- `&data[..self.left_chunk_size]` panics past the window's end
        if s.enc.leftChunkSize ≤ data.length then
          match s.writer.write (data.take s.enc.leftChunkSize) with
          | (.pending, w) => some (.exit .pending { s with reader := r, writer := w })
          | (.ready (.error e), w) =>
            some (.exit (.ready (.error (.writeFailed e))) { s with reader := r, writer := w })
          | (.ready (.ok nw), w) =>
            dataLoop fuel
              { reader := r.consume nw
                writer := w
                copyThisRound := s.copyThisRound + nw
                enc := { s.enc with
                         active := true
                         leftChunkSize := s.enc.leftChunkSize - nw
                         totalWrite := s.enc.totalWrite + nw } }
        else none
    else some (.next s)

/-- The end of a round: the chunk is done; yield once `yield_size` data
    bytes were written in this poll. -/
def endRound (s : ChunkedEncodeRound) : Option (Flow ChunkedEncodeRound EncodePoll) :=
  let s := { s with enc := { s.enc with thisChunkSize := 0 } }
  if s.enc.yieldSize ≤ s.copyThisRound then some (.exit .pending s) else some (.next s)

/-- The loop of `poll_encode`; `none` when the fuel runs out. -/
def encodeLoop : Nat → ChunkedEncodeRound → Option (Flow ChunkedEncodeRound EncodePoll)
  | 0, _ => none
  | fuel + 1, s =>
    Flow.andThen (Flow.andThen (Flow.andThen (fillStep s) (headerLoop fuel)) finishStep) fun s =>
      Flow.andThen (Flow.andThen (dataLoop fuel s) endRound) (encodeLoop fuel)

end ChunkedEncodeRound

/-- `StreamToChunkedTransfer`: the encoder and the two ends. -/
structure StreamToChunkedTransfer where
  reader : Source
  writer : Sink
  internal : ChunkedEncodeTransferInternal

namespace StreamToChunkedTransfer

/-- `StreamToChunkedTransfer::new`. -/
def new (reader : Source) (writer : Sink) (yieldSize : Nat) (noTrailer : Bool) :
    StreamToChunkedTransfer :=
  ⟨reader, writer, .new yieldSize noTrailer⟩

/-- `new_with_no_trailer`: the body ends with the empty trailer section. -/
def newWithNoTrailer (reader : Source) (writer : Sink) (yieldSize : Nat) : StreamToChunkedTransfer :=
  new reader writer yieldSize true

/-- `new_with_pending_trailer`: the caller writes the trailer section. -/
def newWithPendingTrailer (reader : Source) (writer : Sink) (yieldSize : Nat) :
    StreamToChunkedTransfer :=
  new reader writer yieldSize false

/-- `finished`. -/
def finished (t : StreamToChunkedTransfer) : Bool := t.internal.finished

/-- `Future::poll`, with `fuel` rounds of each loop; `none` when they run
    out. -/
def poll (fuel : Nat) (t : StreamToChunkedTransfer) : Option (EncodePoll × StreamToChunkedTransfer) :=
  match ChunkedEncodeRound.encodeLoop fuel ⟨t.internal, t.reader, t.writer, 0⟩ with
  | some (.exit res s) => some (res, ⟨s.reader, s.writer, s.enc⟩)
  | _ => none

/-- Poll until the future is ready, at most `polls` times. -/
def run (fuel : Nat) : Nat → StreamToChunkedTransfer → Option (EncodePoll × StreamToChunkedTransfer)
  | 0, t => some (.pending, t)
  | polls + 1, t =>
    match poll fuel t with
    | some (.pending, t) => run fuel polls t
    | r => r

/-- The two reads of the test `encode_two_no_trailer`, "test\n" and "body". -/
example : (run 16 1 (newWithNoTrailer (.ofSegments [[116, 101, 115, 116, 10], [98, 111, 100, 121]])
      (.open_ []) 1024)).map (fun r => (r.1, r.2.writer.written)) =
    some (.ready (.ok 24), [53, 13, 10, 116, 101, 115, 116, 10, 13, 10, 52, 13, 10, 98, 111, 100, 121,
      13, 10, 48, 13, 10, 13, 10]) := by
  decide

end StreamToChunkedTransfer

end G3Proxy
