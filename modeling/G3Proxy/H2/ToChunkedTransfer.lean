/-
  The HTTP/2 to HTTP/1.1 chunked encoder of g3-h2
  (`body/to_chunked_transfer.rs`): a future that takes the DATA payloads and
  the trailers of an h2 `RecvStream` and writes them to a writer as a
  chunked body.

  * A `RecvStream` is the receiving half of an h2 stream, given by the
    answers it will give: one `RecvEvent` per `poll_data` that reaches it (a
    payload, not ready, or an error), and once they are all taken the
    trailers.  The two calls the transfer makes of h2 are the parameter
    `RecvOps`, under the laws `RecvOps.Spec`: `poll_data` gives the next
    answer, and, as h2's `Recv::poll_trailers` does, `poll_trailers`
    answers `Pending` while a DATA payload is still queued, the frame put
    back and the stream left as it was.
  * Each payload becomes one chunk.  The header written before it
    (`staticHeader`, from `staticOffset`) is its size in lowercase
    hexadecimal and a line end, after the line end of the previous chunk
    once some bytes were written.  A payload of length `0` is taken, like
    the end of the stream, as the end of the body: the header is then the
    last chunk, and the trailers are asked for next.
  * `pollTransfer` is `poll_transfer`: the data stage is the loop of
    `poll_transfer_data`, given as blocks sequenced with `Machine.Flow`
    (`fillStep`, `headerLoop`, `dataLoop`, `endRound`); the trailer stage is
    `poll_transfer_trailers`, which writes the trailer section (`"\r\n"`
    alone when there are no trailers); the end stage flushes and returns the
    number of bytes written.  The calls of `poll_transfer` at the end of a
    stage are calls with one less fuel; the loops are given fuel too, and
    the model answers `none` when it runs out.
  * `release_capacity` of the bytes written is left out: h2 accepts the
    release of bytes it delivered.
-/
import G3Proxy.Io.Stream
import G3Proxy.Core.Machine
import G3Proxy.Core.Hex

namespace G3Proxy

namespace H2

open AsyncIo Machine Hex

/-- One answer of `RecvStream::poll_data`. -/
inductive RecvEvent where
  /-- a DATA payload -/
  | data : List UInt8 → RecvEvent
  /-- not ready -/
  | pending
  /-- the stream fails -/
  | error
  deriving Repr, DecidableEq

/-- Trailer fields as `HeaderMap::iter` gives them: names and values. -/
abbrev TrailerFields := List (List UInt8 × List UInt8)

/-- The receiving half of a stream: the answers of `poll_data` still to come,
    then the trailers that end the stream. -/
structure RecvStream where
  events : List RecvEvent
  trailers : Option TrailerFields
  deriving Repr, DecidableEq

/-- The answer of `poll_data` when the next answer of the stream is `ev`. -/
def RecvEvent.dataAnswer : RecvEvent → Poll (Option (Except Unit (List UInt8)))
  | .data d => .ready (some (.ok d))
  | .pending => .pending
  | .error => .ready (some (.error ()))

/-- What the transfer calls of h2's `RecvStream`: `poll_data` and
    `poll_trailers`. -/
structure RecvOps where
  pollData : RecvStream → Poll (Option (Except Unit (List UInt8))) × RecvStream
  pollTrailers : RecvStream → Poll (Except Unit (Option TrailerFields)) × RecvStream

/-- How h2 answers.  `poll_data` gives the next answer and takes it, and
    `Ready(None)` once the payloads are all taken; `poll_trailers` gives the
    trailers once the payloads are all taken, and while a payload is queued
    answers `Pending`, putting the frame back. -/
structure RecvOps.Spec (H : RecvOps) : Prop where
  pollData_nil : ∀ r : RecvStream, r.events = [] → H.pollData r = (.ready none, r)
  pollData_cons : ∀ (r : RecvStream) ev es, r.events = ev :: es →
    H.pollData r = (ev.dataAnswer, { r with events := es })
  pollTrailers_nil : ∀ r : RecvStream, r.events = [] → H.pollTrailers r = (.ready (.ok r.trailers), r)
  pollTrailers_data : ∀ (r : RecvStream) d es, r.events = .data d :: es →
    H.pollTrailers r = (.pending, r)
  pollTrailers_pending : ∀ (r : RecvStream) es, r.events = .pending :: es →
    H.pollTrailers r = (.pending, { r with events := es })
  pollTrailers_error : ∀ (r : RecvStream) es, r.events = .error :: es →
    H.pollTrailers r = (.ready (.error ()), { r with events := es })


/-- `H2StreamToChunkedTransferError`. -/
inductive H2StreamToChunkedTransferError where
  | writeError (e : IoError)
  | recvDataFailed
  | recvTrailerFailed
  deriving Repr, DecidableEq

/-- The result of a poll of the encoder. -/
abbrev TransferPoll := Poll (Except H2StreamToChunkedTransferError Nat)

/-- `TransferStage`. -/
inductive TransferStage where
  | end_
  | data
  | trailer
  deriving Repr, DecidableEq

/-- `ChunkedEncodeTransferInternal`. -/
structure ChunkedEncodeTransferInternal where
  yieldSize : Nat
  thisChunkSize : Nat
  chunk : Option (List UInt8)
  staticHeader : List UInt8
  staticOffset : Nat
  totalWrite : Nat
  readDataFinished : Bool
  active : Bool
  trailerBytes : List UInt8
  trailerOffset : Nat
  transferStage : TransferStage
  deriving Repr, DecidableEq

namespace ChunkedEncodeTransferInternal

/-- `ChunkedEncodeTransferInternal::new`. -/
def new (yieldSize : Nat) : ChunkedEncodeTransferInternal :=
  ⟨yieldSize, 0, none, [], 0, 0, false, false, [], 0, .data⟩

/-- `ChunkedEncodeTransferInternal::with_chunk`: the chunk is written first,
    after its header. -/
def withChunk (yieldSize : Nat) (chunk : List UInt8) : ChunkedEncodeTransferInternal :=
  ⟨yieldSize, chunk.length, some chunk, lowerHex chunk.length ++ [13, 10], 0, 0, false, false, [], 0,
    .data⟩

/-- The header written before a payload of `chunkSize` bytes; a payload of
    length `0` gives the last chunk. -/
def staticHeaderFor (totalWrite chunkSize : Nat) : List UInt8 :=
  if totalWrite = 0 then lowerHex chunkSize ++ [13, 10] else [13, 10] ++ lowerHex chunkSize ++ [13, 10]

/-- The header written at the end of the stream: the last chunk. -/
def endHeaderFor (totalWrite : Nat) : List UInt8 :=
  if totalWrite = 0 then [48, 13, 10] else [13, 10, 48, 13, 10]

/-- The trailer section: each field as `name: value` and a line end, then
    the empty line. -/
def trailerSectionOf (trailer : TrailerFields) : List UInt8 :=
  trailer.flatMap (fun nv => nv.1 ++ [58, 32] ++ nv.2 ++ [13, 10]) ++ [13, 10]

/-- `finished`. -/
def finished (e : ChunkedEncodeTransferInternal) : Bool := e.transferStage == .end_

/-- `no_cached_data`. -/
def noCachedData (e : ChunkedEncodeTransferInternal) : Bool :=
  match e.transferStage with
  | .data => decide (e.staticHeader.length ≤ e.staticOffset) && e.chunk.isNone
  | .trailer => decide (e.trailerBytes.length ≤ e.trailerOffset)
  | .end_ => true

end ChunkedEncodeTransferInternal

/-- The state of one poll of `poll_transfer`: the encoder, the stream, the
    writer, and the data bytes written in this poll. -/
structure TransferRound where
  enc : ChunkedEncodeTransferInternal
  recv : RecvStream
  writer : Sink
  copyThisRound : Nat

namespace TransferRound

open ChunkedEncodeTransferInternal

variable (H : RecvOps)

/-- The fill at the top of the loop of `poll_transfer_data`, when no chunk
    is held and the data has not ended: a payload starts a chunk, and a
    payload of length `0` or the end of the stream ends the data. -/
def fillStep (s : TransferRound) : Option (Flow TransferRound TransferPoll) :=
  if s.enc.chunk.isNone ∧ s.enc.readDataFinished = false then
    match H.pollData s.recv with
    | (.pending, r) => some (.exit .pending { s with recv := r })
    | (.ready (some (.error ())), r) => some (.exit (.ready (.error .recvDataFailed)) { s with recv := r })
    | (.ready (some (.ok chunk)), r) =>
      some (.next { s with
        recv := r
        enc := { s.enc with
                 active := true
                 staticHeader := staticHeaderFor s.enc.totalWrite chunk.length
                 staticOffset := 0
                 thisChunkSize := chunk.length
                 readDataFinished := chunk.length == 0
                 chunk := if chunk.length = 0 then s.enc.chunk else some chunk } })
    | (.ready none, r) =>
      some (.next { s with
        recv := r
        enc := { s.enc with
                 readDataFinished := true
                 active := true
                 staticHeader := endHeaderFor s.enc.totalWrite
                 staticOffset := 0
                 thisChunkSize := 0 } })
  else some (.next s)

/-- `while self.static_offset < self.static_header.len()`: write the rest of
    the header. -/
def headerLoop : Nat → TransferRound → Option (Flow TransferRound TransferPoll)
  | 0, _ => none
  | fuel + 1, s =>
    if s.enc.staticOffset < s.enc.staticHeader.length then
      match s.writer.write (s.enc.staticHeader.drop s.enc.staticOffset) with
      | (.pending, w) => some (.exit .pending { s with writer := w })
      | (.ready (.error e), w) => some (.exit (.ready (.error (.writeError e))) { s with writer := w })
      | (.ready (.ok nw), w) =>
        headerLoop fuel { s with
          writer := w
          enc := { s.enc with
                   active := true
                   staticOffset := s.enc.staticOffset + nw
                   totalWrite := s.enc.totalWrite + nw } }
    else some (.next s)

/-- `while let Some(chunk) = self.chunk.take()`: write the chunk; the part
    not accepted is kept for the next write.  A failed write has taken the
    chunk. -/
def dataLoop : Nat → TransferRound → Option (Flow TransferRound TransferPoll)
  | 0, _ => none
  | fuel + 1, s =>
    match s.enc.chunk with
    | none => some (.next s)
    | some chunk =>
      match s.writer.write chunk with
      | (.ready (.ok nw), w) =>
        let s := { s with
          writer := w
          copyThisRound := s.copyThisRound + nw
          enc := { s.enc with totalWrite := s.enc.totalWrite + nw, active := true, chunk := none } }
        if (chunk.drop nw).isEmpty then some (.next s)
        else dataLoop fuel { s with enc := { s.enc with chunk := some (chunk.drop nw) } }
      | (.ready (.error e), w) =>
        some (.exit (.ready (.error (.writeError e))) { s with writer := w, enc := { s.enc with chunk := none } })
      | (.pending, w) => some (.exit .pending { s with writer := w })

/-- The end of a pass: yield once `yield_size` data bytes were written in
    this poll. -/
def endRound (s : TransferRound) : Option (Flow TransferRound TransferPoll) :=
  if s.enc.yieldSize ≤ s.copyThisRound then some (.exit .pending s) else some (.next s)

/-- The loop of `poll_transfer_data`.  It falls through only once the data
    has ended and the last header is written, in the trailer stage. -/
def transferDataLoop : Nat → TransferRound → Option (Flow TransferRound TransferPoll)
  | 0, _ => none
  | fuel + 1, s =>
    Flow.andThen (Flow.andThen (fillStep H s) (headerLoop fuel)) fun s =>
      if s.enc.readDataFinished then some (.next { s with enc := { s.enc with transferStage := .trailer } })
      else Flow.andThen (Flow.andThen (dataLoop fuel s) endRound) (transferDataLoop fuel)

/-- `while self.trailer_offset < self.trailer_bytes.len()`: write the rest
    of the trailer section. -/
def trailerLoop : Nat → TransferRound → Option (Flow TransferRound TransferPoll)
  | 0, _ => none
  | fuel + 1, s =>
    if s.enc.trailerOffset < s.enc.trailerBytes.length then
      match s.writer.write (s.enc.trailerBytes.drop s.enc.trailerOffset) with
      | (.pending, w) => some (.exit .pending { s with writer := w })
      | (.ready (.error e), w) => some (.exit (.ready (.error (.writeError e))) { s with writer := w })
      | (.ready (.ok nw), w) =>
        trailerLoop fuel { s with
          writer := w
          enc := { s.enc with
                   active := true
                   trailerOffset := s.enc.trailerOffset + nw
                   totalWrite := s.enc.totalWrite + nw } }
    else some (.next s)

/-- `poll_transfer_trailers`: ask for the trailers once, then write the
    trailer section; it falls through in the end stage. -/
def transferTrailers : Nat → TransferRound → Option (Flow TransferRound TransferPoll)
  | 0, _ => none
  | fuel + 1, s =>
    if !s.enc.trailerBytes.isEmpty then
      Flow.andThen (trailerLoop fuel s) fun s =>
        some (.next { s with enc := { s.enc with transferStage := .end_ } })
    else
      match H.pollTrailers s.recv with
      | (.pending, r) => some (.exit .pending { s with recv := r })
      | (.ready (.error ()), r) => some (.exit (.ready (.error .recvTrailerFailed)) { s with recv := r })
      | (.ready (.ok (some trailer)), r) =>
        transferTrailers fuel { s with
          recv := r
          enc := { s.enc with active := true, trailerBytes := trailerSectionOf trailer } }
      | (.ready (.ok none), r) =>
        transferTrailers fuel { s with
          recv := r
          enc := { s.enc with active := true, trailerBytes := [13, 10] } }

/-- `poll_transfer`; a stage that falls through goes on with the next one. -/
def pollTransfer : Nat → TransferRound → Option (TransferPoll × TransferRound)
  | 0, _ => none
  | fuel + 1, s =>
    let stage := match s.enc.transferStage with
      | .data => transferDataLoop H fuel s
      | .trailer => transferTrailers H fuel s
      | .end_ =>
        match s.writer.flush with
        | (.pending, w) => some (.exit .pending { s with writer := w })
        | (.ready (.error e), w) => some (.exit (.ready (.error (.writeError e))) { s with writer := w })
        | (.ready (.ok ()), w) => some (.exit (.ready (.ok s.enc.totalWrite)) { s with writer := w })
    match stage with
    | some (.exit res s) => some (res, s)
    | some (.next s) => pollTransfer fuel s
    | none => none

end TransferRound

/-- `H2StreamToChunkedTransfer`: the encoder, the stream and the writer. -/
structure H2StreamToChunkedTransfer where
  recvStream : RecvStream
  writer : Sink
  internal : ChunkedEncodeTransferInternal

namespace H2StreamToChunkedTransfer

variable (H : RecvOps)

/-- `H2StreamToChunkedTransfer::new`. -/
def new (recvStream : RecvStream) (writer : Sink) (yieldSize : Nat) : H2StreamToChunkedTransfer :=
  ⟨recvStream, writer, .new yieldSize⟩

/-- `H2StreamToChunkedTransfer::with_chunk`. -/
def withChunk (recvStream : RecvStream) (writer : Sink) (yieldSize : Nat) (chunk : List UInt8) :
    H2StreamToChunkedTransfer :=
  ⟨recvStream, writer, .withChunk yieldSize chunk⟩

/-- `finished`. -/
def finished (t : H2StreamToChunkedTransfer) : Bool := t.internal.finished

/-- `Future::poll`, with `fuel` for the calls and the loops; `none` when it
    runs out. -/
def poll (fuel : Nat) (t : H2StreamToChunkedTransfer) : Option (TransferPoll × H2StreamToChunkedTransfer) :=
  (TransferRound.pollTransfer H fuel ⟨t.internal, t.recvStream, t.writer, 0⟩).map fun (res, s) =>
    (res, ⟨s.recv, s.writer, s.enc⟩)

/-- Poll until the future is ready, at most `polls` times. -/
def run (fuel : Nat) : Nat → H2StreamToChunkedTransfer → Option (TransferPoll × H2StreamToChunkedTransfer)
  | 0, t => some (.pending, t)
  | polls + 1, t =>
    match poll H fuel t with
    | some (.pending, t) => run fuel polls t
    | r => r

end H2StreamToChunkedTransfer

/-! ## A realisation

h2's answers on a stream given by its answers; they meet the laws. -/

namespace RecvStream

/-- `poll_data`: `none` once the payloads are all taken. -/
def pollData (r : RecvStream) : Poll (Option (Except Unit (List UInt8))) × RecvStream :=
  match r.events with
  | [] => (.ready none, r)
  | .data d :: es => (.ready (some (.ok d)), { r with events := es })
  | .pending :: es => (.pending, { r with events := es })
  | .error :: es => (.ready (some (.error ())), { r with events := es })

/-- `poll_trailers`: `Pending` while a payload is queued (the frame is put
    back), the trailers once the payloads are all taken. -/
def pollTrailers (r : RecvStream) : Poll (Except Unit (Option TrailerFields)) × RecvStream :=
  match r.events with
  | [] => (.ready (.ok r.trailers), r)
  | .data _ :: _ => (.pending, r)
  | .pending :: es => (.pending, { r with events := es })
  | .error :: es => (.ready (.error ()), { r with events := es })

end RecvStream

/-- h2's calls on a stream given by its answers. -/
def RecvStream.ops : RecvOps := ⟨RecvStream.pollData, RecvStream.pollTrailers⟩

theorem RecvStream.ops_spec : RecvStream.ops.Spec where
  pollData_nil r h := by simp [ops, pollData, h]
  pollData_cons r ev es h := by cases ev <;> simp [ops, pollData, h, RecvEvent.dataAnswer]
  pollTrailers_nil r h := by simp [ops, pollTrailers, h]
  pollTrailers_data r d es h := by simp [ops, pollTrailers, h]
  pollTrailers_pending r es h := by simp [ops, pollTrailers, h]
  pollTrailers_error r es h := by simp [ops, pollTrailers, h]

end H2

end G3Proxy
