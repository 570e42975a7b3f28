/-
  The poll of `H1BodyToChunkedTransfer` (g3-http `body/body_to_chunked.rs`)
  from the states its constructors build (`Http.Preview`).

  * `ChunkedTransferRun` is `ChunkedTransferState` as the future moves
    through it: the copy state holds the running `ROwnedLimitedCopy` of the
    body reader.  The future only borrows the stream and the writer; the
    states after the body was read keep them (`stream`, `writer`), so that
    what was written and what is left to read can be read off every state.
  * `SendHead` and `SendNoTrailerEnd` write a fixed string from an offset,
    one loop of the same shape (`writeRest`).  After the copy of a body of
    known length the transfer writes `NO_TRAILER_END_BUFFER`, the line end
    of the chunk and the last chunk with the empty trailer section; a body
    of length `0` writes only its last five bytes.
  * `poll` is `Future::poll`: its calls of itself when a state is done are
    calls with one less fuel; `none` is the fuel running out or a panic of
    the reader.
-/
import G3Proxy.Http.Preview
import G3Proxy.Io.OwnedCopy
import G3Proxy.Core.ChunkedCoding

namespace G3Proxy

open AsyncIo ChunkedCoding

namespace HttpBodyReader

/-- `poll_read` of the body reader, as the copy calls it. -/
def readFn (libs : ByteLibs) : ReadFn HttpBodyReader := fun r space =>
  (pollRead libs r space).map fun
    | (.ready (.ok ()), out, r) => (.ready (.ok out), r)
    | (.ready (.error e), _, r) => (.ready (.error e), r)
    | (.pending, _, r) => (.pending, r)

end HttpBodyReader

/-- `NO_TRAILER_END_BUFFER`. -/
def noTrailerEndBuffer : List UInt8 := [13, 10, 48, 13, 10, 13, 10]

/-- `ChunkedTransferState` while the future is polled. -/
inductive ChunkedTransferRun where
  | sendHead (head : List UInt8) (offset : Nat) (bodyReader : HttpBodyReader) (writer : Sink)
  | copy (copy : ROwnedLimitedCopy HttpBodyReader)
  | sendNoTrailerEnd (offset : Nat) (stream : Source) (writer : Sink)
  | encode (encoder : StreamToChunkedTransfer)
  | flushEnd (stream : Source) (writer : Sink)
  | end_ (stream : Source) (writer : Sink)

namespace ChunkedTransferRun

/-- The writer, wherever the state keeps it. -/
def writer : ChunkedTransferRun → Sink
  | .sendHead _ _ _ w | .sendNoTrailerEnd _ _ w | .flushEnd _ w | .end_ _ w => w
  | .copy c => c.writer
  | .encode e => e.writer

/-- The stream, wherever the state keeps it. -/
def stream : ChunkedTransferRun → Source
  | .sendHead _ _ r _ => r.stream
  | .copy c => c.reader.stream
  | .sendNoTrailerEnd _ s _ | .flushEnd s _ | .end_ s _ => s
  | .encode e => e.reader

end ChunkedTransferRun

/-- The first state of the run: the copy state starts a new copy. -/
def ChunkedTransferState.start (stream : Source) : ChunkedTransferState → ChunkedTransferRun
  | .sendHead head offset bodyReader writer => .sendHead head offset bodyReader writer
  | .copy bodyReader writer config => .copy (.new bodyReader writer config)
  | .sendNoTrailerEnd offset writer => .sendNoTrailerEnd offset stream writer
  | .encode encoder => .encode encoder
  | .flushEnd writer => .flushEnd stream writer
  | .end_ => .end_ stream (.open_ [])

/-- `H1BodyToChunkedTransfer` while it is polled. -/
structure H1BodyToChunkedRun where
  bodyType : HttpBodyType
  copyConfig : LimitedCopyConfig
  state : ChunkedTransferRun
  totalWrite : Nat
  active : Bool

/-- `while offset < bytes.len()`: write the rest of `bytes`; the offset
    reached and the writer, with the outcome of the last write. -/
def writeRest (bytes : List UInt8) : Nat → Nat → Sink → Option (Poll (Except IoError Unit) × Nat × Sink)
  | 0, _, _ => none
  | fuel + 1, offset, w =>
    if offset < bytes.length then
      match w.write (bytes.drop offset) with
      | (.pending, w) => some (.pending, offset, w)
      | (.ready (.error e), w) => some (.ready (.error e), offset, w)
      | (.ready (.ok nw), w) => writeRest bytes fuel (offset + nw) w
    else some (.ready (.ok ()), offset, w)

namespace H1BodyToChunkedRun

variable (libs : ByteLibs)

/-- `Future::poll`. -/
def poll : Nat → H1BodyToChunkedRun → Option (Poll (Except LimitedCopyError Unit) × H1BodyToChunkedRun)
  | 0, _ => none
  | fuel + 1, t =>
    match t.state with
    | .sendHead head offset bodyReader w =>
      match writeRest head fuel offset w with
      | none => none
      | some (.pending, offset, w) => some (.pending, { t with state := .sendHead head offset bodyReader w })
      | some (.ready (.error e), offset, w) =>
        some (.ready (.error (.writeFailed e)), { t with state := .sendHead head offset bodyReader w })
      | some (.ready (.ok ()), offset, w) =>
        poll fuel { t with
          totalWrite := t.totalWrite + offset
          active := true
          state := .copy (.new bodyReader w t.copyConfig) }
    | .copy c =>
      match c.poll (HttpBodyReader.readFn libs) fuel with
      | none => none
      | some (.pending, c) => some (.pending, { t with active := c.isActive, state := .copy c })
      | some (.ready (.error e), c) => some (.ready (.error e), { t with state := .copy c })
      | some (.ready (.ok n), c) =>
        let t := { t with totalWrite := t.totalWrite + n, active := true }
        match t.bodyType with
        | .contentLength _ => poll fuel { t with state := .sendNoTrailerEnd 0 c.reader.stream c.writer }
        | _ => some (.ready (.ok ()), { t with state := .end_ c.reader.stream c.writer })
    | .sendNoTrailerEnd offset stream w =>
      match writeRest noTrailerEndBuffer fuel offset w with
      | none => none
      | some (.pending, offset, w) => some (.pending, { t with state := .sendNoTrailerEnd offset stream w })
      | some (.ready (.error e), offset, w) =>
        some (.ready (.error (.writeFailed e)), { t with state := .sendNoTrailerEnd offset stream w })
      | some (.ready (.ok ()), _, w) => some (.ready (.ok ()), { t with state := .flushEnd stream w, active := true })
    | .encode e =>
      match e.poll fuel with
      | none => none
      | some (.pending, e) => some (.pending, { t with active := e.internal.active, state := .encode e })
      | some (.ready (.error err), e) => some (.ready (.error err), { t with state := .encode e })
      | some (.ready (.ok n), e) =>
        some (.ready (.ok ()), { t with
          totalWrite := t.totalWrite + n
          active := true
          state := .end_ e.reader e.writer })
    | .flushEnd stream w =>
      match w.flush with
      | (.pending, w) => some (.pending, { t with state := .flushEnd stream w })
      | (.ready (.error e), w) => some (.ready (.error (.writeFailed e)), { t with state := .flushEnd stream w })
      | (.ready (.ok ()), w) => some (.ready (.ok ()), { t with state := .flushEnd stream w })
    | .end_ _ _ => some (.ready (.ok ()), t)

/-- Poll until the future is ready, at most `polls` times. -/
def run (fuel : Nat) : Nat → H1BodyToChunkedRun → Option (Poll (Except LimitedCopyError Unit) × H1BodyToChunkedRun)
  | 0, t => some (.pending, t)
  | polls + 1, t =>
    match poll libs fuel t with
    | some (.pending, t) => run fuel polls t
    | r => r

end H1BodyToChunkedRun

/-- The run of a transfer over `stream`, from the state it was built in. -/
def H1BodyToChunkedTransfer.start (stream : Source) (t : H1BodyToChunkedTransfer) : H1BodyToChunkedRun :=
  ⟨t.bodyType, t.copyConfig, t.state.start stream, t.totalWrite, t.active⟩

/-- The chunked body `0\r\n\r\n`, followed on the stream by `X\r\n\r\n`,
    with a read boundary between the CR and the LF of its last line: the
    body reader does not keep the CR of an empty trailer line, reads the LF
    as the start of a trailer line and goes on to the next empty line.  The
    transfer completes, having copied the five bytes after the body and
    consumed the whole stream. -/
theorem chunked_crlf_split_copies_past_body :
    ∃ t, ((H1BodyToChunkedTransfer.new (.ofSegments [[48, 13, 10, 13], [10, 88, 13, 10, 13, 10]]) (.open_ [])
        .chunked 1024 .default).start (.ofSegments [[48, 13, 10, 13], [10, 88, 13, 10, 13, 10]])).run
        ⟨Hex.hexPrefixValue, fun _ => true⟩ 64 1 = some (.ready (.ok ()), t) ∧
      (Source.ofSegments [[48, 13, 10, 13], [10, 88, 13, 10, 13, 10]]).rest =
        (⟨[], [48], [], []⟩ : Message).encode ++ [88, 13, 10, 13, 10] ∧
      t.state.writer.written = (⟨[], [48], [], []⟩ : Message).encode ++ [88, 13, 10, 13, 10] ∧
      t.state.stream.rest = [] := by
  refine ⟨_, rfl, ?_⟩
  decide

end G3Proxy
