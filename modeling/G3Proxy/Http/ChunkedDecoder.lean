/-
  The chunked decoders of g3-http (`body/chunked_decoder.rs`,
  `body/trailer_reader.rs`, `body/decoder.rs`): they read a chunked body
  from a buffered reader and give out its data, then its trailer.

  * `pollDecode` is the loop of `ChunkedDataDecodeReaderInternal::poll_decode`.
    One pass (`decodeStep`) takes the branch its flags select: the end of a
    chunk (`chunkEndStep`), the `LF` after a chunk's `CR` (`chunkEndNStep`),
    the line end after a chunk's data (`chunkEndRStep`), the data
    (`dataStep`), or the chunk-size line, read window by window up to its
    `LF` (`readChunkHeader`) and parsed (`parseChunkHeader`).  It stops
    after the line of the last chunk and leaves the trailer section in the
    reader.  A window without an `LF` is refused when the line so far would
    outgrow `body_line_max_size`.
  * `TrailerReaderInternal.pollRead` reads the trailer section line by line
    into a header map, up to the empty line, refusing a section longer than
    `trailer_max_size`.  Its lines are text: `std::str::from_utf8`, which it
    calls first, is the parameter `utf8`.
  * `HttpBodyDecodeReader` gives out the data of a body, notes the end of
    the data at the first ready read that gives nothing, and for a chunked
    body reads the trailer with `trailer`.
  * The loops are unbounded in the code; the model gives them fuel and
    answers `none` when it runs out.
-/
import G3Proxy.Http.BodyReader
import G3Proxy.Core.Machine

namespace G3Proxy

open AsyncIo Machine

/-- `ChunkedDataDecodeReaderInternal`. -/
structure ChunkedDataDecodeReaderInternal where
  bodyLineMaxSize : Nat
  chunkHeader : List UInt8
  thisChunkSize : Nat
  leftChunkSize : Nat
  pollChunkEndR : Bool
  pollChunkEndN : Bool
  pollChunkEnd : Bool
  deriving Repr, DecidableEq

/-- The result of a poll of the decoder. -/
abbrev DecodePoll := Poll (Except IoError Unit)

namespace ChunkedDataDecodeReaderInternal

/-- `ChunkedDataDecodeReaderInternal::new`. -/
def new (bodyLineMaxSize : Nat) : ChunkedDataDecodeReaderInternal :=
  ⟨bodyLineMaxSize, [], 0, 0, false, false, false⟩

/-- `finished`: the line of the last chunk is read. -/
def finished (d : ChunkedDataDecodeReaderInternal) : Bool :=
  d.pollChunkEnd && d.thisChunkSize == 0

end ChunkedDataDecodeReaderInternal

/-- The state of one `poll_decode`: the decoder, the reader, the room left in
    the caller's buffer and the bytes put in it. -/
structure ChunkedDecodeRound where
  dec : ChunkedDataDecodeReaderInternal
  reader : Source
  remaining : Nat
  out : List UInt8

namespace ChunkedDecodeRound

/-- The error of a reader that ends inside a chunk's line end. -/
def closedInLineEnd : IoError :=
  ⟨.unexpectedEof, "reader closed while reading chunk line end whitespace"⟩

/-- The error of a byte that cannot end a chunk. -/
def noEndWhitespace : IoError := ⟨.invalidData, "no end whitespace found"⟩

/-- `poll_chunk_end`: after the last chunk's line the decoder has finished;
    after a data chunk the next chunk-size line follows. -/
def chunkEndStep (s : ChunkedDecodeRound) : Option (Flow ChunkedDecodeRound DecodePoll) :=
  if s.dec.thisChunkSize = 0 then some (.exit (.ready (.ok ())) s)
  else
    some (.next { s with
      dec := { s.dec with pollChunkEnd := false, pollChunkEndN := false, pollChunkEndR := false } })

/-- `poll_chunk_end_n`: the `LF` after a chunk's `CR`. -/
def chunkEndNStep (s : ChunkedDecodeRound) : Option (Flow ChunkedDecodeRound DecodePoll) :=
  match s.reader.fillBuf with
  | (.pending, r) => some (.exit .pending { s with reader := r })
  | (.ready (.error e), r) => some (.exit (.ready (.error e)) { s with reader := r })
  | (.ready (.ok buf), r) =>
    match buf with
    | [] => some (.exit (.ready (.error closedInLineEnd)) { s with reader := r })
    | b :: _ =>
      if b = 10 then
        some (.next { s with reader := r.consume 1, dec := { s.dec with pollChunkEnd := true } })
      else some (.exit (.ready (.error noEndWhitespace)) { s with reader := r })

/-- `poll_chunk_end_r`: the line end after a chunk's data, `CR LF` or a lone
    `LF`, looking at one or two bytes of the window. -/
def chunkEndRStep (s : ChunkedDecodeRound) : Option (Flow ChunkedDecodeRound DecodePoll) :=
  match s.reader.fillBuf with
  | (.pending, r) => some (.exit .pending { s with reader := r })
  | (.ready (.error e), r) => some (.exit (.ready (.error e)) { s with reader := r })
  | (.ready (.ok buf), r) =>
    match buf with
    | [] => some (.exit (.ready (.error closedInLineEnd)) { s with reader := r })
    | [b] =>
      if b = 13 then
        some (.next { s with reader := r.consume 1, dec := { s.dec with pollChunkEndN := true } })
      else if b = 10 then
        some (.next { s with reader := r.consume 1, dec := { s.dec with pollChunkEnd := true } })
      else some (.exit (.ready (.error noEndWhitespace)) { s with reader := r })
    | b :: c :: _ =>
      if b = 13 then
        if c ≠ 10 then
          some (.exit (.ready (.error ⟨.invalidData, "invalid end whitespace pair"⟩)) { s with reader := r })
        else some (.next { s with reader := r.consume 2, dec := { s.dec with pollChunkEnd := true } })
      else if b = 10 then
        some (.next { s with reader := r.consume 1, dec := { s.dec with pollChunkEnd := true } })
      else some (.exit (.ready (.error noEndWhitespace)) { s with reader := r })

/-- The data of a chunk: a read of at most what is left of the chunk and of
    the caller's buffer; a full buffer returns. -/
def dataStep (s : ChunkedDecodeRound) : Option (Flow ChunkedDecodeRound DecodePoll) :=
  if s.remaining = 0 then some (.exit (.ready (.ok ())) s)
  else
    match s.reader.read (min s.dec.leftChunkSize s.remaining) with
    | (.pending, r) => some (.exit .pending { s with reader := r })
    | (.ready (.error e), r) => some (.exit (.ready (.error e)) { s with reader := r })
    | (.ready (.ok d), r) =>
      if d.length = 0 then
        some (.exit (.ready (.error ⟨.unexpectedEof, "reader closed while reading chunk data"⟩))
          { s with reader := r })
      else
        let left := s.dec.leftChunkSize - d.length
        some (.next
          { reader := r
            remaining := s.remaining - d.length
            out := s.out ++ d
            dec := { s.dec with
                     leftChunkSize := left
                     pollChunkEndR := if left = 0 then true else s.dec.pollChunkEndR } })

/-- The inner loop over the windows of a chunk-size line: a window with an
    `LF` ends the line there; one without is taken whole, unless the line
    would outgrow `body_line_max_size`. -/
def readChunkHeader : Nat → ChunkedDecodeRound → Option (Flow ChunkedDecodeRound DecodePoll)
  | 0, _ => none
  | fuel + 1, s =>
    match s.reader.fillBuf with
    | (.pending, r) => some (.exit .pending { s with reader := r })
    | (.ready (.error e), r) => some (.exit (.ready (.error e)) { s with reader := r })
    | (.ready (.ok buf), r) =>
      if buf = [] then
        some (.exit (.ready (.error ⟨.unexpectedEof, "reader closed while reading chunk line"⟩))
          { s with reader := r })
      else
        match buf.idxOf? 10 with
        | some p =>
          some (.next { s with
            reader := r.consume (p + 1)
            dec := { s.dec with chunkHeader := s.dec.chunkHeader ++ buf.take (p + 1) } })
        | none =>
          let max := s.dec.bodyLineMaxSize
          if s.dec.chunkHeader.length + buf.length > max then
            some (.exit (.ready (.error ⟨.other, s!"chunk header line too long (> {max})"⟩))
              { s with reader := r })
          else
            readChunkHeader fuel { s with
              reader := r.consume buf.length
              dec := { s.dec with chunkHeader := s.dec.chunkHeader ++ buf } }

/-- The parse of a chunk-size line: the last chunk's line ends the data;
    another starts its chunk. -/
def parseChunkHeader (libs : ByteLibs) (s : ChunkedDecodeRound) : Option (Flow ChunkedDecodeRound DecodePoll) :=
  match HttpChunkedLine.parse libs s.dec.chunkHeader with
  | .error e => some (.exit (.ready (.error ⟨.invalidData, e.display⟩)) s)
  | .ok line =>
    if line.chunkSize = 0 then
      some (.exit (.ready (.ok ())) { s with
        dec := { s.dec with thisChunkSize := 0, leftChunkSize := 0, pollChunkEnd := true } })
    else
      some (.next { s with
        dec := { s.dec with thisChunkSize := line.chunkSize, leftChunkSize := line.chunkSize,
                            chunkHeader := [] } })

/-- One pass of the loop of `poll_decode`: the branch its flags select. -/
def decodeStep (libs : ByteLibs) (fuel : Nat) (s : ChunkedDecodeRound) : Option (Flow ChunkedDecodeRound DecodePoll) :=
  if s.dec.pollChunkEnd then chunkEndStep s
  else if s.dec.pollChunkEndN then chunkEndNStep s
  else if s.dec.pollChunkEndR then chunkEndRStep s
  else if 0 < s.dec.leftChunkSize then dataStep s
  else Flow.andThen (readChunkHeader fuel s) (parseChunkHeader libs)

/-- The loop of `poll_decode`; `none` when the fuel runs out. -/
def pollDecode (libs : ByteLibs) : Nat → ChunkedDecodeRound → Option (Flow ChunkedDecodeRound DecodePoll)
  | 0, _ => none
  | fuel + 1, s => Flow.andThen (decodeStep libs fuel s) (pollDecode libs fuel)

end ChunkedDecodeRound

/-- `ChunkedDataDecodeReader`: the decoder and the reader it reads. -/
structure ChunkedDataDecodeReader where
  reader : Source
  internal : ChunkedDataDecodeReaderInternal

/-- A poll of `poll_read`: its result, the bytes it put in the caller's
    buffer, and the reader after it. -/
abbrev DecodeReadPoll (α : Type) := Poll (Except IoError Unit) × List UInt8 × α

namespace ChunkedDataDecodeReader

/-- `ChunkedDataDecodeReader::new`. -/
def new (reader : Source) (bodyLineMaxSize : Nat) : ChunkedDataDecodeReader :=
  ⟨reader, .new bodyLineMaxSize⟩

/-- `finished`. -/
def finished (r : ChunkedDataDecodeReader) : Bool := r.internal.finished

/-- `AsyncRead::poll_read` into a buffer with `space` bytes free: a poll that
    would wait after it put bytes in the buffer is ready. -/
def pollRead (libs : ByteLibs) (fuel space : Nat) (r : ChunkedDataDecodeReader) :
    Option (DecodeReadPoll ChunkedDataDecodeReader) :=
  match ChunkedDecodeRound.pollDecode libs fuel ⟨r.internal, r.reader, space, []⟩ with
  | some (.exit .pending s) =>
    some (if s.remaining < space then .ready (.ok ()) else .pending, s.out, ⟨s.reader, s.dec⟩)
  | some (.exit res s) => some (res, s.out, ⟨s.reader, s.dec⟩)
  | _ => none

end ChunkedDataDecodeReader

/-! ## The trailer -/

/-- `TrailerReadError`. -/
inductive TrailerReadError where
  | readError (e : IoError)
  | readClosed
  | invalidHeaderLine (e : HttpLineParseError)
  | headerTooLarge
  deriving Repr, DecidableEq

/-- `TrailerReaderInternal`, with a header map of type `M`. -/
structure TrailerReaderInternal (M : Type) where
  trailerMaxSize : Nat
  cachedLine : List UInt8
  headers : M
  headerSize : Nat
  active : Bool

/-- The result of a poll of the trailer reader. -/
abbrev TrailerPoll (M : Type) := Poll (Except TrailerReadError M)

namespace TrailerReaderInternal

variable {M : Type} (L : HttpLibs M)

/-- `TrailerReaderInternal::new`. -/
def new (trailerMaxSize : Nat) : TrailerReaderInternal M := ⟨trailerMaxSize, [], L.empty, 0, false⟩

/-- A line is empty: `LF`, or `CR LF`. -/
def isEmptyLine (bs : List UInt8) : Bool :=
  bs[0]? == some 10 || (bs[0]? == some 13 && bs[1]? == some 10)

/-- `poll_read`: read lines until the empty one, each a header added to the
    map; `none` when the fuel runs out. -/
def pollRead (utf8 : List UInt8 → Option (List Char)) :
    Nat → TrailerReaderInternal M → Source → Option (TrailerPoll M × TrailerReaderInternal M × Source)
  | 0, _, _ => none
  | fuel + 1, t, r =>
    match r.fillBuf with
    | (.pending, r) => some (.pending, t, r)
    | (.ready (.error e), r) => some (.ready (.error (.readError e)), t, r)
    | (.ready (.ok buf), r) =>
      let t := { t with active := true }
      if buf = [] then some (.ready (.error .readClosed), t, r)
      else
        match buf.idxOf? 10 with
        | none =>
          let t := { t with headerSize := t.headerSize + buf.length }
          if t.headerSize > t.trailerMaxSize then some (.ready (.error .headerTooLarge), t, r)
          else pollRead utf8 fuel { t with cachedLine := t.cachedLine ++ buf } (r.consume buf.length)
        | some p =>
          let t := { t with headerSize := t.headerSize + (p + 1) }
          if t.headerSize > t.trailerMaxSize then some (.ready (.error .headerTooLarge), t, r)
          else
            let t := { t with cachedLine := t.cachedLine ++ buf.take (p + 1) }
            let r := r.consume (p + 1)
            if isEmptyLine t.cachedLine then some (.ready (.ok t.headers), { t with headers := L.empty }, r)
            else
              match utf8 t.cachedLine with
              | none => some (.ready (.error (.invalidHeaderLine .invalidUtf8Encoding)), t, r)
              | some line =>
                match HttpHeaderLine.parse line with
                | .error e => some (.ready (.error (.invalidHeaderLine e)), t, r)
                | .ok header =>
                  match L.headerNameFromStr header.name with
                  | none => some (.ready (.error (.invalidHeaderLine .invalidHeaderName)), t, r)
                  | some name =>
                    match HttpHeaderValue.fromStr header.value with
                    | none => some (.ready (.error (.invalidHeaderLine .invalidHeaderValue)), t, r)
                    | some value =>
                      pollRead utf8 fuel { t with cachedLine := [], headers := L.append t.headers name value } r

end TrailerReaderInternal

/-- `TrailerReader`: the reader and the state of the section read. -/
structure TrailerReader (M : Type) where
  reader : Source
  internal : TrailerReaderInternal M

namespace TrailerReader

variable {M : Type} (L : HttpLibs M)

/-- `TrailerReader::new`. -/
def new (reader : Source) (trailerMaxSize : Nat) : TrailerReader M :=
  ⟨reader, .new L trailerMaxSize⟩

/-- `Future::poll`. -/
def poll (utf8 : List UInt8 → Option (List Char)) (fuel : Nat) (t : TrailerReader M) :
    Option (TrailerPoll M × TrailerReader M) :=
  (t.internal.pollRead L utf8 fuel t.reader).map fun (res, i, r) => (res, ⟨r, i⟩)

/-- Poll until the future is ready, at most `polls` times. -/
def run (utf8 : List UInt8 → Option (List Char)) (fuel : Nat) :
    Nat → TrailerReader M → Option (TrailerPoll M × TrailerReader M)
  | 0, t => some (.pending, t)
  | polls + 1, t =>
    match poll L utf8 fuel t with
    | some (.pending, t) => run utf8 fuel polls t
    | r => r

end TrailerReader

/-! ## The body decoder -/

/-- `HttpBodyDecodeState`. -/
inductive HttpBodyDecodeState where
  | plain (r : HttpBodyReader)
  | chunked (r : ChunkedDataDecodeReader)

/-- `HttpBodyDecodeReader`. -/
structure HttpBodyDecodeReader where
  readDataDone : Bool
  finished : Bool
  decodeState : Option HttpBodyDecodeState

namespace HttpBodyDecodeReader

/-- `with_state`. -/
def withState (state : HttpBodyDecodeState) : HttpBodyDecodeReader := ⟨false, false, some state⟩

/-- `new_read_until_end`. -/
def newReadUntilEnd (stream : Source) : HttpBodyDecodeReader :=
  withState (.plain (.newReadUntilEnd stream))

/-- `new_fixed_length`. -/
def newFixedLength (stream : Source) (contentLength : Nat) : HttpBodyDecodeReader :=
  withState (.plain (.newFixedLength stream contentLength))

/-- `new_chunked`. -/
def newChunked (stream : Source) (bodyLineMaxSize : Nat) : HttpBodyDecodeReader :=
  withState (.chunked (.new stream bodyLineMaxSize))

/-- `AsyncRead::poll_read` into a buffer with `space` bytes free: a ready
    read that gives nothing ends the data (and, for a plain body, the whole
    body). -/
def pollRead (libs : ByteLibs) (fuel space : Nat) (d : HttpBodyDecodeReader) :
    Option (DecodeReadPoll HttpBodyDecodeReader) :=
  if d.readDataDone then some (.ready (.ok ()), [], d)
  else
    match d.decodeState with
    | none => some (.ready (.ok ()), [], d)
    | some (.plain r) =>
      (r.pollRead libs space).map fun
        | (.ready (.ok ()), out, r) =>
          let d := { d with decodeState := some (.plain r) }
          if out = [] then (.ready (.ok ()), out, { d with readDataDone := true, finished := true })
          else (.ready (.ok ()), out, d)
        | (res, out, r) => (res, out, { d with decodeState := some (.plain r) })
    | some (.chunked c) =>
      (c.pollRead libs fuel space).map fun
        | (.ready (.ok ()), out, c) =>
          let d := { d with decodeState := some (.chunked c) }
          if out = [] then (.ready (.ok ()), out, { d with readDataDone := true })
          else (.ready (.ok ()), out, d)
        | (res, out, c) => (res, out, { d with decodeState := some (.chunked c) })

/-- `trailer(max_size).await`, with the trailer reader polled at most
    `polls` times: its result, the decoder after it, and the stream as the
    trailer reader left it, when one was made. -/
def trailer {M : Type} (L : HttpLibs M) (utf8 : List UInt8 → Option (List Char))
    (maxSize fuel polls : Nat) (d : HttpBodyDecodeReader) :
    Option (Poll (Except TrailerReadError (Option M)) × HttpBodyDecodeReader × Option Source) :=
  if !d.readDataDone then
    some (.ready (.error (.readError ⟨.other, "data has not been read out yet"⟩)), d, none)
  else if d.finished then some (.ready (.ok none), d, none)
  else
    match d.decodeState with
    | none => some (.ready (.ok none), d, none)
    | some (.plain _) => some (.ready (.ok none), { d with decodeState := none }, none)
    | some (.chunked c) =>
      let d := { d with decodeState := none }
      (TrailerReader.run L utf8 fuel polls (.new L c.reader maxSize)).map fun
        | (.ready (.ok headers), t) =>
          (.ready (.ok (if L.isEmpty headers then none else some headers)), { d with finished := true },
            some t.reader)
        | (.ready (.error e), t) => (.ready (.error e), d, some t.reader)
        | (.pending, t) => (.pending, d, some t.reader)

/-- A caller reading with buffers of the given sizes: the bytes of each ready
    read, until one gives nothing, a read fails, or the sizes run out. -/
def readAll (libs : ByteLibs) (fuel : Nat) :
    List Nat → HttpBodyDecodeReader → Option (List (List UInt8) × HttpBodyDecodeReader)
  | [], d => some ([], d)
  | space :: spaces, d =>
    match pollRead libs fuel space d with
    | none => none
    | some (.ready (.ok ()), out, d) =>
      if out = [] then some ([], d)
      else (readAll libs fuel spaces d).map fun (outs, d) => (out :: outs, d)
    | some (.ready (.error _), _, d) => some ([], d)
    | some (.pending, _, d) => readAll libs fuel spaces d

end HttpBodyDecodeReader

end G3Proxy
