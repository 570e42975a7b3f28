/-
  The SMTP DATA decoder of g3-smtp-proto (`io/text_decoder.rs`): a reader
  that reads the dot-stuffed lines of a message, drops the first `.` of a
  line that begins with one, and ends at the line `.\r\n`.

  * `DataDecodeBuffer` keeps the lines read from the underlying reader
    between `start` and `end`, and the part of the current line not yet
    given out (`cache_data`).
  * `pollLine` is the loop of `poll_line` (with fuel): a buffered line, or
    more bytes after moving the buffered ones to the front.
  * `pollRead` is `poll_read` into a caller buffer of `space` bytes; it
    returns the poll, the bytes it put in the caller's buffer and the
    state.  It copies a whole cached line, marks it used, and then waits
    for the next line; when that wait is `Pending` the poll is `Pending`
    although bytes were put in the buffer, and a caller takes a `Pending`
    poll for one that read nothing: `decode_pending_after_copy_loses_line`.
  * `pollGetCache`, `cache` and `consumeCache` are the `AsyncBufRead` side.
-/
import G3Proxy.Io.Stream

namespace G3Proxy

open AsyncIo

/-- `DataDecodeBuffer`.  Of the buffer's bytes the model keeps those below
    `end`; `capacity` is its length. -/
structure DataDecodeBuffer where
  buf : List UInt8
  capacity : Nat
  start : Nat
  «end» : Nat
  cacheData : Option (Nat × Nat)
  readDone : Bool
  deriving Repr, DecidableEq

namespace DataDecodeBuffer

/-- `DataDecodeBuffer::new`. -/
def new (bufSize : Nat) : DataDecodeBuffer := ⟨[], bufSize, 0, 0, none, false⟩

/-- The bytes from `i` to `j`. -/
def slice (b : DataDecodeBuffer) (i j : Nat) : List UInt8 := (b.buf.drop i).take (j - i)

/-- `poll_fill_buf`: read after `end`; the count read. -/
def pollFillBuf (b : DataDecodeBuffer) (r : Source) :
    Poll (Except IoError Nat) × DataDecodeBuffer × Source :=
  match r.read (b.capacity - b.end) with
  | (.ready (.ok d), r) =>
    (.ready (.ok d.length), { b with buf := b.buf.take b.end ++ d, «end» := b.end + d.length }, r)
  | (.ready (.error e), r) => (.ready (.error e), b, r)
  | (.pending, r) => (.pending, b, r)

/-- `get_line`: the first whole line after `start`. -/
def getLine (b : DataDecodeBuffer) : Option (Nat × Nat) :=
  if b.start ≥ b.end then none
  else (b.slice b.start b.end).idxOf? 10 |>.map fun p => (b.start, b.start + p + 1)

/-- The loop of `poll_line`; `none` when the fuel runs out. -/
def pollLine : Nat → DataDecodeBuffer → Source →
    Option (Poll (Except IoError (Nat × Nat)) × DataDecodeBuffer × Source)
  | 0, _, _ => none
  | fuel + 1, b, r =>
    match b.getLine with
    | some v => some (.ready (.ok v), b, r)
    | none =>
      -- move the buffered bytes to the front, unless the buffer is full
      let moved :=
        if b.start > 0 then
          some { b with buf := b.slice b.start b.end, «end» := b.end - b.start, start := 0 }
        else if b.end ≥ b.capacity then none
        else some b
      match moved with
      | none => some (.ready (.error ⟨.other, "line too long"⟩), b, r)
      | some b =>
        match b.pollFillBuf r with
        | (.ready (.ok 0), b, r) =>
          some (.ready (.error ⟨.unexpectedEof, "connection closed while reading line end"⟩), b, r)
        | (.ready (.ok _), b, r) => pollLine fuel b r
        | (.ready (.error e), b, r) => some (.ready (.error e), b, r)
        | (.pending, b, r) => some (.pending, b, r)

/-- A line just read: the end line `.\r\n`, or the bytes to give out (the
    first `.` dropped). -/
def takeLine (b : DataDecodeBuffer) (start «end» : Nat) : DataDecodeBuffer :=
  let line := b.slice start «end»
  if line.head? = some 46 then
    if line = [46, 13, 10] then { b with readDone := true }
    else { b with cacheData := some (start + 1, «end») }
  else { b with cacheData := some (start, «end») }

/-- The loop of `poll_read`: `out` is what is already in the caller's
    buffer, `space` what is left of it. -/
def pollReadLoop : Nat → List UInt8 → Nat → DataDecodeBuffer → Source →
    Option (Poll (Except IoError Unit) × List UInt8 × DataDecodeBuffer × Source)
  | 0, _, _, _, _ => none
  | fuel + 1, out, space, b, r =>
    -- copy the cached line, or what of it fits
    let copied :=
      match b.cacheData with
      | some (ds, de) =>
        let cache := b.slice ds de
        if cache.length ≥ space then
          Sum.inl (out ++ cache.take space, { b with cacheData := some (ds + space, de) })
        else Sum.inr (out ++ cache, space - cache.length, { b with cacheData := none, start := de })
      | none => Sum.inr (out, space, b)
    match copied with
    | .inl (out, b) => some (.ready (.ok ()), out, b, r)
    | .inr (out, space, b) =>
      match pollLine fuel b r with
      | none => none
      | some (.ready (.ok (start, «end»)), b, r) =>
        let b := b.takeLine start «end»
        if b.readDone then some (.ready (.ok ()), out, b, r)
        else pollReadLoop fuel out space b r
      | some (.ready (.error e), b, r) => some (.ready (.error e), out, b, r)
      | some (.pending, b, r) => some (.pending, out, b, r)

/-- `poll_read` into a caller buffer with `space` bytes free. -/
def pollRead (fuel : Nat) (b : DataDecodeBuffer) (r : Source) (space : Nat) :
    Option (Poll (Except IoError Unit) × List UInt8 × DataDecodeBuffer × Source) :=
  if b.readDone then some (.ready (.ok ()), [], b, r)
  else pollReadLoop fuel [] space b r

/-- `poll_get_cache`. -/
def pollGetCache (fuel : Nat) (b : DataDecodeBuffer) (r : Source) :
    Option (Poll (Except IoError Unit) × DataDecodeBuffer × Source) :=
  if b.readDone then some (.ready (.ok ()), b, r)
  else if b.cacheData.isSome then some (.ready (.ok ()), b, r)
  else
    match pollLine fuel b r with
    | none => none
    | some (.ready (.ok (start, «end»)), b, r) => some (.ready (.ok ()), b.takeLine start «end», r)
    | some (.ready (.error e), b, r) => some (.ready (.error e), b, r)
    | some (.pending, b, r) => some (.pending, b, r)

/-- `cache`. -/
def cache (b : DataDecodeBuffer) : List UInt8 :=
  match b.cacheData with
  | some (start, «end») => b.slice start «end»
  | none => []

/-- `consume_cache`. -/
def consumeCache (b : DataDecodeBuffer) (amt : Nat) : DataDecodeBuffer :=
  match b.cacheData with
  | some (start, «end») =>
    if amt < «end» - start then { b with cacheData := some (start + amt, «end») }
    else { b with cacheData := none, start := «end» }
  | none => b

end DataDecodeBuffer

/-- `TextDataDecodeReader`: the underlying reader and the buffer. -/
structure TextDataDecodeReader where
  reader : Source
  buf : DataDecodeBuffer

namespace TextDataDecodeReader

/-- `TextDataDecodeReader::new`. -/
def new (reader : Source) (bufSize : Nat) : TextDataDecodeReader := ⟨reader, .new bufSize⟩

/-- `finished`. -/
def finished (t : TextDataDecodeReader) : Bool := t.buf.readDone

/-- `AsyncRead::poll_read` into a caller buffer with `space` bytes free. -/
def pollRead (fuel : Nat) (t : TextDataDecodeReader) (space : Nat) :
    Option (Poll (Except IoError Unit) × List UInt8 × TextDataDecodeReader) :=
  (t.buf.pollRead fuel t.reader space).map fun (p, out, b, r) => (p, out, ⟨r, b⟩)

/-- A caller reading with buffers of the given sizes: the bytes of the polls
    that are ready, until the reader finishes or fails or the sizes run
    out. -/
def readAll (fuel : Nat) : List Nat → TextDataDecodeReader → Option (List UInt8 × TextDataDecodeReader)
  | [], t => some ([], t)
  | space :: spaces, t =>
    match t.pollRead fuel space with
    | none => none
    | some (.ready (.ok ()), out, t) =>
      if t.finished then some (out, t)
      else (readAll fuel spaces t).map fun (rest, t) => (out ++ rest, t)
    | some (.ready (.error _), out, t) => some (out, t)
    | some (.pending, _, t) => readAll fuel spaces t

/-- The message `a\r\n.\r\n` read as `a\r\n`, not ready, `.\r\n`: the line
    `a\r\n` is copied into the caller's buffer by a poll that ends
    `Pending`, and no ready poll delivers it. -/
theorem decode_pending_after_copy_loses_line :
    ∃ t, readAll 8 [16, 16] (new ⟨[], [.data [97, 13, 10], .pending, .data [46, 13, 10]]⟩ 64) =
        some ([], t) ∧ t.finished = true := by
  refine ⟨_, rfl, ?_⟩
  decide

end TextDataDecodeReader

end G3Proxy
