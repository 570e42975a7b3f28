/-
  The SMTP DATA encoder of g3-smtp-proto (`io/text_encoder.rs`): a copy
  from a reader to a writer that stuffs a `.` before every line that begins
  with one and ends the data with `.\r\n` (or `\r\n.\r\n` after an
  unterminated last line).

  * `EncodeCopyBuffer` is the copy buffer with the line tracking of the
    code: `line_end` is the end of the line being written (or of the
    buffered data when no `\n` is buffered), `check_line` asks to look at the
    first byte at the next write, and `write_dot` is a stuffed `.` still to
    write.
  * `writeBufLoop` is the loop of `poll_write_buf` and `copyLoop` the loop
    of `poll_copy`, with fuel.
  * `check_line` is set again whenever the write cursor reaches `line_end`,
    also when `line_end` is only the end of the buffered data, so the first
    byte of the next read is taken for the start of a line:
    `encode_dot_after_split_stuffed`.
-/
import G3Proxy.Io.LimitedCopy

namespace G3Proxy

open AsyncIo

/-- `EncodeCopyBuffer`.  Of the buffer's bytes the model keeps those below
    `r_off`; `capacity` is its length. -/
structure EncodeCopyBuffer where
  readDone : Bool
  buf : List UInt8
  capacity : Nat
  yieldSize : Nat
  rOff : Nat
  wOff : Nat
  total : Nat
  needFlush : Bool
  active : Bool
  lineEnd : Nat
  checkLine : Bool
  writeDot : Bool
  readEndOk : Bool
  writeAppendLine : Bool
  deriving Repr, DecidableEq

namespace EncodeCopyBuffer

/-- `EncodeCopyBuffer::new`. -/
def new (config : LimitedCopyConfig) : EncodeCopyBuffer :=
  { readDone := false, buf := [], capacity := config.bufferSize, yieldSize := config.yieldSize,
    rOff := 0, wOff := 0, total := 0, needFlush := false, active := false, lineEnd := 0,
    checkLine := true, writeDot := false, readEndOk := true, writeAppendLine := false }

/-- `poll_fill_buf`: read only while at least 16 bytes are free. -/
def pollFillBuf (b : EncodeCopyBuffer) (r : Source) :
    Poll (Except IoError Unit) × EncodeCopyBuffer × Source :=
  if b.rOff + 16 ≥ b.capacity then (.ready (.ok ()), b, r)
  else
    match r.read (b.capacity - b.rOff) with
    | (.ready (.ok d), r) =>
      let filledLen := b.rOff + d.length
      let buf := b.buf.take b.rOff ++ d
      if b.rOff = filledLen then (.ready (.ok ()), { b with buf, readDone := true }, r)
      else
        (.ready (.ok ()),
          { b with buf, rOff := filledLen, readEndOk := buf.getLast? = some 10, active := true }, r)
    | (.ready (.error e), r) => (.ready (.error e), b, r)
    | (.pending, r) => (.pending, b, r)

/-- A write of `d` counted in `total`: `poll_write_dot` for `.` and
    `poll_write_line` for the rest of the line; `advance` says whether the
    write cursor moves. -/
def pollWriteCounted (b : EncodeCopyBuffer) (w : Sink) (d : List UInt8) (advance : Bool) :
    CopyPoll × EncodeCopyBuffer × Sink :=
  match w.write d with
  | (.pending, w) => (.pending, b, w)
  | (.ready (.error e), w) => (.ready (.error (.writeFailed e)), b, w)
  | (.ready (.ok n), w) =>
    if n = 0 then
      (.ready (.error (.writeFailed ⟨.writeZero, "write zero byte into writer"⟩)), b, w)
    else
      (.ready (.ok n),
        { b with wOff := if advance then b.wOff + n else b.wOff, total := b.total + n,
                 needFlush := true, active := true }, w)

/-- `poll_write_dot`. -/
def pollWriteDot (b : EncodeCopyBuffer) (w : Sink) : CopyPoll × EncodeCopyBuffer × Sink :=
  b.pollWriteCounted w [46] false

/-- `poll_write_line`: the bytes from `w_off` to `line_end`. -/
def pollWriteLine (b : EncodeCopyBuffer) (w : Sink) : CopyPoll × EncodeCopyBuffer × Sink :=
  b.pollWriteCounted w ((b.buf.drop b.wOff).take (b.lineEnd - b.wOff)) true

/-- The loop of `poll_write_buf`, `nw` bytes written so far; `none` when the
    fuel runs out. -/
def writeBufLoop : Nat → Nat → EncodeCopyBuffer → Sink → Option (CopyPoll × EncodeCopyBuffer × Sink)
  | 0, _, _, _ => none
  | fuel + 1, nw, b, w =>
    if b.wOff < b.rOff then
      -- a stuffed dot is written first
      match (if b.writeDot then b.pollWriteDot w else (.ready (.ok 0), b, w)) with
      | (.ready (.ok i), b, w) =>
        let nw := nw + i
        let b := { b with writeDot := false }
        let left := (b.buf.drop b.wOff).take (b.rOff - b.wOff)
        let b :=
          if b.lineEnd ≤ b.wOff then
            { b with lineEnd := match left.idxOf? 10 with
                | some p => b.wOff + p + 1
                | none => b.rOff }
          else b
        let writeLine := fun (b : EncodeCopyBuffer) =>
          match b.pollWriteLine w with
          | (.ready (.ok i), b, w) =>
            writeBufLoop fuel (nw + i) (if b.wOff ≥ b.lineEnd then { b with checkLine := true } else b) w
          | (res, b, w) => some (res, b, w)
        if b.checkLine then
          let b := { b with checkLine := false }
          if left.head? = some 46 then writeBufLoop fuel nw { b with writeDot := true } w
          else writeLine b
        else writeLine b
      | (res, b, w) => some (res, b, w)
    else some (.ready (.ok nw), if b.lineEnd = b.rOff then { b with lineEnd := 0 } else b, w)

end EncodeCopyBuffer

/-- The state of one poll of `poll_copy`. -/
structure EncodeRound where
  buf : EncodeCopyBuffer
  reader : Source
  writer : Sink
  copyThisRound : Nat

namespace EncodeRound

/-- `poll_flush` of the writer, then `k` on success. -/
def flushThen (s : EncodeRound) (k : EncodeRound → Option (CopyPoll × EncodeRound)) :
    Option (CopyPoll × EncodeRound) :=
  match s.writer.flush with
  | (.pending, w) => some (.pending, { s with writer := w })
  | (.ready (.error e), w) => some (.ready (.error (.writeFailed e)), { s with writer := w })
  | (.ready (.ok ()), w) => k { s with writer := w }

/-- The loop of `poll_copy`; `none` when the fuel runs out. -/
def copyLoop : Nat → EncodeRound → Option (CopyPoll × EncodeRound)
  | 0, _ => none
  | fuel + 1, s =>
    if s.buf.writeAppendLine then
      -- the end of the data, written from the buffer
      match s.buf.pollWriteLine s.writer with
      | (.ready (.ok nw), b, w) =>
        let s := { s with buf := b, writer := w, copyThisRound := s.copyThisRound + nw }
        if s.buf.wOff ≥ s.buf.rOff then
          if s.buf.needFlush then s.flushThen fun s => some (.ready (.ok s.buf.total), s)
          else some (.ready (.ok s.buf.total), s)
        else copyLoop fuel s
      | (res, b, w) => some (res, { s with buf := b, writer := w })
    else
      let afterRead := fun (s : EncodeRound) =>
        match EncodeCopyBuffer.writeBufLoop fuel 0 s.buf s.writer with
        | none => none
        | some (.ready (.ok nw), b, w) =>
          let s := { s with buf := b, writer := w, copyThisRound := s.copyThisRound + nw }
          if s.copyThisRound ≥ s.buf.yieldSize then some (.pending, s)
          else if s.buf.readDone ∧ s.buf.wOff = s.buf.rOff then
            let b := s.buf
            let b :=
              if b.readEndOk then { b with wOff := 0, buf := [46, 13, 10], lineEnd := 3, rOff := 3 }
              else { b with wOff := 0, buf := [13, 10, 46, 13, 10], lineEnd := 5, rOff := 5 }
            copyLoop fuel { s with buf := { b with writeAppendLine := true } }
          else copyLoop fuel s
        | some (res, b, w) => some (res, { s with buf := b, writer := w })
      if !s.buf.readDone then
        let b := if s.buf.wOff = s.buf.rOff then { s.buf with wOff := 0, rOff := 0 } else s.buf
        match b.pollFillBuf s.reader with
        | (.ready (.ok ()), b, r) => afterRead { s with buf := b, reader := r }
        | (.ready (.error e), b, r) =>
          some (.ready (.error (.readFailed e)), { s with buf := b, reader := r })
        | (.pending, b, r) =>
          let s := { s with buf := b, reader := r }
          if b.wOff ≥ b.rOff then
            if b.needFlush then
              s.flushThen fun s => some (.pending, { s with buf := { s.buf with needFlush := false } })
            else some (.pending, s)
          else afterRead s
      else afterRead s

end EncodeRound

/-- `TextDataEncodeTransfer`. -/
structure TextDataEncodeTransfer where
  reader : Source
  writer : Sink
  buf : EncodeCopyBuffer

namespace TextDataEncodeTransfer

/-- `TextDataEncodeTransfer::new`. -/
def new (reader : Source) (writer : Sink) (config : LimitedCopyConfig) : TextDataEncodeTransfer :=
  ⟨reader, writer, .new config⟩

/-- `finished`. -/
def finished (t : TextDataEncodeTransfer) : Bool := t.buf.readDone && t.buf.rOff = t.buf.wOff

/-- `Future::poll`, with `fuel` rounds of the loops. -/
def poll (fuel : Nat) (t : TextDataEncodeTransfer) : Option (CopyPoll × TextDataEncodeTransfer) :=
  (EncodeRound.copyLoop fuel ⟨t.buf, t.reader, t.writer, 0⟩).map fun (res, s) =>
    (res, ⟨s.reader, s.writer, s.buf⟩)

/-- Poll until the future is ready, at most `polls` times. -/
def run (fuel : Nat) : Nat → TextDataEncodeTransfer → Option (CopyPoll × TextDataEncodeTransfer)
  | 0, t => some (.pending, t)
  | polls + 1, t =>
    match poll fuel t with
    | some (.pending, t) => run fuel polls t
    | r => r

/-- The data `a.` read as `a` then `.`: the `.` is not at the start of a
    line, yet it is stuffed, and `a..\r\n.\r\n` is written where dot-stuffing
    gives `a.\r\n.\r\n`. -/
theorem encode_dot_after_split_stuffed :
    ∃ t, run 16 1 (new (.ofSegments [[97], [46]]) (.open_ []) .default) = some (.ready (.ok 8), t) ∧
      t.writer.written = [97, 46, 46, 13, 10, 46, 13, 10] := by
  refine ⟨_, rfl, ?_⟩
  decide

end TextDataEncodeTransfer

end G3Proxy
