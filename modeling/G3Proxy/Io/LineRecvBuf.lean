/-
  Line buffers (g3-io-ext `io/line_recv_buf.rs`, `io/line_recv_vec.rs`):
  `LineRecvBuf<C>` and `LineRecvVec` run the same code over a buffer of
  capacity `C`, so one model covers both.

  * The buffer keeps three cursors: bytes `[line_start, length)` are received
    and not consumed (`pending`), and when `line_end > line_start` the
    bytes `[line_start, line_end)` are the line found there.  `Wf` says the
    cursors are in order within the capacity and that a line found is the
    pending bytes up to their first line feed; under it every slice of the
    code is in range, so slices are read with `drop` and `take`.
  * The reader is the answers of its `read_buf` calls (`AsyncIo.ReadEvent`),
    awaited: a not-ready answer is waited out, a segment longer than the
    space offered is read in part and the rest stays, and once the answers
    run out every read returns 0.  `read_line_size` loops with the space
    left as fuel; each pass reads at least a byte.
  * `readLineSize_spec`: a read keeps `Wf` and moves bytes from the reader to
    the buffer without losing any; it finds the next line of what is not
    consumed, or ends with `IoClosed` only when the stream ended with no line
    feed, or with `LineTooLong` when the buffer is full with none.
  * `readLineSize_lineTooLong_iff`: `LineTooLong` comes exactly when the
    next `C - line_start` bytes of the stream hold no line feed.  After
    `consume_left(k)` the cursor `line_start` stays at `k` (no compaction), so
    a line of up to `C` bytes can be refused.
  * `runOps_accounts`: over every run of reads, `consume_line` and
    `consume_left` calls, the consumed bytes, then the pending ones, then the
    reader's, are the stream.
-/
import G3Proxy.Io.Stream
import G3Proxy.Core.Lists

namespace G3Proxy

open AsyncIo

/-! ## The model -/

/-- `RecvLineError`, the variants a read returns. -/
inductive RecvLineError where
  | ioError (e : IoError)
  | ioClosed
  | lineTooLong
  deriving Repr, DecidableEq

/-- `read_buf(..).await` with `space` bytes offered. -/
def readBuf (space : Nat) : List ReadEvent → Except IoError (List UInt8) × List ReadEvent
  | [] => (.ok [], [])
  | .pending :: es => readBuf space es
  | .error e :: es => (.error e, es)
  | .data d :: es => if d.length ≤ space then (.ok d, es) else (.ok (d.take space), .data (d.drop space) :: es)

/-- `LineRecvBuf<C>` and `LineRecvVec`: the buffer's length is the
    capacity. -/
structure LineRecvBuf where
  length : Nat
  lineStart : Nat
  lineEnd : Nat
  buf : List UInt8
  deriving Repr, DecidableEq

namespace LineRecvBuf

/-- `LineRecvBuf::<C>::default()`, and `LineRecvVec::with_capacity(C)`. -/
def default (capacity : Nat) : LineRecvBuf := ⟨0, 0, 0, List.replicate capacity 0⟩

/-- `LineRecvVec::with_data(data, cap)`. -/
def withData (data : List UInt8) (cap : Nat) : LineRecvBuf :=
  ⟨data.length, 0, 0, data ++ List.replicate (cap - data.length) 0⟩

def capacity (b : LineRecvBuf) : Nat := b.buf.length

/-- The bytes received and not consumed, `buf[line_start..length]`. -/
def pending (b : LineRecvBuf) : List UInt8 := (b.buf.take b.length).drop b.lineStart

/-- The line found, `buf[line_start..line_end]`. -/
def line (b : LineRecvBuf) : List UInt8 := (b.buf.take b.lineEnd).drop b.lineStart

/-- `get_line`: `some`, with `line_end` set, when the pending bytes hold a
    line. -/
def getLine (b : LineRecvBuf) : Option LineRecvBuf :=
  if b.lineEnd > b.lineStart then some b
  else if b.lineStart ≥ b.length then none
  else
    match ((b.buf.take b.length).drop b.lineStart).idxOf? 10 with
    | some p => some { b with lineEnd := b.lineStart + p + 1 }
    | none => none

/-- The bytes a `read_buf` wrote at `length`. -/
def fill (b : LineRecvBuf) (data : List UInt8) : LineRecvBuf :=
  { b with length := b.length + data.length,
           buf := b.buf.take b.length ++ data ++ b.buf.drop (b.length + data.length) }

/-- The loop of `read_line_size`. -/
def readLoop : Nat → LineRecvBuf → List ReadEvent → Option (Except RecvLineError Unit × LineRecvBuf × List ReadEvent)
  | 0, _, _ => none
  | fuel + 1, b, es =>
    if b.capacity ≤ b.length then
      -- `unfilled` is empty
      some (match b.getLine with
        | some b' => (.ok (), b', es)
        | none => (.error .lineTooLong, b, es))
    else
      match readBuf (b.capacity - b.length) es with
      | (.error e, es') => some (.error (.ioError e), b, es')
      | (.ok data, es') =>
        if data = [] then
          some (match b.getLine with
            | some b' => (.ok (), b', es')
            | none => (.error .ioClosed, b, es'))
        else
          match (b.fill data).getLine with
          | some b' => some (.ok (), b', es')
          | none => readLoop fuel (b.fill data) es'

/-- `read_line_size`. -/
def readLineSize (b : LineRecvBuf) (es : List ReadEvent) :
    Option (Except RecvLineError Unit × LineRecvBuf × List ReadEvent) :=
  match b.getLine with
  | some b' => some (.ok (), b', es)
  | none => readLoop (b.capacity - b.length + 1) b es

/-- `read_line`: the line, `buf[line_start..line_end]`. -/
def readLine (b : LineRecvBuf) (es : List ReadEvent) :
    Option (Except RecvLineError (List UInt8) × LineRecvBuf × List ReadEvent) :=
  (b.readLineSize es).map fun r => (r.1.map fun _ => r.2.1.line, r.2.1, r.2.2)

/-- `buffered_line`. -/
def bufferedLine (b : LineRecvBuf) : Option (List UInt8) × LineRecvBuf :=
  match b.getLine with
  | some b' => (some b'.line, b')
  | none => (none, b)

/-- `consume_line`: past the line; when no line is left, the pending bytes
    move to the front. -/
def consumeLine (b : LineRecvBuf) : LineRecvBuf :=
  let b₁ := { b with lineStart := b.lineEnd }
  match b₁.getLine with
  | some b₂ => b₂
  | none =>
    if b₁.lineStart < b₁.length then
      -- `copy_within(line_start..length, 0)`
      { b₁ with buf := (b₁.buf.take b₁.length).drop b₁.lineStart ++ b₁.buf.drop (b₁.length - b₁.lineStart),
                length := b₁.length - b₁.lineStart, lineStart := 0, lineEnd := 0 }
    else { b₁ with length := 0, lineStart := 0, lineEnd := 0 }

/-- `consume_left(max_size)`: at most `max_size` pending bytes, and
    `line_start` past them. -/
def consumeLeft (b : LineRecvBuf) (maxSize : Nat) : List UInt8 × LineRecvBuf :=
  if b.lineStart ≥ b.length then ([], b)
  else
    let left := b.length - b.lineStart
    let start := b.lineStart
    if maxSize ≥ left then ((b.buf.take b.length).drop start, { b with length := 0, lineStart := 0, lineEnd := 0 })
    else ((b.buf.take (start + maxSize)).drop start, { b with lineStart := start + maxSize, lineEnd := start + maxSize })

/-- `is_empty`. -/
def isEmpty (b : LineRecvBuf) : Bool := b.length == 0

end LineRecvBuf

/-! ## The reader -/

/-- The bytes the answers still hold. -/
def streamBytes (es : List ReadEvent) : List UInt8 := es.flatMap ReadEvent.bytes

/-- No answer is an empty segment: a read returns 0 only at the end of the
    stream. -/
def Segments (es : List ReadEvent) : Prop := ∀ d, ReadEvent.data d ∈ es → d ≠ []

theorem Segments.tail {e : ReadEvent} {es : List ReadEvent} (h : Segments (e :: es)) : Segments es :=
  fun d hd => h d (List.mem_cons_of_mem _ hd)

/-- An awaited read of at most `space > 0` bytes: some next bytes of the
    stream, the end of the stream, or an error the reader gave. -/
theorem readBuf_spec {space : Nat} (hspace : 0 < space) {es : List ReadEvent} (hs : Segments es) :
    (∃ data es', readBuf space es = (.ok data, es') ∧ data ≠ [] ∧ data.length ≤ space ∧
        data ++ streamBytes es' = streamBytes es ∧ Segments es' ∧
        ∀ e, ReadEvent.error e ∈ es' → ReadEvent.error e ∈ es) ∨
      (readBuf space es = (.ok [], []) ∧ streamBytes es = []) ∨
      (∃ e es', readBuf space es = (.error e, es') ∧ ReadEvent.error e ∈ es ∧
        streamBytes es' = streamBytes es ∧ Segments es') := by
  induction es with
  | nil => exact .inr (.inl ⟨rfl, rfl⟩)
  | cons e es ih =>
    cases e with
    | pending =>
      -- a not-ready answer is waited out
      rcases ih hs.tail with ⟨data, es', h, hne, hle, hbytes, hs', herr⟩ | ⟨h, hbytes⟩ | ⟨e, es', h, hmem, hbytes, hs'⟩
      · exact .inl ⟨data, es', h, hne, hle, by simpa [streamBytes, ReadEvent.bytes] using hbytes, hs',
          fun e he => List.mem_cons_of_mem _ (herr e he)⟩
      · exact .inr (.inl ⟨h, by simpa [streamBytes, ReadEvent.bytes] using hbytes⟩)
      · exact .inr (.inr ⟨e, es', h, List.mem_cons_of_mem _ hmem,
          by simpa [streamBytes, ReadEvent.bytes] using hbytes, hs'⟩)
    | error e => exact .inr (.inr ⟨e, es, rfl, List.mem_cons_self, by simp [streamBytes, ReadEvent.bytes], hs.tail⟩)
    | data d =>
      have hd : d ≠ [] := hs d List.mem_cons_self
      by_cases hfit : d.length ≤ space
      · exact .inl ⟨d, es, by simp [readBuf, hfit], hd, hfit, by simp [streamBytes, ReadEvent.bytes], hs.tail,
          fun e he => List.mem_cons_of_mem _ he⟩
      · -- the rest of the segment stays for the next read
        refine .inl ⟨d.take space, .data (d.drop space) :: es, by simp [readBuf, hfit], ?_, by simp, ?_, ?_,
          fun e he => by simpa using he⟩
        · simpa [List.take_eq_nil_iff] using ⟨Nat.pos_iff_ne_zero.1 hspace, hd⟩
        · simp [streamBytes, ReadEvent.bytes, ← List.append_assoc]
        · intro d' hd'
          rcases List.mem_cons.1 hd' with h | h
          · cases h
            simp
            omega
          · exact hs.tail d' h

/-! ## Getting a line -/

namespace LineRecvBuf

variable {b b' : LineRecvBuf}

/-- The cursors in order within the capacity, and a line found ends at the
    first line feed of the pending bytes. -/
structure Wf (b : LineRecvBuf) : Prop where
  start_le_end : b.lineStart ≤ b.lineEnd
  end_le_length : b.lineEnd ≤ b.length
  length_le : b.length ≤ b.capacity
  line : b.lineStart < b.lineEnd → b.pending.idxOf? 10 = some (b.lineEnd - b.lineStart - 1)

theorem length_le_buf (hw : b.Wf) : b.length ≤ b.buf.length := hw.length_le

/-- A buffer with its cursors in order and no line found is well formed. -/
theorem wf_of_no_line (he : b.lineEnd = b.lineStart) (hs : b.lineStart ≤ b.length) (hl : b.length ≤ b.capacity) :
    b.Wf :=
  ⟨by omega, by omega, hl, fun h => absurd h (by omega)⟩

theorem default_wf (capacity : Nat) : (default capacity).Wf :=
  wf_of_no_line rfl (Nat.zero_le _) (Nat.zero_le _)

theorem withData_wf (data : List UInt8) (cap : Nat) : (withData data cap).Wf :=
  wf_of_no_line rfl (Nat.zero_le _) (by simp [withData, capacity])

theorem length_pending (hw : b.Wf) : b.pending.length = b.length - b.lineStart := by
  simp [pending, Nat.min_eq_left (length_le_buf hw)]

/-- `get_line` is a search of the pending bytes. -/
theorem getLine_eq (b : LineRecvBuf) :
    b.getLine = if b.lineStart < b.lineEnd then some b
      else (b.pending.idxOf? 10).map fun p => { b with lineEnd := b.lineStart + p + 1 } := by
  unfold getLine
  by_cases h₁ : b.lineStart < b.lineEnd
  · rw [if_pos h₁, if_pos h₁]
  · rw [if_neg h₁, if_neg h₁]
    by_cases h₂ : b.lineStart ≥ b.length
    · -- nothing pending
      have hnil : b.pending = [] := by
        simp only [pending, List.drop_eq_nil_iff, List.length_take]
        omega
      rw [if_pos h₂, hnil]
      rfl
    · rw [if_neg h₂, pending]
      split <;> simp [*]

/-- A line already found is kept; otherwise one is found at the first line
    feed of the pending bytes. -/
theorem getLine_some (hw : b.Wf) (h : b.getLine = some b') :
    b'.Wf ∧ b'.length = b.length ∧ b'.lineStart = b.lineStart ∧ b'.buf = b.buf ∧ b'.lineStart < b'.lineEnd := by
  rw [getLine_eq] at h
  split at h
  · cases h
    exact ⟨hw, rfl, rfl, rfl, ‹_›⟩
  · obtain ⟨p, hp, rfl⟩ := Option.map_eq_some_iff.1 h
    have hlt : p < b.pending.length := (List.idxOf?_eq_some_iff.1 hp).1
    rw [length_pending hw] at hlt
    refine ⟨⟨by simp; omega, by simp; omega, hw.length_le, fun _ => ?_⟩, rfl, rfl, rfl, by simp⟩
    simpa [pending, show b.lineStart + p + 1 - b.lineStart - 1 = p by omega] using hp

/-- No line is found only when none is pending and no line feed is. -/
theorem getLine_none (hw : b.Wf) (h : b.getLine = none) : b.lineEnd = b.lineStart ∧ 10 ∉ b.pending := by
  rw [getLine_eq] at h
  split at h
  · cases h
  · refine ⟨by have := hw.start_le_end; omega, ?_⟩
    exact List.idxOf?_eq_none_iff.1 (Option.map_eq_none_iff.1 h)

/-- A `read_buf` that fits: its bytes follow the pending ones. -/
theorem fill_spec (hw : b.Wf) {data : List UInt8} (hfit : b.length + data.length ≤ b.capacity) :
    (b.fill data).Wf ∧ (b.fill data).pending = b.pending ++ data ∧ (b.fill data).capacity = b.capacity ∧
      (b.fill data).lineStart = b.lineStart ∧ (b.fill data).lineEnd = b.lineEnd ∧
      (b.fill data).length = b.length + data.length := by
  have hlen : (b.buf.take b.length).length = b.length := by simp [Nat.min_eq_left (length_le_buf hw)]
  have hstart : b.lineStart ≤ (b.buf.take b.length).length := by
    rw [hlen]
    exact Nat.le_trans hw.start_le_end hw.end_le_length
  have hpend : (b.fill data).pending = b.pending ++ data := by
    simp only [pending, fill]
    rw [List.append_assoc, List.take_append, hlen, List.take_of_length_le (by rw [hlen]; omega),
      show b.length + data.length - b.length = data.length by omega, List.take_append, List.take_length,
      Nat.sub_self, List.take_zero, List.append_nil, List.drop_append_of_le_length hstart]
  have hcap : (b.fill data).capacity = b.capacity := by
    simp only [capacity, fill, List.length_append, List.length_drop, hlen]
    unfold capacity at hfit
    omega
  refine ⟨⟨hw.start_le_end, ?_, ?_, fun hl => ?_⟩, hpend, hcap, rfl, rfl, rfl⟩
  · simp only [fill]
    have := hw.end_le_length
    omega
  · rw [hcap]
    simpa [fill] using hfit
  · rw [hpend]
    exact List.idxOf?_append_of_eq_some (hw.line hl)

/-! ## Reading a line -/

/-- What a read leaves: the buffer well formed, with the same start and
    capacity, the bytes moved from the reader to the buffer without loss, and
    one of its outcomes: a line found, the stream ended with no line feed
    and room left, the buffer full with no line feed, or an error of the
    reader. -/
structure ReadsLine (b : LineRecvBuf) (es : List ReadEvent) (r : Except RecvLineError Unit) (b' : LineRecvBuf)
    (es' : List ReadEvent) : Prop where
  wf : b'.Wf
  lineStart : b'.lineStart = b.lineStart
  capacity : b'.capacity = b.capacity
  stream : b'.pending ++ streamBytes es' = b.pending ++ streamBytes es
  segments : Segments es'
  outcome : (r = .ok () ∧ b'.lineStart < b'.lineEnd) ∨
    (r = .error .ioClosed ∧ streamBytes es' = [] ∧ b'.length < b'.capacity ∧ 10 ∉ b'.pending) ∨
    (r = .error .lineTooLong ∧ b'.length = b'.capacity ∧ 10 ∉ b'.pending) ∨
    (∃ e, r = .error (.ioError e) ∧ ReadEvent.error e ∈ es)

theorem getLine_eq_none (hno : b.lineEnd = b.lineStart) (hnl : 10 ∉ b.pending) : b.getLine = none := by
  rw [getLine_eq, if_neg (by omega), List.idxOf?_eq_none_iff.2 hnl]
  rfl

theorem pending_of_getLine_some (hw : b.Wf) (h : b.getLine = some b') : b'.pending = b.pending := by
  obtain ⟨-, hlen, hls, hbuf, -⟩ := getLine_some hw h
  simp only [pending, hlen, hls, hbuf]

/-- A line found ends the read. -/
theorem readsLine_of_getLine {es : List ReadEvent} (hw : b.Wf) (hs : Segments es) (h : b.getLine = some b') :
    ReadsLine b es (.ok ()) b' es := by
  obtain ⟨hw', -, hls, hbuf, hlt⟩ := getLine_some hw h
  exact ⟨hw', hls, by simp only [capacity, hbuf], by rw [pending_of_getLine_some hw h], hs, .inl ⟨rfl, hlt⟩⟩

theorem readsLine_trans {es₁ es₂ es₃ : List ReadEvent} {b₂ b₃ : LineRecvBuf} {r : Except RecvLineError Unit}
    (hpre : b₂.lineStart = b.lineStart ∧ b₂.capacity = b.capacity ∧
      b₂.pending ++ streamBytes es₂ = b.pending ++ streamBytes es₁ ∧
      ∀ e, ReadEvent.error e ∈ es₂ → ReadEvent.error e ∈ es₁)
    (h : ReadsLine b₂ es₂ r b₃ es₃) : ReadsLine b es₁ r b₃ es₃ := by
  obtain ⟨hls, hcap, hstream, herr⟩ := hpre
  refine ⟨h.wf, h.lineStart.trans hls, h.capacity.trans hcap, h.stream.trans hstream, h.segments, ?_⟩
  rcases h.outcome with h₁ | h₁ | h₁ | ⟨e, he, hmem⟩
  · exact .inl h₁
  · exact .inr (.inl h₁)
  · exact .inr (.inr (.inl h₁))
  · exact .inr (.inr (.inr ⟨e, he, herr e hmem⟩))

/-- The loop of `read_line_size`, from a buffer with no line pending: with
    fuel past the space left, it returns, and `ReadsLine` holds. -/
theorem readLoop_spec : ∀ (fuel : Nat) (b : LineRecvBuf) (es : List ReadEvent), b.Wf → b.lineEnd = b.lineStart →
    10 ∉ b.pending → Segments es → b.capacity - b.length < fuel →
    ∃ r b' es', b.readLoop fuel es = some (r, b', es') ∧ ReadsLine b es r b' es' := by
  intro fuel
  induction fuel with
  | zero => intro b es _ _ _ _ hfuel; omega
  | succ fuel ih =>
    intro b es hw hno hnl hs hfuel
    have hnone := getLine_eq_none hno hnl
    unfold readLoop
    by_cases hfull : b.capacity ≤ b.length
    · -- no room: the line is too long
      rw [if_pos hfull, hnone]
      exact ⟨_, _, _, rfl, hw, rfl, rfl, rfl, hs,
        .inr (.inr (.inl ⟨rfl, Nat.le_antisymm hw.length_le hfull, hnl⟩))⟩
    · rw [if_neg hfull]
      rcases readBuf_spec (show 0 < b.capacity - b.length by omega) hs with
        ⟨data, es', hr, hne, hle, hbytes, hs', herr⟩ | ⟨hr, hbytes⟩ | ⟨e, es', hr, hmem, hbytes, hs'⟩
      · -- some bytes: they follow the pending ones
        obtain ⟨hwf, hpend, hcap, hls, hle', -⟩ := fill_spec hw (show b.length + data.length ≤ b.capacity by omega)
        have hstream : (b.fill data).pending ++ streamBytes es' = b.pending ++ streamBytes es := by
          rw [hpend, List.append_assoc, hbytes]
        rw [hr]
        simp only [if_neg hne]
        cases hg : (b.fill data).getLine with
        | some b' =>
          exact ⟨_, _, _, rfl, readsLine_trans ⟨hls, hcap, hstream, herr⟩ (readsLine_of_getLine hwf hs' hg)⟩
        | none =>
          obtain ⟨hno', hnl'⟩ := getLine_none hwf hg
          have hfuel' : (b.fill data).capacity - (b.fill data).length < fuel := by
            rw [hcap]
            simp only [fill]
            have : 0 < data.length := List.length_pos_iff.2 hne
            omega
          obtain ⟨r, b', es'', hloop, hreads⟩ := ih (b.fill data) es' hwf hno' hnl' hs' hfuel'
          exact ⟨r, b', es'', hloop, readsLine_trans ⟨hls, hcap, hstream, herr⟩ hreads⟩
      · -- the end of the stream
        rw [hr]
        simp only [hnone]
        exact ⟨_, _, _, rfl, hw, rfl, rfl, by rw [hbytes]; rfl, fun _ h => absurd h List.not_mem_nil,
          .inr (.inl ⟨rfl, rfl, by omega, hnl⟩)⟩
      · -- the reader's error
        rw [hr]
        exact ⟨_, _, _, rfl, hw, rfl, rfl, by rw [hbytes], hs', .inr (.inr (.inr ⟨e, rfl, hmem⟩))⟩

/-- `read_line_size` returns, and `ReadsLine` holds. -/
theorem readLineSize_spec {es : List ReadEvent} (hw : b.Wf) (hs : Segments es) :
    ∃ r b' es', b.readLineSize es = some (r, b', es') ∧ ReadsLine b es r b' es' := by
  unfold readLineSize
  cases hg : b.getLine with
  | some b' => exact ⟨_, _, _, rfl, readsLine_of_getLine hw hs hg⟩
  | none =>
    obtain ⟨hno, hnl⟩ := getLine_none hw hg
    exact readLoop_spec _ b es hw hno hnl hs (by omega)

/-- A line found is the unconsumed stream up to and including its first
    line feed. -/
theorem ReadsLine.line_eq {es es' : List ReadEvent} {r : Except RecvLineError Unit}
    (h : ReadsLine b es r b' es') (hlt : b'.lineStart < b'.lineEnd) :
    ∃ p, (b.pending ++ streamBytes es).idxOf? 10 = some p ∧ b'.line = (b.pending ++ streamBytes es).take (p + 1) := by
  have hidx := h.wf.line hlt
  have hle : b'.lineEnd - b'.lineStart ≤ b'.pending.length := by
    rw [length_pending h.wf]
    have := h.wf.end_le_length
    omega
  refine ⟨b'.lineEnd - b'.lineStart - 1, by rw [← h.stream]; exact List.idxOf?_append_of_eq_some hidx, ?_⟩
  rw [← h.stream, show b'.lineEnd - b'.lineStart - 1 + 1 = b'.lineEnd - b'.lineStart by omega,
    List.take_append_of_le_length hle]
  simp only [line, pending, List.take_drop]
  rw [Nat.add_sub_cancel' (Nat.le_of_lt hlt), List.take_take, Nat.min_eq_left h.wf.end_le_length]

/-- `read_line_size` gives `LineTooLong` exactly when the next
    `capacity - line_start` bytes of the unconsumed stream hold no line
    feed. -/
theorem readLineSize_lineTooLong_iff {es : List ReadEvent} (hw : b.Wf) (hs : Segments es)
    (hne : ∀ e, ReadEvent.error e ∉ es) :
    (∃ b' es', b.readLineSize es = some (.error .lineTooLong, b', es')) ↔
      b.capacity - b.lineStart ≤ (b.pending ++ streamBytes es).length ∧
        10 ∉ (b.pending ++ streamBytes es).take (b.capacity - b.lineStart) := by
  obtain ⟨r, b', es', hread, h⟩ := readLineSize_spec hw hs
  -- what the buffer holds after the read is a prefix of the unconsumed stream
  have hpre : ∀ n, n ≤ b'.pending.length →
      (b.pending ++ streamBytes es).take n = b'.pending.take n := by
    intro n hn
    rw [← h.stream, List.take_append_of_le_length hn]
  have hroom : b'.pending.length ≤ b.capacity - b.lineStart := by
    rw [length_pending h.wf, h.lineStart, ← h.capacity]
    have := h.wf.length_le
    omega
  rw [hread]
  constructor
  · rintro ⟨b₁, es₁, heq⟩
    cases heq
    rcases h.outcome with ⟨hr, -⟩ | ⟨hr, -⟩ | ⟨-, hfull, hnl⟩ | ⟨e, hr, -⟩
    · cases hr
    · cases hr
    · -- the buffer is full: its pending bytes are the next ones, with no line feed
      have hlen : b'.pending.length = b.capacity - b.lineStart := by
        rw [length_pending h.wf, hfull, h.capacity, h.lineStart]
      refine ⟨by rw [← h.stream, List.length_append]; omega, ?_⟩
      rw [hpre _ (Nat.le_of_eq hlen.symm), List.take_of_length_le (Nat.le_of_eq hlen)]
      exact hnl
    · cases hr
  · rintro ⟨hlong, hnl⟩
    rcases h.outcome with ⟨rfl, hlt⟩ | ⟨rfl, hend, hroom', -⟩ | ⟨rfl, -, -⟩ | ⟨e, -, hmem⟩
    · -- a line found has its line feed within the room
      exfalso
      obtain ⟨hp, h10, -⟩ := List.idxOf?_eq_some_iff.1 (h.wf.line hlt)
      have hle : b'.lineEnd - b'.lineStart ≤ b'.pending.length := by
        rw [length_pending h.wf]
        have := h.wf.end_le_length
        omega
      have hmem : (10 : UInt8) ∈ b'.pending.take (b'.lineEnd - b'.lineStart) := by
        rw [← h10]
        exact List.mem_iff_getElem.2 ⟨b'.lineEnd - b'.lineStart - 1, by simp; omega, by simp⟩
      have htake : (b.pending ++ streamBytes es).take (b'.lineEnd - b'.lineStart) =
          ((b.pending ++ streamBytes es).take (b.capacity - b.lineStart)).take (b'.lineEnd - b'.lineStart) := by
        rw [List.take_take, Nat.min_eq_left (Nat.le_trans hle hroom)]
      rw [← hpre _ hle, htake] at hmem
      exact hnl (List.mem_of_mem_take hmem)
    · -- the stream ended inside the room
      exfalso
      have hlen : (b.pending ++ streamBytes es).length = b'.pending.length := by rw [← h.stream, hend]; simp
      rw [length_pending h.wf, h.lineStart] at hlen
      have := h.capacity
      have := h.lineStart
      have := h.wf.start_le_end
      have := h.wf.end_le_length
      omega
    · exact ⟨_, _, rfl⟩
    · exact absurd hmem (hne e)

/-- `LineRecvBuf<4>` fed "a\nbc" then "de\n": after `read_line` ("a\n"),
    `consume_line` and `consume_left(1)` ("b"), the next line "cde\n" fits
    the capacity, yet the read fails with `LineTooLong`. -/
theorem readLineSize_lineTooLong_iff_afterConsumeLeft :
    ((default 4).readLine [.data [97, 10, 98, 99], .data [100, 101, 10]]).map
        (fun r => (r.1, r.2.1.consumeLine.consumeLeft 1, r.2.2)) =
      some (.ok [97, 10], ([98], ⟨2, 1, 1, [98, 99, 98, 99]⟩), [.data [100, 101, 10]]) ∧
    (⟨2, 1, 1, [98, 99, 98, 99]⟩ : LineRecvBuf).pending ++ streamBytes [.data [100, 101, 10]] = [99, 100, 101, 10] ∧
    (⟨2, 1, 1, [98, 99, 98, 99]⟩ : LineRecvBuf).capacity = 4 ∧
    ∃ b' es', (⟨2, 1, 1, [98, 99, 98, 99]⟩ : LineRecvBuf).readLineSize [.data [100, 101, 10]] =
      some (.error .lineTooLong, b', es') :=
  ⟨rfl, rfl, rfl,
    (readLineSize_lineTooLong_iff (wf_of_no_line rfl (by decide) (by decide))
      (fun d hd => by simp at hd; subst hd; simp) (fun e he => by simp at he)).2 ⟨by decide, by decide⟩⟩

/-! ## Consuming -/

/-- Bytes `[i, j)` then bytes from `j` are bytes from `i`. -/
theorem drop_take_append_drop {l : List UInt8} {i j : Nat} (hij : i ≤ j) (hj : j ≤ l.length) :
    (l.take j).drop i ++ l.drop j = l.drop i := by
  conv_rhs => rw [← List.take_append_drop j l]
  rw [List.drop_append_of_le_length (by simp; omega)]

/-- The line, then the bytes after it, are the pending bytes. -/
theorem line_append_pending (hw : b.Wf) :
    b.line ++ (b.buf.take b.length).drop b.lineEnd = b.pending := by
  have hle := hw.end_le_length
  have hlen : (b.buf.take b.length).length = b.length := by simp [Nat.min_eq_left (length_le_buf hw)]
  have h := drop_take_append_drop (l := b.buf.take b.length) hw.start_le_end (by rw [hlen]; exact hle)
  rw [List.take_take, Nat.min_eq_left hle] at h
  exact h

/-- `consume_line` drops the line and keeps the rest pending; after it a
    line is pending or the pending bytes start the buffer. -/
theorem consumeLine_spec (hw : b.Wf) :
    b.consumeLine.Wf ∧ b.line ++ b.consumeLine.pending = b.pending ∧ b.consumeLine.capacity = b.capacity ∧
      (b.consumeLine.lineStart < b.consumeLine.lineEnd ∨ b.consumeLine.lineStart = 0) := by
  have hle := hw.end_le_length
  have hcapb := length_le_buf hw
  have hw₁ : ({ b with lineStart := b.lineEnd } : LineRecvBuf).Wf := wf_of_no_line rfl hle hw.length_le
  have hrest := line_append_pending hw
  unfold consumeLine
  dsimp only
  split
  next b₂ hg =>
    obtain ⟨hw₂, -, -, hbuf, hlt⟩ := getLine_some hw₁ hg
    refine ⟨hw₂, ?_, by simp only [capacity, hbuf], .inl hlt⟩
    rw [pending_of_getLine_some hw₁ hg]
    exact hrest
  next hg =>
    by_cases hmore : b.lineEnd < b.length
    · -- bytes after the line move to the front
      rw [if_pos hmore]
      have hfront : ((b.buf.take b.length).drop b.lineEnd).length = b.length - b.lineEnd := by
        simp [Nat.min_eq_left hcapb]
      refine ⟨wf_of_no_line rfl (Nat.zero_le _) ?_, ?_, ?_, .inr rfl⟩
      · simp only [capacity, List.length_append, hfront, List.length_drop]
        omega
      · simp only [pending, List.drop_zero]
        rw [List.take_append_of_le_length (by rw [hfront]), List.take_of_length_le (by rw [hfront])]
        exact hrest
      · simp only [capacity, List.length_append, hfront, List.length_drop]
        omega
    · -- nothing after the line
      rw [if_neg hmore]
      have hnil : (b.buf.take b.length).drop b.lineEnd = [] := by
        simp only [List.drop_eq_nil_iff, List.length_take]
        omega
      refine ⟨wf_of_no_line rfl (Nat.zero_le _) (Nat.zero_le _), ?_, rfl, .inr rfl⟩
      rw [← hrest, hnil]
      simp [pending]

/-- `consume_left(k)` returns the next `min k` pending bytes and keeps the
    rest pending. -/
theorem consumeLeft_spec (hw : b.Wf) (k : Nat) :
    (b.consumeLeft k).2.Wf ∧ (b.consumeLeft k).1 ++ (b.consumeLeft k).2.pending = b.pending ∧
      (b.consumeLeft k).2.capacity = b.capacity ∧ (b.consumeLeft k).1.length = min k b.pending.length := by
  have hcapb := length_le_buf hw
  have hlenp := length_pending hw
  unfold consumeLeft
  by_cases hnone : b.lineStart ≥ b.length
  · -- nothing pending
    rw [if_pos hnone]
    have : b.pending.length = 0 := by omega
    exact ⟨hw, rfl, rfl, by simp [this]⟩
  · rw [if_neg hnone]
    dsimp only
    by_cases hall : k ≥ b.length - b.lineStart
    · -- all of it
      rw [if_pos hall]
      exact ⟨wf_of_no_line rfl (Nat.zero_le _) (Nat.zero_le _),
        by simp [pending], rfl, by rw [← pending, hlenp]; omega⟩
    · -- `k` of it: `line_start` moves past them
      rw [if_neg hall]
      refine ⟨wf_of_no_line rfl (by simp; omega) hw.length_le, ?_, rfl, ?_⟩
      · have h := drop_take_append_drop (l := b.buf.take b.length) (Nat.le_add_right b.lineStart k)
          (by simp; omega)
        rw [List.take_take, Nat.min_eq_left (by omega)] at h
        exact h
      · simp
        omega

/-! ## Runs -/

end LineRecvBuf

/-- The calls a user of the buffer makes. -/
inductive LineOp where
  | readLine
  | consumeLine
  | consumeLeft (maxSize : Nat)
  deriving Repr, DecidableEq

/-- One call on the buffer and the reader: the buffer and the reader after
    it, and the bytes it consumed (the line `consume_line` drops, or what
    `consume_left` returns); `none` where a read runs out of fuel. -/
def LineOp.apply : LineOp → LineRecvBuf × List ReadEvent → Option (LineRecvBuf × List ReadEvent × List UInt8)
  | .readLine, (b, es) => (b.readLineSize es).map fun r => (r.2.1, r.2.2, [])
  | .consumeLine, (b, es) => some (b.consumeLine, es, b.line)
  | .consumeLeft k, (b, es) => some ((b.consumeLeft k).2, es, (b.consumeLeft k).1)

/-- Calls one after another: the buffer, the reader, and all the bytes
    consumed, in order. -/
def runOps : List LineOp → LineRecvBuf × List ReadEvent → Option (LineRecvBuf × List ReadEvent × List UInt8)
  | [], (b, es) => some (b, es, [])
  | op :: ops, st =>
    match op.apply st with
    | none => none
    | some (b, es, out) => (runOps ops (b, es)).map fun r => (r.1, r.2.1, out ++ r.2.2)

/-- One call keeps the buffer well formed and consumes the next bytes of
    the unconsumed stream. -/
theorem LineOp.apply_spec (op : LineOp) {b : LineRecvBuf} {es : List ReadEvent} (hw : b.Wf) (hs : Segments es) :
    ∃ b' es' out, op.apply (b, es) = some (b', es', out) ∧ b'.Wf ∧ Segments es' ∧
      out ++ b'.pending ++ streamBytes es' = b.pending ++ streamBytes es := by
  cases op with
  | readLine =>
    obtain ⟨r, b', es', hread, h⟩ := LineRecvBuf.readLineSize_spec hw hs
    exact ⟨b', es', [], by simp [LineOp.apply, hread], h.wf, h.segments, by simpa using h.stream⟩
  | consumeLine =>
    obtain ⟨hw', hline, -, -⟩ := LineRecvBuf.consumeLine_spec hw
    exact ⟨_, es, _, rfl, hw', hs, by rw [← hline, List.append_assoc]⟩
  | consumeLeft k =>
    obtain ⟨hw', hleft, -, -⟩ := LineRecvBuf.consumeLeft_spec hw k
    exact ⟨_, es, _, rfl, hw', hs, by rw [← hleft, List.append_assoc]⟩

/-- Over every run of reads, `consume_line` and `consume_left` calls on a
    well-formed buffer and a reader of non-empty segments, no read runs out
    of fuel, and the bytes consumed, then those pending, then the reader's,
    are the unconsumed stream at the start: no byte is lost, returned twice
    or out of order. -/
theorem runOps_accounts (ops : List LineOp) : ∀ {b : LineRecvBuf} {es : List ReadEvent}, b.Wf → Segments es →
    ∃ b' es' out, runOps ops (b, es) = some (b', es', out) ∧ b'.Wf ∧
      out ++ b'.pending ++ streamBytes es' = b.pending ++ streamBytes es := by
  induction ops with
  | nil => intro b es hw _; exact ⟨b, es, [], rfl, hw, rfl⟩
  | cons op ops ih =>
    intro b es hw hs
    obtain ⟨b₁, es₁, out₁, happly, hw₁, hs₁, hacc₁⟩ := op.apply_spec hw hs
    obtain ⟨b₂, es₂, out₂, hrun, hw₂, hacc₂⟩ := ih hw₁ hs₁
    refine ⟨b₂, es₂, out₁ ++ out₂, by simp [runOps, happly, hrun], hw₂, ?_⟩
    rw [← hacc₁, List.append_assoc out₁ b₁.pending, ← hacc₂]
    simp only [List.append_assoc]

/-- A buffer of sixteen bytes reading two lines from answers that split
    them, consuming the first line and then what is left. -/
theorem runOps_accounts_split :
    ∃ b' es' out, runOps [.readLine, .consumeLine, .readLine, .consumeLeft 16]
        (LineRecvBuf.default 16, [.data [97, 10, 98], .pending, .data [10]]) = some (b', es', out) ∧ b'.Wf ∧
      out ++ b'.pending ++ streamBytes es' =
        (LineRecvBuf.default 16).pending ++ streamBytes [.data [97, 10, 98], .pending, .data [10]] :=
  runOps_accounts _ (LineRecvBuf.default_wf 16) (by simp [Segments])

end G3Proxy
