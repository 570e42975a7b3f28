/-
  Byte streams as a polled future sees them: the reader and the writer on
  the other side of `poll_read`, `poll_fill_buf`/`consume`, `poll_write` and
  `poll_flush`.

  * A `Source` is a reader together with the answers it will give, one
    `ReadEvent` per poll that reaches it: some bytes, not ready, or an error.
    Bytes of an answer that were not consumed stay in `buf`, so the same
    type is an `AsyncRead` (`read` takes at most the offered space) and an
    `AsyncBufRead` (`fillBuf` shows the whole window, `consume` drops a
    prefix of it).  When the events run out the reader is at end of stream.
  * A `Sink` is a writer with its answers: each `poll_write` or `poll_flush`
    takes one `WriteEvent`; once they run out every write is taken whole.

  Every behaviour of a reader or a writer towards one deterministic caller
  is some list of events, so a statement over all event lists is a statement
  over all behaviours.  `Source.rest` is the part of the stream not yet
  consumed; `rest_fillBuf` and `fillBuf_ok_prefix` say that a fill shows a
  prefix of it and consumes nothing, so that reading never loses or invents
  a byte.
-/
import Mathlib

namespace AsyncIo

/-- The result of a poll. -/
inductive Poll (α : Type) where
  | ready : α → Poll α
  | pending : Poll α
  deriving Repr, DecidableEq

/-- The kinds of `io::Error` the modelled code produces. -/
inductive ErrorKind where
  | unexpectedEof
  | invalidData
  | writeZero
  | other
  deriving Repr, DecidableEq

/-- An `io::Error`: its kind and its message. -/
structure IoError where
  kind : ErrorKind
  msg : String
  deriving Repr, DecidableEq

/-- One answer of the underlying reader. -/
inductive ReadEvent where
  /-- a read returning these bytes -/
  | data : List UInt8 → ReadEvent
  /-- not ready -/
  | pending
  /-- the read fails -/
  | error : IoError → ReadEvent
  deriving Repr, DecidableEq

/-- The bytes an answer carries. -/
def ReadEvent.bytes : ReadEvent → List UInt8
  | .data d => d
  | _ => []

/-- The bytes of each data answer, one segment each. -/
@[simp] def segments : List ReadEvent → List (List UInt8)
  | [] => []
  | .data d :: es => d :: segments es
  | .pending :: es => segments es
  | .error _ :: es => segments es

/-- A reader: the window of the last answer not yet consumed, and the
    answers still to come. -/
structure Source where
  buf : List UInt8
  events : List ReadEvent
  deriving Repr, DecidableEq

namespace Source

/-- The reader that answers with these segments, in order. -/
def ofSegments (segs : List (List UInt8)) : Source :=
  ⟨[], segs.map .data⟩

/-- The bytes not yet consumed. -/
def rest (s : Source) : List UInt8 :=
  s.buf ++ s.events.flatMap ReadEvent.bytes

/-- No answer still to come is an error. -/
def NoError (s : Source) : Prop :=
  ∀ e ∈ s.events, ∀ err, e ≠ .error err

/-- `poll_fill_buf`: the current window, or the next answer when the window
    is empty (an empty window at the end of the events is end of stream). -/
def fillBuf (s : Source) : Poll (Except IoError (List UInt8)) × Source :=
  if s.buf = [] then
    match s.events with
    | [] => (.ready (.ok []), s)
    | .data d :: es => (.ready (.ok d), ⟨d, es⟩)
    | .pending :: es => (.pending, ⟨[], es⟩)
    | .error e :: es => (.ready (.error e), ⟨[], es⟩)
  else (.ready (.ok s.buf), s)

/-- `consume`: drop the first `n` bytes of the window. -/
def consume (s : Source) (n : Nat) : Source :=
  { s with buf := s.buf.drop n }

/-- `poll_read` into `space` bytes: fill the window and take from it. -/
def read (s : Source) (space : Nat) : Poll (Except IoError (List UInt8)) × Source :=
  match s.fillBuf with
  | (.ready (.ok d), s') => (.ready (.ok (d.take space)), s'.consume space)
  | r => r

@[simp] theorem consume_buf (s : Source) (n : Nat) : (s.consume n).buf = s.buf.drop n := rfl

@[simp] theorem consume_events (s : Source) (n : Nat) : (s.consume n).events = s.events := rfl

@[simp] theorem rest_consume (s : Source) (n : Nat) (h : n ≤ s.buf.length) :
    (s.consume n).rest = s.rest.drop n := by
  simp [rest, consume, List.drop_append_of_le_length h]

theorem fillBuf_of_buf_ne_nil {s : Source} (h : s.buf ≠ []) :
    s.fillBuf = (.ready (.ok s.buf), s) := by
  simp [fillBuf, h]

/-- What one `poll_fill_buf` can do: show the window (refilled from the next
    answer if it was empty), report not ready or an error, or end of stream. -/
theorem fillBuf_cases (s : Source) :
    (s.buf ≠ [] ∧ s.fillBuf = (.ready (.ok s.buf), s)) ∨
    (s.buf = [] ∧ s.events = [] ∧ s.fillBuf = (.ready (.ok []), s)) ∨
    (∃ d es, s.buf = [] ∧ s.events = .data d :: es ∧ s.fillBuf = (.ready (.ok d), ⟨d, es⟩)) ∨
    (∃ es, s.buf = [] ∧ s.events = .pending :: es ∧ s.fillBuf = (.pending, ⟨[], es⟩)) ∨
    (∃ e es, s.buf = [] ∧ s.events = .error e :: es ∧ s.fillBuf = (.ready (.error e), ⟨[], es⟩)) := by
  obtain ⟨buf, events⟩ := s
  by_cases hb : buf = []
  · subst hb
    rcases events with _ | ⟨_ | _ | _, es⟩ <;> simp [fillBuf]
  · simp [fillBuf, hb]

/-- Filling the window consumes nothing. -/
theorem rest_fillBuf (s : Source) : s.fillBuf.2.rest = s.rest := by
  rcases fillBuf_cases s with ⟨-, h⟩ | ⟨-, -, h⟩ | ⟨d, es, hb, he, h⟩ | ⟨es, hb, he, h⟩ |
      ⟨e, es, hb, he, h⟩ <;>
    simp_all [rest, ReadEvent.bytes]

/-- A successful fill shows the window it leaves. -/
theorem fillBuf_ok_buf {s s' : Source} {d : List UInt8}
    (h : s.fillBuf = (.ready (.ok d), s')) : s'.buf = d := by
  rcases fillBuf_cases s with ⟨-, h'⟩ | ⟨hb, -, h'⟩ | ⟨d', es, -, -, h'⟩ | ⟨es, -, -, h'⟩ |
      ⟨e, es, -, -, h'⟩ <;> rw [h'] at h <;> simp only [Prod.mk.injEq, Poll.ready.injEq,
        Except.ok.injEq, reduceCtorEq, false_and] at h
  · obtain ⟨rfl, rfl⟩ := h; rfl
  · obtain ⟨rfl, rfl⟩ := h; exact hb
  · obtain ⟨rfl, rfl⟩ := h; rfl

/-- The window shown by a fill is a prefix of the rest of the stream. -/
theorem fillBuf_ok_prefix {s s' : Source} {d : List UInt8}
    (h : s.fillBuf = (.ready (.ok d), s')) : d ++ (s'.consume d.length).rest = s.rest := by
  have hbuf := fillBuf_ok_buf h
  have hrest : s'.rest = s.rest := by rw [← rest_fillBuf s, h]
  rw [rest_consume _ _ (by rw [hbuf]), hrest.symm, ← hbuf]
  simp [rest]

/-! ### Where windows end -/

/-- The positions, counted from `n`, at which the windows of these answers
    end. -/
def endsFrom (n : Nat) : List ReadEvent → List Nat
  | [] => [n]
  | e :: es => n :: endsFrom (n + e.bytes.length) es

/-- The positions, counted from the current one, at which a window ends:
    the current window's end and the end of each answer to come. -/
def ends (s : Source) : List Nat := endsFrom s.buf.length s.events

/-- Every answer still to come is some bytes or not ready. -/
def Segmented (s : Source) : Prop :=
  ∀ e ∈ s.events, e = .pending ∨ ∃ d, e = .data d ∧ d ≠ []

@[simp] theorem self_mem_endsFrom (n : Nat) (es : List ReadEvent) : n ∈ endsFrom n es := by
  cases es <;> simp [endsFrom]

theorem mem_endsFrom_add {a k q : Nat} {es : List ReadEvent} (hk : k ≤ a)
    (h : q ∈ endsFrom (a - k) es) : q + k ∈ endsFrom a es := by
  induction es generalizing a q with
  | nil =>
    simp only [endsFrom, List.mem_singleton] at h ⊢
    omega
  | cons e es ih =>
    simp only [endsFrom, List.mem_cons] at h ⊢
    rcases h with rfl | h
    · left; omega
    · right
      have := ih (a := a + e.bytes.length) (by omega) (by rwa [show a + e.bytes.length - k = a - k + e.bytes.length by omega])
      exact this

/-- Consuming `n` bytes of the window moves every window end `n` closer. -/
theorem add_mem_ends_of_consume {s : Source} {n q : Nat} (hn : n ≤ s.buf.length)
    (h : q ∈ (s.consume n).ends) : q + n ∈ s.ends := by
  simp only [ends, consume_buf, consume_events, List.length_drop] at h
  exact mem_endsFrom_add hn h

/-- A fill shows no window end that was not there before. -/
theorem ends_fillBuf_subset (s : Source) : ∀ q ∈ s.fillBuf.2.ends, q ∈ s.ends := by
  intro q hq
  obtain ⟨buf, events⟩ := s
  by_cases hb : buf = []
  · subst hb
    rcases events with _ | ⟨_ | _ | _, es⟩ <;>
      simp_all [fillBuf, ends, endsFrom, ReadEvent.bytes]
  · simpa [fillBuf, hb] using hq

theorem segmented_fillBuf {s : Source} (hs : s.Segmented) : s.fillBuf.2.Segmented := by
  intro e he
  obtain ⟨buf, events⟩ := s
  by_cases hb : buf = []
  · subst hb
    rcases events with _ | ⟨_ | _ | _, es⟩ <;> simp_all [fillBuf, Segmented]
  · simp_all [fillBuf, Segmented]

/-- A fill of a segmented reader whose window is empty: the end of the
    stream, the next segment, or a wait, each taking its answer. -/
theorem fillBuf_segmented_empty {s : Source} (hs : s.Segmented) (hb : s.buf = []) :
    (s.events = [] ∧ s.fillBuf = (.ready (.ok []), s)) ∨
    (∃ d es, s.events = .data d :: es ∧ d ≠ [] ∧ s.fillBuf = (.ready (.ok d), ⟨d, es⟩)) ∨
    (∃ es, s.events = .pending :: es ∧ s.fillBuf = (.pending, ⟨[], es⟩)) := by
  rcases fillBuf_cases s with ⟨hb', -⟩ | ⟨-, he, h⟩ | ⟨d, es, -, he, h⟩ | ⟨es, -, he, h⟩ |
      ⟨e, es, -, he, -⟩
  · exact absurd hb hb'
  · exact .inl ⟨he, h⟩
  · rcases hs (.data d) (by simp [he]) with hp | ⟨d', hd', hne⟩
    · cases hp
    · cases hd'
      exact .inr (.inl ⟨d, es, he, hne, h⟩)
  · exact .inr (.inr ⟨es, he, h⟩)
  · rcases hs (.error e) (by simp [he]) with h' | ⟨d, h', -⟩ <;> cases h'

/-- A fill of a segmented reader with bytes left: not ready (one answer
    taken, nothing consumed), or a window that is not empty, holds the next
    bytes of the rest, and ends at a window end.  No window end is new. -/
theorem fillBuf_segmented {s : Source} (hs : s.Segmented) (hr : s.rest ≠ []) :
    (∃ s', s.fillBuf = (.pending, s') ∧ s'.rest = s.rest ∧ s'.Segmented ∧
      s'.events.length < s.events.length ∧ ∀ q ∈ s'.ends, q ∈ s.ends) ∨
    (∃ s', s.fillBuf = (.ready (.ok s'.buf), s') ∧ s'.buf ≠ [] ∧ s'.rest = s.rest ∧ s'.Segmented ∧
      s'.events.length ≤ s.events.length ∧ s'.buf.length ∈ s'.ends ∧ ∀ q ∈ s'.ends, q ∈ s.ends) := by
  have hseg := segmented_fillBuf hs
  have hends := ends_fillBuf_subset s
  have hrest := rest_fillBuf s
  obtain ⟨buf, events⟩ := s
  by_cases hb : buf = []
  · subst hb
    rcases events with _ | ⟨e, es⟩
    · simp [rest] at hr
    · rcases hs e (List.mem_cons_self ..) with rfl | ⟨d, rfl, hd⟩
      · exact .inl ⟨_, rfl, hrest, hseg, by simp, hends⟩
      · exact .inr ⟨_, rfl, hd, hrest, hseg, by simp [fillBuf], by simp [fillBuf, ends], hends⟩
  · exact .inr ⟨_, by simp [fillBuf, hb], by simp [fillBuf, hb], hrest, hseg,
      by simp [fillBuf, hb], by simp [fillBuf, hb, ends], hends⟩

/-! ### A reader holding a message -/

/-- The reader holds `rem` and then `S`, and answers only with bytes or not
    ready. -/
structure Holds (S : List UInt8) (s : Source) (rem : List UInt8) : Prop where
  rest : s.rest = rem ++ S
  segmented : s.Segmented

namespace Holds

variable {S rem : List UInt8} {s : Source}

/-- A fill with bytes of `rem` left: not ready, taking an answer, or a
    window of the next bytes. -/
theorem fill (h : Holds S s rem) (hne : rem ≠ []) :
    (∃ s', s.fillBuf = (.pending, s') ∧ Holds S s' rem ∧ s'.events.length < s.events.length) ∨
    (∃ s', s.fillBuf = (.ready (.ok s'.buf), s') ∧ s'.buf ≠ [] ∧ s'.buf <+: rem ++ S ∧ Holds S s' rem ∧
      s'.events.length ≤ s.events.length) := by
  have hr : s.rest ≠ [] := by rw [h.rest]; simp [hne]
  rcases fillBuf_segmented h.segmented hr with
    ⟨s', hf, hrest, hseg, hev, -⟩ | ⟨s', hf, hne', hrest, hseg, hev, -, -⟩
  · exact .inl ⟨s', hf, ⟨hrest.trans h.rest, hseg⟩, hev⟩
  · refine .inr ⟨s', hf, hne', ?_, ⟨hrest.trans h.rest, hseg⟩, hev⟩
    rw [← h.rest, ← fillBuf_ok_prefix hf]
    exact List.prefix_append _ _

/-- Consuming the next bytes `c` of the window. -/
theorem consume {c : List UInt8} (h : Holds S s (c ++ rem)) (hc : c.length ≤ s.buf.length) :
    Holds S (s.consume c.length) rem := by
  refine ⟨?_, h.segmented⟩
  rw [rest_consume _ _ hc, h.rest]
  simp

/-- A read of at most `n > 0` bytes: not ready, or some of the next bytes,
    consumed. -/
theorem read (h : Holds S s rem) (hne : rem ≠ []) {n : Nat} (hn : 0 < n) :
    (∃ s', s.read n = (.pending, s') ∧ Holds S s' rem ∧ s'.events.length < s.events.length) ∨
    (∃ d s', s.read n = (.ready (.ok d), s') ∧ d ≠ [] ∧ d.length ≤ n ∧ d <+: rem ++ S ∧
      (∀ rem', rem = d ++ rem' → Holds S s' rem') ∧ s'.events.length ≤ s.events.length) := by
  rcases h.fill hne with ⟨s', hfill, hs', hev⟩ | ⟨s', hfill, hbuf, hpre, hs', hev⟩
  · exact .inl ⟨s', by simp [Source.read, hfill], hs', hev⟩
  · refine .inr ⟨s'.buf.take n, s'.consume n, by simp [Source.read, hfill], by simp [hbuf]; omega,
      List.length_take_le _ _, (List.take_prefix _ _).trans hpre, fun rem' hrem => ?_, hev⟩
    have hc : s'.consume n = s'.consume (s'.buf.take n).length := by
      simp only [Source.consume, List.length_take]
      congr 1
      rcases le_total n s'.buf.length with hle | hle
      · rw [min_eq_left hle]
      · rw [min_eq_right hle, List.drop_eq_nil_of_le hle, List.drop_eq_nil_of_le le_rfl]
    rw [hc]
    exact (hrem ▸ hs').consume (List.length_take_le' _ _)

end Holds

end Source

/-- One answer of the writer. -/
inductive WriteEvent where
  /-- accept at most this many bytes (`0` is `Ok(0)`); for a flush, success -/
  | accept : Nat → WriteEvent
  /-- not ready -/
  | pending
  /-- the write or flush fails -/
  | error : IoError → WriteEvent
  deriving Repr, DecidableEq

/-- A writer: the bytes it accepted, how many of them a completed flush
    covers, and the answers still to come. -/
structure Sink where
  written : List UInt8
  flushed : Nat
  events : List WriteEvent
  deriving Repr, DecidableEq

namespace Sink

/-- The writer that takes everything. -/
def open_ (evs : List WriteEvent) : Sink := ⟨[], 0, evs⟩

/-- `poll_write`: the number of leading bytes of `d` accepted. -/
def write (w : Sink) (d : List UInt8) : Poll (Except IoError Nat) × Sink :=
  match w.events with
  | [] => (.ready (.ok d.length), { w with written := w.written ++ d })
  | .accept n :: es =>
    (.ready (.ok (min n d.length)), { w with written := w.written ++ d.take n, events := es })
  | .pending :: es => (.pending, { w with events := es })
  | .error e :: es => (.ready (.error e), { w with events := es })

/-- `poll_flush`. -/
def flush (w : Sink) : Poll (Except IoError Unit) × Sink :=
  match w.events with
  | [] => (.ready (.ok ()), { w with flushed := w.written.length })
  | .accept _ :: es => (.ready (.ok ()), { w with flushed := w.written.length, events := es })
  | .pending :: es => (.pending, { w with events := es })
  | .error e :: es => (.ready (.error e), { w with events := es })

/-- A writer that never fails and never accepts nothing: each answer is a
    wait or a positive count. -/
def Steady (w : Sink) : Prop :=
  ∀ e ∈ w.events, e = .pending ∨ ∃ n, 0 < n ∧ e = .accept n

theorem Steady.tail {w : Sink} (h : w.Steady) {written : List UInt8} {flushed : Nat} :
    Steady ⟨written, flushed, w.events.tail⟩ :=
  fun e he => h e (List.mem_of_mem_tail he)

theorem events_tail_lt {w : Sink} (h : w.events ≠ []) : w.events.tail.length < w.events.length := by
  cases he : w.events with
  | nil => exact absurd he h
  | cons e es => simp

/-- A write of bytes to a steady writer: a wait that takes an answer, or a
    positive count of leading bytes accepted. -/
theorem write_steady {w : Sink} (hw : w.Steady) {d : List UInt8} (hd : d ≠ []) :
    (w.write d = (.pending, ⟨w.written, w.flushed, w.events.tail⟩) ∧ w.events ≠ []) ∨
    (∃ n, 0 < n ∧ n ≤ d.length ∧
      w.write d = (.ready (.ok n), ⟨w.written ++ d.take n, w.flushed, w.events.tail⟩)) := by
  have hlen : 0 < d.length := List.length_pos_iff.2 hd
  obtain ⟨written, flushed, events⟩ := w
  rcases events with _ | ⟨e, es⟩
  · exact .inr ⟨d.length, hlen, le_rfl, by simp [write]⟩
  · rcases hw e (by simp) with rfl | ⟨n, hn, rfl⟩
    · exact .inl ⟨by simp [write], by simp⟩
    · exact .inr ⟨min n d.length, by omega, min_le_right _ _,
        by simp [write, List.take_eq_take_min]⟩

/-- A flush of a steady writer: a wait that takes an answer, or success. -/
theorem flush_steady {w : Sink} (hw : w.Steady) :
    (w.flush = (.pending, ⟨w.written, w.flushed, w.events.tail⟩) ∧ w.events ≠ []) ∨
    w.flush = (.ready (.ok ()), ⟨w.written, w.written.length, w.events.tail⟩) := by
  obtain ⟨written, flushed, events⟩ := w
  rcases events with _ | ⟨e, es⟩
  · exact .inr rfl
  · rcases hw e (by simp) with rfl | ⟨n, hn, rfl⟩
    · exact .inl ⟨rfl, by simp⟩
    · exact .inr rfl

end Sink

end AsyncIo
