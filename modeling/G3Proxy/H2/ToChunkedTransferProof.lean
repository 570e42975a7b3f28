/-
  What the h2 to chunked transfer writes: over a stream whose answers are
  payloads and waits up to the end of the body, to a writer that never fails
  and never accepts nothing, a transfer made by `new` writes the chunks of
  the payloads, the last chunk and the trailer section it is answered, and
  returns their length (`run_writes_body hH`).

  * `BodyThen T tr es` says how the stream answers: nonempty payloads and
    waits, then the end of the stream or an empty payload.  The trailers
    asked for after that are answered at once and written as `T`, or, when
    a payload is still queued, answered `Pending` for good, with nothing
    more written (`T` empty, `TrailersNow`).  `bodyPayloads` are the
    payloads before that end.
  * `bodyEncoding started ds` is what is left to write of the body for the
    payloads to come, up to the trailer section; with no chunk before them
    it is the message's `dataPart` (`bodyEncoding_false`).
  * `toWrite` reads off a round's state what is left to write in its stage,
    and `Inv` says that the bytes written and these make the whole output.
    Each block of `poll_transfer` keeps it; `measure` counts the bytes left
    and the answers of both ends, and each pass of the data loop that goes
    on, and each poll that waits, makes it smaller.
  * A poll ends waiting with less work left, returns the length of the
    whole output, or stalls (`Stalled`): the trailers were asked for while
    a payload is queued, and every later poll waits with nothing changed.
  * A stream of payloads and waits is written as the chunked message of its
    payloads and trailers (`run_writes_message hH`); one with an empty payload
    followed by another payload stalls after the data part of the message of
    the payloads before it (`run_ends_body_at_empty_payload hH`).
-/
import G3Proxy.H2.ToChunkedTransfer
import G3Proxy.Core.ChunkedCoding

namespace G3Proxy

namespace H2

open AsyncIo Machine Hex ChunkedCoding

/-! ## The stream and what is written for it -/

/-- The trailer section `poll_transfer_trailers` writes for the answer of
    `poll_trailers`: the fields, or the empty section. -/
def trailerBytesOf : Option TrailerFields → List UInt8
  | some trailer => ChunkedEncodeTransferInternal.trailerSectionOf trailer
  | none => [13, 10]

/-- The field lines of trailers, `name: value`. -/
def trailerLines : Option TrailerFields → List (List UInt8)
  | some trailer => trailer.map fun nv => nv.1 ++ [58, 32] ++ nv.2
  | none => []

theorem trailerBytesOf_eq (tr : Option TrailerFields) : trailerBytesOf tr = trailerSection (trailerLines tr) := by
  cases tr <;> simp [trailerBytesOf, trailerLines, trailerSection,
    ChunkedEncodeTransferInternal.trailerSectionOf, crlf, List.flatMap_map]

theorem trailerBytesOf_ne_nil (tr : Option TrailerFields) : trailerBytesOf tr ≠ [] := by
  simp [trailerBytesOf_eq, trailerSection, crlf]

/-- The body has ended: the trailers asked for next are answered at once,
    and written as `T`; or a payload is queued, the answer is `Pending` and
    nothing more is written. -/
def TrailersNow (T : List UInt8) (r : RecvStream) : Prop :=
  (r.events = [] ∧ trailerBytesOf r.trailers = T) ∨ (∃ d es, r.events = .data d :: es ∧ T = [])

/-- The answers of `poll_data`: nonempty payloads and waits, then the end of
    the stream or an empty payload, after which the trailers come as `T`. -/
def BodyThen (T : List UInt8) (tr : Option TrailerFields) : List RecvEvent → Prop
  | [] => trailerBytesOf tr = T
  | .data [] :: es => TrailersNow T ⟨es, tr⟩
  | .data (_ :: _) :: es => BodyThen T tr es
  | .pending :: es => BodyThen T tr es
  | .error :: _ => False

/-- The payloads taken as the body: those before the end of the body. -/
def bodyPayloads : List RecvEvent → List (List UInt8)
  | [] => []
  | .data [] :: _ => []
  | .data (b :: bs) :: es => (b :: bs) :: bodyPayloads es
  | _ :: es => bodyPayloads es

/-- What `poll_data` can answer on such a stream. -/
theorem BodyThen.cases {T : List UInt8} {tr : Option TrailerFields} {es : List RecvEvent}
    (h : BodyThen T tr es) :
    (es = [] ∧ trailerBytesOf tr = T) ∨ (∃ es', es = .data [] :: es' ∧ TrailersNow T ⟨es', tr⟩) ∨
      (∃ d es', es = .data d :: es' ∧ d ≠ [] ∧ BodyThen T tr es' ∧ bodyPayloads es = d :: bodyPayloads es') ∨
      (∃ es', es = .pending :: es' ∧ BodyThen T tr es' ∧ bodyPayloads es = bodyPayloads es') := by
  match es, h with
  | [], h => exact .inl ⟨rfl, h⟩
  | .data [] :: es', h => exact .inr (.inl ⟨es', rfl, h⟩)
  | .data (b :: bs) :: es', h => exact .inr (.inr (.inl ⟨b :: bs, es', rfl, nofun, h, rfl⟩))
  | .pending :: es', h => exact .inr (.inr (.inr ⟨es', rfl, h, rfl⟩))

/-- What is left to write of the body for the payloads to come, after the
    line end of a previous chunk when `started`: their chunks and the last
    chunk, up to the trailer section. -/
def bodyEncoding (started : Bool) : List (List UInt8) → List UInt8
  | [] => (if started then crlf else []) ++ [48, 13, 10]
  | d :: ds => (if started then crlf else []) ++ lowerHex d.length ++ crlf ++ d ++ bodyEncoding true ds

/-- With no chunk before them, the payloads are written as the data part of
    their chunked message. -/
theorem bodyEncoding_false (ds : List (List UInt8)) : bodyEncoding false ds = (Message.ofSegments ds).dataPart := by
  induction ds with
  | nil => rfl
  | cons d ds ih =>
    have hcons : (Message.ofSegments (d :: ds)).dataPart =
        lowerHex d.length ++ crlf ++ d ++ crlf ++ (Message.ofSegments ds).dataPart := by
      simp [Message.ofSegments, Message.dataPart, Message.lastLine, Chunk.encode, Chunk.line]
    rw [hcons, ← ih]
    cases ds <;> simp [bodyEncoding]

namespace ChunkedEncodeTransferInternal

/-- The header of a chunk is the start of what is left for its payload. -/
theorem bodyEncoding_cons_eq (total : Nat) (d : List UInt8) (ds : List (List UInt8)) :
    bodyEncoding (total != 0) (d :: ds) = staticHeaderFor total d.length ++ d ++ bodyEncoding true ds := by
  by_cases ht : total = 0 <;> simp [bodyEncoding, staticHeaderFor, ht, crlf]

/-- At the end of the body the last chunk is all that is left of it, and an
    empty payload gives the same header. -/
theorem bodyEncoding_nil_eq (total : Nat) : bodyEncoding (total != 0) [] = endHeaderFor total := by
  by_cases ht : total = 0 <;> simp [bodyEncoding, endHeaderFor, ht, crlf]

theorem staticHeaderFor_ne_nil (total n : Nat) : staticHeaderFor total n ≠ [] := by
  unfold staticHeaderFor
  split_ifs <;> simp

theorem staticHeaderFor_zero (total : Nat) : staticHeaderFor total 0 = endHeaderFor total := by
  have h0 : lowerHex 0 = [48] := by decide
  by_cases ht : total = 0 <;> simp [staticHeaderFor, endHeaderFor, ht, h0]

end ChunkedEncodeTransferInternal

/-- The trailers asked for once the body has ended come at once, or the
    answer is `Pending` with the stream left as it was. -/
theorem TrailersNow.pollTrailers {H : RecvOps} (hH : H.Spec) {T : List UInt8} {r : RecvStream}
    (h : TrailersNow T r) :
    (∃ tr, H.pollTrailers r = (.ready (.ok tr), r) ∧ trailerBytesOf tr = T) ∨
      (H.pollTrailers r = (.pending, r) ∧ ∃ d es, r.events = .data d :: es) := by
  rcases h with ⟨he, hT⟩ | ⟨d, es, he, -⟩
  · exact .inl ⟨r.trailers, hH.pollTrailers_nil r he, hT⟩
  · exact .inr ⟨hH.pollTrailers_data r d es he, d, es, he⟩

namespace TransferRound

open ChunkedEncodeTransferInternal

/-- A chunk has been started once a payload is held or a header was made:
    the payloads after it follow a line end. -/
def started (s : TransferRound) : Bool := s.enc.chunk.isSome || !s.enc.staticHeader.isEmpty

/-- What is left of the body after the held chunk: nothing once it has
    ended. -/
def bodyRest (s : TransferRound) : List UInt8 :=
  if s.enc.readDataFinished then [] else bodyEncoding s.started (bodyPayloads s.recv.events)

/-- What is left to write in the round's stage: in the data stage the rest
    of the header, the held chunk, the rest of the body and the trailer
    section `T` to come; in the trailer stage the rest of the section. -/
def toWrite (T : List UInt8) (s : TransferRound) : List UInt8 :=
  match s.enc.transferStage with
  | .data => s.enc.staticHeader.drop s.enc.staticOffset ++ s.enc.chunk.getD [] ++ s.bodyRest ++ T
  | .trailer => if s.enc.trailerBytes = [] then T else s.enc.trailerBytes.drop s.enc.trailerOffset
  | .end_ => []

/-- The work left: the bytes to write and the answers of both ends. -/
def measure (T : List UInt8) (s : TransferRound) : Nat :=
  (s.toWrite T).length + s.recv.events.length + s.writer.events.length

/-- The trailers were asked for while a payload is queued: `poll_trailers`
    answers `Pending` and leaves everything as it was. -/
def Stalled (s : TransferRound) : Prop :=
  s.enc.transferStage = .trailer ∧ s.enc.trailerBytes = [] ∧ ∃ d es, s.recv.events = .data d :: es

/-- The header is written. -/
def HeaderDone (s : TransferRound) : Prop := s.enc.staticHeader.length ≤ s.enc.staticOffset

/-- A round of a transfer over a stream that answers as `BodyThen T` says,
    writing to a steady writer, part way through writing `W` after `pre`. -/
structure Inv (pre W T : List UInt8) (s : TransferRound) : Prop where
  written : s.writer.written ++ s.toWrite T = pre ++ W
  total : s.writer.written.length = pre.length + s.enc.totalWrite
  body : s.enc.transferStage = .data → s.enc.readDataFinished = false →
    BodyThen T s.recv.trailers s.recv.events
  ended : s.enc.readDataFinished = true → s.enc.trailerBytes = [] → s.enc.transferStage ≠ .end_ →
    TrailersNow T s.recv
  data_stage : s.enc.transferStage = .data → s.enc.trailerBytes = []
  trailer_stage : s.enc.transferStage = .trailer → s.enc.readDataFinished = true
  /-- between chunks the header is written, and a header was made once some
      bytes were written -/
  idle : s.enc.transferStage = .data → s.enc.chunk = none → s.enc.readDataFinished = false →
    s.HeaderDone ∧ (s.enc.staticHeader = [] ↔ s.enc.totalWrite = 0)
  chunk_ne : s.enc.chunk ≠ some []
  header_ne : s.enc.chunk ≠ none → s.enc.staticHeader ≠ []
  finished : s.enc.readDataFinished = true → s.enc.chunk = none
  writer : s.writer.Steady
  trailer_offset : s.enc.trailerBytes = [] → s.enc.trailerOffset = 0
  /-- a trailer section set, and the end stage, come from an answer of the
      stream, never the stall -/
  trailer_set : s.enc.trailerBytes ≠ [] → T ≠ []
  end_stage : s.enc.transferStage = .end_ → T ≠ []

variable {H : RecvOps} {pre W T : List UInt8} {s : TransferRound}

@[simp] theorem bodyRest_writer (w : Sink) (c : Nat) : bodyRest ⟨s.enc, s.recv, w, c⟩ = s.bodyRest := rfl

@[simp] theorem toWrite_writer (w : Sink) (c : Nat) : toWrite T ⟨s.enc, s.recv, w, c⟩ = s.toWrite T := rfl

theorem toWrite_data (hst : s.enc.transferStage = .data) :
    s.toWrite T = s.enc.staticHeader.drop s.enc.staticOffset ++ s.enc.chunk.getD [] ++ s.bodyRest ++ T := by
  rw [toWrite, hst]

theorem toWrite_trailer (hst : s.enc.transferStage = .trailer) :
    s.toWrite T = if s.enc.trailerBytes = [] then T else s.enc.trailerBytes.drop s.enc.trailerOffset := by
  rw [toWrite, hst]

theorem toWrite_end (hst : s.enc.transferStage = .end_) : s.toWrite T = [] := by
  rw [toWrite, hst]

/-- A stalled round has written all it ever will: `T` is empty. -/
theorem Inv.stalled (h : Inv pre W T s) (hs : s.Stalled) : T = [] ∧ s.writer.written = pre ++ W := by
  obtain ⟨hst, he, d, es, hev⟩ := hs
  have hT : T = [] := by
    rcases h.ended (h.trailer_stage hst) he (by simp [hst]) with ⟨hnil, -⟩ | ⟨-, -, -, hT⟩
    · rw [hev] at hnil
      cases hnil
    · exact hT
  refine ⟨hT, ?_⟩
  rw [← h.written, toWrite_trailer hst, if_pos he, hT, List.append_nil]

/-- Between chunks, a header was made exactly when some bytes were written. -/
theorem Inv.isEmpty_header (h : Inv pre W T s) (hst : s.enc.transferStage = .data) (hc : s.enc.chunk = none)
    (hrf : s.enc.readDataFinished = false) : (!s.enc.staticHeader.isEmpty) = (s.enc.totalWrite != 0) := by
  have hiff := (h.idle hst hc hrf).2
  cases hh : s.enc.staticHeader with
  | nil => simp [hiff.1 hh]
  | cons b bs =>
    have ht : s.enc.totalWrite ≠ 0 := fun h0 => List.cons_ne_nil b bs (hh.symm.trans (hiff.2 h0))
    simp [ht]

/-- Between chunks, what is left is the body's payloads, after a line end
    once some bytes were written, then `T`. -/
theorem toWrite_idle (h : Inv pre W T s) (hst : s.enc.transferStage = .data) (hc : s.enc.chunk = none)
    (hrf : s.enc.readDataFinished = false) :
    s.toWrite T = bodyEncoding (s.enc.totalWrite != 0) (bodyPayloads s.recv.events) ++ T := by
  have hdrop : s.enc.staticHeader.drop s.enc.staticOffset = [] := List.drop_eq_nil_of_le (h.idle hst hc hrf).1
  simp [toWrite_data hst, hdrop, hc, bodyRest, hrf, started, h.isEmpty_header hst hc hrf]

/-- The fill at the top of the data loop: it waits, taking an answer, or
    leaves a chunk held or the body ended, with nothing more to do. -/
theorem fillStep_spec (hH : H.Spec) (h : Inv pre W T s) (hst : s.enc.transferStage = .data) :
    (∃ s', fillStep H s = some (.exit .pending s') ∧ Inv pre W T s' ∧ s'.measure T < s.measure T) ∨
    (∃ s', fillStep H s = some (.next s') ∧ Inv pre W T s' ∧ s'.measure T ≤ s.measure T ∧
      s'.enc.transferStage = .data ∧ (s'.enc.readDataFinished = true ∨ s'.enc.chunk.isSome)) := by
  by_cases hc : s.enc.chunk.isNone ∧ s.enc.readDataFinished = false
  · have hchunk : s.enc.chunk = none := Option.isNone_iff_eq_none.1 hc.1
    have hdrop : s.enc.staticHeader.drop s.enc.staticOffset = [] :=
      List.drop_eq_nil_of_le (h.idle hst hchunk hc.2).1
    have hw := toWrite_idle h hst hchunk hc.2
    rw [fillStep, if_pos hc]
    rcases BodyThen.cases (h.body hst hc.2) with ⟨he, hT⟩ | ⟨es, he, hnow⟩ | ⟨d, es, he, hd, hb, hp⟩ |
        ⟨es, he, hb, hp⟩
    · -- the end of the stream: the last chunk is all that is left of the body
      have hpd : H.pollData s.recv = (.ready none, s.recv) := hH.pollData_nil _ he
      rw [he, bodyPayloads, bodyEncoding_nil_eq] at hw
      rw [hpd]
      refine .inr ⟨_, rfl, ⟨?_, h.total, nofun, fun _ _ _ => .inl ⟨he, hT⟩, h.data_stage,
        fun h' => absurd (h'.symm.trans hst) nofun, nofun, h.chunk_ne, fun h0 => absurd hchunk h0, fun _ => hchunk, h.writer, h.trailer_offset, h.trailer_set, h.end_stage⟩, ?_, hst, .inl rfl⟩
      · rw [← h.written, hw]
        simp [toWrite, hst, hchunk, bodyRest]
      · simp only [measure, hw]
        simp [toWrite, hst, hchunk, bodyRest]
    · -- an empty payload ends the body as the end of the stream does
      have hpd : H.pollData s.recv = (.ready (some (.ok [])), { s.recv with events := es }) :=
        hH.pollData_cons _ _ _ he
      rw [he, bodyPayloads, bodyEncoding_nil_eq] at hw
      rw [hpd]
      refine .inr ⟨_, rfl, ⟨?_, h.total, nofun, fun _ _ _ => hnow, h.data_stage,
        fun h' => absurd (h'.symm.trans hst) nofun, nofun, h.chunk_ne, fun h0 => absurd hchunk h0, fun _ => hchunk, h.writer, h.trailer_offset, h.trailer_set, h.end_stage⟩, ?_, hst, .inl rfl⟩
      · rw [← h.written, hw]
        simp [toWrite, hst, hchunk, bodyRest, staticHeaderFor_zero]
      · simp only [measure, hw, he]
        simp [toWrite, hst, hchunk, bodyRest, staticHeaderFor_zero]
    · -- a payload: its header, its bytes, then the payloads after it
      have hpd : H.pollData s.recv = (.ready (some (.ok d)), { s.recv with events := es }) :=
        hH.pollData_cons _ _ _ he
      have hlen : d.length ≠ 0 := by simpa using hd
      rw [hp, bodyEncoding_cons_eq] at hw
      rw [hpd]
      refine .inr ⟨_, rfl, ⟨?_, h.total, fun _ _ => hb, fun h1 => absurd h1 (by simp [hlen]), h.data_stage,
        fun h' => absurd (h'.symm.trans hst) nofun, fun _ h0 => absurd h0 (by simp [hd]),
        by simp [hd], fun _ => staticHeaderFor_ne_nil _ _, fun h1 => absurd h1 (by simp [hlen]), h.writer, h.trailer_offset, h.trailer_set, h.end_stage⟩, ?_, hst, .inr (by simp [hd])⟩
      · rw [← h.written, hw]
        simp [toWrite, hst, hd, bodyRest, started]
      · simp only [measure, hw, he]
        simp [toWrite, hst, hd, bodyRest, started]
    · -- a wait: the answer is taken
      have hpd : H.pollData s.recv = (.pending, { s.recv with events := es }) :=
        hH.pollData_cons _ _ _ he
      rw [hp] at hw
      rw [hpd]
      refine .inl ⟨_, rfl, ⟨?_, h.total, fun _ _ => hb, fun h1 => absurd h1 (by simp [hc.2]), h.data_stage,
        h.trailer_stage, fun _ _ _ => h.idle hst hchunk hc.2, h.chunk_ne, h.header_ne, h.finished, h.writer, h.trailer_offset, h.trailer_set, h.end_stage⟩, ?_⟩
      · rw [← h.written, hw]
        simp [toWrite, hst, hchunk, hdrop, hc.2, bodyRest, started, h.isEmpty_header hst hchunk hc.2]
      · simp only [measure, hw, he]
        simp [toWrite, hst, hchunk, hdrop, hc.2, bodyRest, started, h.isEmpty_header hst hchunk hc.2]
  · refine .inr ⟨s, by rw [fillStep, if_neg hc], h, le_rfl, hst, ?_⟩
    cases hf : s.enc.readDataFinished
    · exact .inr (Option.isSome_iff_ne_none.2 (by simpa [hf] using hc))
    · exact .inl rfl

/-- How the header write loop can end from `s`: waiting, with an answer of
    the writer taken, or with the header written and the rest of the round
    as it was. -/
def HeaderOk (pre W T : List UInt8) (s : TransferRound) (x : Option (Flow TransferRound TransferPoll)) : Prop :=
  (∃ s', x = some (.exit .pending s') ∧ Inv pre W T s' ∧ s'.measure T < s.measure T) ∨
  (∃ s', x = some (.next s') ∧ Inv pre W T s' ∧ s'.HeaderDone ∧ s'.measure T ≤ s.measure T ∧
    s'.enc.transferStage = s.enc.transferStage ∧ s'.enc.readDataFinished = s.enc.readDataFinished ∧
    s'.enc.chunk = s.enc.chunk)

/-- The outcome from the state after a write of part of the header is one
    from the state before it. -/
theorem HeaderOk.of_write {s₁ : TransferRound} {x : Option (Flow TransferRound TransferPoll)}
    (h : HeaderOk pre W T s₁ x) (hm : s₁.measure T ≤ s.measure T)
    (hst : s₁.enc.transferStage = s.enc.transferStage) (hrf : s₁.enc.readDataFinished = s.enc.readDataFinished)
    (hc : s₁.enc.chunk = s.enc.chunk) : HeaderOk pre W T s x := by
  rcases h with ⟨s', hx, h', hm'⟩ | ⟨s', hx, h', hd', hm', hst', hrf', hc'⟩
  · exact .inl ⟨s', hx, h', by omega⟩
  · exact .inr ⟨s', hx, h', hd', by omega, hst'.trans hst, hrf'.trans hrf, hc'.trans hc⟩

/-- The header write loop of the data stage, with a round of fuel for each
    byte of the header and one more. -/
theorem headerLoop_spec (h : Inv pre W T s) (hst : s.enc.transferStage = .data)
    (hfuel : (s.enc.staticHeader.drop s.enc.staticOffset).length < fuel) :
    HeaderOk pre W T s (headerLoop fuel s) := by
  induction fuel generalizing s with
  | zero => omega
  | succ fuel ih =>
    by_cases hoff : s.enc.staticOffset < s.enc.staticHeader.length
    · have hne : s.enc.staticHeader.drop s.enc.staticOffset ≠ [] := by simpa using hoff
      have hnd : ¬s.HeaderDone := by unfold HeaderDone; omega
      -- a header is written only for a held chunk or at the end of the body
      have hidle : s.enc.chunk = none → s.enc.readDataFinished = false → False :=
        fun hc hrf => hnd (h.idle hst hc hrf).1
      rw [headerLoop, if_pos hoff]
      rcases Sink.write_steady h.writer hne with ⟨hw, hev⟩ | ⟨n, hn, hle, hw⟩
      · -- the writer is not ready: one answer taken
        rw [hw]
        refine .inl ⟨_, rfl, ⟨h.written, h.total, h.body, h.ended, h.data_stage, h.trailer_stage, h.idle,
          h.chunk_ne, h.header_ne, h.finished, h.writer.tail, h.trailer_offset, h.trailer_set, h.end_stage⟩, ?_⟩
        have := Sink.events_tail_lt hev
        simp only [measure, toWrite_data, hst, bodyRest_writer] at this ⊢
        omega
      · -- `n` bytes of the header are written
        rw [hw]
        refine HeaderOk.of_write (ih ⟨?_, ?_, h.body, h.ended, h.data_stage, h.trailer_stage,
          fun _ hc hrf => (hidle hc hrf).elim, h.chunk_ne, h.header_ne, h.finished, h.writer.tail, h.trailer_offset, h.trailer_set, h.end_stage⟩ hst ?_)
          ?_ rfl rfl rfl
        · rw [← h.written]
          simp only [toWrite_data, hst, bodyRest, started, List.append_assoc]
          rw [← List.append_assoc (List.take _ _), ← List.drop_drop, List.take_append_drop]
        · simp only [List.length_drop] at hle
          simp [h.total]
          omega
        · simp only [List.length_drop] at hfuel hle ⊢
          omega
        · simp only [measure, toWrite_data, hst, bodyRest, started, List.length_append, List.length_drop,
            List.length_tail] at hle ⊢
          omega
    · rw [headerLoop, if_neg hoff]
      exact .inr ⟨s, rfl, h, by unfold HeaderDone; omega, le_rfl, rfl, rfl, rfl⟩

/-- How the data write loop can end from `s`: waiting, with an answer of
    the writer taken, or with the held chunk written, the work left smaller
    by its length. -/
def DataOk (pre W T : List UInt8) (s : TransferRound) (x : Option (Flow TransferRound TransferPoll)) : Prop :=
  (∃ s', x = some (.exit .pending s') ∧ Inv pre W T s' ∧ s'.measure T < s.measure T) ∨
  (∃ s', x = some (.next s') ∧ Inv pre W T s' ∧ s'.enc.chunk = none ∧
    s'.measure T + (s.enc.chunk.getD []).length ≤ s.measure T ∧ s'.enc.transferStage = .data ∧
    s'.enc.readDataFinished = false)

/-- The outcome from the state after a write of `k` bytes of the chunk is
    one from the state before it. -/
theorem DataOk.of_write {s₁ : TransferRound} {x : Option (Flow TransferRound TransferPoll)} {k : Nat}
    (h : DataOk pre W T s₁ x) (hm : s₁.measure T + k ≤ s.measure T)
    (hk : (s₁.enc.chunk.getD []).length + k = (s.enc.chunk.getD []).length) (hpos : 0 < k) :
    DataOk pre W T s x := by
  rcases h with ⟨s', hx, h', hm'⟩ | ⟨s', hx, h', hc', hm', hst', hrf'⟩
  · exact .inl ⟨s', hx, h', by omega⟩
  · exact .inr ⟨s', hx, h', hc', by omega, hst', hrf'⟩

/-- The data write loop, once the header is written, with a round of fuel
    for each byte of the chunk and one more. -/
theorem dataLoop_spec (h : Inv pre W T s) (hst : s.enc.transferStage = .data) (hd : s.HeaderDone)
    (hrf : s.enc.readDataFinished = false) (hfuel : (s.enc.chunk.getD []).length < fuel) :
    DataOk pre W T s (dataLoop fuel s) := by
  induction fuel generalizing s with
  | zero => omega
  | succ fuel ih =>
    have hdrop : s.enc.staticHeader.drop s.enc.staticOffset = [] := List.drop_eq_nil_of_le hd
    cases hc : s.enc.chunk with
    | none =>
      rw [dataLoop, hc]
      exact .inr ⟨s, rfl, h, hc, by simp [hc], hst, hrf⟩
    | some c =>
      have hne : c ≠ [] := fun h0 => h.chunk_ne (h0 ▸ hc)
      have hhead : s.enc.staticHeader.isEmpty = false := List.isEmpty_eq_false_iff.2 (h.header_ne (by simp [hc]))
      rw [dataLoop, hc]
      dsimp only
      rcases Sink.write_steady h.writer hne with ⟨hw, hev⟩ | ⟨n, hn, hle, hw⟩
      · -- the writer is not ready: one answer taken
        rw [hw]
        refine .inl ⟨_, rfl, ⟨h.written, h.total, h.body, h.ended, h.data_stage, h.trailer_stage, h.idle,
          h.chunk_ne, h.header_ne, h.finished, h.writer.tail, h.trailer_offset, h.trailer_set, h.end_stage⟩, ?_⟩
        have := Sink.events_tail_lt hev
        simp only [measure, toWrite_data, hst, bodyRest_writer] at this ⊢
        omega
      rw [hw]
      dsimp only
      by_cases hall : (c.drop n).isEmpty
      · -- the whole chunk is written: the round is between chunks
        have hn' : n = c.length := by
          have := List.isEmpty_iff.1 hall
          simp at this
          omega
        subst hn'
        rw [if_pos hall]
        refine .inr ⟨_, rfl, ⟨?_, ?_, fun _ _ => h.body hst hrf, fun h1 => absurd h1 (by simp [hrf]),
          h.data_stage, h.trailer_stage, fun _ _ _ => ⟨hd, ?_⟩, by simp, fun h0 => absurd rfl h0, fun _ => rfl,
          h.writer.tail, h.trailer_offset, h.trailer_set, h.end_stage⟩,
          rfl, ?_, hst, hrf⟩
        · rw [← h.written]
          simp [toWrite_data, hst, hdrop, hc, bodyRest, started, hrf, hhead]
        · simp [h.total]
          omega
        · simp [List.isEmpty_eq_false_iff.1 hhead, hne]
        · simp only [measure, toWrite_data, hst, hdrop, hc, bodyRest, started, hrf, List.length_append,
            List.length_tail, Option.getD_some, Option.getD_none, Option.isSome_some, Option.isSome_none,
            Bool.true_or, Bool.false_or, List.length_nil]
          have := Sink.events_tail_lt (w := s.writer)
          simp [hhead]
          omega
      · -- part of the chunk is written: the rest is held for the next write
        rw [if_neg hall]
        have hrest : c.drop n ≠ [] := fun h0 => hall (by simp [h0])
        refine DataOk.of_write (ih ⟨?_, ?_, fun _ _ => h.body hst hrf, fun h1 => absurd h1 (by simp [hrf]),
          h.data_stage, h.trailer_stage, nofun, by simpa using hrest,
          fun _ => List.isEmpty_eq_false_iff.1 hhead, fun h1 => absurd h1 (by simp [hrf]), h.writer.tail, h.trailer_offset, h.trailer_set, h.end_stage⟩
          hst hd hrf ?_) ?_ ?_ hn
        · rw [← h.written]
          simp only [toWrite_data, hst, hdrop, hc, bodyRest, started, hrf, Option.getD_some,
            Option.isSome_some, Bool.true_or, List.nil_append, List.append_assoc]
          rw [← List.append_assoc (List.take _ _), List.take_append_drop]
        · simp [h.total]
          omega
        · simp only [Option.getD_some, List.length_drop]
          simp only [hc, Option.getD_some] at hfuel
          omega
        · simp only [measure, toWrite_data, hst, hdrop, hc, bodyRest, started, hrf, List.length_append,
            List.length_drop, List.length_tail, Option.getD_some, Option.isSome_some, Bool.true_or]
          simp
          omega
        · simp only [hc, Option.getD_some, List.length_drop]
          omega

/-- The end of a pass: it yields, or goes on with the next one. -/
theorem endRound_cases (s : TransferRound) :
    endRound s = some (.exit .pending s) ∨ endRound s = some (.next s) := by
  unfold endRound
  split_ifs
  · exact .inl rfl
  · exact .inr rfl

/-- How a stage of a poll can end from `s`: waiting, with the invariant kept
    and less work left, or falling through to `stage`. -/
def StageOk (pre W T : List UInt8) (s : TransferRound) (x : Option (Flow TransferRound TransferPoll))
    (stage : TransferStage) : Prop :=
  (∃ s', x = some (.exit .pending s') ∧ Inv pre W T s' ∧ s'.measure T < s.measure T) ∨
  (∃ s', x = some (.next s') ∧ Inv pre W T s' ∧ s'.measure T ≤ s.measure T ∧ s'.enc.transferStage = stage)

theorem StageOk.mono {s₁ : TransferRound} {x : Option (Flow TransferRound TransferPoll)} {stage : TransferStage}
    (h : StageOk pre W T s₁ x stage) (hm : s₁.measure T ≤ s.measure T) : StageOk pre W T s x stage := by
  rcases h with ⟨s', hx, h', hm'⟩ | ⟨s', hx, h', hm', hst'⟩
  · exact .inl ⟨s', hx, h', by omega⟩
  · exact .inr ⟨s', hx, h', by omega, hst'⟩

theorem length_le_measure (hst : s.enc.transferStage = .data) :
    (s.enc.staticHeader.drop s.enc.staticOffset).length + (s.enc.chunk.getD []).length ≤ s.measure T := by
  simp only [measure, toWrite_data hst, List.length_append]
  omega

/-- Once the body has ended and its last header is written, the trailer
    stage has the trailer section left. -/
theorem Inv.toTrailer (h : Inv pre W T s) (hst : s.enc.transferStage = .data) (hd : s.HeaderDone)
    (hrf : s.enc.readDataFinished = true) :
    Inv pre W T { s with enc := { s.enc with transferStage := .trailer } } ∧
      measure T { s with enc := { s.enc with transferStage := .trailer } } = s.measure T := by
  have hdrop : s.enc.staticHeader.drop s.enc.staticOffset = [] := List.drop_eq_nil_of_le hd
  have hw : s.toWrite T = T := by
    simp [toWrite_data hst, hdrop, h.finished hrf, bodyRest, hrf]
  have hw' : toWrite T { s with enc := { s.enc with transferStage := .trailer } } = T := by
    simp [toWrite, h.data_stage hst]
  refine ⟨⟨?_, h.total, nofun, fun _ _ _ => h.ended hrf (h.data_stage hst) (by simp [hst]), nofun,
    fun _ => hrf, nofun, h.chunk_ne, h.header_ne, h.finished, h.writer, h.trailer_offset, h.trailer_set, nofun⟩, ?_⟩
  · rw [hw', ← hw]
    exact h.written
  · simp only [measure, hw, hw']

/-- The loop of `poll_transfer_data`, with a round of fuel for each unit of
    work left and two more: it waits, or the body is written up to its
    trailer section and the trailer stage follows. -/
theorem transferDataLoop_spec (hH : H.Spec) (h : Inv pre W T s) (hst : s.enc.transferStage = .data)
    (hfuel : s.measure T + 1 < fuel) : StageOk pre W T s (transferDataLoop H fuel s) .trailer := by
  induction fuel generalizing s with
  | zero => omega
  | succ fuel ih =>
    rw [transferDataLoop]
    rcases fillStep_spec hH h hst with ⟨s₁, hx, h₁, hm₁⟩ | ⟨s₁, hx, h₁, hm₁, hst₁, hfc₁⟩
    · rw [hx]
      exact .inl ⟨s₁, rfl, h₁, hm₁⟩
    rw [hx, Flow.andThen_next]
    have hl₁ := length_le_measure (T := T) hst₁
    rcases headerLoop_spec h₁ hst₁ (by omega : _ < fuel) with ⟨s₂, hx₂, h₂, hm₂⟩ |
        ⟨s₂, hx₂, h₂, hd₂, hm₂, hst₂, hrf₂, hc₂⟩
    · rw [hx₂]
      exact .inl ⟨s₂, rfl, h₂, by omega⟩
    rw [hx₂, Flow.andThen_next]
    rw [hst₁] at hst₂
    cases hrf : s₂.enc.readDataFinished
    · -- the body goes on: a chunk is held, and writing it is progress
      rw [if_neg (by simp)]
      obtain ⟨c, hc⟩ : ∃ c, s₂.enc.chunk = some c := by
        rcases hfc₁ with h' | h'
        · rw [← hrf₂, hrf] at h'
          cases h'
        · rw [hc₂]
          exact Option.isSome_iff_exists.1 h'
      have hpos : 0 < c.length := List.length_pos_iff.2 fun h0 => h₂.chunk_ne (h0 ▸ hc)
      have hl₂ := length_le_measure (T := T) hst₂
      rw [hc, Option.getD_some] at hl₂
      have hl₃ : (s₂.enc.chunk.getD []).length < fuel := by
        rw [hc, Option.getD_some]
        omega
      rcases dataLoop_spec h₂ hst₂ hd₂ hrf hl₃ with
          ⟨s₃, hx₃, h₃, hm₃⟩ | ⟨s₃, hx₃, h₃, -, hm₃, hst₃, -⟩
      · rw [hx₃]
        exact .inl ⟨s₃, rfl, h₃, by omega⟩
      rw [hx₃, Flow.andThen_next]
      rw [hc, Option.getD_some] at hm₃
      rcases endRound_cases s₃ with hx₄ | hx₄ <;> rw [hx₄]
      · exact .inl ⟨s₃, rfl, h₃, by omega⟩
      · rw [Flow.andThen_next]
        exact (ih h₃ hst₃ (by omega)).mono (by omega)
    · -- the body has ended: the trailer stage follows
      rw [if_pos rfl]
      obtain ⟨h₃, hm₃⟩ := h₂.toTrailer hst₂ hd₂ hrf
      exact .inr ⟨_, rfl, h₃, by omega, rfl⟩

/-- How the trailer write loop can end from `s`: waiting, with an answer of
    the writer taken, or with the trailer section written. -/
def TrailerOk (pre W T : List UInt8) (s : TransferRound) (x : Option (Flow TransferRound TransferPoll)) : Prop :=
  (∃ s', x = some (.exit .pending s') ∧ Inv pre W T s' ∧ s'.measure T < s.measure T) ∨
  (∃ s', x = some (.next s') ∧ Inv pre W T s' ∧ s'.measure T ≤ s.measure T ∧
    s'.enc.transferStage = .trailer ∧ s'.toWrite T = [])

theorem TrailerOk.of_write {s₁ : TransferRound} {x : Option (Flow TransferRound TransferPoll)}
    (h : TrailerOk pre W T s₁ x) (hm : s₁.measure T ≤ s.measure T) : TrailerOk pre W T s x := by
  rcases h with ⟨s', hx, h', hm'⟩ | ⟨s', hx, h', hm', hst', hw'⟩
  · exact .inl ⟨s', hx, h', by omega⟩
  · exact .inr ⟨s', hx, h', by omega, hst', hw'⟩

/-- The trailer write loop, with a round of fuel for each byte of the
    section and one more. -/
theorem trailerLoop_spec (h : Inv pre W T s) (hst : s.enc.transferStage = .trailer)
    (hne : s.enc.trailerBytes ≠ []) (hfuel : (s.enc.trailerBytes.drop s.enc.trailerOffset).length < fuel) :
    TrailerOk pre W T s (trailerLoop fuel s) := by
  induction fuel generalizing s with
  | zero => omega
  | succ fuel ih =>
    have hw : s.toWrite T = s.enc.trailerBytes.drop s.enc.trailerOffset := by
      rw [toWrite_trailer hst, if_neg hne]
    by_cases hoff : s.enc.trailerOffset < s.enc.trailerBytes.length
    · have hne' : s.enc.trailerBytes.drop s.enc.trailerOffset ≠ [] := by simpa using hoff
      rw [trailerLoop, if_pos hoff]
      rcases Sink.write_steady h.writer hne' with ⟨hw', hev⟩ | ⟨n, hn, hle, hw'⟩
      · -- the writer is not ready: one answer taken
        rw [hw']
        refine .inl ⟨_, rfl, ⟨h.written, h.total, h.body, h.ended, h.data_stage, h.trailer_stage, h.idle,
          h.chunk_ne, h.header_ne, h.finished, h.writer.tail, h.trailer_offset, h.trailer_set, h.end_stage⟩, ?_⟩
        have := Sink.events_tail_lt hev
        simp only [measure, toWrite_trailer, hst, if_neg hne] at this ⊢
        omega
      · -- `n` bytes of the section are written
        rw [hw']
        have hnd : s.enc.transferStage ≠ .data := by simp [hst]
        refine TrailerOk.of_write (ih ⟨?_, ?_, fun h0 => absurd h0 hnd, fun _ h0 => absurd h0 hne,
          fun h0 => absurd h0 hnd, fun _ => h.trailer_stage hst, fun h0 => absurd h0 hnd, h.chunk_ne, h.header_ne,
          h.finished, h.writer.tail, fun h0 => absurd h0 hne, h.trailer_set,
          fun h0 => absurd (h0.symm.trans hst) nofun⟩ hst hne ?_) ?_
        · rw [← h.written, hw]
          simp only [toWrite_trailer, hst, if_neg hne, List.append_assoc]
          rw [← List.drop_drop, List.take_append_drop]
        · simp only [List.length_drop] at hle
          simp [h.total]
          omega
        · simp only [List.length_drop] at hfuel hle ⊢
          omega
        · simp only [measure, toWrite_trailer, hst, if_neg hne, List.length_drop, List.length_tail] at hle ⊢
          omega
    · rw [trailerLoop, if_neg hoff]
      refine .inr ⟨s, rfl, h, le_rfl, hst, ?_⟩
      rw [hw]
      exact List.drop_eq_nil_of_le (by omega)

/-- Once the trailer section is written, the end stage has nothing left. -/
theorem Inv.toEnd (h : Inv pre W T s) (hT : T ≠ []) (hw : s.toWrite T = []) :
    Inv pre W T { s with enc := { s.enc with transferStage := .end_ } } ∧
      measure T { s with enc := { s.enc with transferStage := .end_ } } = s.measure T := by
  have hw' : toWrite T { s with enc := { s.enc with transferStage := .end_ } } = [] := rfl
  refine ⟨⟨?_, h.total, nofun, fun _ _ h0 => absurd rfl h0, nofun, nofun, nofun, h.chunk_ne, h.header_ne,
    h.finished, h.writer, h.trailer_offset, h.trailer_set, fun _ => hT⟩, ?_⟩
  · rw [hw', ← hw]
    exact h.written
  · simp only [measure, hw, hw']

/-- `poll_transfer_trailers` with the trailer section set: it is written,
    and the end stage follows. -/
theorem transferTrailers_of_bytes (h : Inv pre W T s) (hst : s.enc.transferStage = .trailer)
    (hne : s.enc.trailerBytes ≠ []) (hfuel : s.measure T < fuel) :
    StageOk pre W T s (transferTrailers H (fuel + 1) s) .end_ := by
  have hl : (s.enc.trailerBytes.drop s.enc.trailerOffset).length ≤ s.measure T := by
    simp only [measure, toWrite_trailer hst, if_neg hne]
    omega
  have hne' : !s.enc.trailerBytes.isEmpty := by simpa using hne
  rw [transferTrailers, if_pos hne']
  rcases trailerLoop_spec h hst hne (by omega : _ < fuel) with ⟨s', hx, h', hm'⟩ | ⟨s', hx, h', hm', -, hw'⟩
  · rw [hx]
    exact .inl ⟨s', rfl, h', hm'⟩
  · rw [hx, Flow.andThen_next]
    obtain ⟨h'', hm''⟩ := h'.toEnd (h.trailer_set hne) hw'
    exact .inr ⟨_, rfl, h'', by omega, rfl⟩

/-- Setting the trailer section `T` the stream answers keeps what is left to
    write. -/
theorem Inv.setTrailer (h : Inv pre W T s) (hst : s.enc.transferStage = .trailer) (he : s.enc.trailerBytes = [])
    (hT : T ≠ []) :
    Inv pre W T { s with enc := { s.enc with active := true, trailerBytes := T } } ∧
      measure T { s with enc := { s.enc with active := true, trailerBytes := T } } = s.measure T := by
  have hw : s.toWrite T = T := by rw [toWrite_trailer hst, if_pos he]
  have hw' : toWrite T { s with enc := { s.enc with active := true, trailerBytes := T } } = T := by
    simp [toWrite, hst, hT, h.trailer_offset he]
  refine ⟨⟨?_, h.total, fun h0 => absurd (h0.symm.trans hst) nofun, fun _ h0 => absurd h0 hT,
    fun h0 => absurd (h0.symm.trans hst) nofun, h.trailer_stage, fun h0 => absurd (h0.symm.trans hst) nofun,
    h.chunk_ne, h.header_ne, h.finished, h.writer, fun h0 => absurd h0 hT, fun _ => hT,
    fun h0 => absurd (h0.symm.trans hst) nofun⟩, ?_⟩
  · rw [hw', ← hw]
    exact h.written
  · simp only [measure, hw, hw']

/-- `poll_transfer_trailers` on a stalled round: `Pending`, nothing
    changed. -/
theorem transferTrailers_stalled (hH : H.Spec) (hs : s.Stalled) : transferTrailers H (fuel + 1) s = some (.exit .pending s) := by
  obtain ⟨-, he, d, es, hev⟩ := hs
  have hpoll : H.pollTrailers s.recv = (.pending, s.recv) := hH.pollTrailers_data _ d es hev
  rw [transferTrailers, if_neg (by simp [he]), hpoll]

/-- `poll_transfer_trailers`: the trailers asked for come at once, and the
    section is written, the end stage following; or the round is stalled. -/
theorem transferTrailers_spec (hH : H.Spec) (h : Inv pre W T s) (hst : s.enc.transferStage = .trailer)
    (hfuel : s.measure T + 2 < fuel) :
    StageOk pre W T s (transferTrailers H fuel s) .end_ ∨
      (transferTrailers H fuel s = some (.exit .pending s) ∧ s.Stalled) := by
  obtain ⟨fuel, rfl⟩ : ∃ f, fuel = f + 1 := ⟨fuel - 1, by omega⟩
  by_cases hne : s.enc.trailerBytes = []
  · rcases (h.ended (h.trailer_stage hst) hne (by simp [hst])).pollTrailers hH with ⟨tr, hpoll, hT⟩ | ⟨-, hq⟩
    swap
    · -- a payload is queued: the answer is `Pending`, and the round stalls
      have hs : s.Stalled := ⟨hst, hne, hq⟩
      exact .inr ⟨transferTrailers_stalled hH hs, hs⟩
    left
    have hTne : T ≠ [] := hT ▸ trailerBytesOf_ne_nil tr
    obtain ⟨h₁, hm₁⟩ := h.setTrailer hst hne hTne
    have hst₁ : ({ s with enc := { s.enc with active := true, trailerBytes := T } } : TransferRound).enc.transferStage =
        .trailer := hst
    obtain ⟨fuel, rfl⟩ : ∃ f, fuel = f + 1 := ⟨fuel - 1, by omega⟩
    have hnext := transferTrailers_of_bytes (H := H) h₁ hst₁ hTne (lt_of_eq_of_lt hm₁ (show s.measure T < fuel by omega))
    have hne' : (!s.enc.trailerBytes.isEmpty) = false := by simp [hne]
    rw [transferTrailers, if_neg (by simp [hne']), hpoll]
    -- the section set is the one the stream's answer gives, `T`
    cases tr with
    | some trailer =>
      dsimp only
      rw [show ChunkedEncodeTransferInternal.trailerSectionOf trailer = T from hT]
      exact hnext.mono hm₁.le
    | none =>
      dsimp only
      rw [show ([13, 10] : List UInt8) = T from hT]
      exact hnext.mono hm₁.le
  · exact .inl (transferTrailers_of_bytes h hst hne (by omega))

/-- How a poll can end from `s`: waiting, with the invariant kept and less
    work left; with the whole output written and its length returned, `T`
    not empty; or stalled. -/
def PollOk (pre W T : List UInt8) (s : TransferRound) (x : Option (TransferPoll × TransferRound)) : Prop :=
  (∃ s', x = some (.pending, s') ∧ Inv pre W T s' ∧ s'.measure T < s.measure T) ∨
  (∃ s', x = some (.ready (.ok W.length), s') ∧ s'.writer.written = pre ++ W ∧ s'.enc.finished = true ∧
    T ≠ []) ∨
  (∃ s', x = some (.pending, s') ∧ Inv pre W T s' ∧ s'.Stalled)

theorem PollOk.mono {s₁ : TransferRound} {x : Option (TransferPoll × TransferRound)} (h : PollOk pre W T s₁ x)
    (hm : s₁.measure T ≤ s.measure T) : PollOk pre W T s x := by
  rcases h with ⟨s', hx, h', hm'⟩ | hready
  · exact .inl ⟨s', hx, h', by omega⟩
  · exact .inr hready

/-- The end stage: the flush waits, or the output is all written and its
    length is returned. -/
theorem pollTransfer_end (h : Inv pre W T s) (hst : s.enc.transferStage = .end_) :
    PollOk pre W T s (pollTransfer H (fuel + 1) s) := by
  -- everything is written: `total_write` is the length of the output
  have hall : s.writer.written = pre ++ W := by
    rw [← h.written, toWrite_end hst, List.append_nil]
  have htot : s.enc.totalWrite = W.length := by
    have := h.total
    rw [hall, List.length_append] at this
    omega
  rcases Sink.flush_steady h.writer with ⟨hf, hev⟩ | hf
  · refine .inl ⟨{ s with writer := ⟨s.writer.written, s.writer.flushed, s.writer.events.tail⟩ }, ?_,
      ⟨h.written, h.total, h.body, h.ended, h.data_stage, h.trailer_stage, h.idle, h.chunk_ne, h.header_ne,
        h.finished, h.writer.tail, h.trailer_offset, h.trailer_set, h.end_stage⟩, ?_⟩
    · rw [pollTransfer]
      simp only [hst, hf]
    · have := Sink.events_tail_lt hev
      simp only [measure, toWrite_writer, toWrite_end hst] at this ⊢
      omega
  · refine .inr (.inl ⟨{ s with writer := ⟨s.writer.written, s.writer.written.length, s.writer.events.tail⟩ },
      ?_, hall, ?_, h.end_stage hst⟩)
    · rw [pollTransfer]
      simp only [hst, hf, htot]
    · simp [ChunkedEncodeTransferInternal.finished, hst]

/-- The trailer stage and the end stage after it. -/
theorem pollTransfer_trailer (hH : H.Spec) (h : Inv pre W T s) (hst : s.enc.transferStage = .trailer)
    (hfuel : s.measure T + 3 < fuel) : PollOk pre W T s (pollTransfer H fuel s) := by
  obtain ⟨fuel, rfl⟩ : ∃ f, fuel = f + 1 := ⟨fuel - 1, by omega⟩
  rcases transferTrailers_spec hH h hst (by omega : s.measure T + 2 < fuel) with (⟨s', hx, h', hm'⟩ |
      ⟨s', hx, h', hm', hst'⟩) | ⟨hx, hs⟩
  · refine .inl ⟨s', ?_, h', hm'⟩
    rw [pollTransfer]
    simp only [hst, hx]
  swap
  · refine .inr (.inr ⟨s, ?_, h, hs⟩)
    rw [pollTransfer]
    simp only [hst, hx]
  · have hnext : pollTransfer H (fuel + 1) s = pollTransfer H fuel s' := by
      rw [pollTransfer]
      simp only [hst, hx]
    rw [hnext]
    obtain ⟨fuel, rfl⟩ : ∃ f, fuel = f + 1 := ⟨fuel - 1, by omega⟩
    exact (pollTransfer_end h' hst').mono hm'

/-- The data stage and the stages after it. -/
theorem pollTransfer_data (hH : H.Spec) (h : Inv pre W T s) (hst : s.enc.transferStage = .data)
    (hfuel : s.measure T + 4 < fuel) : PollOk pre W T s (pollTransfer H fuel s) := by
  obtain ⟨fuel, rfl⟩ : ∃ f, fuel = f + 1 := ⟨fuel - 1, by omega⟩
  rcases transferDataLoop_spec hH h hst (by omega : s.measure T + 1 < fuel) with ⟨s', hx, h', hm'⟩ |
      ⟨s', hx, h', hm', hst'⟩
  · refine .inl ⟨s', ?_, h', hm'⟩
    rw [pollTransfer]
    simp only [hst, hx]
  · have hnext : pollTransfer H (fuel + 1) s = pollTransfer H fuel s' := by
      rw [pollTransfer]
      simp only [hst, hx]
    rw [hnext]
    exact (pollTransfer_trailer hH h' hst' (by omega)).mono hm'

/-- `poll_transfer`, with a round of fuel for each unit of work left and
    five more. -/
theorem pollTransfer_spec (hH : H.Spec) (h : Inv pre W T s) (hfuel : s.measure T + 4 < fuel) :
    PollOk pre W T s (pollTransfer H fuel s) := by
  cases hst : s.enc.transferStage with
  | data => exact pollTransfer_data hH h hst hfuel
  | trailer => exact pollTransfer_trailer hH h hst (by omega)
  | end_ =>
    obtain ⟨fuel, rfl⟩ : ∃ f, fuel = f + 1 := ⟨fuel - 1, by omega⟩
    exact pollTransfer_end h hst

/-- A stalled round waits at every poll, with nothing changed. -/
theorem pollTransfer_stalled (hH : H.Spec) (hs : s.Stalled) : pollTransfer H (fuel + 2) s = some (.pending, s) := by
  rw [pollTransfer]
  simp only [hs.1, transferTrailers_stalled hH hs]

end TransferRound

namespace H2StreamToChunkedTransfer

open TransferRound ChunkedEncodeTransferInternal

/-- The round a poll starts from. -/
def start (t : H2StreamToChunkedTransfer) : TransferRound := ⟨t.internal, t.recvStream, t.writer, 0⟩

variable {H : RecvOps} {pre W T : List UInt8} {t : H2StreamToChunkedTransfer}

theorem poll_of_pollTransfer {fuel : Nat} {res : TransferPoll} {s : TransferRound}
    (hx : pollTransfer H fuel t.start = some (res, s)) : poll H fuel t = some (res, ⟨s.recv, s.writer, s.enc⟩) := by
  unfold start at hx
  unfold poll
  rw [hx]
  rfl

/-- The invariant does not look at the count of data bytes of a poll, which
    the next poll starts from `0`. -/
theorem inv_start {s : TransferRound} (h : Inv pre W T s) :
    Inv pre W T (⟨s.recv, s.writer, s.enc⟩ : H2StreamToChunkedTransfer).start :=
  ⟨h.written, h.total, h.body, h.ended, h.data_stage, h.trailer_stage, h.idle, h.chunk_ne, h.header_ne,
    h.finished, h.writer, h.trailer_offset, h.trailer_set, h.end_stage⟩

/-- A poll either waits, with the invariant kept and less work left,
    returns the length of the whole output, written, or stalls. -/
theorem poll_spec (hH : H.Spec) (h : Inv pre W T t.start) (hfuel : t.start.measure T + 4 < fuel) :
    (∃ t', poll H fuel t = some (.pending, t') ∧ Inv pre W T t'.start ∧ t'.start.measure T < t.start.measure T) ∨
    (∃ t', poll H fuel t = some (.ready (.ok W.length), t') ∧ t'.writer.written = pre ++ W ∧
      t'.finished = true ∧ T ≠ []) ∨
    (∃ t', poll H fuel t = some (.pending, t') ∧ Inv pre W T t'.start ∧ t'.start.Stalled) := by
  rcases pollTransfer_spec hH h hfuel with ⟨s', hx, h', hm'⟩ | ⟨s', hx, hw', hf', hT⟩ | ⟨s', hx, h', hs'⟩
  · exact .inl ⟨⟨s'.recv, s'.writer, s'.enc⟩, poll_of_pollTransfer hx, inv_start h', hm'⟩
  · exact .inr (.inl ⟨⟨s'.recv, s'.writer, s'.enc⟩, poll_of_pollTransfer hx, hw', hf', hT⟩)
  · exact .inr (.inr ⟨⟨s'.recv, s'.writer, s'.enc⟩, poll_of_pollTransfer hx, inv_start h', hs'⟩)

/-- A stalled transfer waits at every poll, with nothing changed. -/
theorem poll_stalled (hH : H.Spec) (hs : t.start.Stalled) : poll H (fuel + 2) t = some (.pending, t) := by
  unfold poll
  rw [show (⟨t.internal, t.recvStream, t.writer, 0⟩ : TransferRound) = t.start from rfl,
    pollTransfer_stalled hH hs]
  rfl

/-- However often it is polled, a stalled transfer never completes. -/
theorem run_stalled (hH : H.Spec) (hs : t.start.Stalled) : ∀ polls, run H (fuel + 2) polls t = some (.pending, t)
  | 0 => rfl
  | polls + 1 => by
    rw [run, poll_stalled hH hs]
    exact run_stalled hH hs polls

/-- Polled once for each unit of work left and once more, the transfer
    returns the length of the whole output, written, or, `T` being empty,
    has written it and stalled. -/
theorem run_spec (hH : H.Spec) (h : Inv pre W T t.start) (hpolls : t.start.measure T < polls)
    (hfuel : t.start.measure T + 4 < fuel) :
    (∃ t', run H fuel polls t = some (.ready (.ok W.length), t') ∧ t'.writer.written = pre ++ W ∧
      t'.finished = true ∧ T ≠ []) ∨
    (∃ t', run H fuel polls t = some (.pending, t') ∧ t'.writer.written = pre ++ W ∧ t'.start.Stalled ∧
      T = []) := by
  induction polls generalizing t with
  | zero => omega
  | succ polls ih =>
    rcases poll_spec hH h hfuel with ⟨t', hp, h', hm'⟩ | ⟨t', hp, hw', hf', hT⟩ | ⟨t', hp, h', hs'⟩
    · rw [run, hp]
      exact ih h' (by omega) (by omega)
    · exact .inl ⟨t', by rw [run, hp], hw', hf', hT⟩
    · -- stalled: every later poll waits
      obtain ⟨fuel, rfl⟩ : ∃ f, fuel = f + 2 := ⟨fuel - 2, by omega⟩
      obtain ⟨hT, hw'⟩ := h'.stalled hs'
      refine .inr ⟨t', ?_, hw', hs', hT⟩
      rw [run, hp]
      exact run_stalled hH hs' polls

/-- A new transfer over a stream that answers as `BodyThen T` says is part
    way through writing the body's encoding and `T`, with nothing written. -/
theorem inv_new {r : RecvStream} {w : Sink} (yieldSize : Nat) (hr : BodyThen T r.trailers r.events)
    (hw : w.Steady) : Inv w.written (bodyEncoding false (bodyPayloads r.events) ++ T) T (new r w yieldSize).start :=
  ⟨by simp [start, new, ChunkedEncodeTransferInternal.new, toWrite, bodyRest, started], by simp [start, new,
    ChunkedEncodeTransferInternal.new], fun _ _ => hr, nofun, fun _ => rfl, nofun,
    fun _ _ _ => ⟨Nat.le_refl 0, by simp [start, new, ChunkedEncodeTransferInternal.new]⟩, nofun, nofun, nofun,
    hw, fun _ => rfl, fun h0 => absurd rfl h0, nofun⟩

/-- Over a stream that answers with nonempty payloads and waits up to the
    end of the body, and a writer that never fails and never accepts
    nothing, the transfer writes the data part of the chunked message of the
    body's payloads, then the trailer section it is answered, and returns
    their length. -/
theorem run_writes_body (hH : H.Spec) {r : RecvStream} {w : Sink} (yieldSize : Nat) (hr : BodyThen T r.trailers r.events)
    (hT : T ≠ []) (hw : w.Steady)
    (hpolls : ((Message.ofSegments (bodyPayloads r.events)).dataPart ++ T).length + r.events.length +
      w.events.length < polls)
    (hfuel : ((Message.ofSegments (bodyPayloads r.events)).dataPart ++ T).length + r.events.length +
      w.events.length + 4 < fuel) :
    ∃ t, run H fuel polls (new r w yieldSize) =
        some (.ready (.ok ((Message.ofSegments (bodyPayloads r.events)).dataPart ++ T).length), t) ∧
      t.writer.written = w.written ++ ((Message.ofSegments (bodyPayloads r.events)).dataPart ++ T) ∧
      t.finished = true := by
  have h := inv_new yieldSize hr hw
  have hm : (new r w yieldSize).start.measure T =
      (bodyEncoding false (bodyPayloads r.events) ++ T).length + r.events.length + w.events.length := by
    simp [TransferRound.measure, start, new, ChunkedEncodeTransferInternal.new, toWrite, bodyRest, started]
  rw [← bodyEncoding_false] at hpolls hfuel ⊢
  rcases run_spec hH h (show _ < polls by omega) (show _ < fuel by omega) with ⟨t, hrun, hw', hf, -⟩ |
      ⟨-, -, -, -, hT'⟩
  · exact ⟨t, hrun, hw', hf⟩
  · exact absurd hT' hT

/-- The answers of a stream that sends nonempty payloads and waits. -/
def PayloadsAndWaits (es : List RecvEvent) : Prop := ∀ e ∈ es, e = .pending ∨ ∃ d, e = .data d ∧ d ≠ []

theorem PayloadsAndWaits.tail {e : RecvEvent} {es : List RecvEvent} (h : PayloadsAndWaits (e :: es)) :
    PayloadsAndWaits es :=
  fun e' he' => h e' (List.mem_cons_of_mem e he')

/-- Such a stream ends the body at its end, and its trailers follow. -/
theorem bodyThen_of_payloadsAndWaits {tr : Option TrailerFields} {es : List RecvEvent}
    (hes : PayloadsAndWaits es) : BodyThen (trailerBytesOf tr) tr es := by
  induction es with
  | nil => rfl
  | cons e es ih =>
    rcases hes e List.mem_cons_self with rfl | ⟨d, rfl, hd⟩
    · exact ih hes.tail
    · obtain ⟨b, bs, rfl⟩ := List.exists_cons_of_ne_nil hd
      exact ih hes.tail

/-- After such answers, an empty payload ends the body; with a payload
    queued after it the trailers never come, and nothing more is written. -/
theorem bodyThen_empty_payload {tr : Option TrailerFields} {es rest : List RecvEvent} {b : List UInt8}
    (hes : PayloadsAndWaits es) : BodyThen [] tr (es ++ .data [] :: .data b :: rest) := by
  induction es with
  | nil => exact .inr ⟨b, rest, rfl, rfl⟩
  | cons e es ih =>
    rcases hes e List.mem_cons_self with rfl | ⟨d, rfl, hd⟩
    · exact ih hes.tail
    · obtain ⟨b, bs, rfl⟩ := List.exists_cons_of_ne_nil hd
      exact ih hes.tail

theorem bodyPayloads_empty_payload {es rest : List RecvEvent} (hes : PayloadsAndWaits es) :
    bodyPayloads (es ++ .data [] :: rest) = bodyPayloads es := by
  induction es with
  | nil => rfl
  | cons e es ih =>
    rcases hes e List.mem_cons_self with rfl | ⟨d, rfl, hd⟩
    · exact ih hes.tail
    · obtain ⟨b, bs, rfl⟩ := List.exists_cons_of_ne_nil hd
      simp [bodyPayloads, ih hes.tail]

/-- A stream of nonempty payloads and waits is written as the chunked
    message of its payloads, its trailers as the trailer fields. -/
theorem run_writes_message (hH : H.Spec) {r : RecvStream} {w : Sink} (yieldSize : Nat) (hr : PayloadsAndWaits r.events)
    (hw : w.Steady)
    (hpolls : { Message.ofSegments (bodyPayloads r.events) with trailers := trailerLines r.trailers }.encode.length +
      r.events.length + w.events.length < polls)
    (hfuel : { Message.ofSegments (bodyPayloads r.events) with trailers := trailerLines r.trailers }.encode.length +
      r.events.length + w.events.length + 4 < fuel) :
    ∃ t, run H fuel polls (new r w yieldSize) = some (.ready (.ok
        { Message.ofSegments (bodyPayloads r.events) with trailers := trailerLines r.trailers }.encode.length), t) ∧
      t.writer.written =
        w.written ++ { Message.ofSegments (bodyPayloads r.events) with trailers := trailerLines r.trailers }.encode ∧
      t.finished = true := by
  have henc : { Message.ofSegments (bodyPayloads r.events) with trailers := trailerLines r.trailers }.encode =
      (Message.ofSegments (bodyPayloads r.events)).dataPart ++ trailerBytesOf r.trailers := by
    rw [Message.encode_eq_dataPart, trailerBytesOf_eq]
    rfl
  rw [henc] at hpolls hfuel ⊢
  exact run_writes_body hH yieldSize (bodyThen_of_payloadsAndWaits hr) (trailerBytesOf_ne_nil _) hw hpolls hfuel

/-- Two payloads with a wait between them and a trailer field `a: b`, to a
    writer that waits once and then takes three bytes. -/
theorem run_writes_message_trailer :
    ∃ t, run RecvStream.ops 60 60 (new ⟨[.data [104], .pending, .data [105, 106]], some [([97], [98])]⟩
        (.open_ [.pending, .accept 3]) 16) = some (.ready (.ok
        { Message.ofSegments (bodyPayloads [.data [104], .pending, .data [105, 106]]) with
          trailers := trailerLines (some [([97], [98])]) }.encode.length), t) ∧
      t.writer.written = (Sink.open_ [.pending, .accept 3]).written ++
        { Message.ofSegments (bodyPayloads [.data [104], .pending, .data [105, 106]]) with
          trailers := trailerLines (some [([97], [98])]) }.encode ∧
      t.finished = true :=
  run_writes_message RecvStream.ops_spec 16 (by simp [PayloadsAndWaits]) (by simp [Sink.Steady, Sink.open_]) (by decide) (by decide)

/-- An empty payload after nonempty payloads and waits ends the body.  With
    a payload queued after it, the transfer writes the data part of the
    chunked message of the payloads before it and asks for the trailers,
    which are answered `Pending` while the payload is queued: the transfer
    stalls, every later poll waits, and it never completes. -/
theorem run_ends_body_at_empty_payload (hH : H.Spec) {es rest : List RecvEvent} {tr : Option TrailerFields} {w : Sink}
    {b : List UInt8} (yieldSize : Nat) (hes : PayloadsAndWaits es) (hw : w.Steady)
    (hpolls : (Message.ofSegments (bodyPayloads es)).dataPart.length + (es ++ .data [] :: .data b :: rest).length +
      w.events.length < polls)
    (hfuel : (Message.ofSegments (bodyPayloads es)).dataPart.length + (es ++ .data [] :: .data b :: rest).length +
      w.events.length + 4 < fuel) :
    ∃ t, run H fuel polls (new ⟨es ++ .data [] :: .data b :: rest, tr⟩ w yieldSize) = some (.pending, t) ∧
      t.writer.written = w.written ++ (Message.ofSegments (bodyPayloads es)).dataPart ∧
      (∃ d es', t.recvStream.events = .data d :: es') ∧ ∀ more, run H fuel more t = some (.pending, t) := by
  have h := inv_new (r := ⟨es ++ .data [] :: .data b :: rest, tr⟩) yieldSize (bodyThen_empty_payload hes) hw
  have hm : (new ⟨es ++ .data [] :: .data b :: rest, tr⟩ w yieldSize).start.measure [] =
      (Message.ofSegments (bodyPayloads es)).dataPart.length + (es ++ .data [] :: .data b :: rest).length +
        w.events.length := by
    simp [TransferRound.measure, start, new, ChunkedEncodeTransferInternal.new, toWrite, bodyRest, started,
      bodyPayloads_empty_payload hes, bodyEncoding_false]
  rw [List.append_nil, bodyPayloads_empty_payload hes, bodyEncoding_false] at h
  rcases run_spec hH h (show _ < polls by omega) (show _ < fuel by omega) with ⟨-, -, -, -, hT⟩ |
      ⟨t, hrun, hw', hs, -⟩
  · exact absurd rfl hT
  · obtain ⟨fuel, rfl⟩ : ∃ f, fuel = f + 2 := ⟨fuel - 2, by omega⟩
    exact ⟨t, hrun, hw', hs.2.2, run_stalled hH hs⟩

/-- DATA payloads `a`, ``, `b`: the empty payload ends the body, and after
    `1\r\na\r\n0\r\n` the transfer asks for the trailers while a payload is
    queued; it waits at every later poll, never writes the final line end,
    and never returns. -/
theorem empty_data_frame_ends_body (hH : H.Spec) :
    ∃ t, run H 20 16 (new ⟨[.data [97], .data [], .data [98]], none⟩ (.open_ []) 1024) =
        some (.pending, t) ∧
      t.writer.written = [49, 13, 10, 97, 13, 10, 48, 13, 10] ∧
      (∃ d es, t.recvStream.events = .data d :: es) ∧ ∀ more, run H 20 more t = some (.pending, t) := by
  have h : ∃ t, run H 20 16
      (new ⟨[.data [97]] ++ .data [] :: .data [98] :: [], none⟩ (.open_ []) 1024) = some (.pending, t) ∧
      t.writer.written = (Sink.open_ []).written ++ (Message.ofSegments (bodyPayloads [.data [97]])).dataPart ∧
      (∃ d es', t.recvStream.events = .data d :: es') ∧ ∀ more, run H 20 more t = some (.pending, t) :=
    run_ends_body_at_empty_payload hH 1024 (by simp [PayloadsAndWaits]) (by simp [Sink.Steady, Sink.open_])
      (by decide) (by decide)
  obtain ⟨t, hrun, hw, hq, hstall⟩ := h
  exact ⟨t, hrun, by rw [hw]; rfl, hq, hstall⟩

/-- The stall on the stream that answers as its events say. -/
theorem empty_data_frame_ends_body_scripted :
    ∃ t, run RecvStream.ops 20 16 (new ⟨[.data [97], .data [], .data [98]], none⟩ (.open_ []) 1024) =
        some (.pending, t) ∧
      t.writer.written = [49, 13, 10, 97, 13, 10, 48, 13, 10] ∧
      (∃ d es, t.recvStream.events = .data d :: es) ∧
      ∀ more, run RecvStream.ops 20 more t = some (.pending, t) :=
  empty_data_frame_ends_body RecvStream.ops_spec

end H2StreamToChunkedTransfer

end H2

end G3Proxy
