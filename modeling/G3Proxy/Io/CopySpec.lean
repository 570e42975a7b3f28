/-
  What the copy of g3-io-ext (`poll_copy` of `LimitedCopyBuffer`) does over
  a reader that hands out a stream and a writer that never fails and never
  accepts nothing: it writes every byte of the stream, in order, and returns
  their number (`ROwnedLimitedCopy.poll_spec`, `LimitedCopy.run_copies`).

  * `ReadsStream read P rest waits` is what the copy asks of the reader's
    `poll_read` on readers satisfying `P`: a read into some space waits, with
    fewer waits left, or gives the next bytes of `rest`, at most the space,
    and nothing only at the end of the stream.  A segmented `Source` is
    such a reader (`Source.readsStream`).
  * `CopyInv` says that the bytes written, those between the cursors of the
    buffer, and those the reader still holds make the whole output, and
    that `total_write` counts the bytes written.  Each block of the loop of
    `poll_copy` keeps it (`readStep_spec`, `writeLoop_spec`,
    `finishStep_spec`); `measure` counts the bytes left, the waits of both
    ends and whether the end of the stream is still to be read, and a pass
    of the loop that goes on, or a poll that waits, makes it smaller.
  * A yield size of `0` makes every poll wait after its first pass, so the
    copy finishes only for a positive one; `LimitedCopyConfig.setYieldSize`
    and the default give one.
-/
import G3Proxy.Io.OwnedCopy

namespace G3Proxy

open AsyncIo Machine

variable {ρ : Type}

/-- A reader `poll_read` that hands out the bytes `rest r` of readers `r`
    satisfying `P`: a read into some space waits, with fewer waits left, or
    gives the next bytes, at most the space and none only at the end. -/
structure ReadsStream (read : ReadFn ρ) (P : ρ → Prop) (rest : ρ → List UInt8) (waits : ρ → Nat) : Prop where
  read_spec : ∀ r space, P r → 0 < space →
    (∃ r', read r space = some (.pending, r') ∧ P r' ∧ rest r' = rest r ∧ waits r' < waits r) ∨
    (∃ d r', read r space = some (.ready (.ok d), r') ∧ P r' ∧ d.length ≤ space ∧ rest r = d ++ rest r' ∧
      waits r' ≤ waits r ∧ (d = [] → rest r = []))

/-- A segmented `Source` hands out the rest of its stream. -/
theorem Source.readsStream : ReadsStream Source.readFn Source.Segmented Source.rest (fun r => r.events.length) := by
  refine ⟨fun r space hr hspace => ?_⟩
  by_cases hrest : r.rest = []
  · -- at the end of the stream a read gives nothing
    have hb : r.buf = [] := by simp [Source.rest] at hrest; exact hrest.1
    rcases Source.fillBuf_segmented_empty hr hb with ⟨he, hf⟩ | ⟨d, es, he, hd, -⟩ | ⟨es, he, hf⟩
    · refine .inr ⟨[], r.consume space, by simp [Source.readFn, Source.read, hf], ?_, by simp, ?_, by simp,
        fun _ => hrest⟩
      · exact hr
      · simp [Source.rest, hb, he]
    · simp [Source.rest, hb, he, ReadEvent.bytes] at hrest
      exact absurd hrest.1 hd
    · refine .inl ⟨⟨[], es⟩, by simp [Source.readFn, Source.read, hf], fun e he' => hr e (by simp [he, he']),
        ?_, by simp [he]⟩
      simp [Source.rest, hb, he, ReadEvent.bytes]
  · rcases Source.fillBuf_segmented hr hrest with ⟨s', hf, hrest', hseg, hev, -⟩ |
        ⟨s', hf, hne, hrest', hseg, hev, -, -⟩
    · exact .inl ⟨s', by simp [Source.readFn, Source.read, hf], hseg, hrest', hev⟩
    · refine .inr ⟨s'.buf.take space, s'.consume space, by simp [Source.readFn, Source.read, hf], hseg,
        List.length_take_le _ _, ?_, by simpa using hev, fun h0 => absurd h0 (by simp [hne]; omega)⟩
      rw [← hrest', Source.rest, Source.consume, Source.rest, ← List.append_assoc, List.take_append_drop]


/-! ## The buffer -/

namespace LimitedCopyBuffer

variable {b : LimitedCopyBuffer}

/-- The cursors and the sizes of a buffer in use: the bytes below `r_off`
    are kept, the cursors are in order and within the capacity, and the
    capacity and the yield size are positive. -/
structure Wf (b : LimitedCopyBuffer) : Prop where
  w_le_r : b.wOff ≤ b.rOff
  r_le_len : b.rOff ≤ b.buf.length
  r_le_cap : b.rOff ≤ b.capacity
  cap_pos : 0 < b.capacity
  yield_pos : 0 < b.yieldSize

theorem pending_eq (b : LimitedCopyBuffer) : b.pending = (b.buf.take b.rOff).drop b.wOff := by
  rw [pending, List.drop_take]

theorem length_pending (h : b.Wf) : b.pending.length = b.rOff - b.wOff := by
  rw [pending_eq, List.length_drop, List.length_take, min_eq_left h.r_le_len]

/-- The buffer after a write of `n` of its bytes, as `poll_write_buf`
    leaves it. -/
theorem pending_write (b : LimitedCopyBuffer) (n : Nat) :
    ({ b with wOff := b.wOff + n, totalWrite := b.totalWrite + n, needFlush := true, active := true } :
      LimitedCopyBuffer).pending = b.pending.drop n := by
  simp only [pending_eq, List.drop_drop]

theorem Wf.write (hb : b.Wf) {n : Nat} (hn : n ≤ b.pending.length) :
    ({ b with wOff := b.wOff + n, totalWrite := b.totalWrite + n, needFlush := true, active := true } :
      LimitedCopyBuffer).Wf := by
  rw [length_pending hb] at hn
  have := hb.w_le_r
  exact ⟨by dsimp only; omega, hb.r_le_len, hb.r_le_cap, hb.cap_pos, hb.yield_pos⟩

/-- A read of `d` after `r_off` puts `d` after the bytes between the
    cursors. -/
theorem pending_fill (h : b.Wf) (d : List UInt8) :
    ({ b with buf := b.buf.take b.rOff ++ d, rOff := b.rOff + d.length } : LimitedCopyBuffer).pending =
      b.pending ++ d := by
  have hlen : (b.buf.take b.rOff).length = b.rOff := by simp [h.r_le_len]
  simp only [pending_eq]
  rw [List.take_of_length_le (by simp [hlen]), List.drop_append_of_le_length (by rw [hlen]; exact h.w_le_r)]

variable {read : ReadFn ρ} {P : ρ → Prop} {rest : ρ → List UInt8} {waits : ρ → Nat}

/-- A fill of a buffer with room, before the end of the stream: a wait, with
    fewer waits left; the end of the stream; or the next bytes of the
    stream, put after the bytes between the cursors. -/
theorem pollFillBufWith_spec (hread : ReadsStream read P rest waits) {r : ρ} (hP : P r) (hb : b.Wf)
    (hroom : b.rOff < b.capacity) (hrd : b.readDone = false) :
    (∃ r', b.pollFillBufWith read r = some (.pending, b, r') ∧ P r' ∧ rest r' = rest r ∧ waits r' < waits r) ∨
    (∃ b' r', b.pollFillBufWith read r = some (.ready (.ok ()), b', r') ∧ P r' ∧ b'.Wf ∧
      b'.totalWrite = b.totalWrite ∧ b'.readDone = true ∧ b'.pending = b.pending ∧ rest r = [] ∧
      rest r' = [] ∧ waits r' ≤ waits r) ∨
    (∃ b' r' d, b.pollFillBufWith read r = some (.ready (.ok ()), b', r') ∧ P r' ∧ b'.Wf ∧
      b'.totalWrite = b.totalWrite ∧ b'.readDone = false ∧ d ≠ [] ∧ b'.pending = b.pending ++ d ∧
      rest r = d ++ rest r' ∧ waits r' ≤ waits r) := by
  rcases hread.read_spec r (b.capacity - b.rOff) hP (by omega) with ⟨r', hx, hP', hrest, hw⟩ |
      ⟨d, r', hx, hP', hlen, hrest, hw, hend⟩
  · exact .inl ⟨r', by simp [pollFillBufWith, hx], hP', hrest, hw⟩
  · by_cases hd : d = []
    · -- a read of nothing: the end of the stream
      subst hd
      have hend := hend rfl
      have hfill : b.pollFillBufWith read r = some (.ready (.ok ()),
          { b with buf := b.buf.take b.rOff, totalRead := b.totalRead + b.rOff, readDone := true }, r') := by
        simp [pollFillBufWith, hx]
      refine .inr (.inl ⟨_, r', hfill, hP', ⟨hb.w_le_r, by simp [hb.r_le_len], hb.r_le_cap, hb.cap_pos,
        hb.yield_pos⟩, rfl, rfl, by simp [pending_eq, List.take_take], hend, by simpa [hend] using hrest, hw⟩)
    · -- the next bytes, after `r_off`
      have hfill : b.pollFillBufWith read r = some (.ready (.ok ()),
          { b with
            buf := b.buf.take b.rOff ++ d
            totalRead := b.totalRead + (b.rOff + d.length)
            rOff := b.rOff + d.length
            active := true }, r') := by
        simp [pollFillBufWith, hx, hd]
      refine .inr (.inr ⟨_, r', d, hfill, hP', ⟨by have := hb.w_le_r; simp; omega, by simp [hb.r_le_len],
        by simp; omega, hb.cap_pos, hb.yield_pos⟩, rfl, hrd, hd, pending_fill hb d, hrest, hw⟩)

/-- Moving the short tail to the front keeps the bytes between the cursors
    and makes no room taken. -/
theorem moveTail_spec (hb : b.Wf) {b₁ : LimitedCopyBuffer}
    (h : (if b.rOff - b.wOff < b.wOff then
      { b with buf := (b.buf.drop b.wOff).take (b.rOff - b.wOff), wOff := 0, rOff := b.rOff - b.wOff }
      else b) = b₁) :
    b₁.Wf ∧ b₁.pending = b.pending ∧ b₁.rOff ≤ b.rOff ∧ b₁.capacity = b.capacity ∧ b₁.readDone = b.readDone ∧
      b₁.totalWrite = b.totalWrite := by
  have hw := hb.w_le_r
  have hr := hb.r_le_len
  split_ifs at h
  · subst h
    refine ⟨⟨Nat.zero_le _, by simp; omega, by have := hb.r_le_cap; simp; omega, hb.cap_pos, hb.yield_pos⟩,
      ?_, by simp, rfl, rfl, rfl⟩
    simp [pending_eq, List.take_take, List.drop_take]
  · subst h
    exact ⟨hb, rfl, le_rfl, rfl, rfl, rfl⟩

/-- A write of the bytes between the cursors to a steady writer: it is not
    ready (an answer taken, and the buffer topped up from the reader), or
    takes a positive number of them. -/
theorem pollWriteBufWith_spec (hread : ReadsStream read P rest waits) {r : ρ} {w : Sink} (hP : P r) (hb : b.Wf)
    (hw : w.Steady) (hne : b.wOff < b.rOff) (hdone : b.readDone = true → rest r = []) :
    (∃ b' r', b.pollWriteBufWith read r w = some (.pending, b', r', ⟨w.written, w.flushed, w.events.tail⟩) ∧
      w.events ≠ [] ∧ P r' ∧ b'.Wf ∧ b'.totalWrite = b.totalWrite ∧ b'.pending ++ rest r' = b.pending ++ rest r ∧
      waits r' ≤ waits r ∧ (b'.readDone = true → rest r' = []) ∧ (b.readDone = true → b'.readDone = true)) ∨
    (∃ n, b.pollWriteBufWith read r w = some (.ready (.ok n), { b with
        wOff := b.wOff + n
        totalWrite := b.totalWrite + n
        needFlush := true
        active := true }, r, ⟨w.written ++ b.pending.take n, w.flushed, w.events.tail⟩) ∧
      0 < n ∧ n ≤ b.pending.length) := by
  have hpne : b.pending ≠ [] := by
    intro h0
    have := length_pending hb
    rw [h0] at this
    simp at this
    omega
  rcases Sink.write_steady hw hpne with ⟨hwr, hev⟩ | ⟨n, hn, hle, hwr⟩
  · -- the writer is not ready: the buffer is topped up when it can take more
    unfold pollWriteBufWith
    rw [hwr]
    dsimp only
    by_cases htop : (!b.readDone && decide (b.rOff < b.capacity)) = true
    · rw [if_pos htop]
      simp only [Bool.and_eq_true, Bool.not_eq_true', decide_eq_true_eq] at htop
      generalize hb₁ : (if b.rOff - b.wOff < b.wOff then _ else _) = b₁
      obtain ⟨hwf₁, hp₁, hr₁, hcap₁, hrd₁, htw₁⟩ := moveTail_spec hb hb₁
      rcases pollFillBufWith_spec hread hP hwf₁ (by omega) (hrd₁.trans htop.1) with
          ⟨r', hx, hP', hrest, hwt⟩ | ⟨b', r', hx, hP', hwf', htw', hrd', hp', hend, hend', hwt⟩ |
          ⟨b', r', d, hx, hP', hwf', htw', hrd', -, hp', hrest, hwt⟩ <;> rw [hx] <;> simp only [Option.map_some]
      · exact .inl ⟨b₁, r', rfl, hev, hP', hwf₁, htw₁, by rw [hp₁, hrest], hwt.le, by simp [hrd₁, htop.1],
          fun h => absurd (htop.1 ▸ h) nofun⟩
      · exact .inl ⟨b', r', rfl, hev, hP', hwf', htw'.trans htw₁, by rw [hp', hp₁, hend, hend'], hwt,
          fun _ => hend', fun _ => hrd'⟩
      · exact .inl ⟨b', r', rfl, hev, hP', hwf', htw'.trans htw₁, by rw [hp', hp₁, hrest, List.append_assoc],
          hwt, fun h => absurd (hrd' ▸ h) nofun, fun h => absurd (htop.1 ▸ h) nofun⟩
    · rw [if_neg htop]
      exact .inl ⟨b, r, rfl, hev, hP, hb, rfl, rfl, le_rfl, hdone, id⟩
  · refine .inr ⟨n, ?_, hn, hle⟩
    unfold pollWriteBufWith
    rw [hwr]
    simp [Nat.pos_iff_ne_zero.1 hn]

theorem Wf.setNeedFlush (hb : b.Wf) (v : Bool) : ({ b with needFlush := v } : LimitedCopyBuffer).Wf :=
  ⟨hb.w_le_r, hb.r_le_len, hb.r_le_cap, hb.cap_pos, hb.yield_pos⟩

/-- Resetting the cursors of a buffer whose bytes are all written keeps
    the bytes between them, and leaves room unless some are left. -/
theorem reset_spec (hb : b.Wf) {b₀ : LimitedCopyBuffer}
    (h : (if b.wOff = b.rOff then { b with wOff := 0, rOff := 0 } else b) = b₀) :
    b₀.Wf ∧ b₀.pending = b.pending ∧ b₀.readDone = b.readDone ∧ b₀.totalWrite = b.totalWrite ∧
      (b₀.capacity ≤ b₀.rOff → b₀.wOff < b₀.rOff) := by
  split_ifs at h with he
  · subst h
    have hnil : b.pending = [] := by
      have := length_pending hb
      rw [he, Nat.sub_self] at this
      exact List.eq_nil_of_length_eq_zero this
    refine ⟨⟨le_rfl, Nat.zero_le _, Nat.zero_le _, hb.cap_pos, hb.yield_pos⟩, by simp [hnil, pending_eq], rfl, rfl, ?_⟩
    have := hb.cap_pos
    intro hc
    simp at hc
    omega
  · subst h
    have := hb.w_le_r
    exact ⟨hb, rfl, rfl, rfl, fun _ => by omega⟩

end LimitedCopyBuffer

/-! ## The loop of `poll_copy` -/

namespace OwnedCopyRound

variable {read : ReadFn ρ} {P : ρ → Prop} {rest : ρ → List UInt8} {waits : ρ → Nat}

/-- A round of a copy from a reader satisfying `P` to a steady writer, part
    way through writing `D` after `pre`: the bytes written, those between the
    cursors and those the reader holds make the whole output. -/
structure CopyInv (P : ρ → Prop) (rest : ρ → List UInt8) (pre D : List UInt8) (s : OwnedCopyRound ρ) : Prop where
  written : s.writer.written ++ s.buf.pending ++ rest s.reader = pre ++ D
  total : s.writer.written.length = pre.length + s.buf.totalWrite
  buf : s.buf.Wf
  reader : P s.reader
  writer : s.writer.Steady
  done : s.buf.readDone = true → rest s.reader = []

/-- The work left: the bytes to write, the waits of both ends, and the end
    of the stream while it is still to be read. -/
def measure (rest : ρ → List UInt8) (waits : ρ → Nat) (s : OwnedCopyRound ρ) : Nat :=
  (s.buf.pending ++ rest s.reader).length + waits s.reader + s.writer.events.length +
    (if s.buf.readDone then 0 else 1)

variable {pre D : List UInt8} {s : OwnedCopyRound ρ}

theorem length_pending_le_measure (s : OwnedCopyRound ρ) : s.buf.pending.length ≤ measure rest waits s := by
  simp only [measure, List.length_append]
  omega

/-- `poll_flush` of a steady writer, then `k`: a wait that takes an answer,
    or `k` with the flush done. -/
theorem flushThen_steady (hw : s.writer.Steady) (k : OwnedCopyRound ρ → Option (Flow (OwnedCopyRound ρ) CopyPoll)) :
    (s.flushThen k = some (.exit .pending { s with writer := ⟨s.writer.written, s.writer.flushed,
      s.writer.events.tail⟩ }) ∧ s.writer.events ≠ []) ∨
    s.flushThen k = k { s with writer := ⟨s.writer.written, s.writer.written.length, s.writer.events.tail⟩ } := by
  rcases Sink.flush_steady hw with ⟨hf, hev⟩ | hf
  · exact .inl ⟨by simp [flushThen, hf], hev⟩
  · exact .inr (by simp [flushThen, hf])

/-- A round with a writer that has taken an answer and kept its bytes. -/
theorem CopyInv.tail (h : CopyInv P rest pre D s) (flushed : Nat) :
    CopyInv P rest pre D { s with writer := ⟨s.writer.written, flushed, s.writer.events.tail⟩ } :=
  ⟨h.written, h.total, h.buf, h.reader, h.writer.tail, h.done⟩

theorem measure_tail_le (s : OwnedCopyRound ρ) (flushed : Nat) :
    measure rest waits { s with writer := ⟨s.writer.written, flushed, s.writer.events.tail⟩ } ≤
      measure rest waits s := by
  simp only [measure, List.length_tail]
  omega

theorem measure_tail_lt (s : OwnedCopyRound ρ) (flushed : Nat) (hev : s.writer.events ≠ []) :
    measure rest waits { s with writer := ⟨s.writer.written, flushed, s.writer.events.tail⟩ } <
      measure rest waits s := by
  have := Sink.events_tail_lt hev
  simp only [measure]
  omega

/-- A round is in `CopyInv` when it writes what `s` wrote and holds what
    `s` held, in a buffer in use, with a reader satisfying `P` and a steady
    writer. -/
theorem CopyInv.congr (h : CopyInv P rest pre D s) {s' : OwnedCopyRound ρ}
    (hw : s'.writer.written = s.writer.written) (hst : s'.writer.Steady)
    (hp : s'.buf.pending ++ rest s'.reader = s.buf.pending ++ rest s.reader)
    (htw : s'.buf.totalWrite = s.buf.totalWrite) (hwf : s'.buf.Wf) (hP : P s'.reader)
    (hdone : s'.buf.readDone = true → rest s'.reader = []) : CopyInv P rest pre D s' := by
  refine ⟨?_, by rw [hw, htw, h.total], hwf, hP, hst, hdone⟩
  rw [hw, List.append_assoc, hp, ← List.append_assoc, h.written]

/-- How the read at the top of a pass can end from `s`: waiting, with the
    work left smaller, or going on with it no larger, and smaller unless
    there are bytes to write or the stream has ended. -/
def ReadOk (P : ρ → Prop) (rest : ρ → List UInt8) (waits : ρ → Nat) (pre D : List UInt8) (s : OwnedCopyRound ρ)
    (x : Option (Flow (OwnedCopyRound ρ) CopyPoll)) : Prop :=
  (∃ s', x = some (.exit .pending s') ∧ CopyInv P rest pre D s' ∧ measure rest waits s' < measure rest waits s ∧
    s'.copyThisRound = s.copyThisRound) ∨
  (∃ s', x = some (.next s') ∧ CopyInv P rest pre D s' ∧ measure rest waits s' ≤ measure rest waits s ∧
    s'.copyThisRound = s.copyThisRound ∧
    (measure rest waits s' < measure rest waits s ∨ s'.buf.wOff < s'.buf.rOff ∨ s'.buf.readDone = true))

/-- The read at the top of a pass of `poll_copy`. -/
theorem readStep_spec (hread : ReadsStream read P rest waits) (h : CopyInv P rest pre D s) :
    ReadOk P rest waits pre D s (readStep read s) := by
  unfold readStep
  cases hrd : s.buf.readDone
  · simp only [Bool.not_false, ↓reduceIte]
    generalize hb₀ : (if s.buf.wOff = s.buf.rOff then { s.buf with wOff := 0, rOff := 0 } else s.buf) = b₀
    obtain ⟨hwf₀, hp₀, hrd₀, htw₀, hroom₀⟩ := LimitedCopyBuffer.reset_spec h.buf hb₀
    by_cases hroom : b₀.rOff < b₀.capacity
    · rw [if_pos hroom]
      rcases LimitedCopyBuffer.pollFillBufWith_spec hread h.reader hwf₀ hroom (hrd₀.trans hrd) with
          ⟨r', hx, hP', hrest, hwt⟩ | ⟨b', r', hx, hP', hwf', htw', hrd', hp', hend, hend', hwt⟩ |
          ⟨b', r', d, hx, hP', hwf', htw', hrd', hd, hp', hrest, hwt⟩ <;> rw [hx] <;> dsimp only
      · -- a wait: nothing to write means a flush first
        have h₁ : CopyInv P rest pre D { s with buf := b₀, reader := r' } :=
          h.congr rfl h.writer (by simp [hp₀, hrest]) htw₀ hwf₀ hP' (fun h0 => absurd (hrd₀ ▸ h0) (by simp [hrd]))
        have hm₁ : measure rest waits { s with buf := b₀, reader := r' } < measure rest waits s := by
          simp only [measure, hp₀, hrest, hrd₀]
          omega
        split_ifs with hge hnf
        · rcases flushThen_steady (s := { s with buf := b₀, reader := r' }) h.writer
            (fun s => some (.exit .pending { s with buf := { s.buf with needFlush := false } })) with
            ⟨hf, -⟩ | hf <;> rw [hf]
          · exact .inl ⟨_, rfl, h₁.tail _, (measure_tail_le _ _).trans_lt hm₁, rfl⟩
          · exact .inl ⟨_, rfl, h₁.congr rfl h.writer.tail rfl rfl (hwf₀.setNeedFlush false) hP' h₁.done,
              (measure_tail_le _ _).trans_lt hm₁, rfl⟩
        · exact .inl ⟨_, rfl, h₁, hm₁, rfl⟩
        · exact .inr ⟨_, rfl, h₁, hm₁.le, rfl, .inl hm₁⟩
      · -- the end of the stream: the flag of the measure is spent
        refine .inr ⟨_, rfl, h.congr rfl h.writer (by simp [hp', hp₀, hend, hend']) (htw'.trans htw₀) hwf' hP'
          (fun _ => hend'), ?_, rfl, .inl ?_⟩ <;>
        · simp only [measure, hp', hp₀, hend, hend', hrd', hrd, List.append_nil, Bool.false_eq_true, ↓reduceIte]
          omega
      · -- the next bytes, now between the cursors
        have hlt : b'.wOff < b'.rOff := by
          have h1 := LimitedCopyBuffer.length_pending hwf'
          have h2 : 0 < d.length := List.length_pos_of_ne_nil hd
          rw [hp', List.length_append] at h1
          omega
        refine .inr ⟨_, rfl, h.congr rfl h.writer (by simp [hp', hp₀, hrest]) (htw'.trans htw₀) hwf' hP'
          (fun h0 => absurd (hrd' ▸ h0) nofun), ?_, rfl, .inr (.inl hlt)⟩
        simp only [measure, hp', hp₀, hrest, hrd', hrd, List.append_assoc]
        omega
    · -- no room: the bytes between the cursors are written first
      rw [if_neg hroom]
      refine .inr ⟨_, rfl, h.congr rfl h.writer (by simp [hp₀]) htw₀ hwf₀ h.reader
        (fun h0 => absurd (hrd₀ ▸ h0) (by simp [hrd])), ?_, rfl, .inr (.inl (hroom₀ (by omega)))⟩
      simp only [measure, hp₀, hrd₀, hrd]
      omega
  · simp only [Bool.not_true, Bool.false_eq_true, ↓reduceIte]
    exact .inr ⟨s, rfl, h, le_rfl, rfl, .inr (.inr hrd)⟩

/-- The flag of the measure for a stream still to be read. -/
theorem flag_le {a b : Bool} (h : b = true → a = true) : (if a then 0 else 1) ≤ (if b then 0 else 1) := by
  cases a <;> cases b <;> simp_all

/-- How the write loop can end from `s`: waiting, with the work left and
    the bytes of the round together smaller, or with every byte between the
    cursors written, the work left smaller by their number. -/
def WriteOk (P : ρ → Prop) (rest : ρ → List UInt8) (waits : ρ → Nat) (pre D : List UInt8) (s : OwnedCopyRound ρ)
    (x : Option (Flow (OwnedCopyRound ρ) CopyPoll)) : Prop :=
  (∃ s', x = some (.exit .pending s') ∧ CopyInv P rest pre D s' ∧
    measure rest waits s' + s'.copyThisRound < measure rest waits s + s.copyThisRound) ∨
  (∃ s', x = some (.next s') ∧ CopyInv P rest pre D s' ∧ s'.buf.rOff ≤ s'.buf.wOff ∧
    measure rest waits s' + s'.copyThisRound ≤ measure rest waits s + s.copyThisRound ∧
    measure rest waits s' + s.buf.pending.length ≤ measure rest waits s ∧ s'.buf.readDone = s.buf.readDone)

/-- The outcome from the round after a write of `n` bytes is one from the
    round before it. -/
theorem WriteOk.of_write {s₁ : OwnedCopyRound ρ} {x : Option (Flow (OwnedCopyRound ρ) CopyPoll)} {n : Nat}
    (h : WriteOk P rest waits pre D s₁ x) (hm : measure rest waits s₁ + n ≤ measure rest waits s)
    (hc : s₁.copyThisRound = s.copyThisRound + n) (hp : s₁.buf.pending.length + n = s.buf.pending.length)
    (hrd : s₁.buf.readDone = s.buf.readDone) : WriteOk P rest waits pre D s x := by
  rcases h with ⟨s', hx, h', hm'⟩ | ⟨s', hx, h', hw', hm', hp', hrd'⟩
  · exact .inl ⟨s', hx, h', by omega⟩
  · exact .inr ⟨s', hx, h', hw', by omega, by omega, hrd'.trans hrd⟩

/-- The write loop, with a round of fuel for each byte between the cursors
    and one more. -/
theorem writeLoop_spec (hread : ReadsStream read P rest waits) (h : CopyInv P rest pre D s)
    (hfuel : s.buf.pending.length < fuel) : WriteOk P rest waits pre D s (writeLoop read fuel s) := by
  induction fuel generalizing s with
  | zero => omega
  | succ fuel ih =>
    rw [writeLoop]
    by_cases hne : s.buf.wOff < s.buf.rOff
    · rw [if_pos hne]
      rcases LimitedCopyBuffer.pollWriteBufWith_spec hread h.reader h.buf h.writer hne h.done with
          ⟨b', r', hx, hev, hP', hwf', htw', hp', hwt, hdone', hrd'⟩ | ⟨n, hx, hn, hle⟩ <;> rw [hx] <;> dsimp only
      · -- the writer is not ready: an answer taken, and maybe a read
        refine .inl ⟨_, rfl, h.congr rfl h.writer.tail hp' htw' hwf' hP' hdone', ?_⟩
        have hlen := congrArg List.length hp'
        have := Sink.events_tail_lt hev
        have := flag_le hrd'
        simp only [measure, List.length_append] at hlen ⊢
        omega
      · -- `n` bytes written
        have hw : (s.writer.written ++ s.buf.pending.take n).length = s.writer.written.length + n := by
          simp [hle]
        refine WriteOk.of_write (ih ⟨?_, ?_, h.buf.write hle, h.reader, h.writer.tail, h.done⟩ ?_) ?_ rfl ?_ rfl
        · rw [LimitedCopyBuffer.pending_write, List.append_assoc s.writer.written, List.take_append_drop]
          exact h.written
        · rw [hw, h.total]
          simp only [Nat.add_assoc]
        · rw [LimitedCopyBuffer.pending_write, List.length_drop]
          omega
        · simp only [measure, LimitedCopyBuffer.pending_write, List.length_append, List.length_drop,
            List.length_tail]
          omega
        · rw [LimitedCopyBuffer.pending_write, List.length_drop]
          omega
    · -- nothing between the cursors
      rw [if_neg hne]
      have hnil : s.buf.pending.length = 0 := by
        rw [LimitedCopyBuffer.length_pending h.buf]
        omega
      exact .inr ⟨s, rfl, h, by omega, le_rfl, by omega, rfl⟩

/-- How the loop of `poll_copy` can end, for a bound `Φ` on the work left
    and the bytes of the round: waiting, with the work left below it, or with
    the whole output written and the stream at its end, returning the
    number of bytes of the copy, with the work left (the waits of both
    ends) within it. -/
def LoopOk (P : ρ → Prop) (rest : ρ → List UInt8) (waits : ρ → Nat) (pre D : List UInt8) (Φ : Nat)
    (x : Option (Flow (OwnedCopyRound ρ) CopyPoll)) : Prop :=
  (∃ s', x = some (.exit .pending s') ∧ CopyInv P rest pre D s' ∧ measure rest waits s' < Φ) ∨
  (∃ s', x = some (.exit (.ready (.ok D.length)) s') ∧ s'.writer.written = pre ++ D ∧ rest s'.reader = [] ∧
    s'.buf.readDone = true ∧ s'.buf.rOff = s'.buf.wOff ∧ s'.writer.Steady ∧ P s'.reader ∧
    measure rest waits s' ≤ Φ)

theorem LoopOk.mono {Φ Φ' : Nat} {x : Option (Flow (OwnedCopyRound ρ) CopyPoll)}
    (h : LoopOk P rest waits pre D Φ x) (hΦ : Φ ≤ Φ') : LoopOk P rest waits pre D Φ' x := by
  rcases h with ⟨s', hx, h', hm'⟩ | ⟨s', hx, hw', hr', hrd', heq', hst', hP', hm'⟩
  · exact .inl ⟨s', hx, h', by omega⟩
  · exact .inr ⟨s', hx, hw', hr', hrd', heq', hst', hP', by omega⟩

/-- An outcome of the loop is an exit, which no block after it changes. -/
theorem LoopOk.andThen {Φ : Nat} {x : Option (Flow (OwnedCopyRound ρ) CopyPoll)}
    (h : LoopOk P rest waits pre D Φ x) (k : OwnedCopyRound ρ → Option (Flow (OwnedCopyRound ρ) CopyPoll)) :
    LoopOk P rest waits pre D Φ (Flow.andThen x k) := by
  rcases h with ⟨s', rfl, h', hm'⟩ | ⟨s', rfl, hready⟩
  · exact .inl ⟨s', rfl, h', hm'⟩
  · exact .inr ⟨s', rfl, hready⟩

/-- A round with nothing between the cursors, at its end: it yields, after
    some bytes; it finishes, once the stream has ended; or it goes on, with
    the stream still to be read. -/
theorem finishStep_spec (h : CopyInv P rest pre D s) (hw : s.buf.rOff ≤ s.buf.wOff) :
    LoopOk P rest waits pre D (measure rest waits s + s.copyThisRound) (finishStep s) ∨
      (finishStep s = some (.next s) ∧ s.buf.readDone = false) := by
  have heq : s.buf.wOff = s.buf.rOff := le_antisymm h.buf.w_le_r hw
  have hnil : s.buf.pending = [] := by
    apply List.eq_nil_of_length_eq_zero
    rw [LimitedCopyBuffer.length_pending h.buf]
    omega
  unfold finishStep
  by_cases hy : s.copyThisRound ≥ s.buf.yieldSize
  · -- a yield, after at least one byte
    rw [if_pos hy]
    have := h.buf.yield_pos
    exact .inl (.inl ⟨s, rfl, h, by omega⟩)
  · rw [if_neg hy]
    cases hrd : s.buf.readDone
    · exact .inr ⟨by simp, rfl⟩
    · -- the end of the stream with every byte written
      have hout : s.writer.written = pre ++ D := by
        rw [← h.written, hnil, h.done hrd]
        simp
      have hlen : s.buf.totalWrite = D.length := by
        have := congrArg List.length hout
        rw [List.length_append, h.total] at this
        omega
      have hready : ∀ s' : OwnedCopyRound ρ, s'.writer.written = s.writer.written → s'.buf = s.buf →
          s'.reader = s.reader → s'.writer.Steady → measure rest waits s' ≤ measure rest waits s →
          LoopOk P rest waits pre D (measure rest waits s + s.copyThisRound)
            (some (.exit (.ready (.ok s'.buf.totalWrite)) s')) := by
        intro s' hw' hb' hr' hst' hm'
        refine .inr ⟨s', by rw [hb', hlen], by rw [hw', hout], by rw [hr', h.done hrd], by rw [hb', hrd], ?_, hst',
          hr' ▸ h.reader, by omega⟩
        rw [hb', heq]
      simp only [heq, and_self, ↓reduceIte]
      split_ifs
      · rcases flushThen_steady (s := s) h.writer (fun s => some (.exit (.ready (.ok s.buf.totalWrite)) s)) with
          ⟨hf, hev⟩ | hf <;> rw [hf]
        · have : measure rest waits { s with writer := ⟨s.writer.written, s.writer.flushed, s.writer.events.tail⟩ } <
              measure rest waits s := measure_tail_lt s s.writer.flushed hev
          exact .inl (.inl ⟨_, rfl, h.tail _, by omega⟩)
        · exact .inl (hready _ rfl rfl rfl h.writer.tail (measure_tail_le _ _))
      · exact .inl (hready s rfl rfl rfl h.writer le_rfl)

/-- The loop of `poll_copy`, with a round of fuel for each unit of the work
    left and two more.  Each pass that goes on makes the work left smaller:
    the read waits or ends the stream, or there are bytes to write. -/
theorem copyLoop_spec (hread : ReadsStream read P rest waits) (h : CopyInv P rest pre D s)
    (hfuel : measure rest waits s + 1 < fuel) :
    LoopOk P rest waits pre D (measure rest waits s + s.copyThisRound) (copyLoop read fuel s) := by
  induction fuel generalizing s with
  | zero => omega
  | succ fuel ih =>
    rw [copyLoop]
    rcases readStep_spec hread h with ⟨s₁, hx, h₁, hm₁, hc₁⟩ | ⟨s₁, hx, h₁, hm₁, hc₁, hprog⟩
    · rw [hx, Flow.andThen_exit, Flow.andThen_exit]
      exact .inl ⟨s₁, rfl, h₁, by omega⟩
    · rw [hx, Flow.andThen_next]
      have hp₁ : s₁.buf.pending.length ≤ measure rest waits s₁ := length_pending_le_measure s₁
      rcases writeLoop_spec hread h₁ (show s₁.buf.pending.length < fuel by omega) with
          ⟨s₂, hx₂, h₂, hm₂⟩ | ⟨s₂, hx₂, h₂, hw₂, hm₂, hp₂, hrd₂⟩
      · rw [hx₂, Flow.andThen_exit]
        exact .inl ⟨s₂, rfl, h₂, by omega⟩
      · rw [hx₂, Flow.andThen_next]
        rcases finishStep_spec h₂ hw₂ with hfin | ⟨hx₃, hrd₃⟩
        · exact (hfin.mono (by omega)).andThen _
        · -- the pass goes on: its work left is smaller
          rw [hx₃, Flow.andThen_next]
          have hlt : measure rest waits s₂ < measure rest waits s := by
            rcases hprog with hlt | hpos | hdone
            · omega
            · rw [LimitedCopyBuffer.length_pending h₁.buf] at hp₂
              omega
            · rw [hrd₂, hdone] at hrd₃
              exact absurd hrd₃ nofun
          exact (ih h₂ (by omega)).mono (by omega)

end OwnedCopyRound

/-! ## The future -/

namespace LimitedCopyConfig

/-- The sizes of a configuration its constructors build: a buffer and a
    yield size, both positive.  The fields are private to the source, so
    every configuration comes from `default` and the setters. -/
structure Valid (c : LimitedCopyConfig) : Prop where
  buffer_pos : 0 < c.bufferSize
  yield_pos : 0 < c.yieldSize

theorem default_valid : default.Valid := ⟨by decide, by decide⟩

theorem Valid.setBufferSize {c : LimitedCopyConfig} (h : c.Valid) (n : Nat) : (c.setBufferSize n).Valid :=
  ⟨by simp [LimitedCopyConfig.setBufferSize], h.yield_pos⟩

theorem Valid.setYieldSize {c : LimitedCopyConfig} (h : c.Valid) (n : Nat) : (c.setYieldSize n).Valid :=
  ⟨h.buffer_pos, by simp [LimitedCopyConfig.setYieldSize]⟩

end LimitedCopyConfig

namespace ROwnedLimitedCopy

open OwnedCopyRound

variable {read : ReadFn ρ} {P : ρ → Prop} {rest : ρ → List UInt8} {waits : ρ → Nat} {pre D : List UInt8}

/-- The round a poll of `c` starts, with no bytes copied in it yet. -/
def round (c : ROwnedLimitedCopy ρ) : OwnedCopyRound ρ := ⟨c.buf, c.reader, c.writer, 0⟩

/-- The work left of a round does not count its bytes. -/
theorem measure_round (s : OwnedCopyRound ρ) :
    measure rest waits (round ⟨s.reader, s.writer, s.buf⟩) = measure rest waits s := rfl

theorem finished_iff (c : ROwnedLimitedCopy ρ) : c.finished = true ↔ c.buf.readDone = true ∧ c.buf.rOff = c.buf.wOff := by
  simp [finished, noCachedData]

/-- A new copy of the stream of `r` to `w` is about to write it after what
    `w` holds. -/
theorem inv_new {r : ρ} {w : Sink} {config : LimitedCopyConfig} (hP : P r) (hw : w.Steady) (hcfg : config.Valid) :
    CopyInv P rest w.written (rest r) (new r w config).round :=
  ⟨by simp [new, round, LimitedCopyBuffer.new, LimitedCopyBuffer.pending], by simp [new, round, LimitedCopyBuffer.new],
    ⟨le_rfl, Nat.zero_le _, Nat.zero_le _, hcfg.buffer_pos, hcfg.yield_pos⟩, hP, hw, nofun⟩

theorem measure_new (r : ρ) (w : Sink) (config : LimitedCopyConfig) :
    measure rest waits (new r w config).round = (rest r).length + waits r + w.events.length + 1 := by
  simp [OwnedCopyRound.measure, new, round, LimitedCopyBuffer.new, LimitedCopyBuffer.pending]

/-- A poll of a copy, with a round of fuel for each unit of the work left
    and two more: it waits, with the work left smaller, or it has written
    the whole output and returns its length, at the end of the stream. -/
theorem poll_spec (hread : ReadsStream read P rest waits) {c : ROwnedLimitedCopy ρ} {fuel : Nat}
    (h : CopyInv P rest pre D c.round) (hfuel : measure rest waits c.round + 1 < fuel) :
    (∃ c', c.poll read fuel = some (.pending, c') ∧ CopyInv P rest pre D c'.round ∧
      measure rest waits c'.round < measure rest waits c.round) ∨
    (∃ c', c.poll read fuel = some (.ready (.ok D.length), c') ∧ c'.writer.written = pre ++ D ∧
      rest c'.reader = [] ∧ c'.finished = true ∧ c'.writer.Steady ∧ P c'.reader ∧
      measure rest waits c'.round ≤ measure rest waits c.round) := by
  unfold poll
  rw [show (⟨c.buf, c.reader, c.writer, 0⟩ : OwnedCopyRound ρ) = c.round from rfl]
  rcases copyLoop_spec hread h hfuel with ⟨s', hx, h', hm'⟩ | ⟨s', hx, hw', hr', hrd', heq', hst', hP', hm'⟩ <;>
    rw [hx]
  · -- the round's own count of bytes is not part of the invariant
    exact .inl ⟨_, rfl, ⟨h'.written, h'.total, h'.buf, h'.reader, h'.writer, h'.done⟩, hm'⟩
  · exact .inr ⟨_, rfl, hw', hr', (finished_iff _).2 ⟨hrd', heq'⟩, hst', hP',
      by rw [measure_round]; exact hm'⟩

end ROwnedLimitedCopy

namespace LimitedCopy

open OwnedCopyRound

/-- Polls of a copy from a segmented reader to a steady writer, more of
    them than the work left and each with two more rounds of fuel: the copy
    completes, having written the whole output, and returns its length.  By
    induction on the polls, each of which waits with the work left smaller
    or completes. -/
theorem run_spec {c : LimitedCopy} {pre D : List UInt8} {fuel polls : Nat}
    (h : CopyInv Source.Segmented Source.rest pre D (ROwnedLimitedCopy.round ⟨c.reader, c.writer, c.buf⟩))
    (hfuel : measure Source.rest (fun r => r.events.length) (ROwnedLimitedCopy.round ⟨c.reader, c.writer, c.buf⟩) + 1 <
      fuel)
    (hpolls : measure Source.rest (fun r => r.events.length) (ROwnedLimitedCopy.round ⟨c.reader, c.writer, c.buf⟩) <
      polls) :
    ∃ c', c.run fuel polls = some (.ready (.ok D.length), c') ∧ c'.writer.written = pre ++ D ∧
      c'.reader.rest = [] ∧ c'.finished = true := by
  induction polls generalizing c with
  | zero => omega
  | succ polls ih =>
    have hsrc := ROwnedLimitedCopy.poll_source fuel c
    rw [run]
    rcases ROwnedLimitedCopy.poll_spec Source.readsStream h hfuel with ⟨c', hx, h', hm'⟩ |
        ⟨c', hx, hw', hr', hfin', -⟩ <;> rw [hx] at hsrc <;>
      obtain ⟨⟨res, c₁⟩, hp, he⟩ := Option.map_eq_some_iff.1 hsrc.symm <;>
      simp only [Prod.mk.injEq] at he <;> obtain ⟨rfl, rfl⟩ := he <;> rw [hp]
    · -- a wait: the polls after it, with less work left
      exact ih h' (by omega) (by omega)
    · have hfin := (ROwnedLimitedCopy.finished_iff _).1 hfin'
      exact ⟨c₁, rfl, hw', hr', by simpa only [finished, Bool.and_eq_true, decide_eq_true_eq] using hfin⟩

/-- `LimitedCopy` copies the whole stream of a segmented reader to a steady
    writer, given a configuration its constructors build: polled more times
    than there are bytes and answers of both ends and one more, with fuel for
    each, it
    completes with every byte of the stream written after what the writer
    held, returns their number, and leaves the reader at its end. -/
theorem run_copies {r : Source} {w : Sink} {config : LimitedCopyConfig} (hr : r.Segmented) (hw : w.Steady)
    (hcfg : config.Valid) {fuel polls : Nat} (hfuel : r.rest.length + r.events.length + w.events.length + 2 < fuel)
    (hpolls : r.rest.length + r.events.length + w.events.length + 1 < polls) :
    ∃ c', (new r w config).run fuel polls = some (.ready (.ok r.rest.length), c') ∧
      c'.writer.written = w.written ++ r.rest ∧ c'.reader.rest = [] ∧ c'.finished = true := by
  -- the copy starts over its `Source` as `ROwnedLimitedCopy.new` does
  have hm : measure Source.rest (fun r => r.events.length)
      (ROwnedLimitedCopy.round ⟨(new r w config).reader, (new r w config).writer, (new r w config).buf⟩) =
      r.rest.length + r.events.length + w.events.length + 1 :=
    ROwnedLimitedCopy.measure_new r w config
  refine run_spec (ROwnedLimitedCopy.inv_new hr hw hcfg) ?_ ?_
  · rw [hm]
    omega
  · rw [hm]
    omega

/-- A stream of three bytes in two answers, copied with the default
    configuration to a writer that waits once and then takes a byte. -/
theorem run_copies_split :
    ∃ c', (new (.ofSegments [[1, 2], [3]]) (.open_ [.pending, .accept 1]) .default).run 20 20 =
        some (.ready (.ok (Source.ofSegments [[1, 2], [3]]).rest.length), c') ∧
      c'.writer.written = (Sink.open_ [.pending, .accept 1]).written ++ (Source.ofSegments [[1, 2], [3]]).rest ∧
      c'.reader.rest = [] ∧ c'.finished = true :=
  run_copies (by simp [Source.Segmented, Source.ofSegments]) (by simp [Sink.Steady, Sink.open_])
    LimitedCopyConfig.default_valid (by decide) (by decide)

end LimitedCopy

end G3Proxy
