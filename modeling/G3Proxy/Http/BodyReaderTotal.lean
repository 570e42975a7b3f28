/-
  The chunked `HttpBodyReader` never panics: from every state a chunked
  reader reaches, `poll_read` returns (`readAll_total`), whatever the stream
  answers and however small the caller's buffers.

  The model's `none` stands for the source's `unreachable!`, an index out
  of range or a loop that does not end.  Each state poll is total on the
  next read types a chunked reader is in (`Handled`) and only moves to
  such types; the loop of `poll_chunked` fills at least one byte a round
  or returns, so `space + 1` rounds are enough.
-/
import G3Proxy.Http.BodyReader

namespace G3Proxy

open AsyncIo

namespace HttpBodyReader

/-- The next read types `poll_chunked` handles: not `UntilEnd`, and the end
    of chunk data expects a `CR` or an `LF`. -/
def Handled : NextReadType → Prop
  | .untilEnd => False
  | .chunkDataEnd c => c = 13 ∨ c = 10
  | _ => True

/-- A reader of a chunked body in a state `poll_chunked` handles. -/
structure ChunkedState (r : HttpBodyReader) : Prop where
  chunked : r.bodyType = .chunked
  handled : Handled r.nextReadType

/-- The bytes a state poll looks at are not empty when the window and the
    caller's room are not. -/
theorem view_ne_nil {w : List UInt8} {space : Nat} (hw : w.isEmpty = false) (hspace : 0 < space) :
    (if space < w.length then w.take space else w) ≠ [] := by
  have hne : w ≠ [] := by simpa using hw
  split_ifs
  · simp [hne]
    omega
  · exact hne

section Chunked

variable (libs : ByteLibs)
variable {r : HttpBodyReader} {space : Nat}

/-- What every state poll keeps: the body type, and a next read type it
    handles. -/
def Keeps (r r' : HttpBodyReader) : Prop := r'.bodyType = r.bodyType ∧ Handled r'.nextReadType

theorem parseChunkSizeAndUpdateNextReadType_keeps {r' : HttpBodyReader}
    (h : parseChunkSizeAndUpdateNextReadType libs r = .ok r') : Keeps r r' := by
  unfold parseChunkSizeAndUpdateNextReadType at h
  split at h
  · cases h
  · simp only [Except.ok.injEq] at h
    subst h
    split_ifs <;> simp [Keeps, Handled]

theorem checkChunkSizeLastChar_keeps {c : UInt8} {r' : HttpBodyReader}
    (h : checkChunkSizeLastChar libs r c = .ok r') : Keeps r r' := by
  unfold checkChunkSizeLastChar at h
  split_ifs at h
  have hk := parseChunkSizeAndUpdateNextReadType_keeps libs h
  exact hk

theorem checkTrailerHeaderLastChar_keeps {c : UInt8} {r' : HttpBodyReader}
    (h : checkTrailerHeaderLastChar r c = .ok r') : Keeps r r' := by
  unfold checkTrailerHeaderLastChar updateNextReadTypeAfterTrailerHeader at h
  split_ifs at h <;> cases h <;> simp [Keeps, Handled]

variable {libs}

/-- `poll_chunk_size` returns, and moves to a handled state. -/
theorem pollChunkSize_total (hspace : 0 < space) (ht : Handled r.nextReadType) :
    ∃ res, pollChunkSize libs r space = some res ∧ Keeps r res.2.2 := by
  unfold pollChunkSize
  rcases r.stream.fillBuf with ⟨⟨e | cache⟩ | _, s⟩
  · exact ⟨_, rfl, rfl, ht⟩
  · by_cases hc : cache.isEmpty
    · simp only [hc, if_true]
      exact ⟨_, rfl, rfl, ht⟩
    · have hv := view_ne_nil (Bool.eq_false_iff.2 hc) hspace
      simp only [hc, Bool.false_eq_true, if_false]
      generalize (if space < cache.length then cache.take space else cache) = v at hv ⊢
      split
      · -- the `LF` after a `CR` buffered by the previous poll
        obtain ⟨b, t, rfl⟩ := List.exists_cons_of_ne_nil hv
        dsimp only
        split
        · exact ⟨_, rfl, rfl, ht⟩
        · rename_i hcheck
          have hk := checkChunkSizeLastChar_keeps libs hcheck
          exact ⟨_, rfl, hk⟩
      · split
        · split
          · exact ⟨_, rfl, rfl, ht⟩
          · split
            · split
              · exact ⟨_, rfl, rfl, ht⟩
              · rename_i hcheck
                have hk := checkChunkSizeLastChar_keeps libs hcheck
                exact ⟨_, rfl, hk⟩
            · exact ⟨_, rfl, rfl, ht⟩
        · split
          · exact ⟨_, rfl, rfl, ht⟩
          · exact ⟨_, rfl, rfl, ht⟩
  · exact ⟨_, rfl, rfl, ht⟩

/-- `poll_chunk_data_end` returns for a `CR` or an `LF`, and moves to a
    handled state. -/
theorem pollChunkDataEnd_total {c : UInt8} (hspace : 0 < space) (hc : c = 13 ∨ c = 10)
    (ht : Handled r.nextReadType) :
    ∃ res, pollChunkDataEnd r space c = some res ∧ Keeps r res.2.2 := by
  unfold pollChunkDataEnd
  rcases r.stream.fillBuf with ⟨⟨e | cache⟩ | _, s⟩
  · exact ⟨_, rfl, rfl, ht⟩
  · by_cases hce : cache.isEmpty
    · simp only [hce, if_true]
      exact ⟨_, rfl, rfl, ht⟩
    · have hv := view_ne_nil (Bool.eq_false_iff.2 hce) hspace
      simp only [hce, Bool.false_eq_true, if_false]
      generalize (if space < cache.length then cache.take space else cache) = v at hv ⊢
      obtain ⟨b, t, rfl⟩ := List.exists_cons_of_ne_nil hv
      dsimp only
      split_ifs with hb h13 h10
      · exact ⟨_, rfl, rfl, ht⟩
      · -- the `CR`, and the `LF` when in view
        split
        · split
          · exact ⟨_, rfl, rfl, ht⟩
          · rename_i hcheck
            unfold checkChunkDataEndLastChar at hcheck
            split_ifs at hcheck
            cases hcheck
            exact ⟨_, rfl, rfl, trivial⟩
        · exact ⟨_, rfl, rfl, .inr rfl⟩
      · exact ⟨_, rfl, rfl, trivial⟩
      · exact absurd hc (by simp [h13, h10])
  · exact ⟨_, rfl, rfl, ht⟩

/-- `poll_trailer` returns, and moves to a handled state. -/
theorem pollTrailer_total (hspace : 0 < space) (ht : Handled r.nextReadType) :
    ∃ res, pollTrailer r space = some res ∧ Keeps r res.2.2 := by
  unfold pollTrailer
  rcases r.stream.fillBuf with ⟨⟨e | cache⟩ | _, s⟩
  · exact ⟨_, rfl, rfl, ht⟩
  · by_cases hc : cache.isEmpty
    · simp only [hc, if_true]
      exact ⟨_, rfl, rfl, ht⟩
    · have hv := view_ne_nil (Bool.eq_false_iff.2 hc) hspace
      simp only [hc, Bool.false_eq_true, if_false]
      generalize (if space < cache.length then cache.take space else cache) = v at hv ⊢
      split
      · -- the `LF` after a `CR` buffered by the previous poll
        obtain ⟨b, t, rfl⟩ := List.exists_cons_of_ne_nil hv
        dsimp only
        split
        · exact ⟨_, rfl, rfl, ht⟩
        · rename_i hcheck
          have hk := checkTrailerHeaderLastChar_keeps hcheck
          exact ⟨_, rfl, hk⟩
      · split
        · split
          · exact ⟨_, rfl, rfl, ht⟩
          · split
            · split
              · exact ⟨_, rfl, rfl, ht⟩
              · rename_i hcheck
                have hk := checkTrailerHeaderLastChar_keeps hcheck
                exact ⟨_, rfl, hk⟩
            · exact ⟨_, rfl, rfl, ht⟩
        · split
          · exact ⟨_, rfl, rfl, ht⟩
          · obtain ⟨last, hlast⟩ := Option.isSome_iff_exists.1 (List.getLast?_isSome.2 hv)
            rw [hlast]
            exact ⟨_, rfl, rfl, ht⟩
  · exact ⟨_, rfl, rfl, ht⟩

/-- `poll_fixed` returns for a body that is not read to its end, and moves
    to a handled state. -/
theorem pollFixed_total (hbt : r.bodyType ≠ .readUntilEnd) (ht : Handled r.nextReadType) :
    ∃ res, pollFixed r space = some res ∧ Keeps r res.2.2 := by
  unfold pollFixed
  rcases r.stream.read (min space r.nextReadSize) with ⟨⟨e | d⟩ | _, s⟩
  · exact ⟨_, rfl, rfl, ht⟩
  · dsimp only
    split
    · exact ⟨_, rfl, rfl, ht⟩
    · split
      · -- the end of the slice: the next slice, or the end of the body or chunk
        generalize hX : updateNextReadSize _ = X
        have hXb : X.bodyType = r.bodyType := by rw [← hX, updateNextReadSize_bodyType]
        have hXt : X.nextReadType = r.nextReadType := by rw [← hX, updateNextReadSize_nextReadType]
        split
        · split
          · exact ⟨_, rfl, hXb, trivial⟩
          · exact ⟨_, rfl, hXb, .inl rfl⟩
          · rename_i hu
            exact absurd (hXb ▸ hu) hbt
        · exact ⟨_, rfl, hXb, hXt ▸ ht⟩
      · exact ⟨_, rfl, rfl, ht⟩
  · exact ⟨_, rfl, rfl, ht⟩

/-- The state poll of a chunked reader short of the end returns, and
    the reader stays in a state `poll_chunked` handles. -/
theorem pollState_total (h : ChunkedState r) (hspace : 0 < space) (he : r.nextReadType ≠ .endOfFile) :
    ∃ res, pollState libs r space = some res ∧ ChunkedState res.2.2 := by
  have hkeep : ∀ {res : StatePoll}, Keeps r res.2.2 → ChunkedState res.2.2 :=
    fun ⟨hb, ht⟩ => ⟨hb.trans h.chunked, ht⟩
  have ht := h.handled
  unfold pollState
  cases hrt : r.nextReadType with
  | endOfFile => exact absurd hrt he
  | untilEnd => rw [hrt] at ht; exact ht.elim
  | chunkSize =>
    obtain ⟨res, hres, hk⟩ := pollChunkSize_total hspace ht
    exact ⟨res, hres, hkeep hk⟩
  | fixedLength =>
    obtain ⟨⟨p, d, r'⟩, hres, hk⟩ : ∃ res, pollFixed r space = some res ∧ Keeps r res.2.2 :=
      pollFixed_total (by simp [h.chunked]) ht
    rw [hres]
    rcases p with ⟨e | ⟨⟩⟩ | _ <;> exact ⟨_, rfl, hkeep hk⟩
  | chunkDataEnd c =>
    rw [hrt] at ht
    obtain ⟨res, hres, hk⟩ := pollChunkDataEnd_total hspace ht h.handled
    exact ⟨res, hres, hkeep hk⟩
  | trailer =>
    obtain ⟨res, hres, hk⟩ := pollTrailer_total hspace ht
    exact ⟨res, hres, hkeep hk⟩

/-- The loop of `poll_chunked` returns when it has a round of fuel for
    every byte of room left, and one more. -/
theorem pollChunkedLoop_total {expectLen fuel offset : Nat} {out : List UInt8} (h : ChunkedState r)
    (hfuel : expectLen - offset < fuel) :
    ∃ res, pollChunkedLoop libs expectLen fuel offset out r = some res ∧ ChunkedState res.2.2 := by
  -- induction on the fuel: a round that does not return fills a byte
  induction fuel generalizing offset out r with
  | zero => omega
  | succ fuel ih =>
    unfold pollChunkedLoop
    split
    · exact ⟨_, rfl, h⟩
    split
    · exact ⟨_, rfl, h.chunked, h.handled⟩
    · rename_i hu
      have hh := h.handled
      rw [hu] at hh
      exact hh.elim
    · rename_i he _
      obtain ⟨⟨p, d, r₁⟩, hres, h₁⟩ := pollState_total h (by omega : 0 < expectLen - offset) he
      rw [hres]
      rcases p with ⟨e | _ | n⟩ | _
      · exact ⟨_, rfl, h₁⟩
      · exact ⟨_, rfl, h₁⟩
      · exact ih h₁ (by omega)
      · dsimp only
        split <;> exact ⟨_, rfl, h₁⟩

/-- `poll_read` of a chunked reader returns. -/
theorem pollRead_total (h : ChunkedState r) :
    ∃ res, pollRead libs r space = some res ∧ ChunkedState res.2.2 := by
  simp only [pollRead, h.chunked, pollChunked]
  exact pollChunkedLoop_total h (by omega)

/-- A caller reading a chunked reader with any buffers gets an answer: the
    reader never panics. -/
theorem readAll_total {spaces : List Nat} (h : ChunkedState r) : ∃ res, readAll libs spaces r = some res := by
  induction spaces generalizing r with
  | nil => exact ⟨_, rfl⟩
  | cons space spaces ih =>
    obtain ⟨⟨p, out, r₁⟩, hres, h₁⟩ : ∃ res, pollRead libs r space = some res ∧ ChunkedState res.2.2 :=
      pollRead_total h
    rw [readAll, hres]
    rcases p with ⟨e | ⟨⟩⟩ | _
    · exact ⟨_, rfl⟩
    · dsimp only
      split_ifs
      · exact ⟨_, rfl⟩
      · obtain ⟨res, hres'⟩ := ih h₁
        exact ⟨_, by rw [hres']; rfl⟩
    · exact ih h₁

theorem newChunked_chunkedState (stream : Source) (bodyLineMaxLen : Nat) :
    ChunkedState (newChunked stream bodyLineMaxLen) :=
  ⟨rfl, trivial⟩

end Chunked

end HttpBodyReader

end G3Proxy
