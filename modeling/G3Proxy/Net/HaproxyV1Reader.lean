/-
  The PROXY protocol version 1 reader on its stream (g3-io-ext
  `haproxy/v1.rs`): `peek_line` peeks at the stream, reads up to the first
  line feed, and checks the magic `PROXY ` after each read that ends before
  the line does; `read_proxy_protocol_v1_for_tcp` hands the line to
  `parse_buf`.

  The stream is a `Source`: a peek is a fill of the window, at most 108
  bytes of it, and the read after it takes bytes of that window.  The
  timeout around `peek_line` is left out; the loop is given fuel.

  * `peekLineLoop_first_line`: whatever the stream holds, the reader
    consumes nothing past the first line feed and at most 108 bytes, and a
    line it returns is the stream's first line.
  * `readProxyProtocolV1ForTcp_encodeTcp`: the line `encode_tcp` writes,
    however the stream splits it, is read back as the two addresses as
    carried, and the stream is left at the byte after it.
  * A line that arrives in one read is never checked for the magic: the
    answer is `parse_buf`'s on it (`readProxyProtocolV1ForTcp_one_read`),
    the same whatever its first six bytes, and a line shorter than six bytes
    panics in the slice `data[6..]` of `parse_buf`.
-/
import G3Proxy.Net.HaproxyRoundTrip
import G3Proxy.Io.Stream

namespace G3Proxy

open AsyncIo Bytes

namespace ProxyProtocolV1Reader

/-- `stream.peek(&mut buf)` with the 108 bytes of `buf`: the window, at most
    that much of it, nothing consumed. -/
def peek (s : Source) : Poll (Except IoError (List UInt8)) × Source :=
  match s.fillBuf with
  | (.ready (.ok d), s) => (.ready (.ok (d.take proxyDataV1MaxLen)), s)
  | r => r

/-- `stream.read(&mut self.data_buf[offset..offset + len]).await`, polled
    again while not ready; `assert_eq!(nr, len)` panics when fewer bytes
    come. -/
def readExactly : Nat → Nat → Source → Option (Except ProxyProtocolReadError (List UInt8) × Source)
  | 0, _, _ => none
  | fuel + 1, len, s =>
    match s.read len with
    | (.pending, s) => readExactly fuel len s
    | (.ready (.error _), s) => some (.error .readFailed, s)
    | (.ready (.ok d), s) => if d.length = len then some (.ok d, s) else none

/-- The magic check of `peek_line` on the bytes read so far: their first six
    are `PROXY `, or as many of them as there are. -/
def magicOk (dataBuf : List UInt8) : Bool :=
  if dataBuf.length ≥ commonData.length then dataBuf.take commonData.length == commonData
  else dataBuf == commonData.take dataBuf.length

/-- The loop of `peek_line`: `dataBuf` holds the bytes read so far, its
    length the `offset`. -/
def peekLineLoop : Nat → List UInt8 → Source → Option (Except ProxyProtocolReadError (List UInt8) × Source)
  | 0, _, _ => none
  | fuel + 1, dataBuf, s =>
    match peek s with
    | (.pending, s) => peekLineLoop fuel dataBuf s
    | (.ready (.error _), s) => some (.error .readFailed, s)
    | (.ready (.ok buf), s) =>
      if buf.length = 0 then some (.error .closedUnexpected, s)
      else
        match buf.idxOf? 10 with
        | some p =>
          if dataBuf.length + p ≥ proxyDataV1MaxLen then
            some (.error (.invalidDataLength (dataBuf.length + p)), s)
          else
            match readExactly fuel (p + 1) s with
            | some (.ok d, s) => some (.ok (dataBuf ++ d), s)
            | r => r
        | none =>
          if dataBuf.length + buf.length ≥ proxyDataV1MaxLen then
            some (.error (.invalidDataLength (dataBuf.length + buf.length)), s)
          else
            match readExactly fuel buf.length s with
            | some (.ok d, s) =>
              -- the magic is checked only here, after a read that ends before the line does
              if magicOk (dataBuf ++ d) then peekLineLoop fuel (dataBuf ++ d) s
              else some (.error .invalidMagicHeader, s)
            | r => r

/-- `read_proxy_protocol_v1_for_tcp`: the line `peek_line` read, parsed by
    `parse_buf`. -/
def readProxyProtocolV1ForTcp (txt : IpText) (fuel : Nat) (s : Source) :
    Option (Except ProxyProtocolReadError (Option ProxyAddr) × Source) :=
  match peekLineLoop fuel [] s with
  | some (.ok line, s) => (parseBuf txt line).run.map (·, s)
  | some (.error e, s) => some (.error e, s)
  | none => none

/-! ## One peek and one read -/

theorem peek_of_fillBuf_ok {s s' : Source} {d : List UInt8} (h : s.fillBuf = (.ready (.ok d), s')) :
    peek s = (.ready (.ok (d.take proxyDataV1MaxLen)), s') := by
  simp [peek, h]

theorem peek_of_fillBuf_pending {s s' : Source} (h : s.fillBuf = (.pending, s')) :
    peek s = (.pending, s') := by
  simp [peek, h]

/-- A peek consumes nothing, and a window it shows is the reader's window cut
    to 108 bytes. -/
theorem peek_cases (s : Source) :
    (∃ s', peek s = (.pending, s') ∧ s'.rest = s.rest ∧ s'.events.length < s.events.length) ∨
    (∃ e s', peek s = (.ready (.error e), s') ∧ s'.rest = s.rest) ∨
    (∃ s', peek s = (.ready (.ok (s'.buf.take proxyDataV1MaxLen)), s') ∧ s'.rest = s.rest ∧
      s'.events.length ≤ s.events.length) := by
  rcases Source.fillBuf_cases s with ⟨-, h⟩ | ⟨-, -, h⟩ | ⟨d, es, -, hev, h⟩ | ⟨es, -, hev, h⟩ |
      ⟨e, es, -, hev, h⟩
  · exact .inr (.inr ⟨s, peek_of_fillBuf_ok h, rfl, le_rfl⟩)
  · exact .inr (.inr ⟨s, by rw [peek_of_fillBuf_ok h, Source.fillBuf_ok_buf h], rfl, le_rfl⟩)
  · refine .inr (.inr ⟨⟨d, es⟩, peek_of_fillBuf_ok h, by rw [← Source.rest_fillBuf s, h], ?_⟩)
    simp [hev]
  · refine .inl ⟨⟨[], es⟩, peek_of_fillBuf_pending h, by rw [← Source.rest_fillBuf s, h], ?_⟩
    simp [hev]
  · exact .inr (.inl ⟨e, ⟨[], es⟩, by simp [peek, h], by rw [← Source.rest_fillBuf s, h]⟩)

/-- A read of bytes the window already holds returns them at once. -/
theorem readExactly_of_buf {s : Source} {n : Nat} (fuel : Nat) (hb : s.buf ≠ []) (hn : n ≤ s.buf.length) :
    readExactly (fuel + 1) n s = some (.ok (s.buf.take n), s.consume n) := by
  simp [readExactly, Source.read, Source.fillBuf_of_buf_ne_nil hb, hn]

/-- The bytes of a read of the window are the stream's next ones. -/
theorem rest_eq_take_append_consume (s : Source) {n : Nat} (hn : n ≤ s.buf.length) :
    s.rest = s.buf.take n ++ (s.consume n).rest := by
  have htake : s.rest.take n = s.buf.take n := List.take_append_of_le_length hn
  rw [Source.rest_consume _ _ hn, ← htake, List.take_append_drop]

/-! ## The reader reads the first line -/

/-- The lines of the bytes consumed so far: none ends before the last byte. -/
theorem not_mem_dropLast_append {a : UInt8} {v c : List UInt8} (hv : a ∉ v) (hc : a ∉ c.dropLast) :
    a ∉ (v ++ c).dropLast := by
  rcases List.eq_nil_or_concat c with rfl | ⟨c', b, rfl⟩
  · simpa using fun h => hv (List.dropLast_subset _ h)
  · simp only [List.concat_eq_append, ← List.append_assoc, List.dropLast_concat] at hc ⊢
    simpa [hv] using hc

/-- A window with no line feed in its first 108 bytes: a read of them takes
    them all. -/
theorem take_window_length (s : Source) :
    s.buf.take (s.buf.take proxyDataV1MaxLen).length = s.buf.take proxyDataV1MaxLen :=
  (List.prefix_iff_eq_take.1 (List.take_prefix _ _)).symm

/-- A window whose first line feed is at `p`: the bytes up to it are a line
    with no other line feed. -/
theorem take_succ_of_idxOf? {buf : List UInt8} {p : Nat} (h : buf.idxOf? 10 = some p) :
    buf.take (p + 1) = buf.take p ++ [10] ∧ 10 ∉ buf.take p := by
  obtain ⟨hp, hlf, -⟩ := List.idxOf?_eq_some_iff.1 h
  refine ⟨by rw [List.take_add_one, List.getElem?_eq_getElem hp, hlf]; rfl, ?_⟩
  exact (List.eq_of_idxOf?_eq_some h).2

/-- What a run of `peek_line` did, from the bytes `dataBuf` read before and the
    stream `s` to the answer `res` and the stream `s'`: it consumed `c`, with no
    line feed before its last byte and at most 108 bytes together with
    `dataBuf`, and a line it returns is `dataBuf ++ c`, ending at a line feed. -/
def ReadsFirstLine (dataBuf : List UInt8) (s : Source) (res : Except ProxyProtocolReadError (List UInt8))
    (s' : Source) : Prop :=
  ∃ c, s.rest = c ++ s'.rest ∧ dataBuf.length + c.length ≤ proxyDataV1MaxLen ∧
    10 ∉ c.dropLast ∧ ∀ line, res = .ok line → line = dataBuf ++ c ∧ c.getLast? = some 10

namespace ReadsFirstLine

variable {dataBuf : List UInt8} {s s₁ s' : Source} {res : Except ProxyProtocolReadError (List UInt8)}

/-- An error after some bytes before the line feed. -/
theorem error {v : List UInt8} (e : ProxyProtocolReadError) (hrest : s.rest = v ++ s'.rest) (hv : 10 ∉ v)
    (hlen : dataBuf.length + v.length ≤ proxyDataV1MaxLen) : ReadsFirstLine dataBuf s (.error e) s' :=
  ⟨v, hrest, hlen, fun h => hv (List.dropLast_subset _ h), by simp⟩

/-- An error that consumed nothing. -/
theorem error_nil (e : ProxyProtocolReadError) (hd : dataBuf.length < proxyDataV1MaxLen)
    (hrest : s'.rest = s.rest) : ReadsFirstLine dataBuf s (.error e) s' :=
  error (v := []) e (by simp [hrest]) List.not_mem_nil (by simp; omega)

/-- A wait that consumed nothing. -/
theorem of_rest_eq (h : ReadsFirstLine dataBuf s₁ res s') (hrest : s₁.rest = s.rest) :
    ReadsFirstLine dataBuf s res s' := by
  obtain ⟨c, hc, hrun⟩ := h
  exact ⟨c, hrest ▸ hc, hrun⟩

/-- The read up to the line feed ends the line. -/
theorem line {w : List UInt8} (hrest : s.rest = (w ++ [10]) ++ s'.rest) (hw : 10 ∉ w)
    (hlen : dataBuf.length + (w ++ [10]).length ≤ proxyDataV1MaxLen) :
    ReadsFirstLine dataBuf s (.ok (dataBuf ++ (w ++ [10]))) s' :=
  ⟨w ++ [10], hrest, hlen, by rwa [List.dropLast_concat], fun _ hl => ⟨(Except.ok.inj hl).symm, by simp⟩⟩

/-- A read before the line feed, and the rest of the run after it. -/
theorem append {v : List UInt8} (hrest : s.rest = v ++ s₁.rest) (hv : 10 ∉ v)
    (h : ReadsFirstLine (dataBuf ++ v) s₁ res s') : ReadsFirstLine dataBuf s res s' := by
  obtain ⟨c, hc, hlen, hlf, hl⟩ := h
  refine ⟨v ++ c, by rw [hrest, hc, List.append_assoc], by simp at hlen ⊢; omega,
    not_mem_dropLast_append hv hlf, fun line h' => ?_⟩
  obtain ⟨rfl, hlast⟩ := hl line h'
  refine ⟨by simp, ?_⟩
  rw [List.getLast?_append, hlast]
  rfl

end ReadsFirstLine

/-- Whatever the stream holds, `peek_line` consumes nothing past the first
    line feed and at most 108 bytes (with the `dataBuf` it read before), and a
    line it returns is `dataBuf` and the stream up to that line feed.  The
    recursion is on the fuel, one turn of the loop a step. -/
theorem peekLineLoop_first_line :
    ∀ {fuel dataBuf s res s'}, dataBuf.length < proxyDataV1MaxLen →
      peekLineLoop fuel dataBuf s = some (res, s') →
      ∃ c, s.rest = c ++ s'.rest ∧ dataBuf.length + c.length ≤ proxyDataV1MaxLen ∧
        10 ∉ c.dropLast ∧ ∀ line, res = .ok line → line = dataBuf ++ c ∧ c.getLast? = some 10
  | 0, _, _, _, _, _, h => by simp [peekLineLoop] at h
  | fuel + 1, dataBuf, s, res, s', hd, h => by
    show ReadsFirstLine dataBuf s res s'
    rcases peek_cases s with ⟨s₁, hp, hrest, -⟩ | ⟨e, s₁, hp, hrest⟩ | ⟨s₁, hp, hrest, -⟩
    · -- not ready: the loop goes on from the same bytes
      rw [peekLineLoop, hp] at h
      exact ReadsFirstLine.of_rest_eq (peekLineLoop_first_line hd h) hrest
    · rw [peekLineLoop, hp] at h
      cases h
      exact .error_nil _ hd hrest
    rw [peekLineLoop, hp] at h
    dsimp only at h
    by_cases h0 : (s₁.buf.take proxyDataV1MaxLen).length = 0
    · rw [if_pos h0] at h
      cases h
      exact .error_nil _ hd hrest
    rw [if_neg h0] at h
    have hne : s₁.buf ≠ [] := fun e => h0 (by simp [e])
    have hle : (s₁.buf.take proxyDataV1MaxLen).length ≤ s₁.buf.length := List.length_take_le' _ _
    split at h
    · -- a line feed at `p`: the line is read up to it
      rename_i p hidx
      by_cases hmax : dataBuf.length + p ≥ proxyDataV1MaxLen
      · rw [if_pos hmax] at h
        cases h
        exact .error_nil _ hd hrest
      rw [if_neg hmax] at h
      have hp₁ : p + 1 ≤ s₁.buf.length := by
        have := (List.idxOf?_eq_some_iff.1 hidx).1
        omega
      obtain ⟨f, rfl⟩ : ∃ f, fuel = f + 1 := by
        cases fuel with
        | zero => simp [readExactly] at h
        | succ f => exact ⟨f, rfl⟩
      rw [readExactly_of_buf f hne hp₁] at h
      cases h
      obtain ⟨hline, hnot⟩ := take_succ_of_idxOf? hidx
      have htake : s₁.buf.take (p + 1) = (s₁.buf.take proxyDataV1MaxLen).take p ++ [10] := by
        rw [← hline, List.take_take, min_eq_left (by simp [proxyDataV1MaxLen] at hmax ⊢; omega)]
      have hlen : dataBuf.length + (s₁.buf.take (p + 1)).length ≤ proxyDataV1MaxLen := by
        simp only [List.length_take, Nat.min_eq_left hp₁]
        omega
      rw [htake] at hlen ⊢
      exact .line (htake ▸ hrest ▸ rest_eq_take_append_consume s₁ hp₁) hnot hlen
    · -- no line feed: the window is read, the magic checked, and the loop goes on
      rename_i hidx
      have hnot : 10 ∉ s₁.buf.take proxyDataV1MaxLen := List.idxOf?_eq_none_iff.1 hidx
      by_cases hmax : dataBuf.length + (s₁.buf.take proxyDataV1MaxLen).length ≥ proxyDataV1MaxLen
      · rw [if_pos hmax] at h
        cases h
        exact .error_nil _ hd hrest
      rw [if_neg hmax] at h
      obtain ⟨f, rfl⟩ : ∃ f, fuel = f + 1 := by
        cases fuel with
        | zero => simp [readExactly] at h
        | succ f => exact ⟨f, rfl⟩
      rw [readExactly_of_buf f hne hle, take_window_length] at h
      dsimp only at h
      have hrest₁ := rest_eq_take_append_consume s₁ hle
      rw [take_window_length, hrest] at hrest₁
      split_ifs at h
      · exact .append hrest₁ hnot (peekLineLoop_first_line (by rw [List.length_append]; omega) h)
      · cases h
        exact .error _ hrest₁ hnot (by omega)

theorem peekLineLoop_first_line_unknown :
    ∃ c, Source.rest ⟨[], [.data (asBytes "PROXY UNK".toList), .pending,
          .data (asBytes "NOWN\r\nGET".toList)]⟩ = c ++ Source.rest ⟨asBytes "GET".toList, []⟩ ∧
      ([] : List UInt8).length + c.length ≤ proxyDataV1MaxLen ∧ 10 ∉ c.dropLast ∧
      ∀ line, (.ok (asBytes "PROXY UNKNOWN\r\n".toList) : Except ProxyProtocolReadError _) = .ok line →
        line = [] ++ c ∧ c.getLast? = some 10 :=
  @peekLineLoop_first_line 5 [] _ _ _ (by decide) (by decide)

/-! ## A line read in parts -/

/-- A line `peek_line` takes however the stream splits it: its one line feed
    at its end, at most 108 bytes, and the magic first. -/
structure GoodLine (L : List UInt8) : Prop where
  body : ∃ u, L = u ++ [10] ∧ 10 ∉ u
  length_le : L.length ≤ proxyDataV1MaxLen
  magic : commonData <+: L

/-- Every part of a line that starts with the magic passes the magic check. -/
theorem magicOk_of_part {L d : List UInt8} (hm : commonData <+: L) (hd : d <+: L) :
    magicOk d = true := by
  unfold magicOk
  split_ifs with hlen
  · rw [← List.prefix_iff_eq_take.1 (List.prefix_of_prefix_length_le hm hd hlen)]
    exact beq_self_eq_true _
  · rw [← List.prefix_iff_eq_take.1 (List.prefix_of_prefix_length_le hd hm (by omega))]
    exact beq_self_eq_true _

/-- A window that holds the line feed: the read up to it takes the line's
    last bytes. -/
theorem take_succ_of_window {s : Source} {w p' : List UInt8}
    (hv : s.buf.take proxyDataV1MaxLen = w ++ 10 :: p') (hw : w.length < proxyDataV1MaxLen) :
    s.buf.take (w.length + 1) = w ++ [10] := by
  have hw' : w.length + 1 ≤ proxyDataV1MaxLen := hw
  rw [← Nat.min_eq_left hw', ← List.take_take, hv, List.take_append, List.take_of_length_le (by omega)]
  simp

/-- The line as far as it was read, and the rest of it still in the
    stream: `peek_line` returns the whole line, however the stream splits it,
    and leaves the stream at the byte after it.  The induction is on the
    fuel; each turn takes an answer or bytes of the line. -/
theorem peekLineLoop_goodLine {S L : List UInt8} (hL : GoodLine L) :
    ∀ {fuel k} {r : Source}, k < L.length → r.Holds S (L.drop k) →
      L.length - k + r.events.length < fuel →
      ∃ r', peekLineLoop fuel (L.take k) r = some (.ok L, r') ∧ r'.Holds S []
  | 0, _, _, _, _, hf => absurd hf (Nat.not_lt_zero _)
  | fuel + 1, k, r, hk, hr, hf => by
    obtain ⟨u, hLu, hu⟩ := hL.body
    have hlen := hL.length_le
    have hku : k ≤ u.length := by rw [hLu, List.length_append] at hk; simp at hk; omega
    have hdrop : L.drop k = u.drop k ++ [10] := by rw [hLu, List.drop_append_of_le_length hku]
    have hu' : 10 ∉ u.drop k := fun h => hu (List.mem_of_mem_drop h)
    rcases hr.fill (by simp [hdrop]) with ⟨s', hfill, hs', hev⟩ | ⟨s₁, hfill, hne, hpre, hs₁, hev⟩
    · -- not ready: the same bytes, one answer fewer
      rw [peekLineLoop, peek_of_fillBuf_pending hfill]
      exact peekLineLoop_goodLine hL hk hs' (by omega)
    rw [peekLineLoop, peek_of_fillBuf_ok hfill]
    dsimp only
    have hv : s₁.buf.take proxyDataV1MaxLen <+: u.drop k ++ 10 :: S := by
      have := (List.take_prefix proxyDataV1MaxLen s₁.buf).trans hpre
      rwa [hdrop, List.append_assoc] at this
    have hle : (s₁.buf.take proxyDataV1MaxLen).length ≤ s₁.buf.length := List.length_take_le' _ _
    have hv0 : (s₁.buf.take proxyDataV1MaxLen).length ≠ 0 := by
      simp [proxyDataV1MaxLen, hne]
    obtain ⟨f, rfl⟩ : ∃ f, fuel = f + 1 := ⟨fuel - 1, by omega⟩
    rw [if_neg hv0]
    have hLk : L.length = k + (u.drop k).length + 1 := by rw [hLu]; simp; omega
    rcases List.IsPrefix.cases_append_cons hu' hv with ⟨hnot, hvu⟩ | ⟨p', hvp, -⟩
    · -- no line feed in the window: it is read, passes the magic check, and
      -- the loop goes on after it
      have hvlen := hvu.length_le
      rw [List.idxOf?_eq_none_iff.2 hnot]
      dsimp only
      rw [List.length_take_of_le hk.le, if_neg (by omega), readExactly_of_buf f hne hle,
        take_window_length]
      dsimp only
      have hvL : s₁.buf.take proxyDataV1MaxLen <+: L.drop k :=
        hdrop ▸ hvu.trans (List.prefix_append _ _)
      have hpart : L.take k ++ s₁.buf.take proxyDataV1MaxLen <+: L := by
        conv_rhs => rw [← List.take_append_drop k L]
        exact (List.prefix_append_right_inj _).2 hvL
      rw [if_pos (magicOk_of_part hL.magic hpart)]
      have htake : L.take k ++ s₁.buf.take proxyDataV1MaxLen =
          L.take (k + (s₁.buf.take proxyDataV1MaxLen).length) := by
        rw [List.prefix_iff_eq_take.1 hpart, List.length_append, List.length_take_of_le hk.le]
      have hrem : L.drop k = s₁.buf.take proxyDataV1MaxLen ++
          L.drop (k + (s₁.buf.take proxyDataV1MaxLen).length) := by
        rw [← List.drop_drop]
        exact (List.prefix_iff_eq_append.1 hvL).symm
      rw [htake]
      have hpos := Nat.pos_of_ne_zero hv0
      have hs₂ : (s₁.consume (s₁.buf.take proxyDataV1MaxLen).length).Holds S
          (L.drop (k + (s₁.buf.take proxyDataV1MaxLen).length)) :=
        Source.Holds.consume (hrem ▸ hs₁) hle
      exact peekLineLoop_goodLine hL (by omega) hs₂ (by simp; omega)
    · -- the line feed in the window: the read up to it ends the line
      have hvlen : (s₁.buf.take proxyDataV1MaxLen).length = (u.drop k).length + 1 + p'.length := by
        rw [hvp]; simp; omega
      rw [hvp, List.idxOf?_append_cons_of_not_mem hu']
      dsimp only
      rw [List.length_take_of_le hk.le, if_neg (by omega), readExactly_of_buf f hne (by omega),
        take_succ_of_window hvp (by omega), ← hdrop]
      dsimp only
      rw [List.take_append_drop]
      refine ⟨_, rfl, ?_⟩
      have hs₁' : s₁.Holds S (L.drop k ++ []) := by rw [List.append_nil]; exact hs₁
      have hs₂ := hs₁'.consume (by rw [hdrop, List.length_append, List.length_singleton]; omega)
      rwa [hdrop, List.length_append, List.length_singleton] at hs₂

/-! ## The line `encode_tcp` writes -/

/-- An ASCII character's byte is in the bytes of ASCII text only where the
    character is. -/
theorem byte_not_mem_asBytes {s : List Char} (hs : ∀ c ∈ s, c.toNat < 128) {x : Char}
    (hx : x.toNat < 128) (h : x ∉ s) : x.toNat.toUInt8 ∉ asBytes s := by
  rw [asBytes_eq_map_of_ascii hs]
  intro hm
  obtain ⟨c, hc, hce⟩ := List.mem_map.1 hm
  have hcx : c.toNat = x.toNat := by
    have hc' := hs c hc
    have := congrArg UInt8.toNat hce
    simp at this
    omega
  exact h (Char.toNat_inj.1 hcx ▸ hc)

/-- The line `encode_tcp` writes is one `peek_line` takes in parts, when the
    address text has no line feed. -/
theorem goodLine_encodeTcp {txt : IpText} (hlf : ∀ a, '\n' ∉ txt.display a) {c s : SocketAddr}
    {line : List UInt8} (h : ProxyProtocolV1Encoder.encodeTcp txt c s = .ok line) : GoodLine line := by
  have hlen := (parseBuf_encodeTcp txt h).1
  obtain ⟨f, hf, rfl⟩ : ∃ f, (f = '4' ∨ f = '6') ∧
      line = asBytes ("PROXY TCP".toList ++ [f, ' '] ++ txt.display c.ip ++ ' ' :: txt.display s.ip ++
        ' ' :: u16Display c.port ++ ' ' :: u16Display s.port ++ ['\r', '\n']) := by
    cases c with
    | v4 a p =>
      cases s with
      | v4 b q =>
        rw [ProxyProtocolV1Encoder.encodeTcp_v4] at h
        exact ⟨'4', .inl rfl, (Except.ok.inj h).symm⟩
      | v6 => rw [ProxyProtocolV1Encoder.encodeTcp_of_not_sameFamily txt id] at h; cases h
    | v6 a p =>
      cases s with
      | v4 => rw [ProxyProtocolV1Encoder.encodeTcp_of_not_sameFamily txt id] at h; cases h
      | v6 b q =>
        rw [ProxyProtocolV1Encoder.encodeTcp_v6] at h
        exact ⟨'6', .inr rfl, (Except.ok.inj h).symm⟩
  -- the line without its line feed
  have hline : "PROXY TCP".toList ++ [f, ' '] ++ txt.display c.ip ++ ' ' :: txt.display s.ip ++
      ' ' :: u16Display c.port ++ ' ' :: u16Display s.port ++ ['\r', '\n'] =
      ("PROXY TCP".toList ++ [f, ' '] ++ txt.display c.ip ++ ' ' :: txt.display s.ip ++
        ' ' :: u16Display c.port ++ ' ' :: u16Display s.port ++ ['\r']) ++ ['\n'] := by
    simp
  have hascii : ∀ x ∈ "PROXY TCP".toList ++ [f, ' '] ++ txt.display c.ip ++ ' ' :: txt.display s.ip ++
      ' ' :: u16Display c.port ++ ' ' :: u16Display s.port ++ ['\r'], x.toNat < 128 := by
    have hA := txt.display_fieldText c.ip
    have hB := txt.display_fieldText s.ip
    have hP := u16Display_chars c.port
    have hQ := u16Display_chars s.port
    rcases hf with rfl | rfl <;> simp [or_imp, forall_and] <;>
      exact ⟨fun x hx => (hA x hx).1, fun x hx => (hB x hx).1, fun x hx => (hP x hx).1,
        fun x hx => (hQ x hx).1⟩
  refine ⟨⟨_, by rw [hline, asBytes_append]; rfl, byte_not_mem_asBytes hascii (x := '\n') (by decide) ?_⟩, hlen.le, ?_⟩
  · have hP : '\n' ∉ u16Display c.port := fun h => by simpa using isDigit_of_mem_u16Display h
    have hQ : '\n' ∉ u16Display s.port := fun h => by simpa using isDigit_of_mem_u16Display h
    rcases hf with rfl | rfl <;> simp [hlf, hP, hQ]
  · rw [show "PROXY TCP".toList = "PROXY ".toList ++ "TCP".toList by simp]
    simp only [List.append_assoc, asBytes_append]
    exact List.prefix_append _ _

/-- The line `encode_tcp` writes, however the stream splits it, is read back
    as the two addresses as carried, and the stream is left at the byte after
    it. -/
theorem readProxyProtocolV1ForTcp_encodeTcp (txt : IpText) (hlf : ∀ a, '\n' ∉ txt.display a)
    {c s : SocketAddr} {line S : List UInt8} (h : ProxyProtocolV1Encoder.encodeTcp txt c s = .ok line)
    {r : Source} (hr : r.Holds S line) {fuel : Nat} (hfuel : line.length + r.events.length < fuel) :
    ∃ r', readProxyProtocolV1ForTcp txt fuel r = some (.ok (some ⟨c.carried, s.carried⟩), r') ∧
      r'.rest = S := by
  have hL := goodLine_encodeTcp hlf h
  have hpos : 0 < line.length := by
    obtain ⟨u, hu, -⟩ := hL.body
    simp [hu]
  obtain ⟨r', hloop, hr'⟩ := peekLineLoop_goodLine hL hpos (by simpa using hr) (by simpa using hfuel)
  rw [List.take_zero] at hloop
  refine ⟨r', ?_, by simpa using hr'.rest⟩
  simp [readProxyProtocolV1ForTcp, hloop, (parseBuf_encodeTcp txt h).2]

theorem readProxyProtocolV1ForTcp_encodeTcp_split :
    ∃ r', readProxyProtocolV1ForTcp IpText.std 40
        ⟨[], [.data (asBytes "PROXY TCP4 0.0.".toList), .pending,
          .data (asBytes "0.0 1.1.1.1 1 2\r\n".toList)]⟩ =
        some (.ok (some ⟨.v4 #v[0, 0, 0, 0] 1, .v4 #v[1, 1, 1, 1] 2⟩), r') ∧ r'.rest = [] :=
  readProxyProtocolV1ForTcp_encodeTcp IpText.std IpText.std_display_ne_lf
    (show ProxyProtocolV1Encoder.encodeTcp IpText.std (.v4 #v[0, 0, 0, 0] 1) (.v4 #v[1, 1, 1, 1] 2) =
      .ok (asBytes "PROXY TCP4 0.0.0.0 1.1.1.1 1 2\r\n".toList) by decide)
    ⟨by decide, by simp [Source.Segmented]; decide⟩ (by decide)

/-! ## A line that arrives in one read -/

/-- The first window already holds the whole line: one peek finds the line
    feed and one read takes the line, and the magic is not checked. -/
theorem peekLineLoop_one_read {r r₁ : Source} {u more : List UInt8}
    (hf : r.fillBuf = (.ready (.ok (u ++ 10 :: more)), r₁)) (hu : 10 ∉ u)
    (hlen : u.length < proxyDataV1MaxLen) (fuel : Nat) :
    peekLineLoop (fuel + 2) [] r = some (.ok (u ++ [10]), r₁.consume (u.length + 1)) := by
  have hb := Source.fillBuf_ok_buf hf
  have hne : r₁.buf ≠ [] := by simp [hb]
  -- the window, cut to 108 bytes, still holds the line feed
  obtain ⟨p', hwin⟩ : ∃ p', (u ++ 10 :: more).take proxyDataV1MaxLen = u ++ 10 :: p' :=
    ⟨_, by rw [List.take_append, List.take_of_length_le hlen.le,
      show proxyDataV1MaxLen - u.length = (proxyDataV1MaxLen - u.length - 1) + 1 by omega,
      List.take_succ_cons]⟩
  rw [peekLineLoop, peek_of_fillBuf_ok hf]
  dsimp only
  rw [hwin, if_neg (by simp), List.idxOf?_append_cons_of_not_mem hu]
  dsimp only
  rw [if_neg (by simp; omega), readExactly_of_buf _ hne (by simp [hb]),
    take_succ_of_window (by rw [hb]; exact hwin) hlen]
  rfl

/-- A line that arrives in one read goes to `parse_buf` as it is. -/
theorem readProxyProtocolV1ForTcp_one_read (txt : IpText) {r r₁ : Source} {u more : List UInt8}
    (hf : r.fillBuf = (.ready (.ok (u ++ 10 :: more)), r₁)) (hu : 10 ∉ u)
    (hlen : u.length < proxyDataV1MaxLen) (fuel : Nat) :
    readProxyProtocolV1ForTcp txt (fuel + 2) r =
      (parseBuf txt (u ++ [10])).run.map (·, r₁.consume (u.length + 1)) := by
  rw [readProxyProtocolV1ForTcp, peekLineLoop_one_read hf hu hlen]

/-- `parse_buf` skips the first six bytes without looking at them. -/
theorem parseBuf_magic (txt : IpText) {m x : List UInt8} (hm : m.length = commonData.length) :
    parseBuf txt (m ++ x) = parseBuf txt (commonData ++ x) := by
  unfold parseBuf
  rw [List.sliceFrom?_of_eq_append rfl hm, List.sliceFrom?_of_eq_append rfl rfl]

/-- On six bytes the magic check is a comparison with the magic. -/
theorem magicOk_of_length_eq {m : List UInt8} (hm : m.length = commonData.length) :
    magicOk m = (m == commonData) := by
  rw [magicOk, if_pos hm.ge, ← hm, List.take_length]

/-- Whether `peek_line` checks the magic depends on how the stream splits
    the line: six bytes other than `PROXY ` followed by the rest of the line
    in the same answer get `parse_buf`'s answer for the line as if it began
    with the magic, and the same bytes in two answers, split after the six,
    get `InvalidMagicHeader`. -/
theorem readProxyProtocolV1ForTcp_magic_split (txt : IpText) {m t : List UInt8}
    (hm : m.length = commonData.length) (hmagic : m ≠ commonData) (hlf : 10 ∉ m ++ t)
    (hlen : (m ++ t).length < proxyDataV1MaxLen) (segs : List (List UInt8)) (fuel : Nat) :
    readProxyProtocolV1ForTcp txt (fuel + 2) (.ofSegments ((m ++ t ++ [10]) :: segs)) =
        readProxyProtocolV1ForTcp txt (fuel + 2) (.ofSegments ((commonData ++ t ++ [10]) :: segs)) ∧
      readProxyProtocolV1ForTcp txt (fuel + 2) (.ofSegments (m :: (t ++ [10]) :: segs)) =
        some (.error .invalidMagicHeader, .ofSegments ((t ++ [10]) :: segs)) := by
  have hm6 : (10 : UInt8) ∉ m := fun h => hlf (List.mem_append_left _ h)
  have hmne : m ≠ [] := by
    intro e
    rw [e] at hm
    exact absurd hm (by decide)
  constructor
  · -- one answer: both lines go to `parse_buf`, which skips the first six bytes
    have hc : 10 ∉ commonData ++ t := by
      simp only [List.mem_append, not_or] at hlf ⊢
      exact ⟨by decide, hlf.2⟩
    have hclen : (commonData ++ t).length < proxyDataV1MaxLen := by simpa [hm] using hlen
    have hf₁ : (Source.ofSegments ((m ++ t ++ [10]) :: segs)).fillBuf =
        (.ready (.ok ((m ++ t) ++ 10 :: [])), ⟨m ++ t ++ [10], segs.map .data⟩) := by
      simp [Source.ofSegments, Source.fillBuf]
    have hf₂ : (Source.ofSegments ((commonData ++ t ++ [10]) :: segs)).fillBuf =
        (.ready (.ok ((commonData ++ t) ++ 10 :: [])), ⟨commonData ++ t ++ [10], segs.map .data⟩) := by
      simp [Source.ofSegments, Source.fillBuf]
    -- both lines are consumed whole
    have hs₁ : (⟨m ++ t ++ [10], segs.map .data⟩ : Source).consume ((m ++ t).length + 1) =
        ⟨[], segs.map .data⟩ := by
      simp [Source.consume]; omega
    have hs₂ : (⟨commonData ++ t ++ [10], segs.map .data⟩ : Source).consume ((commonData ++ t).length + 1) =
        ⟨[], segs.map .data⟩ := by
      simp [Source.consume]; omega
    rw [readProxyProtocolV1ForTcp_one_read txt hf₁ hlf hlen, readProxyProtocolV1ForTcp_one_read txt hf₂ hc hclen,
      hs₁, hs₂, List.append_assoc, List.append_assoc, parseBuf_magic txt hm]
  · -- two answers: the first six bytes are read alone and fail the magic check
    have hf : (Source.ofSegments (m :: (t ++ [10]) :: segs)).fillBuf =
        (.ready (.ok m), ⟨m, .data (t ++ [10]) :: segs.map .data⟩) := by
      simp [Source.ofSegments, Source.fillBuf]
    have hwin : m.take proxyDataV1MaxLen = m := List.take_of_length_le (by rw [hm]; decide)
    rw [readProxyProtocolV1ForTcp, peekLineLoop, peek_of_fillBuf_ok hf]
    dsimp only
    rw [hwin, if_neg (by simpa using hmne), List.idxOf?_eq_none_iff.2 hm6]
    dsimp only
    rw [if_neg (by rw [List.length_nil, Nat.zero_add, hm]; decide), readExactly_of_buf (s := ⟨m, _⟩) _ hmne le_rfl,
      List.take_length]
    dsimp only
    rw [List.nil_append, magicOk_of_length_eq hm, beq_false_of_ne hmagic]
    simp [Source.consume, Source.ofSegments]

theorem readProxyProtocolV1ForTcp_magic_split_get :
    readProxyProtocolV1ForTcp IpText.std 2
        (.ofSegments [asBytes "GET / ".toList ++ asBytes "HTTP/1.1\r".toList ++ [10]]) =
        readProxyProtocolV1ForTcp IpText.std 2
          (.ofSegments [commonData ++ asBytes "HTTP/1.1\r".toList ++ [10]]) ∧
      readProxyProtocolV1ForTcp IpText.std 2
          (.ofSegments [asBytes "GET / ".toList, asBytes "HTTP/1.1\r".toList ++ [10]]) =
        some (.error .invalidMagicHeader, .ofSegments [asBytes "HTTP/1.1\r".toList ++ [10]]) :=
  readProxyProtocolV1ForTcp_magic_split IpText.std (by decide) (by decide) (by decide) (by decide) [] 0

/-! ## The only panic: a line shorter than the magic -/

/-- Every branch of `parseAddrs` ends in an error returned or a value: it
    never panics. -/
theorem parseAddrs_isSome (txt : IpText) (familyC : UInt8) (fields : List (List UInt8)) :
    (parseAddrs txt familyC fields).run.isSome := by
  unfold parseAddrs
  -- one case for each `let some .. | throw` and each family
  repeat' split
  all_goals rfl

/-- Past the slice of the magic, `parse_buf` never panics. -/
theorem parseBuf_isSome (txt : IpText) {data : List UInt8} (h : commonData.length ≤ data.length) :
    (parseBuf txt data).run.isSome := by
  unfold parseBuf
  rw [List.sliceFrom?_eq h, ExceptT.lift_some_bind]
  dsimp only
  repeat' split
  all_goals first | rfl | exact parseAddrs_isSome ..

/-- `data[6..]` panics on fewer than six bytes. -/
theorem parseBuf_short (txt : IpText) {data : List UInt8} (h : data.length < commonData.length) :
    (parseBuf txt data).run = none := by
  have hs : data.sliceFrom? commonData.length = none := by simp [List.sliceFrom?]; omega
  unfold parseBuf
  rw [hs]
  rfl

/-- A line that arrives in one read panics exactly when it is shorter than
    the magic: the slice `data[6..]` of `parse_buf` is the only panic. -/
theorem readProxyProtocolV1ForTcp_one_read_eq_none_iff (txt : IpText) {r r₁ : Source}
    {u more : List UInt8} (hf : r.fillBuf = (.ready (.ok (u ++ 10 :: more)), r₁)) (hu : 10 ∉ u)
    (hlen : u.length < proxyDataV1MaxLen) (fuel : Nat) :
    readProxyProtocolV1ForTcp txt (fuel + 2) r = none ↔ u.length + 1 < commonData.length := by
  rw [readProxyProtocolV1ForTcp_one_read txt hf hu hlen, Option.map_eq_none_iff]
  constructor
  · intro h
    by_contra hge
    have := parseBuf_isSome txt (show commonData.length ≤ (u ++ [10]).length by simp; omega)
    simp [h] at this
  · intro h
    exact parseBuf_short txt (by simpa using h)

theorem readProxyProtocolV1ForTcp_one_read_eq_none_iff_crlf :
    readProxyProtocolV1ForTcp IpText.std 2 (.ofSegments [[13, 10]]) = none :=
  (readProxyProtocolV1ForTcp_one_read_eq_none_iff IpText.std
    (show (Source.ofSegments [[13, 10]]).fillBuf = (.ready (.ok ([13] ++ 10 :: [])), ⟨[13, 10], []⟩) from rfl)
    (by decide) (by decide) 0).2 (by decide)

end ProxyProtocolV1Reader

end G3Proxy
