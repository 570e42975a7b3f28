/-
  The chunked transfer coding of HTTP/1.1 (RFC 9112, section 7.1) over
  bytes, and a recognizer that reads a coded message one byte at a time.

  * A `Message` is its data chunks, the line of its last chunk and its
    trailer field lines; `Message.encode` writes it out, `Message.body` is
    the data it carries, and `Message.Wf` is the grammar: hexadecimal sizes
    that count the data, extensions `BWS ; ...`, last-chunk size `0+`,
    trailer lines that are not empty, and no line end inside a line.
  * `step` is the recognizer, for a line limit `maxLine` and a reading
    `sizeOf` of chunk-size lines (both chosen by the reader that uses it): a
    `Phase` says where it stands, and a byte that does not continue a
    message is refused.  `run` reads a list of bytes and `decoded` collects
    the data bytes among them.
  * `run_encode`: a well-formed message whose lines fit and whose size
    lines `sizeOf` reads is read to `done`; nothing is read after `done`
    (`run_done_append`).
-/
import G3Proxy.Core.Hex

namespace ChunkedCoding

open Hex

/-- The line end `CR LF`. -/
def crlf : List UInt8 := [13, 10]

/-- No line end inside. -/
def NoLineEnd (bs : List UInt8) : Prop := ∀ b ∈ bs, b ≠ 13 ∧ b ≠ 10

/-- A chunk: its size digits, its extension and its data. -/
structure Chunk where
  size : List UInt8
  ext : List UInt8
  data : List UInt8
  deriving Repr, DecidableEq

/-- A chunked message. -/
structure Message where
  chunks : List Chunk
  lastSize : List UInt8
  lastExt : List UInt8
  trailers : List (List UInt8)
  deriving Repr, DecidableEq

/-- The size line of a chunk, without its line end. -/
def Chunk.line (c : Chunk) : List UInt8 := c.size ++ c.ext

/-- `chunk = chunk-size [ chunk-ext ] CRLF chunk-data CRLF`. -/
def Chunk.encode (c : Chunk) : List UInt8 := c.line ++ crlf ++ c.data ++ crlf

/-- The line of the last chunk. -/
def Message.lastLine (m : Message) : List UInt8 := m.lastSize ++ m.lastExt

/-- The trailer section, with the empty line that ends it. -/
def trailerSection (ts : List (List UInt8)) : List UInt8 := ts.flatMap (· ++ crlf) ++ crlf

/-- `chunked-body = *chunk last-chunk trailer-section CRLF`. -/
def Message.encode (m : Message) : List UInt8 :=
  m.chunks.flatMap Chunk.encode ++ (m.lastLine ++ crlf) ++ trailerSection m.trailers

/-- The data a message carries. -/
def Message.body (m : Message) : List UInt8 := m.chunks.flatMap Chunk.data

/-- A message up to its trailer section: its chunks and the line of its last
    chunk. -/
def Message.dataPart (m : Message) : List UInt8 := m.chunks.flatMap Chunk.encode ++ (m.lastLine ++ crlf)

theorem Message.encode_eq_dataPart (m : Message) : m.encode = m.dataPart ++ trailerSection m.trailers := by
  simp [Message.encode, Message.dataPart]

/-- `chunk-ext = *( BWS ";" ... )`: nothing, or blanks, a `;` and the rest
    of the line. -/
def ExtWf (ext : List UInt8) : Prop :=
  ext = [] ∨ ∃ ws rest, ext = ws ++ 59 :: rest ∧ (∀ b ∈ ws, b = 32 ∨ b = 9) ∧ NoLineEnd rest

/-- A data chunk: a hexadecimal size that counts its data, which is not
    empty. -/
structure Chunk.Wf (c : Chunk) : Prop where
  size_hex : ∀ d ∈ c.size, isHexDigit d = true
  ext_wf : ExtWf c.ext
  size_eq : hexValue c.size = c.data.length
  data_ne_nil : c.data ≠ []

/-- A well-formed chunked message. -/
structure Message.Wf (m : Message) : Prop where
  chunks_wf : ∀ c ∈ m.chunks, c.Wf
  lastSize_ne_nil : m.lastSize ≠ []
  lastSize_zero : ∀ d ∈ m.lastSize, d = 48
  lastExt_wf : ExtWf m.lastExt
  trailers_wf : ∀ t ∈ m.trailers, t ≠ [] ∧ NoLineEnd t

theorem noLineEnd_append {xs ys : List UInt8} :
    NoLineEnd (xs ++ ys) ↔ NoLineEnd xs ∧ NoLineEnd ys := by
  simp only [NoLineEnd, List.mem_append]
  constructor
  · intro h
    exact ⟨fun b hb => h b (.inl hb), fun b hb => h b (.inr hb)⟩
  · rintro ⟨hx, hy⟩ b (hb | hb)
    exacts [hx b hb, hy b hb]

theorem ExtWf.noLineEnd {ext : List UInt8} (h : ExtWf ext) : NoLineEnd ext := by
  rcases h with rfl | ⟨ws, rest, rfl, hws, hrest⟩
  · simp [NoLineEnd]
  · refine noLineEnd_append.2 ⟨fun b hb => ?_, ?_⟩
    · rcases hws b hb with rfl | rfl <;> decide
    · intro b hb
      rcases List.mem_cons.1 hb with rfl | hb
      · decide
      · exact hrest b hb

theorem noLineEnd_of_hex {ds : List UInt8} (h : ∀ d ∈ ds, isHexDigit d = true) :
    NoLineEnd ds := by
  intro d hd
  have := h d hd
  constructor <;> rintro rfl <;> simp [isHexDigit] at this

theorem Chunk.Wf.line_noLineEnd {c : Chunk} (h : c.Wf) : NoLineEnd c.line :=
  noLineEnd_append.2 ⟨noLineEnd_of_hex h.size_hex, h.ext_wf.noLineEnd⟩

theorem Message.Wf.lastLine_noLineEnd {m : Message} (h : m.Wf) : NoLineEnd m.lastLine := by
  refine noLineEnd_append.2 ⟨fun d hd => ?_, h.lastExt_wf.noLineEnd⟩
  rw [h.lastSize_zero d hd]
  decide

/-! ## The message of a list of segments -/

/-- The message whose chunks carry these segments in order, each with its
    size in lowercase hexadecimal and no extension, then the last chunk `0`
    and no trailer. -/
def Message.ofSegments (segs : List (List UInt8)) : Message :=
  ⟨segs.map fun s => ⟨lowerHex s.length, [], s⟩, [48], [], []⟩

theorem Message.ofSegments_body (segs : List (List UInt8)) :
    (Message.ofSegments segs).body = segs.flatten := by
  simp [Message.ofSegments, Message.body, List.flatMap_map]

theorem Message.ofSegments_wf {segs : List (List UInt8)} (h : ∀ s ∈ segs, s ≠ []) :
    (Message.ofSegments segs).Wf where
  chunks_wf := by
    simp only [Message.ofSegments, List.mem_map]
    rintro c ⟨s, hs, rfl⟩
    exact ⟨lowerHex_hex _, .inl rfl, hexValue_lowerHex _, h s hs⟩
  lastSize_ne_nil := by simp [Message.ofSegments]
  lastSize_zero := by simp [Message.ofSegments]
  lastExt_wf := .inl rfl
  trailers_wf := by simp [Message.ofSegments]

theorem Message.ofSegments_encode_nil : (Message.ofSegments []).encode = [48, 13, 10, 13, 10] := rfl

theorem Message.ofSegments_encode_cons (s : List UInt8) (segs : List (List UInt8)) :
    (Message.ofSegments (s :: segs)).encode =
      lowerHex s.length ++ crlf ++ s ++ crlf ++ (Message.ofSegments segs).encode := by
  simp [Message.ofSegments, Message.encode, Message.lastLine, Chunk.encode, Chunk.line]

/-! ## The recognizer -/

/-- Where the recognizer stands. -/
inductive Phase where
  /-- inside a chunk-size line, these bytes read -/
  | sizeLine (line : List UInt8)
  /-- the `CR` of a chunk-size line read -/
  | sizeLineCr (line : List UInt8)
  /-- inside chunk data, `left` bytes to go -/
  | data (left : Nat)
  /-- chunk data read, its `CR` next -/
  | dataCr
  /-- its `LF` next -/
  | dataLf
  /-- inside a trailer line (or the final empty line), `len` bytes read -/
  | trailer (len : Nat)
  /-- the `CR` of such a line read -/
  | trailerCr (len : Nat)
  /-- the message read -/
  | done
  deriving Repr, DecidableEq

/-- The phases inside the data part of a message, before its trailer
    section. -/
def Phase.inData : Phase → Bool
  | .sizeLine _ | .sizeLineCr _ | .data _ | .dataCr | .dataLf => true
  | _ => false

section Recognizer

variable (maxLine : Nat) (sizeOf : List UInt8 → Option Nat)

/-- One byte.  A line is refused once it could no longer end within
    `maxLine` bytes with its `CR`. -/
def step : Phase → UInt8 → Option Phase
  | .sizeLine l, b =>
    if l.length + 1 < maxLine then
      if b = 13 then some (.sizeLineCr l) else if b = 10 then none else some (.sizeLine (l ++ [b]))
    else none
  | .sizeLineCr l, b =>
    if b = 10 then
      match sizeOf l with
      | some 0 => some (.trailer 0)
      | some n => some (.data n)
      | none => none
    else none
  | .data n, _ => if n ≤ 1 then some .dataCr else some (.data (n - 1))
  | .dataCr, b => if b = 13 then some .dataLf else none
  | .dataLf, b => if b = 10 then some (.sizeLine []) else none
  | .trailer k, b =>
    if k + 1 < maxLine then
      if b = 13 then some (.trailerCr k) else if b = 10 then none else some (.trailer (k + 1))
    else none
  | .trailerCr k, b => if b = 10 then (if k = 0 then some .done else some (.trailer 0)) else none
  | .done, _ => none

/-- Read a list of bytes. -/
def run : Phase → List UInt8 → Option Phase
  | φ, [] => some φ
  | φ, b :: bs => (step maxLine sizeOf φ b).bind fun φ => run φ bs

/-- The data bytes among the bytes read. -/
def decoded : Phase → List UInt8 → List UInt8
  | _, [] => []
  | φ, b :: bs =>
    let here := match φ with
      | .data _ => [b]
      | _ => []
    match step maxLine sizeOf φ b with
    | some φ => here ++ decoded φ bs
    | none => here

@[simp] theorem run_nil (φ : Phase) : run maxLine sizeOf φ [] = some φ := rfl

theorem run_cons (φ : Phase) (b : UInt8) (bs : List UInt8) :
    run maxLine sizeOf φ (b :: bs) = (step maxLine sizeOf φ b).bind fun φ => run maxLine sizeOf φ bs :=
  rfl

theorem run_append (φ : Phase) (xs ys : List UInt8) :
    run maxLine sizeOf φ (xs ++ ys) = (run maxLine sizeOf φ xs).bind fun φ => run maxLine sizeOf φ ys := by
  induction xs generalizing φ with
  | nil => rfl
  | cons b xs ih =>
    simp only [List.cons_append, run_cons]
    cases step maxLine sizeOf φ b with
    | none => rfl
    | some φ' => exact ih φ'

theorem run_append_of_eq {φ φ' : Phase} {xs : List UInt8} (h : run maxLine sizeOf φ xs = some φ')
    (ys : List UInt8) : run maxLine sizeOf φ (xs ++ ys) = run maxLine sizeOf φ' ys := by
  rw [run_append, h]
  rfl

@[simp] theorem run_done_cons (b : UInt8) (bs : List UInt8) : run maxLine sizeOf .done (b :: bs) = none :=
  rfl

/-- A message is read to `done` only at its last byte. -/
theorem run_done_append {φ : Phase} {xs ys : List UInt8} (h : run maxLine sizeOf φ xs = some .done)
    (hy : ys ≠ []) : run maxLine sizeOf φ (xs ++ ys) = none := by
  obtain ⟨b, bs, rfl⟩ := List.exists_cons_of_ne_nil hy
  rw [run_append_of_eq maxLine sizeOf h]
  rfl

@[simp] theorem decoded_nil (φ : Phase) : decoded maxLine sizeOf φ [] = [] := rfl

theorem decoded_append {φ φ' : Phase} {xs : List UInt8} (h : run maxLine sizeOf φ xs = some φ')
    (ys : List UInt8) :
    decoded maxLine sizeOf φ (xs ++ ys) = decoded maxLine sizeOf φ xs ++ decoded maxLine sizeOf φ' ys := by
  induction xs generalizing φ with
  | nil => cases h; rfl
  | cons b xs ih =>
    rw [run_cons] at h
    cases hs : step maxLine sizeOf φ b with
    | none => rw [hs] at h; cases h
    | some φ₁ =>
      rw [hs] at h
      simp only [List.cons_append, decoded, hs, ih h, List.append_assoc]

/-- The recognizer reaches the start of the trailer section only at the end
    of `xs`, if at all. -/
def FirstArrival (φ : Phase) (xs : List UInt8) : Prop :=
  ∀ k < xs.length, run maxLine sizeOf φ (xs.take k) ≠ some (.trailer 0)

/-! ### Reading the parts of a message -/

section Parts

variable {maxLine sizeOf}

theorem firstArrival_nil (φ : Phase) : FirstArrival maxLine sizeOf φ [] := by
  intro k hk
  simp at hk

theorem firstArrival_append {φ ψ : Phase} {xs ys : List UInt8} (hx : FirstArrival maxLine sizeOf φ xs)
    (hrun : run maxLine sizeOf φ xs = some ψ) (hy : FirstArrival maxLine sizeOf ψ ys) :
    FirstArrival maxLine sizeOf φ (xs ++ ys) := by
  intro k hk
  rw [List.take_append]
  by_cases hlt : k < xs.length
  · rw [Nat.sub_eq_zero_of_le hlt.le, List.take_zero, List.append_nil]
    exact hx k hlt
  · rw [List.take_of_length_le (by omega), run_append_of_eq _ _ hrun]
    exact hy _ (by simp at hk; omega)

/-- Part way through bytes read to their first arrival at the trailer
    section: the rest is read to it for the first time too, and it is not
    reached yet while bytes are left. -/
theorem FirstArrival.drop {φ ψ : Phase} {xs ys : List UInt8} (h : FirstArrival maxLine sizeOf φ (xs ++ ys))
    (hrun : run maxLine sizeOf φ xs = some ψ) :
    FirstArrival maxLine sizeOf ψ ys ∧ (ys ≠ [] → ψ ≠ .trailer 0) := by
  constructor
  · intro k hk
    have := h (xs.length + k) (by simp; omega)
    rwa [List.take_append, List.take_of_length_le (by omega), Nat.add_sub_cancel_left,
      run_append_of_eq _ _ hrun] at this
  · intro hys
    have := h xs.length (by simp; exact List.length_pos_iff.2 hys)
    rw [List.take_left, hrun] at this
    exact fun hψ => this (congrArg some hψ)

/-- The bytes of a size line before its `CR` extend the line. -/
theorem run_sizeLine_bytes {l xs : List UInt8} (hx : NoLineEnd xs) (hlen : (l ++ xs).length < maxLine) :
    run maxLine sizeOf (.sizeLine l) xs = some (.sizeLine (l ++ xs)) := by
  induction xs generalizing l with
  | nil => simp
  | cons b xs ih =>
    have hb := hx b (List.mem_cons_self ..)
    have hl : l.length + 1 < maxLine := by simp at hlen; omega
    have ih' := ih (l := l ++ [b]) (fun c hc => hx c (List.mem_cons_of_mem _ hc)) (by simpa using hlen)
    simp only [run_cons, step, if_pos hl, if_neg hb.1, if_neg hb.2, Option.bind_some]
    simpa using ih'

theorem run_sizeLine {l xs : List UInt8} (hx : NoLineEnd xs) (hlen : (l ++ xs).length + 1 < maxLine) :
    run maxLine sizeOf (.sizeLine l) (xs ++ [13]) = some (.sizeLineCr (l ++ xs)) := by
  rw [run_append_of_eq _ _ (run_sizeLine_bytes hx (by omega))]
  rw [List.length_append] at hlen
  simp [run, step, hlen]

/-- The bytes of a size line from its start. -/
theorem run_sizeLine_nil {xs : List UInt8} (hx : NoLineEnd xs) (hlen : xs.length < maxLine) :
    run maxLine sizeOf (.sizeLine []) xs = some (.sizeLine xs) := by
  simpa using (run_sizeLine_bytes hx (by simpa using hlen) :
    run maxLine sizeOf (.sizeLine []) xs = some (.sizeLine ([] ++ xs)))

/-- A size line read to a phase past the data part: its bytes, its `CR`,
    and the rest read from there. -/
theorem run_sizeLine_to {l rem : List UInt8} {ψ : Phase} (hψ : ψ.inData = false)
    (h : run maxLine sizeOf (.sizeLine l) rem = some ψ) :
    ∃ xs rest, rem = xs ++ 13 :: rest ∧ NoLineEnd xs ∧ (l ++ xs).length + 1 < maxLine ∧
      run maxLine sizeOf (.sizeLineCr (l ++ xs)) rest = some ψ := by
  induction rem generalizing l with
  | nil =>
    cases h
    cases hψ
  | cons b rem ih =>
    rw [run_cons] at h
    by_cases hl : l.length + 1 < maxLine
    · by_cases hcr : b = 13
      · subst hcr
        exact ⟨[], rem, rfl, by simp [NoLineEnd], by simpa using hl, by simpa [step, hl] using h⟩
      · by_cases hlf : b = 10
        · simp [step, hl, hlf] at h
        · simp only [step, if_pos hl, if_neg hcr, if_neg hlf, Option.bind_some] at h
          obtain ⟨xs, rest, rfl, hxs, hfit, hrun⟩ := ih h
          refine ⟨b :: xs, rest, rfl, ?_, by simpa using hfit, by simpa using hrun⟩
          intro c hc
          rcases List.mem_cons.1 hc with rfl | hc
          exacts [⟨hcr, hlf⟩, hxs c hc]
    · simp [step, hl] at h

/-- A size line read to the end of a message. -/
theorem run_sizeLine_done {l rem : List UInt8}
    (h : run maxLine sizeOf (.sizeLine l) rem = some .done) :
    ∃ xs rest, rem = xs ++ 13 :: rest ∧ NoLineEnd xs ∧ (l ++ xs).length + 1 < maxLine ∧
      run maxLine sizeOf (.sizeLineCr (l ++ xs)) rest = some .done :=
  run_sizeLine_to rfl h

/-- The `LF` of a size line, read to a phase past the data part. -/
theorem run_sizeLineCr_to {l rem : List UInt8} {ψ : Phase} (hψ : ψ.inData = false)
    (h : run maxLine sizeOf (.sizeLineCr l) rem = some ψ) :
    ∃ rest φ, rem = 10 :: rest ∧ step maxLine sizeOf (.sizeLineCr l) 10 = some φ ∧
      run maxLine sizeOf φ rest = some ψ := by
  rcases rem with _ | ⟨b, rest⟩
  · cases h
    cases hψ
  · rw [run_cons] at h
    obtain ⟨φ, hstep, hrun⟩ := Option.bind_eq_some_iff.1 h
    by_cases hb : b = 10
    · subst hb
      exact ⟨rest, φ, rfl, hstep, hrun⟩
    · simp [step, hb] at hstep

theorem run_trailer_bytes {k : Nat} {xs : List UInt8} (hx : NoLineEnd xs)
    (hlen : k + xs.length < maxLine) :
    run maxLine sizeOf (.trailer k) xs = some (.trailer (k + xs.length)) := by
  induction xs generalizing k with
  | nil => simp
  | cons b xs ih =>
    have hb := hx b (List.mem_cons_self ..)
    have hk : k + 1 < maxLine := by simp at hlen; omega
    have ih' := ih (k := k + 1) (fun c hc => hx c (List.mem_cons_of_mem _ hc)) (by simp at hlen ⊢; omega)
    simp only [run_cons, step, if_pos hk, if_neg hb.1, if_neg hb.2, Option.bind_some]
    rw [ih']
    simp only [List.length_cons]
    congr 2
    omega

theorem run_trailerLine {k : Nat} {xs : List UInt8} (hx : NoLineEnd xs)
    (hlen : k + xs.length + 1 < maxLine) :
    run maxLine sizeOf (.trailer k) (xs ++ [13]) = some (.trailerCr (k + xs.length)) := by
  rw [run_append_of_eq _ _ (run_trailer_bytes hx (by omega))]
  simp [run, step, hlen]

/-- A trailer line read to the end of a message. -/
theorem run_trailer_done {k : Nat} {rem : List UInt8}
    (h : run maxLine sizeOf (.trailer k) rem = some .done) :
    ∃ xs rest, rem = xs ++ 13 :: rest ∧ NoLineEnd xs ∧ k + xs.length + 1 < maxLine ∧
      run maxLine sizeOf (.trailerCr (k + xs.length)) rest = some .done := by
  induction rem generalizing k with
  | nil => cases h
  | cons b rem ih =>
    rw [run_cons] at h
    by_cases hk : k + 1 < maxLine
    · by_cases hcr : b = 13
      · subst hcr
        exact ⟨[], rem, rfl, by simp [NoLineEnd], by simpa using hk, by simpa [step, hk] using h⟩
      · by_cases hlf : b = 10
        · simp [step, hk, hlf] at h
        · simp only [step, if_pos hk, if_neg hcr, if_neg hlf, Option.bind_some] at h
          obtain ⟨xs, rest, rfl, hxs, hfit, hrun⟩ := ih h
          refine ⟨b :: xs, rest, rfl, ?_, by simp at hfit ⊢; omega, ?_⟩
          · intro c hc
            rcases List.mem_cons.1 hc with rfl | hc
            exacts [⟨hcr, hlf⟩, hxs c hc]
          · simpa [Nat.add_assoc, Nat.add_comm 1] using hrun
    · simp [step, hk] at h

theorem run_data {n : Nat} {xs : List UInt8} (hn : xs.length = n) (hpos : 0 < n) :
    run maxLine sizeOf (.data n) xs = some .dataCr := by
  induction xs generalizing n with
  | nil => simp at hn; omega
  | cons b xs ih =>
    simp only [List.length_cons] at hn
    rw [run_cons]
    by_cases h1 : n ≤ 1
    · have hxs : xs = [] := List.eq_nil_of_length_eq_zero (by omega)
      subst hxs
      simp [step, h1]
    · simp only [step, if_neg h1, Option.bind_some]
      exact ih (by omega) (by omega)

/-- The bytes of a chunk's data are data. -/
theorem decoded_data_le {n : Nat} {xs : List UInt8} (hn : xs.length ≤ n) :
    decoded maxLine sizeOf (.data n) xs = xs := by
  induction xs generalizing n with
  | nil => rfl
  | cons b xs ih =>
    simp only [List.length_cons] at hn
    by_cases h1 : n ≤ 1
    · have hxs : xs = [] := List.eq_nil_of_length_eq_zero (by omega)
      subst hxs
      simp [decoded, step, h1]
    · simp only [decoded, step, if_neg h1]
      rw [ih (by omega)]
      rfl

theorem decoded_data {n : Nat} {xs : List UInt8} (hn : xs.length = n) :
    decoded maxLine sizeOf (.data n) xs = xs :=
  decoded_data_le hn.le

theorem run_data_short {n : Nat} {xs : List UInt8} (hlt : xs.length < n) :
    run maxLine sizeOf (.data n) xs = some (.data (n - xs.length)) := by
  induction xs generalizing n with
  | nil => simp
  | cons b xs ih =>
    simp only [List.length_cons] at hlt
    have h1 : ¬ n ≤ 1 := by omega
    simp only [run_cons, step, if_neg h1, Option.bind_some]
    rw [ih (by omega)]
    simp only [List.length_cons]
    congr 2
    omega

/-- Chunk data read to a phase past the data part: its `n` bytes, then the
    rest from `dataCr`. -/
theorem run_data_to {n : Nat} {rem : List UInt8} {ψ : Phase} (hpos : 0 < n) (hψ : ψ.inData = false)
    (h : run maxLine sizeOf (.data n) rem = some ψ) :
    run maxLine sizeOf .dataCr (rem.drop n) = some ψ ∧ n ≤ rem.length := by
  by_cases hlen : n ≤ rem.length
  · have hsplit := List.take_append_drop n rem
    rw [← hsplit, run_append_of_eq _ _ (run_data (by simp; omega) hpos)] at h
    exact ⟨h, hlen⟩
  · have hshort : run maxLine sizeOf (.data n) rem = some (.data (n - rem.length)) :=
      run_data_short (not_le.1 hlen)
    rw [hshort] at h
    cases h
    cases hψ

theorem run_data_done {n : Nat} {rem : List UInt8} (hpos : 0 < n)
    (h : run maxLine sizeOf (.data n) rem = some .done) :
    run maxLine sizeOf .dataCr (rem.drop n) = some .done ∧ n ≤ rem.length :=
  run_data_to hpos rfl h

/-- The line end after a chunk's data, read to a phase past the data part. -/
theorem run_dataLf_to {rem : List UInt8} {ψ : Phase} (hψ : ψ.inData = false)
    (h : run maxLine sizeOf .dataLf rem = some ψ) :
    ∃ rest, rem = 10 :: rest ∧ run maxLine sizeOf (.sizeLine []) rest = some ψ := by
  rcases rem with _ | ⟨b, rest⟩
  · cases h
    cases hψ
  · by_cases hb : b = 10
    · subst hb
      exact ⟨rest, rfl, by simpa [run_cons, step] using h⟩
    · simp [run_cons, step, hb] at h

theorem run_dataLf_done {rem : List UInt8} (h : run maxLine sizeOf .dataLf rem = some .done) :
    ∃ rest, rem = 10 :: rest ∧ run maxLine sizeOf (.sizeLine []) rest = some .done :=
  run_dataLf_to rfl h

theorem run_dataCr_to {rem : List UInt8} {ψ : Phase} (hψ : ψ.inData = false)
    (h : run maxLine sizeOf .dataCr rem = some ψ) :
    ∃ rest, rem = 13 :: 10 :: rest ∧ run maxLine sizeOf (.sizeLine []) rest = some ψ := by
  rcases rem with _ | ⟨b, rem⟩
  · cases h
    cases hψ
  · by_cases hb : b = 13
    · subst hb
      obtain ⟨rest, rfl, hrest⟩ := run_dataLf_to hψ (by simpa [run_cons, step] using h)
      exact ⟨rest, rfl, hrest⟩
    · simp [run_cons, step, hb] at h

theorem run_dataCr_done {rem : List UInt8} (h : run maxLine sizeOf .dataCr rem = some .done) :
    ∃ rest, rem = 13 :: 10 :: rest ∧ run maxLine sizeOf (.sizeLine []) rest = some .done :=
  run_dataCr_to rfl h

/-- The `LF` of a trailer line, read to the end of a message: the message
    ends there when the line is empty. -/
theorem run_trailerCr_done {k : Nat} {rem : List UInt8}
    (h : run maxLine sizeOf (.trailerCr k) rem = some .done) :
    ∃ rest, rem = 10 :: rest ∧ run maxLine sizeOf (if k = 0 then .done else .trailer 0) rest = some .done := by
  rcases rem with _ | ⟨b, rest⟩
  · cases h
  · by_cases hb : b = 10
    · subst hb
      refine ⟨rest, rfl, ?_⟩
      by_cases hk : k = 0 <;> simpa [run_cons, step, hk] using h
    · simp [run_cons, step, hb] at h

/-- The lines of a message fit `maxLine` with their `CR`. -/
structure LinesFit (maxLine : Nat) (m : Message) : Prop where
  chunk_line : ∀ c ∈ m.chunks, c.line.length + 1 < maxLine
  last_line : m.lastLine.length + 1 < maxLine
  trailer_line : ∀ t ∈ m.trailers, t.length + 1 < maxLine

theorem Message.ofSegments_linesFit {maxLine : Nat} {segs : List (List UInt8)}
    (h : ∀ s ∈ segs, (lowerHex s.length).length + 1 < maxLine) (hmax : 2 < maxLine) :
    LinesFit maxLine (Message.ofSegments segs) where
  chunk_line := by
    simp only [Message.ofSegments, List.mem_map]
    rintro c ⟨s, hs, rfl⟩
    simpa [Chunk.line] using h s hs
  last_line := by simpa [Message.lastLine, Message.ofSegments] using hmax
  trailer_line := by simp [Message.ofSegments]

/-- `sizeOf` reads every chunk-size line of a message as the size of its
    data, and the last one as `0`. -/
structure SizesRead (sizeOf : List UInt8 → Option Nat) (m : Message) : Prop where
  chunk_size : ∀ c ∈ m.chunks, sizeOf c.line = some c.data.length
  last_size : sizeOf m.lastLine = some 0

theorem run_chunk {c : Chunk} (hc : c.Wf) (hfit : c.line.length + 1 < maxLine)
    (hsize : sizeOf c.line = some c.data.length) :
    run maxLine sizeOf (.sizeLine []) c.encode = some (.sizeLine []) := by
  have hpos : 0 < c.data.length := List.length_pos_iff.2 hc.data_ne_nil
  have hline : run maxLine sizeOf (.sizeLine []) (c.line ++ [13]) = some (.sizeLineCr c.line) := by
    simpa using (run_sizeLine (l := []) hc.line_noLineEnd (by simpa using hfit) :
      run maxLine sizeOf (.sizeLine []) (c.line ++ [13]) = some (.sizeLineCr ([] ++ c.line)))
  -- the size line ends, and `sizeOf` gives the data's length
  have hhead : run maxLine sizeOf (.sizeLine []) (c.line ++ [13] ++ [10]) = some (.data c.data.length) := by
    obtain ⟨k, hk⟩ := Nat.exists_eq_succ_of_ne_zero (Nat.pos_iff_ne_zero.1 hpos)
    rw [run_append_of_eq _ _ hline]
    simp [run, step, hsize, hk]
  have hdata : run maxLine sizeOf (.sizeLine []) (c.line ++ [13] ++ [10] ++ c.data) = some .dataCr := by
    rw [run_append_of_eq _ _ hhead]
    exact run_data rfl hpos
  have henc : c.encode = c.line ++ [13] ++ [10] ++ c.data ++ [13, 10] := by
    simp [Chunk.encode, crlf]
  rw [henc, run_append_of_eq _ _ hdata]
  rfl

theorem run_chunks {cs : List Chunk} (hwf : ∀ c ∈ cs, c.Wf)
    (hfit : ∀ c ∈ cs, c.line.length + 1 < maxLine)
    (hsize : ∀ c ∈ cs, sizeOf c.line = some c.data.length) :
    run maxLine sizeOf (.sizeLine []) (cs.flatMap Chunk.encode) = some (.sizeLine []) := by
  induction cs with
  | nil => rfl
  | cons c cs ih =>
    simp only [List.mem_cons, forall_eq_or_imp] at hwf hfit hsize
    rw [List.flatMap_cons, run_append_of_eq _ _ (run_chunk hwf.1 hfit.1 hsize.1)]
    exact ih hwf.2 hfit.2 hsize.2

theorem run_trailerSection {ts : List (List UInt8)} (hwf : ∀ t ∈ ts, t ≠ [] ∧ NoLineEnd t)
    (hfit : ∀ t ∈ ts, t.length + 1 < maxLine) (hmax : 1 < maxLine) :
    run maxLine sizeOf (.trailer 0) (trailerSection ts) = some .done := by
  induction ts with
  | nil => simp [trailerSection, crlf, run, step, hmax]
  | cons t ts ih =>
    simp only [List.mem_cons, forall_eq_or_imp] at hwf hfit
    have hline : run maxLine sizeOf (.trailer 0) (t ++ [13]) = some (.trailerCr (0 + t.length)) :=
      run_trailerLine hwf.1.2 (by simpa using hfit.1)
    have hlen : t.length ≠ 0 := by simpa using hwf.1.1
    have hlf : run maxLine sizeOf (.trailerCr (0 + t.length)) [10] = some (.trailer 0) := by
      simp [run, step, hlen]
    have hsec : trailerSection (t :: ts) = (t ++ [13]) ++ [10] ++ trailerSection ts := by
      simp [trailerSection, crlf]
    rw [hsec, run_append_of_eq _ _ ((run_append_of_eq _ _ hline [10]).trans hlf)]
    exact ih hwf.2 hfit.2

theorem run_lastLine {m : Message} (hwf : m.Wf) (hfit : LinesFit maxLine m) :
    run maxLine sizeOf (.sizeLine []) (m.lastLine ++ [13]) = some (.sizeLineCr m.lastLine) := by
  simpa using (run_sizeLine (l := []) hwf.lastLine_noLineEnd (by simpa using hfit.last_line) :
    run maxLine sizeOf (.sizeLine []) (m.lastLine ++ [13]) = some (.sizeLineCr ([] ++ m.lastLine)))

/-- The data part of a message is read to the start of its trailer
    section. -/
theorem run_dataPart {m : Message} (hwf : m.Wf) (hfit : LinesFit maxLine m) (hsize : SizesRead sizeOf m) :
    run maxLine sizeOf (.sizeLine []) m.dataPart = some (.trailer 0) := by
  have hchunks : run maxLine sizeOf (.sizeLine []) (m.chunks.flatMap Chunk.encode) = some (.sizeLine []) :=
    run_chunks hwf.chunks_wf hfit.chunk_line hsize.chunk_size
  have hlf : run maxLine sizeOf (.sizeLine []) (m.lastLine ++ [13] ++ [10]) = some (.trailer 0) := by
    rw [run_append_of_eq _ _ (run_lastLine hwf hfit)]
    simp [run, step, hsize.last_size]
  rw [Message.dataPart, run_append_of_eq _ _ hchunks]
  simpa [crlf] using hlf

theorem run_encode {m : Message} (hwf : m.Wf) (hfit : LinesFit maxLine m) (hsize : SizesRead sizeOf m) :
    run maxLine sizeOf (.sizeLine []) m.encode = some .done := by
  have hmax : 1 < maxLine := by have := hfit.last_line; omega
  rw [Message.encode_eq_dataPart, run_append_of_eq _ _ (run_dataPart hwf hfit hsize)]
  exact run_trailerSection hwf.trailers_wf hfit.trailer_line hmax

/-! ### The data part is read to its end before the trailer section -/

/-- A byte read from anywhere but the start of the trailer section. -/
theorem firstArrival_single {φ : Phase} (hφ : φ ≠ .trailer 0) (b : UInt8) :
    FirstArrival maxLine sizeOf φ [b] := by
  intro k hk
  obtain rfl : k = 0 := by simpa using hk
  simpa using hφ

theorem firstArrival_sizeLine {l xs : List UInt8} (hx : NoLineEnd xs) (hlen : (l ++ xs).length < maxLine) :
    FirstArrival maxLine sizeOf (.sizeLine l) xs := by
  intro k hk
  have hpre : NoLineEnd (xs.take k) := fun b hb => hx b (List.mem_of_mem_take hb)
  rw [run_sizeLine_bytes hpre (by simp at hlen ⊢; omega)]
  simp

theorem firstArrival_data {n : Nat} {xs : List UInt8} (hn : xs.length ≤ n) :
    FirstArrival maxLine sizeOf (.data n) xs := by
  intro k hk
  rw [run_data_short (by simp; omega)]
  simp

theorem firstArrival_chunk {c : Chunk} (hc : c.Wf) (hfit : c.line.length + 1 < maxLine)
    (hsize : sizeOf c.line = some c.data.length) :
    FirstArrival maxLine sizeOf (.sizeLine []) c.encode := by
  have hpos : 0 < c.data.length := List.length_pos_iff.2 hc.data_ne_nil
  obtain ⟨k, hk⟩ := Nat.exists_eq_succ_of_ne_zero (Nat.pos_iff_ne_zero.1 hpos)
  have hline : run maxLine sizeOf (.sizeLine []) c.line = some (.sizeLine c.line) :=
    run_sizeLine_nil hc.line_noLineEnd (by omega)
  have hcr : run maxLine sizeOf (.sizeLine c.line) [13] = some (.sizeLineCr c.line) := by
    simp [run, step]; omega
  have hlf : run maxLine sizeOf (.sizeLineCr c.line) [10] = some (.data c.data.length) := by
    simp [run, step, hsize, hk]
  have hend : run maxLine sizeOf .dataCr [13] = some .dataLf := by simp [run, step]
  have henc : c.encode = c.line ++ ([13] ++ ([10] ++ (c.data ++ ([13] ++ [10])))) := by
    simp [Chunk.encode, crlf]
  -- the line, its line end, the data and the data's line end, each read
  -- from a phase of the data part
  rw [henc]
  refine firstArrival_append (firstArrival_sizeLine hc.line_noLineEnd (by simp; omega)) hline ?_
  refine firstArrival_append (firstArrival_single (by simp) 13) hcr ?_
  refine firstArrival_append (firstArrival_single (by simp) 10) hlf ?_
  refine firstArrival_append (firstArrival_data le_rfl) (run_data rfl hpos) ?_
  exact firstArrival_append (firstArrival_single (by simp) 13) hend (firstArrival_single (by simp) 10)

theorem firstArrival_chunks {cs : List Chunk} (hwf : ∀ c ∈ cs, c.Wf)
    (hfit : ∀ c ∈ cs, c.line.length + 1 < maxLine)
    (hsize : ∀ c ∈ cs, sizeOf c.line = some c.data.length) :
    FirstArrival maxLine sizeOf (.sizeLine []) (cs.flatMap Chunk.encode) := by
  induction cs with
  | nil => exact firstArrival_nil _
  | cons c cs ih =>
    simp only [List.mem_cons, forall_eq_or_imp] at hwf hfit hsize
    rw [List.flatMap_cons]
    exact firstArrival_append (firstArrival_chunk hwf.1 hfit.1 hsize.1)
      (run_chunk hwf.1 hfit.1 hsize.1) (ih hwf.2 hfit.2 hsize.2)

/-- A well-formed message reaches the start of its trailer section at the
    end of its data part, and not before. -/
theorem firstArrival_dataPart {m : Message} (hwf : m.Wf) (hfit : LinesFit maxLine m)
    (hsize : SizesRead sizeOf m) :
    FirstArrival maxLine sizeOf (.sizeLine []) m.dataPart := by
  have hlast : FirstArrival maxLine sizeOf (.sizeLine []) (m.lastLine ++ ([13] ++ [10])) := by
    have hline : run maxLine sizeOf (.sizeLine []) m.lastLine = some (.sizeLine m.lastLine) :=
      run_sizeLine_nil hwf.lastLine_noLineEnd (by have := hfit.last_line; omega)
    refine firstArrival_append (firstArrival_sizeLine hwf.lastLine_noLineEnd
      (by have := hfit.last_line; simp; omega)) hline ?_
    have hcr : run maxLine sizeOf (.sizeLine m.lastLine) [13] = some (.sizeLineCr m.lastLine) := by
      have := hfit.last_line
      simp [run, step]; omega
    exact firstArrival_append (firstArrival_single (by simp) 13) hcr (firstArrival_single (by simp) 10)
  rw [Message.dataPart]
  refine firstArrival_append (firstArrival_chunks hwf.chunks_wf hfit.chunk_line hsize.chunk_size)
    (run_chunks hwf.chunks_wf hfit.chunk_line hsize.chunk_size) ?_
  simpa [crlf] using hlast

/-! ### The data a message carries -/

theorem decoded_sizeLine_bytes {l xs : List UInt8} (hx : NoLineEnd xs) (hlen : (l ++ xs).length < maxLine) :
    decoded maxLine sizeOf (.sizeLine l) xs = [] := by
  induction xs generalizing l with
  | nil => rfl
  | cons b xs ih =>
    have hb := hx b (List.mem_cons_self ..)
    have hl : l.length + 1 < maxLine := by simp at hlen; omega
    have ih' := ih (l := l ++ [b]) (fun c hc => hx c (List.mem_cons_of_mem _ hc)) (by simpa using hlen)
    simp only [decoded, step, if_pos hl, if_neg hb.1, if_neg hb.2]
    simpa using ih'

/-- Only the bytes read in a `data` phase are data. -/
theorem decoded_single {φ : Phase} (hφ : ∀ n, φ ≠ .data n) (b : UInt8) :
    decoded maxLine sizeOf φ [b] = [] := by
  cases φ <;> simp at hφ <;> simp only [decoded] <;> split <;> rfl

theorem decoded_chunk {c : Chunk} (hc : c.Wf) (hfit : c.line.length + 1 < maxLine)
    (hsize : sizeOf c.line = some c.data.length) :
    decoded maxLine sizeOf (.sizeLine []) c.encode = c.data := by
  have hpos : 0 < c.data.length := List.length_pos_iff.2 hc.data_ne_nil
  obtain ⟨k, hk⟩ := Nat.exists_eq_succ_of_ne_zero (Nat.pos_iff_ne_zero.1 hpos)
  have hline : run maxLine sizeOf (.sizeLine []) c.line = some (.sizeLine c.line) :=
    run_sizeLine_nil hc.line_noLineEnd (by omega)
  have hcr : run maxLine sizeOf (.sizeLine c.line) [13] = some (.sizeLineCr c.line) := by
    simp [run, step]; omega
  have hlf : run maxLine sizeOf (.sizeLineCr c.line) [10] = some (.data c.data.length) := by
    simp [run, step, hsize, hk]
  have henc : c.encode = c.line ++ ([13] ++ ([10] ++ (c.data ++ ([13] ++ [10])))) := by
    simp [Chunk.encode, crlf]
  rw [henc, decoded_append _ _ hline, decoded_append _ _ hcr, decoded_append _ _ hlf,
    decoded_append _ _ (run_data rfl hpos), decoded_append _ _ (by simp [run, step] : run maxLine sizeOf .dataCr [13] = some .dataLf),
    decoded_sizeLine_bytes hc.line_noLineEnd (by simp; omega), decoded_data rfl]
  simp [decoded_single]

theorem decoded_chunks {cs : List Chunk} (hwf : ∀ c ∈ cs, c.Wf)
    (hfit : ∀ c ∈ cs, c.line.length + 1 < maxLine)
    (hsize : ∀ c ∈ cs, sizeOf c.line = some c.data.length) :
    decoded maxLine sizeOf (.sizeLine []) (cs.flatMap Chunk.encode) = cs.flatMap Chunk.data := by
  induction cs with
  | nil => rfl
  | cons c cs ih =>
    simp only [List.mem_cons, forall_eq_or_imp] at hwf hfit hsize
    rw [List.flatMap_cons, decoded_append _ _ (run_chunk hwf.1 hfit.1 hsize.1),
      decoded_chunk hwf.1 hfit.1 hsize.1, ih hwf.2 hfit.2 hsize.2, List.flatMap_cons]

/-- The data bytes of a message's data part are its body. -/
theorem decoded_dataPart {m : Message} (hwf : m.Wf) (hfit : LinesFit maxLine m)
    (hsize : SizesRead sizeOf m) :
    decoded maxLine sizeOf (.sizeLine []) m.dataPart = m.body := by
  have hline : run maxLine sizeOf (.sizeLine []) m.lastLine = some (.sizeLine m.lastLine) :=
    run_sizeLine_nil hwf.lastLine_noLineEnd (by have := hfit.last_line; omega)
  have hcr : run maxLine sizeOf (.sizeLine m.lastLine) [13] = some (.sizeLineCr m.lastLine) := by
    have := hfit.last_line
    simp [run, step]; omega
  have hlast : m.lastLine ++ crlf = m.lastLine ++ ([13] ++ [10]) := by simp [crlf]
  rw [Message.dataPart, decoded_append _ _ (run_chunks hwf.chunks_wf hfit.chunk_line hsize.chunk_size),
    decoded_chunks hwf.chunks_wf hfit.chunk_line hsize.chunk_size, hlast, decoded_append _ _ hline,
    decoded_append _ _ hcr, decoded_sizeLine_bytes hwf.lastLine_noLineEnd (by have := hfit.last_line; simp; omega)]
  simp [decoded_single, Message.body]

end Parts

end Recognizer

end ChunkedCoding
