/-
  The standard library's text of IP addresses: `Display` and `FromStr` of
  `Ipv4Addr` and `Ipv6Addr`.

  * `ipv4Display` writes the four bytes in decimal with dots between them;
    `ipv4FromStr` splits at the dots and reads four decimal bytes.
  * `ipv6Display` writes an IPv4-mapped address as `::ffff:` and its dotted
    quad, and any other as its eight groups in lowercase hexadecimal without
    leading zeros (`fmtSubslice`), the first longest run of two or more zero
    groups (`zeroSpan`) written `::`.  `ipv6FromStr` reads such a text back:
    the parts before and after the first `::` (`splitDoubleColon`), their
    colon-separated groups, the last of which may be a dotted quad, and
    zeros for the groups `::` stands for.
  * `ipv4FromStr_ipv4Display` and `ipv6FromStr_ipv6Display`: each text reads
    back as the address.  The texts are made of digits, hexadecimal letters,
    dots and colons (`AddrChar`), and are at most 15 and 39 characters long.
-/
import G3Proxy.Net.Host
import G3Proxy.Http.Header
import G3Proxy.Core.Hex

namespace G3Proxy

theorem decimalValue_toDigits (n : Nat) : decimalValue (Nat.toDigits 10 n) = some n := by
  unfold decimalValue
  rw [if_pos ⟨Nat.toDigits_ne_nil, List.all_eq_true.2 fun c hc =>
    Nat.isDigit_of_mem_toDigits (by decide) (by decide) hc⟩]
  exact congrArg some Nat.ofDigitChars_ten_toDigits

namespace AddrText

/-! ## Characters -/

/-- The characters of an address text: `.`, digits, `:`, and the
    hexadecimal letters of either case. -/
def AddrChar (c : Char) : Prop :=
  c.toNat = 46 ∨ (48 ≤ c.toNat ∧ c.toNat ≤ 58) ∨ (65 ≤ c.toNat ∧ c.toNat ≤ 70) ∨
    (97 ≤ c.toNat ∧ c.toNat ≤ 102)

/-- They are ASCII, and neither a space nor a line feed. -/
theorem AddrChar.ascii {c : Char} (h : AddrChar c) : c.toNat < 128 ∧ c ≠ ' ' ∧ c ≠ '\n' := by
  have hne : ∀ d : Char, c.toNat ≠ d.toNat → c ≠ d := fun d hd e => hd (congrArg Char.toNat e)
  unfold AddrChar at h
  refine ⟨by omega, hne ' ' ?_, hne '\n' ?_⟩
  · show c.toNat ≠ 32
    omega
  · show c.toNat ≠ 10
    omega

theorem addrChar_of_isDigit {c : Char} (h : c.isDigit = true) : AddrChar c := by
  simp only [Char.isDigit, Bool.and_eq_true, decide_eq_true_eq] at h
  have h₁ : 48 ≤ c.toNat := h.1
  have h₂ : c.toNat ≤ 57 := h.2
  exact .inr (.inl ⟨h₁, by omega⟩)

/-! ## Numerals -/

/-- `{}` of a number: its decimal digits. -/
def decimal (n : Nat) : List Char := Nat.toDigits 10 n

/-- A byte read from a decimal field. -/
def byteFromStr (s : List Char) : Option UInt8 :=
  (decimalValue s).bind fun n => if n < 256 then some n.toUInt8 else none

theorem byteFromStr_decimal (b : UInt8) : byteFromStr (decimal b.toNat) = some b := by
  simp [byteFromStr, decimal, decimalValue_toDigits, b.toNat_lt]

theorem isDigit_of_mem_decimal {n : Nat} {c : Char} (hc : c ∈ decimal n) : c.isDigit = true :=
  Nat.isDigit_of_mem_toDigits (by decide) (by decide) hc

theorem length_decimal_le {n : Nat} (h : n < 256) : (decimal n).length ≤ 3 :=
  Nat.toDigits_length 10 n 3 (by decide) (by omega)

/-- A byte as a character. -/
def byteChar (b : UInt8) : Char := Char.ofNat b.toNat

/-- A character as a byte. -/
def charByte (c : Char) : UInt8 := c.toNat.toUInt8

@[simp] theorem charByte_byteChar (b : UInt8) : charByte (byteChar b) = b := by
  have hb := b.toNat_lt
  have hv : (Char.ofNat b.toNat).toNat = b.toNat := by
    rw [Char.toNat_ofNat, if_pos (Or.inl (by omega))]
  simp [charByte, byteChar, hv]

/-- `{:x}` of a number: its lowercase hexadecimal digits, as characters. -/
def hex (n : Nat) : List Char := (Hex.lowerHex n).map byteChar

/-- A hexadecimal group: one to four ASCII digits. -/
def groupFromStr (g : List Char) : Option Nat :=
  if g ≠ [] ∧ g.length ≤ 4 ∧ g.all (fun c => c.toNat < 128 && Hex.isHexDigit (charByte c)) then
    some (Hex.hexValue (g.map charByte))
  else none

theorem map_charByte_hex (n : Nat) : (hex n).map charByte = Hex.lowerHex n := by
  simp [hex, Function.comp_def]

theorem hex_ne_nil (n : Nat) : hex n ≠ [] := by
  simpa [hex] using Hex.lowerHex_ne_nil n

theorem length_hex_le {n : Nat} (h : n < 2 ^ 16) : (hex n).length ≤ 4 := by
  simpa [hex] using Hex.lowerHex_length_le (k := 4) (by simpa using h) (by decide)

/-- The digits of a hexadecimal numeral, as characters. -/
theorem hexDigit_of_mem_hex {n : Nat} {c : Char} (hc : c ∈ hex n) :
    c.toNat < 128 ∧ Hex.isHexDigit (charByte c) = true ∧ AddrChar c := by
  obtain ⟨b, hb, rfl⟩ := List.mem_map.1 hc
  have hd := Hex.lowerHex_hex n b hb
  have hv : (byteChar b).toNat = b.toNat := by
    have := b.toNat_lt
    rw [byteChar, Char.toNat_ofNat, if_pos (Or.inl (by omega))]
  -- a hexadecimal digit is one of three ranges of ASCII
  have hr : (48 ≤ b.toNat ∧ b.toNat ≤ 57) ∨ (97 ≤ b.toNat ∧ b.toNat ≤ 102) ∨
      (65 ≤ b.toNat ∧ b.toNat ≤ 70) := by
    simp only [Hex.isHexDigit, Bool.or_eq_true, Bool.and_eq_true, decide_eq_true_eq] at hd
    rcases hd with (⟨h₁, h₂⟩ | ⟨h₁, h₂⟩) | ⟨h₁, h₂⟩
    · exact .inl ⟨UInt8.le_iff_toNat_le.1 h₁, UInt8.le_iff_toNat_le.1 h₂⟩
    · exact .inr (.inl ⟨UInt8.le_iff_toNat_le.1 h₁, UInt8.le_iff_toNat_le.1 h₂⟩)
    · exact .inr (.inr ⟨UInt8.le_iff_toNat_le.1 h₁, UInt8.le_iff_toNat_le.1 h₂⟩)
  refine ⟨by rw [hv]; omega, by simpa using hd, ?_⟩
  unfold AddrChar
  rw [hv]
  omega

theorem groupFromStr_hex {n : Nat} (h : n < 2 ^ 16) : groupFromStr (hex n) = some n := by
  have hall : (hex n).all (fun c => c.toNat < 128 && Hex.isHexDigit (charByte c)) = true :=
    List.all_eq_true.2 fun c hc => by
      obtain ⟨h₁, h₂, -⟩ := hexDigit_of_mem_hex hc
      simp [h₁, h₂]
  rw [groupFromStr, if_pos ⟨hex_ne_nil n, length_hex_le h, hall⟩, map_charByte_hex,
    Hex.hexValue_lowerHex]

theorem colon_not_mem_hex (n : Nat) : ':' ∉ hex n := fun h => by
  have := (hexDigit_of_mem_hex h).2.1
  revert this
  decide

theorem dot_not_mem_hex (n : Nat) : '.' ∉ hex n := fun h => by
  have := (hexDigit_of_mem_hex h).2.1
  revert this
  decide

/-! ## IPv4 -/

/-- `Display` of `Ipv4Addr`: `{}.{}.{}.{}` of the four bytes. -/
def ipv4Display (a : Vector UInt8 4) : List Char :=
  ['.'].intercalate (a.toList.map fun b => decimal b.toNat)

/-- `FromStr` of `Ipv4Addr`: four decimal bytes separated by dots. -/
def ipv4FromStr (s : List Char) : Option (Vector UInt8 4) :=
  match s.splitOn '.' with
  | [p, q, r, t] =>
    (byteFromStr p).bind fun a => (byteFromStr q).bind fun b =>
      (byteFromStr r).bind fun c => (byteFromStr t).map fun d => #[a, b, c, d].toVector
  | _ => none

theorem ipv4Display_eq (w x y z : UInt8) :
    ipv4Display #v[w, x, y, z] =
      decimal w.toNat ++ '.' :: decimal x.toNat ++ '.' :: decimal y.toNat ++ '.' ::
        decimal z.toNat := by
  simp [ipv4Display, List.intercalate_cons_cons]

theorem ipv4FromStr_ipv4Display (a : Vector UInt8 4) : ipv4FromStr (ipv4Display a) = some a := by
  obtain ⟨⟨l⟩, hl⟩ := a
  match l, hl with
  | [w, x, y, z], _ =>
    -- the decimal fields hold no dot, so the split gives them back
    have hsplit : (ipv4Display #v[w, x, y, z]).splitOn '.' =
        [decimal w.toNat, decimal x.toNat, decimal y.toNat, decimal z.toNat] :=
      List.splitOn_intercalate '.' (fun f hf hdot => by
        simp only [Vector.toList_mk, List.map_cons, List.map_nil, List.mem_cons,
          List.not_mem_nil, or_false] at hf
        rcases hf with rfl | rfl | rfl | rfl <;> exact absurd (isDigit_of_mem_decimal hdot) (by decide))
        (by simp)
    show ipv4FromStr (ipv4Display #v[w, x, y, z]) = some #v[w, x, y, z]
    simp [ipv4FromStr, hsplit, byteFromStr_decimal]

theorem mem_ipv4Display {a : Vector UInt8 4} {c : Char} (hc : c ∈ ipv4Display a) :
    c = '.' ∨ c.isDigit = true := by
  obtain ⟨⟨l⟩, hl⟩ := a
  match l, hl with
  | [w, x, y, z], _ =>
    change c ∈ ipv4Display #v[w, x, y, z] at hc
    simp only [ipv4Display_eq, List.mem_append, List.mem_cons] at hc
    rcases hc with (((h | rfl | h) | rfl | h) | rfl | h) <;>
      first | exact .inl rfl | exact .inr (isDigit_of_mem_decimal h)

theorem addrChar_of_mem_ipv4Display {a : Vector UInt8 4} {c : Char} (hc : c ∈ ipv4Display a) :
    AddrChar c := by
  rcases mem_ipv4Display hc with rfl | h
  · exact .inl rfl
  · exact addrChar_of_isDigit h

theorem colon_not_mem_ipv4Display (a : Vector UInt8 4) : ':' ∉ ipv4Display a := fun h => by
  rcases mem_ipv4Display h with h | h <;> revert h <;> decide

theorem dot_mem_ipv4Display (a : Vector UInt8 4) : '.' ∈ ipv4Display a := by
  obtain ⟨⟨l⟩, hl⟩ := a
  match l, hl with
  | [w, x, y, z], _ => simp [ipv4Display_eq]

theorem length_ipv4Display_le (a : Vector UInt8 4) : (ipv4Display a).length ≤ 15 := by
  obtain ⟨⟨l⟩, hl⟩ := a
  match l, hl with
  | [w, x, y, z], _ =>
    change (ipv4Display #v[w, x, y, z]).length ≤ 15
    have hw := length_decimal_le w.toNat_lt
    have hx := length_decimal_le x.toNat_lt
    have hy := length_decimal_le y.toNat_lt
    have hz := length_decimal_le z.toNat_lt
    simp only [ipv4Display_eq, List.length_append, List.length_cons]
    omega

/-! ## IPv6 groups -/

/-- `segments`: the 16-bit groups of the bytes, most significant byte first. -/
def segments : List UInt8 → List Nat
  | x :: y :: r => (x.toNat * 256 + y.toNat) :: segments r
  | _ => []

/-- The bytes of 16-bit groups, as `Ipv6Addr::from` lays them out. -/
def ofSegments : List Nat → List UInt8
  | g :: r => (g / 256).toUInt8 :: (g % 256).toUInt8 :: ofSegments r
  | [] => []

theorem ofSegments_segments : ∀ l : List UInt8, l.length % 2 = 0 → ofSegments (segments l) = l
  | [], _ => rfl
  | [_], h => by simp at h
  | x :: y :: r, h => by
    have hy := y.toNat_lt
    have hr : r.length % 2 = 0 := by simp at h; omega
    have hdiv : (x.toNat * 256 + y.toNat) / 256 = x.toNat := by omega
    have hmod : (x.toNat * 256 + y.toNat) % 256 = y.toNat := by omega
    simp [segments, ofSegments, hdiv, hmod, ofSegments_segments r hr]

theorem length_segments : ∀ l : List UInt8, (segments l).length = l.length / 2
  | [] => rfl
  | [_] => by simp [segments]
  | x :: y :: r => by simp [segments, length_segments r]; omega

theorem segments_lt : ∀ {l : List UInt8}, ∀ g ∈ segments l, g < 2 ^ 16
  | [], _, h => by simp [segments] at h
  | [_], _, h => by simp [segments] at h
  | x :: y :: r, g, h => by
    simp only [segments, List.mem_cons] at h
    rcases h with rfl | h
    · have := x.toNat_lt
      have := y.toNat_lt
      omega
    · exact segments_lt g h

/-- A run of groups: where it starts and how many groups it has. -/
structure Span where
  start : Nat
  len : Nat

/-- One round of the loop of `Ipv6Addr`'s `Display` that finds the inner
    zero span: the longest run so far and the run the group `seg` at `i`
    ends. -/
def zeroSpanStep (st : Span × Span) (x : Nat × Nat) : Span × Span :=
  let (longest, current) := st
  let (seg, i) := x
  if seg = 0 then
    let current : Span := if current.len = 0 then ⟨i, 1⟩ else ⟨current.start, current.len + 1⟩
    (if current.len > longest.len then current else longest, current)
  else (longest, ⟨0, 0⟩)

/-- The first longest run of zero groups. -/
def zeroSpan (segs : List Nat) : Span :=
  (segs.zipIdx.foldl zeroSpanStep (⟨0, 0⟩, ⟨0, 0⟩)).1

/-- `fmt_subslice`: the groups in hexadecimal, separated by colons. -/
def fmtSubslice : List Nat → List Char
  | [] => []
  | g :: gs => hex g ++ gs.flatMap fun s => ':' :: hex s

/-- `Display` of `Ipv6Addr`. -/
def ipv6Display (a : Vector UInt8 16) : List Char :=
  match toIpv4Mapped a with
  | some v4 => "::ffff:".toList ++ ipv4Display v4
  | none =>
    let segs := segments a.toList
    let zeroes := zeroSpan segs
    if zeroes.len > 1 then
      fmtSubslice (segs.take zeroes.start) ++ "::".toList ++
        fmtSubslice (segs.drop (zeroes.start + zeroes.len))
    else fmtSubslice segs

/-- The text before and after the first `::`. -/
def splitDoubleColon : List Char → Option (List Char × List Char)
  | [] => none
  | c :: r =>
    if c = ':' ∧ r.head? = some ':' then some ([], r.drop 1)
    else (splitDoubleColon r).map fun p => (c :: p.1, p.2)

/-- Colon-separated fields of groups; the last may be a dotted quad, which
    stands for two groups. -/
def groupsFromFields : List (List Char) → Option (List Nat)
  | [] => some []
  | f :: fs =>
    if fs = [] ∧ '.' ∈ f then (ipv4FromStr f).map fun v => segments v.toList
    else (groupFromStr f).bind fun g => (groupsFromFields fs).map (g :: ·)

/-- The groups of a part of an address text; the empty part has none. -/
def groupsFromStr (s : List Char) : Option (List Nat) :=
  if s = [] then some [] else groupsFromFields (s.splitOn ':')

/-- The groups of an IPv6 text: eight groups, or the groups before and
    after a `::`, which stands for the zero groups between them. -/
def ipv6Segments (s : List Char) : Option (List Nat) :=
  match splitDoubleColon s with
  | none => (groupsFromStr s).filter fun gs => gs.length == 8
  | some (l, r) => (groupsFromStr l).bind fun gl => (groupsFromStr r).bind fun gr =>
    if gl.length + gr.length < 8 then
      some (gl ++ List.replicate (8 - (gl.length + gr.length)) 0 ++ gr)
    else none

/-- `FromStr` of `Ipv6Addr`: the bytes of the groups. -/
def ipv6FromStr (s : List Char) : Option (Vector UInt8 16) :=
  (ipv6Segments s).bind fun segs =>
    if h : (ofSegments segs).length = 16 then some ⟨(ofSegments segs).toArray, by simpa using h⟩
    else none

/-! ## The zero span -/

/-- `sp` is empty, or a run of zero groups among the first `n`. -/
def ZeroRun (segs : List Nat) (n : Nat) (sp : Span) : Prop :=
  sp.len = 0 ∨ (sp.start + sp.len ≤ n ∧ ∀ j, sp.start ≤ j → j < sp.start + sp.len → segs[j]? = some 0)

theorem ZeroRun.mono {segs : List Nat} {n m : Nat} {sp : Span} (h : ZeroRun segs n sp)
    (hnm : n ≤ m) : ZeroRun segs m sp := by
  rcases h with h | ⟨hle, hz⟩
  · exact .inl h
  · exact .inr ⟨by omega, hz⟩

/-- What the loop keeps after the first `n` groups: the longest run and the
    current one are runs of zeros, and the current one ends at `n`. -/
structure SpanInv (segs : List Nat) (n : Nat) (st : Span × Span) : Prop where
  longest : ZeroRun segs n st.1
  current : ZeroRun segs n st.2
  current_end : st.2.len = 0 ∨ st.2.start + st.2.len = n

/-- One round keeps the invariant. -/
theorem SpanInv.step {segs : List Nat} {n seg : Nat} {st : Span × Span} (hi : SpanInv segs n st)
    (hn : segs[n]? = some seg) : SpanInv segs (n + 1) (zeroSpanStep st (seg, n)) := by
  obtain ⟨longest, current⟩ := st
  by_cases h0 : seg = 0
  · subst h0
    simp only [zeroSpanStep, ↓reduceIte]
    generalize hc : (if current.len = 0 then (⟨n, 1⟩ : Span) else ⟨current.start, current.len + 1⟩) =
      cur
    -- the zero group ends the current run, or starts one
    have hcur : ZeroRun segs (n + 1) cur ∧ cur.start + cur.len = n + 1 := by
      split_ifs at hc with h
      · subst hc
        refine ⟨.inr ⟨le_refl _, fun j hj hj' => ?_⟩, rfl⟩
        rw [show j = n by simp only at hj hj'; omega]
        exact hn
      · subst hc
        have hend : current.start + current.len = n := hi.current_end.resolve_left h
        have hz : ∀ j, current.start ≤ j → j < current.start + current.len → segs[j]? = some 0 :=
          (hi.current.resolve_left h).2
        refine ⟨.inr ⟨by simp only; omega, fun j hj hj' => ?_⟩, by simp only; omega⟩
        simp only at hj hj'
        by_cases hjn : j = n
        · rw [hjn]; exact hn
        · exact hz j hj (by omega)
    refine ⟨?_, hcur.1, .inr hcur.2⟩
    split_ifs
    · exact hcur.1
    · exact hi.longest.mono (Nat.le_succ n)
  · simp only [zeroSpanStep, if_neg h0]
    exact ⟨hi.longest.mono (Nat.le_succ n), .inl rfl, .inl rfl⟩

/-- The loop over the groups from `k` on keeps the invariant. -/
theorem spanInv_foldl (segs : List Nat) :
    ∀ (l : List Nat) (k : Nat) (st : Span × Span), segs.drop k = l → SpanInv segs k st →
      SpanInv segs (k + l.length) ((l.zipIdx k).foldl zeroSpanStep st)
  | [], k, st, _, hi => hi
  | x :: l, k, st, hl, hi => by
    have hx : segs[k]? = some x := by
      rw [← List.head?_drop, hl]
      rfl
    have hl' : segs.drop (k + 1) = l := by
      rw [← List.drop_drop, hl]
      rfl
    rw [List.zipIdx_cons, List.foldl_cons, List.length_cons, Nat.add_comm l.length 1,
      ← Nat.add_assoc]
    exact spanInv_foldl segs l (k + 1) _ hl' (hi.step hx)

theorem zeroSpan_zeroRun (segs : List Nat) : ZeroRun segs segs.length (zeroSpan segs) := by
  have h := spanInv_foldl segs segs 0 (⟨0, 0⟩, ⟨0, 0⟩) rfl ⟨.inl rfl, .inl rfl, .inl rfl⟩
  rw [Nat.zero_add] at h
  exact h.longest

/-- Groups with a run of zeros are the groups before it, the zeros, and the
    groups after it. -/
theorem take_replicate_drop {segs : List Nat} {sp : Span} (h : ZeroRun segs segs.length sp) :
    segs.take sp.start ++ List.replicate sp.len 0 ++ segs.drop (sp.start + sp.len) = segs := by
  rcases h with h | ⟨hle, hz⟩
  · simp [h]
  apply List.ext_getElem?
  intro j
  rcases Nat.lt_or_ge j sp.start with hj | hj
  · rw [List.append_assoc, List.getElem?_append_left (by simp; omega), List.getElem?_take_of_lt hj]
  rcases Nat.lt_or_ge j (sp.start + sp.len) with hj' | hj'
  · rw [List.getElem?_append_left (by simp; omega), List.getElem?_append_right (by simp; omega),
      hz j hj hj', List.getElem?_replicate_of_lt (by simp; omega)]
  · rw [List.getElem?_append_right (by simp; omega), List.getElem?_drop]
    congr 1
    simp
    omega

/-! ## Reading the groups back -/

theorem fmtSubslice_eq_intercalate : ∀ gs : List Nat, fmtSubslice gs = [':'].intercalate (gs.map hex)
  | [] => rfl
  | [g] => by simp [fmtSubslice]
  | g :: g' :: gs => by
    rw [List.map_cons, List.map_cons, List.intercalate_cons_cons, ← List.map_cons,
      ← fmtSubslice_eq_intercalate (g' :: gs)]
    simp [fmtSubslice]

theorem splitDoubleColon_append {w : List Char} (hw : ':' ∉ w) (t : List Char) :
    splitDoubleColon (w ++ t) = (splitDoubleColon t).map fun p => (w ++ p.1, p.2) := by
  induction w with
  | nil => simp
  | cons c w ih =>
    have hc : c ≠ ':' := fun h => hw (h ▸ List.mem_cons_self)
    rw [List.cons_append, splitDoubleColon, if_neg (fun h => hc h.1),
      ih (fun h => hw (List.mem_cons_of_mem c h)), Option.map_map]
    rfl

/-- Before the first `::` of a text that starts with groups come all of
    them: a group is never empty and holds no colon. -/
theorem splitDoubleColon_fmtSubslice_append (gs : List Nat) (t : List Char) :
    splitDoubleColon (fmtSubslice gs ++ t) =
      (splitDoubleColon t).map fun p => (fmtSubslice gs ++ p.1, p.2) := by
  -- the colon before a group is followed by the group's first digit
  have htail : ∀ (ss : List Nat) (t : List Char),
      splitDoubleColon (ss.flatMap (fun s => ':' :: hex s) ++ t) =
        (splitDoubleColon t).map fun p => (ss.flatMap (fun s => ':' :: hex s) ++ p.1, p.2) := by
    intro ss t
    induction ss with
    | nil => simp
    | cons s ss ih =>
      obtain ⟨c, cs, hcs⟩ := List.exists_cons_of_ne_nil (hex_ne_nil s)
      have hc : c ≠ ':' := fun h => colon_not_mem_hex s (hcs ▸ h ▸ List.mem_cons_self)
      have heq : (s :: ss).flatMap (fun s => ':' :: hex s) ++ t =
          ':' :: c :: (cs ++ (ss.flatMap (fun s => ':' :: hex s) ++ t)) := by
        simp [hcs]
      rw [heq, splitDoubleColon, if_neg (fun h => hc (Option.some.inj h.2)), ← List.cons_append,
        ← hcs, splitDoubleColon_append (colon_not_mem_hex s), ih, Option.map_map, Option.map_map]
      congr 1
      funext p
      simp
  cases gs with
  | nil => simp [fmtSubslice]
  | cons g gs =>
    rw [fmtSubslice, List.append_assoc, splitDoubleColon_append (colon_not_mem_hex g), htail,
      Option.map_map]
    congr 1
    funext p
    simp

theorem groupsFromFields_map_hex : ∀ {gs : List Nat}, (∀ g ∈ gs, g < 2 ^ 16) →
    groupsFromFields (gs.map hex) = some gs
  | [], _ => rfl
  | g :: gs, h => by
    rw [List.map_cons, groupsFromFields, if_neg (fun h' => dot_not_mem_hex g h'.2),
      groupFromStr_hex (h g List.mem_cons_self),
      groupsFromFields_map_hex fun g' hg' => h g' (List.mem_cons_of_mem g hg')]
    rfl

/-- The groups of a text of groups are read back. -/
theorem groupsFromStr_fmtSubslice {gs : List Nat} (h : ∀ g ∈ gs, g < 2 ^ 16) :
    groupsFromStr (fmtSubslice gs) = some gs := by
  cases gs with
  | nil => rfl
  | cons g gs =>
    have hne : fmtSubslice (g :: gs) ≠ [] := by simp [fmtSubslice, hex_ne_nil]
    have hsplit : (fmtSubslice (g :: gs)).splitOn ':' = (g :: gs).map hex := by
      rw [fmtSubslice_eq_intercalate]
      exact List.splitOn_intercalate ':' (fun f hf => by
        obtain ⟨s, -, rfl⟩ := List.mem_map.1 hf
        exact colon_not_mem_hex s) (by simp)
    rw [groupsFromStr, if_neg hne, hsplit, groupsFromFields_map_hex h]

/-! ## Round trips -/

theorem toList_of_toIpv4Mapped {a : Vector UInt8 16} {v4 : Vector UInt8 4}
    (h : toIpv4Mapped a = some v4) :
    a.toList = [0, 0, 0, 0, 0, 0, 0, 0, 0, 0, 0xff, 0xff] ++ v4.toList := by
  unfold toIpv4Mapped at h
  split at h
  · rename_i w x y z heq
    cases h
    rw [heq]
    rfl
  · cases h

/-- The mapped address: `::`, then `ffff` and the dotted quad. -/
theorem ipv6Segments_mapped (v4 : Vector UInt8 4) :
    ipv6Segments ("::ffff:".toList ++ ipv4Display v4) =
      some ([0, 0, 0, 0, 0, 0xffff] ++ segments v4.toList) := by
  have hsplit : splitDoubleColon ("::ffff:".toList ++ ipv4Display v4) =
      some ([], "ffff".toList ++ ':' :: ipv4Display v4) := rfl
  -- the part after `::` is the group `ffff` and the dotted quad
  have hfields : ("ffff".toList ++ ':' :: ipv4Display v4).splitOn ':' =
      ["ffff".toList, ipv4Display v4] := by
    have := @List.splitOn_intercalate Char ["ffff".toList, ipv4Display v4] _ _ ':'
      (fun f hf => by
        simp only [List.mem_cons, List.not_mem_nil, or_false] at hf
        rcases hf with rfl | rfl
        · decide
        · exact colon_not_mem_ipv4Display v4) (by simp)
    simpa [List.intercalate_cons_cons] using this
  have hlast : groupsFromFields [ipv4Display v4] = some (segments v4.toList) := by
    rw [groupsFromFields, if_pos ⟨rfl, dot_mem_ipv4Display v4⟩, ipv4FromStr_ipv4Display]
    rfl
  have hgroups : groupsFromStr ("ffff".toList ++ ':' :: ipv4Display v4) =
      some (0xffff :: segments v4.toList) := by
    rw [groupsFromStr, if_neg (by simp), hfields, groupsFromFields,
      if_neg (fun h => absurd h.1 (by simp)), show groupFromStr "ffff".toList = some 0xffff by decide,
      hlast]
    rfl
  have hlen : (segments v4.toList).length = 2 := by simp [length_segments]
  rw [ipv6Segments, hsplit]
  dsimp only
  rw [show groupsFromStr [] = some [] from rfl, Option.bind_some, hgroups, Option.bind_some,
    if_pos (by simp [hlen])]
  simp [hlen]

/-- The groups of an address are read back from its text. -/
theorem ipv6Segments_ipv6Display (a : Vector UInt8 16) :
    ipv6Segments (ipv6Display a) = some (segments a.toList) := by
  unfold ipv6Display
  cases hm : toIpv4Mapped a with
  | some v4 =>
    rw [ipv6Segments_mapped, toList_of_toIpv4Mapped hm]
    simp [segments]
  | none =>
    set gs := segments a.toList
    have hlen : gs.length = 8 := by simp [gs, length_segments]
    have hlt : ∀ g ∈ gs, g < 2 ^ 16 := fun g hg => segments_lt g hg
    dsimp only
    split_ifs with hz
    · -- `::` stands for the zero span
      have hrun := zeroSpan_zeroRun gs
      obtain ⟨hle, -⟩ := hrun.resolve_left (by omega)
      set z := zeroSpan gs
      have hsplit := splitDoubleColon_fmtSubslice_append (gs.take z.start)
        ("::".toList ++ fmtSubslice (gs.drop (z.start + z.len)))
      rw [show splitDoubleColon ("::".toList ++ fmtSubslice (gs.drop (z.start + z.len))) =
          some ([], fmtSubslice (gs.drop (z.start + z.len))) from rfl] at hsplit
      rw [ipv6Segments, List.append_assoc, hsplit]
      simp only [Option.map_some, List.append_nil, Option.bind_some,
        groupsFromStr_fmtSubslice (fun g hg => hlt g (List.mem_of_mem_take hg)),
        groupsFromStr_fmtSubslice (fun g hg => hlt g (List.mem_of_mem_drop hg)),
        List.length_take, List.length_drop, hlen]
      rw [if_pos (by omega), show 8 - (min z.start 8 + (8 - (z.start + z.len))) = z.len by omega]
      rw [take_replicate_drop hrun]
    · -- eight groups, no `::`
      have hnone : splitDoubleColon (fmtSubslice (segments a.toList)) = none := by
        simpa [splitDoubleColon] using splitDoubleColon_fmtSubslice_append (segments a.toList) []
      rw [ipv6Segments, hnone]
      simp [groupsFromStr_fmtSubslice hlt, hlen]

theorem ipv6FromStr_ipv6Display (a : Vector UInt8 16) : ipv6FromStr (ipv6Display a) = some a := by
  have hb : ofSegments (segments a.toList) = a.toList := ofSegments_segments _ (by simp)
  rw [ipv6FromStr, ipv6Segments_ipv6Display, Option.bind_some, dif_pos (by rw [hb]; simp)]
  congr 1
  apply Vector.toList_inj.1
  simp [hb]

/-! ## The characters and the length of the texts -/

theorem addrChar_of_mem_fmtSubslice {gs : List Nat} {c : Char} (hc : c ∈ fmtSubslice gs) :
    AddrChar c := by
  have hcolon : AddrChar ':' := .inr (.inl ⟨by decide, by decide⟩)
  cases gs with
  | nil => simp [fmtSubslice] at hc
  | cons g gs =>
    simp only [fmtSubslice, List.mem_append, List.mem_flatMap, List.mem_cons] at hc
    rcases hc with hc | ⟨s, -, rfl | hc⟩
    · exact (hexDigit_of_mem_hex hc).2.2
    · exact hcolon
    · exact (hexDigit_of_mem_hex hc).2.2

theorem length_fmtSubslice_le {gs : List Nat} (h : ∀ g ∈ gs, g < 2 ^ 16) :
    (fmtSubslice gs).length ≤ 5 * gs.length - 1 := by
  -- a colon and at most four digits for each group after the first
  have htail : ∀ ss : List Nat, (∀ g ∈ ss, g < 2 ^ 16) →
      (ss.flatMap fun s => ':' :: hex s).length ≤ 5 * ss.length := by
    intro ss hss
    induction ss with
    | nil => simp
    | cons s ss ih =>
      have hs := length_hex_le (hss s List.mem_cons_self)
      have := ih fun g hg => hss g (List.mem_cons_of_mem s hg)
      simp only [List.flatMap_cons, List.length_append, List.length_cons]
      omega
  cases gs with
  | nil => simp [fmtSubslice]
  | cons g gs =>
    have hg := length_hex_le (h g List.mem_cons_self)
    have := htail gs fun g' hg' => h g' (List.mem_cons_of_mem g hg')
    simp only [fmtSubslice, List.length_append, List.length_cons]
    omega

theorem addrChar_of_mem_ipv6Display {a : Vector UInt8 16} {c : Char} (hc : c ∈ ipv6Display a) :
    AddrChar c := by
  unfold ipv6Display at hc
  split at hc
  · rcases List.mem_append.1 hc with hc | hc
    · rw [show "::ffff:".toList = [':', ':', 'f', 'f', 'f', 'f', ':'] from rfl] at hc
      simp only [List.mem_cons, List.not_mem_nil, or_false] at hc
      rcases hc with rfl | rfl | rfl | rfl | rfl | rfl | rfl <;> unfold AddrChar <;> decide
    · exact addrChar_of_mem_ipv4Display hc
  · dsimp only at hc
    split_ifs at hc
    · simp only [List.mem_append] at hc
      rcases hc with (hc | hc) | hc
      · exact addrChar_of_mem_fmtSubslice hc
      · have : c = ':' := by simpa using hc
        exact this ▸ .inr (.inl ⟨by decide, by decide⟩)
      · exact addrChar_of_mem_fmtSubslice hc
    · exact addrChar_of_mem_fmtSubslice hc

theorem length_ipv6Display_le (a : Vector UInt8 16) : (ipv6Display a).length ≤ 39 := by
  unfold ipv6Display
  split
  · have := length_ipv4Display_le ‹_›
    simp only [List.length_append]
    have h7 : "::ffff:".toList.length = 7 := rfl
    omega
  · set gs := segments a.toList
    have hlen : gs.length = 8 := by simp [gs, length_segments]
    have hlt : ∀ g ∈ gs, g < 2 ^ 16 := fun g hg => segments_lt g hg
    dsimp only
    split_ifs with hz
    · -- at most six groups around the `::`
      have hle := ((zeroSpan_zeroRun gs).resolve_left (by omega)).1
      set z := zeroSpan gs
      have hl := @length_fmtSubslice_le (gs.take z.start) (fun g hg => hlt g (List.mem_of_mem_take hg))
      have hr := @length_fmtSubslice_le (gs.drop (z.start + z.len))
        (fun g hg => hlt g (List.mem_of_mem_drop hg))
      simp only [List.length_take, List.length_drop, hlen] at hl hr hle
      simp only [List.length_append]
      have h2 : "::".toList.length = 2 := rfl
      omega
    · have := length_fmtSubslice_le hlt
      omega

example : ipv6Display (Vector.replicate 16 0) = "::".toList := by decide
example : ipv6Display #v[0x20, 0x01, 0x0d, 0xb8, 0, 0, 0, 0, 0, 1, 0, 0, 0, 0, 0, 1] =
    "2001:db8::1:0:0:1".toList := by decide

end AddrText

end G3Proxy
