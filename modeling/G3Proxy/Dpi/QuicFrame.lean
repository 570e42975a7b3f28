/-
  QUIC frames (g3-dpi `parser/quic/var_int.rs`, `frame/ack.rs`,
  `frame/crypto.rs`, `packet/mod.rs`): variable-length integers, the ACK
  and CRYPTO frames, and `consume_frames`, the loop over the frames of a
  decrypted Initial packet that hands each CRYPTO frame to the handshake
  coalescer.

  The parsers are `ExceptT FrameParseError Option` blocks (`Core.Panic`): a
  slice or an index out of range is `none`.  `usize` is 64 bits.  The one
  sum of an offset and a length read from the input, which the source makes
  as `u64`, is `addU64`, `none` past `u64::MAX`; every other sum is an
  offset within the input plus a few bytes.  The capacity hint of the ACK
  range vector is left out.

  * `VarInt.tryParse_spec`: a read does not panic, and what it reads is one
    to eight bytes that the data holds, with a value below `2 ^ 62`;
  * `AckFrame.parse_noPanic`, `CryptoFrame.parse_noPanic`: the frame parsers
    do not panic on any data, and the length they report is within it;
    `parseAckRanges_min`: whatever count it reads, the ACK range loop makes
    at most `(data.length - offset) / 2 + 1` passes, each range taking two
    bytes or more;
  * `HandshakeCoalescer.Sound`: until the message length is known the buffer
    covers the filled prefix and no fragment is stored, and after it the
    buffer has that length; `recvCrypto_sound`: from a sound coalescer no
    `recv_crypto` panics, and each keeps it sound;
  * `consumeFrames_noPanic`: on every payload, with every coalescer that
    `new` and earlier calls build, `consume_frames` does not panic and
    stops: each pass moves past at least one byte.
-/
import G3Proxy.Dpi.QuicCryptoReassembly
import G3Proxy.Core.Bytes
import G3Proxy.Core.Panic

namespace G3Proxy

namespace Quic

open ExceptT (NoPanic)

/-! ## Variable-length integers -/

/-- `VarInt`: the value, and the number of bytes it was read from. -/
structure VarInt where
  value : Nat
  encodedLen : Nat
  deriving Repr, DecidableEq

namespace VarInt

/-- `VarInt::try_parse`: the two high bits of the first byte give the
    length.  The outer `none` is a panic. -/
def tryParse (data : List UInt8) : Option (Option VarInt) := do
  if data.isEmpty then return none
  let d0 ← data[0]?
  let value0 := d0 &&& 0b0011_1111
  match d0 >>> 6 with
  | 0 => return some ⟨value0.toNat, 1⟩
  | 1 =>
    if data.length < 2 then return none
    let d1 ← data[1]?
    return some ⟨Bytes.beValue [value0, d1], 2⟩
  | 2 =>
    if data.length < 4 then return none
    let d1 ← data[1]?
    let d2 ← data[2]?
    let d3 ← data[3]?
    return some ⟨Bytes.beValue [value0, d1, d2, d3], 4⟩
  | 3 =>
    if data.length < 8 then return none
    let d1 ← data[1]?
    let d2 ← data[2]?
    let d3 ← data[3]?
    let d4 ← data[4]?
    let d5 ← data[5]?
    let d6 ← data[6]?
    let d7 ← data[7]?
    return some ⟨Bytes.beValue [value0, d1, d2, d3, d4, d5, d6, d7], 8⟩
  | _ => none -- `unreachable!()`

/-- An integer read from `data`: one byte or more of it, and a value of at
    most 62 bits. -/
structure Read (data : List UInt8) (v : VarInt) : Prop where
  pos : 0 < v.encodedLen
  le_eight : v.encodedLen ≤ 8
  le_length : v.encodedLen ≤ data.length
  value_lt : v.value < 2 ^ 62

theorem shiftRight_six_cases (b : UInt8) : b >>> 6 = 0 ∨ b >>> 6 = 1 ∨ b >>> 6 = 2 ∨ b >>> 6 = 3 := by
  have h : (b >>> 6).toNat < 4 := by
    rw [UInt8.toNat_shiftRight]
    have := b.toNat_lt
    simp only [show (6 : UInt8).toNat % 8 = 6 from rfl, Nat.shiftRight_eq_div_pow]
    omega
  have : (b >>> 6).toNat = 0 ∨ (b >>> 6).toNat = 1 ∨ (b >>> 6).toNat = 2 ∨ (b >>> 6).toNat = 3 := by omega
  rcases this with h | h | h | h
  · exact .inl (UInt8.toNat_inj.1 h)
  · exact .inr (.inl (UInt8.toNat_inj.1 h))
  · exact .inr (.inr (.inl (UInt8.toNat_inj.1 h)))
  · exact .inr (.inr (.inr (UInt8.toNat_inj.1 h)))

/-- The first byte keeps six bits. -/
theorem beValue_low_six_lt (b : UInt8) (bs : List UInt8) :
    Bytes.beValue ((b &&& 0b0011_1111) :: bs) < 64 * 256 ^ bs.length := by
  have hb : (b &&& 0b0011_1111).toNat < 64 := by
    rw [UInt8.toNat_and]
    exact Nat.lt_of_le_of_lt Nat.and_le_right (by decide)
  have := Bytes.beValue_lt bs
  rw [Bytes.beValue_cons]
  calc (b &&& 0b0011_1111).toNat * 256 ^ bs.length + Bytes.beValue bs
      < (b &&& 0b0011_1111).toNat * 256 ^ bs.length + 256 ^ bs.length := by omega
    _ = ((b &&& 0b0011_1111).toNat + 1) * 256 ^ bs.length := by ring
    _ ≤ 64 * 256 ^ bs.length := Nat.mul_le_mul_right _ hb

theorem tryParse_spec (data : List UInt8) : ∃ r, tryParse data = some r ∧ ∀ v, r = some v → Read data v := by
  cases data with
  | nil => exact ⟨none, rfl, fun _ h => nomatch h⟩
  | cons d0 rest =>
    -- the length the first byte announces, then whether the data holds it
    rcases shiftRight_six_cases d0 with h | h | h | h
    · refine ⟨some ⟨(d0 &&& 0b0011_1111).toNat, 1⟩, by simp [tryParse, h], ?_⟩
      rintro v ⟨⟩
      exact ⟨Nat.one_pos, by simp, by simp, Nat.lt_of_lt_of_le (UInt8.toNat_lt _) (by decide)⟩
    · rcases rest with _ | ⟨d1, rest⟩
      · exact ⟨none, by simp [tryParse, h], fun _ h => nomatch h⟩
      · refine ⟨some ⟨Bytes.beValue [d0 &&& 0b0011_1111, d1], 2⟩, by simp [tryParse, h], ?_⟩
        rintro v ⟨⟩
        exact ⟨by simp, by simp, by simp, Nat.lt_of_lt_of_le (beValue_low_six_lt d0 _) (by simp)⟩
    · by_cases hlen : rest.length < 3
      · exact ⟨none, by simp [tryParse, h, hlen], fun _ h => nomatch h⟩
      · refine ⟨some ⟨Bytes.beValue [d0 &&& 0b0011_1111, rest[0], rest[1], rest[2]], 4⟩, ?_, ?_⟩
        · simp (disch := (simp only [List.length_cons]; omega)) [tryParse, h, Nat.le_of_not_lt hlen]
        · rintro v ⟨⟩
          exact ⟨by simp, by simp, by simp; omega, Nat.lt_of_lt_of_le (beValue_low_six_lt d0 _) (by simp)⟩
    · by_cases hlen : rest.length < 7
      · exact ⟨none, by simp [tryParse, h, hlen], fun _ h => nomatch h⟩
      · refine ⟨some ⟨Bytes.beValue [d0 &&& 0b0011_1111, rest[0], rest[1], rest[2], rest[3], rest[4], rest[5],
          rest[6]], 8⟩, ?_, ?_⟩
        · simp (disch := (simp only [List.length_cons]; omega)) [tryParse, h, Nat.le_of_not_lt hlen]
        · rintro v ⟨⟩
          exact ⟨by simp, by simp, by simp; omega, Nat.lt_of_lt_of_le (beValue_low_six_lt d0 _) (by simp)⟩

example : tryParse [0x40, 0x25] = some (some ⟨37, 2⟩) := by decide

end VarInt

/-- `a + b` computed as `u64`: `none`, a panic, past `u64::MAX`. -/
def addU64 (a b : Nat) : Option Nat := if a + b < 2 ^ 64 then some (a + b) else none

theorem addU64_eq {a b : Nat} (h : a + b < 2 ^ 64) : addU64 a b = some (a + b) := if_pos h

/-- `read_var_int!` of `AckFrame::parse` and `EcnCounts::parse`: the
    integer at `offset`, and the offset past it. -/
def readVarInt (data : List UInt8) (offset : Nat) : ExceptT FrameParseError Option (VarInt × Nat) := do
  let left ← (data.sliceFrom? offset : Option _)
  let some v ← (VarInt.tryParse left : Option _) | throw .notEnoughData
  return (v, offset + v.encodedLen)

/-- A read within the data does not panic, and moves past at least one
    byte of it. -/
theorem readVarInt_noPanic {data : List UInt8} {offset : Nat} (h : offset ≤ data.length) :
    NoPanic (readVarInt data offset) fun r => offset < r.2 ∧ r.2 ≤ data.length ∧ r.1.value < 2 ^ 62 := by
  obtain ⟨r, hr, hread⟩ := VarInt.tryParse_spec (data.drop offset)
  refine NoPanic.bind_lift (List.sliceFrom?_eq h) (NoPanic.bind_lift hr ?_)
  cases r with
  | none => exact NoPanic.throw _
  | some v =>
    obtain ⟨hpos, -, hle, hval⟩ := hread v rfl
    rw [List.length_drop] at hle
    exact NoPanic.pure ⟨by simp; omega, by simp; omega, hval⟩

/-! ## ACK frames -/

/-- `AckRange`. -/
structure AckRange where
  gap : VarInt
  length : VarInt
  encodedLen : Nat
  deriving Repr, DecidableEq

/-- `AckRange::parse`. -/
def AckRange.parse (data : List UInt8) : ExceptT FrameParseError Option AckRange := do
  let some gap ← (VarInt.tryParse data : Option _) | throw .notEnoughData
  let offset := gap.encodedLen
  let left ← (data.sliceFrom? offset : Option _)
  let some length ← (VarInt.tryParse left : Option _) | throw .notEnoughData
  return ⟨gap, length, offset + length.encodedLen⟩

/-- `EcnCounts`. -/
structure EcnCounts where
  ect0 : VarInt
  ect1 : VarInt
  ecnCe : VarInt
  encodedLen : Nat
  deriving Repr, DecidableEq

/-- `EcnCounts::parse`. -/
def EcnCounts.parse (data : List UInt8) : ExceptT FrameParseError Option EcnCounts := do
  let (ect0, offset) ← readVarInt data 0
  let (ect1, offset) ← readVarInt data offset
  let (ecnCe, offset) ← readVarInt data offset
  return ⟨ect0, ect1, ecnCe, offset⟩

/-- `AckFrame`. -/
structure AckFrame where
  largestAck : VarInt
  ackDelay : VarInt
  firstAckRange : VarInt
  ackRanges : List AckRange
  ecnCounts : Option EcnCounts
  encodedLen : Nat
  deriving Repr, DecidableEq

/-- The loop `for _ in 0..ack_range_count`: `count` ranges from `offset`,
    each pushed on `ackRanges`. -/
def parseAckRanges (data : List UInt8) :
    Nat → Nat → List AckRange → ExceptT FrameParseError Option (List AckRange × Nat)
  | 0, offset, ackRanges => return (ackRanges, offset)
  | count + 1, offset, ackRanges => do
    let left ← (data.sliceFrom? offset : Option _)
    let ackRange ← AckRange.parse left
    parseAckRanges data count (offset + ackRange.encodedLen) (ackRanges ++ [ackRange])

/-- `AckFrame::parse`; `ecn` for the frame type `0x03`. -/
def AckFrame.parse (data : List UInt8) (ecn : Bool) : ExceptT FrameParseError Option AckFrame := do
  let (largestAck, offset) ← readVarInt data 0
  let (ackDelay, offset) ← readVarInt data offset
  let (ackRangeCount, offset) ← readVarInt data offset
  let (firstAckRange, offset) ← readVarInt data offset
  let (ackRanges, offset) ← parseAckRanges data ackRangeCount.value offset []
  if ecn then
    let left ← (data.sliceFrom? offset : Option _)
    let ecnCounts ← EcnCounts.parse left
    return ⟨largestAck, ackDelay, firstAckRange, ackRanges, some ecnCounts, offset + ecnCounts.encodedLen⟩
  else
    return ⟨largestAck, ackDelay, firstAckRange, ackRanges, none, offset⟩

/-! ## CRYPTO frames -/

/-- `CryptoFrame::parse`: the frame, and its `encoded_len`. -/
def CryptoFrame.parse (data : List UInt8) : ExceptT FrameParseError Option (CryptoFrame × Nat) := do
  let some streamOffset ← (VarInt.tryParse data : Option _) | throw .notEnoughData
  let offset := streamOffset.encodedLen
  -- `usize::try_from`
  if streamOffset.value ≥ 2 ^ 64 then throw (.tooBigOffsetValue streamOffset.value)
  let left ← (data.sliceFrom? offset : Option _)
  let some length ← (VarInt.tryParse left : Option _) | throw .notEnoughData
  let offset := offset + length.encodedLen
  let total ← (addU64 offset length.value : Option _)
  if total > data.length then throw .notEnoughData
  let dataEnd := offset + length.value
  let frameData ← (data.slice? offset dataEnd : Option _)
  return (⟨streamOffset.value, frameData⟩, dataEnd)

/-! ## The frame parsers do not panic -/

theorem AckRange.parse_noPanic (data : List UInt8) :
    NoPanic (AckRange.parse data) fun r => 2 ≤ r.encodedLen ∧ r.encodedLen ≤ data.length := by
  obtain ⟨r, hr, hread⟩ := VarInt.tryParse_spec data
  refine NoPanic.bind_lift hr ?_
  cases r with
  | none => exact NoPanic.throw _
  | some gap =>
    obtain ⟨hpos, -, hle, -⟩ := hread gap rfl
    obtain ⟨r', hr', hread'⟩ := VarInt.tryParse_spec (data.drop gap.encodedLen)
    refine NoPanic.bind_lift (List.sliceFrom?_eq hle) (NoPanic.bind_lift hr' ?_)
    cases r' with
    | none => exact NoPanic.throw _
    | some length =>
      obtain ⟨hpos', -, hle', -⟩ := hread' length rfl
      rw [List.length_drop] at hle'
      exact NoPanic.pure ⟨by dsimp only; omega, by dsimp only; omega⟩

theorem EcnCounts.parse_noPanic (data : List UInt8) :
    NoPanic (EcnCounts.parse data) fun e => e.encodedLen ≤ data.length := by
  refine NoPanic.bind (readVarInt_noPanic (Nat.zero_le _)) ?_
  rintro ⟨ect0, o₁⟩ ⟨-, h₁, -⟩
  refine NoPanic.bind (readVarInt_noPanic h₁) ?_
  rintro ⟨ect1, o₂⟩ ⟨-, h₂, -⟩
  refine NoPanic.bind (readVarInt_noPanic h₂) ?_
  rintro ⟨ecnCe, o₃⟩ ⟨-, h₃, -⟩
  exact NoPanic.pure h₃

theorem parseAckRanges_noPanic {data : List UInt8} : ∀ (count offset : Nat) (ackRanges : List AckRange),
    offset ≤ data.length →
      NoPanic (parseAckRanges data count offset ackRanges) fun r => offset ≤ r.2 ∧ r.2 ≤ data.length
  | 0, _, _, h => NoPanic.pure ⟨Nat.le_refl _, h⟩
  | count + 1, offset, ackRanges, h => by
    refine NoPanic.bind_lift (List.sliceFrom?_eq h) (NoPanic.bind (AckRange.parse_noPanic _) ?_)
    rintro r ⟨h₁, h₂⟩
    rw [List.length_drop] at h₂
    exact (parseAckRanges_noPanic count _ _ (by omega)).mono fun _ h₃ => ⟨by omega, h₃.2⟩

theorem AckFrame.parse_noPanic (data : List UInt8) (ecn : Bool) :
    NoPanic (AckFrame.parse data ecn) fun a => a.encodedLen ≤ data.length := by
  refine NoPanic.bind (readVarInt_noPanic (Nat.zero_le _)) ?_
  rintro ⟨largestAck, o₁⟩ ⟨-, h₁, -⟩
  refine NoPanic.bind (readVarInt_noPanic h₁) ?_
  rintro ⟨ackDelay, o₂⟩ ⟨-, h₂, -⟩
  refine NoPanic.bind (readVarInt_noPanic h₂) ?_
  rintro ⟨ackRangeCount, o₃⟩ ⟨-, h₃, -⟩
  refine NoPanic.bind (readVarInt_noPanic h₃) ?_
  rintro ⟨firstAckRange, o₄⟩ ⟨-, h₄, -⟩
  refine NoPanic.bind (parseAckRanges_noPanic _ _ _ h₄) ?_
  rintro ⟨ackRanges, o₅⟩ ⟨-, h₅⟩
  cases ecn with
  | false => exact NoPanic.pure h₅
  | true =>
    refine NoPanic.bind_lift (List.sliceFrom?_eq h₅) (NoPanic.bind (EcnCounts.parse_noPanic _) ?_)
    intro e he
    rw [List.length_drop] at he
    exact NoPanic.pure (by dsimp only; omega)

theorem CryptoFrame.parse_noPanic (data : List UInt8) :
    NoPanic (CryptoFrame.parse data) fun r => r.2 ≤ data.length ∧ r.1.streamOffset < 2 ^ 62 := by
  obtain ⟨r, hr, hread⟩ := VarInt.tryParse_spec data
  refine NoPanic.bind_lift hr ?_
  cases r with
  | none => exact NoPanic.throw _
  | some streamOffset =>
    obtain ⟨hpos, h8, hle, hval⟩ := hread streamOffset rfl
    dsimp only
    rw [if_neg (by omega)]
    obtain ⟨r', hr', hread'⟩ := VarInt.tryParse_spec (data.drop streamOffset.encodedLen)
    refine NoPanic.bind_lift (List.sliceFrom?_eq hle) (NoPanic.bind_lift hr' ?_)
    cases r' with
    | none => exact NoPanic.throw _
    | some length =>
      obtain ⟨-, h8', hle', hval'⟩ := hread' length rfl
      rw [List.length_drop] at hle'
      -- the offset is at most 16 bytes, the length below `2 ^ 62`: the `u64` sum does not overflow
      refine NoPanic.bind_lift (addU64_eq (by omega)) ?_
      split
      · exact NoPanic.throw_bind _ _
      · rename_i hfit
        exact NoPanic.bind_lift (List.slice?_eq (Nat.le_add_right _ _) (by omega)) (NoPanic.pure ⟨by omega, hval⟩)

/-- Whatever the count, the ACK range loop makes at most
    `(data.length - offset) / 2 + 1` passes, each range taking two bytes or
    more: two counts that agree up to that bound give the same result. -/
theorem parseAckRanges_eq_of_min_eq {data : List UInt8} : ∀ (n m offset : Nat) (ackRanges : List AckRange),
    offset ≤ data.length → min n ((data.length - offset) / 2 + 1) = min m ((data.length - offset) / 2 + 1) →
      parseAckRanges data n offset ackRanges = parseAckRanges data m offset ackRanges
  | 0, m, offset, ackRanges, _, hmin => by
    obtain rfl : m = 0 := by omega
    rfl
  | n + 1, m, offset, ackRanges, h, hmin => by
    obtain ⟨m, rfl⟩ : ∃ m', m = m' + 1 := ⟨m - 1, by omega⟩
    simp only [parseAckRanges, List.sliceFrom?_eq h, ExceptT.lift_some_bind]
    refine NoPanic.bind_congr (AckRange.parse_noPanic _) fun r ⟨h₁, h₂⟩ => ?_
    rw [List.length_drop] at h₂
    exact parseAckRanges_eq_of_min_eq n m _ _ (by omega) (by omega)

theorem parseAckRanges_min {data : List UInt8} (count : Nat) {offset : Nat} (ackRanges : List AckRange)
    (h : offset ≤ data.length) :
    parseAckRanges data count offset ackRanges =
      parseAckRanges data (min count ((data.length - offset) / 2 + 1)) offset ackRanges :=
  parseAckRanges_eq_of_min_eq _ _ _ _ h (by omega)

/-! ## The coalescer does not panic -/

namespace HandshakeCoalescer

/-- What keeps every slice of `recv_crypto` in range: until the message
    length is known the buffer covers the filled prefix and no fragment is
    stored; after, the buffer has that length. -/
structure Sound (c : HandshakeCoalescer) : Prop where
  unfilled_le : c.expectedLength = 0 → c.unfilledOffset ≤ c.buf.length
  no_fragments : c.expectedLength = 0 → c.fragmentSet = []
  buf_length : 0 < c.expectedLength → c.buf.length = c.expectedLength

theorem sound_new (maxMessageSize : Nat) : (new maxMessageSize).Sound :=
  ⟨fun _ => Nat.le_refl _, fun _ => rfl, fun h => absurd h (Nat.lt_irrefl _)⟩

variable {c : HandshakeCoalescer} {f : CryptoFrame}

theorem discoverHeader_sound (hs : c.Sound) : ∃ r c', c.discoverHeader = some (r, c') ∧ c'.Sound := by
  unfold discoverHeader
  by_cases h0 : c.expectedLength = 0
  · rw [if_pos h0, sliceTo, if_pos (hs.unfilled_le h0), Option.map_some]
    split
    · split
      · exact ⟨_, _, rfl, hs⟩
      · -- the length is now known, and the buffer sized to it
        exact ⟨_, _, rfl, fun h => absurd h (by simp [Tls.HandshakeHeader.size]),
          fun h => absurd h (by simp [Tls.HandshakeHeader.size]), fun _ => length_resize _ _⟩
    · exact ⟨_, _, rfl, hs⟩
  · exact ⟨_, _, if_neg h0, hs⟩

theorem writeInOrder_sound (hs : c.Sound) (hlt : f.streamOffset + f.data.length < c.buf.length) :
    ∃ c', c.writeInOrder f = some c' ∧ c'.Sound ∧ c'.expectedLength = c.expectedLength := by
  obtain ⟨buf, hw⟩ := writeSlice_isSome (Nat.le_of_lt hlt)
  have hlen := (writeSlice_spec hw).1
  rw [writeInOrder_eq, hw, Option.map_some]
  refine ⟨_, rfl, ?_, by split <;> rfl⟩
  split
  · -- before the length is known no fragment is stored: the prefix reaches the frame's end
    refine ⟨fun h0 => ?_, fun h0 => ?_, fun h => hlen ▸ hs.buf_length h⟩
    · simp only [hs.no_fragments h0, mergeFragments]
      omega
    · simp [hs.no_fragments h0]
  · exact ⟨fun h0 => hlen ▸ hs.unfilled_le h0, hs.no_fragments, fun h => hlen ▸ hs.buf_length h⟩

theorem extendBuf_sound (hs : c.Sound) (hge : c.buf.length ≤ f.streamOffset + f.data.length)
    (hfit : ¬(c.expectedLength > 0 ∧ f.streamOffset + f.data.length > c.expectedLength)) :
    (c.extendBuf f).Sound := by
  refine ⟨fun _ => by simp, fun h0 => hs.no_fragments h0, fun hpos => ?_⟩
  -- past the header the frame reaches the end of the buffer, the message's length
  rw [extendBuf_expectedLength] at hpos ⊢
  have := hs.buf_length hpos
  simp only [extendBuf_buf, List.length_append, length_resize]
  omega

theorem storeFragment_sound (hs : c.Sound) (hpos : 0 < c.expectedLength)
    (hend : f.streamOffset + f.data.length ≤ c.expectedLength) :
    ∃ c', c.storeFragment f = some c' ∧ c'.Sound := by
  obtain ⟨buf, hw⟩ := writeSlice_isSome (hs.buf_length hpos ▸ hend)
  have hlen := (writeSlice_spec hw).1
  exact ⟨_, by rw [storeFragment, hw, Option.map_some],
    fun h0 => absurd h0 (by simp; omega), fun h0 => absurd h0 (by simp; omega),
    fun _ => hlen.trans (hs.buf_length hpos)⟩

/-- From a sound coalescer no `recv_crypto` panics, and each keeps it
    sound. -/
theorem recvCrypto_sound (hs : c.Sound) (f : CryptoFrame) : ∃ r c', c.recvCrypto f = some (r, c') ∧ c'.Sound := by
  unfold recvCrypto
  dsimp only
  by_cases hin : f.streamOffset ≤ c.unfilledOffset
  · rw [if_pos hin]
    split
    · exact ⟨_, _, rfl, hs⟩
    · rename_i hfit
      by_cases hlt : c.buf.length > f.streamOffset + f.data.length
      · obtain ⟨c', hw, hs', hexp⟩ := writeInOrder_sound hs hlt
        rw [if_pos hlt, hw, Option.bind_some]
        exact discoverHeader_sound hs'
      · rw [if_neg hlt, Option.bind_some]
        exact discoverHeader_sound (extendBuf_sound hs (Nat.le_of_not_lt hlt) hfit)
  · rw [if_neg hin]
    split
    · exact ⟨_, _, rfl, hs⟩
    · rename_i h0
      split
      · exact ⟨_, _, rfl, hs⟩
      · split
        · exact ⟨_, _, rfl, hs⟩
        · rename_i hend
          obtain ⟨c', hst, hs'⟩ := storeFragment_sound hs (Nat.pos_of_ne_zero h0) (Nat.le_of_not_lt hend)
          exact ⟨_, _, by rw [hst, Option.map_some], hs'⟩

/-- The coalescers the code builds: `new`, then `recv_crypto` calls. -/
inductive Built : HandshakeCoalescer → Prop
  | new (maxMessageSize : Nat) : Built (new maxMessageSize)
  | recvCrypto {c c' : HandshakeCoalescer} {f : CryptoFrame} {r : Except FrameParseError Unit} :
      Built c → c.recvCrypto f = some (r, c') → Built c'

theorem Built.sound (h : Built c) : c.Sound := by
  induction h with
  | new m => exact sound_new m
  | recvCrypto _ hrecv ih =>
    obtain ⟨r, c', hrecv', hs'⟩ := recvCrypto_sound ih _
    rw [hrecv] at hrecv'
    cases hrecv'
    exact hs'

end HandshakeCoalescer

/-! ## `consume_frames` -/

/-- The `while offset < payload.len()` loop of `consume_frames` with a
    `HandshakeCoalescer` as the consumer, for at most `fuel` passes: the
    result, and the coalescer the calls leave; `none` is a panic or the
    passes running out. -/
def consumeLoop (payload : List UInt8) :
    Nat → Nat → HandshakeCoalescer → Option (Except FrameParseError Unit × HandshakeCoalescer)
  | 0, _, _ => none
  | fuel + 1, offset, c =>
    if offset < payload.length then do
      let left ← payload.sliceFrom? offset
      let some frameType ← VarInt.tryParse left | return (.error .notEnoughData, c)
      let offset := offset + frameType.encodedLen
      match frameType.value with
      | 0x00 => consumeLoop payload fuel offset c -- PADDING
      | 0x01 => consumeLoop payload fuel offset c -- PING
      | 0x02 =>
        let left ← payload.sliceFrom? offset
        match ← (AckFrame.parse left false).run with
        | .error e => return (.error e, c)
        | .ok ack => consumeLoop payload fuel (offset + ack.encodedLen) c
      | 0x03 =>
        let left ← payload.sliceFrom? offset
        match ← (AckFrame.parse left true).run with
        | .error e => return (.error e, c)
        | .ok ack => consumeLoop payload fuel (offset + ack.encodedLen) c
      | 0x06 =>
        let left ← payload.sliceFrom? offset
        match ← (CryptoFrame.parse left).run with
        | .error e => return (.error e, c)
        | .ok (crypto, encodedLen) =>
          match ← c.recvCrypto crypto with
          | (.error e, c) => return (.error e, c)
          | (.ok (), c) => consumeLoop payload fuel (offset + encodedLen) c
      | t => return (.error (.invalidFrameType t), c)
    else return (.ok (), c)

/-- `InitialPacket::consume_frames` on a payload with a coalescer: the loop
    from the start, given a pass for each byte and one to stop. -/
def consumeFrames (payload : List UInt8) (c : HandshakeCoalescer) :
    Option (Except FrameParseError Unit × HandshakeCoalescer) :=
  consumeLoop payload (payload.length + 1) 0 c

/-- Each pass moves past at least one byte of the payload: with a pass left
    for each remaining byte and one to stop, the loop neither panics nor
    runs out, and the coalescer stays sound. -/
theorem consumeLoop_noPanic {payload : List UInt8} : ∀ (fuel offset : Nat) (c : HandshakeCoalescer),
    offset ≤ payload.length → payload.length - offset < fuel → c.Sound →
      ∃ r c', consumeLoop payload fuel offset c = some (r, c') ∧ c'.Sound
  | 0, _, _, _, hfuel, _ => absurd hfuel (Nat.not_lt_zero _)
  | fuel + 1, offset, c, h, hfuel, hs => by
    unfold consumeLoop
    by_cases hlt : offset < payload.length
    · obtain ⟨r, hr, hread⟩ := VarInt.tryParse_spec (payload.drop offset)
      rw [if_pos hlt, List.sliceFrom?_eq h]
      simp only [Option.bind_eq_bind, Option.bind_some, hr]
      cases r with
      | none => exact ⟨_, _, rfl, hs⟩
      | some frameType =>
        obtain ⟨hpos, -, hle, -⟩ := hread frameType rfl
        rw [List.length_drop] at hle
        have hstart : offset + frameType.encodedLen ≤ payload.length := by omega
        -- every later pass starts past the frame type, within the payload
        have next : ∀ o c', offset + frameType.encodedLen ≤ o → o ≤ payload.length → c'.Sound →
            ∃ r c'', consumeLoop payload fuel o c' = some (r, c'') ∧ c''.Sound :=
          fun o c' h₁ h₂ hs' => consumeLoop_noPanic fuel o c' h₂ (by omega) hs'
        -- an ACK frame, with or without the ECN counts
        have ack : ∀ ecn, ∃ r c', ((payload.sliceFrom? (offset + frameType.encodedLen)).bind fun left =>
            (AckFrame.parse left ecn).run.bind fun x =>
              match x with
              | .error e => pure (.error e, c)
              | .ok ack => consumeLoop payload fuel (offset + frameType.encodedLen + ack.encodedLen) c) =
                some (r, c') ∧ c'.Sound := by
          intro ecn
          obtain ⟨r, hr, hack⟩ := AckFrame.parse_noPanic (payload.drop (offset + frameType.encodedLen)) ecn
          rw [List.sliceFrom?_eq hstart, Option.bind_some, hr, Option.bind_some]
          cases r with
          | error e => exact ⟨_, _, rfl, hs⟩
          | ok a =>
            have ha := hack a rfl
            rw [List.length_drop] at ha
            exact next _ c (Nat.le_add_right _ _) (by omega) hs
        dsimp only
        split
        · exact next _ c (Nat.le_refl _) hstart hs
        · exact next _ c (Nat.le_refl _) hstart hs
        · exact ack false
        · exact ack true
        · -- a CRYPTO frame goes to the coalescer
          obtain ⟨r, hr, hcrypto⟩ := CryptoFrame.parse_noPanic (payload.drop (offset + frameType.encodedLen))
          rw [List.sliceFrom?_eq hstart, Option.bind_some, hr, Option.bind_some]
          cases r with
          | error e => exact ⟨_, _, rfl, hs⟩
          | ok p =>
            obtain ⟨crypto, encodedLen⟩ := p
            have hp := (hcrypto _ rfl).1
            rw [List.length_drop] at hp
            obtain ⟨r', c', hrecv, hs'⟩ := HandshakeCoalescer.recvCrypto_sound hs crypto
            dsimp only
            rw [hrecv, Option.bind_some]
            cases r' with
            | error e => exact ⟨_, _, rfl, hs'⟩
            | ok u => exact next _ c' (Nat.le_add_right _ _) (by omega) hs'
        · exact ⟨_, _, rfl, hs⟩
    · rw [if_neg hlt]
      exact ⟨_, _, rfl, hs⟩

theorem consumeFrames_noPanic (payload : List UInt8) {c : HandshakeCoalescer} (hs : c.Sound) :
    ∃ r c', consumeFrames payload c = some (r, c') ∧ c'.Sound :=
  consumeLoop_noPanic _ _ _ (Nat.zero_le _) (by omega) hs

end Quic

end G3Proxy
