/-
  QUIC Initial packets sent by a client (g3-dpi `parser/quic/packet/mod.rs`,
  `v1.rs`, `v2.rs`, `header.rs`): the long header up to the packet number,
  the header protection, and the decryption of the payload.

  The OpenSSL calls (`quic_hkdf_extract_expand`, `quic_hkdf_expand`,
  `aes_ecb_mask`, `aes_gcm_decrypt`) are the fields of `Openssl`, functions
  that may fail with an `ErrorStack`, and every result is proved for all of
  them.  Versions 1 and 2 run the same code with their own salt, packet type
  bits and labels (`InitialVersion`).  Fixed arrays are `Vector`s; a slice
  of the packet or an index computed at run time is checked, `none` a panic.

  * `Header.decodeLong_noPanic`: the packet number length is one to four,
    so removing the header protection reads inside the mask and the
    packet;
  * `parseInitial_noPanic`, `InitialPacket.parseClient_noPanic`: on every
    packet of at most `isize::MAX` bytes, whatever the OpenSSL calls return,
    `parse_client` does not panic: each slice it takes is preceded by the
    check that keeps it in range, and its two `u64` sums stay below
    `2 ^ 64`.
-/
import G3Proxy.Dpi.QuicFrame
import G3Proxy.Dpi.TlsParse

namespace G3Proxy

namespace Quic

open ExceptT (NoPanic)

/-! ## The model -/

/-- `openssl::error::ErrorStack`: the codes of the errors. -/
structure ErrorStack where
  codes : List Nat
  deriving Repr, DecidableEq

/-- `PacketParseError`. -/
inductive PacketParseError where
  | tooSmall
  | notLongHeader
  | invalidLongPacketType
  | unknownVersion (version : Nat)
  | invalidConnectionIdLength (len : UInt8)
  | invalidTokenLength (len : Nat)
  | invalidLengthValue (len : Nat)
  | cryptoError (e : ErrorStack)
  | invalidPacketNumberLength (len : UInt8)
  deriving Repr, DecidableEq

/-- The OpenSSL calls: the two HKDF calls fill an output of the given
    length, `aes_ecb_mask` gives five bytes of mask, `aes_gcm_decrypt` the
    plaintext. -/
structure Openssl where
  hkdfExtractExpand : List UInt8 → List UInt8 → List UInt8 → (n : Nat) → Except ErrorStack (Vector UInt8 n)
  hkdfExpand : List UInt8 → List UInt8 → (n : Nat) → Except ErrorStack (Vector UInt8 n)
  aesEcbMask : List UInt8 → List UInt8 → Except ErrorStack (Vector UInt8 5)
  aesGcmDecrypt : List UInt8 → List UInt8 → List (List UInt8) → List UInt8 → List UInt8 →
    Except ErrorStack (List UInt8)

/-- `?` on an OpenSSL result: its error becomes `CryptoError`. -/
def liftCrypto {α : Type} (r : Except ErrorStack α) : ExceptT PacketParseError Option α :=
  ExceptT.mk (some (r.mapError .cryptoError))

theorem liftCrypto_noPanic {α : Type} (r : Except ErrorStack α) : NoPanic (liftCrypto r) fun _ => True := by
  cases r with
  | error e => exact ⟨.error (.cryptoError e), rfl, fun _ h => nomatch h⟩
  | ok a => exact NoPanic.pure trivial

/-- The constants of one version's Initial packets. -/
structure InitialVersion where
  salt : List UInt8
  packetType : UInt8
  keyLabel : List UInt8
  ivLabel : List UInt8
  hpLabel : List UInt8

/-- Version 1 (`v1.rs`). -/
def InitialVersion.v1 : InitialVersion where
  salt := [0x38, 0x76, 0x2c, 0xf7, 0xf5, 0x59, 0x34, 0xb3, 0x4d, 0x17, 0x9a, 0xe6, 0xa4, 0xc8, 0x0c, 0xad,
    0xcc, 0xbb, 0x7f, 0x0a]
  packetType := 0b0000_0000
  keyLabel := Bytes.asBytes "quic key".toList
  ivLabel := Bytes.asBytes "quic iv".toList
  hpLabel := Bytes.asBytes "quic hp".toList

/-- Version 2 (`v2.rs`). -/
def InitialVersion.v2 : InitialVersion where
  salt := [0x0d, 0xed, 0xe3, 0xde, 0xf7, 0x00, 0xa6, 0xdb, 0x81, 0x93, 0x81, 0xbe, 0x6e, 0x26, 0x9d, 0xcb,
    0xf9, 0xbd, 0x2e, 0xd9]
  packetType := 0b0001_0000
  keyLabel := Bytes.asBytes "quicv2 key".toList
  ivLabel := Bytes.asBytes "quicv2 iv".toList
  hpLabel := Bytes.asBytes "quicv2 hp".toList

/-- `ClientSecrets`. -/
structure ClientSecrets where
  key : Vector UInt8 16
  iv : Vector UInt8 12
  hp : Vector UInt8 16

/-- `ClientSecrets::new`. -/
def ClientSecrets.new (ossl : Openssl) (v : InitialVersion) (cid : List UInt8) : Except ErrorStack ClientSecrets := do
  let clientInitialSecret ← ossl.hkdfExtractExpand v.salt cid (Bytes.asBytes "client in".toList) 32
  let key ← ossl.hkdfExpand clientInitialSecret.toList v.keyLabel 16
  let iv ← ossl.hkdfExpand clientInitialSecret.toList v.ivLabel 12
  let hp ← ossl.hkdfExpand clientInitialSecret.toList v.hpLabel 16
  return ⟨key, iv, hp⟩

/-- `MAX_PACKET_NUMBER_BYTES`. -/
def maxPacketNumberBytes : Nat := 4

/-- `Header`. -/
structure Header where
  byte1 : UInt8
  packetNumberBuf : Vector UInt8 4
  packetNumberLen : Nat
  packetNumber : Nat

/-- The loop of `decode_long` that unmasks the packet number: byte `i` of
    the packet goes to `4 - len + i`. -/
def Header.unmaskStep (mask : Vector UInt8 5) (data : List UInt8) (len : Nat) (bytes : Vector UInt8 4) (i : Nat) :
    Option (Vector UInt8 4) := do
  let m ← mask[i + 1]?
  let d ← data[i]?
  let j := maxPacketNumberBytes - len + i
  if h : j < 4 then some (bytes.set j (m ^^^ d) h) else none

/-- `Header::decode_long`. -/
def Header.decodeLong (byte1 : UInt8) (mask : Vector UInt8 5) (data : List UInt8) :
    ExceptT PacketParseError Option Header := do
  let byte1LowBits := (byte1 ^^^ mask[0]) &&& 0x0F
  let realByte1 := byte1LowBits ||| (byte1 &&& 0xF0)
  let packetNumberLen := (byte1LowBits &&& 0b0000_0011) + 1
  if packetNumberLen.toNat > maxPacketNumberBytes then throw (.invalidPacketNumberLength packetNumberLen)
  let packetNumberBytes ← ((List.range packetNumberLen.toNat).foldlM
    (Header.unmaskStep mask data packetNumberLen.toNat) (Vector.replicate 4 0) : Option _)
  return ⟨realByte1, packetNumberBytes, packetNumberLen.toNat, Bytes.beValue packetNumberBytes.toList⟩

/-- `packet_number_bytes`: `&packet_number_buf[4 - len..]`. -/
def Header.packetNumberBytes (h : Header) : Option (List UInt8) :=
  h.packetNumberBuf.toList.sliceFrom? (maxPacketNumberBytes - h.packetNumberLen)

/-- `xor_nonce`: the packet number into the last four bytes of the IV. -/
def Header.xorNonce (h : Header) (iv : Vector UInt8 12) : Vector UInt8 12 :=
  let iv := iv.set 8 (iv[8] ^^^ h.packetNumberBuf[0])
  let iv := iv.set 9 (iv[9] ^^^ h.packetNumberBuf[1])
  let iv := iv.set 10 (iv[10] ^^^ h.packetNumberBuf[2])
  iv.set 11 (iv[11] ^^^ h.packetNumberBuf[3])

/-- `LONG_PACKET_FIXED_LEN`. -/
def longPacketFixedLen : Nat := 5

/-- `InitialPacketV1` and `InitialPacketV2`. -/
structure InitialPacketV where
  packetNumber : Nat
  payload : List UInt8
  deriving Repr, DecidableEq

/-- `parse_client` of `InitialPacketV1` and `InitialPacketV2`, with the
    version's constants. -/
def parseInitial (v : InitialVersion) (ossl : Openssl) (data : List UInt8) :
    ExceptT PacketParseError Option InitialPacketV := do
  let byte1 ← (data[0]? : Option UInt8)
  if byte1 &&& 0b0011_0000 ≠ v.packetType then throw .invalidLongPacketType
  let offset := longPacketFixedLen
  -- Destination Connection ID
  let left ← (data.sliceFrom? offset : Option _)
  if left.isEmpty then throw .tooSmall
  let dstCidLen ← (left[0]? : Option UInt8)
  if dstCidLen.toNat > 20 then throw (.invalidConnectionIdLength (← (data[0]? : Option UInt8)))
  let start := offset + 1
  let stop := start + dstCidLen.toNat
  if data.length < stop then throw .tooSmall
  let dstCid ← (data.slice? start stop : Option _)
  let offset := stop
  -- Source Connection ID
  let left ← (data.sliceFrom? offset : Option _)
  if left.isEmpty then throw .tooSmall
  let srcCidLen ← (left[0]? : Option UInt8)
  let offset ← (if srcCidLen.toNat > 0 then do
      let offset := offset + 1 + srcCidLen.toNat
      if data.length < offset then throw .tooSmall
      pure offset
    else pure (offset + 1))
  -- Token
  let left ← (data.sliceFrom? offset : Option _)
  let some tokenLen ← (VarInt.tryParse left : Option _) | throw .tooSmall
  let start := offset + tokenLen.encodedLen
  let total ← (addU64 start tokenLen.value : Option _)
  if total > data.length then throw (.invalidTokenLength tokenLen.value)
  let offset := start + tokenLen.value
  -- Length
  let left ← (data.sliceFrom? offset : Option _)
  let some length ← (VarInt.tryParse left : Option _) | throw .tooSmall
  let offset := offset + length.encodedLen
  let total ← (addU64 offset length.value : Option _)
  if total ≠ data.length then throw (.invalidLengthValue length.value)
  let left ← (data.sliceFrom? offset : Option _)
  -- 4 offset (maybe packet number) and 16 bytes sample
  if left.length < 20 then throw (.invalidLengthValue length.value)
  let pnOffset := offset
  let sample ← (left.slice? 4 20 : Option _)
  let secrets ← liftCrypto (ClientSecrets.new ossl v dstCid)
  let mask ← liftCrypto (ossl.aesEcbMask secrets.hp.toList sample)
  let header ← Header.decodeLong byte1 mask left
  let iv := header.xorNonce secrets.iv
  let aad ← (data.slice? 1 pnOffset : Option _)
  let packetNumberBytes ← (header.packetNumberBytes : Option _)
  let tagStart := left.length - 16
  let ciphertext ← (left.slice? header.packetNumberLen tagStart : Option _)
  let tag ← (left.sliceFrom? tagStart : Option _)
  let payload ← liftCrypto
    (ossl.aesGcmDecrypt secrets.key.toList iv.toList [[header.byte1], aad, packetNumberBytes] ciphertext tag)
  return ⟨header.packetNumber, payload⟩

/-- `InitialPacketV1::parse_client`. -/
def InitialPacketV1.parseClient (ossl : Openssl) (data : List UInt8) : ExceptT PacketParseError Option InitialPacketV :=
  parseInitial .v1 ossl data

/-- `InitialPacketV2::parse_client`. -/
def InitialPacketV2.parseClient (ossl : Openssl) (data : List UInt8) : ExceptT PacketParseError Option InitialPacketV :=
  parseInitial .v2 ossl data

/-- `InitialPacket`. -/
inductive InitialPacket where
  | v1 (p : InitialPacketV)
  | v2 (p : InitialPacketV)
  deriving Repr, DecidableEq

namespace InitialPacket

/-- `payload`. -/
def payload : InitialPacket → List UInt8
  | .v1 p | .v2 p => p.payload

/-- `InitialPacket::parse_client`. -/
def parseClient (ossl : Openssl) (data : List UInt8) : ExceptT PacketParseError Option InitialPacket := do
  if data.length < longPacketFixedLen then throw .tooSmall
  let byte1 ← (data[0]? : Option UInt8)
  if byte1 &&& 0xC0 ≠ 0xC0 then throw .notLongHeader
  let version := Bytes.beValue [← (data[1]? : Option UInt8), ← (data[2]? : Option UInt8), ← (data[3]? : Option UInt8),
    ← (data[4]? : Option UInt8)]
  match version with
  | 0x00000001 => InitialPacket.v1 <$> InitialPacketV1.parseClient ossl data
  | 0x6b3343cf => InitialPacket.v2 <$> InitialPacketV2.parseClient ossl data
  | _ => throw (.unknownVersion version)

/-- `consume_frames` with a `HandshakeCoalescer`. -/
def consumeFrames (p : InitialPacket) (c : HandshakeCoalescer) :
    Option (Except FrameParseError Unit × HandshakeCoalescer) :=
  Quic.consumeFrames p.payload c

end InitialPacket

/-! ## No panic -/

/-- The packet number length, the low two bits plus one, is one to four. -/
theorem packetNumberLen_le (x : UInt8) : ((x &&& 0b0000_0011) + 1).toNat ≤ 4 := by
  have h : (x &&& 0b0000_0011).toNat ≤ 3 := by
    rw [UInt8.toNat_and]
    exact Nat.and_le_right
  rw [UInt8.toNat_add, UInt8.toNat_one]
  omega

theorem Header.unmaskStep_isSome (mask : Vector UInt8 5) {data : List UInt8} {len i : Nat} (hlen : len ≤ 4)
    (hi : i < len) (hd : 4 ≤ data.length) (bytes : Vector UInt8 4) :
    ∃ bytes', Header.unmaskStep mask data len bytes i = some bytes' := by
  have hj : maxPacketNumberBytes - len + i < 4 := by simp only [maxPacketNumberBytes]; omega
  refine ⟨bytes.set (maxPacketNumberBytes - len + i) (mask[i + 1] ^^^ data[i]) hj, ?_⟩
  simp only [Header.unmaskStep, dif_pos hj]
  rw [show mask[i + 1]? = some mask[i + 1] from Vector.getElem?_eq_getElem (by omega),
    List.getElem?_eq_getElem (by omega)]
  rfl

/-- Within a packet of four bytes or more, removing the header protection
    does not panic, and the packet number takes one to four bytes. -/
theorem Header.decodeLong_noPanic (byte1 : UInt8) (mask : Vector UInt8 5) {data : List UInt8}
    (hd : 4 ≤ data.length) :
    NoPanic (Header.decodeLong byte1 mask data) fun h => h.packetNumberLen ≤ 4 := by
  have hlen := packetNumberLen_le ((byte1 ^^^ mask[0]) &&& 0x0F)
  unfold Header.decodeLong
  dsimp only
  rw [if_neg (by simp only [maxPacketNumberBytes]; omega)]
  obtain ⟨bytes, hb⟩ := List.foldlM_option_isSome (List.range _)
    (fun b i hi => Header.unmaskStep_isSome mask hlen (List.mem_range.1 hi) hd b) (Vector.replicate 4 0)
  exact NoPanic.bind_lift hb (NoPanic.pure hlen)

theorem Header.packetNumberBytes_isSome (h : Header) : ∃ bs, h.packetNumberBytes = some bs :=
  ⟨_, List.sliceFrom?_eq (by simp [maxPacketNumberBytes])⟩

theorem parseInitial_noPanic (v : InitialVersion) (ossl : Openssl) {data : List UInt8}
    (hmin : longPacketFixedLen ≤ data.length) (hmax : data.length < 2 ^ 63) :
    NoPanic (parseInitial v ossl data) fun _ => True := by
  have hL : longPacketFixedLen = 5 := rfl
  have hb1 : data[0]? = some data[0] := List.getElem?_eq_getElem (by omega)
  unfold parseInitial
  refine NoPanic.bind_lift hb1 (NoPanic.ite_throw fun _ => ?_)
  -- Destination Connection ID
  refine NoPanic.bind_lift (List.sliceFrom?_eq hmin) (NoPanic.ite_throw fun hne => ?_)
  have hd₁ : 0 < (data.drop longPacketFixedLen).length := by
    simpa [List.isEmpty_iff, ← List.length_pos_iff] using hne
  refine NoPanic.bind_lift (List.getElem?_eq_getElem hd₁) ?_
  refine NoPanic.ite (fun _ => NoPanic.bind_lift hb1 (NoPanic.throw_bind _ _)) fun hcid => ?_
  refine NoPanic.ite_throw fun hstop => ?_
  refine NoPanic.bind_lift (List.slice?_eq (Nat.le_add_right _ _) (by omega)) ?_
  -- Source Connection ID
  refine NoPanic.bind_lift (List.sliceFrom?_eq (by omega)) (NoPanic.ite_throw fun hne₂ => ?_)
  have hd₂ : 0 < (data.drop (longPacketFixedLen + 1 + (data.drop longPacketFixedLen)[0].toNat)).length := by
    simpa [List.isEmpty_iff, ← List.length_pos_iff] using hne₂
  refine NoPanic.bind_lift (List.getElem?_eq_getElem hd₂) ?_
  refine NoPanic.bind (Q := fun o => o ≤ data.length) ?_ fun offset hoff => ?_
  · rw [List.length_drop] at hd₂
    exact NoPanic.ite (fun _ => NoPanic.ite_throw fun h => NoPanic.pure (by omega)) fun _ => NoPanic.pure (by omega)
  -- Token
  obtain ⟨r, hr, hread⟩ := VarInt.tryParse_spec (data.drop offset)
  refine NoPanic.bind_lift (List.sliceFrom?_eq hoff) (NoPanic.bind_lift hr ?_)
  cases r with
  | none => exact NoPanic.throw _
  | some tokenLen =>
    obtain ⟨-, -, htok, hval⟩ := hread tokenLen rfl
    rw [List.length_drop] at htok
    -- an offset within the packet plus a value below `2 ^ 62`: no `u64` overflow
    refine NoPanic.bind_lift (addU64_eq (by omega)) (NoPanic.ite_throw fun htot => ?_)
    -- Length
    obtain ⟨r', hr', hread'⟩ := VarInt.tryParse_spec (data.drop (offset + tokenLen.encodedLen + tokenLen.value))
    refine NoPanic.bind_lift (List.sliceFrom?_eq (by omega)) (NoPanic.bind_lift hr' ?_)
    cases r' with
    | none => exact NoPanic.throw _
    | some length =>
      obtain ⟨hpos', -, hlen, hval'⟩ := hread' length rfl
      rw [List.length_drop] at hlen
      refine NoPanic.bind_lift (addU64_eq (by omega)) (NoPanic.ite_throw fun htot' => ?_)
      refine NoPanic.bind_lift (List.sliceFrom?_eq (by omega)) (NoPanic.ite_throw fun h20 => ?_)
      rw [List.length_drop] at h20
      -- the sample, the secrets, the mask and the header
      refine NoPanic.bind_lift (List.slice?_eq (by omega) (by simp; omega)) ?_
      refine NoPanic.bind (liftCrypto_noPanic _) fun secrets _ => ?_
      refine NoPanic.bind (liftCrypto_noPanic _) fun mask _ => ?_
      refine NoPanic.bind (Header.decodeLong_noPanic _ _ (by simp; omega)) fun header hpn => ?_
      -- the associated data, the ciphertext and the tag
      obtain ⟨pnBytes, hpnb⟩ := header.packetNumberBytes_isSome
      refine NoPanic.bind_lift (List.slice?_eq (by omega) (by omega)) (NoPanic.bind_lift hpnb ?_)
      refine NoPanic.bind_lift (List.slice?_eq (by simp; omega) (by simp)) ?_
      refine NoPanic.bind_lift (List.sliceFrom?_eq (by simp)) ?_
      exact NoPanic.bind (liftCrypto_noPanic _) fun _ _ => NoPanic.pure trivial

/-- On every packet of at most `isize::MAX` bytes, whatever the OpenSSL
    calls return, `InitialPacket::parse_client` does not panic. -/
theorem InitialPacket.parseClient_noPanic (ossl : Openssl) {data : List UInt8} (hmax : data.length < 2 ^ 63) :
    NoPanic (InitialPacket.parseClient ossl data) fun _ => True := by
  unfold InitialPacket.parseClient
  refine NoPanic.ite_throw fun hmin => ?_
  have hmin : longPacketFixedLen ≤ data.length := Nat.le_of_not_lt hmin
  have hL : longPacketFixedLen = 5 := rfl
  have hb : ∀ i (hi : i < data.length), data[i]? = some data[i] := fun i hi => List.getElem?_eq_getElem hi
  refine NoPanic.bind_lift (hb 0 (by omega)) (NoPanic.ite_throw fun _ => ?_)
  refine NoPanic.bind_lift (hb 1 (by omega)) (NoPanic.bind_lift (hb 2 (by omega))
    (NoPanic.bind_lift (hb 3 (by omega)) (NoPanic.bind_lift (hb 4 (by omega)) ?_)))
  dsimp only
  split
  · exact NoPanic.map (parseInitial_noPanic .v1 ossl hmin hmax)
  · exact NoPanic.map (parseInitial_noPanic .v2 ossl hmin hmax)
  · exact NoPanic.throw _

/-! ## The parsers of the DPI path -/

/-- From a QUIC Initial packet or a TLS record to the server name: on every
    input (a packet of at most `isize::MAX` bytes), whatever the OpenSSL
    calls return and whatever the coalescer received before, no parser
    panics and every loop stops; the ACK range loop makes at most
    `(data.length - offset) / 2 + 1` passes whatever count it reads. -/
theorem dpi_parsers_never_panic :
    (∀ (ossl : Openssl) (data : List UInt8), data.length < 2 ^ 63 → (InitialPacket.parseClient ossl data).run.isSome) ∧
    (∀ (payload : List UInt8) (c : HandshakeCoalescer), c.Built → (consumeFrames payload c).isSome) ∧
    (∀ data : List UInt8, (CryptoFrame.parse data).run.isSome) ∧
    (∀ (data : List UInt8) (ecn : Bool), (AckFrame.parse data ecn).run.isSome) ∧
    (∀ (data : List UInt8) (count offset : Nat) (ackRanges : List AckRange), offset ≤ data.length →
      parseAckRanges data count offset ackRanges =
        parseAckRanges data (min count ((data.length - offset) / 2 + 1)) offset ackRanges) ∧
    (∀ data : List UInt8, (VarInt.tryParse data).isSome) ∧
    (∀ (data : List UInt8) (r : Tls.Record), Tls.Record.parse data = .ok r →
      data.slice? 5 (5 + r.header.fragmentSize) = some r.fragment) ∧
    (∀ data : List UInt8, (Tls.ClientHello.parseMsgData data).run.isSome) ∧
    (∀ (data : List UInt8) (extType : Tls.ExtensionType), (Tls.ExtensionList.getExt data extType).run.isSome) ∧
    (∀ buf : List UInt8, (Tls.TlsServerName.fromExtensionValue buf).run.isSome) ∧
    (∀ buf : List UInt8, (Tls.TlsAlpn.fromExtensionValue buf).run.isSome) := by
  refine ⟨fun ossl _ hmax => (InitialPacket.parseClient_noPanic ossl hmax).isSome, fun payload c hc => ?_,
    fun data => (CryptoFrame.parse_noPanic data).isSome, fun data ecn => (AckFrame.parse_noPanic data ecn).isSome,
    fun _ count _ ackRanges h => parseAckRanges_min count ackRanges h, fun data => ?_,
    fun _ _ h => (Tls.Record.parse_fragment h).2, fun data => (Tls.ClientHello.parseMsgData_noPanic data).isSome,
    fun data extType => (Tls.ExtensionList.getExt_noPanic data extType).isSome,
    fun buf => (Tls.TlsServerName.fromExtensionValue_noPanic buf).isSome,
    fun buf => (Tls.TlsAlpn.fromExtensionValue_noPanic buf).isSome⟩
  · obtain ⟨r, c', h, -⟩ := consumeFrames_noPanic payload hc.sound
    simp [h]
  · obtain ⟨r, h, -⟩ := VarInt.tryParse_spec data
    simp [h]

/-- OpenSSL calls that all fail. -/
def Openssl.failing : Openssl :=
  ⟨fun _ _ _ _ => .error ⟨[]⟩, fun _ _ _ => .error ⟨[]⟩, fun _ _ => .error ⟨[]⟩, fun _ _ _ _ _ => .error ⟨[]⟩⟩

/-- A version-1 long header with empty connection IDs, no token and a
    length of twenty, whose secrets cannot be derived; a payload of a PING
    and a PADDING frame given to a new coalescer. -/
theorem dpi_parsers_never_panic_initial :
    (InitialPacket.parseClient .failing
        ([0xc0, 0, 0, 0, 1, 0, 0, 0, 20] ++ List.replicate 20 0)).run.isSome ∧
      (consumeFrames [0x01, 0x00] HandshakeCoalescer.default).isSome :=
  ⟨dpi_parsers_never_panic.1 .failing _ (by simp),
    dpi_parsers_never_panic.2.1 _ _ (.new _)⟩

end Quic

end G3Proxy
