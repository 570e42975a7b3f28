/-
  TLS records and the coalescing of a handshake message split over several
  of them (g3-dpi `parser/tls/record.rs`, `parser/tls/handshake/mod.rs`).

  * `Record.parse` reads a record header and its fragment;
    `Record.consumeHandshake` takes the next handshake bytes of the fragment:
    a whole message when the coalescer is empty and the fragment holds one,
    else what `HandshakeCoalescer.coalesceFragment` takes, and advances
    `consumeOffset` by the count it is given.
  * `coalesceFragment` has three regimes: the first fragment
    (`addFirstFragment`), a fragment after the header is known (it takes
    what the message still needs), and a fragment while the header is still
    incomplete, which appends the whole fragment, parses the header, and,
    if the message is then complete, cuts the buffer back to the message.
    The count that regime returns is computed after the cut, so it is the
    whole fragment, also when the fragment goes on after the message.
  * `feed` is the caller's loop, one `consume_handshake` per record until
    the message is complete.  `feed_split_header_overconsumes` is a message
    split inside its header and followed by one more byte in its last
    record: that byte is consumed with it.
-/
import Mathlib

namespace G3Proxy

namespace Tls

/-! ## Handshake messages -/

/-- `HandshakeHeader`: the message type and the 24-bit length. -/
structure HandshakeHeader where
  msgType : UInt8
  msgLength : Nat
  deriving Repr, DecidableEq

namespace HandshakeHeader

/-- `HandshakeHeader::SIZE`. -/
def size : Nat := 4

/-- `HandshakeHeader::try_parse`. -/
def tryParse : List UInt8 → Option HandshakeHeader
  | t :: b1 :: b2 :: b3 :: _ => some ⟨t, b1.toNat * 65536 + b2.toNat * 256 + b3.toNat⟩
  | _ => none

/-- `encoded_cap`. -/
def encodedCap (h : HandshakeHeader) : Nat := size + h.msgLength

end HandshakeHeader

/-- `HandshakeMessage`: the header and the bytes of the whole message. -/
structure HandshakeMessage where
  header : HandshakeHeader
  msgData : List UInt8
  deriving Repr, DecidableEq

/-- `HandshakeMessage::try_parse_fragment`: a whole message at the start of
    the data. -/
def HandshakeMessage.tryParseFragment (data : List UInt8) : Option HandshakeMessage :=
  match HandshakeHeader.tryParse data with
  | none => none
  | some header =>
    if header.encodedCap ≤ data.length then some ⟨header, data.take header.encodedCap⟩
    else none

/-- `encoded_len`. -/
def HandshakeMessage.encodedLen (m : HandshakeMessage) : Nat := m.msgData.length

/-- `HandshakeCoalesceError`. -/
inductive HandshakeCoalesceError where
  | invalidContentType (t : UInt8)
  | tooLargeMessageSize (n : Nat)
  deriving Repr, DecidableEq

/-- `HandshakeCoalescer`.  On an error the caller drops it, so the model
    returns no coalescer with an error. -/
structure HandshakeCoalescer where
  maxMessageSize : Nat
  header : Option HandshakeHeader
  buf : List UInt8
  deriving Repr, DecidableEq

namespace HandshakeCoalescer

/-- `HandshakeCoalescer::new`. -/
def new (maxMessageSize : Nat) : HandshakeCoalescer := ⟨maxMessageSize, none, []⟩

/-- `HandshakeCoalescer::default`. -/
def default : HandshakeCoalescer := new (2 ^ 14)

/-- `is_empty`. -/
def isEmpty (c : HandshakeCoalescer) : Bool := c.buf.isEmpty

/-- `add_first_fragment`: the count taken and the coalescer. -/
def addFirstFragment (c : HandshakeCoalescer) (data : List UInt8) :
    Except HandshakeCoalesceError (Nat × HandshakeCoalescer) :=
  match HandshakeHeader.tryParse data with
  | some hdr =>
    if hdr.msgLength > c.maxMessageSize then .error (.tooLargeMessageSize hdr.msgLength)
    else
      let cap := hdr.encodedCap
      if cap ≥ data.length then .ok (data.length, { c with header := some hdr, buf := c.buf ++ data })
      else .ok (cap, { c with header := some hdr, buf := c.buf ++ data.take cap })
  | none => .ok (data.length, { c with buf := c.buf ++ data })

/-- `coalesce_fragment`. -/
def coalesceFragment (c : HandshakeCoalescer) (data : List UInt8) :
    Except HandshakeCoalesceError (Nat × HandshakeCoalescer) :=
  if c.isEmpty then c.addFirstFragment data
  else match c.header with
    | some hdr =>
      let needed := hdr.encodedCap - c.buf.length
      if needed ≥ data.length then .ok (data.length, { c with buf := c.buf ++ data })
      else .ok (needed, { c with buf := c.buf ++ data.take needed })
    | none =>
      let buf := c.buf ++ data
      match HandshakeHeader.tryParse buf with
      | some hdr =>
        if hdr.msgLength > c.maxMessageSize then .error (.tooLargeMessageSize hdr.msgLength)
        else
          let cap := hdr.encodedCap
          if cap > buf.length then .ok (data.length, { c with header := some hdr, buf := buf })
          else
            -- `self.buf.resize(cap, 0)`, then the count from the resized buffer
            let buf := buf.take cap
            .ok (data.length - (buf.length - cap), { c with header := some hdr, buf := buf })
      | none => .ok (data.length, { c with buf := buf })

end HandshakeCoalescer

/-! ## Records -/

/-- `ContentType`. -/
inductive ContentType where
  | invalid
  | changeCipherSpec
  | alert
  | handshake
  | applicationData
  | heartbeat
  deriving Repr, DecidableEq

/-- The wire value of a content type. -/
def ContentType.toU8 : ContentType → UInt8
  | .invalid => 0
  | .changeCipherSpec => 20
  | .alert => 21
  | .handshake => 22
  | .applicationData => 23
  | .heartbeat => 24

/-- `ContentType::try_from`. -/
def ContentType.tryFrom (v : UInt8) : Option ContentType :=
  if v = 20 then some .changeCipherSpec
  else if v = 21 then some .alert
  else if v = 22 then some .handshake
  else if v = 23 then some .applicationData
  else if v = 24 then some .heartbeat
  else none

/-- `RawVersion`. -/
structure RawVersion where
  major : UInt8
  minor : UInt8
  deriving Repr, DecidableEq

/-- `ClientHelloParseError`. -/
inductive ClientHelloParseError where
  | invalidContentType (t : UInt8)
  | invalidFragmentLength
  | invalidMessageType (t : UInt8)
  | invalidMessageLength
  | invalidCipherSuitesLength
  | unsupportedVersion (v : RawVersion)
  deriving Repr, DecidableEq

/-- `HandshakeType::ClientHello`. -/
def clientHelloType : UInt8 := 1

/-- `RecordParseError`. -/
inductive RecordParseError where
  | needMoreData (n : Nat)
  | unsupportedVersion (v : RawVersion)
  | invalidContentType (t : UInt8)
  | fragmentLengthExceeded
  deriving Repr, DecidableEq

/-- `RecordHeader`. -/
structure RecordHeader where
  version : RawVersion
  contentType : ContentType
  fragmentSize : Nat
  deriving Repr, DecidableEq

/-- `RecordHeader::parse` on the five header bytes. -/
def RecordHeader.parse (b0 b1 b2 b3 b4 : UInt8) : Except RecordParseError RecordHeader :=
  match ContentType.tryFrom b0 with
  | none => .error (.invalidContentType b0)
  | some contentType =>
    if (b1 = 1 ∧ b2 = 1) ∨ (b1 = 3 ∧ b2 ≤ 3) then
      .ok ⟨⟨b1, b2⟩, contentType, b3.toNat * 256 + b4.toNat⟩
    else .error (.unsupportedVersion ⟨b1, b2⟩)

/-- `Record`. -/
structure Record where
  header : RecordHeader
  fragment : List UInt8
  consumeOffset : Nat
  deriving Repr, DecidableEq

namespace Record

/-- `Record::parse`. -/
def parse (data : List UInt8) : Except RecordParseError Record :=
  match data with
  | b0 :: b1 :: b2 :: b3 :: b4 :: rest =>
    match RecordHeader.parse b0 b1 b2 b3 b4 with
    | .error e => .error e
    | .ok header =>
      if header.fragmentSize > 2 ^ 14 then .error .fragmentLengthExceeded
      else if rest.length < header.fragmentSize then
        .error (.needMoreData (header.fragmentSize - rest.length))
      else .ok ⟨header, rest.take header.fragmentSize, 0⟩
  | _ => .error (.needMoreData (5 - data.length))

/-- `encoded_len`. -/
def encodedLen (r : Record) : Nat := 5 + r.fragment.length

/-- `consume_done`. -/
def consumeDone (r : Record) : Bool := r.consumeOffset ≥ r.fragment.length

/-- `consume_handshake`. -/
def consumeHandshake (r : Record) (c : HandshakeCoalescer) :
    Except HandshakeCoalesceError (Option HandshakeMessage × Record × HandshakeCoalescer) :=
  if r.header.contentType ≠ .handshake then .error (.invalidContentType r.header.contentType.toU8)
  else if r.consumeDone then .ok (none, r, c)
  else
    let fragment := r.fragment.drop r.consumeOffset
    let whole := if c.isEmpty then HandshakeMessage.tryParseFragment fragment else none
    match whole with
    | some msg => .ok (some msg, { r with consumeOffset := r.consumeOffset + msg.encodedLen }, c)
    | none =>
      match c.coalesceFragment fragment with
      | .error e => .error e
      | .ok (n, c) => .ok (none, { r with consumeOffset := r.consumeOffset + n }, c)

end Record

/-! ## Feeding a split message -/

/-- The completeness test of `HandshakeCoalescer::parse_client_hello`: the
    header is known and the buffer holds the whole message. -/
def HandshakeCoalescer.complete (c : HandshakeCoalescer) : Bool :=
  match c.header with
  | some hdr => hdr.encodedCap = c.buf.length
  | none => false

/-- The caller's loop (the SNI proxy's): one `consume_handshake` per record,
    until a message comes back or the coalescer holds a whole one.  The
    result is the message, if one was completed, and the advance of each
    record's `consume_offset`. -/
def feed (c : HandshakeCoalescer) :
    List Record → Except HandshakeCoalesceError (Option (List UInt8) × List Nat)
  | [] => .ok (none, [])
  | r :: rs =>
    match r.consumeHandshake c with
    | .error e => .error e
    | .ok (some msg, r', _) => .ok (some msg.msgData, [r'.consumeOffset - r.consumeOffset])
    | .ok (none, r', c') =>
      if c'.complete then .ok (some c'.buf, [r'.consumeOffset - r.consumeOffset])
      else
        match feed c' rs with
        | .error e => .error e
        | .ok (m, advances) => .ok (m, (r'.consumeOffset - r.consumeOffset) :: advances)

/-- How many bytes of a message of `m` bytes each fragment of a split
    carries, up to the fragment with its last byte. -/
def carried : Nat → List (List UInt8) → List Nat
  | _, [] => []
  | m, f :: fs => if m ≤ f.length then [m] else f.length :: carried (m - f.length) fs

/-- A TLS 1.2 handshake record with this fragment, as `Record::parse` returns it. -/
def handshakeRecord (f : List UInt8) : Record := ⟨⟨⟨3, 3⟩, .handshake, f.length⟩, f, 0⟩

/-- A ClientHello of one body byte, split after two bytes of its header,
    followed by one more byte in its second record: the second record's
    offset advances by four, the byte after the message included, where the
    message has three bytes in it. -/
theorem feed_split_header_overconsumes :
    Record.parse [22, 3, 3, 0, 2, 1, 0] = .ok (handshakeRecord [1, 0]) ∧
    Record.parse [22, 3, 3, 0, 4, 0, 1, 0x42, 0xAA] = .ok (handshakeRecord [0, 1, 0x42, 0xAA]) ∧
    feed (.new (2 ^ 14)) [handshakeRecord [1, 0], handshakeRecord [0, 1, 0x42, 0xAA]] =
      .ok (some [1, 0, 0, 1, 0x42], [2, 4]) ∧
    carried 5 [[1, 0], [0, 1, 0x42, 0xAA]] = [2, 3] := by
  decide

end Tls

end G3Proxy
