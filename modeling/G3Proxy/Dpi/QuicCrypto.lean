/-
  The reassembly of a TLS handshake message carried in QUIC CRYPTO frames
  (g3-dpi `parser/quic/frame/crypto.rs`, `HandshakeCoalescer`).

  Frames arrive at arbitrary stream offsets.  The coalescer keeps the
  message in `buf`, of which the first `unfilled_offset` bytes are filled
  without a gap, and the frames seen past that point as `Fragment`s in a
  `BTreeSet`, here the list of its elements in increasing order
  (`insertFragment` is `BTreeSet::insert`, `retain` a `filter`, the `for`
  loop a walk from the front).

  * `recvCrypto` is `recv_crypto`, cut at the blocks of the source: a frame
    at or before the filled prefix is written inside `buf`
    (`writeInOrder`, which then grows the prefix over the stored fragments it
    reaches, `mergeFragments`) or extends `buf` (`extendBuf`); after either
    the header is looked for while the length is unknown (`discoverHeader`).
    A frame past the prefix is written into `buf` and stored
    (`storeFragment`), or rejected.  A slice of `buf` out of range is a panic,
    `none`; the error comes with the state the call leaves, since the
    header-size error is returned after `buf` was already written.
  * `recvAll` delivers frames one call after another, whatever each call
    returns, and collects the frames that were accepted.
  * `parseClientHello` takes the parser of the message body
    (`ClientHello::parse_msg_data`) as a parameter.
-/
import G3Proxy.Dpi.Tls

namespace G3Proxy

namespace Quic

open Tls

/-- `FrameParseError`. -/
inductive FrameParseError where
  | invalidFrameType (t : Nat)
  | notEnoughData
  | tooBigOffsetValue (v : Nat)
  | outOfOrderFrame (msg : String)
  | malformedFrame (msg : String)
  deriving Repr, DecidableEq

/-- `CryptoFrame`: the offset of its data in the crypto stream, and the
    data. -/
structure CryptoFrame where
  streamOffset : Nat
  data : List UInt8
  deriving Repr, DecidableEq

/-- `Fragment`: a frame stored past the filled prefix. -/
structure Fragment where
  offset : Nat
  length : Nat
  deriving Repr, DecidableEq

/-- `Ord for Fragment`: by offset, then by length. -/
def Fragment.cmp (a b : Fragment) : Ordering :=
  match compare a.offset b.offset with
  | .gt => .gt
  | .lt => .lt
  | .eq => compare a.length b.length

/-- `BTreeSet::insert` on the elements of the set in increasing order: an
    element equal to one present leaves the set as it is. -/
def insertFragment (f : Fragment) : List Fragment → List Fragment
  | [] => [f]
  | g :: s =>
    match f.cmp g with
    | .lt => f :: g :: s
    | .eq => g :: s
    | .gt => g :: insertFragment f s

/-! ## Buffer operations -/

/-- `copy_nonoverlapping` of `data` into `&mut buf[lo..lo + data.len()]`;
    `none` when the range is outside `buf` (the slice panics). -/
def writeSlice (buf : List UInt8) (lo : Nat) (data : List UInt8) : Option (List UInt8) :=
  if lo + data.length ≤ buf.length then some (buf.take lo ++ data ++ buf.drop (lo + data.length))
  else none

/-- `Vec::resize(n, 0)`. -/
def resize (buf : List UInt8) (n : Nat) : List UInt8 :=
  buf.take n ++ List.replicate (n - buf.length) 0

/-- `&buf[..n]`; `none` when `n` is past the end. -/
def sliceTo (buf : List UInt8) (n : Nat) : Option (List UInt8) :=
  if n ≤ buf.length then some (buf.take n) else none

/-! ## The coalescer -/

/-- `HandshakeCoalescer`. -/
structure HandshakeCoalescer where
  maxMessageSize : Nat
  header : Option HandshakeHeader
  buf : List UInt8
  unfilledOffset : Nat
  expectedLength : Nat
  fragmentSet : List Fragment
  deriving Repr, DecidableEq

namespace HandshakeCoalescer

/-- `HandshakeCoalescer::new`. -/
def new (maxMessageSize : Nat) : HandshakeCoalescer := ⟨maxMessageSize, none, [], 0, 0, []⟩

/-- `HandshakeCoalescer::default`. -/
def default : HandshakeCoalescer := new (2 ^ 14)

/-- `finished`. -/
def finished (c : HandshakeCoalescer) : Bool :=
  c.expectedLength > 0 && c.expectedLength == c.unfilledOffset

/-- `parse_client_hello`, with `ClientHello::parse_msg_data` as `parseMsgData`. -/
def parseClientHello {α : Type} (parseMsgData : List UInt8 → Except ClientHelloParseError α)
    (c : HandshakeCoalescer) : Except ClientHelloParseError (Option α) :=
  match c.header with
  | none => .ok none
  | some hdr =>
    if hdr.msgType ≠ clientHelloType then .error (.invalidMessageType hdr.msgType)
    else if c.finished then (parseMsgData (c.buf.drop HandshakeHeader.size)).map some
    else .ok none

/-- The loop over the stored fragments, from the smallest: the filled prefix
    grows over each fragment that starts inside it, and the loop stops at the
    first that starts past it. -/
def mergeFragments : List Fragment → Nat → Nat
  | [], unfilled => unfilled
  | f :: fs, unfilled =>
    if f.offset > unfilled then unfilled
    else mergeFragments fs (if f.offset + f.length > unfilled then f.offset + f.length else unfilled)

/-- "write part of the buf": the frame ends inside `buf`.  When it goes past
    the filled prefix, the prefix grows to its end and over the stored
    fragments it then reaches, which are dropped from the set. -/
def writeInOrder (c : HandshakeCoalescer) (frame : CryptoFrame) : Option HandshakeCoalescer :=
  let frameStreamEnd := frame.streamOffset + frame.data.length
  (writeSlice c.buf frame.streamOffset frame.data).map fun buf =>
    if frameStreamEnd > c.unfilledOffset then
      if c.fragmentSet.isEmpty then { c with buf, unfilledOffset := frameStreamEnd }
      else
        let unfilledOffset := mergeFragments c.fragmentSet frameStreamEnd
        { c with buf, unfilledOffset,
                 fragmentSet := c.fragmentSet.filter fun v => v.offset > unfilledOffset }
    else { c with buf }

/-- "extend the buf with some new data": `buf` is cut (or padded) to the
    frame's offset, the frame appended, and all of it counted as filled. -/
def extendBuf (c : HandshakeCoalescer) (frame : CryptoFrame) : HandshakeCoalescer :=
  let buf := resize c.buf frame.streamOffset ++ frame.data
  { c with buf, unfilledOffset := buf.length }

/-- While the message length is unknown, the header is parsed from the
    filled prefix; a header in range fixes the length and sizes `buf` to it. -/
def discoverHeader (c : HandshakeCoalescer) : Option (Except FrameParseError Unit × HandshakeCoalescer) :=
  if c.expectedLength = 0 then
    (sliceTo c.buf c.unfilledOffset).map fun filled =>
      match HandshakeHeader.tryParse filled with
      | some header =>
        if header.msgLength > c.maxMessageSize then
          -- use the same size limit as TLS record
          (.error (.malformedFrame "too large message length for TLS handshake"), c)
        else
          let expectedLength := header.msgLength + HandshakeHeader.size
          (.ok (), { c with expectedLength, header := some header, buf := resize c.buf expectedLength })
      | none => (.ok (), c)
  else some (.ok (), c)

/-- A frame past the filled prefix, once the length is known: its data is
    written into `buf` and the frame stored. -/
def storeFragment (c : HandshakeCoalescer) (frame : CryptoFrame) : Option HandshakeCoalescer :=
  (writeSlice c.buf frame.streamOffset frame.data).map fun buf =>
    { c with buf, fragmentSet := insertFragment ⟨frame.streamOffset, frame.data.length⟩ c.fragmentSet }

/-- `recv_crypto`: the result and the state the call leaves; `none` is a
    panic. -/
def recvCrypto (c : HandshakeCoalescer) (frame : CryptoFrame) :
    Option (Except FrameParseError Unit × HandshakeCoalescer) :=
  let frameStreamEnd := frame.streamOffset + frame.data.length
  if frame.streamOffset ≤ c.unfilledOffset then
    if c.expectedLength > 0 ∧ frameStreamEnd > c.expectedLength then
      some (.error (.malformedFrame "more data than expected in crypto frame"), c)
    else
      let filled := if c.buf.length > frameStreamEnd then c.writeInOrder frame else some (c.extendBuf frame)
      filled.bind discoverHeader
  else if c.expectedLength = 0 then
    -- drop all other frames if we don't know the real length
    some (.error (.outOfOrderFrame "handshake header missing when receiving from crypto frame"), c)
  else if frame.streamOffset > c.expectedLength then
    some (.error (.malformedFrame "too big stream offset value in crypto frame"), c)
  else if frameStreamEnd > c.expectedLength then
    some (.error (.malformedFrame "more data than expected in crypto frame"), c)
  else (c.storeFragment frame).map fun c => (.ok (), c)

/-- `recv_crypto` on each frame in turn, whatever each call returns: the
    state at the end and the frames the calls accepted. -/
def recvAll (c : HandshakeCoalescer) : List CryptoFrame → Option (HandshakeCoalescer × List CryptoFrame)
  | [] => some (c, [])
  | f :: fs =>
    (c.recvCrypto f).bind fun (r, c') =>
      (recvAll c' fs).map fun (c'', accepted) => (c'', if r.isOk then f :: accepted else accepted)

/-- The tail first is refused, the header not being known; the first two
    bytes and an overlapping frame to the end then complete the message. -/
example :
    ((new 16).recvAll [⟨2, [0, 1, 0x42]⟩, ⟨0, [1, 0]⟩, ⟨1, [0, 0, 1, 0x42]⟩]).map
      (fun (c, accepted) => (c.finished, c.buf, accepted.length)) = some (true, [1, 0, 0, 1, 0x42], 2) := by
  decide

end HandshakeCoalescer

end Quic

end G3Proxy
