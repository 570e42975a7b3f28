/-
  The body of a TLS ClientHello and its extensions (g3-dpi
  `parser/tls/handshake/client_hello.rs`, `parser/tls/extension.rs`), and
  the values of the server name and ALPN extensions (g3-types
  `net/tls/server_name.rs`, `net/tls/alpn.rs`).

  The parsers are `ExceptT _ Option` blocks as in `Dpi.QuicFrame`: a slice or
  an index out of range is `none`.  The `while` loops over the extension
  list and over the ALPN names are loops with a pass for each byte and one
  to stop; running out of passes is `none` too.

  * `ClientHello.parseMsgData_noPanic`: each slice of the body comes after
    the check of its length;
  * `ExtensionList.getExt_noPanic`, `TlsAlpn.fromExtensionValue_noPanic`:
    each pass of the loops stays in the data and moves past four (two)
    bytes or more, so the loops neither panic nor run out;
    `TlsServerName.fromExtensionValue_noPanic`;
  * `Record.parse_fragment`: the fragment `Record::parse` returns is the
    slice `data[5..5 + fragment_size]`, which is in range.
-/
import G3Proxy.Dpi.Tls
import G3Proxy.Core.Bytes
import G3Proxy.Core.Lists
import G3Proxy.Core.Panic

namespace G3Proxy

namespace Tls

open ExceptT (NoPanic)

/-! ## The ClientHello body -/

/-- `ClientHello`. -/
structure ClientHello where
  legacyVersion : RawVersion
  cipherSuites : List UInt8
  compressionMethods : Option (List UInt8)
  extensions : Option (List UInt8)
  deriving Repr, DecidableEq

/-- `ensure_min!`. -/
def ensureMin (buf : List UInt8) (min : Nat) : ExceptT ClientHelloParseError Option Unit :=
  if buf.length < min then throw .invalidMessageLength else pure ()

/-- `RANDOM_FIELD_SIZE`. -/
def randomFieldSize : Nat := 32

/-- `ClientHello::parse_msg_data`. -/
def ClientHello.parseMsgData (data : List UInt8) : ExceptT ClientHelloParseError Option ClientHello := do
  ensureMin data 2
  let major ← (data[0]? : Option UInt8)
  let minor ← (data[1]? : Option UInt8)
  let legacyVersion : RawVersion := ⟨major, minor⟩
  -- TLCP 1.1, SSL 3.0, TLS 1.0 to 1.3
  if ¬((major = 1 ∧ minor = 1) ∨ (major = 3 ∧ minor ≤ 3)) then throw (.unsupportedVersion legacyVersion)
  let offset := 2
  -- Random Data
  let left ← (data.sliceFrom? offset : Option _)
  ensureMin left randomFieldSize
  let offset := offset + randomFieldSize
  -- Session ID
  let left ← (data.sliceFrom? offset : Option _)
  if left.isEmpty then throw .invalidMessageLength
  let sessionIdLen := (← (left[0]? : Option UInt8)).toNat
  ensureMin left (1 + sessionIdLen)
  let offset := offset + 1 + sessionIdLen
  -- Cipher Suites
  let left ← (data.sliceFrom? offset : Option _)
  ensureMin left 2
  let cipherSuitesLen := Bytes.beValue [← (left[0]? : Option UInt8), ← (left[1]? : Option UInt8)]
  if cipherSuitesLen = 0 ∨ cipherSuitesLen &&& 0x01 ≠ 0 then throw .invalidCipherSuitesLength
  ensureMin left (2 + cipherSuitesLen)
  let start := offset + 2
  let stop := start + cipherSuitesLen
  let cipherSuites ← (data.slice? start stop : Option _)
  let offset := stop
  -- Compression Methods
  let left ← (data.sliceFrom? offset : Option _)
  if left.isEmpty then throw .invalidMessageLength
  let compressionMethodsLen := (← (left[0]? : Option UInt8)).toNat
  let (compressionMethods, offset) ← (if compressionMethodsLen > 0 then do
      ensureMin left (1 + compressionMethodsLen)
      let start := offset + 1
      let stop := start + compressionMethodsLen
      pure (some (← (data.slice? start stop : Option _)), stop)
    else pure (none, offset + 1))
  if data.length ≤ offset then
    -- No Extensions
    return ⟨legacyVersion, cipherSuites, compressionMethods, none⟩
  -- Extensions
  let left ← (data.sliceFrom? offset : Option _)
  ensureMin left 2
  let extensionsLen := Bytes.beValue [← (left[0]? : Option UInt8), ← (left[1]? : Option UInt8)]
  let (extensions, offset) ← (if extensionsLen > 0 then do
      ensureMin left (2 + extensionsLen)
      let start := offset + 2
      let stop := start + extensionsLen
      pure (some (← (data.slice? start stop : Option _)), stop)
    else pure (none, offset + 2))
  if data.length > offset then throw .invalidMessageLength
  return ⟨legacyVersion, cipherSuites, compressionMethods, extensions⟩

/-! ## Extensions -/

/-- `ExtensionParseError`. -/
inductive ExtensionParseError where
  | notEnoughData
  | invalidLength
  deriving Repr, DecidableEq

/-- `ExtensionType`. -/
inductive ExtensionType where
  | serverName
  | maxFragmentLength
  | statusRequest
  | supportedGroups
  | signatureAlgorithms
  | useSrtp
  | heartbeat
  | applicationLayerProtocolNegotiation
  | signedCertificateTimestamp
  | clientCertificateType
  | serverCertificateType
  | padding
  | preSharedKey
  | earlyData
  | supportedVersions
  | cookie
  | pskKeyExchangeModes
  | certificateAuthorities
  | oidFilters
  | postHandshakeAuth
  | signatureAlgorithmsCert
  | keyShare
  deriving Repr, DecidableEq

/-- `ext_type as u16`. -/
def ExtensionType.toU16 : ExtensionType → Nat
  | .serverName => 0
  | .maxFragmentLength => 1
  | .statusRequest => 5
  | .supportedGroups => 10
  | .signatureAlgorithms => 13
  | .useSrtp => 14
  | .heartbeat => 15
  | .applicationLayerProtocolNegotiation => 16
  | .signedCertificateTimestamp => 18
  | .clientCertificateType => 19
  | .serverCertificateType => 20
  | .padding => 21
  | .preSharedKey => 41
  | .earlyData => 42
  | .supportedVersions => 43
  | .cookie => 44
  | .pskKeyExchangeModes => 45
  | .certificateAuthorities => 47
  | .oidFilters => 48
  | .postHandshakeAuth => 49
  | .signatureAlgorithmsCert => 50
  | .keyShare => 51

/-- `Extension`. -/
structure Extension where
  extType : Nat
  extLen : Nat
  extData : Option (List UInt8)
  deriving Repr, DecidableEq

/-- `Extension::HEADER_LEN`. -/
def Extension.headerLen : Nat := 4

/-- `Extension::parse`. -/
def Extension.parse (data : List UInt8) : ExceptT ExtensionParseError Option Extension := do
  if data.length < Extension.headerLen then throw .notEnoughData
  let extType := Bytes.beValue [← (data[0]? : Option UInt8), ← (data[1]? : Option UInt8)]
  let extLen := Bytes.beValue [← (data[2]? : Option UInt8), ← (data[3]? : Option UInt8)]
  if extLen = 0 then return ⟨extType, extLen, none⟩
  let start := Extension.headerLen
  let stop := start + extLen
  if stop > data.length then throw .invalidLength
  return ⟨extType, extLen, some (← (data.slice? start stop : Option _))⟩

/-- The `while offset < full_data.len()` loop of `ExtensionList::get_ext`,
    for at most `fuel` passes; running out is `none`. -/
def ExtensionList.getExtLoop (fullData : List UInt8) (extType : ExtensionType) :
    Nat → Nat → ExceptT ExtensionParseError Option (Option (List UInt8))
  | 0, _ => ExceptT.mk none
  | fuel + 1, offset =>
    if offset < fullData.length then do
      let left ← (fullData.sliceFrom? offset : Option _)
      let ext ← Extension.parse left
      if ext.extType = extType.toU16 then return ext.extData
      getExtLoop fullData extType fuel (offset + Extension.headerLen + ext.extLen)
    else return none

/-- `ExtensionList::get_ext`: the loop from the start, given a pass for each
    byte and one to stop. -/
def ExtensionList.getExt (fullData : List UInt8) (extType : ExtensionType) :
    ExceptT ExtensionParseError Option (Option (List UInt8)) :=
  ExtensionList.getExtLoop fullData extType (fullData.length + 1) 0

/-- `ClientHello::get_ext`. -/
def ClientHello.getExt (ch : ClientHello) (extType : ExtensionType) :
    ExceptT ExtensionParseError Option (Option (List UInt8)) :=
  match ch.extensions with
  | none => return none
  | some data => ExtensionList.getExt data extType

/-! ## Server name and ALPN -/

/-- `TlsServerNameError`. -/
inductive TlsServerNameError where
  | notEnoughData (len : Nat)
  | invalidListLength (len : Nat)
  | invalidNameType (t : UInt8)
  | invalidNameLength (len : Nat)
  | invalidHostName
  deriving Repr, DecidableEq

/-- `MAX_HOST_NAME_LENGTH`. -/
def maxHostNameLength : Nat := 255

/-- `TlsServerName`. -/
structure TlsServerName where
  hostName : List Char
  deriving Repr, DecidableEq

/-- `TlsServerName::from_extension_value`. -/
def TlsServerName.fromExtensionValue (buf : List UInt8) : ExceptT TlsServerNameError Option TlsServerName := do
  let bufLen := buf.length
  if bufLen < 5 then throw (.notEnoughData bufLen)
  let listLen := Bytes.beValue [← (buf[0]? : Option UInt8), ← (buf[1]? : Option UInt8)]
  if listLen + 2 ≠ bufLen then throw (.invalidListLength listLen)
  let nameType ← (buf[2]? : Option UInt8)
  if nameType ≠ 0x00 then throw (.invalidNameType nameType)
  let nameLen := Bytes.beValue [← (buf[3]? : Option UInt8), ← (buf[4]? : Option UInt8)]
  if nameLen > maxHostNameLength ∨ nameLen + 5 > bufLen then throw (.invalidNameLength nameLen)
  let name ← (buf.slice? 5 (5 + nameLen) : Option _)
  let some hostName := Bytes.fromUtf8 name | throw .invalidHostName
  return ⟨hostName⟩

/-- `TlsAlpnError`. -/
inductive TlsAlpnError where
  | notEnoughData (len : Nat)
  | invalidListLength (len : Nat)
  | emptyProtocolName
  | truncatedProtocolName
  deriving Repr, DecidableEq

/-- `TlsAlpn`: the wire list of protocol names. -/
structure TlsAlpn where
  rawList : List UInt8
  deriving Repr, DecidableEq

/-- The `loop` of `TlsAlpn::from_extension_value` over the protocol names,
    for at most `fuel` passes; running out is `none`. -/
def TlsAlpn.checkNames (buf : List UInt8) : Nat → Nat → ExceptT TlsAlpnError Option Unit
  | 0, _ => ExceptT.mk none
  | fuel + 1, offset =>
    match compare buf.length offset with
    | .eq => return ()
    | .lt => throw .truncatedProtocolName
    | .gt => do
      let nameLen := (← (buf[offset]? : Option UInt8)).toNat
      if nameLen = 0 then throw .emptyProtocolName
      checkNames buf fuel (offset + 1 + nameLen)

/-- `TlsAlpn::from_extension_value`: the loop from the first name, given a
    pass for each byte and one to stop. -/
def TlsAlpn.fromExtensionValue (buf : List UInt8) : ExceptT TlsAlpnError Option TlsAlpn := do
  let bufLen := buf.length
  if bufLen < 2 then throw (.notEnoughData bufLen)
  let listLen := Bytes.beValue [← (buf[0]? : Option UInt8), ← (buf[1]? : Option UInt8)]
  if listLen + 2 ≠ bufLen then throw (.invalidListLength listLen)
  TlsAlpn.checkNames buf (bufLen + 1) 2
  return ⟨← (buf.sliceFrom? 2 : Option _)⟩

/-! ## No panic -/

theorem ensureMin_noPanic (buf : List UInt8) (min : Nat) : NoPanic (ensureMin buf min) fun _ => min ≤ buf.length :=
  NoPanic.ite (fun _ => NoPanic.throw _) fun h => NoPanic.pure (Nat.le_of_not_lt h)

/-- `ensure_min!` on the bytes from `offset`: past it, the data holds `min`
    more bytes. -/
theorem ensureMin_drop_noPanic (data : List UInt8) (offset : Nat) {min : Nat} (hmin : 0 < min) :
    NoPanic (ensureMin (data.drop offset) min) fun _ => offset + min ≤ data.length :=
  (ensureMin_noPanic _ _).mono fun _ h => by rw [List.length_drop] at h; omega

theorem ClientHello.parseMsgData_noPanic (data : List UInt8) : NoPanic (ClientHello.parseMsgData data) fun _ => True := by
  have hR : randomFieldSize = 32 := rfl
  unfold ClientHello.parseMsgData
  refine NoPanic.bind (ensureMin_noPanic _ _) fun _ h2 => ?_
  refine NoPanic.bind_lift (List.getElem?_eq_getElem (by omega))
    (NoPanic.bind_lift (List.getElem?_eq_getElem (by omega)) (NoPanic.ite_throw fun _ => ?_))
  -- Random Data
  refine NoPanic.bind_lift (List.sliceFrom?_eq h2)
    (NoPanic.bind (ensureMin_drop_noPanic _ _ (by omega)) fun _ hr => ?_)
  -- Session ID
  refine NoPanic.bind_lift (List.sliceFrom?_eq (by omega)) (NoPanic.ite_throw fun hne => ?_)
  have h₁ := List.lt_length_of_drop_ne_nil hne
  refine NoPanic.bind_lift (List.getElem?_eq_getElem (by rw [List.length_drop]; omega))
    (NoPanic.bind (ensureMin_drop_noPanic _ _ (by omega)) fun _ hs => ?_)
  -- Cipher Suites
  refine NoPanic.bind_lift (List.sliceFrom?_eq (by omega))
    (NoPanic.bind (ensureMin_drop_noPanic _ _ (by omega)) fun _ hc => ?_)
  refine NoPanic.bind_lift (List.getElem?_eq_getElem (by rw [List.length_drop]; omega))
    (NoPanic.bind_lift (List.getElem?_eq_getElem (by rw [List.length_drop]; omega)) (NoPanic.ite_throw fun _ => ?_))
  refine NoPanic.bind (ensureMin_drop_noPanic _ _ (by omega)) fun _ hcs => ?_
  refine NoPanic.bind_lift (List.slice?_eq (Nat.le_add_right _ _) (by omega)) ?_
  -- Compression Methods
  refine NoPanic.bind_lift (List.sliceFrom?_eq (by omega)) (NoPanic.ite_throw fun hne₂ => ?_)
  have h₂ := List.lt_length_of_drop_ne_nil hne₂
  refine NoPanic.bind_lift (List.getElem?_eq_getElem (by rw [List.length_drop]; omega)) ?_
  -- the offset past the compression methods is within the body
  refine NoPanic.bind (Q := fun r => r.2 ≤ data.length) ?_ fun r hoff => ?_
  · refine NoPanic.ite (fun _ => NoPanic.bind (ensureMin_drop_noPanic _ _ (by omega)) fun _ hcm => ?_)
      fun _ => NoPanic.pure (by dsimp only; omega)
    exact NoPanic.bind_lift (List.slice?_eq (Nat.le_add_right _ _) (by omega)) (NoPanic.pure (by dsimp only; omega))
  refine NoPanic.ite (fun _ => NoPanic.pure trivial) fun hmore => ?_
  -- Extensions
  refine NoPanic.bind_lift (List.sliceFrom?_eq hoff)
    (NoPanic.bind (ensureMin_drop_noPanic _ _ (by omega)) fun _ he => ?_)
  refine NoPanic.bind_lift (List.getElem?_eq_getElem (by rw [List.length_drop]; omega))
    (NoPanic.bind_lift (List.getElem?_eq_getElem (by rw [List.length_drop]; omega)) ?_)
  refine NoPanic.bind (Q := fun _ => True) ?_ fun _ _ => NoPanic.ite_throw fun _ => NoPanic.pure trivial
  refine NoPanic.ite (fun _ => NoPanic.bind (ensureMin_drop_noPanic _ _ (by omega)) fun _ hex => ?_)
    fun _ => NoPanic.pure trivial
  exact NoPanic.bind_lift (List.slice?_eq (Nat.le_add_right _ _) (by omega)) (NoPanic.pure trivial)

theorem Extension.parse_noPanic (data : List UInt8) :
    NoPanic (Extension.parse data) fun e => Extension.headerLen + e.extLen ≤ data.length := by
  have hH : Extension.headerLen = 4 := rfl
  unfold Extension.parse
  refine NoPanic.ite_throw fun h4 => ?_
  have hb : ∀ i (hi : i < data.length), data[i]? = some data[i] := fun i hi => List.getElem?_eq_getElem hi
  refine NoPanic.bind_lift (hb 0 (by omega)) (NoPanic.bind_lift (hb 1 (by omega))
    (NoPanic.bind_lift (hb 2 (by omega)) (NoPanic.bind_lift (hb 3 (by omega)) ?_)))
  refine NoPanic.ite (fun h0 => NoPanic.pure (by dsimp only; omega)) fun _ => NoPanic.ite_throw fun hstop => ?_
  exact NoPanic.bind_lift (List.slice?_eq (Nat.le_add_right _ _) (by omega)) (NoPanic.pure (by dsimp only; omega))

/-- Each pass of the `get_ext` loop stays in the data and moves past the
    four header bytes or more: with a pass for each remaining byte and one
    to stop, the loop neither panics nor runs out. -/
theorem ExtensionList.getExtLoop_noPanic (fullData : List UInt8) (extType : ExtensionType) :
    ∀ (fuel offset : Nat), offset ≤ fullData.length → fullData.length - offset < fuel →
      NoPanic (ExtensionList.getExtLoop fullData extType fuel offset) fun _ => True
  | 0, _, _, hfuel => absurd hfuel (Nat.not_lt_zero _)
  | fuel + 1, offset, h, hfuel => by
    have hH : Extension.headerLen = 4 := rfl
    unfold ExtensionList.getExtLoop
    refine NoPanic.ite (fun _ => ?_) fun _ => NoPanic.pure trivial
    refine NoPanic.bind_lift (List.sliceFrom?_eq h) (NoPanic.bind (Extension.parse_noPanic _) fun ext hext => ?_)
    rw [List.length_drop] at hext
    refine NoPanic.ite (fun _ => NoPanic.pure trivial) fun _ => ?_
    exact getExtLoop_noPanic fullData extType fuel _ (by omega) (by omega)

theorem ExtensionList.getExt_noPanic (fullData : List UInt8) (extType : ExtensionType) :
    NoPanic (ExtensionList.getExt fullData extType) fun _ => True :=
  getExtLoop_noPanic _ _ _ _ (Nat.zero_le _) (by omega)

theorem ClientHello.getExt_noPanic (ch : ClientHello) (extType : ExtensionType) :
    NoPanic (ch.getExt extType) fun _ => True := by
  unfold ClientHello.getExt
  split
  · exact NoPanic.pure trivial
  · exact ExtensionList.getExt_noPanic _ _

theorem TlsServerName.fromExtensionValue_noPanic (buf : List UInt8) :
    NoPanic (TlsServerName.fromExtensionValue buf) fun _ => True := by
  unfold TlsServerName.fromExtensionValue
  refine NoPanic.ite_throw fun h5 => ?_
  have hb : ∀ i (hi : i < buf.length), buf[i]? = some buf[i] := fun i hi => List.getElem?_eq_getElem hi
  refine NoPanic.bind_lift (hb 0 (by omega)) (NoPanic.bind_lift (hb 1 (by omega)) (NoPanic.ite_throw fun _ => ?_))
  refine NoPanic.bind_lift (hb 2 (by omega)) (NoPanic.ite_throw fun _ => ?_)
  refine NoPanic.bind_lift (hb 3 (by omega)) (NoPanic.bind_lift (hb 4 (by omega)) (NoPanic.ite_throw fun hname => ?_))
  refine NoPanic.bind_lift (List.slice?_eq (Nat.le_add_right _ _) (by omega)) ?_
  split
  · exact NoPanic.pure trivial
  · exact NoPanic.throw _

/-- Each pass of the ALPN loop reads a length inside the list and moves
    past two bytes or more, so the loop neither panics nor runs out. -/
theorem TlsAlpn.checkNames_noPanic (buf : List UInt8) :
    ∀ (fuel offset : Nat), buf.length - offset < fuel → NoPanic (TlsAlpn.checkNames buf fuel offset) fun _ => True
  | 0, _, hfuel => absurd hfuel (Nat.not_lt_zero _)
  | fuel + 1, offset, hfuel => by
    unfold TlsAlpn.checkNames
    split
    · exact NoPanic.pure trivial
    · exact NoPanic.throw _
    · rename_i hgt
      have hlt : offset < buf.length := Nat.compare_eq_gt.1 hgt
      refine NoPanic.bind_lift (List.getElem?_eq_getElem hlt) (NoPanic.ite_throw fun _ => ?_)
      exact checkNames_noPanic buf fuel _ (by omega)

theorem TlsAlpn.fromExtensionValue_noPanic (buf : List UInt8) :
    NoPanic (TlsAlpn.fromExtensionValue buf) fun _ => True := by
  unfold TlsAlpn.fromExtensionValue
  refine NoPanic.ite_throw fun h2 => ?_
  refine NoPanic.bind_lift (List.getElem?_eq_getElem (by omega))
    (NoPanic.bind_lift (List.getElem?_eq_getElem (by omega)) (NoPanic.ite_throw fun _ => ?_))
  refine NoPanic.bind (TlsAlpn.checkNames_noPanic _ _ _ (by omega)) fun _ _ => ?_
  exact NoPanic.bind_lift (List.sliceFrom?_eq (by omega)) (NoPanic.pure trivial)

/-- The fragment `Record::parse` returns is the slice
    `data[5..5 + fragment_size]`, and that slice is in range. -/
theorem Record.parse_fragment {data : List UInt8} {r : Record} (h : Record.parse data = .ok r) :
    5 + r.header.fragmentSize ≤ data.length ∧ data.slice? 5 (5 + r.header.fragmentSize) = some r.fragment := by
  unfold Record.parse at h
  split at h
  · rename_i b0 b1 b2 b3 b4 rest
    split at h
    · cases h
    · split at h
      · cases h
      · split at h
        · cases h
        · rename_i hlen
          cases h
          refine ⟨by simp; omega, ?_⟩
          rw [List.slice?_eq (by omega) (by simp; omega)]
          simp
  · cases h

end Tls

end G3Proxy
