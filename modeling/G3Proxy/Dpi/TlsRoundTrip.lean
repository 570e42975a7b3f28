/-
  The ClientHello parser against the wire layout of RFC 8446 §4.1.2 (the
  proxy only parses ClientHello messages; the layout is written here as the
  specification they are read against):

    legacy_version(2) random(32) session_id<0..32> cipher_suites<2..2^16-2>
    compression_methods<1..2^8-1> extensions<0..2^16-1>

  where each extension is type(2) length(2) data.

  * `Extension.parse_encode`, `ExtensionList.getExt_encode`: the extension
    walk of `get_ext` finds the first entry of the requested type, and reads
    its data (`None` for empty data);
  * `ClientHello.parseMsgData_encodeBody_append`: `parse_msg_data` on the
    layout, followed by any bytes, returns the fields when nothing follows
    and rejects the message otherwise.
-/
import G3Proxy.Dpi.TlsParse

namespace G3Proxy

namespace Tls

open ExceptT (Yields)

/-! ## The wire layout -/

/-- An extension as a ClientHello carries it: its type and its data. -/
structure ExtensionEntry where
  extType : Nat
  data : List UInt8
  deriving Repr, DecidableEq

/-- Both the type and the data length fit their two-byte fields. -/
def ExtensionEntry.Wf (e : ExtensionEntry) : Prop := e.extType < 2 ^ 16 ∧ e.data.length < 2 ^ 16

/-- type(2) length(2) data. -/
def ExtensionEntry.encode (e : ExtensionEntry) : List UInt8 :=
  Bytes.u16Bytes e.extType.toUInt16 ++ Bytes.u16Bytes e.data.length.toUInt16 ++ e.data

/-- The extensions block without its length: the entries one after another. -/
def encodeExtensions (es : List ExtensionEntry) : List UInt8 := es.flatMap ExtensionEntry.encode

/-- The data of the first entry of type `t`; `none` when that data is empty
or no entry has type `t`. -/
def ExtensionEntry.lookup (t : Nat) : List ExtensionEntry → Option (List UInt8)
  | [] => none
  | e :: es => if e.extType = t then (if e.data = [] then none else some e.data) else lookup t es

/-- The ClientHello body, the handshake header aside. -/
def ClientHello.encodeBody (legacyVersion : RawVersion)
    (random sessionId cipherSuites compressionMethods extensions : List UInt8) : List UInt8 :=
  [legacyVersion.major, legacyVersion.minor] ++ random ++
    [sessionId.length.toUInt8] ++ sessionId ++
    Bytes.u16Bytes cipherSuites.length.toUInt16 ++ cipherSuites ++
    [compressionMethods.length.toUInt8] ++ compressionMethods ++
    Bytes.u16Bytes extensions.length.toUInt16 ++ extensions

/-- A length below 2^16 written in two bytes reads back. -/
theorem u16Bytes_of_lt {n : Nat} (h : n < 2 ^ 16) :
    ∃ hi lo, Bytes.u16Bytes n.toUInt16 = [hi, lo] ∧ Bytes.beValue [hi, lo] = n := by
  refine ⟨_, _, rfl, ?_⟩
  have hv := n.toUInt16.toNat_lt
  have hn : n.toUInt16.toNat = n := by simp [Nat.toUInt16]; omega
  simp [Bytes.beValue, UInt16.toNat_shiftRight, Nat.shiftRight_eq_div_pow]
  omega

theorem toNat_toUInt8_of_lt {n : Nat} (h : n < 256) : n.toUInt8.toNat = n := by
  simp [Nat.toUInt8]
  omega

theorem encodeExtensions_eq_nil_iff {es : List ExtensionEntry} : encodeExtensions es = [] ↔ es = [] := by
  cases es with
  | nil => simp [encodeExtensions]
  | cons e es => simp [encodeExtensions, ExtensionEntry.encode, Bytes.u16Bytes]

/-! ## The extension walk -/

theorem Extension.parse_encode {e : ExtensionEntry} (hwf : e.Wf) (rest : List UInt8) :
    Yields (Extension.parse (e.encode ++ rest))
      (.ok ⟨e.extType, e.data.length, if e.data = [] then none else some e.data⟩) := by
  obtain ⟨t₁, t₂, ht, htv⟩ := u16Bytes_of_lt hwf.1
  obtain ⟨l₁, l₂, hl, hlv⟩ := u16Bytes_of_lt hwf.2
  have hdata : e.encode ++ rest = t₁ :: t₂ :: l₁ :: l₂ :: (e.data ++ rest) := by
    simp [ExtensionEntry.encode, ht, hl]
  have hH : Extension.headerLen = 4 := rfl
  unfold Extension.parse
  rw [hdata]
  refine Yields.ite_throw_neg (by simp [hH]) ?_
  refine Yields.bind_lift rfl (Yields.bind_lift rfl (Yields.bind_lift rfl (Yields.bind_lift rfl ?_)))
  rw [htv, hlv]
  by_cases h0 : e.data = []
  · -- a zero length: no data, whatever follows
    refine Yields.ite_pos (by simp [h0]) ?_
    simp only [h0, if_true]
    exact Yields.pure _
  · refine Yields.ite_neg (by simpa using h0) (Yields.ite_throw_neg (by simp [hH]; omega) ?_)
    refine Yields.bind_lift (List.slice?_of_eq_append (p := [t₁, t₂, l₁, l₂]) (m := e.data)
      (s := rest) (by simp) rfl (by simp [hH])) ?_
    simp only [h0, if_false]
    exact Yields.pure _

/-- Each pass of the walk reads one whole entry and moves to the next. -/
theorem ExtensionList.getExtLoop_encode (t : ExtensionType) :
    ∀ (es : List ExtensionEntry) (pre : List UInt8) (fuel : Nat), (∀ e ∈ es, e.Wf) →
      (encodeExtensions es).length < fuel →
      Yields (ExtensionList.getExtLoop (pre ++ encodeExtensions es) t fuel pre.length)
        (.ok (ExtensionEntry.lookup t.toU16 es))
  | _, _, 0, _, hfuel => absurd hfuel (Nat.not_lt_zero _)
  | [], pre, fuel + 1, _, _ => by
    unfold ExtensionList.getExtLoop
    exact Yields.ite_neg (by simp [encodeExtensions]) (Yields.pure _)
  | e :: es, pre, fuel + 1, hwf, hfuel => by
    have hwf₁ := hwf e List.mem_cons_self
    have hlen : e.encode.length = 4 + e.data.length := by
      simp [ExtensionEntry.encode, Bytes.length_u16Bytes]; omega
    have hall : encodeExtensions (e :: es) = e.encode ++ encodeExtensions es := by
      simp [encodeExtensions]
    unfold ExtensionList.getExtLoop
    rw [hall]
    refine Yields.ite_pos (by simp [hlen]) ?_
    refine Yields.bind_lift (List.sliceFrom?_of_eq_append rfl rfl)
      (Yields.bind (Extension.parse_encode hwf₁ _) ?_)
    by_cases ht : e.extType = t.toU16
    · refine Yields.ite_pos ht ?_
      simp only [ExtensionEntry.lookup, if_pos ht]
      exact Yields.pure _
    · refine Yields.ite_neg ht ?_
      have hnext := getExtLoop_encode t es (pre ++ e.encode) fuel
        (fun e' he' => hwf e' (List.mem_cons_of_mem _ he')) (by rw [hall] at hfuel; simp at hfuel; omega)
      have hoff : pre.length + Extension.headerLen + e.data.length = (pre ++ e.encode).length := by
        simp [hlen, Extension.headerLen]; omega
      rw [hoff, ← List.append_assoc]
      simpa [ExtensionEntry.lookup, ht] using hnext

/-- `get_ext` on a well-formed extension list returns the data of the first
entry of the requested type. -/
theorem ExtensionList.getExt_encode {es : List ExtensionEntry} (hwf : ∀ e ∈ es, e.Wf)
    (t : ExtensionType) :
    Yields (ExtensionList.getExt (encodeExtensions es) t) (.ok (ExtensionEntry.lookup t.toU16 es)) := by
  have h := ExtensionList.getExtLoop_encode t es [] ((encodeExtensions es).length + 1) hwf
    (Nat.lt_succ_self _)
  simpa [ExtensionList.getExt] using h

/-! ## The body -/

theorem ensureMin_ok {buf : List UInt8} {min : Nat} (h : min ≤ buf.length) :
    Yields (ensureMin buf min) (.ok ()) := by
  unfold ensureMin
  exact Yields.ite_neg (by omega) (Yields.pure _)

/-- `parse_msg_data` on the wire layout of a ClientHello, followed by
`rest`: the fields come back when nothing follows (an empty compression or
extension block as `None`), and anything that follows is rejected. -/
theorem ClientHello.parseMsgData_encodeBody_append {v : RawVersion}
    (hv : (v.major = 1 ∧ v.minor = 1) ∨ (v.major = 3 ∧ v.minor ≤ 3))
    {random sessionId cipherSuites compressionMethods extensions : List UInt8}
    (hr : random.length = 32) (hs : sessionId.length < 256) (hc0 : cipherSuites ≠ [])
    (hc2 : cipherSuites.length % 2 = 0) (hc : cipherSuites.length < 2 ^ 16)
    (hm : compressionMethods.length < 256) (he : extensions.length < 2 ^ 16) (rest : List UInt8) :
    Yields (ClientHello.parseMsgData
        (ClientHello.encodeBody v random sessionId cipherSuites compressionMethods extensions ++ rest))
      (if rest = [] then
        .ok ⟨v, cipherSuites, if compressionMethods = [] then none else some compressionMethods,
          if extensions = [] then none else some extensions⟩
      else .error .invalidMessageLength) := by
  obtain ⟨c₁, c₂, hcb, hcv⟩ := u16Bytes_of_lt hc
  obtain ⟨e₁, e₂, heb, hev⟩ := u16Bytes_of_lt he
  have hsl := toNat_toUInt8_of_lt hs
  have hml := toNat_toUInt8_of_lt hm
  have hR : randomFieldSize = 32 := rfl
  have hdata : ClientHello.encodeBody v random sessionId cipherSuites compressionMethods extensions
      ++ rest = [v.major, v.minor] ++ (random ++ (sessionId.length.toUInt8 :: (sessionId ++
        (c₁ :: c₂ :: (cipherSuites ++ (compressionMethods.length.toUInt8 :: (compressionMethods ++
        (e₁ :: e₂ :: (extensions ++ rest))))))))) := by
    simp [ClientHello.encodeBody, hcb, heb]
  unfold ClientHello.parseMsgData
  rw [hdata]
  -- the bytes after each field
  set t₅ := e₁ :: e₂ :: (extensions ++ rest) with ht₅
  set t₄ := compressionMethods.length.toUInt8 :: (compressionMethods ++ t₅) with ht₄
  set t₃ := c₁ :: c₂ :: (cipherSuites ++ t₄) with ht₃
  set t₂ := sessionId.length.toUInt8 :: (sessionId ++ t₃) with ht₂
  -- the version
  refine Yields.bind (ensureMin_ok (by simp)) (Yields.bind_lift rfl (Yields.bind_lift rfl ?_))
  refine Yields.ite_throw_neg (fun h => h hv) ?_
  -- the random bytes
  refine Yields.bind_lift (List.sliceFrom?_of_eq_append (p := [v.major, v.minor]) rfl rfl)
    (Yields.bind (ensureMin_ok (by simp [hR, hr])) ?_)
  -- the session id
  refine Yields.bind_lift (List.sliceFrom?_of_eq_append (p := [v.major, v.minor] ++ random)
    (s := t₂) (by simp) (by simp [hr, hR])) (Yields.ite_throw_neg (by simp [ht₂]) ?_)
  refine Yields.bind_lift (by rw [ht₂]; rfl)
    (Yields.bind (ensureMin_ok (by simp [ht₂, hsl]; omega)) ?_)
  -- the cipher suites
  refine Yields.bind_lift (List.sliceFrom?_of_eq_append
    (p := [v.major, v.minor] ++ random ++ [sessionId.length.toUInt8] ++ sessionId) (s := t₃)
    (by simp [ht₂]) (by simp [hr, hR, hsl]; omega))
    (Yields.bind (ensureMin_ok (by simp [ht₃])) ?_)
  refine Yields.bind_lift (by rw [ht₃]; rfl) (Yields.bind_lift (by rw [ht₃]; rfl) ?_)
  simp only [hcv]
  have hcs : ¬(cipherSuites.length = 0 ∨ cipherSuites.length &&& 0x01 ≠ 0) := by
    rw [Nat.and_one_is_mod]
    simp [hc2, hc0]
  refine Yields.ite_throw_neg hcs (Yields.bind (ensureMin_ok (by simp [ht₃]; omega)) ?_)
  refine Yields.bind_lift (List.slice?_of_eq_append
    (p := [v.major, v.minor] ++ random ++ [sessionId.length.toUInt8] ++ sessionId ++ [c₁, c₂])
    (m := cipherSuites) (s := t₄) (by simp [ht₂, ht₃]) (by simp [hr, hR, hsl]; omega) rfl) ?_
  -- the compression methods: the offset past them is the same with or without
  let pre₄ := [v.major, v.minor] ++ random ++ [sessionId.length.toUInt8] ++ sessionId ++
    [c₁, c₂] ++ cipherSuites
  have hpre₄ : pre₄.length = 2 + randomFieldSize + 1 + sessionId.length.toUInt8.toNat + 2 +
      cipherSuites.length := by
    simp [pre₄, hr, hR, hsl]; omega
  refine Yields.bind_lift (List.sliceFrom?_of_eq_append (p := pre₄) (s := t₄)
    (by simp [pre₄, ht₂, ht₃]) hpre₄) (Yields.ite_throw_neg (by simp [ht₄]) ?_)
  refine Yields.bind_lift (by rw [ht₄]; rfl) ?_
  refine Yields.bind (a := (if compressionMethods = [] then none else some compressionMethods,
    pre₄.length + 1 + compressionMethods.length)) ?_ ?_
  · by_cases hm0 : compressionMethods = []
    · refine Yields.ite_neg (by simp [hm0]) ?_
      simp only [hm0, if_true, List.length_nil, Nat.add_zero, hpre₄]
      exact Yields.pure _
    · refine Yields.ite_pos (by simpa [hml, List.length_pos_iff] using hm0) ?_
      refine Yields.bind (ensureMin_ok (by simp [ht₄, hml]; omega)) ?_
      refine Yields.bind_lift (List.slice?_of_eq_append (p := pre₄ ++ [compressionMethods.length.toUInt8])
        (m := compressionMethods) (s := t₅) (by simp [pre₄, ht₂, ht₃, ht₄])
        (by simp [hpre₄]) (by simp [hml])) ?_
      simp only [hm0, if_false, hpre₄, hml]
      exact Yields.pure _
  -- the extensions block follows
  let pre₅ := pre₄ ++ [compressionMethods.length.toUInt8] ++ compressionMethods
  have hpre₅ : pre₅.length = pre₄.length + 1 + compressionMethods.length := by simp [pre₅]; omega
  have hlen : ([v.major, v.minor] ++ (random ++ t₂)).length = pre₅.length + t₅.length := by
    simp [pre₅, pre₄, ht₂, ht₃, ht₄]; omega
  refine Yields.ite_neg (by rw [hlen, ← hpre₅, ht₅]; simp) ?_
  refine Yields.bind_lift (List.sliceFrom?_of_eq_append (p := pre₅) (s := t₅)
    (by simp [pre₅, pre₄, ht₂, ht₃, ht₄]) hpre₅)
    (Yields.bind (ensureMin_ok (by simp [ht₅])) ?_)
  refine Yields.bind_lift (by rw [ht₅]; rfl) (Yields.bind_lift (by rw [ht₅]; rfl) ?_)
  simp only [hev]
  refine Yields.bind (a := (if extensions = [] then none else some extensions,
    pre₅.length + 2 + extensions.length)) ?_ ?_
  · by_cases he0 : extensions = []
    · refine Yields.ite_neg (by simp [he0]) ?_
      simp only [he0, if_true, List.length_nil, Nat.add_zero, hpre₅]
      exact Yields.pure _
    · refine Yields.ite_pos (by simpa [List.length_pos_iff] using he0) ?_
      refine Yields.bind (ensureMin_ok (by simp [ht₅]; omega)) ?_
      refine Yields.bind_lift (List.slice?_of_eq_append (p := pre₅ ++ [e₁, e₂])
        (m := extensions) (s := rest) (by simp [pre₅, pre₄, ht₂, ht₃, ht₄, ht₅])
        (by simp [hpre₅]) rfl) ?_
      simp only [he0, if_false, hpre₅]
      exact Yields.pure _
  -- nothing may follow the extensions block
  have hlen' : ([v.major, v.minor] ++ (random ++ t₂)).length =
      pre₅.length + 2 + extensions.length + rest.length := by
    rw [hlen, ht₅]; simp; omega
  by_cases hrest : rest = []
  · rw [if_pos hrest]
    refine Yields.ite_throw_neg (by rw [hlen', hrest]; simp) ?_
    exact Yields.pure _
  · rw [if_neg hrest]
    refine Yields.ite_throw_pos ?_
    have : 0 < rest.length := List.length_pos_iff.2 hrest
    rw [hlen']
    omega

/-- ClientHello parsing inverts the ClientHello wire layout: the fields come
back, every extension type is looked up in the first entry of its type, and
bytes past the extensions block are rejected. -/
theorem clientHello_parse_inverts_encoding (v : RawVersion)
    (random sessionId cipherSuites compressionMethods : List UInt8) (es : List ExtensionEntry)
    (hv : (v.major = 1 ∧ v.minor = 1) ∨ (v.major = 3 ∧ v.minor ≤ 3))
    (hr : random.length = 32) (hs : sessionId.length < 256) (hc0 : cipherSuites ≠ [])
    (hc2 : cipherSuites.length % 2 = 0) (hc : cipherSuites.length < 2 ^ 16)
    (hm : compressionMethods.length < 256) (hwf : ∀ e ∈ es, e.Wf)
    (he : (encodeExtensions es).length < 2 ^ 16) :
    (ClientHello.parseMsgData
        (ClientHello.encodeBody v random sessionId cipherSuites compressionMethods
          (encodeExtensions es))).run =
      some (.ok ⟨v, cipherSuites, if compressionMethods = [] then none else some compressionMethods,
        if es = [] then none else some (encodeExtensions es)⟩) ∧
    (∀ t : ExtensionType,
      (ClientHello.getExt ⟨v, cipherSuites,
          if compressionMethods = [] then none else some compressionMethods,
          if es = [] then none else some (encodeExtensions es)⟩ t).run =
        some (.ok (ExtensionEntry.lookup t.toU16 es))) ∧
    (∀ rest : List UInt8, rest ≠ [] →
      (ClientHello.parseMsgData
          (ClientHello.encodeBody v random sessionId cipherSuites compressionMethods
            (encodeExtensions es) ++ rest)).run =
        some (.error .invalidMessageLength)) := by
  have hparse := ClientHello.parseMsgData_encodeBody_append hv hr hs hc0 hc2 hc hm he
  refine ⟨?_, fun t => ?_, fun rest hrest => ?_⟩
  · have h := hparse []
    simp only [List.append_nil, if_true, encodeExtensions_eq_nil_iff] at h
    exact h
  · by_cases hes : es = []
    · subst hes
      simp [ClientHello.getExt, ExtensionEntry.lookup]
    · simp only [ClientHello.getExt, hes, if_false]
      exact ExtensionList.getExt_encode hwf t
  · have h := hparse rest
    rw [if_neg hrest] at h
    exact h

/-- A TLS 1.2 body with one cipher suite, the null compression method and a
server name extension. -/
theorem clientHello_parse_inverts_encoding_tls12 :
    (ClientHello.parseMsgData
        (ClientHello.encodeBody ⟨3, 3⟩ (List.replicate 32 0) [] [0x13, 0x01] [0]
          (encodeExtensions [⟨0, [1, 2]⟩]))).run =
      some (.ok ⟨⟨3, 3⟩, [0x13, 0x01], some [0], some (encodeExtensions [⟨0, [1, 2]⟩])⟩) :=
  (clientHello_parse_inverts_encoding ⟨3, 3⟩ (List.replicate 32 0) [] [0x13, 0x01] [0]
    [⟨0, [1, 2]⟩] (.inr ⟨rfl, by decide⟩) (by simp) (by decide) (by simp) (by decide) (by decide)
    (by simp) (by simp [ExtensionEntry.Wf]) (by decide)).1

end Tls

end G3Proxy
