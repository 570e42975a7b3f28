/-
  What the PROXY protocol readers read back of what the encoders write.

  Both versions carry an address and a port of each side and nothing else,
  so what comes back is `SocketAddr.carried`: the address itself for IPv4,
  and for IPv6 the address with its flow label and scope id cleared.

  * Version 1: the line is at most 104 bytes, below the readers' 108, and
    `parse_buf` reads it back (`parseBuf_encodeTcp`): the fields are ASCII
    without spaces, so the split at spaces gives them back one by one, and
    the `\r\n` after the last port is what `trim_end` removes.
  * Version 2: after `new_tcp` the encoder's bytes are the header and the
    addresses followed by the TLVs pushed (`data_pushTlvs`): a push that
    fails leaves them as they were (`pushTlv_error`).  `finalize` writes
    their length, and the reader reads the header, exactly that many bytes,
    and the addresses at the front of them (`readProxyProtocolV2ForTcp_finalize`).
-/
import G3Proxy.Net.Haproxy
import G3Proxy.Net.AddrText

namespace G3Proxy

open Bytes

@[simp] theorem Except.ok_bind {ε α β : Type} (a : α) (f : α → Except ε β) :
    (Except.ok a >>= f) = f a := rfl

/-! ## Version 1 -/

/-- ASCII text is one byte a character: its code. -/
theorem asBytes_eq_map_of_ascii {s : List Char} (hs : ∀ c ∈ s, c.toNat < 128) :
    asBytes s = s.map fun c => c.toNat.toUInt8 := by
  induction s with
  | nil => rfl
  | cons c s ih =>
    have h128 : c.toNat < 128 := hs c List.mem_cons_self
    have hc : c.utf8Size = 1 := Char.utf8Size_eq_one_iff.2 (by rw [UInt32.le_iff_toNat_le]; simp; omega)
    have := ih (fun d hd => hs d (List.mem_cons_of_mem _ hd))
    simp only [asBytes, List.flatMap_cons, String.utf8EncodeChar_eq_singleton hc, List.map_cons,
      List.singleton_append] at this ⊢
    rw [this]
    rfl

/-- ASCII text without spaces holds no space byte, so a split at spaces
    keeps it whole. -/
theorem space_not_mem_asBytes {s : List Char} (hs : ∀ c ∈ s, c.toNat < 128 ∧ c ≠ ' ') :
    (32 : UInt8) ∉ asBytes s := by
  rw [asBytes_eq_map_of_ascii (fun c hc => (hs c hc).1)]
  intro hm
  obtain ⟨c, hc, hce⟩ := List.mem_map.1 hm
  have h := hs c hc
  have h32 : c.toNat = (' ' : Char).toNat := by
    have := congrArg UInt8.toNat hce
    simp at this
    show c.toNat = 32
    omega
  exact h.2 (Char.toNat_inj.1 h32)

theorem splitOn_space_append {x : List UInt8} (hx : (32 : UInt8) ∉ x) (rest : List UInt8) :
    (x ++ 32 :: rest).splitOn 32 = x :: rest.splitOn 32 := by
  simp only [List.splitOn]
  rw [List.splitOnP_append_cons _ _ (by simp), List.splitOnP_eq_singleton]
  · rfl
  · intro b hb
    simp only [beq_eq_false_iff_ne]
    exact fun e => hx (e ▸ hb)

theorem splitOn_space_of_not_mem {x : List UInt8} (hx : (32 : UInt8) ∉ x) : x.splitOn 32 = [x] := by
  simp only [List.splitOn]
  rw [List.splitOnP_eq_singleton]
  intro b hb
  simp only [beq_eq_false_iff_ne]
  exact fun e => hx (e ▸ hb)

/-- The digits of a port. -/
theorem isDigit_of_mem_u16Display {p : UInt16} {c : Char} (hc : c ∈ u16Display p) : c.isDigit = true :=
  Nat.isDigit_of_mem_toDigits (by decide) (by decide) hc

theorem toNat_of_isDigit {c : Char} (hc : c.isDigit = true) : 48 ≤ c.toNat ∧ c.toNat ≤ 57 := by
  simp only [Char.isDigit, Bool.and_eq_true, decide_eq_true_eq] at hc
  obtain ⟨h₁, h₂⟩ := hc
  exact ⟨UInt32.le_iff_toNat_le.1 h₁, UInt32.le_iff_toNat_le.1 h₂⟩

/-- A digit is not white space. -/
theorem isRustWhitespace_of_isDigit {c : Char} (hc : c.isDigit = true) : isRustWhitespace c = false := by
  have h := toNat_of_isDigit hc
  have hsp : c ≠ ' ' := by
    rintro rfl
    simp at h
  simp only [isRustWhitespace, hsp, decide_false, Bool.false_or, Bool.or_eq_false_iff,
    Bool.and_eq_false_iff, decide_eq_false_iff_not]
  omega

theorem u16Display_chars (p : UInt16) : ∀ c ∈ u16Display p, c.toNat < 128 ∧ c ≠ ' ' := by
  intro c hc
  have hd := toNat_of_isDigit (isDigit_of_mem_u16Display hc)
  refine ⟨by omega, fun e => ?_⟩
  subst e
  simp at hd

/-- A port's digits read back as the port. -/
theorem u16FromStr_u16Display (p : UInt16) : u16FromStr (u16Display p) = some p := by
  have hp := p.toNat_lt
  rw [u16FromStr, u16Display, u64FromStr_of_decimalValue (decimalValue_toDigits p.toNat) (by omega)]
  simp [hp]

/-- `trim_end` takes the `\r\n` off a port's digits. -/
theorem trimEnd_u16Display (p : UInt16) : trimEnd (u16Display p ++ ['\r', '\n']) = u16Display p := by
  obtain ⟨d, ds, hrev⟩ := List.exists_cons_of_ne_nil
    (List.reverse_ne_nil_iff.2 (Nat.toDigits_ne_nil (n := p.toNat) (b := 10)))
  have hrev : (u16Display p).reverse = d :: ds := hrev
  -- the last digit stops `trim_end`
  have hd : isRustWhitespace d = false := by
    have hmem : d ∈ u16Display p := by
      rw [← List.mem_reverse, hrev]; exact List.mem_cons_self
    exact isRustWhitespace_of_isDigit (isDigit_of_mem_u16Display hmem)
  simp only [trimEnd, List.reverse_append, hrev, List.reverse_cons, List.reverse_nil, List.nil_append,
    List.cons_append]
  rw [List.dropWhile_cons_of_pos (by decide), List.dropWhile_cons_of_pos (by decide),
    List.dropWhile_cons_of_neg (by simp [hd]), ← hrev, List.reverse_reverse]

theorem u16Display_length (p : UInt16) : (u16Display p).length ≤ 5 :=
  Nat.toDigits_length 10 p.toNat 5 (by decide) (by have := p.toNat_lt; omega)

/-- ASCII characters other than the space: what a field of the line is made of. -/
def FieldText (s : List Char) : Prop := ∀ c ∈ s, c.toNat < 128 ∧ c ≠ ' '

instance : DecidablePred FieldText := fun s => inferInstanceAs (Decidable (∀ c ∈ s, _))

theorem FieldText.append {s t : List Char} (hs : FieldText s) (ht : FieldText t) : FieldText (s ++ t) := by
  intro c hc
  rcases List.mem_append.1 hc with h | h
  · exact hs c h
  · exact ht c h

theorem asBytes_cons_of_ascii {c : Char} (hc : c.toNat < 128) (s : List Char) :
    asBytes (c :: s) = c.toNat.toUInt8 :: asBytes s := by
  rw [show c :: s = [c] ++ s from rfl, asBytes_append, asBytes_eq_map_of_ascii (s := [c]) (by simpa using hc)]
  rfl

namespace IpText

variable (txt : IpText)

theorem display_fieldText (a : IpAddr) : FieldText (txt.display a) := by
  cases a with
  | v4 a => exact txt.ipv4Display_chars a
  | v6 a => exact txt.ipv6Display_chars a

theorem display_length_le (a : IpAddr) : (txt.display a).length ≤ 39 := by
  cases a with
  | v4 a => exact (txt.ipv4Display_length a).trans (by decide)
  | v6 a => exact txt.ipv6Display_length a

/-- The standard library's address text meets the laws. -/
def std : IpText where
  ipv4Display := AddrText.ipv4Display
  ipv4FromStr := AddrText.ipv4FromStr
  ipv6Display := AddrText.ipv6Display
  ipv6FromStr := AddrText.ipv6FromStr
  ipv4FromStr_display := AddrText.ipv4FromStr_ipv4Display
  ipv6FromStr_display := AddrText.ipv6FromStr_ipv6Display
  ipv4Display_chars _ _ hc :=
    ⟨(AddrText.addrChar_of_mem_ipv4Display hc).ascii.1, (AddrText.addrChar_of_mem_ipv4Display hc).ascii.2.1⟩
  ipv6Display_chars _ _ hc :=
    ⟨(AddrText.addrChar_of_mem_ipv6Display hc).ascii.1, (AddrText.addrChar_of_mem_ipv6Display hc).ascii.2.1⟩
  ipv4Display_length := AddrText.length_ipv4Display_le
  ipv6Display_length := AddrText.length_ipv6Display_le

/-- The standard text has no line feed. -/
theorem std_display_ne_lf (a : IpAddr) : '\n' ∉ std.display a := fun h => by
  cases a with
  | v4 a => exact (AddrText.addrChar_of_mem_ipv4Display h).ascii.2.2 rfl
  | v6 a => exact (AddrText.addrChar_of_mem_ipv6Display h).ascii.2.2 rfl

end IpText

/-- A `TCP` line is one byte a character: sixteen of them around the fields. -/
theorem length_tcpLine (f : Char) (hf : FieldText [f]) (A B P Q : List Char) (hA : FieldText A)
    (hB : FieldText B) (hP : FieldText P) (hQ : FieldText Q) :
    (asBytes ("PROXY TCP".toList ++ [f, ' '] ++ A ++ ' ' :: B ++ ' ' :: P ++ ' ' :: Q ++ ['\r', '\n'])).length
      = 16 + A.length + B.length + P.length + Q.length := by
  have hf' : f.toNat < 128 := (hf f List.mem_cons_self).1
  rw [asBytes_eq_map_of_ascii, List.length_map]
  · simp; omega
  · -- every character is ASCII: the literal ones, and the fields by their `FieldText`
    have hascii : ∀ s, FieldText s → ∀ c ∈ s, c.toNat < 128 := fun s hs c hc => (hs c hc).1
    simp [or_imp, forall_and, hf']
    exact ⟨hascii _ hA, hascii _ hB, hascii _ hP, hascii _ hQ⟩

namespace ProxyProtocolV1Encoder

variable (txt : IpText)

theorem encodeTcp_v4 (a b : Vector UInt8 4) (p q : UInt16) :
    encodeTcp txt (.v4 a p) (.v4 b q) = .ok (asBytes ("PROXY TCP".toList ++ ['4', ' '] ++
      txt.ipv4Display a ++ ' ' :: txt.ipv4Display b ++ ' ' :: u16Display p ++ ' ' :: u16Display q ++
      ['\r', '\n'])) := by
  rw [show "PROXY TCP".toList ++ ['4', ' '] = "PROXY TCP4 ".toList by simp]
  rfl

theorem encodeTcp_v6 (a b : Vector UInt8 16) (p q : UInt16) (fc sc fs ss : UInt32) :
    encodeTcp txt (.v6 a p fc sc) (.v6 b q fs ss) = .ok (asBytes ("PROXY TCP".toList ++ ['6', ' '] ++
      txt.ipv6Display a ++ ' ' :: txt.ipv6Display b ++ ' ' :: u16Display p ++ ' ' :: u16Display q ++
      ['\r', '\n'])) := by
  rw [show "PROXY TCP".toList ++ ['6', ' '] = "PROXY TCP6 ".toList by simp]
  rfl

theorem encodeTcp_of_sameFamily {c s : SocketAddr} (h : c.SameFamily s) :
    ∃ line, encodeTcp txt c s = .ok line := by
  cases c <;> cases s <;> simp only [SocketAddr.SameFamily] at h
  · exact ⟨_, encodeTcp_v4 ..⟩
  · exact ⟨_, encodeTcp_v6 ..⟩

/-- Addresses of two families are refused. -/
theorem encodeTcp_of_not_sameFamily {c s : SocketAddr} (h : ¬c.SameFamily s) :
    encodeTcp txt c s = .error .addressFamilyNotMatch := by
  cases c <;> cases s <;> simp only [SocketAddr.SameFamily, not_true_eq_false] at h <;> rfl

end ProxyProtocolV1Encoder

namespace ProxyProtocolV1Reader

variable (txt : IpText)

/-- `parse_buf` splits a `TCP` line into its family byte and its fields. -/
theorem parseBuf_line (f : Char) (hf : FieldText [f]) (A B P Q : List Char) (hA : FieldText A)
    (hB : FieldText B) (hP : FieldText P) (hQ : FieldText Q) :
    (parseBuf txt (asBytes ("PROXY TCP".toList ++ [f, ' '] ++ A ++ ' ' :: B ++ ' ' :: P ++ ' ' :: Q ++
        ['\r', '\n']))).run =
      (parseAddrs txt f.toNat.toUInt8 [asBytes A, asBytes B, asBytes P, asBytes (Q ++ ['\r', '\n'])]).run := by
  have hf' : f.toNat < 128 := (hf f List.mem_cons_self).1
  have hsp : ∀ s, asBytes (' ' :: s) = 32 :: asBytes s := fun s => asBytes_cons_of_ascii (by decide) s
  have hQ' : FieldText (Q ++ ['\r', '\n']) := hQ.append (by simp [FieldText])
  have hTCP : (32 : UInt8) ∉ [84, 67, 80, f.toNat.toUInt8] := by
    have h := space_not_mem_asBytes (FieldText.append (show FieldText "TCP".toList by simp [FieldText]) hf)
    rwa [asBytes_append, show asBytes "TCP".toList = [84, 67, 80] by rfl,
      asBytes_eq_map_of_ascii (s := [f]) (by simpa using hf')] at h
  -- the line past `PROXY `, as fields and the spaces between them
  have hline : asBytes ("PROXY TCP".toList ++ [f, ' '] ++ A ++ ' ' :: B ++ ' ' :: P ++ ' ' :: Q ++
      ['\r', '\n']) = commonData ++ ([84, 67, 80, f.toNat.toUInt8] ++ 32 :: (asBytes A ++ 32 ::
        (asBytes B ++ 32 :: (asBytes P ++ 32 :: asBytes (Q ++ ['\r', '\n']))))) := by
    rw [show "PROXY TCP".toList = "PROXY ".toList ++ "TCP".toList by simp]
    simp only [commonData, List.append_assoc, List.cons_append, List.nil_append, asBytes_append,
      asBytes_cons_of_ascii hf', hsp, show asBytes "TCP".toList = [84, 67, 80] by rfl]
  have hfields : ([84, 67, 80, f.toNat.toUInt8] ++ 32 :: (asBytes A ++ 32 :: (asBytes B ++ 32 ::
      (asBytes P ++ 32 :: asBytes (Q ++ ['\r', '\n']))))).splitOn 32 =
      [[84, 67, 80, f.toNat.toUInt8], asBytes A, asBytes B, asBytes P, asBytes (Q ++ ['\r', '\n'])] := by
    rw [splitOn_space_append hTCP, splitOn_space_append (space_not_mem_asBytes hA),
      splitOn_space_append (space_not_mem_asBytes hB), splitOn_space_append (space_not_mem_asBytes hP),
      splitOn_space_of_not_mem (space_not_mem_asBytes hQ')]
  rw [hline, parseBuf, List.sliceFrom?_of_eq_append (p := commonData) rfl rfl]
  simp only [ExceptT.lift_some_bind, hfields, List.getElem?_cons_zero, List.length_cons, List.length_nil,
    show asBytes "TCP".toList = [84, 67, 80] by rfl, List.take_succ_cons, List.take_zero, List.tail_cons,
    ↓reduceDIte, ↓reduceIte]
  rfl

/-- The fields of a `TCP4` line read back as the addresses and ports. -/
theorem parseAddrs_v4 (a b : Vector UInt8 4) (p q : UInt16) :
    (parseAddrs txt 52 [asBytes (txt.ipv4Display a), asBytes (txt.ipv4Display b), asBytes (u16Display p),
      asBytes (u16Display q ++ ['\r', '\n'])]).run = some (.ok (some ⟨.v4 a p, .v4 b q⟩)) := by
  simp [parseAddrs, -asBytes_append, fromUtf8_asBytes, txt.ipv4FromStr_display, u16FromStr_u16Display,
    trimEnd_u16Display, SocketAddr.new]

/-- The fields of a `TCP6` line read back as the addresses and ports, with
    no flow label and no scope id. -/
theorem parseAddrs_v6 (a b : Vector UInt8 16) (p q : UInt16) :
    (parseAddrs txt 54 [asBytes (txt.ipv6Display a), asBytes (txt.ipv6Display b), asBytes (u16Display p),
      asBytes (u16Display q ++ ['\r', '\n'])]).run = some (.ok (some ⟨.v6 a p 0 0, .v6 b q 0 0⟩)) := by
  simp [parseAddrs, -asBytes_append, fromUtf8_asBytes, txt.ipv6FromStr_display, u16FromStr_u16Display,
    trimEnd_u16Display, SocketAddr.new]

/-- A line that `encode_tcp` writes is below the readers' limit, and
    `parse_buf` reads it back as the two addresses as carried. -/
theorem parseBuf_encodeTcp {c s : SocketAddr} {line : List UInt8}
    (h : ProxyProtocolV1Encoder.encodeTcp txt c s = .ok line) :
    line.length < proxyDataV1MaxLen ∧
      (parseBuf txt line).run = some (.ok (some ⟨c.carried, s.carried⟩)) := by
  -- the line of `parseBuf_line`, with the family's digit
  obtain ⟨f, hf, hline, hfields⟩ : ∃ f, FieldText [f] ∧
      line = asBytes ("PROXY TCP".toList ++ [f, ' '] ++ txt.display c.ip ++ ' ' :: txt.display s.ip ++
        ' ' :: u16Display c.port ++ ' ' :: u16Display s.port ++ ['\r', '\n']) ∧
      (parseAddrs txt f.toNat.toUInt8 [asBytes (txt.display c.ip), asBytes (txt.display s.ip),
        asBytes (u16Display c.port), asBytes (u16Display s.port ++ ['\r', '\n'])]).run =
        some (.ok (some ⟨c.carried, s.carried⟩)) := by
    cases c with
    | v4 a p =>
      cases s with
      | v4 b q =>
        rw [ProxyProtocolV1Encoder.encodeTcp_v4] at h
        exact ⟨'4', by simp [FieldText], (Except.ok.inj h).symm, parseAddrs_v4 txt a b p q⟩
      | v6 => rw [ProxyProtocolV1Encoder.encodeTcp_of_not_sameFamily txt id] at h; cases h
    | v6 a p =>
      cases s with
      | v4 => rw [ProxyProtocolV1Encoder.encodeTcp_of_not_sameFamily txt id] at h; cases h
      | v6 b q =>
        rw [ProxyProtocolV1Encoder.encodeTcp_v6] at h
        exact ⟨'6', by simp [FieldText], (Except.ok.inj h).symm, parseAddrs_v6 txt a b p q⟩
  subst hline
  have hA := txt.display_fieldText c.ip
  have hB := txt.display_fieldText s.ip
  refine ⟨?_, ?_⟩
  · -- at most 39 characters an address and 5 a port
    have := txt.display_length_le c.ip
    have := txt.display_length_le s.ip
    have := u16Display_length c.port
    have := u16Display_length s.port
    rw [length_tcpLine f hf _ _ _ _ hA hB (u16Display_chars _) (u16Display_chars _)]
    simp only [proxyDataV1MaxLen]
    omega
  · rw [parseBuf_line txt f hf _ _ _ _ hA hB (u16Display_chars _) (u16Display_chars _)]
    exact hfields

end ProxyProtocolV1Reader

/-! ## Version 2 -/

namespace ProxyProtocolV2Encoder

/-- `push_tlv` called with each key and value in turn: a call that fails
    leaves the encoder as it was, and the next call goes on from it. -/
def pushTlvs (e : ProxyProtocolV2Encoder) : List (UInt8 × List UInt8) → ProxyProtocolV2Encoder
  | [] => e
  | (key, value) :: kvs => (e.pushTlv key value).2.pushTlvs kvs

/-- A `push_tlv` fails and leaves the encoder as it was, or appends the TLV. -/
theorem pushTlv_spec (e : ProxyProtocolV2Encoder) (key : UInt8) (value : List UInt8) :
    (∃ err, e.pushTlv key value = (.error err, e)) ∨
      ((e.pushTlv key value).1 = .ok () ∧
        (e.pushTlv key value).2.data = e.data ++ key :: u16Bytes value.length.toUInt16 ++ value) := by
  unfold pushTlv
  split_ifs
  · exact .inl ⟨_, rfl⟩
  · exact .inl ⟨_, rfl⟩
  · exact .inr ⟨rfl, rfl⟩

/-- A `push_tlv` that fails leaves the encoder as it was. -/
theorem pushTlv_error {e : ProxyProtocolV2Encoder} {key : UInt8} {value : List UInt8}
    {err : ProxyProtocolEncodeError} (h : (e.pushTlv key value).1 = .error err) :
    (e.pushTlv key value).2 = e := by
  rcases pushTlv_spec e key value with ⟨err', h'⟩ | ⟨hok, -⟩
  · rw [h']
  · rw [hok] at h; cases h

/-- Pushes only append to the bytes written. -/
theorem data_pushTlvs (e : ProxyProtocolV2Encoder) (kvs : List (UInt8 × List UInt8)) :
    ∃ t, (e.pushTlvs kvs).data = e.data ++ t := by
  induction kvs generalizing e with
  | nil => exact ⟨[], by simp [pushTlvs]⟩
  | cons kv kvs ih =>
    obtain ⟨key, value⟩ := kv
    obtain ⟨t, ht⟩ := ih (e.pushTlv key value).2
    rcases pushTlv_spec e key value with ⟨err, h⟩ | ⟨-, h⟩
    · refine ⟨t, ?_⟩
      rw [h] at ht
      simpa [pushTlvs, h] using ht
    · exact ⟨key :: u16Bytes value.length.toUInt16 ++ value ++ t, by simp [pushTlvs, ht, h]⟩

theorem encodeTcp_of_some {e : ProxyProtocolV2Encoder} {c s : SocketAddr} {d : List UInt8}
    (h : tcpHeader c s = some d) : e.encodeTcp c s = (.ok d, ⟨d, tcpHeader_length_le h⟩) := by
  unfold encodeTcp
  split
  · next d' hd' =>
    rw [h] at hd'
    cases hd'
    rfl
  · next hd' => rw [h] at hd'; cases hd'

theorem encodeTcp_of_none {e : ProxyProtocolV2Encoder} {c s : SocketAddr} (h : tcpHeader c s = none) :
    (e.encodeTcp c s).1 = .error .addressFamilyNotMatch := by
  unfold encodeTcp
  split
  · next d' hd' => rw [h] at hd'; cases hd'
  · rfl

theorem tcpHeader_isSome_iff (c s : SocketAddr) : (tcpHeader c s).isSome ↔ c.SameFamily s := by
  cases c <;> cases s <;> simp [tcpHeader, SocketAddr.SameFamily]

theorem newTcp_eq_ok {c s : SocketAddr} {e : ProxyProtocolV2Encoder} (h : newTcp c s = .ok e) :
    tcpHeader c s = some e.data := by
  cases hd : tcpHeader c s with
  | none =>
    have h₁ := encodeTcp_of_none (e := new) hd
    unfold newTcp at h
    split at h
    · next r e' heq => rw [heq] at h₁; cases h₁
    · cases h
  | some d =>
    unfold newTcp at h
    rw [encodeTcp_of_some hd] at h
    cases h
    rfl

/-- Both encoders refuse two addresses of different families. -/
theorem newTcp_eq_error {c s : SocketAddr} {err : ProxyProtocolEncodeError}
    (h : newTcp c s = .error err) : err = .addressFamilyNotMatch ∧ ¬c.SameFamily s := by
  cases hd : tcpHeader c s with
  | none =>
    have h₁ := encodeTcp_of_none (e := new) hd
    refine ⟨?_, fun hf => by simp [← tcpHeader_isSome_iff, hd] at hf⟩
    unfold newTcp at h
    split at h
    · cases h
    · next r err' heq => rw [heq] at h₁; cases h₁; cases h; rfl
  | some d =>
    unfold newTcp at h
    rw [encodeTcp_of_some hd] at h
    cases h

theorem newTcp_of_not_sameFamily {c s : SocketAddr} (h : ¬c.SameFamily s) :
    newTcp c s = .error .addressFamilyNotMatch := by
  have hd : tcpHeader c s = none := by
    simpa [← tcpHeader_isSome_iff] using h
  have h₁ := encodeTcp_of_none (e := new) hd
  unfold newTcp
  split
  · next r e' heq => rw [heq] at h₁; cases h₁
  · next r err' heq => rw [heq] at h₁; cases h₁; rfl

theorem newTcp_of_sameFamily {c s : SocketAddr} (h : c.SameFamily s) : ∃ e, newTcp c s = .ok e := by
  obtain ⟨d, hd⟩ := Option.isSome_iff_exists.1 ((tcpHeader_isSome_iff c s).2 h)
  unfold newTcp
  rw [encodeTcp_of_some hd]
  exact ⟨_, rfl⟩

/-- `finalize` writes the length of what follows the header into it. -/
theorem finalize_eq {e : ProxyProtocolV2Encoder} {b13 b14 x y : UInt8} {body : List UInt8}
    (h : e.data = v2MagicHeader ++ [b13, b14, x, y] ++ body) :
    e.finalize = some (v2MagicHeader ++ [b13, b14] ++ u16Bytes body.length.toUInt16 ++ body) := by
  have hlen : e.data.length = 16 + body.length := by
    rw [h]; simp [v2MagicHeader]; omega
  simp only [finalize, hlen, v2HdrLen, show ¬16 + body.length < 16 by omega, if_false,
    Nat.add_sub_cancel_left]
  rw [h]
  simp [v2MagicHeader]

end ProxyProtocolV2Encoder

namespace ProxyProtocolV2Reader

/-- The header announces `body.length` bytes: they are the data, and the
    stream goes on after them. -/
theorem readInData_frame (b13 b14 : UInt8) (hv : b13 >>> 4 = 2) (body rest : List UInt8)
    (hlen : body.length ≤ proxyDataV2MaxLen) :
    readInData (v2MagicHeader ++ [b13, b14] ++ u16Bytes body.length.toUInt16 ++ body ++ rest) =
      .ok (v2MagicHeader ++ [b13, b14] ++ u16Bytes body.length.toUInt16, body, rest) := by
  have hhdr : (v2MagicHeader ++ [b13, b14] ++ u16Bytes body.length.toUInt16).length = proxyHdrV2Len := by
    simp [v2MagicHeader, proxyHdrV2Len]
  have hL : body.length.toUInt16.toNat = body.length := by
    simp [proxyDataV2MaxLen] at hlen
    simp; omega
  have hmax : ¬proxyDataV2MaxLen < body.length := Nat.not_lt.2 hlen
  unfold readInData
  rw [List.append_assoc _ body rest, readExact_append hhdr]
  -- the length field as the two bytes of one `u16`
  generalize body.length.toUInt16 = x at hL ⊢
  simp [v2MagicHeader, u16Bytes, hv, beU16_u16Bytes, hL, hmax]
  rfl

/-- The header's bytes 12 and 13, whatever its length field. -/
theorem getD_header (b13 b14 : UInt8) (x : List UInt8) :
    (v2MagicHeader ++ [b13, b14] ++ x).getD 12 0 = b13 ∧
      (v2MagicHeader ++ [b13, b14] ++ x).getD 13 0 = b14 :=
  ⟨rfl, rfl⟩

/-- The addresses and the ports at their offsets in the data. -/
theorem body_fields {n : Nat} (c s : Vector UInt8 n) (cp sp : UInt16) (t : List UInt8) :
    slice (c.toList ++ s.toList ++ u16Bytes cp ++ u16Bytes sp ++ t) 0 n = c ∧
      slice (c.toList ++ s.toList ++ u16Bytes cp ++ u16Bytes sp ++ t) n n = s ∧
      beU16 ((c.toList ++ s.toList ++ u16Bytes cp ++ u16Bytes sp ++ t).getD (n + n) 0)
        ((c.toList ++ s.toList ++ u16Bytes cp ++ u16Bytes sp ++ t).getD (n + n + 1) 0) = cp ∧
      beU16 ((c.toList ++ s.toList ++ u16Bytes cp ++ u16Bytes sp ++ t).getD (n + n + 2) 0)
        ((c.toList ++ s.toList ++ u16Bytes cp ++ u16Bytes sp ++ t).getD (n + n + 3) 0) = sp := by
  have h8 := getD_u16Bytes_hi (c.toList ++ s.toList) (u16Bytes sp ++ t) cp
  have h9 := getD_u16Bytes_lo (c.toList ++ s.toList) (u16Bytes sp ++ t) cp
  have h10 := getD_u16Bytes_hi (c.toList ++ s.toList ++ u16Bytes cp) t sp
  have h11 := getD_u16Bytes_lo (c.toList ++ s.toList ++ u16Bytes cp) t sp
  simp only [List.length_append, Vector.length_toList, length_u16Bytes, List.append_assoc] at h8 h9 h10 h11
  refine ⟨by simp only [List.append_assoc, slice_append_zero], ?_, ?_, ?_⟩
  · simpa [List.append_assoc] using
      slice_append_length c.toList (s.toList ++ u16Bytes cp ++ u16Bytes sp ++ t) 0 n
  · simp only [List.append_assoc, h8, h9, beU16_u16Bytes]
  · rw [show n + (n + 2) = n + n + 2 by omega] at h10
    rw [show n + (n + 2) + 1 = n + n + 3 by omega] at h11
    simp only [List.append_assoc, h10, h11, beU16_u16Bytes]

/-- A frame for TCP over IPv4 reads back as its two addresses, whatever
    TLVs follow them. -/
theorem readProxyProtocolV2ForTcp_tcp4 (c s : Vector UInt8 4) (cp sp : UInt16) (t rest : List UInt8)
    (ht : 12 + t.length ≤ proxyDataV2MaxLen) :
    readProxyProtocolV2ForTcp (v2MagicHeader ++ [byte13Proxy, byte14Tcp4] ++
        u16Bytes (12 + t.length).toUInt16 ++ (c.toList ++ s.toList ++ u16Bytes cp ++ u16Bytes sp ++ t) ++
        rest) =
      .ok (some ⟨.v4 c cp, .v4 s sp⟩, rest) := by
  have hlen : (c.toList ++ s.toList ++ u16Bytes cp ++ u16Bytes sp ++ t).length = 12 + t.length := by
    simp; omega
  obtain ⟨hsrc, hdst, hcp, hsp⟩ := body_fields c s cp sp t
  have hcmd : byte13Proxy &&& 0x0F = 0x01 := by decide
  have hproto : byte14Tcp4 &&& 0x0F = 0x01 := by decide
  have hfam : byte14Tcp4 >>> 4 = 0x01 := by decide
  rw [← hlen, readProxyProtocolV2ForTcp, readInData_frame _ _ (by decide) _ _ (by rw [hlen]; exact ht),
    Except.ok_bind]
  simp +decide only [hlen, (getD_header _ _ _).1, (getD_header _ _ _).2, hcmd, hproto, hfam, getInetAddr,
    hsrc, hdst, hcp, hsp, SocketAddr.new, show ¬12 + t.length < 12 by omega, ↓reduceIte, Except.ok_bind]
  rfl

/-- A frame for TCP over IPv6 reads back as its two addresses, whatever
    TLVs follow them. -/
theorem readProxyProtocolV2ForTcp_tcp6 (c s : Vector UInt8 16) (cp sp : UInt16) (t rest : List UInt8)
    (ht : 36 + t.length ≤ proxyDataV2MaxLen) :
    readProxyProtocolV2ForTcp (v2MagicHeader ++ [byte13Proxy, byte14Tcp6] ++
        u16Bytes (36 + t.length).toUInt16 ++ (c.toList ++ s.toList ++ u16Bytes cp ++ u16Bytes sp ++ t) ++
        rest) =
      .ok (some ⟨.v6 c cp 0 0, .v6 s sp 0 0⟩, rest) := by
  have hlen : (c.toList ++ s.toList ++ u16Bytes cp ++ u16Bytes sp ++ t).length = 36 + t.length := by
    simp; omega
  obtain ⟨hsrc, hdst, hcp, hsp⟩ := body_fields c s cp sp t
  have hcmd : byte13Proxy &&& 0x0F = 0x01 := by decide
  have hproto : byte14Tcp6 &&& 0x0F = 0x01 := by decide
  have hfam : byte14Tcp6 >>> 4 = 0x02 := by decide
  rw [← hlen, readProxyProtocolV2ForTcp, readInData_frame _ _ (by decide) _ _ (by rw [hlen]; exact ht),
    Except.ok_bind]
  simp +decide only [hlen, (getD_header _ _ _).1, (getD_header _ _ _).2, hcmd, hproto, hfam, getInet6Addr,
    hsrc, hdst, hcp, hsp, SocketAddr.new, show ¬36 + t.length < 36 by omega, ↓reduceIte, Except.ok_bind]
  rfl

open ProxyProtocolV2Encoder in
/-- After `new_tcp` and any pushes, `finalize` gives a frame that the reader
    reads back as the two addresses as carried, leaving the stream after
    it. -/
theorem readProxyProtocolV2ForTcp_finalize {c s : SocketAddr} {e : ProxyProtocolV2Encoder}
    (he : newTcp c s = .ok e) (kvs : List (UInt8 × List UInt8)) (rest : List UInt8) :
    ∃ out, (e.pushTlvs kvs).finalize = some out ∧
      readProxyProtocolV2ForTcp (out ++ rest) = .ok (some ⟨c.carried, s.carried⟩, rest) := by
  have hd := newTcp_eq_ok he
  obtain ⟨t, ht⟩ := data_pushTlvs e kvs
  have hcap := (e.pushTlvs kvs).length_le
  rw [ht] at hcap
  cases c <;> cases s <;> simp only [tcpHeader, reduceCtorEq, Option.some.injEq] at hd
  case v4.v4 c cp s sp =>
    -- the header, then the addresses and the TLVs
    have hdata : (e.pushTlvs kvs).data = v2MagicHeader ++ [byte13Proxy, byte14Tcp4, 0, 12] ++
        (c.toList ++ s.toList ++ u16Bytes cp ++ u16Bytes sp ++ t) := by
      rw [ht, ← hd]; simp
    have hlen : (c.toList ++ s.toList ++ u16Bytes cp ++ u16Bytes sp ++ t).length = 12 + t.length := by
      simp; omega
    refine ⟨_, finalize_eq hdata, ?_⟩
    rw [hlen]
    exact readProxyProtocolV2ForTcp_tcp4 c s cp sp t rest (by
      rw [← hd] at hcap; simp [v2MagicHeader, v2BufCap] at hcap; simp [proxyDataV2MaxLen]; omega)
  case v6.v6 c cp _ _ s sp _ _ =>
    have hdata : (e.pushTlvs kvs).data = v2MagicHeader ++ [byte13Proxy, byte14Tcp6, 0, 36] ++
        (c.toList ++ s.toList ++ u16Bytes cp ++ u16Bytes sp ++ t) := by
      rw [ht, ← hd]; simp
    have hlen : (c.toList ++ s.toList ++ u16Bytes cp ++ u16Bytes sp ++ t).length = 36 + t.length := by
      simp; omega
    refine ⟨_, finalize_eq hdata, ?_⟩
    rw [hlen]
    exact readProxyProtocolV2ForTcp_tcp6 c s cp sp t rest (by
      rw [← hd] at hcap; simp [v2MagicHeader, v2BufCap] at hcap; simp [proxyDataV2MaxLen]; omega)

end ProxyProtocolV2Reader

open ProxyProtocolV1Reader ProxyProtocolV2Reader in
/-- Both versions read back what their encoder wrote for two addresses of one
    family, as carried; both encoders refuse two families; a `push_tlv` that
    fails leaves the version 2 encoder as it was. -/
theorem proxyProtocol_round_trip (txt : IpText) (c s : SocketAddr) :
    (c.SameFamily s →
      (∃ line, ProxyProtocolV1Encoder.encodeTcp txt c s = .ok line ∧ line.length < proxyDataV1MaxLen ∧
        (parseBuf txt line).run = some (.ok (some ⟨c.carried, s.carried⟩))) ∧
      ∃ e, ProxyProtocolV2Encoder.newTcp c s = .ok e ∧
        ∀ kvs rest, ∃ out, (e.pushTlvs kvs).finalize = some out ∧
          readProxyProtocolV2ForTcp (out ++ rest) = .ok (some ⟨c.carried, s.carried⟩, rest)) ∧
    (¬c.SameFamily s →
      ProxyProtocolV1Encoder.encodeTcp txt c s = .error .addressFamilyNotMatch ∧
        ProxyProtocolV2Encoder.newTcp c s = .error .addressFamilyNotMatch) ∧
    ∀ (e : ProxyProtocolV2Encoder) key value err,
      (e.pushTlv key value).1 = .error err → (e.pushTlv key value).2 = e := by
  refine ⟨fun h => ⟨?_, ?_⟩, fun h => ?_, fun e key value err => ProxyProtocolV2Encoder.pushTlv_error⟩
  · obtain ⟨line, hline⟩ := ProxyProtocolV1Encoder.encodeTcp_of_sameFamily txt h
    exact ⟨line, hline, parseBuf_encodeTcp txt hline⟩
  · obtain ⟨e, he⟩ := ProxyProtocolV2Encoder.newTcp_of_sameFamily h
    exact ⟨e, he, readProxyProtocolV2ForTcp_finalize he⟩
  · exact ⟨ProxyProtocolV1Encoder.encodeTcp_of_not_sameFamily txt h,
      ProxyProtocolV2Encoder.newTcp_of_not_sameFamily h⟩

open ProxyProtocolV1Reader ProxyProtocolV2Reader in
/-- An IPv6 client with a flow label comes back from either version without it. -/
theorem proxyProtocol_drops_flowinfo :
    ∃ line e out,
      ProxyProtocolV1Encoder.encodeTcp IpText.std (.v6 (Vector.replicate 16 0) 443 1 0)
        (.v6 (Vector.replicate 16 0) 80 0 0) = .ok line ∧
      (parseBuf IpText.std line).run =
        some (.ok (some ⟨.v6 (Vector.replicate 16 0) 443 0 0, .v6 (Vector.replicate 16 0) 80 0 0⟩)) ∧
      ProxyProtocolV2Encoder.newTcp (.v6 (Vector.replicate 16 0) 443 1 0)
        (.v6 (Vector.replicate 16 0) 80 0 0) = .ok e ∧
      e.finalize = some out ∧
      readProxyProtocolV2ForTcp out =
        .ok (some ⟨.v6 (Vector.replicate 16 0) 443 0 0, .v6 (Vector.replicate 16 0) 80 0 0⟩, []) ∧
      (SocketAddr.v6 (Vector.replicate 16 0) 443 0 0) ≠ .v6 (Vector.replicate 16 0) 443 1 0 := by
  have hv1 := ProxyProtocolV1Encoder.encodeTcp_v6 IpText.std (Vector.replicate 16 0)
    (Vector.replicate 16 0) 443 80 1 0 0 0
  obtain ⟨-, hparse⟩ := parseBuf_encodeTcp IpText.std hv1
  obtain ⟨e, he⟩ := ProxyProtocolV2Encoder.newTcp_of_sameFamily
    (c := .v6 (Vector.replicate 16 0) 443 1 0) (s := .v6 (Vector.replicate 16 0) 80 0 0) trivial
  obtain ⟨out, hout, hread⟩ := readProxyProtocolV2ForTcp_finalize he [] []
  rw [List.append_nil] at hread
  exact ⟨_, e, out, hv1, hparse, he, hout, hread, by decide⟩

end G3Proxy
