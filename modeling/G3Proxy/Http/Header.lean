/-
  Header lines and header maps of g3-http (`parse/header_line.rs`) and
  g3-types (`net/http/header`), with the pieces of the Rust standard library
  and of the `http` crate they rest on.

  Text is a `List Char`; a length counted in bytes is `byteLen`, the UTF-8
  size of the characters.

  * `trim` and `toLowercase` are Rust's `str::trim` (Unicode White_Space) and
    `str::to_lowercase`; `u64FromStr` is `u64::from_str`, which accepts one
    leading `+`.
  * `HttpHeaderLine.parse` splits a line at its first `:` and trims both
    sides; `HttpHeaderValue.fromStr` checks the value bytes.
  * What the parsers call of the `http` crate is the parameter `HttpLibs`:
    the header name and method parsers and a header map type with its
    operations, under the laws `HttpLibs.Spec`.  The map's laws speak of the
    values held under each name (`getAll`); `mem_fields_append` and
    `mem_fields_remove` are what the parsers' proofs use of them.
-/
import G3Proxy.Io.Stream

namespace G3Proxy

/-! ## Text -/

/-- Rust's `char::is_whitespace`: the Unicode White_Space property. -/
def isRustWhitespace (c : Char) : Bool :=
  c = ' ' || (9 ≤ c.toNat && c.toNat ≤ 13) || c.toNat = 0x85 || c.toNat = 0xA0 ||
    c.toNat = 0x1680 || (0x2000 ≤ c.toNat && c.toNat ≤ 0x200A) || c.toNat = 0x2028 ||
    c.toNat = 0x2029 || c.toNat = 0x202F || c.toNat = 0x205F || c.toNat = 0x3000

/-- `str::trim`. -/
def trim (s : List Char) : List Char :=
  ((s.dropWhile isRustWhitespace).reverse.dropWhile isRustWhitespace).reverse

/-- The lowercase form of one character under `str::to_lowercase`, for every
    character whose lowercase form contains an ASCII character (ASCII capitals,
    the Kelvin sign, the dotted capital I); other characters are kept, their
    lowercase forms being non-ASCII, which no modelled comparison can tell apart. -/
def lowerChar (c : Char) : List Char :=
  if 'A' ≤ c ∧ c ≤ 'Z' then [Char.ofNat (c.toNat + 32)]
  else if c.toNat = 0x212A then ['k']
  else if c.toNat = 0x130 then ['i', Char.ofNat 0x307]
  else [c]

/-- `str::to_lowercase`. -/
def toLowercase (s : List Char) : List Char :=
  s.flatMap lowerChar

/-- The UTF-8 length of a text. -/
def byteLen (s : List Char) : Nat :=
  (s.map Char.utf8Size).sum

@[simp] theorem byteLen_nil : byteLen [] = 0 := rfl

@[simp] theorem byteLen_cons (c : Char) (s : List Char) : byteLen (c :: s) = c.utf8Size + byteLen s := by
  simp [byteLen]

@[simp] theorem byteLen_append (s t : List Char) : byteLen (s ++ t) = byteLen s + byteLen t := by
  simp [byteLen]

theorem byteLen_pos {s : List Char} (h : s ≠ []) : 0 < byteLen s := by
  obtain ⟨c, s, rfl⟩ := List.exists_cons_of_ne_nil h
  have := Char.utf8Size_pos c
  simp only [byteLen_cons]
  omega

/-- Every character takes at least one byte. -/
theorem length_le_byteLen (s : List Char) : s.length ≤ byteLen s := by
  induction s with
  | nil => simp
  | cons c s ih =>
    have := Char.utf8Size_pos c
    simp only [byteLen_cons, List.length_cons]
    omega

/-- `str::split` at every occurrence of `sep`. -/
def splitOn (sep : Char) : List Char → List (List Char)
  | [] => [[]]
  | c :: cs =>
    if c = sep then [] :: splitOn sep cs
    else match splitOn sep cs with
      | [] => [[c]]
      | w :: ws => (c :: w) :: ws

/-- The value of a decimal digit string, or `none` if it is empty or holds
    another character. -/
def decimalValue (ds : List Char) : Option Nat :=
  if ds ≠ [] ∧ ds.all Char.isDigit then
    some (ds.foldl (fun acc c => 10 * acc + (c.toNat - '0'.toNat)) 0)
  else none

/-- `u64::from_str`: an optional `+`, then decimal digits, below `2^64`. -/
def u64FromStr (s : List Char) : Option Nat :=
  let ds := match s with
    | '+' :: rest => rest
    | _ => s
  match decimalValue ds with
  | some n => if n < 2 ^ 64 then some n else none
  | none => none

example : u64FromStr "+5".toList = some 5 := by decide

theorem isDigit_of_decimalValue {ds : List Char} {n : Nat} (h : decimalValue ds = some n) :
    ∀ c ∈ ds, c.isDigit = true := by
  unfold decimalValue at h
  split at h
  · rename_i hds
    exact List.all_eq_true.1 hds.2
  · cases h

theorem ne_nil_of_decimalValue {ds : List Char} {n : Nat} (h : decimalValue ds = some n) : ds ≠ [] := by
  rintro rfl
  cases h

/-- A digit string below `2^64` is read by `u64::from_str` as its value:
    its first character is a digit, not the sign. -/
theorem u64FromStr_of_decimalValue {ds : List Char} {n : Nat} (h : decimalValue ds = some n)
    (hn : n < 2 ^ 64) : u64FromStr ds = some n := by
  have hdig := isDigit_of_decimalValue h
  obtain ⟨c, cs, rfl⟩ := List.exists_cons_of_ne_nil (ne_nil_of_decimalValue h)
  have hc : c ≠ '+' := by
    rintro rfl
    exact absurd (hdig '+' List.mem_cons_self) (by decide)
  unfold u64FromStr
  split
  · rename_i rest hplus
    exact absurd (List.cons.inj hplus).1 hc
  · simp only [h, if_pos hn]

/-! ## Header lines -/

/-- `HttpLineParseError` (`parse/error.rs`). -/
inductive HttpLineParseError where
  | notLongEnough
  | lineTooLong (n : Nat)
  | invalidUtf8Encoding
  | noDelimiterFound (c : Char)
  | invalidHeaderName
  | invalidHeaderValue
  | invalidVersion
  | invalidStatusCode
  | invalidChunkSize
  deriving Repr, DecidableEq

/-- The text of a line error (its `Display`).  The detail that follows the
    text of a UTF-8 error comes from the standard library and is left out. -/
def HttpLineParseError.display : HttpLineParseError → String
  | .notLongEnough => "not long enough"
  | .lineTooLong n => s!"too long line (> {n})"
  | .invalidUtf8Encoding => "invalid utf-8 encoding"
  | .noDelimiterFound c => s!"no delimiter \x27{c}\x27 found"
  | .invalidHeaderName => "invalid header name"
  | .invalidHeaderValue => "invalid header value"
  | .invalidVersion => "invalid version"
  | .invalidStatusCode => "invalid status code"
  | .invalidChunkSize => "invalid chunk size"

/-- `HttpHeaderLine`: the trimmed name and value of a header line. -/
structure HttpHeaderLine where
  name : List Char
  value : List Char
  deriving Repr, DecidableEq

/-- `HttpHeaderLine::parse`: split at the first `:`, trim both sides.  The
    line is given as text: the `from_utf8` check before it is not modelled. -/
def HttpHeaderLine.parse (line : List Char) : Except HttpLineParseError HttpHeaderLine :=
  match line.idxOf? ':' with
  | none => .error (.noDelimiterFound ':')
  | some p => .ok ⟨trim (line.take p), trim (line.drop (p + 1))⟩

/-! ## Header names and values -/

/-- A token character (RFC 9110 `tchar`), the characters `http` accepts in
    header names and methods. -/
def isTokenChar (c : Char) : Bool :=
  c.isAlphanum || "!#$%&*+-.^_|~".toList.contains c || c.toNat = 39 || c.toNat = 96

/-- A header name, stored lowercase as `http::HeaderName` keeps it. -/
structure HeaderName where
  str : List Char
  deriving Repr, DecidableEq

/-- `HttpHeaderValue`: the value text and the header name as it was received. -/
structure HttpHeaderValue where
  inner : List Char
  originalName : Option (List Char)
  deriving Repr, DecidableEq

namespace HttpHeaderValue

/-- `is_valid` on the bytes of a value; a non-ASCII character's bytes are all
    at least `0x80`. -/
def isValid (c : Char) : Bool :=
  (32 ≤ c.toNat && c.toNat ≠ 127) || c = '\t'

/-- `HttpHeaderValue::from_str`. -/
def fromStr (s : List Char) : Option HttpHeaderValue :=
  if s.all isValid then some ⟨s, none⟩ else none

/-- `set_original_name`. -/
def setOriginalName (v : HttpHeaderValue) (name : List Char) : HttpHeaderValue :=
  { v with originalName := some name }

/-- `write_to_buf`: `name: value\r\n`, with the received spelling of the name. -/
def writeToBuf (v : HttpHeaderValue) (name : HeaderName) : List Char :=
  v.originalName.getD name.str ++ ": ".toList ++ v.inner ++ "\r\n".toList

end HttpHeaderValue

/-! ## What g3-http uses of the `http` crate -/

/-- The values held under `n`, in order, as `HeaderMap::get_all` yields them
    from the pairs `for_each` visits. -/
def getAll (n : HeaderName) (fields : List (HeaderName × HttpHeaderValue)) : List HttpHeaderValue :=
  fields.filterMap fun f => if f.1 = n then some f.2 else none

@[simp] theorem getAll_nil (n : HeaderName) : getAll n [] = [] := rfl

@[simp] theorem getAll_append (n : HeaderName) (xs ys : List (HeaderName × HttpHeaderValue)) :
    getAll n (xs ++ ys) = getAll n xs ++ getAll n ys :=
  List.filterMap_append

/-- The parts of the `http` crate the parsers call, over a header map type `M`
    (`HttpHeaderMap`, a `HeaderMap<HttpHeaderValue>`): `HeaderName::from_str`,
    `Method::from_str`, and the map's `default`, `append`, `remove`,
    `is_empty` and the `(name, value)` pairs `for_each` visits; with them the
    `atoi` crate's `u16::from_radix_10`, which the status line parser calls. -/
structure HttpLibs (M : Type) where
  headerNameFromStr : List Char → Option HeaderName
  methodFromStr : List Char → Option (List Char)
  u16FromRadix10 : List Char → Nat × Nat
  empty : M
  append : M → HeaderName → HttpHeaderValue → M
  remove : M → HeaderName → M
  isEmpty : M → Bool
  fields : M → List (HeaderName × HttpHeaderValue)

variable {M : Type}

/-- What the crates document of them.  A token of fewer than `2^16` bytes is a
    header name, stored lowercase, and a token is a method; the leading
    decimal digits of a text, when their value fits in a `u16`, are read as
    that value and their count; a map holds the values appended under a name,
    in order, until the name is removed, and is empty when it holds none.  The
    order in which `for_each` visits the names is left open, as the crate
    leaves it. -/
structure HttpLibs.Spec (L : HttpLibs M) : Prop where
  headerNameFromStr_token : ∀ s : List Char, s ≠ [] → s.length < 2 ^ 16 →
    s.all isTokenChar = true → L.headerNameFromStr s = some ⟨toLowercase s⟩
  methodFromStr_token : ∀ s : List Char, s ≠ [] → s.all isTokenChar = true →
    L.methodFromStr s = some s
  u16FromRadix10_digits : ∀ ds rest : List Char, ∀ n, decimalValue ds = some n → n < 2 ^ 16 →
    (rest.head?.all fun c => !c.isDigit) = true → L.u16FromRadix10 (ds ++ rest) = (n, ds.length)
  fields_empty : L.fields L.empty = []
  getAll_append : ∀ m n v n', getAll n' (L.fields (L.append m n v)) =
    getAll n' (L.fields m) ++ if n = n' then [v] else []
  getAll_remove : ∀ m n n', getAll n' (L.fields (L.remove m n)) =
    if n = n' then [] else getAll n' (L.fields m)
  isEmpty_iff : ∀ m, L.isEmpty m = true ↔ L.fields m = []

/-- The bytes `for_each(|name, value| value.write_to_buf(name, buf))` writes. -/
def HttpLibs.writeAll (L : HttpLibs M) (m : M) : List Char :=
  (L.fields m).flatMap fun f => f.2.writeToBuf f.1

theorem mem_iff_mem_getAll {fields : List (HeaderName × HttpHeaderValue)}
    {f : HeaderName × HttpHeaderValue} : f ∈ fields ↔ f.2 ∈ getAll f.1 fields := by
  obtain ⟨n, v⟩ := f
  simp only [getAll, List.mem_filterMap, Option.ite_none_right_eq_some, Option.some.injEq]
  constructor
  · intro h
    exact ⟨(n, v), h, rfl, rfl⟩
  · rintro ⟨⟨n', v'⟩, h, rfl, rfl⟩
    exact h

namespace HttpLibs.Spec

variable {L : HttpLibs M} (hL : L.Spec)
include hL

theorem mem_fields_append {m : M} {n : HeaderName} {v : HttpHeaderValue}
    {f : HeaderName × HttpHeaderValue} :
    f ∈ L.fields (L.append m n v) ↔ f ∈ L.fields m ∨ f = (n, v) := by
  obtain ⟨n', v'⟩ := f
  rw [mem_iff_mem_getAll, hL.getAll_append, mem_iff_mem_getAll]
  by_cases hn : n = n' <;> simp [hn, eq_comm]

theorem mem_fields_remove {m : M} {n : HeaderName} {f : HeaderName × HttpHeaderValue} :
    f ∈ L.fields (L.remove m n) ↔ f ∈ L.fields m ∧ f.1 ≠ n := by
  obtain ⟨n', v⟩ := f
  rw [mem_iff_mem_getAll, hL.getAll_remove, mem_iff_mem_getAll]
  by_cases hn : n = n' <;> simp [hn, Ne.symm]

end HttpLibs.Spec

/-! ## A realisation

The laws can be met: the pairs kept in the order they were appended, the name
and method parsers accepting exactly the tokens (the method of any length, the
name below `2^16` bytes).  The crate's own map groups the values of a name
instead; nothing modelled tells the two apart. -/

namespace HttpLibs

/-- `HeaderName::from_str` on the tokens it accepts. -/
def tokenHeaderName (s : List Char) : Option HeaderName :=
  if s ≠ [] ∧ s.length < 2 ^ 16 ∧ s.all isTokenChar then some ⟨toLowercase s⟩ else none

/-- `Method::from_str` on the tokens it accepts. -/
def tokenMethod (s : List Char) : Option (List Char) :=
  if s ≠ [] ∧ s.all isTokenChar then some s else none

/-- `u16::from_radix_10`: the value of the leading ASCII digits and how many
    there are; the `u16` arithmetic wraps, as in a release build. -/
def radix10 (s : List Char) : Nat × Nat :=
  let ds := s.takeWhile Char.isDigit
  (ds.foldl (fun acc c => (10 * acc + (c.toNat - '0'.toNat)) % 2 ^ 16) 0, ds.length)

/-- Wrapping at every digit wraps the value once. -/
theorem foldl_radix10_mod (ds : List Char) (a : Nat) :
    ds.foldl (fun acc c => (10 * acc + (c.toNat - '0'.toNat)) % 2 ^ 16) (a % 2 ^ 16) =
      ds.foldl (fun acc c => 10 * acc + (c.toNat - '0'.toNat)) a % 2 ^ 16 := by
  induction ds generalizing a with
  | nil => rfl
  | cons c ds ih =>
    simp only [List.foldl_cons]
    rw [← ih, Nat.add_mod, Nat.mul_mod, Nat.mod_mod, ← Nat.mul_mod, ← Nat.add_mod]

theorem radix10_digits {ds rest : List Char} {n : Nat} (h : decimalValue ds = some n)
    (hn : n < 2 ^ 16) (hrest : (rest.head?.all fun c => !c.isDigit) = true) :
    radix10 (ds ++ rest) = (n, ds.length) := by
  have hds := isDigit_of_decimalValue h
  have hv : ds.foldl (fun acc c => 10 * acc + (c.toNat - '0'.toNat)) 0 = n := by
    unfold decimalValue at h
    split_ifs at h
    exact Option.some.inj h
  -- the digits stop where `rest` begins
  have htake : (ds ++ rest).takeWhile Char.isDigit = ds := by
    rw [List.takeWhile_append_of_pos hds]
    cases rest with
    | nil => simp
    | cons c cs => simp_all
  have hwrap := foldl_radix10_mod ds 0
  rw [Nat.zero_mod, hv, Nat.mod_eq_of_lt hn] at hwrap
  simp only [radix10, htake, hwrap]

/-- The header map as the list of its pairs. -/
def ofLists : HttpLibs (List (HeaderName × HttpHeaderValue)) where
  headerNameFromStr := tokenHeaderName
  methodFromStr := tokenMethod
  u16FromRadix10 := radix10
  empty := []
  append m n v := m ++ [(n, v)]
  remove m n := m.filter (·.1 ≠ n)
  isEmpty m := m.isEmpty
  fields m := m

theorem ofLists_spec : ofLists.Spec where
  headerNameFromStr_token s hs hlen htok := by
    simp only [ofLists, tokenHeaderName]
    exact if_pos ⟨hs, hlen, htok⟩
  methodFromStr_token s hs htok := by simp [ofLists, tokenMethod, hs, htok]
  u16FromRadix10_digits _ _ _ h hn hrest := radix10_digits h hn hrest
  fields_empty := rfl
  getAll_append m n v n' := by
    by_cases hn : n = n' <;> simp [ofLists, getAll, hn]
  getAll_remove m n n' := by
    by_cases hn : n = n'
    · subst hn
      simp [ofLists, getAll, List.filterMap_filter]
    · simp only [ofLists, getAll, hn, if_false, List.filterMap_filter]
      congr 1
      funext f
      by_cases hf : f.1 = n' <;> simp [hf, Ne.symm hn]
  isEmpty_iff m := by simp [ofLists]

end HttpLibs

end G3Proxy
