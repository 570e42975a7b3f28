/-
  Fixed-width fields at the front of a byte stream, as an async reader's
  `read_u8`, `read_u16` and `read_exact` take them, and the fields a
  writer's `put_u8`, `put_u16` and `put_slice` leave; with the UTF-8 bytes
  of a string (`str::as_bytes`) and their decoding (`str::from_utf8`).

  * `readU8_cons`, `readU16_append`, `readArray_append`, `readExact_append`:
    what a writer put in front is read back, and the rest is left;
  * `slice_cons`, `slice_append_zero`, `slice_append_length`,
    `getD_u16Bytes_hi`, `getD_u16Bytes_lo`: the same for a field read at a
    fixed offset of a buffer;
  * `fromUtf8_asBytes`: the bytes of a string decode to it;
    `asBytes_take_of_ascii`: in an ASCII string a byte is a character;
  * `beValue_append`, `beValue_lt`: the number big-endian bytes spell
    (`u32::from_be_bytes`, `u128::from_be_bytes`).
-/
import Mathlib.Data.List.Basic
import Mathlib.Tactic.Ring

namespace Bytes

/-- `read_u8`: `none` at the end of the stream. -/
def readU8 : List UInt8 → Option (UInt8 × List UInt8)
  | [] => none
  | b :: rest => some (b, rest)

/-- `read_exact` into a buffer of `n` bytes. -/
def readExact (n : Nat) (input : List UInt8) : Option (List UInt8 × List UInt8) :=
  if n ≤ input.length then some (input.take n, input.drop n) else none

/-- `read_exact` into an array `[u8; n]`. -/
def readArray (n : Nat) (input : List UInt8) : Option (Vector UInt8 n × List UInt8) :=
  if h : n ≤ input.length then
    some (⟨(input.take n).toArray, by simp [h]⟩, input.drop n)
  else none

/-- The value of two big-endian bytes (`u16::from_be_bytes`, and
    `(hi as u16) << 8 + lo as u16`). -/
def beU16 (hi lo : UInt8) : UInt16 := (hi.toUInt16 <<< 8) + lo.toUInt16

/-- `read_u16`: two bytes, big-endian. -/
def readU16 (input : List UInt8) : Option (UInt16 × List UInt8) :=
  match input with
  | hi :: lo :: rest => some (beU16 hi lo, rest)
  | _ => none

/-- The bytes `put_u16` writes: big-endian. -/
def u16Bytes (v : UInt16) : List UInt8 := [(v >>> 8).toUInt8, v.toUInt8]

/-- `n` bytes of a buffer from offset `off` (`&buf[off..off + n]`, within
    bounds where it is used). -/
def slice (buf : List UInt8) (off n : Nat) : Vector UInt8 n :=
  Vector.ofFn fun i => buf.getD (off + i) 0

/-- The number big-endian bytes spell. -/
def beValue (bs : List UInt8) : Nat :=
  bs.foldl (fun acc b => acc * 256 + b.toNat) 0

/-- `str::as_bytes`: the UTF-8 encoding. -/
def asBytes (s : List Char) : List UInt8 := s.flatMap String.utf8EncodeChar

/-- `std::str::from_utf8`. -/
def fromUtf8 (bs : List UInt8) : Option (List Char) :=
  (ByteArray.mk bs.toArray).utf8Decode?.map Array.toList

@[simp] theorem readU8_cons (b : UInt8) (rest : List UInt8) : readU8 (b :: rest) = some (b, rest) :=
  rfl

@[simp] theorem readExact_append {pre : List UInt8} {n : Nat} (h : pre.length = n) (s : List UInt8) :
    readExact n (pre ++ s) = some (pre, s) := by
  subst h
  simp [readExact]

@[simp] theorem readArray_append {n : Nat} (v : Vector UInt8 n) (s : List UInt8) :
    readArray n (v.toList ++ s) = some (v, s) := by
  rw [readArray, dif_pos (by simp)]
  congr 2
  · ext i hi
    simp
  · simp

theorem beU16_u16Bytes (v : UInt16) : beU16 (v >>> 8).toUInt8 v.toUInt8 = v := by
  apply UInt16.toNat_inj.1
  have hv := v.toNat_lt
  have h8 : (8 : UInt16).toNat % 16 = 8 := rfl
  simp only [beU16, UInt16.toNat_add, UInt16.toNat_shiftLeft, UInt8.toNat_toUInt16,
    UInt16.toNat_toUInt8, UInt16.toNat_shiftRight, Nat.shiftLeft_eq, Nat.shiftRight_eq_div_pow, h8]
  omega

@[simp] theorem readU16_append (v : UInt16) (s : List UInt8) :
    readU16 (u16Bytes v ++ s) = some (v, s) := by
  simp [readU16, u16Bytes, beU16_u16Bytes]

@[simp] theorem length_u16Bytes (v : UInt16) : (u16Bytes v).length = 2 := rfl

@[simp] theorem slice_cons (a : UInt8) (l : List UInt8) (off n : Nat) :
    slice (a :: l) (off + 1) n = slice l off n := by
  ext i hi
  simp [slice, Nat.add_right_comm off 1 i]

@[simp] theorem slice_append_zero {n : Nat} (v : Vector UInt8 n) (s : List UInt8) :
    slice (v.toList ++ s) 0 n = v := by
  ext i hi
  simp [slice, List.getElem?_append_left]

/-- A field read at an offset past what was put in front of it. -/
theorem slice_append_length (pre l : List UInt8) (off n : Nat) :
    slice (pre ++ l) (pre.length + off) n = slice l off n := by
  ext i hi
  simp [slice, Nat.add_assoc, List.getD_eq_getElem?_getD, List.getElem?_append_right]

/-- The two bytes of a `u16` put after `pre`, at their offsets. -/
theorem getD_u16Bytes_hi (pre post : List UInt8) (v : UInt16) :
    (pre ++ u16Bytes v ++ post).getD pre.length 0 = (v >>> 8).toUInt8 := by
  simp [u16Bytes, List.getD_eq_getElem?_getD]

theorem getD_u16Bytes_lo (pre post : List UInt8) (v : UInt16) :
    (pre ++ u16Bytes v ++ post).getD (pre.length + 1) 0 = v.toUInt8 := by
  simp [u16Bytes, List.getD_eq_getElem?_getD]

@[simp] theorem asBytes_append (s t : List Char) : asBytes (s ++ t) = asBytes s ++ asBytes t := by
  simp [asBytes]

theorem length_asBytes (s : List Char) : (asBytes s).length = (s.map Char.utf8Size).sum := by
  simp [asBytes, List.length_flatMap]

/-- An ASCII string has one byte a character, so taking characters takes
    bytes. -/
theorem asBytes_take_of_ascii {s : List Char} (hs : ∀ c ∈ s, c.utf8Size = 1) (n : Nat) :
    asBytes (s.take n) = (asBytes s).take n := by
  induction s generalizing n with
  | nil => simp [asBytes]
  | cons c s ih =>
    have hc : String.utf8EncodeChar c = [c.val.toUInt8] :=
      String.utf8EncodeChar_eq_singleton (hs c List.mem_cons_self)
    cases n with
    | zero => simp [asBytes]
    | succ n =>
      have ih' := ih (fun c' h' => hs c' (List.mem_cons_of_mem c h')) n
      simp only [asBytes, List.take_succ_cons, List.flatMap_cons, hc] at ih' ⊢
      simp [ih']

theorem length_asBytes_of_ascii {s : List Char} (hs : ∀ c ∈ s, c.utf8Size = 1) :
    (asBytes s).length = s.length := by
  rw [length_asBytes, List.map_congr_left hs]
  simp

theorem fromUtf8_asBytes (s : List Char) : fromUtf8 (asBytes s) = some s := by
  have h : ByteArray.mk (asBytes s).toArray = s.utf8Encode := by
    ext1
    simp [asBytes, List.utf8Encode]
  simp [fromUtf8, h]

theorem foldl_beValue (acc : Nat) (bs : List UInt8) :
    bs.foldl (fun acc b => acc * 256 + b.toNat) acc = acc * 256 ^ bs.length + beValue bs := by
  induction bs generalizing acc with
  | nil => simp [beValue]
  | cons b bs ih =>
    -- the fold from `0` is the fold from `b`, by the same statement
    have hb : beValue (b :: bs) = b.toNat * 256 ^ bs.length + beValue bs := by
      rw [beValue, List.foldl_cons, Nat.zero_mul, Nat.zero_add, ih]
    rw [List.foldl_cons, ih, hb, List.length_cons, Nat.pow_succ]
    ring

theorem beValue_append (xs ys : List UInt8) :
    beValue (xs ++ ys) = beValue xs * 256 ^ ys.length + beValue ys := by
  rw [beValue, List.foldl_append, foldl_beValue]
  rfl

theorem beValue_cons (b : UInt8) (bs : List UInt8) :
    beValue (b :: bs) = b.toNat * 256 ^ bs.length + beValue bs := by
  rw [beValue, List.foldl_cons, Nat.zero_mul, Nat.zero_add, foldl_beValue]

theorem beValue_lt (bs : List UInt8) : beValue bs < 256 ^ bs.length := by
  induction bs with
  | nil => simp [beValue]
  | cons b bs ih =>
    have hb : b.toNat ≤ 255 := by have := b.toNat_lt; omega
    rw [beValue_cons, List.length_cons, Nat.pow_succ]
    calc b.toNat * 256 ^ bs.length + beValue bs < 255 * 256 ^ bs.length + 256 ^ bs.length := by
          have := Nat.mul_le_mul_right (256 ^ bs.length) hb
          omega
      _ = 256 ^ bs.length * 256 := by ring

end Bytes
