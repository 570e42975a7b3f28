/-
  Hexadecimal numerals over bytes: the digits `0-9`, `a-f`, `A-F`, the value
  of a digit string read most significant digit first, and the lowercase
  numeral of a number as `{:x}` formats it.

  * `hexValue` reads a string of digits; `hexValue_append` splits it.
  * `lowerHex n` is built by `toHexAux`, which pushes the digits of `n` in
    front of an accumulator; `hexValue_lowerHex` says it reads back as `n`,
    and `lowerHex_hex` / `lowerHex_ne_nil` that it is a non-empty string of
    digits.
  * `FromRadix16` is what a parser of the longest digit prefix returns, below
    `2^64`; `hexPrefixValue` is one such parser, and so is
    `fromRadix16Wrapping`, the digit loop of `from_radix_16` with `u64`
    arithmetic that wraps, which past `2^64` reads the value modulo `2^64`.
-/
import Mathlib.Tactic.Ring
import Mathlib.Tactic.IntervalCases

namespace Hex

/-- A hexadecimal digit. -/
def isHexDigit (b : UInt8) : Bool :=
  (48 ≤ b && b ≤ 57) || (97 ≤ b && b ≤ 102) || (65 ≤ b && b ≤ 70)

/-- The value of a hexadecimal digit. -/
def digitValue (b : UInt8) : Nat :=
  if b ≤ 57 then b.toNat - 48 else if b ≤ 70 then b.toNat - 55 else b.toNat - 87

/-- The value of a string of digits, most significant first. -/
def hexValue (ds : List UInt8) : Nat :=
  ds.foldl (fun acc d => 16 * acc + digitValue d) 0

/-- The lowercase digit of a value below 16. -/
def digitChar (d : Nat) : UInt8 :=
  if d < 10 then UInt8.ofNat (48 + d) else UInt8.ofNat (87 + d)

/-- The digits of `n` pushed in front of `acc`, with `fuel` divisions. -/
def toHexAux : Nat → Nat → List UInt8 → List UInt8
  | 0, _, acc => acc
  | fuel + 1, n, acc =>
    let acc := digitChar (n % 16) :: acc
    if n < 16 then acc else toHexAux fuel (n / 16) acc

/-- `{:x}`: the lowercase hexadecimal numeral of `n`, without leading zeros. -/
def lowerHex (n : Nat) : List UInt8 := toHexAux (n + 1) n []

example : lowerHex 0 = [48] := by decide
example : lowerHex 0x1f = [49, 102] := by decide

theorem foldl_value_eq (acc : Nat) (ds : List UInt8) :
    ds.foldl (fun acc d => 16 * acc + digitValue d) acc = 16 ^ ds.length * acc + hexValue ds := by
  induction ds generalizing acc with
  | nil => simp [hexValue]
  | cons d ds ih =>
    simp only [hexValue, List.foldl_cons, List.length_cons] at ih ⊢
    rw [ih, ih (16 * 0 + digitValue d), pow_succ]
    ring

theorem hexValue_append (xs ys : List UInt8) :
    hexValue (xs ++ ys) = 16 ^ ys.length * hexValue xs + hexValue ys := by
  rw [hexValue, List.foldl_append, foldl_value_eq]
  rfl

@[simp] theorem hexValue_nil : hexValue [] = 0 := rfl

theorem hexValue_cons (d : UInt8) (ds : List UInt8) :
    hexValue (d :: ds) = 16 ^ ds.length * digitValue d + hexValue ds := by
  rw [show d :: ds = [d] ++ ds from rfl, hexValue_append]
  simp [hexValue]

/-- A string of `0` digits reads as `0`. -/
theorem hexValue_zeros {ds : List UInt8} (h : ∀ d ∈ ds, d = 48) : hexValue ds = 0 := by
  induction ds with
  | nil => rfl
  | cons d ds ih =>
    have h48 : digitValue 48 = 0 := by decide
    rw [hexValue_cons, h d (List.mem_cons_self ..), ih fun d hd => h d (List.mem_cons_of_mem _ hd), h48]
    rfl

theorem digitValue_digitChar {d : Nat} (h : d < 16) : digitValue (digitChar d) = d := by
  interval_cases d <;> decide

theorem isHexDigit_digitChar {d : Nat} (h : d < 16) : isHexDigit (digitChar d) = true := by
  interval_cases d <;> decide

/-- `toHexAux` with enough fuel reads back as `n` followed by `acc`. -/
theorem hexValue_toHexAux {fuel n : Nat} (hf : n < fuel) (acc : List UInt8) :
    hexValue (toHexAux fuel n acc) = 16 ^ acc.length * n + hexValue acc := by
  induction fuel generalizing n acc with
  | zero => omega
  | succ fuel ih =>
    have hd : n % 16 < 16 := Nat.mod_lt n (by norm_num)
    by_cases hn : n < 16
    · -- one digit left
      simp only [toHexAux, if_pos hn]
      rw [hexValue_cons, digitValue_digitChar hd, Nat.mod_eq_of_lt hn]
    · -- the last digit goes in front of the accumulator, the rest is `n / 16`
      simp only [toHexAux, if_neg hn]
      rw [ih (by omega), hexValue_cons, digitValue_digitChar hd, List.length_cons, pow_succ]
      have hdiv : n = 16 * (n / 16) + n % 16 := (Nat.div_add_mod n 16).symm
      conv_rhs => rw [hdiv]
      ring

theorem hexValue_lowerHex (n : Nat) : hexValue (lowerHex n) = n := by
  simpa [lowerHex] using hexValue_toHexAux (Nat.lt_succ_self n) []

theorem toHexAux_hex {fuel n : Nat} {acc : List UInt8} (hacc : ∀ d ∈ acc, isHexDigit d = true) :
    ∀ d ∈ toHexAux fuel n acc, isHexDigit d = true := by
  induction fuel generalizing n acc with
  | zero => exact hacc
  | succ fuel ih =>
    have hpush : ∀ d ∈ digitChar (n % 16) :: acc, isHexDigit d = true := by
      intro d hd
      rcases List.mem_cons.1 hd with rfl | hd
      · exact isHexDigit_digitChar (Nat.mod_lt n (by norm_num))
      · exact hacc d hd
    simp only [toHexAux]
    split_ifs
    · exact hpush
    · exact ih hpush

theorem lowerHex_hex (n : Nat) : ∀ d ∈ lowerHex n, isHexDigit d = true :=
  toHexAux_hex (by simp)

theorem toHexAux_ne_nil (fuel n : Nat) (acc : List UInt8) (hf : 0 < fuel) :
    toHexAux fuel n acc ≠ [] := by
  induction fuel generalizing n acc with
  | zero => omega
  | succ fuel ih =>
    simp only [toHexAux]
    split_ifs
    · simp
    · cases fuel with
      | zero => simp [toHexAux]
      | succ fuel => exact ih _ _ (by omega)

theorem lowerHex_ne_nil (n : Nat) : lowerHex n ≠ [] :=
  toHexAux_ne_nil _ _ _ (by omega)

theorem toHexAux_length_le {fuel n k : Nat} {acc : List UInt8} (h : n < 16 ^ (k + 1)) :
    (toHexAux fuel n acc).length ≤ acc.length + k + 1 := by
  induction fuel generalizing n k acc with
  | zero => simp [toHexAux]; omega
  | succ fuel ih =>
    simp only [toHexAux]
    split_ifs with h16
    · simp
    · -- a digit is pushed and `n / 16` has one digit less
      cases k with
      | zero => simp at h; omega
      | succ k =>
        have hdiv : n / 16 < 16 ^ (k + 1) := by
          rw [Nat.div_lt_iff_lt_mul (by norm_num), ← pow_succ]
          exact h
        have := @ih (n / 16) k (digitChar (n % 16) :: acc) hdiv
        simp only [List.length_cons] at this
        omega

/-- A value below `16^k` has at most `k` digits. -/
theorem lowerHex_length_le {n k : Nat} (h : n < 16 ^ k) (hk : 0 < k) : (lowerHex n).length ≤ k := by
  obtain ⟨k, rfl⟩ := Nat.exists_eq_add_of_lt hk
  have := @toHexAux_length_le (n + 1) n k [] (by simpa using h)
  simpa [lowerHex] using this

/-! ## Parsers of a digit prefix -/

/-- The value and the length of the longest prefix of digits. -/
def hexPrefixValue (bs : List UInt8) : Nat × Nat :=
  (hexValue (bs.takeWhile isHexDigit), (bs.takeWhile isHexDigit).length)

/-- A parser that returns the value and the length of the longest prefix of
    digits, whenever that value is below `2^64`. -/
def FromRadix16 (f : List UInt8 → Nat × Nat) : Prop :=
  ∀ bs, hexValue (bs.takeWhile isHexDigit) < 2 ^ 64 → f bs = hexPrefixValue bs

theorem fromRadix16_hexPrefixValue : FromRadix16 hexPrefixValue := fun _ _ => rfl

/-- The digit prefix of digits followed by a byte that is not one. -/
theorem takeWhile_hex_append {ds rest : List UInt8} (hds : ∀ d ∈ ds, isHexDigit d = true)
    (hrest : ∀ b ∈ rest.head?, isHexDigit b = false) :
    (ds ++ rest).takeWhile isHexDigit = ds := by
  induction ds with
  | nil =>
    cases rest with
    | nil => rfl
    | cons b rest => simp [hrest b (by simp)]
  | cons d ds ih =>
    simp only [List.cons_append, List.takeWhile_cons, hds d (List.mem_cons_self ..), if_true]
    rw [ih fun d hd => hds d (List.mem_cons_of_mem _ hd)]

/-! ## The digit loop with wrapping arithmetic -/

/-- `u64::from_radix_16` as its digit loop computes it when `u64`
    multiplication and addition wrap, as they do in a release build: the
    longest prefix of digits, accumulated one digit at a time. -/
def fromRadix16Wrapping (bs : List UInt8) : Nat × Nat :=
  (((bs.takeWhile isHexDigit).foldl (fun (acc : UInt64) d => acc * 16 + (digitValue d).toUInt64) 0).toNat,
    (bs.takeWhile isHexDigit).length)

theorem foldl_wrapping_toNat (ds : List UInt8) (acc : UInt64) :
    (ds.foldl (fun (acc : UInt64) d => acc * 16 + (digitValue d).toUInt64) acc).toNat =
      (16 ^ ds.length * acc.toNat + hexValue ds) % 2 ^ 64 := by
  induction ds generalizing acc with
  | nil => simp [Nat.mod_eq_of_lt (UInt64.toNat_lt acc)]
  | cons d ds ih =>
    -- one digit: the accumulator wraps, and the rest reads it back modulo `2^64`
    have hstep : (acc * 16 + (digitValue d).toUInt64).toNat = (acc.toNat * 16 + digitValue d) % 2 ^ 64 := by
      simp
    rw [List.foldl_cons, ih, hstep, hexValue_cons, List.length_cons, pow_succ]
    conv_lhs => rw [Nat.add_mod, Nat.mul_mod, Nat.mod_mod, ← Nat.mul_mod, ← Nat.add_mod]
    ring_nf

/-- The wrapping loop reads the digit prefix modulo `2^64`. -/
theorem fromRadix16Wrapping_fst (bs : List UInt8) :
    (fromRadix16Wrapping bs).1 = hexValue (bs.takeWhile isHexDigit) % 2 ^ 64 := by
  simp [fromRadix16Wrapping, foldl_wrapping_toNat]

end Hex
