/-
  Searching a list for a delimiter and stripping a known prefix: the two
  moves every line and field parser of the proxy is built from
  (`memchr`, `str::find`, `str::strip_prefix`); and searching a strictly
  increasing list (`binary_search`).

  * `idxOf?_append_of_not_mem`: a search skips a part without the
    delimiter, so the first delimiter after a field without one is found at
    the field's length (`idxOf?_append_cons_of_not_mem`); one found in a
    part is found in every extension (`idxOf?_append_of_eq_some`);
  * `dropPrefix?_eq_none_iff`: stripping a prefix fails exactly on the
    lists that do not start with it (on those that do, it leaves the rest,
    `dropPrefix?_append`); `IsPrefix.of_append_cons` says when a field
    followed by a delimiter cannot start with it, and
    `IsPrefix.cases_append_cons` where a window of such a text can stop;
  * `Pairwise.countP_lt_le`: in a strictly increasing list the elements
    below a bound are the first ones, what a `binary_search` that misses
    returns;
  * `splitOn_suffix_iff`: the labels of `r` (between separators) end the
    labels of `h` exactly when `h` is `r` or ends with a separator then
    `r`, that is when `x :: r` ends `x :: h` (`cons_suffix_cons_iff`); `flatMap_append_singleton_prefix_iff` moves a prefix between
    labels each ended by a separator and their lists;
  * `longestMatch`: the entry with the longest matching key, a radix trie's
    ancestor lookup and an address table's longest match over their
    entries (`longestMatch_spec`, `longestMatch_eq_none`);
  * `AgreeOn`: two lists hold the same elements over a range of positions;
    ranges join (`AgreeOn.join`), and agreement over a whole range is
    equality of the slices (`AgreeOn.take_eq`, `AgreeOn.drop_take_eq`);
  * `slice?` and `sliceFrom?`: Rust's range slices, `none` where they panic;
    past a known prefix they read the part that follows
    (`sliceFrom?_of_eq_append`, `slice?_of_eq_append`);
  * `Cyclic`: a list read round and round from a position; readings that
    follow each other join (`Cyclic.append`), and a prefix of a rotation is
    one (`cyclic_take_rotate`);
  * `insertIdx_eq_take_drop`: `Vec::insert` at an index up to the length;
  * `Nodup.filterMap_ite_eq`: what a list without repeats holds for one
    of its elements is held once.
-/
import Mathlib.Data.List.Basic
import Mathlib.Data.List.Rotate
import Mathlib.Data.List.MinMax
import Mathlib.Order.Basic

namespace List

variable {α : Type}

/-- A prefix of `xs ++ a :: ys` that does not hold `a` is a prefix of `xs`. -/
theorem IsPrefix.of_append_cons {p xs ys : List α} {a : α} (h : p <+: xs ++ a :: ys) (ha : a ∉ p) :
    p <+: xs := by
  induction xs generalizing p with
  | nil =>
    rcases List.prefix_cons_iff.1 h with rfl | ⟨t, rfl, -⟩
    · exact List.nil_prefix
    · exact absurd List.mem_cons_self ha
  | cons x xs ih =>
    rcases List.prefix_cons_iff.1 h with rfl | ⟨t, rfl, ht⟩
    · exact List.nil_prefix
    · exact List.cons_prefix_cons.2 ⟨rfl, ih ht fun h' => ha (List.mem_cons_of_mem _ h')⟩

/-- A prefix of `xs ++ a :: ys`, where `xs` does not hold `a`, stops inside
    `xs` or goes through that first `a`. -/
theorem IsPrefix.cases_append_cons {p xs ys : List α} {a : α} (hx : a ∉ xs) (h : p <+: xs ++ a :: ys) :
    (a ∉ p ∧ p <+: xs) ∨ ∃ p', p = xs ++ a :: p' ∧ p' <+: ys := by
  induction xs generalizing p with
  | nil =>
    rcases List.prefix_cons_iff.1 h with rfl | ⟨t, rfl, ht⟩
    · exact .inl ⟨List.not_mem_nil, List.nil_prefix⟩
    · exact .inr ⟨t, rfl, ht⟩
  | cons x xs ih =>
    have hxa : x ≠ a := fun h' => hx (h' ▸ List.mem_cons_self ..)
    rcases List.prefix_cons_iff.1 h with rfl | ⟨t, rfl, ht⟩
    · exact .inl ⟨List.not_mem_nil, List.nil_prefix⟩
    · rcases ih (fun h' => hx (List.mem_cons_of_mem _ h')) ht with ⟨hn, hp⟩ | ⟨p', rfl, hp'⟩
      · refine .inl ⟨?_, List.cons_prefix_cons.2 ⟨rfl, hp⟩⟩
        rintro (_ | ⟨_, h'⟩)
        exacts [hxa rfl, hn h']
      · exact .inr ⟨p', rfl, hp'⟩

/-! ## Joining labels -/

theorem intercalate_append_of_ne_nil (x : α) {ls ls' : List (List α)} (h : ls ≠ []) (h' : ls' ≠ []) :
    [x].intercalate (ls ++ ls') = [x].intercalate ls ++ x :: [x].intercalate ls' := by
  induction ls with
  | nil => exact absurd rfl h
  | cons l ls ih =>
    cases ls with
    | nil => simp [List.intercalate_cons_of_ne_nil h']
    | cons l' ls =>
      rw [List.cons_append, List.intercalate_cons_of_ne_nil (by simp), ih (List.cons_ne_nil _ _),
        List.intercalate_cons_cons]
      simp

/-- Joining labels with `x` and ending with `x` ends every label with `x`. -/
theorem intercalate_append_singleton (x : α) {ls : List (List α)} (h : ls ≠ []) :
    [x].intercalate ls ++ [x] = ls.flatMap (· ++ [x]) := by
  induction ls with
  | nil => exact absurd rfl h
  | cons l ls ih =>
    cases ls with
    | nil => simp
    | cons l' ls =>
      rw [List.intercalate_cons_cons, List.append_assoc, ih (List.cons_ne_nil _ _),
        List.flatMap_cons]
      simp

/-- `x :: r` ends `x :: h` exactly when `h` is `r` or ends with `x` then `r`. -/
theorem cons_suffix_cons_iff {x : α} {r h : List α} : x :: r <:+ x :: h ↔ r = h ∨ ∃ y, h = y ++ x :: r := by
  constructor
  · rintro ⟨t, ht⟩
    rcases List.append_eq_cons_iff.1 ht with ⟨-, hrh⟩ | ⟨t', -, ht'⟩
    · exact .inl (List.cons.inj hrh).2
    · exact .inr ⟨t', ht'⟩
  · rintro (rfl | ⟨y, rfl⟩)
    · exact List.suffix_refl _
    · exact ⟨x :: y, rfl⟩

/-! ## Agreeing on a range of positions -/

section Agree

/-- `l` holds the elements of `m` at the positions from `lo` below `hi`. -/
def AgreeOn (lo hi : Nat) (l m : List α) : Prop := ∀ i, lo ≤ i → i < hi → l[i]? = m[i]?

variable {lo hi : Nat} {l m : List α}

theorem AgreeOn.mono {lo' hi' : Nat} (h : AgreeOn lo hi l m) (hlo : lo ≤ lo') (hhi : hi' ≤ hi) :
    AgreeOn lo' hi' l m :=
  fun i h₁ h₂ => h i (by omega) (by omega)

/-- Two ranges that overlap or touch join. -/
theorem AgreeOn.join {mid mid' : Nat} (h₁ : AgreeOn lo mid l m) (h₂ : AgreeOn mid' hi l m) (hmid : mid' ≤ mid) :
    AgreeOn lo hi l m := by
  intro i hlo hhi
  by_cases hi' : i < mid
  · exact h₁ i hlo hi'
  · exact h₂ i (by omega) hhi

theorem AgreeOn.take_eq (h : AgreeOn 0 hi l m) : l.take hi = m.take hi := by
  apply List.ext_getElem?
  intro i
  simp only [List.getElem?_take]
  split_ifs with hi'
  · exact h i (Nat.zero_le i) hi'
  · rfl

theorem AgreeOn.drop_take_eq {k : Nat} (h : AgreeOn lo (lo + k) l m) :
    (l.drop lo).take k = (m.drop lo).take k := by
  apply List.ext_getElem?
  intro i
  simp only [List.getElem?_take, List.getElem?_drop]
  split_ifs with hi'
  · exact h (lo + i) (Nat.le_add_right lo i) (by omega)
  · rfl

/-- Lists of one length that agree all along are equal. -/
theorem AgreeOn.eq (h : AgreeOn 0 l.length l m) (hlen : l.length = m.length) : l = m := by
  apply List.ext_getElem?
  intro i
  by_cases hi' : i < l.length
  · exact h i (Nat.zero_le i) hi'
  · rw [List.getElem?_eq_none (by omega), List.getElem?_eq_none (by omega)]

end Agree

/-! ## Slices -/

section Slice

/-- `&l[a..b]`; `none` where the slice panics. -/
def slice? (l : List α) (a b : Nat) : Option (List α) :=
  if a ≤ b ∧ b ≤ l.length then some ((l.drop a).take (b - a)) else none

/-- `&l[a..]`; `none` where the slice panics. -/
def sliceFrom? (l : List α) (a : Nat) : Option (List α) :=
  if a ≤ l.length then some (l.drop a) else none

theorem slice?_eq {l : List α} {a b : Nat} (hab : a ≤ b) (hb : b ≤ l.length) :
    l.slice? a b = some ((l.drop a).take (b - a)) := by
  simp [slice?, hab, hb]

theorem sliceFrom?_eq {l : List α} {a : Nat} (ha : a ≤ l.length) : l.sliceFrom? a = some (l.drop a) := by
  simp [sliceFrom?, ha]

/-- The slice from the end of a prefix is what follows it. -/
theorem sliceFrom?_of_eq_append {l p s : List α} {a : Nat} (h : l = p ++ s) (hp : p.length = a) :
    l.sliceFrom? a = some s := by
  subst h hp
  rw [sliceFrom?_eq (by simp), List.drop_left]

/-- The slice over a middle part is that part. -/
theorem slice?_of_eq_append {l p m s : List α} {a b : Nat} (h : l = p ++ m ++ s) (hp : p.length = a)
    (hm : a + m.length = b) : l.slice? a b = some m := by
  subst h hp hm
  rw [slice?_eq (by omega) (by simp), List.append_assoc, List.drop_left, Nat.add_sub_cancel_left,
    List.take_left]

end Slice

/-! ## Reading a list round and round -/

section Cyclic

/-- `xs` reads `l` round and round from position `r`: its `k`th element is
    `l[(r + k) % l.length]`. -/
def Cyclic (l : List α) (r : Nat) (xs : List α) : Prop :=
  ∀ k, k < xs.length → xs[k]? = l[(r + k) % l.length]?

theorem cyclic_nil (l : List α) (r : Nat) : Cyclic l r [] := fun _ hk => absurd hk (Nat.not_lt_zero _)

/-- Two readings, the second from where the first stopped, are one reading. -/
theorem Cyclic.append {l xs ys : List α} {r : Nat} (hx : Cyclic l r xs)
    (hy : Cyclic l ((r + xs.length) % l.length) ys) : Cyclic l r (xs ++ ys) := by
  intro k hk
  by_cases h : k < xs.length
  · rw [getElem?_append_left h]
    exact hx k h
  · have hk' : k - xs.length < ys.length := by
      simp only [length_append] at hk
      omega
    rw [getElem?_append_right (Nat.le_of_not_lt h), hy _ hk', Nat.mod_add_mod]
    congr 2
    omega

/-- The first `m ≤ l.length` elements of `l.rotate r` read `l` from `r`. -/
theorem cyclic_take_rotate {l : List α} {r m : Nat} (hm : m ≤ l.length) :
    Cyclic l r ((l.rotate r).take m) := by
  intro k hk
  have hkm : k < m := Nat.lt_of_lt_of_le hk (length_take_le _ _)
  rw [getElem?_take_of_lt hkm, getElem?_rotate (Nat.lt_of_lt_of_le hkm hm), Nat.add_comm]

end Cyclic

theorem insertIdx_eq_take_drop {l : List α} {i : Nat} (h : i ≤ l.length) (a : α) :
    l.insertIdx i a = l.take i ++ a :: l.drop i := by
  induction l generalizing i with
  | nil =>
    rw [Nat.le_zero.1 h]
    rfl
  | cons x l ih =>
    cases i with
    | zero => rfl
    | succ i => simp [insertIdx_succ_cons, ih (Nat.le_of_succ_le_succ h)]

variable [BEq α] [LawfulBEq α]

/-! ## Searching for a delimiter -/

theorem idxOf?_append_of_not_mem {a : α} {xs ys : List α} (hx : a ∉ xs) :
    (xs ++ ys).idxOf? a = (ys.idxOf? a).map (· + xs.length) := by
  induction xs with
  | nil => simp
  | cons x xs ih =>
    have hxa : x ≠ a := fun h => hx (h ▸ List.mem_cons_self ..)
    rw [List.cons_append, List.idxOf?_cons, ih (fun h => hx (List.mem_cons_of_mem _ h))]
    simp [hxa, Option.map_map, Function.comp_def, Nat.add_assoc]

theorem idxOf?_append_cons_of_not_mem {a : α} {xs ys : List α} (hx : a ∉ xs) :
    (xs ++ a :: ys).idxOf? a = some xs.length := by
  rw [idxOf?_append_of_not_mem hx, List.idxOf?_cons]
  simp

/-- A delimiter found in a part is found there in every extension. -/
theorem idxOf?_append_of_eq_some {a : α} {xs ys : List α} {p : Nat} (h : xs.idxOf? a = some p) :
    (xs ++ ys).idxOf? a = some p := by
  obtain ⟨hp, hxa, hbefore⟩ := List.idxOf?_eq_some_iff.1 h
  refine List.idxOf?_eq_some_iff.2 ⟨by simp; omega, by rw [List.getElem_append_left hp]; exact hxa, fun j hj => ?_⟩
  rw [List.getElem_append_left (by omega)]
  exact hbefore j hj

/-- Where a search finds the delimiter, the list is a part without it, the
    delimiter, and the rest. -/
theorem eq_of_idxOf?_eq_some {a : α} {xs : List α} {p : Nat} (h : xs.idxOf? a = some p) :
    xs = xs.take p ++ a :: xs.drop (p + 1) ∧ a ∉ xs.take p := by
  obtain ⟨hp, hxa, hbefore⟩ := List.idxOf?_eq_some_iff.1 h
  refine ⟨?_, fun hm => ?_⟩
  · conv_lhs => rw [← List.take_append_drop p xs]
    rw [List.drop_eq_getElem_cons hp, hxa]
  · obtain ⟨j, hj, hjx⟩ := List.getElem_of_mem hm
    rw [List.getElem_take] at hjx
    exact hbefore j (by simp at hj; omega) hjx

/-! ## Stripping a prefix -/

theorem dropPrefix?_append (p s : List α) : (p ++ s).dropPrefix? p = some s :=
  List.dropPrefix?_append_of_beq s (beq_self_eq_true p)

theorem dropPrefix?_eq_none_iff {l p : List α} : l.dropPrefix? p = none ↔ ¬ p <+: l := by
  constructor
  · rintro h ⟨s, rfl⟩
    rw [dropPrefix?_append] at h
    cases h
  · intro h
    cases hd : l.dropPrefix? p with
    | none => rfl
    | some s =>
      obtain ⟨p', rfl, hp'⟩ := List.dropPrefix?_eq_some_iff.1 hd
      exact absurd ⟨s, by rw [eq_of_beq hp']⟩ h

/-! ## Strictly increasing lists -/

section Sorted

variable {β : Type} [LinearOrder β] {v : List β}

theorem Pairwise.getElem_le_of_le (hv : v.Pairwise (· < ·)) {i j : Nat} (hj : j < v.length) (hij : i ≤ j) :
    v[i] ≤ v[j] := by
  rcases Nat.lt_or_eq_of_le hij with hlt | rfl
  · exact le_of_lt (List.pairwise_iff_getElem.1 hv i j (by omega) hj hlt)
  · exact le_rfl

/-- In a strictly increasing list at most `i` elements lie below a bound
    that `v[i]` reaches. -/
theorem Pairwise.countP_lt_le (hv : v.Pairwise (· < ·)) {i : Nat} (hi : i < v.length) {x : β}
    (hx : x ≤ v[i]) : v.countP (· < x) ≤ i := by
  have hdrop : (v.drop i).countP (· < x) = 0 := by
    refine List.countP_eq_zero.2 fun y hy => ?_
    obtain ⟨k, hk, rfl⟩ := List.mem_iff_getElem.1 hy
    rw [List.getElem_drop]
    have := hv.getElem_le_of_le (i := i) (j := i + k) (by simp at hk; omega) (by omega)
    simpa using le_trans hx this
  have htake : (v.take i).countP (· < x) ≤ i :=
    Nat.le_trans List.countP_le_length (List.length_take_le _ _)
  rw [← List.take_append_drop i v, List.countP_append, hdrop]
  omega

/-- In a strictly increasing list the elements up to one below a bound all
    lie below it. -/
theorem Pairwise.lt_countP_lt (hv : v.Pairwise (· < ·)) {i : Nat} (hi : i < v.length) {x : β}
    (hx : v[i] < x) : i < v.countP (· < x) := by
  have htake : ∀ y ∈ v.take (i + 1), y < x := by
    intro y hy
    obtain ⟨k, hk, rfl⟩ := List.mem_iff_getElem.1 hy
    rw [List.getElem_take]
    have := hv.getElem_le_of_le (i := k) hi (by simp at hk; omega)
    exact lt_of_le_of_lt this hx
  have hcount : (v.take (i + 1)).countP (· < x) = i + 1 := by
    rw [List.countP_eq_length.2 (by simpa using htake)]
    simp
    omega
  have hle : (v.take (i + 1)).countP (· < x) ≤ v.countP (· < x) :=
    (List.take_sublist _ _).countP_le
  omega

end Sorted

/-! ## Labels between separators -/

section Labels

variable (x : α)

/-- Labels without `x`, each ended by `x`: one such list starts another
    exactly when its labels start the other's. -/
theorem flatMap_append_singleton_prefix_iff {rs hs : List (List α)} (hr : ∀ l ∈ rs, x ∉ l)
    (hh : ∀ l ∈ hs, x ∉ l) : rs.flatMap (· ++ [x]) <+: hs.flatMap (· ++ [x]) ↔ rs <+: hs := by
  constructor
  · intro hp
    induction rs generalizing hs with
    | nil => exact List.nil_prefix
    | cons r rs ih =>
      cases hs with
      | nil =>
        obtain ⟨t, ht⟩ := hp
        simp at ht
      | cons h hs =>
        obtain ⟨t, ht⟩ := hp
        simp only [List.flatMap_cons, List.append_assoc, List.cons_append] at ht
        -- the first separator ends the first label on both sides
        have hlen : r.length = h.length := by
          have hidx := congrArg (List.idxOf? x) ht
          rw [idxOf?_append_cons_of_not_mem (hr r List.mem_cons_self),
            idxOf?_append_cons_of_not_mem (hh h List.mem_cons_self)] at hidx
          exact Option.some_inj.1 hidx
        obtain ⟨rfl, hrest⟩ := List.append_inj ht hlen
        refine List.cons_prefix_cons.2 ⟨rfl, ih (fun l hl => hr l (List.mem_cons_of_mem _ hl))
          (fun l hl => hh l (List.mem_cons_of_mem _ hl)) ⟨t, ?_⟩⟩
        simpa using hrest
  · rintro ⟨t, rfl⟩
    exact ⟨t.flatMap (· ++ [x]), by simp⟩

/-- The labels of `r` end those of `h` exactly when `h` is `r` or ends
    with `x` then `r`. -/
theorem splitOn_suffix_iff {r h : List α} :
    r.splitOn x <:+ h.splitOn x ↔ r = h ∨ ∃ y, h = y ++ x :: r := by
  constructor
  · rintro ⟨A, hA⟩
    cases A with
    | nil =>
      left
      have hr : [x].intercalate (r.splitOn x) = r := List.intercalate_splitOn x
      have hh : [x].intercalate (h.splitOn x) = h := List.intercalate_splitOn x
      rw [← hr, ← hh, ← hA, List.nil_append]
    | cons a A =>
      -- the labels before those of `r` join to the `y` in front
      right
      refine ⟨[x].intercalate (a :: A), ?_⟩
      have hh : [x].intercalate (h.splitOn x) = h := List.intercalate_splitOn x
      rw [← hh, ← hA,
        intercalate_append_of_ne_nil x (List.cons_ne_nil _ _) (List.splitOn_ne_nil _ _),
        List.intercalate_splitOn]
  · rintro (rfl | ⟨y, rfl⟩)
    · exact List.suffix_refl _
    · rw [List.splitOn_append_cons_self]
      exact List.suffix_append _ _

/-- The labels hold no separator. -/
theorem not_mem_of_mem_splitOn {s l : List α} (hl : l ∈ s.splitOn x) : x ∉ l := by
  induction s generalizing l with
  | nil =>
    rw [List.splitOn_nil, List.mem_singleton] at hl
    subst hl
    exact List.not_mem_nil
  | cons a s ih =>
    rw [List.splitOn_cons_eq_if_modifyHead] at hl
    split at hl
    · -- a separator: an empty label, then the labels of the rest
      rcases List.mem_cons.1 hl with rfl | hl
      · exact List.not_mem_nil
      · exact ih hl
    · next ha =>
      -- otherwise the first label of the rest gains `a`
      obtain ⟨l₀, L, hL⟩ := List.exists_cons_of_ne_nil (List.splitOn_ne_nil x s)
      rw [hL, List.modifyHead_cons] at hl
      rcases List.mem_cons.1 hl with rfl | hl
      · intro hx
        rcases List.mem_cons.1 hx with hxa | hx
        · exact ha (by rw [← hxa, beq_self_eq_true])
        · exact ih (by rw [hL]; exact List.mem_cons_self) hx
      · exact ih (by rw [hL]; exact List.mem_cons_of_mem _ hl)

end Labels

/-! ## The longest matching entry -/

section LongestMatch

variable {κ β : Type} (fits : κ → Bool) (len : κ → Nat)

/-- The entry with the longest key among those whose key fits (the first
    of them on a tie). -/
def longestMatch (entries : List (κ × β)) : Option (κ × β) :=
  (entries.filter (fits ·.1)).argmax (len ·.1)

theorem longestMatch_eq_none {entries : List (κ × β)} :
    longestMatch fits len entries = none ↔ ∀ e ∈ entries, fits e.1 = false := by
  simp [longestMatch, List.filter_eq_nil_iff]

theorem longestMatch_spec {entries : List (κ × β)} {e : κ × β}
    (h : longestMatch fits len entries = some e) :
    e ∈ entries ∧ fits e.1 = true ∧ ∀ e' ∈ entries, fits e'.1 = true → len e'.1 ≤ len e.1 := by
  have hm : e ∈ entries.filter (fits ·.1) := List.argmax_mem h
  rw [List.mem_filter] at hm
  exact ⟨hm.1, hm.2, fun e' he' hfe' =>
    List.le_of_mem_argmax (f := fun e : κ × β => len e.1) (List.mem_filter.2 ⟨he', hfe'⟩) h⟩

end LongestMatch

/-! ## Picking one element out of a list without repeats -/

theorem Nodup.filterMap_ite_eq [DecidableEq α] {β : Type} {l : List α} (hl : l.Nodup) (x : α) (v : β) :
    l.filterMap (fun z => if z = x then some v else none) = if x ∈ l then [v] else [] := by
  induction l with
  | nil => simp
  | cons y l ih =>
    obtain ⟨hy, hl'⟩ := List.nodup_cons.1 hl
    by_cases hyx : y = x
    · -- `x` heads the list, so the rest does not hold it
      subst hyx
      simp [ih hl', hy]
    · simp [ih hl', hyx, Ne.symm hyx]

end List
